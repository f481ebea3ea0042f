import Mathlib.Order.Defs.LinearOrder
import Mathlib.Tactic.TFAE
import TypedId.Identifier.Format

/-!
Identifiers as ordered values. Every comparison of a generated type is read off one order, and that order is
the one of the stored integers (`order_eq_compare`); so the functions of the type form a linear order, and
whatever holds of ordered values holds of identifiers. Equality, hashing and text tell the same values
apart (`same_tfae`).
-/
namespace TypedId

/-! ## Numerals -/

namespace Text

theorem natural?_toDigits (n : Nat) : natural? (Nat.toDigits 10 n) = some n := by
  have hdigits : (Nat.toDigits 10 n).all Char.isDigit = true :=
    List.all_eq_true.mpr fun c hc => Nat.isDigit_of_mem_toDigits (by decide) (by decide) hc
  have hne : (Nat.toDigits 10 n).isEmpty = false := List.isEmpty_eq_false_iff.mpr Nat.toDigits_ne_nil
  have hvalue : (Nat.toDigits 10 n).foldl (fun k c => k * 10 + (c.toNat - '0'.toNat)) 0 = n := by
    simpa only [Nat.ofDigitChars_eq_foldl, Nat.mul_comm] using Nat.ofDigitChars_ten_toDigits (n := n)
  rw [natural?, hdigits, hne, hvalue]
  rfl

/-- No sign stands before digits. -/
theorem integer?_toDigits (n : Nat) : integer? (Nat.toDigits 10 n) = some (n : Int) := by
  have hdigit : ∀ c ∈ Nat.toDigits 10 n, c.isDigit = true :=
    fun c hc => Nat.isDigit_of_mem_toDigits (by decide) (by decide) hc
  have hplus : dropPlus (Nat.toDigits 10 n) = Nat.toDigits 10 n := by
    unfold dropPlus
    split
    · next cs hcs => exact absurd (hdigit '+' (hcs ▸ List.mem_cons_self)) (by decide)
    · rfl
  unfold integer?
  split
  · next cs hcs => exact absurd (hdigit '-' (hcs ▸ List.mem_cons_self)) (by decide)
  · rw [hplus, natural?_toDigits]
    rfl

theorem integer?_numeral (n : Int) : integer? (numeral n) = some n := by
  rw [numeral]
  split
  · rw [integer?, natural?_toDigits]
    exact congrArg some (show -(n.natAbs : Int) = n by omega)
  · rw [integer?_toDigits]
    exact congrArg some (by omega)

theorem numeral_inj {m n : Int} : numeral m = numeral n ↔ m = n := by
  constructor
  · intro h
    have hread := integer?_numeral m
    rw [h, integer?_numeral] at hread
    exact (Option.some.inj hread).symm
  · exact congrArg numeral

/-- The numeral is the one that integers are printed with. -/
theorem numeral_eq_toString (n : Int) : numeral n = (toString n).toList := by
  rw [numeral, Int.toString_eq_repr, Int.repr_eq_if]
  split
  · next hneg =>
    simp only [if_neg (show ¬0 ≤ n by omega), String.toList_append, Nat.repr_eq_ofList_toDigits,
      show (-n).toNat = n.natAbs by omega, String.toList_ofList]
    rfl
  · next hpos =>
    rw [if_pos (by omega), Nat.repr_eq_ofList_toDigits, String.toList_ofList,
      show n.toNat = n.natAbs by omega]

end Text

attribute [ext] Identifier

namespace Identifier

/-! ## The order -/

section Order

variable {a b : Identifier}

theorem order_eq_compare : order a b = compare a.value b.value := by
  simp only [order, compare, compareOfLessAndEq, Int64.lt_iff_toInt_lt, Int64.toInt_inj]

theorem order_eq_lt_iff : order a b = .lt ↔ a.value < b.value := by
  rw [order_eq_compare]
  exact compareOfLessAndEq_eq_lt

theorem order_eq_eq_iff : order a b = .eq ↔ a = b := by
  rw [order_eq_compare, Identifier.ext_iff]
  exact compareOfLessAndEq_eq_eq Int64.le_refl Int64.not_le

theorem order_eq_gt_iff : order a b = .gt ↔ b.value < a.value := by
  rw [order_eq_compare]
  exact compareOfLessAndEq_eq_gt Int64.le_antisymm Int64.le_total Int64.not_le _ _

theorem equal_iff : equal a b = true ↔ a = b := by
  rw [equal, beq_iff_eq, Identifier.ext_iff]

theorem less_iff : less a b = true ↔ a.value < b.value := by
  simp [less, partialOrder, order_eq_lt_iff]

theorem greater_iff : greater a b = true ↔ b.value < a.value := by
  simp [greater, partialOrder, order_eq_gt_iff]

theorem atMost_iff : atMost a b = true ↔ a.value ≤ b.value := by
  rw [atMost, Bool.or_eq_true, less_iff, Int64.le_iff_lt_or_eq]
  simp [partialOrder, order_eq_eq_iff, Identifier.ext_iff]

theorem atLeast_iff : atLeast a b = true ↔ b.value ≤ a.value := by
  rw [atLeast, Bool.or_eq_true, greater_iff, Int64.le_iff_lt_or_eq, @eq_comm _ b.value]
  simp [partialOrder, order_eq_eq_iff, Identifier.ext_iff]

end Order

/-- The functions of the type are a linear order. -/
instance : LinearOrder Identifier where
  le a b := atMost a b = true
  lt a b := less a b = true
  min := smaller
  max := larger
  compare := order
  le_refl a := atMost_iff.mpr (Int64.le_refl _)
  le_trans a b c hab hbc := atMost_iff.mpr (Int64.le_trans (atMost_iff.mp hab) (atMost_iff.mp hbc))
  le_antisymm a b hab hba := Identifier.ext (Int64.le_antisymm (atMost_iff.mp hab) (atMost_iff.mp hba))
  lt_iff_le_not_ge a b := by
    simp only [less_iff, atMost_iff, Int64.not_le]
    exact ⟨fun h => ⟨Int64.le_iff_lt_or_eq.mpr (.inl h), h⟩, And.right⟩
  le_total a b := by simpa only [atMost_iff] using Int64.le_total a.value b.value
  toDecidableLE a b := inferInstanceAs (Decidable (_ = true))
  toDecidableLT a b := inferInstanceAs (Decidable (_ = true))
  toDecidableEq := inferInstance
  min_def a b := by
    simp only [smaller, less_iff, atMost_iff, ← Int64.not_le, ite_not]
  max_def a b := by
    simp only [larger, less_iff, atMost_iff, ← Int64.not_le, ite_not]
  compare_eq_compareOfLessAndEq a b := by
    simp only [order_eq_compare, compare, compareOfLessAndEq, less_iff, Identifier.ext_iff]

/-! ## What is read off the order -/

theorem smaller_eq_min (a b : Int64) : smaller ⟨a⟩ ⟨b⟩ = ⟨min a b⟩ := by
  simp only [smaller, less_iff, ← Int64.not_le, ite_not]
  exact (apply_ite Identifier.mk _ _ _).symm

theorem larger_eq_max (a b : Int64) : larger ⟨a⟩ ⟨b⟩ = ⟨max a b⟩ := by
  simp only [larger, less_iff, ← Int64.not_le, ite_not]
  exact (apply_ite Identifier.mk _ _ _).symm

/-- A value is moved into a range unless the range ends before it begins. -/
theorem clamp?_eq (a low high : Int64) :
    clamp? ⟨a⟩ ⟨low⟩ ⟨high⟩ = if low ≤ high then some ⟨max low (min a high)⟩ else none := by
  simp only [clamp?, atMost_iff, less_iff, greater_iff]
  split
  · next hrange =>
    congr 1
    have hmin : min a high = if a ≤ high then a else high := rfl
    have hmax : ∀ b : Int64, max low b = if low ≤ b then b else low := fun _ => rfl
    grind
  · rfl

/-! ## Text -/

theorem format_plain (a : Identifier) : format {} a = a.text := by
  by_cases hneg : a.value.toInt < 0 <;> simp [format, NumberFormat.pad, text, Text.numeral, hneg]

theorem parse?_text (a : Identifier) : parse? a.text = some a := by
  have hlow := Int64.le_toInt a.value
  have hhigh := Int64.toInt_lt a.value
  rw [parse?, text, Text.integer?_numeral, Option.bind_some, if_pos ⟨by omega, by omega⟩, Int64.ofInt_toInt]

/-- Values that are equal, values that compare as equal in either order, values that a hash takes for the
same and values that print alike are the same integer. -/
theorem same_tfae (a b : Int64) :
    [equal ⟨a⟩ ⟨b⟩ = true, order ⟨a⟩ ⟨b⟩ = .eq, partialOrder ⟨a⟩ ⟨b⟩ = some .eq,
      hashInput ⟨a⟩ = hashInput ⟨b⟩, format {} ⟨a⟩ = format {} ⟨b⟩, a = b].TFAE := by
  have hids : (⟨a⟩ : Identifier) = ⟨b⟩ ↔ a = b := Identifier.mk.injEq a b ▸ Iff.rfl
  tfae_have 1 ↔ 6 := equal_iff.trans hids
  tfae_have 2 ↔ 6 := order_eq_eq_iff.trans hids
  tfae_have 3 ↔ 2 := by rw [partialOrder, Option.some.injEq]
  tfae_have 4 ↔ 6 := by simp [hashInput]
  tfae_have 5 ↔ 6 := by
    rw [format_plain, format_plain, text, text, Text.numeral_inj, Int64.toInt_inj]
  tfae_finish

end Identifier

end TypedId
