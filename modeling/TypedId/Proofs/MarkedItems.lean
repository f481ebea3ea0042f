import TypedId.MarkerAttribute
import TypedId.Proofs.UnitItems

/-!
What the marker does to the item it stands on. `Item.ofTokens?_struct_iff` tells which tokens are read as a
struct: those spelled out by `FormsStruct`, and whatever else an item may be, no other branch of the item
grammar answers a struct (`Answers`). These alone come back as they are; everything else comes back behind
invocations of `compile_error!`, and no token of it is lost or moved (`handBack_keeps_item`).
-/
namespace TypedId

namespace Grammar

/-! ## What a recogniser can answer -/

/-- Whatever tokens it is given, what the recogniser answers has the property. -/
def Answers {α : Type} (P : α → Prop) (p : Parser α) : Prop :=
  ∀ ⦃ts a rest⦄, p ts = some (a, rest) → P a

theorem bind_eq_some_iff {α β : Type} {p : Parser α} {f : α → Parser β} {ts rest : List Token} {b : β} :
    (p >>= f) ts = some (b, rest) ↔ ∃ a us, p ts = some (a, us) ∧ f a us = some (b, rest) := by
  change (p ts).bind (fun x => f x.1 x.2) = some (b, rest) ↔ _
  rw [Option.bind_eq_some_iff, Prod.exists]

namespace Answers

variable {α β : Type} {P : β → Prop}

theorem pure' {b : β} (h : P b) : Answers P (pure b : Parser β) := by
  intro ts b' rest hb
  cases hb
  exact h

theorem failure' : Answers P (failure : Parser β) := by
  intro ts b rest h
  cases h

/-- The last step answers; what the steps before it read does not matter. -/
theorem bind' {p : Parser α} {f : α → Parser β} (hf : ∀ a, Answers P (f a)) : Answers P (p >>= f) := by
  intro ts b rest h
  obtain ⟨a, us, _, hb⟩ := bind_eq_some_iff.mp h
  exact hf a hb

theorem ite' {c : Prop} [Decidable c] {p q : Parser β} (hp : Answers P p) (hq : Answers P q) :
    Answers P (if c then p else q) := by
  split
  · exact hp
  · exact hq

end Answers

/-! ## Items that are no structs -/

/-- The recogniser answers no struct. -/
abbrev NoStruct (p : Parser Item) : Prop := Answers (fun i => ∀ d, i ≠ .struct d) p

section NoStruct

open Answers

variable (go : Reader)

theorem functionItem_noStruct : NoStruct (functionItem go) := by
  unfold functionItem
  repeat refine bind' fun _ => ?_
  exact ite' (pure' nofun) (bind' fun _ => pure' nofun)

theorem externCrate_noStruct : NoStruct externCrate := by
  unfold externCrate
  repeat refine bind' fun _ => ?_
  exact ite' (bind' fun _ => bind' fun _ => pure' nofun) (bind' fun _ => pure' nofun)

theorem foreignModule_noStruct : NoStruct (foreignModule go) := by
  unfold foreignModule
  repeat refine bind' fun _ => ?_
  exact pure' nofun

theorem useItem_noStruct : NoStruct (useItem go) := by
  unfold useItem
  refine bind' fun _ => bind' fun _ => bind' fun _ => bind' fun tree => bind' fun _ => pure' ?_
  cases tree <;> nofun

theorem staticItem_noStruct : NoStruct (staticItem go) := by
  unfold staticItem
  repeat refine bind' fun _ => ?_
  extract_lets typed afterValue afterType
  have hvalue : ∀ r, NoStruct (afterValue r) := fun _ => bind' fun _ => pure' nofun
  have htype : ∀ r, NoStruct (afterType r) := by
    intro r
    exact bind' fun _ => ite' (bind' fun _ => bind' hvalue) (hvalue ())
  exact ite' (bind' fun _ => bind' htype) (htype ())

theorem enumItem_noStruct : NoStruct (enumItem go) := by
  unfold enumItem
  repeat refine bind' fun _ => ?_
  exact pure' nofun

theorem unionItem_noStruct : NoStruct (unionItem go) := by
  unfold unionItem
  repeat refine bind' fun _ => ?_
  exact pure' nofun

theorem traitItem_noStruct : NoStruct (traitItem go) := by
  unfold traitItem
  repeat refine bind' fun _ => ?_
  refine ite' ?_ ?_ <;> repeat refine bind' fun _ => ?_
  all_goals exact pure' nofun

theorem moduleItem_noStruct : NoStruct (moduleItem go) := by
  unfold moduleItem
  repeat refine bind' fun _ => ?_
  exact ite' (pure' nofun) (bind' fun _ => pure' nofun)

theorem implItem_noStruct : NoStruct (implItem go) := by
  unfold implItem
  repeat refine bind' fun _ => ?_
  extract_lets afterParameters
  have hparameters : ∀ r, NoStruct (afterParameters r) := by
    intro r
    refine bind' fun _ => ?_
    extract_lets marked afterMarks
    have hmarks : ∀ r, NoStruct (afterMarks r) := by
      intro r
      refine bind' fun _ => ?_
      extract_lets negative afterSign
      have hsign : ∀ r, NoStruct (afterSign r) := by
        intro r
        refine bind' fun _ => bind' fun _ => ?_
        extract_lets afterTrait
        have htrait : ∀ r, NoStruct (afterTrait r) := by
          intro r
          refine ite' ?_ ?_
          all_goals exact bind' fun _ => bind' fun _ => bind' fun _ => ite' (pure' nofun) (pure' nofun)
        refine ite' ?_ (ite' (bind' htrait) (bind' htrait))
        split
        · exact ite' (bind' htrait) (bind' htrait)
        · exact bind' htrait
      exact ite' (bind' hsign) (hsign ())
    exact ite' (bind' fun _ => bind' hmarks) (hmarks ())
  exact ite' (bind' hparameters) (hparameters ())

/-- An item answers a struct only where the word `struct` stands after the visibility. -/
theorem atStruct_of_item {attributes : List Attribute} {ts rest us : List Token} {v : Visibility}
    {d : StructDecl} (hv : visibility ts = some (v, us)) (h : item go attributes ts = some (.struct d, rest)) :
    atKeyword .kwStruct us = true := by
  by_cases hs : atKeyword .kwStruct us = true
  · exact hs
  · rw [item, bind_of_eq_some (show (get : Parser _) ts = some (ts, ts) from rfl), hv] at h
    dsimp only at h
    rw [if_neg hs] at h
    refine absurd rfl ((?_ : NoStruct _) h d)
    refine ite' (functionItem_noStruct go) (ite' (ite' externCrate_noStruct (foreignModule_noStruct go)) ?_)
    refine ite' (useItem_noStruct go) (ite' (staticItem_noStruct go) (ite' ?_ (ite' ?_ ?_)))
    · exact bind' fun _ => bind' fun _ => pure' nofun
    · refine ite' (traitItem_noStruct go) (ite' (implItem_noStruct go) ?_)
      exact ite' (foreignModule_noStruct go) (moduleItem_noStruct go)
    refine ite' (moduleItem_noStruct go) (ite' ?_ (ite' (enumItem_noStruct go) ?_))
    · exact bind' fun _ => bind' fun _ => pure' nofun
    refine ite' (unionItem_noStruct go) (ite' (traitItem_noStruct go) (ite' (implItem_noStruct go) ?_))
    exact ite' (bind' fun _ => bind' fun _ => pure' nofun) (ite' (bind' fun _ => pure' nofun) failure')

end NoStruct

/-! ## Structs -/

theorem keyword_eq_some_iff {k : Keyword} {ts rest : List Token} {u : Unit} :
    keyword k ts = some (u, rest) ↔ ts = .keyword k :: rest := by
  rw [keyword]
  split
  · next hk =>
    obtain ⟨us, rfl⟩ := atKeyword_iff.mp hk
    simp
  · next hk =>
    simp only [reduceCtorEq, false_iff]
    intro he
    exact hk (atKeyword_iff.mpr ⟨rest, he⟩)

theorem ident_eq_some_iff {ts rest : List Token} {i : Ident} :
    ident ts = some (i, rest) ↔ ts = .word (.ident i) :: rest := by
  unfold ident
  split
  · simp
  · next hne =>
    simp only [reduceCtorEq, false_iff]
    exact hne i rest

theorem discard_eq_some_iff {α : Type} {p : Parser α} {ts rest : List Token} {u : Unit} :
    (discard p) ts = some (u, rest) ↔ ∃ a, p ts = some (a, rest) := by
  change (p ts).bind (fun x => some ((), x.2)) = _ ↔ _
  cases p ts with
  | none => simp
  | some x => simp [Prod.ext_iff, eq_comm]

/-- A struct stands at the front, `rest` behind it: a visibility, the word `struct`, a name, parameters and
fields. -/
def BeginsWithStruct (go : Reader) (ts rest : List Token) : Prop :=
  ∃ v name us, visibility ts = some (v, .keyword .kwStruct :: .word (.ident name) :: us) ∧
    ∃ parameters ws, hasGenerics go us = some (parameters, ws) ∧
      ∃ conditions fields, structFields go ws = some ((conditions, fields), rest)

theorem structItem_iff {go : Reader} {attributes : List Attribute} {ts rest : List Token} :
    (∃ d, structItem go attributes ts = some (.struct d, rest)) ↔ BeginsWithStruct go ts rest := by
  simp only [structItem, bind_eq_some_iff, keyword_eq_some_iff, ident_eq_some_iff, discard_eq_some_iff]
  constructor
  · intro h
    obtain ⟨d, _, us, ⟨v, hv⟩, _, ws, rfl, name, xs, rfl, hafter⟩ := h
    obtain ⟨parameters, ys, hp, ⟨conditions, fields⟩, zs, hf, he⟩ := hafter
    cases he
    exact ⟨v, name, xs, hv, parameters, ys, hp, conditions, fields, hf⟩
  · intro h
    obtain ⟨v, name, us, hv, parameters, ws, hp, conditions, fields, hf⟩ := h
    refine ⟨⟨attributes, name, parameters || conditions, fields⟩, (), _, ⟨v, hv⟩, (), _, rfl, name, us, rfl, ?_⟩
    exact ⟨parameters, ws, hp, (conditions, fields), rest, hf, rfl⟩

/-- Where the word `struct` stands after the visibility, an item is a struct. -/
theorem item_eq_structItem (go : Reader) (attributes : List Attribute) {ts us : List Token} {v : Visibility}
    (hv : visibility ts = some (v, us)) (hs : atKeyword .kwStruct us = true) :
    item go attributes ts = structItem go attributes ts := by
  obtain ⟨rest, rfl⟩ := atKeyword_iff.mp hs
  rw [item, bind_of_eq_some (show (get : Parser _) ts = some (ts, ts) from rfl), hv]
  rfl

theorem item_iff {go : Reader} {attributes : List Attribute} {ts rest : List Token} :
    (∃ d, item go attributes ts = some (.struct d, rest)) ↔ BeginsWithStruct go ts rest := by
  constructor
  · intro h
    obtain ⟨d, h⟩ := h
    apply structItem_iff.mp
    cases hv : visibility ts with
    | none =>
      rw [item, bind_of_eq_some (show (get : Parser _) ts = some (ts, ts) from rfl), hv] at h
      cases h
    | some shown => exact ⟨d, item_eq_structItem go attributes hv (atStruct_of_item go hv h) ▸ h⟩
  · intro h
    have hword := h
    obtain ⟨v, name, us, hv, _⟩ := hword
    obtain ⟨d, hd⟩ := structItem_iff.mpr h
    exact ⟨d, item_eq_structItem go attributes hv (atKeyword_iff.mpr ⟨_, rfl⟩) ▸ hd⟩

theorem readAll_eq_some_iff {α : Type} {p : Reader → Parser α} {ts : List Token} {a : α} :
    readAll p ts = some a ↔ p (read (budget ts)) ts = some (a, []) := by
  unfold readAll
  split
  · next b h => simp [h]
  · next hne =>
    simp only [reduceCtorEq, false_iff]
    exact hne a

end Grammar

/-- The tokens form, to their end, one struct with its outer attributes. -/
def FormsStruct (ts : List Token) : Prop :=
  ∃ attributes us, Grammar.outerAttributes (Grammar.read (Grammar.budget ts)) ts = some (attributes, us) ∧
    Grammar.BeginsWithStruct (Grammar.read (Grammar.budget ts - 1)) us []

/-- The tokens that are read as a struct are those that form one. -/
theorem Item.ofTokens?_struct_iff {ts : List Token} :
    (∃ d, Item.ofTokens? ts = some (.struct d)) ↔ FormsStruct ts := by
  simp only [Item.ofTokens?, Grammar.readAll_eq_some_iff, Grammar.anyItem, Grammar.bind_eq_some_iff]
  constructor
  · intro h
    obtain ⟨d, attributes, us, ha, hd⟩ := h
    exact ⟨attributes, us, ha, Grammar.item_iff.mp ⟨d, hd⟩⟩
  · intro h
    obtain ⟨attributes, us, ha, hs⟩ := h
    obtain ⟨d, hd⟩ := Grammar.item_iff.mpr hs
    exact ⟨d, attributes, us, ha, hd⟩

/-! ## What comes back -/

/-- A compile error is an item of its own. -/
theorem ofTokens?_compileError (text : String) : Item.ofTokens? (compileError text) = some .other := rfl

theorem flatMap_compileError_append_eq_self {texts : List String} {item : List Token} :
    texts.flatMap compileError ++ item = item ↔ texts = [] := by
  rw [List.append_left_eq_self]
  cases texts with
  | nil => simp
  | cons text texts => simp [compileError]

/-- What the marker makes of an item: arguments come first, then what the item is. -/
theorem handBack_cases (first : String) (more : List String) (arguments item : List Token) :
    (arguments ≠ [] ∧ handBack first more arguments item =
        compileError "`#[identifier]` takes no arguments" ++ item) ∨
      (arguments = [] ∧ FormsStruct item ∧ handBack first more arguments item = item) ∨
      (arguments = [] ∧ ¬FormsStruct item ∧ (∃ i, Item.ofTokens? item = some i) ∧
        handBack first more arguments item =
          compileError "`#[identifier]` can only be applied to structs" ++ item) ∨
      (arguments = [] ∧ Item.ofTokens? item = none ∧
        handBack first more arguments item = (first :: more).flatMap compileError ++ item) := by
  unfold handBack misuse?
  cases arguments with
  | cons argument arguments =>
    left
    exact ⟨nofun, by simp [Misuse.texts]⟩
  | nil =>
    right
    cases hread : Item.ofTokens? item with
    | none => simp [Misuse.texts]
    | some i =>
      by_cases hs : ∃ d, i = .struct d
      · obtain ⟨d, rfl⟩ := hs
        exact .inl ⟨rfl, Item.ofTokens?_struct_iff.mp ⟨d, hread⟩, by simp⟩
      · have hforms : ¬FormsStruct item := by
          rw [← Item.ofTokens?_struct_iff, hread]
          simpa using hs
        refine .inr (.inl ⟨rfl, hforms, ⟨i, rfl⟩, ?_⟩)
        cases i <;> simp_all [Misuse.texts]

/-- **The marker never alters its item.** The item comes back behind whatever there is to say. Nothing is said exactly
where the marker has no arguments and stands on one struct; everywhere else what comes before the item are
compile errors, one at least, each of them an item of its own, and nothing else. The tokens are those of a text, with
brackets around every group. -/
theorem handBack_keeps_item (first : String) (more : List String) (arguments item : List Token) :
    item <:+ handBack first more arguments item ∧
      (handBack first more arguments item = item ↔ arguments = [] ∧ FormsStruct item) ∧
      ((arguments = [] ∧ FormsStruct item) ∨
        ∃ texts, texts ≠ [] ∧ (∀ text ∈ texts, Item.ofTokens? (compileError text) = some .other) ∧
          handBack first more arguments item = texts.flatMap compileError ++ item) := by
  have htexts : ∃ texts, handBack first more arguments item = texts.flatMap compileError ++ item ∧
      (texts = [] ↔ arguments = [] ∧ FormsStruct item) := by
    obtain ⟨hargs, he⟩ | ⟨hargs, hs, he⟩ | ⟨hargs, hs, _, he⟩ | ⟨hargs, hnone, he⟩ :=
      handBack_cases first more arguments item
    · exact ⟨[_], by simpa using he, by simp [hargs]⟩
    · exact ⟨[], he, by simp [hargs, hs]⟩
    · exact ⟨[_], by simpa using he, by simp [hs]⟩
    · have hs : ¬FormsStruct item := by
        rw [← Item.ofTokens?_struct_iff, hnone]
        nofun
      exact ⟨_, he, by simp [hs]⟩
  obtain ⟨texts, he, hnil⟩ := htexts
  rw [he, flatMap_compileError_append_eq_self, ← hnil]
  refine ⟨List.suffix_append _ _, Iff.rfl, (Classical.em (texts = [])).imp_right fun hne => ?_⟩
  exact ⟨texts, hne, fun text _ => ofTokens?_compileError text, rfl⟩

/-- Two structs are no item, though each of them is one. -/
example :
    let unit := [.keyword .kwStruct, .word (.ident ⟨false, "A", .refl true⟩), .punct ';' false]
    misuse? [] unit = none ∧ misuse? [] (unit ++ unit) = some .notItem := ⟨rfl, rfl⟩

end TypedId
