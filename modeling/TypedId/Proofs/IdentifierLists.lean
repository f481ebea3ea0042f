import Mathlib.Data.Finset.Sort
import TypedId.Identifier.Sorted
import TypedId.Proofs.IdentifierOrder
import TypedId.Unit.Template

/-!
Lists of identifiers. Sorting and dropping repetitions, and putting the values into an ordered set one by
one, come to the same strictly ascending list, the one list that has the values of the given list as its
members (`dropRepeated_sort`, `orderedSet_eq`); a hashed set has as many. In a strictly ascending list a
search by halves keeps the sought value between what it has passed and what it has left (`Between`), so it
ends at the value or at the one place where the value can go (`search_correct`).
-/
namespace TypedId.Identifier

/-! ## Sorting -/

theorem mem_sort {ids : List Identifier} {a : Identifier} : a ∈ sort ids ↔ a ∈ ids :=
  (List.mergeSort_perm ids atMost).mem_iff

theorem pairwise_sort (ids : List Identifier) : (sort ids).Pairwise (· ≤ ·) := by
  refine List.pairwise_mergeSort (fun a b c => @le_trans _ _ a b c) (fun a b => ?_) ids
  rw [Bool.or_eq_true]
  exact le_total a b

theorem mem_dropRepeated {ids : List Identifier} {a : Identifier} : a ∈ dropRepeated ids ↔ a ∈ ids := by
  fun_induction dropRepeated ids with
  | case1 => rfl
  | case2 b => rfl
  | case3 b c rest heq ih =>
    obtain rfl := equal_iff.mp heq
    rw [ih]
    simp
  | case4 b c rest hne ih => rw [List.mem_cons, ih, ← List.mem_cons]

/-- What is left of an ascending list ascends strictly: each value that is dropped equals the one before it. -/
theorem pairwise_dropRepeated {ids : List Identifier} (h : ids.Pairwise (· ≤ ·)) :
    (dropRepeated ids).Pairwise (· < ·) := by
  fun_induction dropRepeated ids with
  | case1 => exact List.Pairwise.nil
  | case2 b => exact List.pairwise_singleton _ b
  | case3 b c rest heq ih => exact ih (h.sublist ((List.sublist_cons_self c rest).cons_cons b))
  | case4 b c rest hne ih =>
    obtain ⟨hb, hrest⟩ := List.pairwise_cons.mp h
    refine List.pairwise_cons.mpr ⟨fun x hx => ?_, ih hrest⟩
    have hbc : b < c := lt_of_le_of_ne (hb c List.mem_cons_self) fun he => hne (equal_iff.mpr he)
    have hcx : c ≤ x := by
      rcases List.mem_cons.mp (mem_dropRepeated.mp hx) with rfl | hx
      · exact le_rfl
      · exact (List.pairwise_cons.mp hrest).1 x hx
    exact hbc.trans_le hcx

/-- A strictly ascending list is told by its members. -/
theorem eq_sort_of_mem {ids set : List Identifier} (hmem : ∀ a, a ∈ set ↔ a ∈ ids)
    (hset : set.Pairwise (· < ·)) : set = ids.toFinset.sort :=
  hset.eq_of_mem_iff (Finset.sortedLT_sort _).pairwise fun a => by simp [hmem]

theorem dropRepeated_sort (ids : List Identifier) : dropRepeated (sort ids) = ids.toFinset.sort :=
  eq_sort_of_mem (fun _ => mem_dropRepeated.trans mem_sort) (pairwise_dropRepeated (pairwise_sort ids))

/-! ## Collecting -/

theorem order_eq_lt {a b : Identifier} : order a b = .lt ↔ a < b := order_eq_lt_iff.trans less_iff.symm

theorem order_eq_gt {a b : Identifier} : order a b = .gt ↔ b < a := order_eq_gt_iff.trans less_iff.symm

theorem mem_insertOrdered {a b : Identifier} {set : List Identifier} :
    b ∈ insertOrdered a set ↔ b = a ∨ b ∈ set := by
  fun_induction insertOrdered a set with
  | case1 => simp
  | case2 c rest hlt => simp
  | case3 c rest heq =>
    obtain rfl := order_eq_eq_iff.mp heq
    simp
  | case4 c rest hgt ih =>
    rw [List.mem_cons, ih, List.mem_cons]
    exact or_left_comm

theorem pairwise_insertOrdered {a : Identifier} {set : List Identifier} (h : set.Pairwise (· < ·)) :
    (insertOrdered a set).Pairwise (· < ·) := by
  fun_induction insertOrdered a set with
  | case1 => exact List.pairwise_singleton _ a
  | case2 c rest hlt =>
    have hac : a < c := order_eq_lt.mp hlt
    refine List.pairwise_cons.mpr ⟨fun x hx => ?_, h⟩
    rcases List.mem_cons.mp hx with rfl | hx
    · exact hac
    · exact hac.trans ((List.pairwise_cons.mp h).1 x hx)
  | case3 c rest heq => exact h
  | case4 c rest hgt ih =>
    obtain ⟨hc, hrest⟩ := List.pairwise_cons.mp h
    refine List.pairwise_cons.mpr ⟨fun x hx => ?_, ih hrest⟩
    rcases mem_insertOrdered.mp hx with rfl | hx
    · exact order_eq_gt.mp hgt
    · exact hc x hx

/-- A hash never keeps equal values apart. -/
theorem mem_insertHashed_test {a : Identifier} {set : List Identifier} :
    (set.any fun b => hashInput a == hashInput b && equal a b) = true ↔ a ∈ set := by
  simp only [List.any_eq_true, Bool.and_eq_true, beq_iff_eq, equal_iff]
  constructor
  · intro h
    obtain ⟨b, hb, _, rfl⟩ := h
    exact hb
  · intro h
    exact ⟨a, h, rfl, rfl⟩

theorem mem_insertHashed {a b : Identifier} {set : List Identifier} :
    b ∈ insertHashed a set ↔ b = a ∨ b ∈ set := by
  rw [insertHashed]
  split
  · next h =>
    rw [mem_insertHashed_test] at h
    constructor
    · exact Or.inr
    · rintro (rfl | hb)
      · exact h
      · exact hb
  · exact List.mem_cons

theorem nodup_insertHashed {a : Identifier} {set : List Identifier} (h : set.Nodup) :
    (insertHashed a set).Nodup := by
  rw [insertHashed]
  split
  · exact h
  · next hnew => exact List.nodup_cons.mpr ⟨fun ha => hnew (mem_insertHashed_test.mpr ha), h⟩

/-- What every insertion keeps holds of a set that is built by insertions; its members are the inserted
values. -/
theorem foldl_insert {insert : Identifier → List Identifier → List Identifier} {P : List Identifier → Prop}
    (hmem : ∀ {a b set}, b ∈ insert a set ↔ b = a ∨ b ∈ set)
    (hkeep : ∀ {a set}, P set → P (insert a set)) (ids : List Identifier) {set : List Identifier} (hset : P set) :
    P (ids.foldl (fun s a => insert a s) set) ∧
      ∀ b, b ∈ ids.foldl (fun s a => insert a s) set ↔ b ∈ ids ∨ b ∈ set := by
  induction ids generalizing set with
  | nil => exact ⟨hset, fun b => by simp⟩
  | cons a rest ih =>
    obtain ⟨hP, hmembers⟩ := ih (hkeep hset)
    refine ⟨hP, fun b => ?_⟩
    rw [List.foldl_cons, hmembers, hmem, List.mem_cons]
    exact or_left_comm.trans or_assoc.symm

theorem orderedSet_eq (ids : List Identifier) : orderedSet ids = ids.toFinset.sort := by
  obtain ⟨hset, hmem⟩ := foldl_insert mem_insertOrdered pairwise_insertOrdered ids List.Pairwise.nil
  exact eq_sort_of_mem (fun a => (hmem a).trans (by simp)) hset

theorem distinctCount_eq (ids : List Identifier) : distinctCount ids = ids.toFinset.card := by
  obtain ⟨hset, hmem⟩ := foldl_insert mem_insertHashed nodup_insertHashed ids List.nodup_nil
  rw [distinctCount, ← List.toFinset_card_of_nodup hset]
  congr 1
  ext a
  simpa using hmem a

/-! ## Searching -/

/-- The values before the place are less than the target, and those from it on are greater. -/
structure Splits (ids : List Identifier) (target : Identifier) (i : Nat) : Prop where
  fits : i ≤ ids.length
  below : ∀ j a, j < i → ids[j]? = some a → a < target
  above : ∀ j a, i ≤ j → ids[j]? = some a → target < a

theorem Splits.unique {ids : List Identifier} {target : Identifier} {i j : Nat} (hi : Splits ids target i)
    (hj : Splits ids target j) : i = j := by
  have hifits := hi.fits
  have hjfits := hj.fits
  rcases Nat.lt_trichotomy i j with hlt | heq | hgt
  · have ha := List.getElem?_eq_getElem (show i < ids.length by omega)
    exact absurd (hj.below i _ hlt ha) (hi.above i _ le_rfl ha).asymm
  · exact heq
  · have ha := List.getElem?_eq_getElem (show j < ids.length by omega)
    exact absurd (hi.below j _ hgt ha) (hj.above j _ le_rfl ha).asymm

theorem splits_iff {ids : List Identifier} {target : Identifier} {i : Nat} (hi : i ≤ ids.length) :
    Splits ids target i ↔ (∀ a ∈ ids.take i, a < target) ∧ ∀ a ∈ ids.drop i, target < a := by
  simp only [List.mem_iff_getElem?, List.getElem?_take, List.getElem?_drop]
  constructor
  · intro h
    refine ⟨fun a ha => ?_, fun a ha => ?_⟩
    · obtain ⟨j, hj⟩ := ha
      split at hj
      · next hlt => exact h.below j a hlt hj
      · cases hj
    · obtain ⟨j, hj⟩ := ha
      exact h.above (i + j) a (Nat.le_add_right i j) hj
  · intro h
    refine ⟨hi, fun j a hlt hj => h.1 a ⟨j, by rwa [if_pos hlt]⟩, fun j a hle hj => h.2 a ⟨j - i, ?_⟩⟩
    rwa [Nat.add_sub_cancel' hle]

theorem insertIdx_eq {ids : List Identifier} {target : Identifier} {i : Nat} (hi : i ≤ ids.length) :
    ids.insertIdx i target = ids.take i ++ target :: ids.drop i := by
  induction ids generalizing i with
  | nil =>
    obtain rfl : i = 0 := by simpa using hi
    rfl
  | cons a ids ih =>
    cases i with
    | zero => rfl
    | succ i =>
      rw [List.insertIdx_succ_cons, ih (by simpa using hi), List.take_succ_cons, List.drop_succ_cons,
        List.cons_append]

/-- The target can go exactly where it splits the list. -/
theorem pairwise_insertIdx_iff {ids : List Identifier} (h : ids.Pairwise (· < ·)) {target : Identifier} {i : Nat}
    (hi : i ≤ ids.length) : (ids.insertIdx i target).Pairwise (· < ·) ↔ Splits ids target i := by
  rw [insertIdx_eq hi, List.pairwise_append, List.pairwise_cons, splits_iff hi]
  constructor
  · intro hsorted
    obtain ⟨_, ⟨habove, _⟩, hcross⟩ := hsorted
    exact ⟨fun a ha => hcross a ha target List.mem_cons_self, habove⟩
  · intro hsplits
    obtain ⟨hbelow, habove⟩ := hsplits
    have hdropped := h.sublist (List.drop_sublist i ids)
    refine ⟨h.sublist (List.take_sublist i ids), ⟨habove, hdropped⟩, fun a ha b hb => ?_⟩
    rcases List.mem_cons.mp hb with rfl | hb
    · exact hbelow a ha
    · exact (hbelow a ha).trans (habove b hb)

/-- In an ascending list a later value is no less. -/
theorem le_of_getElem? {ids : List Identifier} (hids : ids.Pairwise (· < ·)) {i j : Nat} {a b : Identifier}
    (hij : i ≤ j) (ha : ids[i]? = some a) (hb : ids[j]? = some b) : a ≤ b := by
  rcases Nat.lt_or_eq_of_le hij with hlt | rfl
  · obtain ⟨hi, rfl⟩ := List.getElem?_eq_some_iff.mp ha
    obtain ⟨hj, rfl⟩ := List.getElem?_eq_some_iff.mp hb
    exact (List.pairwise_iff_getElem.mp hids i j hi hj hlt).le
  · exact (Option.some.inj (ha.symm.trans hb)).le

/-- What a search by halves keeps, among `size` places from `base`: what stands at `base` is no greater than
the target, unless nothing has been passed, and what stands behind the last of the places is greater. -/
structure Between (ids : List Identifier) (target : Identifier) (base size : Nat) : Prop where
  pos : 0 < size
  fits : base + size ≤ ids.length
  passed : base = 0 ∨ ∀ a, ids[base]? = some a → a ≤ target
  left : ∀ j a, base + size ≤ j → ids[j]? = some a → target < a

/-- One comparison: the search goes on behind the middle or before it. -/
theorem Between.halve {ids : List Identifier} (hids : ids.Pairwise (· < ·)) {target a : Identifier}
    {base size : Nat} (h : Between ids target base size) (hsize : 1 < size) (ha : ids[base + size / 2]? = some a) :
    Between ids target (if a ≤ target then base + size / 2 else base) (size - size / 2) := by
  have hfits := h.fits
  split
  · next hle =>
    refine ⟨by omega, by omega, .inr fun b hb => ?_, fun j b hj hb => h.left j b (by omega) hb⟩
    exact Option.some.inj (ha.symm.trans hb) ▸ hle
  · next hgt =>
    refine ⟨by omega, by omega, h.passed, fun j b hj hb => ?_⟩
    exact (not_le.mp hgt).trans_le (le_of_getElem? hids (by omega) ha hb)

theorem Between.narrow {ids : List Identifier} (hids : ids.Pairwise (· < ·)) {target : Identifier}
    {base size : Nat} (h : Between ids target base size) :
    Between ids target (narrow ids.toArray target base size) 1 := by
  fun_induction Identifier.narrow ids.toArray target base size with
  | case1 base size hsize half middle goesOn ih =>
    have hfits := h.fits
    obtain ⟨a, ha⟩ : ∃ a, ids[middle]? = some a := by
      rw [List.getElem?_eq_getElem (show middle < ids.length by grind)]
      exact ⟨_, rfl⟩
    have hgoes : goesOn = true ↔ a ≤ target := by
      simp only [goesOn, List.getElem?_toArray, ha, bne_iff_ne, ne_eq, order_eq_gt, not_lt]
    have hstep := h.halve hids hsize ha
    simp only [← hgoes] at hstep
    exact ih hstep
  | case2 base size hsize =>
    have hpos := h.pos
    obtain rfl : size = 1 := by omega
    exact h

/-- An answer of the search that is right: a place where the target is, or the only place where the target,
which is nowhere in the list, keeps it in order. -/
def SearchResult.Correct (ids : List Identifier) (target : Identifier) : SearchResult → Prop
  | .found i => ids[i]? = some target
  | .insertAt i => target ∉ ids ∧ i ≤ ids.length ∧
      ∀ j, j ≤ ids.length → ((ids.insertIdx j target).Pairwise (· < ·) ↔ j = i)

theorem SearchResult.correct_insertAt {ids : List Identifier} (hids : ids.Pairwise (· < ·)) {target : Identifier}
    {i : Nat} (h : Splits ids target i) : (SearchResult.insertAt i).Correct ids target := by
  refine ⟨fun hmem => ?_, h.fits, fun j hj => ?_⟩
  · obtain ⟨j, hj⟩ := List.mem_iff_getElem?.mp hmem
    rcases Nat.lt_or_ge j i with hlt | hge
    · exact lt_irrefl _ (h.below j target hlt hj)
    · exact lt_irrefl _ (h.above j target hge hj)
  · rw [pairwise_insertIdx_iff hids hj]
    exact ⟨fun hsplits => hsplits.unique h, fun he => he ▸ h⟩

/-- A search of a strictly ascending list is answered right. -/
theorem search_correct {ids : List Identifier} (hids : ids.Pairwise (· < ·)) (target : Identifier) :
    (search ids target).Correct ids target := by
  cases hlength : ids.length with
  | zero =>
    obtain rfl := List.length_eq_zero_iff.mp hlength
    exact SearchResult.correct_insertAt hids ⟨Nat.le_refl _, nofun, nofun⟩
  | succ n =>
    have hstart : Between ids target 0 ids.length := by
      refine ⟨by omega, by omega, .inl rfl, fun j a hj ha => ?_⟩
      rw [List.getElem?_eq_none (by omega)] at ha
      cases ha
    obtain ⟨_, hfits, hpassed, hleft⟩ := hstart.narrow hids
    rw [search]
    generalize Identifier.narrow ids.toArray target 0 ids.length = base at hfits hpassed hleft ⊢
    have ha := List.getElem?_eq_getElem (show base < ids.length by omega)
    generalize ids[base] = a at ha
    simp only [ha]
    cases horder : order a target with
    | eq => exact ha.trans (congrArg some (order_eq_eq_iff.mp horder))
    | lt =>
      have hlt : a < target := order_eq_lt.mp horder
      refine SearchResult.correct_insertAt hids ⟨by omega, fun j b hj hb => ?_, fun j b hj hb => hleft j b hj hb⟩
      exact (le_of_getElem? hids (by omega) hb ha).trans_lt hlt
    | gt =>
      have hgt : target < a := order_eq_gt.mp horder
      -- Nothing has been passed, for it would be no greater than the target.
      obtain rfl : base = 0 := hpassed.resolve_right fun hle => (hle a ha).not_gt hgt
      refine SearchResult.correct_insertAt hids ⟨by omega, nofun, fun j b hj hb => ?_⟩
      exact hgt.trans_le (le_of_getElem? hids hj ha hb)

/-! ## Lawful values -/

/-- Two values of a generated type behave as the integers in them. -/
structure ComparesAsInteger (a b : Int64) : Prop where
  same : [equal ⟨a⟩ ⟨b⟩ = true, order ⟨a⟩ ⟨b⟩ = .eq, partialOrder ⟨a⟩ ⟨b⟩ = some .eq,
    hashInput ⟨a⟩ = hashInput ⟨b⟩, format {} ⟨a⟩ = format {} ⟨b⟩, a = b].TFAE
  order : order ⟨a⟩ ⟨b⟩ = compare a b
  less : less ⟨a⟩ ⟨b⟩ = decide (a < b)
  atMost : atMost ⟨a⟩ ⟨b⟩ = decide (a ≤ b)
  greater : greater ⟨a⟩ ⟨b⟩ = decide (a > b)
  atLeast : atLeast ⟨a⟩ ⟨b⟩ = decide (a ≥ b)
  larger : larger ⟨a⟩ ⟨b⟩ = ⟨max a b⟩
  smaller : smaller ⟨a⟩ ⟨b⟩ = ⟨min a b⟩

theorem comparesAsInteger (a b : Int64) : ComparesAsInteger a b where
  same := same_tfae a b
  order := order_eq_compare
  less := Bool.eq_iff_iff.mpr (less_iff.trans decide_eq_true_iff.symm)
  atMost := Bool.eq_iff_iff.mpr (atMost_iff.trans decide_eq_true_iff.symm)
  greater := Bool.eq_iff_iff.mpr (greater_iff.trans decide_eq_true_iff.symm)
  atLeast := Bool.eq_iff_iff.mpr (atLeast_iff.trans decide_eq_true_iff.symm)
  larger := larger_eq_max a b
  smaller := smaller_eq_min a b

/-- A value is printed, for every reader, as the numeral of its integer, and the numeral is read back. -/
structure PrintsAsInteger (a : Int64) : Prop where
  numeral : format {} ⟨a⟩ = (toString a.toInt).toList
  readBack : parse? (format {} ⟨a⟩) = some ⟨a⟩
  debug : ∀ f, debugFormat f ⟨a⟩ = format f ⟨a⟩

theorem printsAsInteger (a : Int64) : PrintsAsInteger a where
  numeral := by rw [format_plain, text, Text.numeral_eq_toString]
  readBack := by rw [format_plain, parse?_text]
  debug _ := rfl

/-- A list that is sorted and freed of repetitions is the ordered set of its values, and can be searched. -/
structure CollectsAsSet (ids : List Identifier) : Prop where
  ascends : (dropRepeated (sort ids)).Pairwise fun a b => Identifier.less a b = true
  members : ∀ a, a ∈ dropRepeated (sort ids) ↔ a ∈ ids
  set : dropRepeated (sort ids) = orderedSet ids
  distinct : (dropRepeated (sort ids)).length = distinctCount ids
  card : distinctCount ids = ids.toFinset.card
  finds : ∀ a, (∃ i, search (dropRepeated (sort ids)) a = .found i) ↔ a ∈ ids
  correct : ∀ a, (search (dropRepeated (sort ids)) a).Correct (dropRepeated (sort ids)) a

theorem collectsAsSet (ids : List Identifier) : CollectsAsSet ids := by
  have hascends := pairwise_dropRepeated (pairwise_sort ids)
  have hmem : ∀ a, a ∈ dropRepeated (sort ids) ↔ a ∈ ids := fun _ => mem_dropRepeated.trans mem_sort
  have hcorrect := search_correct hascends
  refine ⟨hascends, hmem, ?_, ?_, distinctCount_eq ids, fun a => ?_, hcorrect⟩
  · rw [dropRepeated_sort, orderedSet_eq]
  · rw [dropRepeated_sort, Finset.length_sort, distinctCount_eq]
  · rw [← hmem]
    have hanswer := hcorrect a
    cases hsearch : search (dropRepeated (sort ids)) a with
    | found i =>
      rw [hsearch] at hanswer
      exact ⟨fun _ => List.mem_of_getElem? hanswer, fun _ => ⟨i, rfl⟩⟩
    | insertAt i =>
      rw [hsearch] at hanswer
      exact ⟨nofun, fun hin => absurd hin hanswer.1⟩

/-- **Identifiers are lawful values.** Values of a generated type are compared, hashed and printed as the integers
that they hold, over the whole range of these; both printing methods of a unit are written alike. A value is moved
into a range unless the range ends before it begins. Lists of values can be sorted, freed of repetitions, collected
and searched. -/
theorem identifiers_lawful :
    (∀ a b, ComparesAsInteger a b) ∧
      (∀ a low high : Int64, clamp? ⟨a⟩ ⟨low⟩ ⟨high⟩ =
        if low ≤ high then some ⟨max low (min a high)⟩ else none) ∧
      (∀ a, PrintsAsInteger a) ∧
      Template.traitMembers .debug = Template.traitMembers .display ∧
      ∀ ids, CollectsAsSet ids :=
  ⟨comparesAsInteger, clamp?_eq, printsAsInteger, rfl, collectsAsSet⟩

end TypedId.Identifier
