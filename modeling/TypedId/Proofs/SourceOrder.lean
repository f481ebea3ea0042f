import TypedId.Sources.Discover

/-!
The order of source files. Files are sorted by keys, which are compared as lists of bytes are, so the order is
total and a sort can be told from what it keeps: leaving some files out before the sort or after it comes to
the same (`List.filter_mergeSort`), and so does leaving them out before the repeated ones or after them
(`FoundFile.filter_dropRepeated`).
-/
namespace TypedId

/-! ## Sorting and leaving out -/

section LeavingOut

variable {α : Type} {le : α → α → Bool}

/-- Two ways to cut a list in which what comes first is below `a` and what comes second is not are one way. -/
theorem append_inj_of_le {a : α} {xs ys xs' ys' : List α} (hx : ∀ b ∈ xs, le a b = false)
    (hy : ∀ b ∈ ys, le a b = true) (hx' : ∀ b ∈ xs', le a b = false) (hy' : ∀ b ∈ ys', le a b = true)
    (h : xs ++ ys = xs' ++ ys') : xs = xs' ∧ ys = ys' := by
  induction xs generalizing xs' with
  | nil =>
    cases xs' with
    | nil => exact ⟨rfl, h⟩
    | cons b more =>
      have hb := hy b (by rw [show ys = _ from h]; exact List.mem_cons_self)
      rw [hx' b List.mem_cons_self] at hb
      cases hb
  | cons b rest ih =>
    cases xs' with
    | nil =>
      have hb := hy' b (by rw [show ys' = _ from h.symm]; exact List.mem_cons_self)
      rw [hx b List.mem_cons_self] at hb
      cases hb
    | cons b' rest' =>
      rw [List.cons_append, List.cons_append, List.cons.injEq] at h
      obtain ⟨rfl, hrest⟩ := h
      obtain ⟨rfl, rfl⟩ := ih (fun c hc => hx c (List.mem_cons_of_mem b hc))
        (fun c hc => hx' c (List.mem_cons_of_mem b hc)) hrest
      exact ⟨rfl, rfl⟩

theorem filter_mergeSort (trans : ∀ a b c, le a b = true → le b c = true → le a c = true)
    (total : ∀ a b, (le a b || le b a) = true) (p : α → Bool) (xs : List α) :
    (xs.mergeSort le).filter p = (xs.filter p).mergeSort le := by
  induction xs with
  | nil => simp
  | cons a rest ih =>
    obtain ⟨before, after, hall, hrest, hbefore⟩ := List.mergeSort_cons trans total a rest
    rw [hrest, List.filter_append] at ih
    cases ha : p a with
    | false => rw [hall, List.filter_append, List.filter_cons_of_neg (by simp [ha]), ih,
        List.filter_cons_of_neg (by simp [ha])]
    | true =>
      obtain ⟨before', after', hall', hrest', hbefore'⟩ :=
        List.mergeSort_cons trans total a (rest.filter p)
      have hsorted : ∀ b ∈ after, le a b = true := by
        have h := List.pairwise_mergeSort trans total (a :: rest)
        rw [hall] at h
        exact (List.pairwise_cons.mp (List.pairwise_append.mp h).2.1).1
      have hsorted' : ∀ b ∈ after', le a b = true := by
        have h := List.pairwise_mergeSort trans total (a :: rest.filter p)
        rw [hall'] at h
        exact (List.pairwise_cons.mp (List.pairwise_append.mp h).2.1).1
      -- In both lists `a` comes after the same files, since all the others are not below it.
      have hbelow : ∀ b ∈ before.filter p, le a b = false := fun b hb => by
        simpa using hbefore b (List.mem_filter.mp hb).1
      have habove : ∀ b ∈ after.filter p, le a b = true := fun b hb => hsorted b (List.mem_filter.mp hb).1
      obtain ⟨hfirst, hsecond⟩ := append_inj_of_le hbelow habove (fun b hb => by simpa using hbefore' b hb)
        hsorted' (ih.trans hrest')
      rw [hall, List.filter_append, List.filter_cons_of_pos ha, List.filter_cons_of_pos ha, hall', hfirst,
        hsecond]

end LeavingOut

/-! ## Keys -/

/-- Components are compared as these bytes are. -/
def Component.key : Component → List UInt8
  | .root => [0]
  | .here => [1]
  | .up => [2]
  | .name n => 3 :: n

theorem Component.key_inj {a b : Component} : a.key = b.key ↔ a = b := by
  cases a <;> cases b <;> simp [Component.key]

theorem Component.before_iff {a b : Component} : a.before b = true ↔ a.key < b.key := by
  cases a with
  | name m =>
    cases b with
    | name n =>
      rw [Component.key, Component.key, List.cons_lt_cons_iff]
      simp only [Component.before, Component.rank, Component.nameBytes, Nat.lt_irrefl, decide_false,
        beq_self_eq_true, Bool.true_and, Bool.false_or, UInt8.lt_irrefl, false_or, true_and]
      exact ⟨of_decide_eq_true, decide_eq_true⟩
    | _ => simp [Component.before, Component.rank, Component.key, List.cons_lt_cons_iff]
  | _ => cases b <;> simp [Component.before, Component.rank, Component.nameBytes, Component.key, List.cons_lt_cons_iff]

namespace DiskPath

/-- Paths are compared as these lists are. -/
def sortKey (p : DiskPath) : List (List UInt8) := p.components.map Component.key

theorem componentsBefore_iff {as bs : List Component} :
    componentsBefore as bs = true ↔ as.map Component.key < bs.map Component.key := by
  induction as generalizing bs with
  | nil => cases bs <;> simp [componentsBefore]
  | cons a as ih =>
    cases bs with
    | nil => simp [componentsBefore]
    | cons b bs =>
      rw [componentsBefore, Bool.or_eq_true, Bool.and_eq_true, beq_iff_eq, Component.before_iff, ih,
        List.map_cons, List.map_cons, List.cons_lt_cons_iff, Component.key_inj]

theorem before_iff {p q : DiskPath} : p.before q = true ↔ p.sortKey < q.sortKey := componentsBefore_iff

theorem same_iff {p q : DiskPath} : p.same q = true ↔ p.sortKey = q.sortKey := by
  rw [same, beq_iff_eq, sortKey, sortKey, List.map_inj_right fun _ _ => Component.key_inj.mp]

end DiskPath

namespace FoundFile

theorem atMost_iff {a b : FoundFile} : a.atMost b = true ↔ a.path.sortKey < b.path.sortKey ∨
    a.path.sortKey = b.path.sortKey ∧ a.base.sortKey ≤ b.base.sortKey := by
  have hbase : (!b.base.before a.base) = true ↔ a.base.sortKey ≤ b.base.sortKey := by
    rw [Bool.not_eq_true', ← Bool.not_eq_true, DiskPath.before_iff, List.not_lt]
  rw [atMost, Bool.or_eq_true, Bool.and_eq_true, DiskPath.before_iff, DiskPath.same_iff, hbase]

theorem atMost_trans (a b c : FoundFile) (hab : a.atMost b = true) (hbc : b.atMost c = true) :
    a.atMost c = true := by
  rw [atMost_iff] at *
  rcases hab with hab | ⟨hab, hbase⟩
  · left
    rcases hbc with hbc | ⟨hbc, _⟩
    · exact List.lt_trans hab hbc
    · rwa [← hbc]
  · rcases hbc with hbc | ⟨hbc, hbase'⟩
    · exact Or.inl (hab ▸ hbc)
    · exact Or.inr ⟨hab.trans hbc, List.le_trans hbase hbase'⟩

theorem atMost_total (a b : FoundFile) : (a.atMost b || b.atMost a) = true := by
  rw [Bool.or_eq_true, atMost_iff, atMost_iff]
  by_cases hab : a.path.sortKey < b.path.sortKey
  · exact Or.inl (Or.inl hab)
  · by_cases hba : b.path.sortKey < a.path.sortKey
    · exact Or.inr (Or.inl hba)
    · have heq := List.le_antisymm hba hab
      rcases List.le_total a.base.sortKey b.base.sortKey with hbase | hbase
      · exact Or.inl (Or.inr ⟨heq, hbase⟩)
      · exact Or.inr (Or.inr ⟨heq.symm, hbase⟩)

/-! ## Repeated paths -/

/-- The property does not tell paths with the same components apart. -/
def RespectsPaths (p : FoundFile → Bool) : Prop := ∀ f g : FoundFile, f.path.same g.path = true → p f = p g

/-- A file that comes later has another path if one in between has. -/
theorem same_eq_false {f g h : FoundFile} (hfg : f.atMost g = true) (hgh : g.atMost h = true)
    (hne : f.path.same g.path = false) : f.path.same h.path = false := by
  rw [← Bool.not_eq_true, DiskPath.same_iff] at hne ⊢
  intro heq
  have hlt : f.path.sortKey < g.path.sortKey := (atMost_iff.mp hfg).resolve_right fun h => hne h.1
  rcases atMost_iff.mp hgh with hgh | ⟨hgh, _⟩
  · exact List.lt_irrefl _ (heq ▸ List.lt_trans hlt hgh)
  · exact hne (heq.trans hgh.symm)

theorem dropRepeatedAfter_of_ne {f : FoundFile} {files : List FoundFile}
    (h : ∀ g ∈ files, f.path.same g.path = false) : f.dropRepeatedAfter files = f :: dropRepeated files := by
  cases files with
  | nil => rfl
  | cons g rest => rw [dropRepeatedAfter, if_neg (by simp [h g List.mem_cons_self]), dropRepeated]

theorem filter_dropRepeatedAfter {p : FoundFile → Bool} (hp : RespectsPaths p) {f : FoundFile} {files : List FoundFile}
    (hsorted : (f :: files).Pairwise fun a b => a.atMost b = true) :
    (f.dropRepeatedAfter files).filter p =
      if p f then f.dropRepeatedAfter (files.filter p) else dropRepeated (files.filter p) := by
  induction files generalizing f with
  | nil => cases hf : p f <;> simp [dropRepeatedAfter, dropRepeated, hf]
  | cons g rest ih =>
    obtain ⟨hf, hrest⟩ := List.pairwise_cons.mp hsorted
    by_cases hsame : f.path.same g.path = true
    · have hfg : p g = p f := (hp f g hsame).symm
      rw [dropRepeatedAfter, if_pos hsame,
        ih (List.pairwise_cons.mpr ⟨fun h hh => hf h (List.mem_cons_of_mem g hh), (List.pairwise_cons.mp hrest).2⟩)]
      cases hpf : p f with
      | false => rw [List.filter_cons_of_neg (by simp [hfg, hpf])]
      | true => simp [List.filter_cons_of_pos (hfg.trans hpf), dropRepeatedAfter, hsame]
    · have hlater : ∀ h ∈ rest, f.path.same h.path = false := fun h hh =>
        same_eq_false (hf g List.mem_cons_self) ((List.pairwise_cons.mp hrest).1 h hh) (by simpa using hsame)
      rw [dropRepeatedAfter, if_neg hsame]
      cases hpf : p f with
      | false =>
        rw [List.filter_cons_of_neg (by simp [hpf]), ih hrest]
        cases hpg : p g <;> simp [hpg, dropRepeated]
      | true =>
        rw [List.filter_cons_of_pos hpf, ih hrest]
        cases hpg : p g with
        | false =>
          rw [List.filter_cons_of_neg (by simp [hpg]), if_neg Bool.false_ne_true, if_pos rfl,
            dropRepeatedAfter_of_ne fun h hh => hlater h (List.mem_filter.mp hh).1]
        | true => simp [List.filter_cons_of_pos hpg, dropRepeatedAfter, hsame]

/-- Files may be left out before the repeated ones or after them. -/
theorem filter_dropRepeated {p : FoundFile → Bool} (hp : RespectsPaths p) {files : List FoundFile}
    (hsorted : files.Pairwise fun a b => a.atMost b = true) :
    (dropRepeated files).filter p = dropRepeated (files.filter p) := by
  cases files with
  | nil => rfl
  | cons f rest =>
    rw [dropRepeated, filter_dropRepeatedAfter hp hsorted]
    cases hf : p f <;> simp [hf, dropRepeated]

/-- Files may be left out before the files are put in order or after it. -/
theorem filter_inOrder {p : FoundFile → Bool} (hp : RespectsPaths p) (files : List FoundFile) :
    (dropRepeated (files.mergeSort atMost)).filter p = dropRepeated ((files.filter p).mergeSort atMost) := by
  rw [filter_dropRepeated hp (List.pairwise_mergeSort atMost_trans atMost_total files),
    filter_mergeSort atMost_trans atMost_total]

theorem mem_of_mem_dropRepeatedAfter {f g : FoundFile} {files : List FoundFile}
    (h : g ∈ f.dropRepeatedAfter files) : g = f ∨ g ∈ files := by
  induction files generalizing f with
  | nil => exact Or.inl (List.mem_singleton.mp h)
  | cons a rest ih =>
    rw [dropRepeatedAfter] at h
    split at h
    · exact (ih h).imp_right (List.mem_cons_of_mem a)
    · rcases List.mem_cons.mp h with rfl | h
      · exact Or.inl rfl
      · rcases ih h with rfl | h
        · exact Or.inr List.mem_cons_self
        · exact Or.inr (List.mem_cons_of_mem a h)

theorem exists_same_of_mem_dropRepeatedAfter {f g : FoundFile} {files : List FoundFile} (h : g = f ∨ g ∈ files) :
    ∃ k ∈ f.dropRepeatedAfter files, g.path.same k.path = true := by
  have hself : ∀ k : FoundFile, k.path.same k.path = true := fun k => DiskPath.same_iff.mpr rfl
  induction files generalizing f g with
  | nil =>
    obtain rfl : g = f := by simpa using h
    exact ⟨g, List.mem_singleton_self g, hself g⟩
  | cons a rest ih =>
    rw [dropRepeatedAfter]
    split
    · next hsame =>
      rcases h with rfl | h
      · exact ih (Or.inl rfl)
      · rcases List.mem_cons.mp h with rfl | h
        · -- The file itself is left out, but the one before it has the same path.
          obtain ⟨k, hk, hfk⟩ := ih (f := f) (g := f) (Or.inl rfl)
          exact ⟨k, hk, DiskPath.same_iff.mpr ((DiskPath.same_iff.mp hsame).symm.trans (DiskPath.same_iff.mp hfk))⟩
        · exact ih (Or.inr h)
    · rcases h with rfl | h
      · exact ⟨g, List.mem_cons_self, hself g⟩
      · obtain ⟨k, hk, hsame⟩ := ih (f := a) (List.mem_cons.mp h)
        exact ⟨k, List.mem_cons_of_mem f hk, hsame⟩

theorem mem_of_mem_dropRepeated {f : FoundFile} {files : List FoundFile} (h : f ∈ dropRepeated files) :
    f ∈ files := by
  cases files with
  | nil => cases h
  | cons a rest => exact List.mem_cons.mpr (mem_of_mem_dropRepeatedAfter h)

theorem exists_same_of_mem {g : FoundFile} {files : List FoundFile} (h : g ∈ files) :
    ∃ k ∈ dropRepeated files, g.path.same k.path = true := by
  cases files with
  | nil => cases h
  | cons a rest => exact exists_same_of_mem_dropRepeatedAfter (List.mem_cons.mp h)

end FoundFile

end TypedId
