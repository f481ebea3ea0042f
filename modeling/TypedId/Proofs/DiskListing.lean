import TypedId.Proofs.Rewriting
import TypedId.Proofs.SourceOrder

/-!
Disks that could be: every place is listed once and every name is one that a system takes (`IsSound`). Writing
units keeps a disk so (`isSound_writeUnits`). On such a disk the listing of what stands below a place is told by
what stands where (`filter_below_eq`), and the path of everything that is listed leads to it unless
the path is too long (`find_joinNames`).
-/
namespace TypedId

open FileName

/-! ## Names that a system takes -/

/-- A name that something on a disk can have. -/
structure FileName.IsLegal (n : FileName) : Prop extends IsProper n where
  no_nul : 0 ∉ n
  length : n.length ≤ Disk.nameLimit

theorem FileName.isLegal_iff {n : FileName} :
    n.IsLegal ↔ (n ≠ [] ∧ slash ∉ n ∧ n ≠ [dot] ∧ n ≠ [dot, dot]) ∧ 0 ∉ n ∧ n.length ≤ Disk.nameLimit where
  mp h := ⟨⟨h.ne_nil, h.no_slash, h.ne_here, h.ne_up⟩, h.no_nul, h.length⟩
  mpr := fun ⟨⟨hnil, hslash, hhere, hup⟩, hnul, hlength⟩ => ⟨⟨hnil, hslash, hhere, hup⟩, hnul, hlength⟩

instance (n : FileName) : Decidable n.IsLegal := decidable_of_iff _ FileName.isLegal_iff.symm

theorem Text.mem_join {α : Type} {separator : α} {pieces : List (List α)} {piece : List α} (h : piece ∈ pieces)
    {b : α} (hb : b ∈ piece) : b ∈ join separator pieces := by
  induction pieces with
  | nil => cases h
  | cons first rest ih =>
    cases rest with
    | nil =>
      rw [List.mem_singleton] at h
      exact h ▸ hb
    | cons next others =>
      rw [join_cons separator first (List.cons_ne_nil next others), List.mem_append]
      rcases List.mem_cons.mp h with rfl | h
      · exact Or.inl hb
      · exact Or.inr (List.mem_cons_of_mem separator (ih h))

namespace Disk

theorem pathError?_eq_none {p : DiskPath} :
    pathError? p = none ↔ 0 ∉ p.bytes ∧ p.bytes ≠ [] ∧ p.bytes.length < pathLimit := by
  unfold pathError?
  by_cases hnul : p.bytes.contains 0 = true
  · have hmem : 0 ∈ p.bytes := List.contains_iff_mem.mp hnul
    simp [hmem]
  · have hmem : 0 ∉ p.bytes := fun h => hnul (List.contains_iff_mem.mpr h)
    rw [if_neg hnul]
    by_cases hempty : p.bytes = []
    · simp [hempty]
    · have hlimit : ¬pathLimit ≤ p.bytes.length ↔ p.bytes.length < pathLimit := Nat.not_le
      simp [hmem, hempty, hlimit]

/-- A system that takes a path takes its last name too. -/
theorem Takes.isLegal {p : DiskPath} {ds : List FileName} {n : FileName} (h : Takes p n)
    (hnamed : p.named = ds ++ [n]) (hhere : n ≠ herePiece) (hup : n ≠ upPiece) : n.IsLegal where
  ne_nil := DiskPath.ne_nil_of_mem_named (p := p) (by rw [hnamed]; simp)
  no_slash := DiskPath.no_slash_of_mem_named (p := p) (by rw [hnamed]; simp)
  ne_here := hhere
  ne_up := hup
  no_nul hnul := by
    have hmem : n ∈ p.named := by rw [hnamed]; simp
    refine (pathError?_eq_none.mp h.error).1 ?_
    rw [DiskPath.bytes_eq_join]
    exact Text.mem_join (List.mem_filter.mp hmem).1 hnul
  length := h.length

/-! ## Sound disks -/

/-- Every place is listed once, and every name is one that a system takes. -/
structure IsSound (d : Disk) : Prop where
  distinct : (d.entries.map Prod.fst).Nodup
  legal : ∀ l n, d.entry? (l ++ [n]) ≠ none → n.IsLegal

namespace IsSound

variable {d d' : Disk}

theorem of_entries (hdistinct : (d.entries.map Prod.fst).Nodup)
    (hlegal : ∀ x ∈ d.entries, ∀ n ∈ x.1, n.IsLegal) : d.IsSound := by
  refine ⟨hdistinct, fun l n hfound => ?_⟩
  obtain ⟨e, he⟩ := Option.ne_none_iff_exists'.mp hfound
  exact hlegal _ (mem_entries (by simp) he) n (by simp)

theorem set (h : d.IsSound) {l : Location} {n : FileName} (hn : n.IsLegal) (e : Entry) :
    (d.set (l ++ [n]) e).IsSound where
  distinct := by
    unfold Disk.set
    dsimp only
    rw [List.map_append, List.nodup_append]
    refine ⟨h.distinct.sublist (List.filter_sublist.map _), by simp, ?_⟩
    intro a ha b hb
    obtain ⟨x, hx, rfl⟩ := List.mem_map.mp ha
    have hother := (List.mem_filter.mp hx).2
    rw [List.mem_singleton.mp hb]
    simpa using hother
  legal l' n' hfound := by
    rw [entry?_set d (by simp)] at hfound
    split at hfound
    · next heq =>
      cases (List.append_inj' heq rfl).2
      exact hn
    · exact h.legal l' n' hfound

theorem erase (h : d.IsSound) {l : Location} (hl : l ≠ []) : (d.erase l).IsSound where
  distinct := h.distinct.sublist (List.filter_sublist.map _)
  legal l' n' hfound := by
    rw [entry?_erase d hl] at hfound
    split at hfound
    · exact absurd rfl hfound
    · exact h.legal l' n' hfound

end IsSound

theorem isSound_makeDirectories {d d' : Disk} {r : Except DiskError Unit} (hlinks : d.Linkless) (h : d.IsSound)
    {p : DiskPath} (hmake : d.makeDirectories p = (d', r)) : d'.IsSound := by
  refine (makeNested_induction (P := fun x => x.Linkless ∧ x.IsSound) ?_ ⟨hlinks, h⟩ hmake).2
  intro q _ x x' hx hq
  obtain ⟨ds, n, hnamed, hhere, hup, htakes, _, _, _, rfl⟩ := makeDirectory_eq_ok hx.1 hq
  exact ⟨hx.1.set (by simp) fun target => by simp, hx.2.set (htakes.isLegal hnamed hhere hup) _⟩

section Writing

variable {d d' : Disk} {p : DiskPath} {ds : List FileName} {m n : FileName} {content : List UInt8}

theorem isSound_stage (hlinks : d.Linkless) (h : d.IsSound) (hroute : Route p ds m n)
    (hstage : d.stage p content = (d', .ok ())) : d'.IsSound := by
  obtain ⟨htakes, htakesm, hhere, hup, _, _, _, _, rfl⟩ :=
    stage_eq_ok hlinks hroute.leadsTo hroute.staged hroute.isAbsolute hroute.ne hstage
  have hm := htakesm.isLegal hroute.staged.named hroute.proper_staged.ne_here hroute.proper_staged.ne_up
  exact ((h.set hm _).erase (by simp)).set (htakes.isLegal hroute.leadsTo.named hhere hup) _

theorem isSound_replace (htree : d.IsTree) (hlinks : d.Linkless) (h : d.IsSound) (hroute : Route p ds m n)
    (hreplace : d.replace p content = (d', .ok ())) : d'.IsSound := by
  rcases replace_eq_ok hreplace with ⟨_, hstage⟩ | ⟨q, d₁, _, hmake, hstage⟩
  · exact isSound_stage hlinks h hroute hstage
  · have hlinks₁ := (makeDirectories_spec htree hlinks hmake).2.linkless hlinks
    exact isSound_stage hlinks₁ (isSound_makeDirectories hlinks h hmake) hroute hstage

end Writing

open GeneratedUnit

theorem isSound_writeUnits {d : Disk} (htree : d.IsTree) (hlinks : d.Linkless) (h : d.IsSound) {base : DiskPath}
    {units : List GeneratedUnit} (hplaces : ∀ u ∈ units, ∃ directories own, IsPlace u.key directories own)
    {paths : List DiskPath} (hwrite : (d.writeUnits base units).outcome.result = .ok paths) :
    (d.writeUnits base units).disk.IsSound := by
  induction units generalizing d paths with
  | nil => exact h
  | cons u rest ih =>
    obtain ⟨directories, own, hplace⟩ := hplaces u List.mem_cons_self
    obtain ⟨d₁, more, hreplace, hmore, _, hdisk⟩ := writeUnits_cons_eq_ok hwrite
    obtain ⟨hfirst, _⟩ := Written.of_replace htree hlinks hplace hreplace
    rw [hdisk]
    exact ih hfirst.tree hfirst.linkless (isSound_replace htree hlinks h (hplace.route base) hreplace)
      (fun w hw => hplaces w (List.mem_cons_of_mem u hw)) hmore

/-! ## Listings -/

theorem find?_of_mem {entries : List (Location × Entry)} (hdistinct : (entries.map Prod.fst).Nodup)
    {x : Location × Entry} (hx : x ∈ entries) : (entries.find? fun y => y.1 == x.1) = some x := by
  induction entries with
  | nil => cases hx
  | cons first rest ih =>
    obtain ⟨hfirst, hrest⟩ := List.nodup_cons.mp hdistinct
    rcases List.mem_cons.mp hx with rfl | hx
    · rw [List.find?_cons_of_pos (by simp)]
    · have hne : first.1 ≠ x.1 := fun heq => hfirst (heq ▸ List.mem_map_of_mem hx)
      rw [List.find?_cons_of_neg (by simpa using hne)]
      exact ih hrest hx

/-- Locations come before one another as lists of names do. -/
theorem listed_iff {a b : Location} : (!listedBefore b a) = true ↔ a ≤ b := by
  rw [listedBefore, Bool.not_eq_true', decide_eq_false_iff_not, List.not_lt]

namespace IsSound

variable {d d' : Disk}

theorem mem_entries_iff (h : d.IsSound) {l : Location} (hl : l ≠ []) {e : Entry} :
    (l, e) ∈ d.entries ↔ d.entry? l = some e := by
  refine ⟨fun hmem => ?_, mem_entries hl⟩
  have hempty : l.isEmpty = false := by simpa using hl
  unfold entry?
  rw [hempty, if_neg Bool.false_ne_true, find?_of_mem h.distinct hmem]
  rfl

theorem mem_below (h : d.IsSound) {l names : Location} {e : Entry} :
    (names, e) ∈ d.below l ↔ names ≠ [] ∧ d.entry? (l ++ names) = some e := by
  rw [below, List.mem_mergeSort, List.mem_filterMap]
  constructor
  · intro hsome
    obtain ⟨x, hx, hbelow⟩ := hsome
    split at hbelow
    · next hcond =>
      cases hbelow
      rw [Bool.and_eq_true, List.isPrefixOf_iff_prefix, decide_eq_true_eq] at hcond
      obtain ⟨⟨more, hmore⟩, hlength⟩ := hcond
      rw [← hmore, List.drop_left]
      have hne : more ≠ [] := by
        intro hnil
        rw [← hmore, hnil, List.append_nil] at hlength
        exact Nat.lt_irrefl _ hlength
      refine ⟨hne, (h.mem_entries_iff (by simp [hne])).mp ?_⟩
      rw [hmore]
      exact hx
    · cases hbelow
  · intro hfound
    obtain ⟨hne, hentry⟩ := hfound
    refine ⟨(l ++ names, e), (h.mem_entries_iff (by simp [hne])).mpr hentry, ?_⟩
    have hpos := List.length_pos_iff.mpr hne
    rw [if_pos, List.drop_left]
    rw [Bool.and_eq_true, List.isPrefixOf_iff_prefix, decide_eq_true_eq, List.length_append]
    exact ⟨List.prefix_append l names, by omega⟩

/-- A listing goes through the places in their order, each once. -/
theorem pairwise_below (h : d.IsSound) (l : Location) : (d.below l).Pairwise fun a b => a.1 < b.1 := by
  have hordered : (d.below l).Pairwise fun a b => a.1 ≤ b.1 := by
    refine (List.pairwise_mergeSort ?_ ?_ _).imp fun hab => listed_iff.mp hab
    · intro a b c hab hbc
      exact listed_iff.mpr (List.le_trans (listed_iff.mp hab) (listed_iff.mp hbc))
    · intro a b
      rw [Bool.or_eq_true, listed_iff, listed_iff]
      exact List.le_total a.1 b.1
  have hdistinct : (d.below l).Pairwise fun a b => a.1 ≠ b.1 := by
    refine List.Pairwise.perm ?_ (List.mergeSort_perm _ _).symm Ne.symm
    refine List.pairwise_filterMap.mpr ((List.pairwise_map.mp h.distinct).imp ?_)
    intro x y hne a ha b hb heq
    split at ha
    · next hx =>
      split at hb
      · next hy =>
        cases ha
        cases hb
        rw [Bool.and_eq_true, List.isPrefixOf_iff_prefix] at hx hy
        obtain ⟨more, hmore⟩ := hx.1
        obtain ⟨more', hmore'⟩ := hy.1
        rw [← hmore, ← hmore'] at heq hne
        rw [List.drop_left, List.drop_left] at heq
        exact hne (congrArg (l ++ ·) heq)
      · cases hb
    · cases ha
  refine (hordered.and hdistinct).imp fun hab => ?_
  exact List.not_le.mp fun hba => hab.2 (List.le_antisymm hab.1 hba)

/-- Of two disks on which the same things of a kind stand below a place, both list these things alike. -/
theorem filter_below_eq (h : d.IsSound) (h' : d'.IsSound) {l : Location} {q : Location × Entry → Bool}
    (hsame : ∀ names e, names ≠ [] → q (names, e) = true →
      (d'.entry? (l ++ names) = some e ↔ d.entry? (l ++ names) = some e)) :
    (d'.below l).filter q = (d.below l).filter q := by
  have hmem : ∀ x, x ∈ (d'.below l).filter q ↔ x ∈ (d.below l).filter q := by
    intro x
    rw [List.mem_filter, List.mem_filter, h.mem_below, h'.mem_below, and_assoc, and_assoc]
    refine and_congr_right fun hne => ?_
    rw [and_comm, and_comm (b := q x = true)]
    exact and_congr_right fun hq => hsame x.1 x.2 hne hq
  have hpairwise := (h.pairwise_below l).filter q
  have hpairwise' := (h'.pairwise_below l).filter q
  have hnodup : ∀ xs : List (Location × Entry), xs.Pairwise (fun a b => a.1 < b.1) → xs.Nodup := by
    intro xs hxs
    refine hxs.imp ?_
    intro a b hab heq
    rw [heq] at hab
    exact List.lt_irrefl _ hab
  refine List.Perm.eq_of_pairwise ?_ hpairwise' hpairwise
    ((List.perm_ext_iff_of_nodup (hnodup _ hpairwise') (hnodup _ hpairwise)).mpr hmem)
  intro a b _ _ hab hba
  exact absurd (List.lt_trans hab hba) (List.lt_irrefl _)

end IsSound

end Disk

/-! ## Paths of what is listed -/

namespace DiskPath

theorem joinNames_eq_descend (p : DiskPath) (names : Location) : p.joinNames names = p.descend names := rfl

theorem bytes_join (base : DiskPath) {n : FileName} (h : slash ∉ n) :
    ∃ between, (base.join ⟨n⟩).bytes = base.bytes ++ between ++ n ∧ ∀ b ∈ between, b = slash := by
  unfold join
  rw [isAbsolute_mk h, if_neg Bool.false_ne_true]
  split
  · next hnone => exact ⟨[], by rw [List.getLast?_eq_none_iff.mp hnone]; rfl, by simp⟩
  · split
    · exact ⟨[], by rw [List.append_nil], by simp⟩
    · exact ⟨[slash], by simp, by simp⟩

theorem bytes_descend (base : DiskPath) {names : List FileName} (h : ∀ n ∈ names, slash ∉ n) :
    ∃ more, (base.descend names).bytes = base.bytes ++ more ∧ ∀ b ∈ more, b = slash ∨ ∃ n ∈ names, b ∈ n := by
  induction names generalizing base with
  | nil => exact ⟨[], by rw [List.append_nil]; rfl, by simp⟩
  | cons n rest ih =>
    obtain ⟨between, hfirst, hslash⟩ := bytes_join base (h n List.mem_cons_self)
    obtain ⟨more, hmore, hbytes⟩ := ih (base.join ⟨n⟩) fun m hm => h m (List.mem_cons_of_mem n hm)
    refine ⟨between ++ n ++ more, ?_, ?_⟩
    · refine hmore.trans ?_
      rw [hfirst]
      simp
    · intro b hb
      rcases List.mem_append.mp hb with hb | hb
      · rcases List.mem_append.mp hb with hb | hb
        · exact Or.inl (hslash b hb)
        · exact Or.inr ⟨n, List.mem_cons_self, hb⟩
      · exact (hbytes b hb).imp_right fun ⟨m, hm, hmem⟩ => ⟨m, List.mem_cons_of_mem n hm, hmem⟩

end DiskPath

namespace Disk

variable {d : Disk}

theorem IsTree.isDirectoryAt_of_below (h : d.IsTree) {l more : Location} (hmore : more ≠ [])
    (hfound : d.entry? (l ++ more) ≠ none) : d.isDirectoryAt l = true := by
  rw [← Bool.not_eq_false]
  exact fun hfile => hfound (h.entry?_below hfile hmore)

theorem IsTree.found_of_below (h : d.IsTree) {l more : Location} (hfound : d.entry? (l ++ more) ≠ none) :
    d.entry? l ≠ none := by
  by_cases hmore : more = []
  · rwa [hmore, List.append_nil] at hfound
  · rw [isDirectoryAt_iff.mp (h.isDirectoryAt_of_below hmore hfound)]
    simp

theorem IsSound.isLegal_of_found (h : d.IsSound) (htree : d.IsTree) {l : Location} (hl : d.entry? l ≠ none) :
    ∀ n ∈ l, n.IsLegal := by
  intro n hn
  obtain ⟨before, after, rfl⟩ := List.append_of_mem hn
  rw [List.append_cons] at hl
  exact h.legal before n (htree.found_of_below hl)

theorem IsSound.isProper_of_found (h : d.IsSound) (htree : d.IsTree) {l names : Location} {e : Entry}
    (hentry : d.entry? (l ++ names) = some e) : ∀ n ∈ names, n.IsProper := by
  intro n hn
  have hfound : d.entry? (l ++ names) ≠ none := by
    rw [hentry]
    simp
  exact (h.isLegal_of_found htree hfound n (List.mem_append_right l hn)).toIsProper

/-- Names that lead from a directory to something can be walked. -/
theorem canWalk_of_found (htree : d.IsTree) (hsound : d.IsSound) {here names : Location}
    (hhere : d.isDirectoryAt here = true) (hfound : d.entry? (here ++ names) ≠ none) : d.CanWalk here names := by
  induction names generalizing here with
  | nil => trivial
  | cons n rest ih =>
    rw [List.append_cons] at hfound
    have hn := htree.found_of_below hfound
    have hlegal := hsound.legal here n hn
    rw [CanWalk, if_neg (show n ≠ herePiece from hlegal.ne_here), if_neg (show n ≠ upPiece from hlegal.ne_up)]
    refine ⟨hhere, hlegal.length, hn, ?_⟩
    cases rest with
    | nil => trivial
    | cons next others => exact ih (htree.isDirectoryAt_of_below (List.cons_ne_nil next others) hfound) hfound

theorem leadsTo_descend (p : DiskPath) {names : List FileName} {n : FileName}
    (h : ∀ m ∈ names ++ [n], m.IsProper) : LeadsTo (p.descend (names ++ [n])) (p.named ++ names) n := by
  have hn := h n (by simp)
  constructor
  · rw [DiskPath.named_descend p (fun m hm => (h m hm).no_slash) fun m hm => (h m hm).ne_nil, List.append_assoc]
  · rw [DiskPath.descend_append]
    obtain ⟨ps, hps, _⟩ := DiskPath.pieces_join (p.descend names) hn.no_slash
    exact DiskPath.getLast?_bytes hps hn.ne_nil

/-- A system takes the path of what stands below a directory, unless it is too long. -/
theorem pathError?_descend {p : DiskPath} (herror : pathError? p = none) {names : List FileName}
    (hlegal : ∀ n ∈ names, n.IsLegal) (hshort : (p.descend names).bytes.length < pathLimit) :
    pathError? (p.descend names) = none := by
  obtain ⟨hnul, hne, _⟩ := pathError?_eq_none.mp herror
  obtain ⟨more, hbytes, hmore⟩ := DiskPath.bytes_descend p fun n hn => (hlegal n hn).no_slash
  refine pathError?_eq_none.mpr ⟨?_, ?_, hshort⟩
  · rw [hbytes, List.mem_append, not_or]
    refine ⟨hnul, fun hmem => ?_⟩
    rcases hmore 0 hmem with hzero | ⟨n, hn, hmem⟩
    · exact absurd hzero (by decide)
    · exact (hlegal n hn).no_nul hmem
  · rw [hbytes]
    simp [hne]

/-- The path of what stands below a directory leads there, unless it is too long. -/
theorem find_joinNames (htree : d.IsTree) (hlinks : d.Linkless) (hsound : d.IsSound) {p : DiskPath} {l : Location}
    (hp : d.find p = .ok (l, .directory)) {names : Location} {e : Entry} (he : d.entry? (l ++ names) = some e)
    (hshort : (p.joinNames names).bytes.length < pathLimit) : d.find (p.joinNames names) = .ok (l ++ names, e) := by
  obtain ⟨herror, hcan, hto, hdir⟩ := (find_eq_ok_iff hlinks).mp hp
  rcases List.eq_nil_or_concat names with rfl | ⟨init, n, rfl⟩
  · rw [List.append_nil, hdir] at he
    cases he
    rw [List.append_nil]
    exact hp
  · rw [List.concat_eq_append] at he hshort ⊢
    rw [DiskPath.joinNames_eq_descend] at hshort ⊢
    have hfound : d.entry? (l ++ (init ++ [n])) ≠ none := by rw [he]; simp
    have hlegal : ∀ m ∈ init ++ [n], m.IsLegal := fun m hm =>
      hsound.isLegal_of_found htree hfound m (List.mem_append_right l hm)
    have hproper : ∀ m ∈ init ++ [n], m.IsProper := fun m hm => (hlegal m hm).toIsProper
    have hslash : ∀ m ∈ init ++ [n], slash ∉ m := fun m hm => (hproper m hm).no_slash
    have hstart : start d.workplace (p.descend (init ++ [n])) = start d.workplace p := by
      rw [start, start, DiskPath.isAbsolute_descend p hslash]
    have hsteps : steps (p.descend (init ++ [n])) = p.named ++ (init ++ [n]) := by
      rw [(leadsTo_descend p hproper).steps, List.append_assoc]
    rw [steps_eq, canWalk_append] at hcan
    have hnamed : walkTo (start d.workplace p) p.named = l := by rw [← hto, walkTo_steps_named]
    refine (find_eq_ok_iff hlinks).mpr ⟨pathError?_descend herror hlegal hshort, ?_, ?_, he⟩
    · rw [hstart, hsteps, canWalk_append, hnamed]
      exact ⟨hcan.1, canWalk_of_found htree hsound (isDirectoryAt_iff.mpr hdir) hfound⟩
    · rw [hstart, hsteps, walkTo_append, hnamed, walkTo_of_isProper hproper]

end Disk

end TypedId
