import Mathlib.Data.List.Forall2
import TypedId.Proofs.ScannedUnits

/-!
One unit for each key. Of the types that qualify the first of each key is rendered (`renderAll_eq_mapM`), so the
order of the candidates decides which type a key stands for, and nothing else. What the units of two lists
together are is told by the units of each, and the keys do not depend on the order. A generation may
fail on the same candidates in another order, though: a name with a comment beside it qualifies, but cannot be
rendered (`one_unit_per_key`).
-/
namespace TypedId

/-! ## The first of each key -/

section FirstOfKey

variable {α β : Type} [DecidableEq β] (key : α → β)

/-- The things of a list without those that have the key of an earlier one. -/
def firstOfKey (xs : List α) : List α := xs.eraseDupsBy fun a b => key a == key b

/-- The thing comes first among those of a list that have its key. -/
def IsFirstOfKey (xs : List α) (a : α) : Prop :=
  ∃ before after, xs = before ++ a :: after ∧ ∀ b ∈ before, key b ≠ key a

variable {key}

/-- Things may be left out by their keys before the first of each key are taken or after it. -/
theorem firstOfKey_filter {p : α → Bool} (hp : ∀ a b, key a = key b → p a = p b) (xs : List α) :
    firstOfKey key (xs.filter p) = (firstOfKey key xs).filter p := by
  -- By the length: what comes after the first thing is itself a list from which things have been left out.
  match xs with
  | [] => rfl
  | a :: rest =>
    have ih := firstOfKey_filter hp (rest.filter fun b => (key b == key a) = false)
    rw [List.filter_comm] at ih
    unfold firstOfKey at ih ⊢
    cases ha : p a with
    | true =>
      rw [List.filter_cons_of_pos ha, List.eraseDupsBy_cons, List.eraseDupsBy_cons, List.filter_cons_of_pos ha, ih]
    | false =>
      have hrest : (rest.filter p).filter (fun b => (key b == key a) = false) = rest.filter p := by
        rw [List.filter_eq_self]
        intro b hb
        have hpb := (List.mem_filter.mp hb).2
        have hne : key b ≠ key a := fun heq => by simp [hp b a heq, ha] at hpb
        simpa using hne
      rw [List.filter_cons_of_neg (by simp [ha]), List.eraseDupsBy_cons, List.filter_cons_of_neg (by simp [ha]),
        ← ih, hrest]
  termination_by xs.length
  decreasing_by exact Nat.lt_succ_of_le (List.length_filter_le _ _)

theorem firstOfKey_cons (a : α) (rest : List α) :
    firstOfKey key (a :: rest) = a :: (firstOfKey key rest).filter fun b => key b ≠ key a := by
  have hkeys : ∀ b c, key b = key c → decide (key b ≠ key a) = decide (key c ≠ key a) := by
    intro b c heq
    rw [heq]
  have hfilter : (fun b => decide ((key b == key a) = false)) = fun b => decide (key b ≠ key a) := by
    funext b
    simp
  rw [← firstOfKey_filter hkeys, firstOfKey, List.eraseDupsBy_cons, hfilter, firstOfKey]

/-- What is kept are the things that come first among those of their key. -/
theorem mem_firstOfKey {xs : List α} {a : α} : a ∈ firstOfKey key xs ↔ IsFirstOfKey key xs a := by
  induction xs with
  | nil =>
    constructor
    · intro h
      cases h
    · rintro ⟨before, after, hsplit, _⟩
      simp at hsplit
  | cons c rest ih =>
    rw [firstOfKey_cons, List.mem_cons, List.mem_filter, ih, decide_eq_true_eq]
    constructor
    · rintro (rfl | ⟨⟨before, after, rfl, hbefore⟩, hne⟩)
      · exact ⟨[], rest, rfl, by simp⟩
      · refine ⟨c :: before, after, rfl, fun b hb => ?_⟩
        rcases List.mem_cons.mp hb with rfl | hb
        · exact Ne.symm hne
        · exact hbefore b hb
    · rintro ⟨before, after, hsplit, hbefore⟩
      cases before with
      | nil =>
        rw [List.nil_append, List.cons.injEq] at hsplit
        exact Or.inl hsplit.1.symm
      | cons c' before =>
        rw [List.cons_append, List.cons.injEq] at hsplit
        obtain ⟨rfl, rfl⟩ := hsplit
        have hc := hbefore c List.mem_cons_self
        exact Or.inr ⟨⟨before, after, rfl, fun b hb => hbefore b (List.mem_cons_of_mem c hb)⟩, Ne.symm hc⟩

/-- Every key has a thing that comes first. -/
theorem mem_map_firstOfKey {xs : List α} {k : β} : k ∈ (firstOfKey key xs).map key ↔ k ∈ xs.map key := by
  induction xs with
  | nil => rfl
  | cons a rest ih =>
    rw [firstOfKey_cons, List.map_cons, List.map_cons, List.mem_cons, List.mem_cons, ← ih]
    by_cases hk : k = key a
    · simp [hk]
    · have hfilter : k ∈ ((firstOfKey key rest).filter fun b => key b ≠ key a).map key ↔
          k ∈ (firstOfKey key rest).map key := by
        simp only [List.mem_map, List.mem_filter, decide_eq_true_eq]
        constructor
        · rintro ⟨b, ⟨hb, _⟩, rfl⟩
          exact ⟨b, hb, rfl⟩
        · rintro ⟨b, hb, rfl⟩
          exact ⟨b, ⟨hb, hk⟩, rfl⟩
      rw [hfilter]

theorem firstOfKey_append (xs ys : List α) :
    firstOfKey key (xs ++ ys) =
      firstOfKey key xs ++ (firstOfKey key ys).filter fun b => key b ∉ xs.map key := by
  induction xs with
  | nil => simp [firstOfKey]
  | cons a rest ih =>
    rw [List.cons_append, firstOfKey_cons, ih, List.filter_append, List.filter_filter, firstOfKey_cons,
      List.cons_append]
    congr 2
    refine List.filter_congr fun b _ => ?_
    simp

theorem map_firstOfKey (xs : List α) : (firstOfKey key xs).map key = firstOfKey id (xs.map key) := by
  induction xs with
  | nil => rfl
  | cons a rest ih =>
    rw [firstOfKey_cons, List.map_cons, List.map_cons, firstOfKey_cons, ← ih, List.filter_map]
    rfl

end FirstOfKey

/-! ## Lists of answers -/

/-- Several answers in a row are answers to the questions, one by one. -/
theorem mapM_eq_ok_iff_forall₂ {α β ε : Type} {f : α → Except ε β} {xs : List α} {ys : List β} :
    xs.mapM f = .ok ys ↔ List.Forall₂ (fun x y => f x = .ok y) xs ys := by
  induction xs generalizing ys with
  | nil =>
    rw [List.forall₂_nil_left_iff, List.mapM_nil]
    constructor
    · intro h
      cases h
      rfl
    · rintro rfl
      rfl
  | cons x rest ih =>
    rw [List.forall₂_cons_left_iff, List.mapM_cons]
    constructor
    · intro h
      cases hx : f x with
      | error e => simp [hx, bind, Except.bind] at h
      | ok y =>
        cases hrest : rest.mapM f with
        | error e => simp [hx, hrest, bind, Except.bind] at h
        | ok more =>
          simp only [hx, hrest, bind, Except.bind, pure, Except.pure, Except.ok.injEq] at h
          exact ⟨y, more, rfl, ih.mp hrest, h.symm⟩
    · rintro ⟨y, more, hy, hmore, rfl⟩
      rw [hy, ih.mpr hmore]
      rfl

theorem map_eq_of_forall₂ {α β γ : Type} {R : α → β → Prop} {f : α → γ} {g : β → γ} {xs : List α} {ys : List β}
    (h : List.Forall₂ R xs ys) (hfg : ∀ x y, R x y → f x = g y) : xs.map f = ys.map g := by
  induction h with
  | nil => rfl
  | cons hxy _ ih => rw [List.map_cons, List.map_cons, hfg _ _ hxy, ih]

theorem any_eq_of_forall₂ {α β : Type} {R : α → β → Prop} {p : α → Bool} {q : β → Bool} {xs : List α} {ys : List β}
    (h : List.Forall₂ R xs ys) (hpq : ∀ x y, R x y → p x = q y) : xs.any p = ys.any q := by
  induction h with
  | nil => rfl
  | cons hxy _ ih => rw [List.any_cons, List.any_cons, hpq _ _ hxy, ih]

theorem all_eq_of_forall₂ {α β : Type} {R : α → β → Prop} {p : α → Bool} {q : β → Bool} {xs : List α} {ys : List β}
    (h : List.Forall₂ R xs ys) (hpq : ∀ x y, R x y → p x = q y) : xs.all p = ys.all q := by
  induction h with
  | nil => rfl
  | cons hxy _ ih => rw [List.all_cons, List.all_cons, hpq _ _ hxy, ih]

theorem filterMap_eq_of_forall₂ {α β γ : Type} {R : α → β → Prop} {f : α → Option γ} {g : β → Option γ}
    {xs : List α} {ys : List β} (h : List.Forall₂ R xs ys) (hfg : ∀ x y, R x y → f x = g y) :
    xs.filterMap f = ys.filterMap g := by
  induction h with
  | nil => rfl
  | cons hxy _ ih => rw [List.filterMap_cons, List.filterMap_cons, hfg _ _ hxy, ih]

/-! ## Units -/

namespace GeneratedUnit

/-- The type that a unit is for. -/
def type (u : GeneratedUnit) : QualifiedType := ⟨u.modulePath, u.typeName⟩

theorem of_render {t : QualifiedType} {u : GeneratedUnit} (h : render t = .ok u) :
    u.type = t ∧ u.key = t.unitKey := by
  obtain ⟨_, _, rfl⟩ := render_eq_ok.mp h
  exact ⟨rfl, rfl⟩

/-- Of types with the same key the first one is rendered. -/
theorem renderAll_eq_mapM (taken : List String) (types : List QualifiedType) :
    renderAll taken types =
      (firstOfKey QualifiedType.unitKey (types.filter fun t => t.unitKey ∉ taken)).mapM render := by
  induction types generalizing taken with
  | nil => rfl
  | cons t rest ih =>
    rw [renderAll]
    by_cases htaken : t.unitKey ∈ taken
    · rw [if_pos (List.contains_iff_mem.mpr htaken), List.filter_cons_of_neg (by simpa using htaken), ih]
    · have hrest : (firstOfKey QualifiedType.unitKey (rest.filter fun s => s.unitKey ∉ taken)).filter
          (fun s => s.unitKey ≠ t.unitKey) =
          firstOfKey QualifiedType.unitKey (rest.filter fun s => s.unitKey ∉ t.unitKey :: taken) := by
        rw [← firstOfKey_filter (by intro a b heq; rw [heq]), List.filter_filter]
        congr 1
        refine List.filter_congr fun s _ => ?_
        simp
      rw [if_neg (by simpa using htaken), List.filter_cons_of_pos (by simpa using htaken), firstOfKey_cons,
        List.mapM_cons, hrest, ih]

end GeneratedUnit

/-- The types of the candidates that qualify, in their order. -/
def qualifiedTypes (policy : MarkerPolicy) (candidates : List Candidate) : List QualifiedType :=
  candidates.filterMap (Candidate.qualified? policy)

/-- The units are the rendered first types of their keys. -/
theorem generate_eq_ok_iff {policy : MarkerPolicy} {candidates : List Candidate} {units : List GeneratedUnit} :
    (generate policy candidates).result = .ok units ↔
      List.Forall₂ (fun t u => GeneratedUnit.render t = .ok u)
        (firstOfKey QualifiedType.unitKey (qualifiedTypes policy candidates)) units := by
  rw [generate, result_generateFrom, GeneratedUnit.renderAll_eq_mapM, ← mapM_eq_ok_iff_forall₂]
  simp [qualifiedTypes]

/-- The units are for the first types of their keys. -/
theorem map_type_of_generate {policy : MarkerPolicy} {candidates : List Candidate} {units : List GeneratedUnit}
    (h : (generate policy candidates).result = .ok units) :
    units.map GeneratedUnit.type = firstOfKey QualifiedType.unitKey (qualifiedTypes policy candidates) := by
  have hfirst := generate_eq_ok_iff.mp h
  clear h
  generalize firstOfKey QualifiedType.unitKey (qualifiedTypes policy candidates) = types at hfirst ⊢
  induction hfirst with
  | nil => rfl
  | cons hrender _ ih => rw [List.map_cons, ih, (GeneratedUnit.of_render hrender).1]

/-- The key of a unit is that of its type. -/
theorem map_key_of_generate {policy : MarkerPolicy} {candidates : List Candidate} {units : List GeneratedUnit}
    (h : (generate policy candidates).result = .ok units) :
    units.map GeneratedUnit.key = (units.map GeneratedUnit.type).map QualifiedType.unitKey := by
  rw [List.map_map]
  refine List.map_congr_left fun u hu => ?_
  obtain ⟨_, _, t, _, hrender⟩ := mem_generate h hu
  obtain ⟨htype, hkey⟩ := GeneratedUnit.of_render hrender
  rw [hkey, Function.comp, htype]

/-- Of the keys of the types that qualify each one is given once. -/
theorem map_key_of_generate_eq {policy : MarkerPolicy} {candidates : List Candidate} {units : List GeneratedUnit}
    (h : (generate policy candidates).result = .ok units) :
    units.map GeneratedUnit.key = firstOfKey id ((qualifiedTypes policy candidates).map QualifiedType.unitKey) := by
  rw [map_key_of_generate h, map_type_of_generate h, map_firstOfKey]

theorem mem_map_key_of_generate {policy : MarkerPolicy} {candidates : List Candidate}
    {units : List GeneratedUnit} (h : (generate policy candidates).result = .ok units) {key : String} :
    key ∈ units.map GeneratedUnit.key ↔ key ∈ (qualifiedTypes policy candidates).map QualifiedType.unitKey := by
  rw [map_key_of_generate h, map_type_of_generate h, mem_map_firstOfKey]

/-- A type can be rendered if its name is that of an identifier as it is written. -/
theorem GeneratedUnit.exists_render_iff {t : QualifiedType} :
    (∃ u, render t = .ok u) ↔ ∃ n : Ident, n.spelling = t.typeName := by
  constructor
  · rintro ⟨u, hu⟩
    obtain ⟨n, hn, _⟩ := render_eq_ok.mp hu
    exact ⟨n, Ident.spelling_of_ofSpelling? hn⟩
  · rintro ⟨n, hn⟩
    exact ⟨_, render_eq_ok.mpr ⟨n, hn ▸ n.ofSpelling?_spelling, rfl⟩⟩

theorem mem_qualifiedTypes {policy : MarkerPolicy} {candidates : List Candidate} {t : QualifiedType} :
    t ∈ qualifiedTypes policy candidates ↔ ∃ c ∈ candidates, (c.qualify policy).result = .ok (some t) := by
  simp only [qualifiedTypes, List.mem_filterMap, Candidate.result_qualify_eq, Except.ok.injEq]

/-! ## The order of the candidates -/

/-- What comes first among the types of a key comes from the first candidate of that key. -/
theorem exists_first_candidate {policy : MarkerPolicy} {candidates : List Candidate} {t : QualifiedType}
    (h : IsFirstOfKey QualifiedType.unitKey (qualifiedTypes policy candidates) t) :
    ∃ before c after, candidates = before ++ c :: after ∧ (c.qualify policy).result = .ok (some t) ∧
      ∀ c' ∈ before, ∀ t', (c'.qualify policy).result = .ok (some t') → t'.unitKey ≠ t.unitKey := by
  obtain ⟨types, later, hsplit, hfirst⟩ := h
  obtain ⟨before, rest, rfl, hbefore, hrest⟩ := List.filterMap_eq_append_iff.mp hsplit
  obtain ⟨passed, c, after, rfl, hpassed, hc, _⟩ := List.filterMap_eq_cons_iff.mp hrest
  refine ⟨before ++ passed, c, after, by simp, by rw [Candidate.result_qualify_eq, hc], ?_⟩
  intro c' hc' t' ht'
  rw [Candidate.result_qualify_eq, Except.ok.injEq] at ht'
  rcases List.mem_append.mp hc' with hc' | hc'
  · exact hfirst t' (hbefore ▸ List.mem_filterMap.mpr ⟨c', hc', ht'⟩)
  · rw [hpassed c' hc'] at ht'
    cases ht'

/-- The units of two lists in a row. -/
theorem generate_append {policy : MarkerPolicy} {cs ds : List Candidate} {us vs : List GeneratedUnit}
    (hcs : (generate policy cs).result = .ok us) (hds : (generate policy ds).result = .ok vs) :
    (generate policy (cs ++ ds)).result =
      .ok (us ++ vs.filter fun v => v.key ∉ us.map GeneratedUnit.key) := by
  have htypes : qualifiedTypes policy (cs ++ ds) = qualifiedTypes policy cs ++ qualifiedTypes policy ds :=
    List.filterMap_append
  rw [generate_eq_ok_iff, htypes, firstOfKey_append]
  refine List.rel_append (generate_eq_ok_iff.mp hcs) (List.rel_filter ?_ (generate_eq_ok_iff.mp hds))
  intro t v hrender
  dsimp only
  rw [decide_eq_true_eq, decide_eq_true_eq, mem_map_key_of_generate hcs, (GeneratedUnit.of_render hrender).2]

/-- The keys do not depend on the order of the candidates. -/
theorem mem_map_key_of_perm {policy : MarkerPolicy} {cs ds : List Candidate} {us vs : List GeneratedUnit}
    (hperm : ds.Perm cs) (hcs : (generate policy cs).result = .ok us) (hds : (generate policy ds).result = .ok vs)
    (key : String) : key ∈ vs.map GeneratedUnit.key ↔ key ∈ us.map GeneratedUnit.key := by
  rw [mem_map_key_of_generate hcs, mem_map_key_of_generate hds]
  exact ((hperm.filterMap _).map _).mem_iff

/-- Candidates get their units in every order exactly if each name that qualifies can be rendered. -/
theorem generate_perm_iff {policy : MarkerPolicy} {cs : List Candidate} :
    (∀ ds, ds.Perm cs → ∃ vs, (generate policy ds).result = .ok vs) ↔
      ∀ t ∈ qualifiedTypes policy cs, ∃ n : Ident, n.spelling = t.typeName := by
  constructor
  · intro h t ht
    obtain ⟨c, hc, hqualifies⟩ := List.mem_filterMap.mp ht
    -- Put first, the candidate gives its own type the key.
    obtain ⟨vs, hvs⟩ := h (c :: cs.erase c) (List.perm_cons_erase hc).symm
    rw [generate_eq_ok_iff, qualifiedTypes, List.filterMap_cons_some hqualifies, firstOfKey_cons,
      List.forall₂_cons_left_iff] at hvs
    obtain ⟨u, _, hrender, _⟩ := hvs
    exact GeneratedUnit.exists_render_iff.mp ⟨u, hrender⟩
  · intro h ds hperm
    rw [generate, result_generateFrom]
    refine GeneratedUnit.renderAll_eq_ok [] fun t ht => ?_
    obtain ⟨n, hn⟩ := h t ((hperm.filterMap _).mem_iff.mp ht)
    exact ⟨n, hn ▸ n.ofSpelling?_spelling⟩

/-- **One unit for each key, and the first candidate of a key gets it.** The keys of the units are those of the
candidates that qualify, each once, and the units come in the order of the first candidates of their keys.
More candidates add the units of the keys that are new, so the same candidates once more add nothing. In
another order the candidates have the same keys; all orders are answered exactly if the name of every
candidate that qualifies is an identifier as it is written, with nothing beside it. -/
theorem one_unit_per_key {policy : MarkerPolicy} {cs ds : List Candidate} {us vs : List GeneratedUnit}
    (hcs : (generate policy cs).result = .ok us) (hds : (generate policy ds).result = .ok vs) :
    (us.map GeneratedUnit.key).Nodup ∧
    (∀ key, key ∈ us.map GeneratedUnit.key ↔
      ∃ c ∈ cs, ∃ t, (c.qualify policy).result = .ok (some t) ∧ t.unitKey = key) ∧
    (∀ u ∈ us, ∃ before c after, cs = before ++ c :: after ∧ (c.qualify policy).result = .ok (some u.type) ∧
      u.type.unitKey = u.key ∧
      ∀ c' ∈ before, ∀ t', (c'.qualify policy).result = .ok (some t') → t'.unitKey ≠ u.key) ∧
    us.map GeneratedUnit.type = firstOfKey QualifiedType.unitKey (qualifiedTypes policy cs) ∧
    (generate policy (cs ++ ds)).result =
      .ok (us ++ vs.filter fun v => v.key ∉ us.map GeneratedUnit.key) ∧
    (generate policy (cs ++ cs)).result = .ok us ∧
    (∀ cs' us', cs'.Perm cs → (generate policy cs').result = .ok us' →
      ∀ key, key ∈ us'.map GeneratedUnit.key ↔ key ∈ us.map GeneratedUnit.key) ∧
    ((∀ cs', cs'.Perm cs → ∃ us', (generate policy cs').result = .ok us' ∧
        ∀ key, key ∈ us'.map GeneratedUnit.key ↔ key ∈ us.map GeneratedUnit.key) ↔
      ∀ c ∈ cs, ∀ t, (c.qualify policy).result = .ok (some t) → ∃ n : Ident, n.spelling = t.typeName) := by
  have hperm : ∀ cs' us', cs'.Perm cs → (generate policy cs').result = .ok us' →
      ∀ key, key ∈ us'.map GeneratedUnit.key ↔ key ∈ us.map GeneratedUnit.key :=
    fun _ _ hperm hcs' => mem_map_key_of_perm hperm hcs hcs'
  refine ⟨generate_keys_nodup hcs, ?_, ?_, map_type_of_generate hcs, generate_append hcs hds, ?_, hperm, ?_⟩
  · intro key
    rw [mem_map_key_of_generate hcs, List.mem_map]
    constructor
    · rintro ⟨t, ht, hkey⟩
      obtain ⟨c, hc, hqualify⟩ := mem_qualifiedTypes.mp ht
      exact ⟨c, hc, t, hqualify, hkey⟩
    · rintro ⟨c, hc, t, hqualify, hkey⟩
      exact ⟨t, mem_qualifiedTypes.mpr ⟨c, hc, hqualify⟩, hkey⟩
  · intro u hu
    obtain ⟨_, _, t, _, hrender⟩ := mem_generate hcs hu
    obtain ⟨htype, hkey⟩ := GeneratedUnit.of_render hrender
    have hmem := List.mem_map_of_mem (f := GeneratedUnit.type) hu
    rw [map_type_of_generate hcs, mem_firstOfKey] at hmem
    obtain ⟨before, c, after, hsplit, hqualify, hbefore⟩ := exists_first_candidate hmem
    have hown : u.type.unitKey = u.key := by rw [htype, hkey]
    exact ⟨before, c, after, hsplit, hqualify, hown, hown ▸ hbefore⟩
  · have hnone : us.filter (fun u => u.key ∉ us.map GeneratedUnit.key) = [] := by
      rw [List.filter_eq_nil_iff]
      intro u hu
      simpa using ⟨u, hu, rfl⟩
    rw [generate_append hcs hcs, hnone, List.append_nil]
  · have hnames := @generate_perm_iff policy cs
    constructor
    · intro h c hc t hqualify
      exact hnames.mp (fun cs' hcs' => (h cs' hcs').imp fun _ hus' => hus'.1) t
        (mem_qualifiedTypes.mpr ⟨c, hc, hqualify⟩)
    · intro h cs' hcs'
      obtain ⟨us', hus'⟩ := hnames.mpr (fun t ht => by
        obtain ⟨c, hc, hqualify⟩ := mem_qualifiedTypes.mp ht
        exact h c hc t hqualify) cs' hcs'
      exact ⟨us', hus', hperm cs' us' hcs' hus'⟩

/-- A declaration of this name with the marker, in the module that these names lead to. -/
def markedNamed (segments : List String) (name : String) : Candidate where
  name
  modulePath := ⟨segments⟩
  isExtensible := true
  isGeneric := false
  attributes := [⟨"identifier", "identifier"⟩]
  source := DiskPath.ofString "src/lib.rs"

theorem one_unit_per_key_shop :
    ∃ us vs, (generate .permissive [markedNamed ["shop"] "r#Id", markedNamed ["shop"] "Id"]).result = .ok us ∧
      (generate .permissive [markedNamed ["shop"] "Id", markedNamed ["r#type"] "Id"]).result = .ok vs ∧
      us.map GeneratedUnit.type = [⟨⟨["shop"]⟩, "r#Id"⟩] ∧
      vs.map GeneratedUnit.key = ["shop/Id.g.rs", "type/Id.g.rs"] ∧
      (generate .permissive ([markedNamed ["shop"] "r#Id", markedNamed ["shop"] "Id"] ++
        [markedNamed ["shop"] "Id", markedNamed ["r#type"] "Id"])).result =
          .ok (us ++ vs.filter fun v => v.key ∉ us.map GeneratedUnit.key) := by
  have hnames : ∀ t : QualifiedType, t.typeName ∈ ["r#Id", "Id"] → ∃ n : Ident, n.spelling = t.typeName := by
    intro t ht
    rcases List.mem_pair.mp ht with ht | ht
    · exact ⟨⟨true, "Id", .refl true⟩, ht.symm⟩
    · exact ⟨⟨false, "Id", .refl true⟩, ht.symm⟩
  obtain ⟨us, hus⟩ := (@generate_perm_iff .permissive _).mpr (fun t ht => hnames t (by revert t; decide +kernel))
    [markedNamed ["shop"] "r#Id", markedNamed ["shop"] "Id"] (List.Perm.refl _)
  obtain ⟨vs, hvs⟩ := (@generate_perm_iff .permissive _).mpr (fun t ht => hnames t (by revert t; decide +kernel))
    [markedNamed ["shop"] "Id", markedNamed ["r#type"] "Id"] (List.Perm.refl _)
  obtain ⟨_, _, _, htypes, happend, _⟩ := one_unit_per_key hus hvs
  refine ⟨us, vs, hus, hvs, ?_, ?_, happend⟩
  · rw [htypes]
    decide +kernel
  · rw [map_key_of_generate hvs, map_type_of_generate hvs]
    decide +kernel

/-- Two candidates may share a key of which one has a name that cannot be rendered: the answer then depends on
which of them comes first. -/
theorem order_stops :
    (∃ us, (generate .permissive [markedNamed ["a//*x*"] "b", markedNamed ["a"] "/*x*/b"]).result = .ok us ∧
      us.map GeneratedUnit.key = ["a//*x*/b.g.rs"]) ∧
    [markedNamed ["a"] "/*x*/b", markedNamed ["a//*x*"] "b"].Perm
      [markedNamed ["a//*x*"] "b", markedNamed ["a"] "/*x*/b"] ∧
    (generate .permissive [markedNamed ["a"] "/*x*/b", markedNamed ["a//*x*"] "b"]).result =
      .error (.notAnIdentifier "/*x*/b") := by
  have hfirst : firstOfKey QualifiedType.unitKey (qualifiedTypes .permissive
      [markedNamed ["a//*x*"] "b", markedNamed ["a"] "/*x*/b"]) = [⟨⟨["a//*x*"]⟩, "b"⟩] := by decide +kernel
  obtain ⟨u, hrender⟩ := GeneratedUnit.exists_render_iff.mpr
    ⟨(⟨false, "b", .refl true⟩ : Ident), (rfl : _ = (⟨⟨["a//*x*"]⟩, "b"⟩ : QualifiedType).typeName)⟩
  refine ⟨⟨[u], generate_eq_ok_iff.mpr ?_, ?_⟩, List.Perm.swap _ _ _, by decide +kernel⟩
  · rw [hfirst]
    exact .cons hrender .nil
  · rw [List.map_singleton, (GeneratedUnit.of_render hrender).2]
    decide +kernel

end TypedId
