import TypedId.Proofs.FileModules

/-!
Keys that mirror the tree of the sources. The name of a module is that of its file or directory with a raw mark where
one is needed (`isIdentifier_segmentOf`), and a key leaves raw marks out; so the key of a type in a file is the way
from the root to the file, with the name of the type after it (`unit_keys_mirror_sources`). Where the root lies, and
how the path of the file is spelled, makes no difference.
-/
namespace TypedId

open FileName

/-! ## Stems of texts -/

/-- A name that is cut is cut at one of its points. -/
theorem FileName.eq_append_of_splitAtDot? {n before after : FileName} (h : splitAtDot? n = some (before, after)) :
    n = before ++ dot :: after := by
  have hwhole : n = (n.reverse.dropWhile (· != dot)).reverse ++ (n.reverse.takeWhile (· != dot)).reverse := by
    rw [← List.reverse_append, List.takeWhile_append_dropWhile, List.reverse_reverse]
  have hfirst := List.head?_dropWhile_not (· != dot) n.reverse
  unfold splitAtDot? at h
  dsimp only at h
  generalize (n.reverse.takeWhile (· != dot)).reverse = last at h hwhole
  split at h
  · cases h
  · next hcut =>
    cases h
    -- After the longest end without a point comes a point, since something stands before it.
    cases hdrop : n.reverse.dropWhile (· != dot) with
    | nil =>
      rw [hdrop, List.reverse_nil, List.nil_append] at hwhole
      simp [hwhole] at hcut
    | cons b rest =>
      rw [hdrop, List.head?_cons] at hfirst
      obtain rfl : b = dot := by simpa using hfirst
      rw [hdrop, List.reverse_cons, List.append_assoc, List.singleton_append] at hwhole
      have hlength : n.length - after.length - 1 = rest.reverse.length := by
        rw [hwhole, List.length_append, List.length_cons]
        omega
      have htake : n.take (n.length - after.length - 1) = rest.reverse := by
        rw [hlength, hwhole, List.take_left]
      rw [htake]
      exact hwhole

/-- A stem is all of its name, or what stands before one of its points. -/
theorem FileName.stem_eq_or (n : FileName) : stem n = n ∨ ∃ after, n = stem n ++ dot :: after := by
  unfold stem
  split
  · next before after h => exact Or.inr ⟨after, eq_append_of_splitAtDot? h⟩
  · exact Or.inl rfl

/-- The bytes before a point in a text are those of a text. -/
theorem Text.exists_text_before_dot {s : String} {before after : List UInt8}
    (h : encode s = before ++ dot :: after) : ∃ t : String, encode t = before ∧ t.toList <+: s.toList := by
  suffices hchars : ∀ cs : List Char, cs.flatMap String.utf8EncodeChar = before ++ dot :: after →
      ∃ t, t.flatMap String.utf8EncodeChar = before ∧ t <+: cs by
    obtain ⟨t, ht, hprefix⟩ := hchars s.toList h
    exact ⟨String.ofList t, by rw [encode, String.toList_ofList, ht], by rwa [String.toList_ofList]⟩
  intro cs
  clear h
  induction cs generalizing before with
  | nil =>
    intro h
    simp at h
  | cons c rest ih =>
    intro h
    rw [List.flatMap_cons, List.append_eq_append_iff] at h
    rcases h with ⟨more, hbefore, hmore⟩ | ⟨cut, hc, hcut⟩
    · obtain ⟨t, ht, hprefix⟩ := ih hmore
      exact ⟨c :: t, by rw [List.flatMap_cons, ht, hbefore], (List.cons_prefix_cons).mpr ⟨rfl, hprefix⟩⟩
    · cases cut with
      | nil =>
        obtain ⟨t, ht, hprefix⟩ := @ih [] hcut.symm
        refine ⟨c :: t, ?_, (List.cons_prefix_cons).mpr ⟨rfl, hprefix⟩⟩
        rw [List.flatMap_cons, ht, hc]
        simp
      | cons b cut =>
        -- The point is a byte of this character, which it can be only of itself.
        have hb : b = dot := (List.cons.inj hcut).1.symm
        have hmem : dot ∈ String.utf8EncodeChar c := by rw [hc, hb]; simp
        have hdot : c = '.' := Char.toNat_inj.mp (toNat_of_mem_utf8EncodeChar hmem (by decide))
        have hlength := congrArg List.length hc
        rw [hdot, List.length_append, List.length_cons] at hlength
        have hone : (String.utf8EncodeChar '.').length = 1 := by decide
        refine ⟨[], ?_, List.nil_prefix⟩
        rw [List.flatMap_nil, eq_comm, ← List.length_eq_zero_iff]
        omega

/-- The stem of a text is a text. -/
theorem FileName.exists_text_stem (s : String) :
    ∃ t : String, Text.encode t = stem (Text.encode s) ∧ t.toList <+: s.toList := by
  rcases stem_eq_or (Text.encode s) with hall | ⟨after, hafter⟩
  · exact ⟨s, hall.symm, List.prefix_refl _⟩
  · exact Text.exists_text_before_dot hafter

/-! ## Names of modules -/

namespace ModulePath

/-- The name of a module passes as an identifier exactly if the name of the file does, written plain or raw. -/
theorem isIdentifier_segmentOf (name : String) :
    isIdentifier (segmentOf name) = true ↔ isIdentifier name = true ∨ isIdentifier ("r#" ++ name) = true := by
  have hnever : ∀ s ∈ neverRaw, isIdentifier ("r#" ++ s) = false := by decide +kernel
  unfold segmentOf
  split
  · next hraw =>
    simp only [Bool.and_eq_true] at hraw
    simp [hraw.2]
  · next hplain =>
    simp only [Bool.and_eq_true, Bool.not_eq_true', not_and, Bool.not_eq_true] at hplain
    constructor
    · exact Or.inl
    · rintro (hname | hmarked)
      · exact hname
      · -- Only a word that has no raw form is left plain where it does not pass.
        cases hname : isIdentifier name with
        | true => rfl
        | false =>
          cases hmem : neverRaw.contains name with
          | true =>
            rw [hnever name (List.contains_iff_mem.mp hmem)] at hmarked
            cases hmarked
          | false =>
            rw [hplain ⟨hmem, hname⟩] at hmarked
            cases hmarked

/-- A name without a raw mark comes back when the mark of the module is left out. -/
theorem unraw_segmentOf {name : String} (h : name.toList.take 2 ≠ ['r', '#']) : unraw (segmentOf name) = name := by
  unfold segmentOf
  split
  · rw [unraw, String.toList_append]
    exact String.ofList_toList
  · exact ((unraw_cases name).resolve_left fun hmark => h hmark.1).2

/-- The names on the way to the module of a file: those of its directories and its own, unless it holds the module of
its directory. -/
def sourceNames (directories : List String) (stem : String) : List String :=
  directories ++ if stem ∈ directoryStems then [] else [stem]

theorem ofNames_encode (directories : List String) {file stem : String}
    (hstem : Text.encode stem = FileName.stem (Text.encode file)) :
    ofNames (directories.map Text.encode) (Text.encode file) = ⟨(sourceNames directories stem).map segmentOf⟩ := by
  have hdecode : (fun n => segmentOf (Text.decodeLossy n)) ∘ Text.encode = segmentOf := by
    funext s
    rw [Function.comp, Text.decodeLossy_encode]
  rw [ofNames, ← hstem, Text.decodeLossy_encode, List.map_map, hdecode, sourceNames, List.map_append]
  by_cases hown : stem ∈ directoryStems
  · rw [if_pos hown, if_pos (List.contains_iff_mem.mpr hown), List.map_nil]
  · rw [if_neg hown, if_neg (fun h => hown (List.contains_iff_mem.mp h)), List.map_singleton]

end ModulePath

/-! ## Files below a root -/

/-- A name that is a component of its own and has no raw mark before it. -/
structure IsOrdinaryName (s : String) : Prop where
  proper : FileName.IsProper (Text.encode s)
  unmarked : s.toList.take 2 ≠ ['r', '#']

namespace Disk

/-- The path leads along these names from the root: its components say so, or, where they do not begin with those of
the root, the places that the two lead to. -/
def LeadsBelow (d : Disk) (root path : DiskPath) (names : List FileName) : Prop :=
  path.components = root.components ++ names.map .name ∨
    DiskPath.below? root path = none ∧ ∃ l, d.resolve true root = .ok l ∧ d.resolve true path = .ok (l ++ names)

theorem moduleOf?_of_leadsBelow {d : Disk} {root path : DiskPath} {directories : List FileName} {file : FileName}
    (h : d.LeadsBelow root path (directories ++ [file])) :
    d.moduleOf? root path = some (ModulePath.ofNames directories file) := by
  rcases h with hcomponents | ⟨hbelow, l, hroot, hpath⟩
  · have hnames : (directories.map Component.name).filterMap Component.name? = directories := by
      rw [List.filterMap_map]
      exact List.filterMap_some
    rw [moduleOf?_of_below (DiskPath.below?_eq_some.mpr hcomponents), List.map_append, List.map_singleton,
      ModulePath.ofComponents?_concat, hnames]
  · rw [moduleOf?_of_not_below hroot hpath hbelow, moduleAt?_append]

end Disk

/-- **Keys mirror the tree of the sources.** Whatever the root is, a file that lies below it in nested directories has
a module path that is told by the names of these and of the file alone. The key of a type in this module has the
names of the directories, then the stem of the file unless it is one of those that hold the module of their
directory, and then the name of the type without its raw mark. Each name of a module passes as an identifier exactly
if the name that it comes from does, written plain or raw. -/
theorem unit_keys_mirror_sources {directories : List String} {file : String}
    (hnames : ∀ s ∈ file :: directories, IsOrdinaryName s) :
    ∃ (p : ModulePath) (stem : String), Text.encode stem = FileName.stem (Text.encode file) ∧
      (∀ (d : Disk) (root : DiskPath),
        d.moduleOf? root (root.descend ((directories ++ [file]).map Text.encode)) = some p ∧
        ∀ path, d.LeadsBelow root path ((directories ++ [file]).map Text.encode) → d.moduleOf? root path = some p) ∧
      (∀ typeName, QualifiedType.unitKey ⟨p, typeName⟩ =
        String.intercalate "/" (ModulePath.sourceNames directories stem ++ [unraw typeName ++ ".g.rs"])) ∧
      p.segments = (ModulePath.sourceNames directories stem).map ModulePath.segmentOf ∧
      ∀ name ∈ ModulePath.sourceNames directories stem,
        isIdentifier (ModulePath.segmentOf name) = true ↔
          isIdentifier name = true ∨ isIdentifier ("r#" ++ name) = true := by
  obtain ⟨stem, hstem, hprefix⟩ := FileName.exists_text_stem file
  refine ⟨ModulePath.ofNames (directories.map Text.encode) (Text.encode file), stem, hstem, ?_, ?_, ?_, ?_⟩
  · intro d root
    have hbelow : ∀ path, d.LeadsBelow root path ((directories ++ [file]).map Text.encode) →
        d.moduleOf? root path = some (ModulePath.ofNames (directories.map Text.encode) (Text.encode file)) := by
      intro path hpath
      rw [List.map_append, List.map_singleton] at hpath
      exact Disk.moduleOf?_of_leadsBelow hpath
    refine ⟨hbelow _ (Or.inl (DiskPath.components_descend root fun n hn => ?_)), hbelow⟩
    obtain ⟨s, hs, rfl⟩ := List.mem_map.mp hn
    refine (hnames s ?_).proper
    simpa [or_comm] using hs
  · have hunmarked : ∀ s ∈ ModulePath.sourceNames directories stem, s.toList.take 2 ≠ ['r', '#'] := by
      intro s hs
      rcases List.mem_append.mp hs with hs | hs
      · exact (hnames s (List.mem_cons_of_mem file hs)).unmarked
      · split at hs
        · cases hs
        · -- A mark before the stem would stand before the name of the file.
          obtain ⟨rest, hrest⟩ := hprefix
          rw [List.mem_singleton.mp hs]
          intro hmark
          refine (hnames file List.mem_cons_self).unmarked ?_
          have htwo : 2 ≤ stem.toList.length := by
            have hlength : min 2 stem.toList.length = 2 := by rw [← List.length_take, hmark]; rfl
            omega
          rw [← hrest, List.take_append_of_le_length htwo, hmark]
    intro typeName
    rw [QualifiedType.unitKey, ModulePath.ofNames_encode directories hstem, List.map_map]
    congr 2
    refine (List.map_congr_left fun s hs => ModulePath.unraw_segmentOf (hunmarked s hs)).trans ?_
    exact List.map_id _
  · rw [ModulePath.ofNames_encode directories hstem]
  · exact fun name _ => ModulePath.isIdentifier_segmentOf name

/-- Directories and a file that are called like reserved words, below a root that is reached by two paths. -/
theorem unit_keys_mirror_sources_reserved :
    (∀ s ∈ "match.rs" :: ["shop", "type"], IsOrdinaryName s) ∧
      besideSource.moduleOf? (DiskPath.ofString "src") (DiskPath.ofString "src/shop/./type//match.rs") =
        some ⟨["shop", "r#type", "r#match"]⟩ ∧
      QualifiedType.unitKey ⟨⟨["shop", "r#type", "r#match"]⟩, "r#Id"⟩ = "shop/type/match/Id.g.rs" ∧
      isIdentifier (ModulePath.segmentOf "type") = true := by
  have hnames : ∀ s ∈ "match.rs" :: ["shop", "type"], IsOrdinaryName s := by
    have hall : ∀ s ∈ "match.rs" :: ["shop", "type"], Text.encode s ≠ [] ∧ slash ∉ Text.encode s ∧
        Text.encode s ≠ [dot] ∧ Text.encode s ≠ [dot, dot] ∧ s.toList.take 2 ≠ ['r', '#'] := by decide
    intro s hs
    obtain ⟨hne, hslash, hhere, hup, hmark⟩ := hall s hs
    exact ⟨⟨hne, hslash, hhere, hup⟩, hmark⟩
  obtain ⟨p, stem, hstem, hmodule, hkey, hsegments, hpasses⟩ := unit_keys_mirror_sources hnames
  obtain rfl : stem = "match" := Text.encode_inj (hstem.trans (by decide))
  obtain rfl : p = ⟨["shop", "r#type", "r#match"]⟩ :=
    congrArg ModulePath.mk (hsegments.trans (by decide +kernel))
  refine ⟨hnames, (hmodule _ _).2 _ (Or.inl (by decide)), hkey "r#Id", ?_⟩
  exact (hpasses "type" (by decide)).mpr (Or.inr (by decide +kernel))

end TypedId
