import TypedId.Proofs.FileModules
import TypedId.Proofs.Respelling

/-!
A module in a file and a module in a file of its own are one module. The path of the first is built from names as they
are written in the text, the path of the second from names of files, where no raw mark is written. Both are the
same if the name of the module has a mark exactly if it needs one, and is not one of the names that files of a
module itself have (`moduleOf?_file_eq_iff`); what is scanned under the one path is then scanned under the
other (`inline_module_as_file`).
-/
namespace TypedId

open FileName

/-! ## Names of files -/

theorem FileName.stem_source {name : String} (h : TypedId.IsPlain name) :
    stem (Text.encode (name ++ ".rs")) = Text.encode name := by
  have hending : Text.encode ".rs" = [dot, 114, 115] := by decide
  have hup : Text.encode name ++ [dot, 114, 115] ≠ [dot, dot] := fun heq =>
    absurd (congrArg List.length heq) (by simp)
  rw [stem, Text.encode_append, hending, splitAtDot?_append (isPlain_encode h).ne_nil (by decide) hup]

theorem FileName.isProper_source {name : String} (h : TypedId.IsPlain name) :
    IsProper (Text.encode (name ++ ".rs")) := by
  rw [Text.encode_append]
  exact isProper_append (by decide) (isPlain_encode h).no_slash (by decide)

namespace ModulePath

/-- A file that holds the module of its directory adds no name. -/
theorem ofNames_mod (directories : List FileName) :
    ofNames directories (Text.encode "mod.rs") = ⟨directories.map fun n => segmentOf (Text.decodeLossy n)⟩ := by
  have hstem : directoryStems.contains (Text.decodeLossy (stem (Text.encode "mod.rs"))) = true := by decide +kernel
  rw [ofNames, hstem, if_pos rfl, List.append_nil]

/-- The file of a module adds the name of the module, unless it is one of those that hold the module of their
directory. -/
theorem ofNames_source (directories : List FileName) {name : String} (h : TypedId.IsPlain name) :
    ofNames directories (Text.encode (name ++ ".rs")) =
      ⟨directories.map (fun n => segmentOf (Text.decodeLossy n)) ++
        if directoryStems.contains name then [] else [segmentOf name]⟩ := by
  rw [ofNames, stem_source h, Text.decodeLossy_encode]

end ModulePath

/-! ## Names of modules -/

namespace Ident

/-- The name of the file of a module is spelled as the module is if the module's name has a raw mark exactly if it
needs one. -/
theorem segmentOf_text_eq_iff (m : Ident) :
    ModulePath.segmentOf m.text = m.spelling ↔ m.raw = false ∨ isIdentifier m.text = false := by
  have hspelling := isIdentifier_spelling m
  cases hraw : m.raw with
  | false =>
    have htext : m.spelling = m.text := by rw [spelling, hraw]; rfl
    rw [htext] at hspelling ⊢
    simp [ModulePath.segmentOf, hspelling]
  | true =>
    have hmarked : m.spelling = "r#" ++ m.text := by rw [spelling, hraw]; rfl
    have hmay : ModulePath.neverRaw.contains m.text = false := by
      have hnot : ∀ s ∈ ModulePath.neverRaw, isIdentText true s = false := by decide
      have hvalid := m.valid
      rw [← Bool.not_eq_true, List.contains_iff_mem]
      intro hmem
      rw [hraw, hnot _ hmem] at hvalid
      cases hvalid
    have hne : m.text ≠ "r#" ++ m.text := by
      intro heq
      have hlength := congrArg (fun s => s.toList.length) heq
      simp only [String.toList_append, List.length_append] at hlength
      exact absurd hlength (Nat.ne_of_lt (Nat.lt_add_of_pos_left (by decide)))
    rw [hmarked] at hspelling ⊢
    rw [ModulePath.segmentOf, hmay, hspelling]
    cases isIdentifier m.text with
    | false => simp
    | true => simpa using hne

/-- The module may lie in a file that is called by its name: a plain name is none of the names that stand for the
module of a directory, and a raw one is that of a reserved word. -/
def NamesFile (m : Ident) : Prop :=
  m.raw = false ∧ m.text ≠ "lib" ∧ m.text ≠ "main" ∨
    m.raw = true ∧ isIdentifier m.text = false ∧ m.text ≠ "mod"

theorem namesFile_iff {m : Ident} :
    m.NamesFile ↔ m.text ∉ ModulePath.directoryStems ∧ (m.raw = false ∨ isIdentifier m.text = false) := by
  have hwords : isIdentifier "lib" = true ∧ isIdentifier "main" = true ∧ isIdentText false "mod" = false := by
    decide +kernel
  have hplain : m.raw = false → m.text ≠ "mod" := by
    intro hraw heq
    have hvalid := m.valid
    rw [hraw, heq, hwords.2.2] at hvalid
    cases hvalid
  have hreserved : isIdentifier m.text = false → m.text ≠ "lib" ∧ m.text ≠ "main" := by
    intro hnot
    constructor
    · intro heq
      rw [heq, hwords.1] at hnot
      cases hnot
    · intro heq
      rw [heq, hwords.2.1] at hnot
      cases hnot
  rw [NamesFile, ModulePath.directoryStems, List.mem_cons, List.mem_cons, List.mem_singleton, not_or, not_or]
  cases hraw : m.raw with
  | false =>
    have := hplain hraw
    simp [this]
  | true =>
    constructor
    · rintro (⟨hfalse, _⟩ | ⟨_, hnot, hmod⟩)
      · cases hfalse
      · exact ⟨⟨(hreserved hnot).1, (hreserved hnot).2, hmod⟩, Or.inr hnot⟩
    · rintro ⟨⟨_, _, hmod⟩, hfalse | hnot⟩
      · cases hfalse
      · exact Or.inr ⟨rfl, hnot, hmod⟩

end Ident

/-! ## The module of the file -/

namespace Disk

variable {D : List FileName}

theorem moduleOf?_below (d : Disk) (root : DiskPath) (hD : ∀ n ∈ D, n.IsProper) {file : FileName}
    (hfile : file.IsProper) :
    d.moduleOf? root (root.joinNames (D ++ [file])) = some (ModulePath.ofNames D file) := by
  have hproper : ∀ n ∈ D ++ [file], n.IsProper := by
    intro n hn
    rcases List.mem_append.mp hn with hn | hn
    · exact hD n hn
    · exact List.mem_singleton.mp hn ▸ hfile
  have hnames : (D.map Component.name).filterMap Component.name? = D := by
    rw [List.filterMap_map]
    exact List.filterMap_some
  rw [moduleOf?_joinNames d root hproper, List.map_append, List.map_singleton, ModulePath.ofComponents?_concat, hnames]

/-- The module of the directories, read off the file that holds it. -/
theorem moduleOf?_mod (d : Disk) (root : DiskPath) (hD : ∀ n ∈ D, n.IsProper) :
    d.moduleOf? root (root.joinNames (D ++ [Text.encode "mod.rs"])) =
      some ⟨D.map fun n => ModulePath.segmentOf (Text.decodeLossy n)⟩ := by
  have hfile : FileName.IsProper (Text.encode "mod.rs") := ⟨by decide, by decide, by decide, by decide⟩
  rw [moduleOf?_below d root hD hfile, ModulePath.ofNames_mod]

/-- A file that is called by the name of a module has the path that the module would have in a text, exactly for the
names that may call a file. -/
theorem moduleOf?_file_eq_iff (d : Disk) (root : DiskPath) (hD : ∀ n ∈ D, n.IsProper) {m : Ident} {around : ModulePath}
    (haround : d.moduleOf? root (root.joinNames (D ++ [Text.encode "mod.rs"])) = some around) :
    d.moduleOf? root (root.joinNames (D ++ [Text.encode (m.text ++ ".rs")])) = some (around.child m.spelling) ↔
      m.NamesFile := by
  rw [moduleOf?_mod d root hD] at haround
  cases haround
  rw [moduleOf?_below d root hD (FileName.isProper_source m.isPlain_text), ModulePath.ofNames_source D m.isPlain_text,
    m.namesFile_iff, ← m.segmentOf_text_eq_iff, ModulePath.child, Option.some.injEq, ModulePath.mk.injEq,
    List.append_cancel_left_eq]
  cases hstem : ModulePath.directoryStems.contains m.text with
  | true =>
    have hmem := List.contains_iff_mem.mp hstem
    simp [hmem]
  | false =>
    have hmem : m.text ∉ ModulePath.directoryStems := by simpa using hstem
    simp [hmem]

/-- So has the file that holds the module of a directory with that name. -/
theorem moduleOf?_directory (d : Disk) (root : DiskPath) (hD : ∀ n ∈ D, n.IsProper) {m : Ident} (hm : m.NamesFile)
    {around : ModulePath} (haround : d.moduleOf? root (root.joinNames (D ++ [Text.encode "mod.rs"])) = some around) :
    d.moduleOf? root (root.joinNames (D ++ [Text.encode m.text, Text.encode "mod.rs"])) =
      some (around.child m.spelling) := by
  have hown : FileName.IsProper (Text.encode m.text) := (isPlain_encode m.isPlain_text).isProper
  have hproper : ∀ n ∈ D ++ [Text.encode m.text], n.IsProper := by
    intro n hn
    rcases List.mem_append.mp hn with hn | hn
    · exact hD n hn
    · exact List.mem_singleton.mp hn ▸ hown
  rw [moduleOf?_mod d root hD] at haround
  cases haround
  have hsegment := m.segmentOf_text_eq_iff.mpr (m.namesFile_iff.mp hm).2
  rw [List.append_cons, moduleOf?_mod d root hproper, List.map_append, List.map_singleton, Text.decodeLossy_encode,
    hsegment, ModulePath.child]

end Disk

/-! ## The content of the module -/

/-- The candidate, found in another source. -/
def Candidate.foundIn (source : DiskPath) (c : Candidate) : Candidate := { c with source }

/-- What is said of a struct, said of it in another source. -/
def Finding.foundIn (source : DiskPath) : Finding → Finding
  | candidate c => candidate (c.foundIn source)
  | rejected name obstacle => rejected name obstacle

theorem findingsIn_append (scope : Scope) (p : ModulePath) (source : DiskPath) (xs ys : List Item) :
    findingsIn scope p source (xs ++ ys) = findingsIn scope p source xs ++ findingsIn scope p source ys := by
  induction xs with
  | nil => simp [findingsIn]
  | cons item rest ih => rw [List.cons_append, findingsIn, findingsIn, ih, List.append_assoc]

/-- Of the content of a module the scan says what it says of a file with this content. Nothing that stands beside
the module has a part in it, and the content has none in what is said of the rest. -/
theorem findings_module (p : ModulePath) (source : DiskPath) (before after : List Item) (name : Word)
    (items : List Item) :
    findings p source (before ++ .module name (some items) :: after) =
      findingsIn (Scope.ofItems (before ++ .module name (some items) :: after)) p source before ++
        findings (p.child name.spelling) source items ++
        findingsIn (Scope.ofItems (before ++ .module name (some items) :: after)) p source after := by
  rw [findings, findingsIn_append, findingsIn, Item.findings, findings, List.append_assoc]

theorem Site.finding_foundIn (p : ModulePath) (source source' : DiskPath) (s : Site) :
    s.finding p source = (s.finding p source').foundIn source := by
  unfold Site.finding StructDecl.finding
  split <;> rfl

/-- The source is written into the candidates and plays no other part in the scan. -/
theorem findings_foundIn (p : ModulePath) (source source' : DiskPath) (items : List Item) :
    findings p source items = (findings p source' items).map (Finding.foundIn source) := by
  rw [findings_eq, findings_eq, List.map_map]
  exact List.map_congr_left fun x _ => x.2.finding_foundIn p source source'

theorem Finding.candidate?_foundIn (source : DiskPath) (f : Finding) :
    (f.foundIn source).candidate? = f.candidate?.map (Candidate.foundIn source) := by
  cases f <;> rfl

theorem Finding.event?_foundIn (source : DiskPath) (f : Finding) : (f.foundIn source).event? = f.event? := by
  cases f <;> rfl

/-- A module alone in its file is scanned as a file with its content. -/
theorem scanItems_module (p : ModulePath) (source source' : DiskPath) (name : Word) (items : List Item) :
    ∃ found, (scanItems (p.child name.spelling) source' items).result = .ok found ∧
      (scanItems p source [.module name (some items)]).result = .ok (found.map (Candidate.foundIn source)) ∧
      (scanItems p source [.module name (some items)]).log = (scanItems (p.child name.spelling) source' items).log := by
  have hfindings : findings p source [.module name (some items)] =
      (findings (p.child name.spelling) source' items).map (Finding.foundIn source) := by
    have halone : findings p source [.module name (some items)] = findings (p.child name.spelling) source items := by
      simpa [findingsIn] using findings_module p source [] [] name items
    rw [halone, findings_foundIn _ source source']
  refine ⟨_, rfl, ?_, ?_⟩
  · rw [scanItems, hfindings, List.filterMap_map, List.map_filterMap]
    exact congrArg Except.ok (List.filterMap_congr fun f _ => f.candidate?_foundIn source)
  · rw [scanItems, hfindings]
    show ((findings _ source' items).map _).filterMap Finding.event? =
      (findings _ source' items).filterMap Finding.event?
    rw [List.filterMap_map]
    exact List.filterMap_congr fun f _ => f.event?_foundIn source

/-- No unit tells in which source its candidate was found. -/
theorem result_generate_foundIn (policy : MarkerPolicy) (source : DiskPath) (candidates : List Candidate) :
    (generate policy (candidates.map (Candidate.foundIn source))).result = (generate policy candidates).result := by
  rw [generate, generate, result_generateFrom, result_generateFrom, List.filterMap_map]
  rfl

/-- **Modules in a file and modules in files are equivalent.** Below some directories, take a module whose name may
call a file. Written into a file of the directories' module, and laid into a file of its own or into a
directory of its own, it has one path. Whatever its content is, the same candidates are found in it, but for the
file that they are found in, and the same is told of its other structs; so every policy gives it the same units. -/
theorem inline_module_as_file (d : Disk) (root : DiskPath) {D : List FileName} (hD : ∀ n ∈ D, n.IsProper) {m : Ident}
    (hm : m.NamesFile) :
    ∃ around inside : ModulePath, d.moduleOf? root (root.joinNames (D ++ [Text.encode "mod.rs"])) = some around ∧
      (∀ file ∈ [[Text.encode (m.text ++ ".rs")], [Text.encode m.text, Text.encode "mod.rs"]],
        d.moduleOf? root (root.joinNames (D ++ file)) = some inside) ∧
      ∀ (items : List Item) (source source' : DiskPath), ∃ found,
        (scanItems inside source' items).result = .ok found ∧
        (scanItems around source [.module (.ident m) (some items)]).result =
          .ok (found.map (Candidate.foundIn source)) ∧
        (scanItems around source [.module (.ident m) (some items)]).log = (scanItems inside source' items).log ∧
        (∀ policy, (generate policy (found.map (Candidate.foundIn source))).result =
          (generate policy found).result) ∧
        ∀ outer inner n n', SourceTree.ofText? outer = some ⟨n, [.module (.ident m) (some items)]⟩ →
          SourceTree.ofText? inner = some ⟨n', items⟩ →
          scanSource ⟨source, around, outer⟩ = scanItems around source [.module (.ident m) (some items)] ∧
            scanSource ⟨source', inside, inner⟩ = scanItems inside source' items := by
  obtain ⟨around, haround⟩ : ∃ around, d.moduleOf? root (root.joinNames (D ++ [Text.encode "mod.rs"])) = some around :=
    ⟨_, d.moduleOf?_mod root hD⟩
  refine ⟨around, around.child m.spelling, haround, ?_, fun items source source' => ?_⟩
  · intro file hfile
    rcases List.mem_pair.mp hfile with rfl | rfl
    · exact (d.moduleOf?_file_eq_iff root hD haround).mpr hm
    · exact d.moduleOf?_directory root hD hm haround
  · obtain ⟨found, hinside, hresult, hlog⟩ := scanItems_module around source source' (.ident m) items
    refine ⟨found, hinside, hresult, hlog, fun policy => result_generate_foundIn policy source found, ?_⟩
    intro outer inner n n' houter hinner
    exact ⟨scanSource_of_ofText? ⟨source, _, outer⟩ houter, scanSource_of_ofText? ⟨source', _, inner⟩ hinner⟩

/-- The name of a module that is a reserved word. -/
def typeModule : Ident := ⟨true, "type", by decide +kernel⟩

open Phrase in
/-- `mod r#type { use m::identifier as id; #[id] struct Order(i64); impl Shop for Order {} }` -/
def typeLine : Phrase :=
  word .kwMod ++ gap ++ name typeModule ++ gap ++ enclosed .brace (gap ++ orderLine false ++ gap)

theorem ofText?_typeLine :
    SourceTree.ofText? (String.ofList (Phrase.text typeLine ++ ['\n'])) =
      some ⟨0, [.module (.ident typeModule) (some (orderItems false))]⟩ := by
  rw [SourceTree.ofText?_line rfl rfl rfl rfl]
  rfl

theorem inline_module_as_file_type :
    typeModule.NamesFile ∧ ∃ found units,
      oneSource.moduleOf? (DiskPath.ofString "src") (DiskPath.ofString "src/shop/mod.rs") = some ⟨["shop"]⟩ ∧
      oneSource.moduleOf? (DiskPath.ofString "src") (DiskPath.ofString "src/shop/type.rs") = some ⟨["shop", "r#type"]⟩ ∧
      (scanSource ⟨DiskPath.ofString "src/shop/mod.rs", ⟨["shop"]⟩,
          "mod r#type \x7b use m::identifier as id; #[id] struct Order(i64); impl Shop for Order \x7b\x7d \x7d\n"⟩
        ).result = .ok (found.map (Candidate.foundIn (DiskPath.ofString "src/shop/mod.rs"))) ∧
      (scanSource ⟨DiskPath.ofString "src/shop/type.rs", ⟨["shop", "r#type"]⟩,
        "use m::identifier as id; #[id] struct Order(i64); impl Shop for Order \x7b\x7d\n"⟩).result = .ok found ∧
      found.map (fun c => (c.name, c.modulePath)) = [("Order", ⟨["shop", "r#type"]⟩)] ∧
      (generate .permissive (found.map (Candidate.foundIn (DiskPath.ofString "src/shop/mod.rs")))).result =
        .ok units ∧
      (generate .permissive found).result = .ok units := by
  have hm : typeModule.NamesFile := Or.inr ⟨rfl, by decide +kernel, by decide⟩
  have hinner : "use m::identifier as id; #[id] struct Order(i64); impl Shop for Order \x7b\x7d\n" =
      String.ofList (Phrase.text (orderLine false) ++ ['\n']) := by decide +kernel
  have houter :
      "mod r#type \x7b use m::identifier as id; #[id] struct Order(i64); impl Shop for Order \x7b\x7d \x7d\n" =
        String.ofList (Phrase.text typeLine ++ ['\n']) := by decide +kernel
  obtain ⟨around, inside, haround, hfiles, hscan⟩ := inline_module_as_file oneSource (DiskPath.ofString "src")
    (D := [Text.encode "shop"]) (fun n hn => List.mem_singleton.mp hn ▸ ⟨by decide, by decide, by decide, by decide⟩) hm
  have haround' : oneSource.moduleOf? (DiskPath.ofString "src") (DiskPath.ofString "src/shop/mod.rs") =
      some ⟨["shop"]⟩ := by decide +kernel
  have hinside' : oneSource.moduleOf? (DiskPath.ofString "src") (DiskPath.ofString "src/shop/type.rs") =
      some ⟨["shop", "r#type"]⟩ := by decide +kernel
  cases Option.some.inj (haround.symm.trans haround')
  cases Option.some.inj ((hfiles _ List.mem_cons_self).symm.trans hinside')
  obtain ⟨found, hfound, hresult, _, hunits, htexts⟩ :=
    hscan (orderItems false) (DiskPath.ofString "src/shop/mod.rs") (DiskPath.ofString "src/shop/type.rs")
  obtain ⟨hscanOuter, hscanInner⟩ := htexts _ _ 0 0 ofText?_typeLine (ofText?_orderLine false)
  rw [← houter] at hscanOuter
  rw [← hinner] at hscanInner
  have hsites := hfound
  rw [scanItems_result, Except.ok.injEq] at hsites
  obtain ⟨units, hgenerated⟩ := exists_units_of_sites .permissive ⟨["shop", "r#type"]⟩
    (DiskPath.ofString "src/shop/type.rs") (extensibleSites (orderItems false))
  rw [hsites] at hgenerated
  have hnames : found.map (fun c => (c.name, c.modulePath)) = [("Order", ⟨["shop", "r#type"]⟩)] := by
    rw [← hsites]
    decide +kernel
  exact ⟨hm, found, units, haround', hinside', by rw [hscanOuter, hresult], by rw [hscanInner, hfound], hnames,
    by rw [hunits, hgenerated], hgenerated⟩

end TypedId
