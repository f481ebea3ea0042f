import Mathlib.Data.List.Sort
import TypedId.Proofs.Discovery
import TypedId.Proofs.FileModules

/-!
What a scan makes of a source file whose bytes are replaced. Where everything stands is told by the outline of a disk,
which has no bytes of files; so paths lead where they led before, and as long as no rules about ignored files
are read from the file the same files are discovered. The scan then answers with what the other files held and
with what the new bytes hold, which is nothing if they do not follow the grammar. It fails, though, if
they are no text at all (`replaced_source_iff`): one stray byte is enough, as `stray_byte_aborts` shows.
-/
namespace TypedId

open FileName

/-! ## Outlines -/

/-- What stands at a place, without the bytes of a file. -/
def Entry.emptied : Entry → Entry
  | .file _ => .file []
  | .directory => .directory
  | .link target => .link target

namespace Disk

/-- The same things stand at the same places on both disks, but for the bytes of files. -/
structure SameOutline (d d' : Disk) : Prop where
  workplace : d'.workplace = d.workplace
  entries : ∀ l, (d'.entry? l).map Entry.emptied = (d.entry? l).map Entry.emptied

namespace SameOutline

variable {d d' : Disk} (h : SameOutline d d')
include h

/-- At every place the two disks have nothing, the same directory or link, or a file each. -/
theorem cases (l : Location) :
    (d.entry? l = d'.entry? l) ∨ ∃ old new, d.entry? l = some (.file old) ∧ d'.entry? l = some (.file new) := by
  have hl := h.entries l
  cases hd : d.entry? l with
  | none =>
    rw [hd, Option.map_none, Option.map_eq_none_iff] at hl
    exact Or.inl hl.symm
  | some e =>
    rw [hd, Option.map_some, Option.map_eq_some_iff] at hl
    obtain ⟨e', hd', hemptied⟩ := hl
    cases e <;> cases e' <;> cases hemptied
    · exact Or.inr ⟨_, _, rfl, hd'⟩
    · exact Or.inl hd'.symm
    · exact Or.inl hd'.symm

theorem isDirectoryAt_eq (l : Location) : d'.isDirectoryAt l = d.isDirectoryAt l := by
  unfold isDirectoryAt
  rcases h.cases l with heq | ⟨old, new, hd, hd'⟩
  · rw [heq]
  · rw [hd, hd']
    rfl

theorem walkSteps_eq {follow : Location → DiskPath → List FileName → Except DiskError Location} (followLast : Bool)
    (here : Location) (todo : List FileName) :
    d'.walkSteps followLast follow here todo = d.walkSteps followLast follow here todo := by
  induction todo generalizing here with
  | nil => rfl
  | cons piece rest ih =>
    rw [walkSteps, walkSteps, h.isDirectoryAt_eq, ih here, ih here.dropLast, ih (here ++ [piece])]
    rcases h.cases (here ++ [piece]) with heq | ⟨old, new, hd, hd'⟩
    · rw [heq]
    · rw [hd, hd']

theorem walk_eq (followLast : Bool) (links : Nat) (here : Location) (todo : List FileName) :
    d'.walk followLast links here todo = d.walk followLast links here todo := by
  induction links generalizing here todo with
  | zero => exact h.walkSteps_eq followLast here todo
  | succ links ih =>
    rw [walk, walk, h.walkSteps_eq]
    simp only [ih]

/-- Paths lead to the same places. -/
theorem resolve_eq (followLast : Bool) (p : DiskPath) : d'.resolve followLast p = d.resolve followLast p := by
  unfold resolve
  rw [h.workplace]
  simp only [h.walk_eq]

theorem moduleOf?_eq (root file : DiskPath) : d'.moduleOf? root file = d.moduleOf? root file := by
  unfold moduleOf? relative? canonical
  simp only [h.resolve_eq]

/-- A path is followed to the same, or to a file each at one place. -/
theorem find_cases (p : DiskPath) :
    d.find p = d'.find p ∨ ∃ l old new, d.find p = .ok (l, .file old) ∧ d'.find p = .ok (l, .file new) := by
  unfold find
  rw [h.resolve_eq]
  cases d.resolve true p with
  | error e => exact Or.inl rfl
  | ok l =>
    simp only [bind, Except.bind]
    rcases h.cases l with heq | ⟨old, new, hd, hd'⟩
    · rw [heq]
      exact Or.inl rfl
    · rw [hd, hd']
      exact Or.inr ⟨l, old, new, rfl, rfl⟩

theorem isPresent_eq (p : DiskPath) : d'.isPresent p = d.isPresent p := by
  unfold isPresent
  rcases h.find_cases p with heq | ⟨l, old, new, hd, hd'⟩
  · rw [heq]
  · rw [hd, hd']

theorem isDirectory_eq (p : DiskPath) : d'.isDirectory p = d.isDirectory p := by
  unfold isDirectory
  rcases h.find_cases p with heq | ⟨l, old, new, hd, hd'⟩
  · rw [heq]
  · rw [hd, hd']

/-- What is listed below a place has the same names, if things of a kind that is told by the outline are picked. -/
theorem map_filter_below_eq (hsound : d.IsSound) (hsound' : d'.IsSound) (l : Location) {q : Location × Entry → Bool}
    (hq : ∀ names e, q (names, e) = q (names, e.emptied)) :
    ((d'.below l).filter q).map Prod.fst = ((d.below l).filter q).map Prod.fst := by
  have hmem : ∀ {x x' : Disk}, SameOutline x x' → x.IsSound → x'.IsSound → ∀ names,
      names ∈ ((x.below l).filter q).map Prod.fst → names ∈ ((x'.below l).filter q).map Prod.fst := by
    intro x x' hsame hx hx' names hnames
    obtain ⟨⟨names', e⟩, he, hfst⟩ := List.mem_map.mp hnames
    obtain rfl : names' = names := hfst
    obtain ⟨hbelow, hpicked⟩ := List.mem_filter.mp he
    obtain ⟨hne, hentry⟩ := hx.mem_below.mp hbelow
    have houtline := hsame.entries (l ++ names')
    rw [hentry, Option.map_some, Option.map_eq_some_iff] at houtline
    obtain ⟨e', hentry', hemptied⟩ := houtline
    refine List.mem_map.mpr ⟨(names', e'), List.mem_filter.mpr ⟨hx'.mem_below.mpr ⟨hne, hentry'⟩, ?_⟩, rfl⟩
    rw [hq, hemptied, ← hq]
    exact hpicked
  have hordered : ∀ {x : Disk}, x.IsSound → (((x.below l).filter q).map Prod.fst).Pairwise (· < ·) := fun hx =>
    List.pairwise_map.mpr ((hx.pairwise_below l).filter q)
  refine List.Pairwise.eq_of_mem_iff (hordered hsound') (hordered hsound) fun names => ⟨?_, hmem h hsound hsound' names⟩
  exact hmem ⟨h.workplace.symm, fun l => (h.entries l).symm⟩ hsound' hsound names

end SameOutline

/-- The source files among what a walk has come by, told by the names below the walked directory. -/
theorem map_filter_walked (p : DiskPath) (reached : Location × Entry → Bool) (xs : List (Location × Entry)) :
    ((xs.filterMap fun e => if reached e = true then some (p.joinNames e.1, e.2) else none).filter isSource).map
        Prod.fst =
      ((xs.filter fun e => reached e && isSource (p.joinNames e.1, e.2)).map Prod.fst).map p.joinNames := by
  induction xs with
  | nil => rfl
  | cons x rest ih =>
    cases hreached : reached x with
    | false => simpa [hreached] using ih
    | true =>
      cases hsource : isSource (p.joinNames x.1, x.2) with
      | false => simpa [hreached, hsource] using ih
      | true => simpa [hreached, hsource] using ih

/-! ## One file with other bytes -/

/-- The path leads to this place. -/
def endsAt (d : Disk) (l : Location) (p : DiskPath) : Bool := (d.resolve true p).toOption == some l

theorem endsAt_iff {d : Disk} {l : Location} {p : DiskPath} : d.endsAt l p = true ↔ d.resolve true p = .ok l := by
  unfold endsAt
  cases d.resolve true p <;> simp [Except.toOption]

/-- On the second disk the file at this place holds these bytes, and nothing else is different. -/
structure Rewritten (d d' : Disk) (l : Location) (content : List UInt8) : Prop where
  workplace : d'.workplace = d.workplace
  before : ∃ old, d.entry? l = some (.file old)
  after : d'.entry? l = some (.file content)
  others : ∀ l', l' ≠ l → d'.entry? l' = d.entry? l'

namespace Rewritten

variable {d d' : Disk} {l : Location} {content : List UInt8} (h : Rewritten d d' l content)
include h

theorem sameOutline : SameOutline d d' where
  workplace := h.workplace
  entries l' := by
    by_cases hl : l' = l
    · obtain ⟨old, hold⟩ := h.before
      rw [hl, h.after, hold]
      rfl
    · rw [h.others l' hl]

/-- A path that does not lead to the file is followed to what it led to before. -/
theorem find_eq {p : DiskPath} (hp : d.endsAt l p = false) : d'.find p = d.find p := by
  unfold find
  rw [h.sameOutline.resolve_eq]
  cases hresolve : d.resolve true p with
  | error e => rfl
  | ok l' =>
    have hne : l' ≠ l := by
      rintro rfl
      rw [endsAt_iff.mpr hresolve] at hp
      cases hp
    simp only [bind, Except.bind, h.others l' hne]

theorem read_eq {p : DiskPath} (hp : d.endsAt l p = false) : d'.read p = d.read p := by
  unfold read
  rw [h.find_eq hp]

theorem readText_eq {p : DiskPath} (hp : d.endsAt l p = false) : d'.readText p = d.readText p := by
  unfold readText
  rw [h.read_eq hp]

/-- A path that leads to the file gives its new text, if it has one. -/
theorem readText_of_endsAt {p : DiskPath} (hp : d.endsAt l p = true) :
    d'.readText p = match Text.decode? content with
      | some text => .ok text
      | none => .error .notText := by
  have hfind : d'.find p = .ok (l, .file content) := by
    rw [find_eq_ok, h.sameOutline.resolve_eq]
    exact ⟨endsAt_iff.mp hp, h.after⟩
  unfold readText read
  rw [hfind]
  rfl

end Rewritten

section Set

variable {d : Disk} {l : Location} {old : List UInt8} (hl : d.entry? l = some (.file old)) (content : List UInt8)
include hl

/-- Other bytes can be put into any file. -/
theorem rewritten_set : Rewritten d (d.set l (.file content)) l content := by
  have hne : l ≠ [] := by
    rintro rfl
    cases hl
  refine ⟨rfl, ⟨old, hl⟩, ?_, fun l' hl' => ?_⟩
  · rw [entry?_set d hne, if_pos rfl]
  · rw [entry?_set d hne, if_neg hl']

theorem isSound_set_file (hsound : d.IsSound) : (d.set l (.file content)).IsSound := by
  rcases List.eq_nil_or_concat' l with rfl | ⟨directory, n, rfl⟩
  · cases hl
  · exact hsound.set (hsound.legal directory n (by simp [hl])) _

end Set

end Disk

/-! ## Rules -/

namespace DirectoryRules

/-- The repository that the line of a pointer names after its mark. -/
def pointedTo (line : String) : DiskPath := DiskPath.ofString (String.ofList (line.toList.drop "gitdir: ".length))

theorem firstLine?_congr {d d' : Disk} {file : DiskPath} (h : d'.read file = d.read file) :
    firstLine? d' file = firstLine? d file := by
  unfold firstLine?
  rw [h]

theorem sharedRepository?_congr {d d' : Disk} {pointer : DiskPath} (hpointer : d'.read pointer = d.read pointer)
    (hshared : ∀ line, firstLine? d pointer = some line →
      d'.read (child (pointedTo line) "commondir") = d.read (child (pointedTo line) "commondir")) :
    sharedRepository? d' pointer = sharedRepository? d pointer := by
  unfold sharedRepository?
  rw [firstLine?_congr hpointer]
  cases hline : firstLine? d pointer with
  | none => simp only [Option.bind_eq_bind, Option.bind_none]
  | some line =>
    have hcommon := firstLine?_congr (hshared line hline)
    rw [pointedTo] at hcommon
    simp only [Option.bind_eq_bind, Option.bind_some, Option.bind_none, hcommon]

/-- The files that are read for the rules of a directory: its two files of rules, the file that points to its
repository, the file by which that one points on, and the excludes of the repository. -/
inductive Reads (d : Disk) (directory : DiskPath) : DiskPath → Prop where
  | own : Reads d directory (child directory ".ignore")
  | versioned : Reads d directory (child directory ".gitignore")
  | pointer : Reads d directory (child directory ".git")
  | shared {line : String} : firstLine? d (child directory ".git") = some line →
    Reads d directory (child (pointedTo line) "commondir")
  | excluded {repository : DiskPath} : repository? d directory = some repository →
    Reads d directory (child (child repository "info") "exclude")

end DirectoryRules

/-- Rules of some directory are read from the file at this place. -/
def Disk.IsRuleFile (d : Disk) (l : Location) : Prop :=
  ∃ directory file, DirectoryRules.Reads d directory file ∧ d.endsAt l file = true

theorem DirectoryRules.firstLine?_of_not_found {d : Disk} {file : DiskPath} (h : ∀ x, d.find file ≠ .ok x) :
    firstLine? d file = none := by
  unfold firstLine? Disk.read
  cases hfind : d.find file with
  | ok x => exact absurd hfind (h x)
  | error e => rfl

/-- Where no rules stand, none are read from any file. -/
theorem Disk.HasNoRules.not_isRuleFile {d : Disk} (hlinks : d.Linkless) (h : d.HasNoRules) {l : Location} {e : Entry}
    (hl : d.entry? l = some e) : ¬d.IsRuleFile l := by
  rintro ⟨directory, file, hfile, hends⟩
  have hfound : d.find file = .ok (l, e) := Disk.find_eq_ok.mpr ⟨Disk.endsAt_iff.mp hends, hl⟩
  have hnone := DirectoryRules.not_found_of_hasNoRules hlinks h directory
  cases hfile with
  | own => exact hnone ".ignore" (by decide) _ hfound
  | versioned => exact hnone ".gitignore" (by decide) _ hfound
  | pointer => exact hnone ".git" (by decide) _ hfound
  | shared hline =>
    rw [DirectoryRules.firstLine?_of_not_found (hnone ".git" (by decide))] at hline
    cases hline
  | excluded hrepository =>
    rw [DirectoryRules.repository?_of_not_found (hnone ".git" (by decide))] at hrepository
    cases hrepository

namespace Disk.Rewritten

open DirectoryRules

theorem endsAt_of_reads {d : Disk} {l : Location} (hrules : ¬d.IsRuleFile l) {directory file : DiskPath}
    (hfile : Reads d directory file) : d.endsAt l file = false := by
  rw [← Bool.not_eq_true]
  exact fun hends => hrules ⟨directory, file, hfile, hends⟩

variable {d d' : Disk} {l : Location} {content : List UInt8} (h : Rewritten d d' l content) (hrules : ¬d.IsRuleFile l)
include h hrules

theorem repository?_eq (directory : DiskPath) : repository? d' directory = repository? d directory := by
  unfold repository?
  rw [h.find_eq (endsAt_of_reads hrules .pointer),
    sharedRepository?_congr (h.read_eq (endsAt_of_reads hrules .pointer))
      fun _ hline => h.read_eq (endsAt_of_reads hrules (.shared hline))]

theorem readFile_eq {directory file : DiskPath} (hfile : Reads d directory file) :
    readFile d' file = readFile d file := by
  unfold readFile
  rw [h.read_eq (endsAt_of_reads hrules hfile)]

/-- Every directory has the rules that it had before. -/
theorem rules_eq (directory : DiskPath) : DirectoryRules.read d' directory = DirectoryRules.read d directory := by
  unfold DirectoryRules.read
  rw [h.readFile_eq hrules .own, h.readFile_eq hrules .versioned, h.repository?_eq hrules, h.sameOutline.isPresent_eq]
  cases hrepository : repository? d directory with
  | none => rfl
  | some repository =>
    dsimp only
    rw [h.readFile_eq hrules (.excluded hrepository)]

theorem reaches_eq (w : WalkRoot) (isDirectory : Bool) (names : Location) :
    w.reaches d' isDirectory [] [] names = w.reaches d isDirectory [] [] names :=
  reaches_congr (fun _ _ _ => h.rules_eq hrules _) isDirectory []

variable (hsound : d.IsSound) (hsound' : d'.IsSound)
include hsound hsound'

/-- The walk of a directory fails alike, or comes by the same source files. -/
theorem sources_walkDirectory_eq (p : DiskPath) :
    (d'.walkDirectory p).map (fun found => (found.filter isSource).map Prod.fst) =
      (d.walkDirectory p).map (fun found => (found.filter isSource).map Prod.fst) := by
  unfold walkDirectory
  rw [h.sameOutline.resolve_eq]
  cases d.resolve true p with
  | error e => rfl
  | ok place =>
    simp only [h.rules_eq hrules, h.reaches_eq hrules]
    split
    · rfl
    · rw [Except.map, Except.map, map_filter_walked, map_filter_walked,
        h.sameOutline.map_filter_below_eq hsound hsound' place fun names e => ?_]
      have hkind : (e == .directory) = (e.emptied == .directory) := by cases e <;> rfl
      have hsource : isSource (p.joinNames names, e) = isSource (p.joinNames names, e.emptied) := by cases e <;> rfl
      rw [hkind, hsource]

/-- The same files are found below an input. -/
theorem filesOf_eq (root : Option DiskPath) (p : DiskPath) : d'.filesOf root p = d.filesOf root p := by
  have hpaths : ∀ walked : Except Failure (List (DiskPath × Entry)),
      (walked.map fun found => (found.filter isSource).map fun e => FoundFile.mk e.1 (root.getD p)) =
        (walked.map fun found => (found.filter isSource).map Prod.fst).map
          (List.map fun path => FoundFile.mk path (root.getD p)) := by
    intro walked
    cases walked with
    | error e => rfl
    | ok found =>
      simp only [Except.map, List.map_map]
      rfl
  unfold filesOf
  rw [h.sameOutline.isPresent_eq, h.sameOutline.isDirectory_eq, hpaths, hpaths,
    h.sources_walkDirectory_eq hrules hsound hsound' p]

theorem filesOfAll_eq (inputs : Inputs) : d'.filesOfAll inputs = d.filesOfAll inputs := by
  unfold filesOfAll
  rw [show d'.filesOf inputs.root = d.filesOf inputs.root from
    funext fun p => h.filesOf_eq hrules hsound hsound' inputs.root p]

end Disk.Rewritten

/-! ## What is read -/

/-- The source as it is read after the file at this place has been given this text. -/
def SourceText.rewritten (d : Disk) (l : Location) (text : String) (s : SourceText) : SourceText :=
  if d.endsAt l s.path = true then { s with text } else s

theorem exists_of_mapM_eq_error {α β ε : Type} {f : α → Except ε β} {xs : List α} {e : ε} (h : xs.mapM f = .error e) :
    ∃ x ∈ xs, f x = .error e := by
  induction xs with
  | nil => cases h
  | cons x rest ih =>
    rw [List.mapM_cons] at h
    cases hx : f x with
    | error e' =>
      rw [hx] at h
      cases h
      exact ⟨x, List.mem_cons_self, hx⟩
    | ok y =>
      cases hrest : rest.mapM f with
      | ok more =>
        rw [hx, hrest] at h
        cases h
      | error e' =>
        rw [hx, hrest] at h
        cases h
        obtain ⟨z, hz, hfz⟩ := ih hrest
        exact ⟨z, List.mem_cons_of_mem x hz, hfz⟩

namespace Disk

theorem scan_eq_ok {d : Disk} {inputs : Inputs} {candidates : List Candidate} :
    (d.scan inputs).result = .ok candidates ↔
      ∃ sources, (d.discover inputs).result = .ok sources ∧ candidates = sources.flatMap SourceText.candidates := by
  unfold scan
  rw [Outcome.result_bind_eq_ok]
  simp only [result_scanAll, Except.ok.injEq, eq_comm]

theorem scan_of_error {d : Disk} {inputs : Inputs} {e : Failure} (h : (d.discover inputs).result = .error e) :
    (d.scan inputs).result = .error e := by
  unfold scan
  rw [Outcome.result_bind_of_error h]

namespace Rewritten

variable {d d' : Disk} {l : Location} {content : List UInt8} (h : Rewritten d d' l content)
include h

section File

variable {f : FoundFile} {s : SourceText} (hs : (d.readSource f).result = .ok s)
include hs

theorem readSource_kept (hf : d.endsAt l f.path = false) : (d'.readSource f).result = .ok s := by
  obtain ⟨m, text, hm, htext, rfl⟩ := readSource_eq_ok.mp hs
  refine readSource_eq_ok.mpr ⟨m, text, ?_, ?_, rfl⟩
  · rw [h.sameOutline.moduleOf?_eq, hm]
  · rw [h.readText_eq hf, htext]

theorem readSource_rewritten {text : String} (htext : Text.decode? content = some text) :
    (d'.readSource f).result = .ok (s.rewritten d l text) := by
  obtain ⟨m, old, hm, _, rfl⟩ := readSource_eq_ok.mp hs
  unfold SourceText.rewritten
  split
  · next hf =>
    refine readSource_eq_ok.mpr ⟨m, text, ?_, ?_, rfl⟩
    · rw [h.sameOutline.moduleOf?_eq, hm]
    · rw [h.readText_of_endsAt hf, htext]
  · next hf => exact h.readSource_kept hs (Bool.eq_false_iff.mpr hf)

theorem readSource_fails (hf : d.endsAt l f.path = true) (hnone : Text.decode? content = none) :
    (d'.readSource f).result = .error (.unreadable f.path .notText) := by
  obtain ⟨m, old, hm, _, rfl⟩ := readSource_eq_ok.mp hs
  unfold readSource
  rw [h.sameOutline.moduleOf?_eq, hm]
  dsimp only
  rw [Outcome.result_bind_of_ok (Outcome.result_tell _), h.readText_of_endsAt hf, hnone]
  rfl

end File

variable (hrules : ¬d.IsRuleFile l) (hsound : d.IsSound) (hsound' : d'.IsSound) {inputs : Inputs}
  {sources : List SourceText} (hsources : (d.discover inputs).result = .ok sources)
include hrules hsound hsound' hsources

/-- If the new bytes are a text, the same sources are discovered, with this text where their paths lead to the file. -/
theorem discover_rewritten {text : String} (htext : Text.decode? content = some text) :
    (d'.discover inputs).result = .ok (sources.map (SourceText.rewritten d l text)) := by
  obtain ⟨files, hfiles, hread⟩ := discover_eq_ok.mp hsources
  refine discover_eq_ok.mpr ⟨files, by rw [h.filesOfAll_eq hrules hsound hsound', hfiles], ?_⟩
  rw [List.forall₂_map_right_iff]
  exact hread.imp fun f s hs => h.readSource_rewritten hs htext

/-- If they are none, the discovery ends at a path that leads to the file. -/
theorem discover_fails (hnone : Text.decode? content = none) (hfound : ∃ s ∈ sources, d.endsAt l s.path = true) :
    ∃ s ∈ sources, d.endsAt l s.path = true ∧
      (d'.discover inputs).result = .error (.unreadable s.path .notText) := by
  obtain ⟨files, hfiles, hread⟩ := discover_eq_ok.mp hsources
  have hdiscover : (d'.discover inputs).result = files.mapM fun f => (d'.readSource f).result := by
    unfold discover
    rw [h.filesOfAll_eq hrules hsound hsound', hfiles]
    exact result_readSources d' files
  have hpath : ∀ {f s}, (d.readSource f).result = .ok s → s.path = f.path := by
    intro f s hs
    obtain ⟨_, _, _, _, rfl⟩ := readSource_eq_ok.mp hs
    rfl
  rw [hdiscover]
  cases hanswer : files.mapM fun f => (d'.readSource f).result with
  | ok sources' =>
    -- The file that was found would have been read.
    obtain ⟨s, hs, hends⟩ := hfound
    obtain ⟨f, hf, hfs⟩ := exists_of_forall₂ hread s hs
    obtain ⟨s', hs'⟩ := mapM_eq_ok_iff.mp ⟨sources', hanswer⟩ f hf
    rw [hpath hfs] at hends
    rw [h.readSource_fails hfs hends hnone] at hs'
    cases hs'
  | error e =>
    obtain ⟨f, hf, hfe⟩ := exists_of_mapM_eq_error hanswer
    obtain ⟨s, hs, hfs⟩ := exists_of_forall₂ hread.flip f hf
    cases hends : d.endsAt l f.path with
    | false =>
      rw [h.readSource_kept hfs hends] at hfe
      cases hfe
    | true =>
      rw [h.readSource_fails hfs hends hnone] at hfe
      cases hfe
      exact ⟨s, hs, by rw [hpath hfs, hends], by rw [hpath hfs]⟩

end Rewritten

end Disk

/-! ## What is found -/

theorem SourceText.source_of_mem_candidates {s : SourceText} {c : Candidate} (h : c ∈ s.candidates) :
    c.source = s.path := by
  obtain ⟨site, rfl⟩ := s.mem_candidates h
  rfl

/-- Of a rewritten source the candidates that were not found in the file are those that they were. -/
theorem SourceText.filter_candidates_rewritten (d : Disk) (l : Location) (text : String) (s : SourceText) :
    (s.rewritten d l text).candidates.filter (fun c => !d.endsAt l c.source) =
      s.candidates.filter fun c => !d.endsAt l c.source := by
  cases hends : d.endsAt l s.path with
  | false => rw [rewritten, hends, if_neg Bool.false_ne_true]
  | true =>
    have hnone : ∀ t : SourceText, t.path = s.path → t.candidates.filter (fun c => !d.endsAt l c.source) = [] := by
      intro t ht
      rw [List.filter_eq_nil_iff]
      intro c hc
      rw [source_of_mem_candidates hc, ht, hends]
      simp
    rw [rewritten, hends, if_pos rfl, hnone s rfl]
    exact hnone _ rfl

theorem SourceText.candidates_eq_nil {s : SourceText} (h : SourceTree.ofText? s.text = none) : s.candidates = [] := by
  unfold candidates scanSource
  rw [h]
  rfl

/-- In a text that does not follow the grammar nothing is found. -/
theorem SourceText.endsAt_of_mem_rewritten {d : Disk} {l : Location} {text : String}
    (htext : SourceTree.ofText? text = none) {s : SourceText} {c : Candidate}
    (hc : c ∈ (s.rewritten d l text).candidates) : d.endsAt l c.source = false := by
  cases hends : d.endsAt l s.path with
  | false =>
    rw [rewritten, hends, if_neg Bool.false_ne_true] at hc
    rw [source_of_mem_candidates hc, hends]
  | true =>
    have hnil : ({ s with text } : SourceText).candidates = [] := candidates_eq_nil htext
    rw [rewritten, hends, if_pos rfl, hnil] at hc
    cases hc

/-! ## A scan after the replacement -/

/-- After a discovered file from which no rules are read has been given other bytes, the scan answers exactly if the
bytes are a text, and fails at a path to the file otherwise. It then answers with what the other files held, and for
the paths to the file with what the new text holds: nothing if it does not follow the grammar. -/
theorem replaced_source_iff {d d' : Disk} (hsound : d.IsSound) (hsound' : d'.IsSound) {l : Location}
    {content : List UInt8} (h : Disk.Rewritten d d' l content) (hrules : ¬d.IsRuleFile l) {inputs : Inputs}
    {sources : List SourceText} (hsources : (d.discover inputs).result = .ok sources)
    (hfound : ∃ s ∈ sources, d.endsAt l s.path = true) {candidates : List Candidate}
    (hscan : (d.scan inputs).result = .ok candidates) :
    ((∃ candidates', (d'.scan inputs).result = .ok candidates') ↔ ∃ text, Text.decode? content = some text) ∧
      (Text.decode? content = none → ∃ s ∈ sources, d.endsAt l s.path = true ∧
        (d'.scan inputs).result = .error (.unreadable s.path .notText)) ∧
      ∀ candidates' text, (d'.scan inputs).result = .ok candidates' → Text.decode? content = some text →
        candidates = sources.flatMap SourceText.candidates ∧
        candidates' = (sources.map (SourceText.rewritten d l text)).flatMap SourceText.candidates ∧
        candidates'.filter (fun c => !d.endsAt l c.source) = candidates.filter (fun c => !d.endsAt l c.source) ∧
        (SourceTree.ofText? text = none → ∀ c ∈ candidates', d.endsAt l c.source = false) := by
  have hfails : Text.decode? content = none → ∃ s ∈ sources, d.endsAt l s.path = true ∧
      (d'.scan inputs).result = .error (.unreadable s.path .notText) := by
    intro hnone
    obtain ⟨s, hs, hends, herror⟩ := h.discover_fails hrules hsound hsound' hsources hnone hfound
    exact ⟨s, hs, hends, Disk.scan_of_error herror⟩
  have hanswers : ∀ {text}, Text.decode? content = some text →
      (d'.scan inputs).result = .ok ((sources.map (SourceText.rewritten d l text)).flatMap SourceText.candidates) :=
    fun htext => Disk.scan_eq_ok.mpr ⟨_, h.discover_rewritten hrules hsound hsound' hsources htext, rfl⟩
  refine ⟨⟨fun ⟨candidates', hscan'⟩ => ?_, fun ⟨text, htext⟩ => ⟨_, hanswers htext⟩⟩, hfails, ?_⟩
  · cases htext : Text.decode? content with
    | some text => exact ⟨text, rfl⟩
    | none =>
      obtain ⟨s, _, _, herror⟩ := hfails htext
      rw [hscan'] at herror
      cases herror
  · intro candidates' text hscan' htext
    obtain ⟨sources₁, hsources₁, hcandidates⟩ := Disk.scan_eq_ok.mp hscan
    rw [hsources] at hsources₁
    cases hsources₁
    rw [hanswers htext] at hscan'
    cases hscan'
    refine ⟨hcandidates, rfl, ?_, fun hmalformed c hc => ?_⟩
    · rw [hcandidates, List.filter_flatMap, List.filter_flatMap, List.flatMap_map]
      simp only [SourceText.filter_candidates_rewritten]
    · obtain ⟨s', hs', hc⟩ := List.mem_flatMap.mp hc
      obtain ⟨s, _, rfl⟩ := List.mem_map.mp hs'
      exact SourceText.endsAt_of_mem_rewritten hmalformed hc

/-- A disk with two source files. -/
def twoSources : Disk where
  entries :=
    let w := Text.encode "w"
    let src := Text.encode "src"
    [([w], .directory), ([w, src], .directory),
      ([w, src, Text.encode "a.rs"], .file (Text.encode "#[identifier] struct A(i64);")),
      ([w, src, Text.encode "b.rs"], .file (Text.encode "#[identifier] struct B(i64);"))]
  workplace := [Text.encode "w"]

/-- Where the second one is. -/
def secondPlace : Location := ["w", "src", "b.rs"].map Text.encode

/-- Both lie below the one input. -/
def aboveBoth : Inputs := ⟨[DiskPath.ofString "src"], none⟩

/-- The sources that are discovered there. -/
def bothTexts : List SourceText :=
  [⟨DiskPath.ofString "src/a.rs", ⟨["a"]⟩, "#[identifier] struct A(i64);"⟩,
    ⟨DiskPath.ofString "src/b.rs", ⟨["b"]⟩, "#[identifier] struct B(i64);"⟩]

theorem entry?_secondPlace :
    twoSources.entry? secondPlace = some (.file (Text.encode "#[identifier] struct B(i64);")) := rfl

theorem isSound_twoSources : twoSources.IsSound := Disk.IsSound.of_entries (by decide) (by decide)

/-- No rules about ignored files stand there. -/
theorem not_isRuleFile_twoSources : ¬twoSources.IsRuleFile secondPlace := by
  have hlinks : twoSources.Linkless := Disk.linkless_of_entries (by simp [twoSources])
  exact (Disk.HasNoRules.of_entries (by decide)).not_isRuleFile hlinks entry?_secondPlace

/-- The disk once these bytes have been put into the second file. -/
def secondRewritten (content : List UInt8) : Disk := twoSources.set secondPlace (.file content)

theorem rewritten_twoSources (content : List UInt8) :
    twoSources.Rewritten (secondRewritten content) secondPlace content :=
  Disk.rewritten_set entry?_secondPlace content

theorem isSound_secondRewritten (content : List UInt8) : (secondRewritten content).IsSound :=
  Disk.isSound_set_file entry?_secondPlace content isSound_twoSources

theorem discover_twoSources : (twoSources.discover aboveBoth).result = .ok bothTexts := by
  have hfiles : twoSources.filesOfAll aboveBoth =
      .ok (["src/a.rs", "src/b.rs"].map fun file => ⟨DiskPath.ofString file, DiskPath.ofString "src"⟩) :=
    Except.eq_ok_of_toOption (by cbv)
  refine Disk.discover_eq_ok.mpr ⟨_, hfiles, .cons ?_ (.cons ?_ .nil)⟩
  · exact Except.eq_ok_of_toOption (by decide +kernel)
  · exact Except.eq_ok_of_toOption (by decide +kernel)

theorem second_discovered : ∃ s ∈ bothTexts, twoSources.endsAt secondPlace s.path = true := by decide +kernel

theorem scan_twoSources : (twoSources.scan aboveBoth).result = .ok (bothTexts.flatMap SourceText.candidates) :=
  Disk.scan_eq_ok.mpr ⟨bothTexts, discover_twoSources, rfl⟩

theorem replaced_source_iff_twoSources :
    twoSources.IsSound ∧ ¬twoSources.IsRuleFile secondPlace ∧
      (twoSources.discover aboveBoth).result = .ok bothTexts ∧
      (∃ s ∈ bothTexts, twoSources.endsAt secondPlace s.path = true) ∧
      (∃ candidates, (twoSources.scan aboveBoth).result = .ok candidates ∧
        candidates.map Candidate.name = ["A", "B"]) ∧
      ∃ candidates, ((secondRewritten (Text.encode "fn")).scan aboveBoth).result = .ok candidates ∧
        candidates.map Candidate.name = ["A"] := by
  have htext : Text.decode? (Text.encode "fn") = some "fn" := Text.decode?_encode "fn"
  obtain ⟨hok, _, hdiffers⟩ := replaced_source_iff isSound_twoSources (isSound_secondRewritten _)
    (rewritten_twoSources _) not_isRuleFile_twoSources discover_twoSources second_discovered scan_twoSources
  obtain ⟨candidates, hscan⟩ := hok.mpr ⟨_, htext⟩
  obtain ⟨_, _, hothers, hnone⟩ := hdiffers candidates "fn" hscan htext
  -- Nothing is found in the file any more, so what is left is what the other one held.
  have hkept : candidates.filter (fun c => !twoSources.endsAt secondPlace c.source) = candidates :=
    List.filter_eq_self.mpr fun c hc => by rw [hnone (by decide +kernel) c hc]; rfl
  refine ⟨isSound_twoSources, not_isRuleFile_twoSources, discover_twoSources, second_discovered,
    ⟨_, scan_twoSources, by decide +kernel⟩, candidates, hscan, ?_⟩
  rw [← hkept, hothers]
  decide +kernel

/-- A byte that is no text makes the scan fail, whatever the other files hold. -/
theorem stray_byte_aborts :
    (∃ candidates, (twoSources.scan aboveBoth).result = .ok candidates ∧
      candidates.map Candidate.name = ["A", "B"]) ∧
      (∃ s ∈ bothTexts, twoSources.endsAt secondPlace s.path = true) ∧
      twoSources.Rewritten (secondRewritten [0xFF]) secondPlace [0xFF] ∧
      ((secondRewritten [0xFF]).scan aboveBoth).result =
        .error (.unreadable (DiskPath.ofString "src/b.rs") .notText) := by
  obtain ⟨s, hs, hends, herror⟩ := (rewritten_twoSources [0xFF]).discover_fails not_isRuleFile_twoSources
    isSound_twoSources (isSound_secondRewritten [0xFF]) discover_twoSources (by decide +kernel) second_discovered
  have hsecond : ∀ s ∈ bothTexts, twoSources.endsAt secondPlace s.path = true →
      s.path = DiskPath.ofString "src/b.rs" := by decide +kernel
  refine ⟨⟨_, scan_twoSources, by decide +kernel⟩, second_discovered, rewritten_twoSources [0xFF], ?_⟩
  rw [← hsecond s hs hends, Disk.scan_of_error herror]

end TypedId
