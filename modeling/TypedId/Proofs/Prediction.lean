import TypedId.CommandLine.Run
import TypedId.Proofs.FirstOfKey
import TypedId.Proofs.WrittenUnits

/-!
A scan foretells a generation. The two commands look at a disk in their own ways: the one asks of each candidate
whether it qualifies, the other gives the keys away in a loop, renders the units and pairs them with the paths
that it has put them at. From the same inputs they report the same keys, though, and each unit lies where its
key says, below the directory that was asked for (`scan_foretells_generation`).
-/
namespace TypedId

open FileName

/-! ## The path that a key names -/

theorem Text.encode_join (pieces : List (List Char)) :
    encode (String.ofList (join '/' pieces)) = join slash (pieces.map fun piece => encode (String.ofList piece)) := by
  induction pieces with
  | nil => rfl
  | cons piece rest ih =>
    cases rest with
    | nil => rfl
    | cons next others =>
      have hslash : String.utf8EncodeChar '/' = [slash] := by decide
      rw [join_cons '/' piece (by simp), List.map_cons, join_cons slash _ (by simp), ← ih]
      simp [encode, hslash]

namespace DiskPath

/-- A path that is joined to another one comes after bytes that do not depend on it. -/
theorem exists_bytes_join (base : DiskPath) :
    ∃ before, ∀ rest : DiskPath, rest.isAbsolute = false → base.join rest = ⟨before ++ rest.bytes⟩ := by
  cases hlast : base.bytes.getLast? with
  | none =>
    refine ⟨[], fun rest hrest => ?_⟩
    rw [join, hrest, if_neg (by simp), hlast]
    rfl
  | some b =>
    by_cases hb : b = slash
    · refine ⟨base.bytes, fun rest hrest => ?_⟩
      rw [join, hrest, if_neg (by simp), hlast]
      dsimp only
      rw [if_pos hb]
    · refine ⟨base.bytes ++ [slash], fun rest hrest => ?_⟩
      rw [join, hrest, if_neg (by simp), hlast]
      dsimp only
      rw [if_neg hb, List.append_assoc, List.singleton_append]

theorem isAbsolute_append {n : FileName} (hne : n ≠ []) (hn : slash ∉ n) (more : List UInt8) :
    isAbsolute ⟨n ++ more⟩ = false := by
  obtain ⟨b, rest, rfl⟩ := List.exists_cons_of_ne_nil hne
  rw [List.mem_cons, not_or] at hn
  simpa [isAbsolute] using Ne.symm hn.1

/-- Below a name, a path comes after a slash. -/
theorem join_join (base : DiskPath) {n : FileName} (hne : n ≠ []) (hn : slash ∉ n) {rest : DiskPath}
    (hrest : rest.isAbsolute = false) : (base.join ⟨n⟩).join rest = base.join ⟨n ++ slash :: rest.bytes⟩ := by
  obtain ⟨before, hbefore⟩ := exists_bytes_join base
  have hlast : (before ++ n).getLast? = some (n.getLast hne) := by
    rw [List.getLast?_append, List.getLast?_eq_some_getLast hne, Option.some_or]
  have hslash : n.getLast hne ≠ slash := fun h => hn (h ▸ List.getLast_mem hne)
  rw [hbefore _ (isAbsolute_mk hn), hbefore _ (isAbsolute_append hne hn _), join, hrest, if_neg (by simp), hlast]
  dsimp only
  rw [if_neg hslash, List.append_assoc]

/-- Names that are joined one below another are joined at once, with slashes between them. -/
theorem descend_eq_join (base : DiskPath) {n : FileName} {rest : List FileName}
    (h : ∀ m ∈ n :: rest, m ≠ [] ∧ slash ∉ m) :
    base.descend (n :: rest) = base.join ⟨Text.join slash (n :: rest)⟩ := by
  induction rest generalizing base n with
  | nil => rfl
  | cons next others ih =>
    have hrest := fun m hm => h m (List.mem_cons_of_mem n hm)
    obtain ⟨hne, hn⟩ := h n List.mem_cons_self
    have hrelative : isAbsolute ⟨Text.join slash (next :: others)⟩ = false := by
      rw [Bool.eq_false_iff, ne_eq, isAbsolute_iff, pieces_mk_join (by simp) fun m hm => (hrest m hm).2]
      rintro ⟨q, more, heq⟩
      exact (hrest next List.mem_cons_self).1 (List.cons.inj heq).1
    show (base.join ⟨n⟩).descend (next :: others) = _
    rw [ih _ hrest, join_join base hne hn hrelative, ← Text.join_cons slash n (by simp)]

end DiskPath

namespace GeneratedUnit

theorem join_names (key : String) : Text.join slash (names key) = Text.encode key := by
  rw [names, ← Text.encode_join, Text.join_split, String.ofList_toList]

/-- The place of a unit is its key, joined to the directory. -/
theorem IsPlace.pathIn_eq_join {key : String} {directories : List FileName} {own : FileName}
    (h : IsPlace key directories own) (base : DiskPath) : pathIn key base = base.join (DiskPath.ofString key) := by
  obtain ⟨n, rest, hnames⟩ := List.exists_cons_of_ne_nil (show names key ≠ [] by simp [h.names_eq])
  have hproper : ∀ m ∈ n :: rest, m ≠ [] ∧ slash ∉ m := by
    intro m hm
    have := h.isProper m (hnames ▸ hm)
    exact ⟨this.ne_nil, this.no_slash⟩
  rw [pathIn_eq_descend, hnames, DiskPath.descend_eq_join base hproper, ← hnames, join_names]
  rfl

end GeneratedUnit

/-! ## The places of units -/

namespace Disk

open GeneratedUnit

/-- The paths that a run answers are those that it plans, whether it writes or not. -/
theorem placeUnits_eq_ok {d : Disk} {directory : DiskPath} {dryRun : Bool} {units : List GeneratedUnit}
    {paths : List DiskPath} (h : (d.placeUnits directory dryRun units).outcome.result = .ok paths) :
    paths = planUnits directory units := by
  unfold placeUnits at h
  split at h
  · cases h
    rfl
  · induction units generalizing d paths with
    | nil =>
      cases h
      rfl
    | cons u rest ih =>
      obtain ⟨d₁, more, _, hmore, rfl, _⟩ := writeUnits_cons_eq_ok h
      rw [ih hmore]
      rfl

end Disk

/-! ## Reports -/

namespace Text.Json

/-- The text that an object has under a name. -/
def text? (name : String) : Json → Option String
  | object members =>
    match members.lookup name with
    | some (string s) => some s
    | _ => none
  | _ => none

end Text.Json

namespace CandidateReport

/-- The report on a candidate: the key is that of the type that gets a unit for it. -/
def told (policy : MarkerPolicy) (c : Candidate) : CandidateReport :=
  ⟨c, (c.qualified? policy).map QualifiedType.unitKey⟩

theorem result_ofAll (policy : MarkerPolicy) (candidates : List Candidate) :
    (ofAll policy candidates).result = .ok (candidates.map (told policy)) := by
  induction candidates with
  | nil => rfl
  | cons c rest ih =>
    have hfirst : (of policy c).result = .ok (told policy c) := by
      rw [of, Outcome.result_bind_of_ok (c.result_qualify_eq policy)]
      rfl
    rw [ofAll, Outcome.result_bind_of_ok hfirst, Outcome.result_bind_of_ok ih]
    rfl

theorem filterMap_key (policy : MarkerPolicy) (candidates : List Candidate) :
    (candidates.map (told policy)).filterMap key = (qualifiedTypes policy candidates).map QualifiedType.unitKey := by
  rw [List.filterMap_map, qualifiedTypes, List.map_filterMap]
  rfl

theorem text?_of_json? {r : CandidateReport} {v : Text.Json} (h : r.json? = .ok v) : v.text? "unit" = r.key := by
  unfold json? at h
  cases hsource : r.candidate.source.json? with
  | error e => simp [hsource, bind, Except.bind] at h
  | ok source =>
    rw [hsource] at h
    cases h
    cases hkey : r.key <;> rfl

end CandidateReport

namespace UnitReport

theorem text?_of_json? {dryRun : Bool} {r : UnitReport} {v : Text.Json} (h : r.json? dryRun = .ok v) :
    v.text? "key" = some r.unit.key ∧ v.text? "path" = Text.decode? r.path.bytes := by
  unfold json? DiskPath.json? at h
  cases hpath : Text.decode? r.path.bytes with
  | none => simp [hpath, bind, Except.bind] at h
  | some path =>
    rw [hpath] at h
    cases h
    exact ⟨rfl, rfl⟩

end UnitReport

/-! ## What is printed -/

/-- Reports are printed as one array of their values, or as a text for a reader. -/
inductive Printed {α : Type} (value? : α → Except Failure Text.Json) (text : List α → String) :
    Bool → List α → String → Prop where
  | values {reports : List α} {values : List Text.Json} :
    List.Forall₂ (fun r v => value? r = .ok v) reports values →
      Printed value? text true reports (linesOut [(Text.Json.array values).pretty 0])
  | text (reports : List α) : Printed value? text false reports (text reports)

theorem Printed.of_result {α : Type} {value? : α → Except Failure Text.Json} {text : List α → String} {json : Bool}
    {reports : List α} {output : String}
    (h : (if json then Outcome.ofExcept (jsonReport (reports.map value?))
      else return text reports : Outcome String).result = .ok output) :
    Printed value? text json reports output := by
  cases json with
  | false =>
    cases h
    exact .text reports
  | true =>
    have hreport : jsonReport (reports.map value?) = .ok output := h
    rw [jsonReport] at hreport
    cases hvalues : (reports.map value?).mapM id with
    | error e =>
      rw [hvalues] at hreport
      cases hreport
    | ok values =>
      rw [hvalues] at hreport
      cases hreport
      rw [mapM_eq_ok_iff_forall₂, List.forall₂_map_left_iff] at hvalues
      exact .values hvalues

theorem Answer.result_of_code_eq_zero {filter : LogFilter} {o : Outcome String} (h : (ofOutcome filter o).code = 0) :
    o.result = .ok (ofOutcome filter o).output := by
  unfold ofOutcome at h ⊢
  dsimp only at h ⊢
  split at h
  · next hresult => rw [hresult]
  · cases h

namespace Invocation

/-- A scan prints the reports on its candidates. -/
theorem runScan_eq_ok {i : Invocation} {colours : Bool} {d : Disk} {output : String}
    (h : (i.runScan colours d).result = .ok output) :
    ∃ candidates reports, (d.scan i.inputs).result = .ok candidates ∧
      (CandidateReport.ofAll i.policy candidates).result = .ok reports ∧
      Printed CandidateReport.json? (CandidateReport.text colours) i.json reports output := by
  obtain ⟨candidates, hcandidates, h⟩ := Outcome.result_bind_eq_ok.mp h
  rw [Outcome.result_bind_of_ok (Outcome.result_tell _)] at h
  obtain ⟨reports, hreports, h⟩ := Outcome.result_bind_eq_ok.mp h
  exact ⟨candidates, reports, hcandidates, hreports, .of_result h⟩

/-- A generation prints the units that it answers, each with its place. -/
theorem runGenerate_eq_ok {i : Invocation} {colours dryRun : Bool} {directory : DiskPath} {d : Disk} {output : String}
    (h : (i.runGenerate colours directory dryRun d).outcome.result = .ok output) :
    ∃ placed, (d.generateAndWrite i.inputs i.policy directory dryRun).outcome.result = .ok placed ∧
      Printed (UnitReport.json? dryRun) (UnitReport.text colours dryRun) i.json
        (placed.map fun p => ⟨p.1, p.2⟩) output := by
  obtain ⟨placed, hplaced, h⟩ := Outcome.result_bind_eq_ok.mp h
  exact ⟨placed, hplaced, .of_result h⟩

end Invocation

/-! ## Two commands, one answer -/

/-- The reports of a scan foretell those of a generation. The keys of the units are those of the candidates, each
once and in the order in which they come first, and each unit lies where its key leads from the directory. -/
structure Foretells (directory : DiskPath) (reports : List CandidateReport) (placed : List UnitReport) : Prop where
  keys : placed.map (fun r => r.unit.key) = (reports.filterMap CandidateReport.key).eraseDups
  path : ∀ r ∈ placed, r.path = directory.join (DiskPath.ofString r.unit.key)

/-- What is foretold can be read off the printed values. -/
theorem Foretells.values {directory : DiskPath} {reports : List CandidateReport} {placed : List UnitReport}
    (h : Foretells directory reports placed) {dryRun : Bool} {told answered : List Text.Json}
    (htold : List.Forall₂ (fun r v => CandidateReport.json? r = .ok v) reports told)
    (hanswered : List.Forall₂ (fun r v => UnitReport.json? dryRun r = .ok v) placed answered) :
    answered.map (Text.Json.text? "key") = (told.filterMap (Text.Json.text? "unit")).eraseDups.map some ∧
      answered.map (Text.Json.text? "path") = (told.filterMap (Text.Json.text? "unit")).eraseDups.map fun key =>
        Text.decode? (directory.join (DiskPath.ofString key)).bytes := by
  have hunits : reports.filterMap CandidateReport.key = told.filterMap (Text.Json.text? "unit") :=
    filterMap_eq_of_forall₂ htold fun _ _ hr => (CandidateReport.text?_of_json? hr).symm
  rw [← hunits, ← h.keys, List.map_map, List.map_map]
  constructor
  · exact (map_eq_of_forall₂ hanswered fun _ _ hr => (UnitReport.text?_of_json? hr).1.symm).symm
  · rw [← map_eq_of_forall₂ hanswered fun _ _ hr => (UnitReport.text?_of_json? hr).2.symm]
    refine List.map_congr_left fun r hr => ?_
    rw [h.path r hr]
    rfl

/-- The scan of a disk foretells the generation on it. -/
theorem Disk.foretells {d : Disk} (htree : d.IsTree) {inputs : Inputs} {policy : MarkerPolicy} {directory : DiskPath}
    {dryRun : Bool} {candidates : List Candidate} (hscan : (d.scan inputs).result = .ok candidates)
    {placed : List (GeneratedUnit × DiskPath)}
    (h : (d.generateAndWrite inputs policy directory dryRun).outcome.result = .ok placed) :
    Foretells directory (candidates.map (CandidateReport.told policy)) (placed.map fun p => ⟨p.1, p.2⟩) := by
  obtain ⟨units, paths, hunits, hpaths, rfl⟩ := generateAndWrite_eq_ok.mp h
  obtain ⟨found, hfound, hunits⟩ := Outcome.result_bind_eq_ok.mp hunits
  -- Both commands look at the same candidates.
  cases hscan.symm.trans hfound
  obtain rfl := placeUnits_eq_ok hpaths
  rw [zip_planUnits, List.map_map]
  constructor
  · rw [CandidateReport.filterMap_key, List.map_map]
    exact map_key_of_generate_eq hunits
  · intro r hr
    obtain ⟨u, hu, rfl⟩ := List.mem_map.mp hr
    obtain ⟨_, _, hplace⟩ := isPlace_of_mem_generate htree hscan hunits u hu
    exact hplace.pathIn_eq_join directory

/-- **A scan foretells a generation.** Where both commands end without a failure on the same inputs and under the same
policy, the scan prints reports on its candidates and the generation prints its units with their places, in a dry
run or not. The keys of the units are those that the scan has given its candidates, without repetitions and in
the order in which they come first, and the path of a unit is the output directory with the key of the unit
joined to it. As JSON this can be read off the members of what is printed. -/
theorem scan_foretells_generation {d : Disk} (htree : d.IsTree) {s t : Start} {i j : Invocation}
    {directory : DiskPath} {dryRun : Bool} (hi : Invocation.ofArguments s.arguments = .ok i) (hscan : i.command = .scan)
    (hj : Invocation.ofArguments t.arguments = .ok j) (hgenerate : j.command = .generate directory dryRun)
    (hinputs : j.inputs = i.inputs) (hpolicy : j.policy = i.policy) (hs : (runProgram d s).2.code = 0)
    (ht : (runProgram d t).2.code = 0) :
    ∃ candidates reports placed, (d.scan i.inputs).result = .ok candidates ∧
      (CandidateReport.ofAll i.policy candidates).result = .ok reports ∧
      (d.generateAndWrite j.inputs j.policy directory dryRun).outcome.result = .ok placed ∧
      Printed CandidateReport.json? (CandidateReport.text (i.colours s)) i.json reports (runProgram d s).2.output ∧
      Printed (UnitReport.json? dryRun) (UnitReport.text (j.colours t) dryRun) j.json
        (placed.map fun p => ⟨p.1, p.2⟩) (runProgram d t).2.output ∧
      Foretells directory reports (placed.map fun p => ⟨p.1, p.2⟩) ∧
      ∀ told answered, List.Forall₂ (fun r v => CandidateReport.json? r = .ok v) reports told →
        List.Forall₂ (fun r v => UnitReport.json? dryRun r = .ok v) (placed.map fun p => ⟨p.1, p.2⟩) answered →
        answered.map (Text.Json.text? "key") = (told.filterMap (Text.Json.text? "unit")).eraseDups.map some ∧
        answered.map (Text.Json.text? "path") = (told.filterMap (Text.Json.text? "unit")).eraseDups.map fun key =>
          Text.decode? (directory.join (DiskPath.ofString key)).bytes := by
  simp only [runProgram, hi, hj, Invocation.run, hscan, hgenerate] at hs ht ⊢
  obtain ⟨candidates, reports, hcandidates, hreports, hprinted⟩ :=
    Invocation.runScan_eq_ok (Answer.result_of_code_eq_zero hs)
  obtain ⟨placed, hplaced, hprinted'⟩ := Invocation.runGenerate_eq_ok (Answer.result_of_code_eq_zero ht)
  have hforetells : Foretells directory reports (placed.map fun p => ⟨p.1, p.2⟩) := by
    rw [CandidateReport.result_ofAll] at hreports
    cases hreports
    rw [hinputs, hpolicy] at hplaced
    exact Disk.foretells htree hcandidates hplaced
  exact ⟨candidates, reports, placed, hcandidates, hreports, hplaced, hprinted, hprinted', hforetells,
    fun _ _ => hforetells.values⟩

/-- A disk with one source file, in which the second declaration has the key of the first one. -/
def repeatedKey : Disk where
  entries :=
    let w := Text.encode "w"
    let src := Text.encode "src"
    [([w], .directory), ([w, src], .directory), ([w, src, Text.encode "a.rs"], .file (Text.encode
      "#[identifier] struct Id(i64); #[identifier] struct r#Id(i64);"))]
  workplace := [Text.encode "w"]

/-- The program is started with these arguments. -/
def Start.ofArguments (arguments : List String) : Start := ⟨arguments.map Text.encode, none, true, false⟩

/-- An invocation with the directory of the sources as its input. -/
def invocationOf (json : Bool) (command : Command) : Invocation :=
  ⟨json, false, 0, ⟨[DiskPath.ofString "src"], none⟩, .permissive, command⟩

theorem scan_foretells_generation_repeatedKey :
    ∃ (reports : List CandidateReport) (placed : List (GeneratedUnit × DiskPath)),
      Printed CandidateReport.json? (CandidateReport.text false) true reports
        (runProgram repeatedKey (.ofArguments ["--json", "scan", "src"])).2.output ∧
      Printed (UnitReport.json? false) (UnitReport.text false false) false (placed.map fun p => ⟨p.1, p.2⟩)
        (runProgram repeatedKey (.ofArguments ["generate", "src", "-o", "out"])).2.output ∧
      reports.filterMap CandidateReport.key = ["a/Id.g.rs", "a/Id.g.rs"] ∧
      placed.map (fun p => (p.1.key, p.2)) = [("a/Id.g.rs", DiskPath.ofString "out/a/Id.g.rs")] := by
  have htree : repeatedKey.IsTree := Disk.isTree_of_entries (by decide) (by decide)
  have hscan : (runProgram repeatedKey (.ofArguments ["--json", "scan", "src"])).2.code = 0 ∧
      (repeatedKey.scan (invocationOf true .scan).inputs).result.toOption.map (fun candidates =>
        (qualifiedTypes .permissive candidates).map QualifiedType.unitKey) = some ["a/Id.g.rs", "a/Id.g.rs"] := by
    decide +kernel
  obtain ⟨candidates, reports, placed, hcandidates, hreports, -, hprinted, hprinted', hforetells, -⟩ :=
    scan_foretells_generation htree (s := .ofArguments ["--json", "scan", "src"])
      (t := .ofArguments ["generate", "src", "-o", "out"]) (i := invocationOf true .scan)
      (j := invocationOf false (.generate (DiskPath.ofString "out") false)) (by rfl) rfl (by rfl) rfl rfl rfl
      hscan.1 (by decide +kernel)
  have hkeys : reports.filterMap CandidateReport.key = ["a/Id.g.rs", "a/Id.g.rs"] := by
    rw [CandidateReport.result_ofAll] at hreports
    cases hreports
    rw [hcandidates] at hscan
    rw [CandidateReport.filterMap_key]
    exact Option.some.inj hscan.2
  refine ⟨reports, placed, hprinted, hprinted', hkeys, ?_⟩
  have hunits : placed.map (fun p => p.1.key) = ["a/Id.g.rs"] := by
    have hforetold := hforetells.keys
    rw [hkeys, List.map_map] at hforetold
    exact hforetold
  obtain ⟨p, rfl, hkey⟩ := List.map_eq_singleton_iff.mp hunits
  have hpath : p.2 = (DiskPath.ofString "out").join (DiskPath.ofString p.1.key) :=
    hforetells.path ⟨p.1, p.2⟩ (List.mem_singleton_self _)
  rw [List.map_singleton, hpath, hkey]
  rfl

end TypedId
