import TypedId.CommandLine.Arguments
import TypedId.CommandLine.LogFilter
import TypedId.CommandLine.Report
import TypedId.Run

/-!
The program as a function: from the disk, the arguments and the surroundings it is started in, to the disk
afterwards and what it prints. The log is kept apart from the printed text.
-/
namespace TypedId

/-- What a program is started with. -/
structure Start where
  arguments : List Argument
  /-- The setting of the log, if there is one. -/
  logSetting : Option String
  /-- Colours are switched off by the surroundings. -/
  noColour : Bool
  /-- What is printed goes to a terminal. -/
  terminal : Bool

/-- What a program answers. -/
structure Answer where
  code : Nat
  output : String
  failure : Option Failure
  log : List Event

namespace Answer

/-- The answer of a run that ends before it begins. -/
def ofEarlyExit : EarlyExit → Answer
  | .help topic => ⟨0, topic.usage, none, []⟩
  | .version => ⟨0, Topic.versionText, none, []⟩
  | .misuse => ⟨2, "", none, []⟩

/-- The answer of a run whose output is known. -/
def ofOutcome (filter : LogFilter) (o : Outcome String) : Answer :=
  let log := o.log.filter filter.admits
  match o.result with
  | .ok output => ⟨0, output, none, log⟩
  | .error e => ⟨1, "", some e, log⟩

end Answer

namespace Invocation

/-- Pieces of the output are coloured. -/
def colours (i : Invocation) (s : Start) : Bool := !i.json && !i.plain && !s.noColour && s.terminal

/-- The events that are logged. A setting that cannot be read counts as none. -/
def logFilter (i : Invocation) (s : Start) : LogFilter :=
  (s.logSetting.bind LogFilter.ofText?).getD (LogFilter.ofVerbosity i.verbosity)

/-- Scans, and reports the candidates. -/
def runScan (i : Invocation) (colours : Bool) (d : Disk) : Outcome String := do
  let candidates ← d.scan i.inputs
  Outcome.tell (.scanFinished candidates.length)
  let reports ← CandidateReport.ofAll i.policy candidates
  if i.json then Outcome.ofExcept (jsonReport (reports.map CandidateReport.json?))
  else return CandidateReport.text colours reports

/-- Generates, and reports the units. -/
def runGenerate (i : Invocation) (colours : Bool) (directory : DiskPath) (dryRun : Bool) (d : Disk) :
    DiskRun String :=
  let run := d.generateAndWrite i.inputs i.policy directory dryRun
  ⟨run.disk, do
    let placed ← run.outcome
    let reports := placed.map fun p => UnitReport.mk p.1 p.2
    if i.json then Outcome.ofExcept (jsonReport (reports.map (UnitReport.json? dryRun)))
    else return UnitReport.text colours dryRun reports⟩

/-- Does what the arguments ask for. -/
def run (i : Invocation) (colours : Bool) (d : Disk) : DiskRun String :=
  match i.command with
  | .scan => ⟨d, i.runScan colours d⟩
  | .generate directory dryRun => i.runGenerate colours directory dryRun d

end Invocation

def runProgram (d : Disk) (s : Start) : Disk × Answer :=
  match Invocation.ofArguments s.arguments with
  | .error exit => (d, .ofEarlyExit exit)
  | .ok i =>
    let run := i.run (i.colours s) d
    (run.disk, .ofOutcome (i.logFilter s) run.outcome)

end TypedId
