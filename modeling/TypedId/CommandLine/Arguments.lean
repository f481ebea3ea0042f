import TypedId.CommandLine.Usage
import TypedId.Marker
import TypedId.Sources.Discover

/-!
The arguments of the program. Options come before and after the command; those for the output may come in both
places. The arguments are read from left to right, and the first one that asks for help, asks for the
version or is misused ends the reading.
-/
namespace TypedId

abbrev Argument := List UInt8

/-- What the program is told to do with its inputs. -/
inductive Command where
  | scan
  | generate (directory : DiskPath) (dryRun : Bool)
  deriving DecidableEq, Repr

/-- What the arguments ask for. -/
structure Invocation where
  json : Bool
  plain : Bool
  verbosity : Nat
  inputs : Inputs
  policy : MarkerPolicy
  command : Command
  deriving DecidableEq, Repr

/-- Why the arguments ask for no run. -/
inductive EarlyExit where
  | help (topic : Topic)
  | version
  | misuse
  deriving DecidableEq, Repr

/-! ## Options -/

inductive Opt where
  | json | plain | verbose | help | version | strictMarker | dryRun | root | directory
  deriving DecidableEq, Repr

namespace Opt

def takesPath (o : Opt) : Bool := o == root || o == directory

/-- The option may come again. -/
def repeats (o : Opt) : Bool := o == verbose

/-- The options that stand before and after the command. -/
def everywhere : List (String × Opt) :=
  [("json", json), ("plain", plain), ("verbose", verbose), ("help", help)]

/-- The options that both commands take. -/
def ofCommands : List (String × Opt) := everywhere ++ [("root", root), ("strict-marker", strictMarker)]

/-- The options with their names. -/
def named : Topic → List (String × Opt)
  | .program | .help => everywhere ++ [("version", version)]
  | .scan => ofCommands
  | .generate => ofCommands ++ [("dry-run", dryRun), ("out-dir", directory)]

/-- The options with their letters. -/
def lettered : Topic → List (Char × Opt)
  | .program | .help => [('v', verbose), ('h', help), ('V', version)]
  | .scan => [('v', verbose), ('h', help)]
  | .generate => [('v', verbose), ('h', help), ('o', directory)]

/-- The option with this name. -/
def ofName? (topic : Topic) (name : List UInt8) : Option Opt :=
  ((named topic).find? fun o => Text.encode o.1 == name).map Prod.snd

/-- The option with this letter. -/
def ofLetter? (topic : Topic) (letter : UInt8) : Option Opt :=
  ((lettered topic).find? fun o => String.utf8EncodeChar o.1 == [letter]).map Prod.snd

end Opt

/-- What was given on one side of the command. -/
structure Given where
  options : List Opt := []
  root : Option DiskPath := none
  directory : Option DiskPath := none
  paths : List DiskPath := []
  deriving DecidableEq, Repr

namespace Given

def has (g : Given) (o : Opt) : Bool := g.options.contains o

/-- An option without a path is given. -/
def flag (topic : Topic) (g : Given) (o : Opt) : Except EarlyExit Given :=
  match o with
  | .help => .error (.help topic)
  | .version => .error .version
  | o => if g.has o && !o.repeats then .error .misuse else .ok { g with options := o :: g.options }

/-- An option is given with its path, which cannot be empty. -/
def option (g : Given) (o : Opt) (path : List UInt8) : Except EarlyExit Given :=
  if path.isEmpty || g.has o then .error .misuse
  else
    let g := { g with options := o :: g.options }
    match o with
    | .root => .ok { g with root := some ⟨path⟩ }
    | .directory => .ok { g with directory := some ⟨path⟩ }
    | _ => .error .misuse

/-- A path is given. -/
def path (g : Given) (p : Argument) : Except EarlyExit Given :=
  if p.isEmpty then .error .misuse else .ok { g with paths := g.paths ++ [⟨p⟩] }

/-- How often the output was asked to say more; nothing if it was not. -/
def verbosity? (g : Given) : Option Nat := if g.has .verbose then some (g.options.count .verbose) else none

end Given

namespace Argument

def hyphen : UInt8 := 45

def equals : UInt8 := 61

/-- The argument that ends the options. -/
def endOfOptions : Argument := [hyphen, hyphen]

/-- The argument is one or more options, or ends them. -/
def isOption : Argument → Bool
  | 45 :: _ :: _ => true
  | _ => false

/-- Reads an option after its two hyphens. The answer has the option whose path is still to come. -/
def readName (topic : Topic) (g : Given) (cs : List UInt8) : Except EarlyExit (Given × Option Opt) :=
  match Opt.ofName? topic (cs.takeWhile (· != equals)), cs.dropWhile (· != equals) with
  | none, _ => .error .misuse
  | some o, [] => if o.takesPath then .ok (g, some o) else (g.flag topic o).map fun g => (g, none)
  | some o, _ :: path => if o.takesPath then (g.option o path).map fun g => (g, none) else .error .misuse

/-- Reads the letters of options after a hyphen; what comes after a letter that takes a path is the path. -/
def readLetters (topic : Topic) (g : Given) : List UInt8 → Except EarlyExit (Given × Option Opt)
  | [] => .ok (g, none)
  | letter :: rest =>
    match Opt.ofLetter? topic letter with
    | none => .error .misuse
    | some o =>
      if o.takesPath then
        match rest with
        | [] => .ok (g, some o)
        | b :: path =>
          (g.option o (if b = equals then path else b :: path)).map fun g => (g, none)
      else
        match g.flag topic o with
        | .error e => .error e
        | .ok g => readLetters topic g rest

/-- Reads an argument that is an option. -/
def readOption (topic : Topic) (g : Given) : Argument → Except EarlyExit (Given × Option Opt)
  | 45 :: 45 :: cs => readName topic g cs
  | _ :: cs => readLetters topic g cs
  | [] => .error .misuse

/-- Reads the arguments after the command. -/
def readCommand (topic : Topic) (g : Given) : List Argument → Except EarlyExit Given
  | [] => .ok g
  | a :: rest =>
    if a == endOfOptions then rest.foldlM Given.path g
    else if isOption a then
      match readOption topic g a with
      | .error e => .error e
      | .ok (g, none) => readCommand topic g rest
      | .ok (g, some o) =>
        match rest with
        | [] => .error .misuse
        | path :: rest =>
          if isOption path then .error .misuse
          else match g.option o path with
            | .error e => .error e
            | .ok g => readCommand topic g rest
    else match g.path a with
      | .error e => .error e
      | .ok g => readCommand topic g rest

/-- The topic that the arguments of the help command name. -/
def helpTopic : List Argument → EarlyExit
  | [] => .help .program
  | [name] =>
    match Topic.commands.find? fun c => Text.encode c.1 == name with
    | some (_, topic) => .help topic
    | none => .misuse
  | _ => .misuse

/-- Reads the arguments before the command: what was given there, the command, and what comes after. -/
def readProgram (g : Given) : List Argument → Except EarlyExit (Given × Topic × List Argument)
  | [] => .error .misuse
  | a :: rest =>
    if isOption a then
      if a == endOfOptions then .error .misuse
      else match readOption .program g a with
        | .error e => .error e
        | .ok (g, _) => readProgram g rest
    else match Topic.commands.find? fun c => Text.encode c.1 == a with
      | some (_, topic) => .ok (g, topic, rest)
      | none => .error .misuse

end Argument

namespace Invocation

/-- The directory that units are put in where no other one is given. -/
def defaultDirectory : DiskPath := DiskPath.ofString "generated"

/-- The invocation that was given on the two sides of the command. What comes after the command wins. -/
def ofGiven (before after : Given) (command : Command) : Invocation where
  json := before.has .json || after.has .json
  plain := before.has .plain || after.has .plain
  verbosity := (after.verbosity? <|> before.verbosity?).getD 0
  inputs := ⟨after.paths, after.root⟩
  policy := if after.has .strictMarker then .strict else .permissive
  command

/-- What the arguments ask for. -/
def ofArguments (arguments : List Argument) : Except EarlyExit Invocation :=
  match Argument.readProgram {} arguments with
  | .error e => .error e
  | .ok (_, .help, rest) => .error (Argument.helpTopic rest)
  | .ok (_, .program, _) => .error .misuse
  | .ok (before, .scan, rest) =>
    match Argument.readCommand .scan {} rest with
    | .error e => .error e
    | .ok after => if after.paths.isEmpty then .error .misuse else .ok (ofGiven before after .scan)
  | .ok (before, .generate, rest) =>
    match Argument.readCommand .generate {} rest with
    | .error e => .error e
    | .ok after =>
      if after.paths.isEmpty then .error .misuse
      else .ok <| ofGiven before after
        (.generate (after.directory.getD defaultDirectory) (after.has .dryRun))

end Invocation

end TypedId
