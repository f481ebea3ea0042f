import TypedId.Event

/-!
Failures by their causes, and the texts by which they are reported: a sentence for a reader, and a record
that shows the cause with all its parts.
-/
namespace TypedId

/-- Why the disk refused. -/
inductive DiskError where
  | notFound
  | alreadyExists
  | notDirectory
  | isDirectory
  | nameTooLong
  | tooManyLinks
  | notEmpty
  | busy
  | invalid
  | nulInPath
  | notText
  deriving DecidableEq, Repr

namespace DiskError

/-- The number, the kind and the words of an error that the system numbers. -/
def system? : DiskError → Option (Nat × String × String)
  | notFound => some (2, "NotFound", "No such file or directory")
  | alreadyExists => some (17, "AlreadyExists", "File exists")
  | busy => some (16, "ResourceBusy", "Device or resource busy")
  | notDirectory => some (20, "NotADirectory", "Not a directory")
  | isDirectory => some (21, "IsADirectory", "Is a directory")
  | invalid => some (22, "InvalidInput", "Invalid argument")
  | nameTooLong => some (36, "InvalidFilename", "File name too long")
  | notEmpty => some (39, "DirectoryNotEmpty", "Directory not empty")
  | tooManyLinks => some (40, "FilesystemLoop", "Too many levels of symbolic links")
  | nulInPath | notText => none

/-- The kind and the words of an error that the system does not number. -/
def own : DiskError → String × String
  | nulInPath => ("InvalidInput", "file name contained an unexpected NUL byte")
  | _ => ("InvalidData", "stream did not contain valid UTF-8")

def message (e : DiskError) : String :=
  match e.system? with
  | some (code, _, words) => words ++ " (os error " ++ toString code ++ ")"
  | none => e.own.2

/-- The error as a record. -/
def record (e : DiskError) : String :=
  match e.system? with
  | some (code, kind, words) =>
    "Os \x7b code: " ++ toString code ++ ", kind: " ++ kind ++ ", message: " ++ Text.quoted words ++ " \x7d"
  | none => "Error \x7b kind: " ++ e.own.1 ++ ", message: " ++ Text.quoted e.own.2 ++ " \x7d"

end DiskError

/-- Why a run ended without an answer. -/
inductive Failure where
  | unreadable (path : DiskPath) (cause : DiskError)
  | unparsable (path : DiskPath)
  | invalidCode
  | unwritable (path : DiskPath) (cause : DiskError)
  | inputMissing (path : DiskPath)
  | outsideRoot (path root : DiskPath)
  | badIgnoreFile (path : DiskPath) (line : Nat) (glob : String) (fault : String)
  | notAnIdentifier (name : String)
  | pathNotText
  deriving DecidableEq, Repr

namespace Failure

def message : Failure → String
  | unreadable path cause => "Failed to read `" ++ path.shown ++ "`: " ++ cause.message
  | unparsable path => unparsableMessage path
  | invalidCode => "Code generation failed: Generated code is invalid"
  | unwritable path cause => "Failed to write output file '" ++ path.shown ++ "': " ++ cause.message
  | inputMissing path => "Input path does not exist: " ++ path.shown
  | outsideRoot path root =>
    "`" ++ path.shown ++ "` is not inside the source root `" ++ root.shown ++ "`"
  | badIgnoreFile path line glob fault =>
    "Failed to walk source directory: " ++ path.shown ++ ": line " ++ toString line ++
      ": error parsing glob '" ++ glob ++ "': " ++ fault
  | notAnIdentifier name => Text.quoted name ++ " is not a valid Ident"
  | pathNotText => "Failed to read `<stdout>`: path contains invalid UTF-8 characters"

/-- The failure as a record that names its cause and its parts. -/
def record : Failure → String
  | unreadable path cause => "Io \x7b path: " ++ path.quoted ++ ", source: " ++ cause.record ++ " \x7d"
  | unparsable path => "Parse \x7b path: " ++ path.quoted ++ " \x7d"
  | invalidCode => "CodeGen(\"Generated code is invalid\")"
  | unwritable path cause =>
    "WriteError \x7b path: " ++ Text.quoted path.shown ++ ", source: " ++ cause.record ++ " \x7d"
  | inputMissing path => "InputNotFound(" ++ path.quoted ++ ")"
  | outsideRoot path root =>
    "OutsideRoot \x7b path: " ++ path.quoted ++ ", root: " ++ root.quoted ++ " \x7d"
  | badIgnoreFile path line glob fault =>
    "Walk(WithPath \x7b path: " ++ path.quoted ++ ", err: WithLineNumber \x7b line: " ++ toString line ++
      ", err: Glob \x7b glob: Some(" ++ Text.quoted glob ++ "), err: " ++ Text.quoted fault ++
      " \x7d \x7d \x7d)"
  | notAnIdentifier name => Text.quoted name ++ " is not a valid Ident"
  | pathNotText =>
    "Io \x7b path: \"<stdout>\", source: Custom \x7b kind: Other, error: " ++
      "Error(\"path contains invalid UTF-8 characters\", line: 0, column: 0) \x7d \x7d"

end Failure

/-- What a run answers, with the events it told of on the way. -/
structure Outcome (α : Type) where
  result : Except Failure α
  log : List Event

namespace Outcome

/-- A run that does nothing but answer. -/
protected def pure {α : Type} (a : α) : Outcome α := ⟨.ok a, []⟩

/-- One run after another; a failure ends them. -/
protected def bind {α β : Type} (x : Outcome α) (f : α → Outcome β) : Outcome β :=
  match x.result with
  | .ok a => ⟨(f a).result, x.log ++ (f a).log⟩
  | .error e => ⟨.error e, x.log⟩

instance : Monad Outcome where
  pure := Outcome.pure
  bind := Outcome.bind

def fail {α : Type} (e : Failure) : Outcome α := ⟨.error e, []⟩

def tell (e : Event) : Outcome Unit := ⟨.ok (), [e]⟩

end Outcome

end TypedId
