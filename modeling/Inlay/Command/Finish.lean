/-
This file says how a process of the tool ends: its exit code and what it prints.

Each entry of a run is one line, or one paragraph for `list`. A run that ended early prints its
message as the only line of standard error; a command line that breaks a rule has an exit code of
its own.
-/
import Inlay.Command.Run

namespace Inlay.Command

/-! ### Lines of output -/

/-- The text with spaces after it up to a width in characters. -/
def padded (width : Nat) (text : Text) : Text := text ++ List.replicate (width - text.length) ' '

/-- The line for a definition that was to be applied. -/
def applyLine (entry : Entry Report) : String :=
  let name := String.ofList entry.name
  match entry.result with
  | .ok { outcome := .applied line, target, .. } =>
    "✓ " ++ name ++ ": injected at line " ++ toString line ++ " of " ++ String.ofList target.path
  | .ok { outcome := .alreadyApplied _, .. } => "⚠️  " ++ name ++ ": already applied, skipping"
  | .error error => "✗ " ++ name ++ ": " ++ error.message

/-- The line for a definition that was to be checked. -/
def checkLine (entry : Entry Plan) : String :=
  let state :=
    match entry.result with
    | .ok plan => plan.describe
    | .error error => "error: " ++ error.message
  "  " ++ String.ofList (padded 24 entry.name) ++ " " ++ state

/-- The paragraph for a definition that is listed. -/
def listLines (listing : Listing) : List String :=
  let definition := listing.definition
  ["",
    String.ofList definition.name,
    "  Target:   " ++ String.ofList listing.target ++
      (if listing.isPresent then "" else " (missing)"),
    "  Marker:   " ++ String.ofList definition.marker,
    "  Sentinel: " ++ String.ofList definition.sentinel]

/-- The lines of output of a run. -/
def Summary.lines : Summary → List String
  | .applied entries => entries.map applyLine
  | .checked entries => entries.map checkLine
  | .listed listings => "Patches" :: "=======" :: listings.flatMap listLines

/-! ### The end of a process -/

/-- How a process ends. -/
structure Finish where
  code : Nat
  /-- The lines on standard output. -/
  output : List String
  /-- What is told on standard error. -/
  complaint : Option String
  deriving DecidableEq, Repr

/-- The text for a command line that asks for help. -/
def helpLines : List String :=
  ["Idempotent patches for vendored headers",
    "",
    "Usage: hdrpatch [OPTIONS] <COMMAND>",
    "",
    "Commands:",
    "  apply [NAME...] [--lock] [--target FILE]  Apply patches to their target files",
    "  check [NAME...] [--target FILE]           Report patch state without writing",
    "  list                                      Show configured patches",
    "",
    "Options:",
    "      --root DIR     Project root that patch targets are relative to",
    "      --config FILE  Patch definition file",
    "  -v, --verbose      Enable debug logging",
    "  -h, --help         Print help",
    "  -V, --version      Print version"]

/-- The end of a process that does not run. -/
def Settled.finish : Settled → Finish
  | .invalid =>
    { code := 2, output := [], complaint := some "error: invalid arguments, try --help" }
  | .help => { code := 0, output := helpLines, complaint := none }
  | .version => { code := 0, output := ["hdrpatch 0.1.0"], complaint := none }

/-- The end of a process that runs. -/
def finishOf : Except RunError Summary → Finish
  | .ok summary => { code := summary.code, output := summary.lines, complaint := none }
  | .error error => { code := 1, output := [], complaint := some ("Error: " ++ error.message) }

/-- A whole process: the tree afterwards, and how it ends. -/
def execute (tree : FileSystem) (directory : Location) (environment : Environment)
    (arguments : List Text) (disks : List FileSystem.Disk := []) : FileSystem × Finish :=
  match Invocation.read environment arguments with
  | .error settled => (tree, settled.finish)
  | .ok invocation =>
    let ran := run tree directory invocation disks
    (ran.1, finishOf ran.2)

/-- A command line that breaks no rule is carried out. -/
theorem execute_of_read {tree : FileSystem} {directory : Location} {environment : Environment}
    {arguments : List Text} {disks : List FileSystem.Disk} {invocation : Invocation}
    (parsed : Invocation.read environment arguments = .ok invocation) :
    execute tree directory environment arguments disks =
      ((run tree directory invocation disks).1,
        finishOf (run tree directory invocation disks).2) := by
  rw [execute, parsed]

end Inlay.Command
