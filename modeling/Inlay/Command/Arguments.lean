/-
This file reads a command line.

Options of the tool come first, then the name of a command, then the options and names of that
command in any order. Arguments are read from left to right, and the first that asks for the version
or for help, or that breaks a rule, settles the matter. No option may be given twice, no value may
be empty, and a value that is an argument of its own may not look like an option. After two hyphens
all arguments of a command are names.

The root and the definition file may also come from the environment. A variable counts only where
the option is not given, and then it must not be empty either.
-/
import Inlay.FileSystem.Walk

namespace Inlay.Command

/-- What a command is to do. Without names it concerns all definitions. -/
inductive Action
  | apply (names : List Text) (lock : Bool) (target : Option Path)
  | check (names : List Text) (target : Option Path)
  | list
  deriving DecidableEq, Repr

/-- A complete order to the tool. -/
structure Invocation where
  root : Path
  config : Option Path
  action : Action
  deriving DecidableEq, Repr

/-- What settles a command line that is not an order to run. -/
inductive Settled
  /-- It breaks a rule. -/
  | invalid
  | help
  | version
  deriving DecidableEq, Repr

/-- The variables that may stand for options. -/
structure Environment where
  root : Option Text := none
  config : Option Text := none
  deriving DecidableEq, Repr

/-! ### Single arguments -/

/-- The shape of an argument. -/
inductive Argument
  /-- Two hyphens alone. -/
  | escape
  | long (name : String) (value : Option Text)
  | short (letters : Text)
  | plain (text : Text)
  deriving DecidableEq, Repr

/-- The shape that an argument has. One hyphen alone is plain. -/
def Argument.ofText : Text → Argument
  | ['-', '-'] => .escape
  | '-' :: '-' :: rest =>
    let name := rest.takeWhile (· ≠ '=')
    .long (String.ofList name) (rest.drop name.length).tail?
  | '-' :: letter :: rest => .short (letter :: rest)
  | text => .plain text

/-- Takes the value of an option that may be given once. -/
def setOnce (given : Option Path) (value : Text) : Except Settled (Option Path) :=
  if given.isSome ∨ value = [] then .error .invalid else .ok (some value)

/-- Takes a flag that may be given once. -/
def raiseOnce (given : Bool) : Except Settled Bool :=
  if given then .error .invalid else .ok true

/-! ### The options of the tool -/

/-- An option with a value. -/
inductive Setting
  | root
  | config
  deriving DecidableEq, Repr

/-- The options so far, and the one whose value comes next. -/
structure Options where
  root : Option Path := none
  config : Option Path := none
  verbose : Bool := false
  waiting : Option Setting := none
  deriving DecidableEq, Repr

namespace Options

/-- Gives an option its value. -/
def set (options : Options) (setting : Setting) (value : Text) : Except Settled Options :=
  match setting with
  | .root => (setOnce options.root value).map fun root => { options with root, waiting := none }
  | .config =>
    (setOnce options.config value).map fun config => { options with config, waiting := none }

/-- Reads an option with a value; without an attached value the next argument is awaited. -/
def start (options : Options) (setting : Setting) (attached : Option Text) :
    Except Settled Options :=
  match attached with
  | some value => options.set setting value
  | none => .ok { options with waiting := some setting }

/-- Reads one letter of a group of short options. -/
def takeLetter (options : Options) (letter : Char) : Except Settled Options :=
  match letter with
  | 'v' => (raiseOnce options.verbose).map fun verbose => { options with verbose }
  | 'V' => .error .version
  | 'h' => .error .help
  | _ => .error .invalid

/-- Reads one argument before the name of a command. -/
def take (options : Options) (argument : Argument) : Except Settled Options :=
  match options.waiting, argument with
  | some setting, .plain value => options.set setting value
  | some _, _ => .error .invalid
  | none, .long "root" attached => options.start .root attached
  | none, .long "config" attached => options.start .config attached
  | none, .long "verbose" none => options.takeLetter 'v'
  | none, .long "version" none => options.takeLetter 'V'
  | none, .long "help" none => options.takeLetter 'h'
  | none, .short letters => letters.foldlM takeLetter options
  | none, _ => .error .invalid

end Options

/-- Reads up to the name of a command: the options, the name and what follows it. -/
def readOptions (options : Options) : List Text → Except Settled (Options × Text × List Text)
  | [] => .error .invalid
  | argument :: rest =>
    match options.waiting, Argument.ofText argument with
    | none, .plain command => .ok (options, command, rest)
    | _, shape =>
      match options.take shape with
      | .ok options => readOptions options rest
      | .error settled => .error settled

/-! ### The arguments of a command -/

/-- Which arguments a command takes. -/
structure Accepted where
  names : Bool
  lock : Bool
  target : Bool
  deriving DecidableEq, Repr

/-- The options and names of a command so far, the names in reverse. -/
structure Details where
  names : List Text := []
  lock : Bool := false
  target : Option Path := none
  /-- Whether the value of the target comes next. -/
  waiting : Bool := false
  /-- Whether two hyphens have been passed. -/
  escaped : Bool := false
  deriving DecidableEq, Repr

namespace Details

/-- Takes a name. -/
def addName (accepted : Accepted) (details : Details) (name : Text) : Except Settled Details :=
  if accepted.names then .ok { details with names := name :: details.names }
  else .error .invalid

/-- Gives the target its value. -/
def setTarget (details : Details) (value : Text) : Except Settled Details :=
  (setOnce details.target value).map fun target => { details with target, waiting := false }

/-- Reads one argument of a command. -/
def take (accepted : Accepted) (details : Details) (argument : Text) : Except Settled Details :=
  if details.escaped then details.addName accepted argument
  else
    match details.waiting, Argument.ofText argument with
    | true, .plain value => details.setTarget value
    | true, _ => .error .invalid
    | false, .escape => .ok { details with escaped := true }
    | false, .plain name => details.addName accepted name
    | false, .long "help" none => .error .help
    | false, .short ('h' :: _) => .error .help
    | false, .long "lock" none =>
      if accepted.lock then
        (raiseOnce details.lock).map fun lock => { details with lock }
      else .error .invalid
    | false, .long "target" attached =>
      if !accepted.target then .error .invalid
      else
        match attached with
        | some value => details.setTarget value
        | none => .ok { details with waiting := true }
    | false, _ => .error .invalid

end Details

/-- Reads all arguments of a command. -/
def readDetails (accepted : Accepted) (arguments : List Text) : Except Settled Details := do
  let details ← arguments.foldlM (Details.take accepted) {}
  if details.waiting then .error .invalid
  else return { details with names := details.names.reverse }

/-- The action of the command with this name. -/
def readAction (command : Text) (arguments : List Text) : Except Settled Action :=
  match String.ofList command with
  | "apply" =>
    (readDetails { names := true, lock := true, target := true } arguments).map fun details =>
      .apply details.names details.lock details.target
  | "check" =>
    (readDetails { names := true, lock := false, target := true } arguments).map fun details =>
      .check details.names details.target
  | "list" =>
    (readDetails { names := false, lock := false, target := false } arguments).map fun _ => .list
  | "help" =>
    match arguments.map String.ofList with
    | [] | ["apply"] | ["check"] | ["list"] | ["help"] => .error .help
    | _ => .error .invalid
  | _ => .error .invalid

/-! ### Whole command lines -/

/-- The value of an option that the environment may give. -/
def orVariable (given : Option Path) (variableValue : Option Text) :
    Except Settled (Option Path) :=
  match given, variableValue with
  | some value, _ => .ok (some value)
  | none, none => .ok none
  | none, some value => setOnce none value

/-- Reads a command line. The root is the working directory unless it is given. -/
def Invocation.read (environment : Environment) (arguments : List Text) :
    Except Settled Invocation := do
  let (options, command, rest) ← readOptions {} arguments
  let action ← readAction command rest
  let root ← orVariable options.root environment.root
  let config ← orVariable options.config environment.config
  return { root := root.getD ['.'], config, action }

end Inlay.Command
