import ToolPlan.Number.Decimal

/-!
The arguments of the command line. They are taken from left to right, so the first fault, or the
first wish for the version or for help, decides. A value is attached to its switch or is the next
argument; an argument that begins with a dash is never taken for a value that is not attached.
-/

namespace ToolPlan.Cli

inductive Format where
  | plain | json
  deriving DecidableEq, Repr

inductive Command where
  | analyze | run
  deriving DecidableEq, Repr

inductive Switch where
  | verbose | version | help | format | tools | config | maxSteps | deadlineMs | dryRun
  deriving DecidableEq, Repr

/-- Why the arguments name no job: they are wrong, or they ask for the version or for help. -/
inductive Stop where
  | usage | version | help
  deriving DecidableEq, Repr

structure Arguments where
  verbose : Bool := false
  file : Option String := none
  format : Option Format := none
  tools : Option String := none
  config : Option String := none
  maxSteps : Option Nat := none
  deadlineMs : Option Nat := none
  dryRun : Bool := false
  deriving DecidableEq, Repr

namespace Command

def name : Command → String
  | analyze => "analyze"
  | run => "run"

def ofName? : String → Option Command
  | "analyze" => some analyze
  | "run" => some run
  | _ => none

def switches : Command → List Switch
  | analyze => [.verbose, .version, .help, .format]
  | run => [.verbose, .version, .help, .tools, .config, .maxSteps, .deadlineMs, .dryRun]

end Command

namespace Switch

/-- The switches that may stand before the command. -/
def general : List Switch := [verbose, version, help]

def long : Switch → String
  | verbose => "verbose"
  | version => "version"
  | help => "help"
  | format => "format"
  | tools => "tools"
  | config => "config"
  | maxSteps => "max-steps"
  | deadlineMs => "deadline-ms"
  | dryRun => "dry-run"

/-- The letter after one dash, if there is one. -/
def short? : Switch → Option Char
  | verbose => some 'v'
  | version => some 'V'
  | help => some 'h'
  | format => some 'f'
  | tools => some 't'
  | config => some 'c'
  | _ => none

def takesValue : Switch → Bool
  | verbose | version | help | dryRun => false
  | format | tools | config | maxSteps | deadlineMs => true

end Switch

/-! ### Values of switches -/

/-- A value given for the first time; a second one is a fault. -/
def once {α : Type} (old : Option α) (new : Option α) : Except Stop (Option α) :=
  match old, new with
  | none, some value => .ok (some value)
  | _, _ => .error .usage

def path? (text : String) : Option String :=
  if text.isEmpty then none else some text

def format? : String → Option Format
  | "plain" => some .plain
  | "json" => some .json
  | _ => none

/-- A number of steps: an integer that fits 32 bits. -/
def steps? (text : String) : Option Nat :=
  (Decimal.int? text.toList).bind fun value =>
    if 0 ≤ value && value ≤ 0xffffffff then some value.toNat else none

/-- A number of milliseconds: an integer without minus sign that fits 64 bits. -/
def millis? (text : String) : Option Nat :=
  if text.startsWith "-" then none
  else (Decimal.int? text.toList).bind fun value =>
    if value ≤ 0xffffffffffffffff then some value.toNat else none

namespace Arguments

def give (args : Arguments) (switch : Switch) (value : String) : Except Stop Arguments :=
  match switch with
  | .format => do return { args with format := ← once args.format (format? value) }
  | .tools => do return { args with tools := ← once args.tools (path? value) }
  | .config => do return { args with config := ← once args.config (path? value) }
  | .maxSteps => do return { args with maxSteps := ← once args.maxSteps (steps? value) }
  | .deadlineMs => do return { args with deadlineMs := ← once args.deadlineMs (millis? value) }
  | _ => .error .usage

def raise (args : Arguments) (switch : Switch) : Except Stop Arguments :=
  match switch with
  | .verbose => if args.verbose then .error .usage else .ok { args with verbose := true }
  | .dryRun => if args.dryRun then .error .usage else .ok { args with dryRun := true }
  | .version => .error .version
  | .help => .error .help
  | _ => .error .usage

/-- Takes an argument that is no switch: the file, which is given once. -/
def place (args : Arguments) (text : String) : Except Stop Arguments := do
  return { args with file := ← once args.file (path? text) }

end Arguments

/-! ### Forms of arguments -/

/-- The forms of an argument: two dashes alone, a long switch with or without value, letters after
one dash, or a plain text. -/
inductive Form where
  | divider
  | long (name : String) (value : Option String)
  | letters (chars : List Char)
  | plain (text : String)
  deriving DecidableEq, Repr

/-- The form of an argument. A single dash is plain. -/
def Form.ofText (text : String) : Form :=
  match text.toList with
  | ['-', '-'] => divider
  | '-' :: '-' :: rest =>
    match rest.span (· ≠ '=') with
    | (name, '=' :: value) => long (String.ofList name) (some (String.ofList value))
    | (name, _) => long (String.ofList name) none
  | ['-'] => plain text
  | '-' :: rest => letters rest
  | _ => plain text

/-- The value after a letter: what is attached, without an equals sign in front. -/
def attached? : List Char → Option String
  | [] => none
  | '=' :: rest => some (String.ofList rest)
  | rest => some (String.ofList rest)

/-- Takes letters after one dash. A letter whose switch has a value takes the rest of the letters;
if none are left, that switch waits for the next argument. -/
def readLetters (switches : List Switch) :
    List Char → Arguments → Except Stop (Arguments × Option Switch)
  | [], args => .ok (args, none)
  | c :: rest, args =>
    match switches.find? (·.short? = some c) with
    | none => .error .usage
    | some switch =>
      if switch.takesValue then
        match attached? rest with
        | some value => do return (← args.give switch value, none)
        | none => .ok (args, some switch)
      else do readLetters switches rest (← args.raise switch)

/-- Takes a long switch; one that has a value but none attached waits for the next argument. -/
def readLong (switches : List Switch) (name : String) (value : Option String) (args : Arguments) :
    Except Stop (Arguments × Option Switch) :=
  match switches.find? (·.long = name) with
  | none => .error .usage
  | some switch =>
    match switch.takesValue, value with
    | true, some value => do return (← args.give switch value, none)
    | true, none => .ok (args, some switch)
    | false, none => do return (← args.raise switch, none)
    | false, some _ => .error .usage

def readForm (switches : List Switch) (args : Arguments) :
    Form → Except Stop (Arguments × Option Switch)
  | .long name value => readLong switches name value args
  | .letters chars => readLetters switches chars args
  | .plain text => do return (← args.place text, none)
  | .divider => .error .usage

/-- Takes the arguments after a command. After the divider all are plain. -/
def readArguments (switches : List Switch) : List String → Arguments → Except Stop Arguments
  | [], args => .ok args
  | text :: rest, args =>
    match Form.ofText text with
    | .divider => rest.foldlM Arguments.place args
    | form => do
      match ← readForm switches args form with
      | (args, none) => readArguments switches rest args
      | (args, some waiting) =>
        match rest with
        | [] => .error .usage
        | value :: rest =>
          match Form.ofText value with
          | .plain value => do readArguments switches rest (← args.give waiting value)
          | _ => .error .usage

structure Job where
  command : Command
  arguments : Arguments
  deriving DecidableEq, Repr

/-- Where reading stopped: before a command was named, or after it. -/
structure Refused where
  command : Option Command
  reason : Stop
  deriving DecidableEq, Repr

/-- Reads the arguments after a command. A file has to be named. -/
def readCommand (command : Command) (verbose : Bool) (args : List String) : Except Refused Job :=
  match readArguments command.switches args {} with
  | .error reason => .error ⟨some command, reason⟩
  | .ok found =>
    if found.file.isNone then .error ⟨some command, .usage⟩
    else .ok ⟨command, { found with verbose := verbose || found.verbose }⟩

/-- Whether names lead to something that help can be asked about: none of them to the whole program, a
single one to a command or to help itself. No command has commands inside. -/
def isHelpTopic : List String → Bool
  | [] => true
  | [name] => name = "help" || (Command.ofName? name).isSome
  | _ => false

/-- Reads all arguments: general switches, a command, and the arguments after it. In place of a command
there may be `help` with a topic. -/
def readJob : List String → Arguments → Except Refused Job
  | [], _ => .error ⟨none, .usage⟩
  | text :: rest, args =>
    match Form.ofText text with
    | .plain "help" => .error ⟨none, if isHelpTopic rest then .help else .usage⟩
    | .plain name =>
      match Command.ofName? name with
      | some command => readCommand command args.verbose rest
      | none => .error ⟨none, .usage⟩
    | form =>
      match readForm Switch.general args form with
      | .error reason => .error ⟨none, reason⟩
      | .ok (args, _) => readJob rest args

end ToolPlan.Cli
