import ToolPlan.Cli.Arguments
import ToolPlan.Json.Parser
import ToolPlan.Options.File
import ToolPlan.Run
import ToolPlan.Text.Controls

/-!
The command line program, without its effects: from arguments, files and environment to what is
printed. `analyze` tells what a plan asks for; `run` runs it with tools that give canned values.
-/

namespace ToolPlan.Cli

/-- Why a file cannot be read as text. -/
inductive FileError where
  | notFound
  | isDirectory
  | notText
  | other (reason : String)
  deriving DecidableEq, Repr

def FileError.message : FileError → String
  | notFound => "No such file or directory (os error 2)"
  | isDirectory => "Is a directory (os error 21)"
  | notText => "stream did not contain valid UTF-8"
  | other reason => reason

/-- The texts of files by their paths. -/
abbrev Files := String → Except FileError String

structure Environment where
  config : Option String := none
  log : Option String := none

/-- Why a job fails before there is a report. -/
inductive Failure where
  | planUnreadable (path : String) (cause : FileError)
  | planMalformed (path : String) (cause : PlanError)
  | optionsUnreadable (path : String) (cause : FileError)
  | optionsMalformed (path : String) (cause : OptionsError)
  | optionsInvalid (cause : OptionsError)
  | fixturesUnreadable (path : String) (cause : FileError)
  | fixturesMalformed
  | fixturesNotMap (path : String)

/-- The causes of a plan error from the outermost on, each with its own message. -/
def causes : PlanError → List String
  | .scan error => [PlanError.message (.scan error), error.message]
  | error => [error.message]

/-- What was attempted, and then every cause, with colons between them. -/
def Failure.message : Failure → String
  | planUnreadable path cause => s!"reading {path}: {cause.message}"
  | planMalformed path cause => ": ".intercalate (s!"parsing {path}" :: causes cause)
  | optionsUnreadable path cause =>
    s!"loading options from {path}: IO error: {cause.message}: {cause.message}"
  | optionsMalformed path cause => s!"loading options from {path}: {cause.message}"
  | optionsInvalid cause => cause.message
  | fixturesUnreadable path cause => s!"reading fixtures {path}: {cause.message}"
  | fixturesMalformed => "JSON error"
  | fixturesNotMap path => s!"fixtures in {path} must be a JSON object"

/-- What the program leaves behind: its exit code, what it prints, an error if there is one, and the
messages of its log. -/
structure Output where
  exitCode : Nat
  printed : String
  error : Option String
  log : List LogLine

/-! ### Logging -/

/-- The rank up to which messages are shown, by its name in the environment. An empty name stands for
errors alone. -/
def rankOf? (name : String) : Option Nat :=
  match name.toLower with
  | "" => some 1
  | "off" => some 0
  | "error" => some 1
  | "warn" => some 2
  | "info" => some 3
  | "debug" => some 4
  | "trace" => some 5
  | _ => none

/-- The rank up to which messages are shown: all but the finest in a verbose job, otherwise as the
environment says, otherwise warnings. -/
def shownRank (verbose : Bool) (environment : Environment) : Nat :=
  if verbose then LogLevel.debug.rank
  else (environment.log.bind rankOf?).getD LogLevel.warn.rank

/-- The messages that are shown, with control characters spelled out. -/
def shownLog (rank : Nat) (log : List LogLine) : List LogLine :=
  (log.filter (·.level.rank ≤ rank)).map fun line =>
    { line with text := Text.spellControls line.text }

/-! ### Jobs -/

def readPlan (files : Files) (path : String) : Except Failure Plan :=
  match files path with
  | .error cause => .error (.planUnreadable path cause)
  | .ok text =>
    match Plan.parse text with
    | .error cause => .error (.planMalformed path cause)
    | .ok plan => .ok plan

/-- A call in one line: its place, the tool and the variable that captures the result. -/
def describeCall (call : Call) : String :=
  let target := match call.capture with
    | some name => " -> " ++ name
    | none => ""
  s!"  {call.place.line}:{call.place.column} {call.name}{target}"

/-- What a plan asks for, in lines. -/
def describePlan (plan : Plan) : List String :=
  "Required capabilities:" :: plan.requiredTools.map ("  " ++ ·) ++
    s!"Invocations: {plan.calls.length}" :: plan.calls.map describeCall

def unlines (lines : List String) : String :=
  String.join (lines.map (· ++ "\n"))

def analyze (files : Files) (path : String) (format : Format) : Except Failure Output :=
  match readPlan files path with
  | .error failure => .error failure
  | .ok plan =>
    let printed := match format with
      | .json => [Json.pretty plan.analysis]
      | .plain => describePlan plan
    .ok ⟨0, unlines printed, none, []⟩

/-- The options of a file, or the defaults if there is none. -/
def loadOptions (files : Files) : Option String → Except Failure Options
  | none => .ok {}
  | some path =>
    match files path with
    | .error cause => .error (.optionsUnreadable path cause)
    | .ok text =>
      match Options.parse text with
      | .error cause => .error (.optionsMalformed path cause)
      | .ok options => .ok options

/-- The options of a job: those of the file, with those of the arguments on top. -/
def resolveOptions (files : Files) (config : Option String) (args : Arguments) :
    Except Failure Options :=
  match loadOptions files config with
  | .error failure => .error failure
  | .ok loaded =>
    let options : Options :=
      { maxSteps := args.maxSteps.getD loaded.maxSteps
        deadlineMs := args.deadlineMs.or loaded.deadlineMs
        dryRun := args.dryRun || loaded.dryRun }
    match options.validate with
    | .error cause => .error (.optionsInvalid cause)
    | .ok () => .ok options

/-- The tools of a file of fixtures; without a file there are none. -/
def loadTools (files : Files) : Option String → Except Failure (Registry Unit)
  | none => .ok []
  | some path =>
    match files path with
    | .error cause => .error (.fixturesUnreadable path cause)
    | .ok text =>
      match Json.parse? text with
      | some (.map fixtures) => .ok (Registry.ofFixtures fixtures)
      | some _ => .error (.fixturesNotMap path)
      | none => .error .fixturesMalformed

def missingWarning (plan : Plan) (registry : Registry Unit) : List LogLine :=
  match plan.missingTools registry with
  | [] => []
  | missing =>
    [⟨.warn, "Plan requires unregistered capabilities: " ++ ", ".intercalate missing⟩]

/-- Runs a plan and prints the report. Options, tools and plan are looked at in this order. -/
def run (files : Files) (clock : Clock) (config : Option String) (path : String)
    (args : Arguments) : Except Failure Output := do
  let options ← resolveOptions files config args
  let registry ← loadTools files args.tools
  let plan ← readPlan files path
  let (report, _) := plan.run registry options clock { initial := () }
  return ⟨if report.ok then 0 else 1, unlines [Json.pretty report.toValue], none,
    missingWarning plan registry ++ plan.log options report⟩

/-! ### The program -/

def programName : String := "planscript"

def programVersion : String := "0.1.0"

def versionLine (command : Option Command) : String :=
  let suffix := match command with
    | some command => "-" ++ command.name
    | none => ""
  programName ++ suffix ++ " " ++ programVersion

def helpText : String :=
  unlines ["Analyze and execute plan scripts", "",
    "Usage: planscript [--verbose] analyze FILE [--format plain|json]",
    "       planscript [--verbose] run FILE [--tools FILE] [--config FILE] [--max-steps N]",
    "                                       [--deadline-ms N] [--dry-run]"]

def refuse (refused : Refused) : Output :=
  match refused.reason with
  | .usage => ⟨2, "", some "usage", []⟩
  | .version => ⟨0, unlines [versionLine refused.command], none, []⟩
  | .help => ⟨0, helpText, none, []⟩

/-- The file of options that a run uses: the one that the arguments name, or the one of the
environment, whose name must not be empty. -/
def configOf (environment : Environment) (args : Arguments) : Except Stop (Option String) :=
  match args.config, environment.config with
  | some path, _ => .ok (some path)
  | none, some path => once none (path? path)
  | none, none => .ok none

def perform (files : Files) (environment : Environment) (clock : Clock) (job : Job) : Output :=
  let path := job.arguments.file.getD ""
  let outcome := match job.command with
    | .analyze => Except.ok (analyze files path (job.arguments.format.getD .plain))
    | .run => (configOf environment job.arguments).map fun config =>
        run files clock config path job.arguments
  match outcome with
  | .error reason => refuse ⟨some job.command, reason⟩
  | .ok (.error failure) => ⟨1, "", some failure.message, []⟩
  | .ok (.ok output) =>
    let rank := shownRank job.arguments.verbose environment
    { output with log := shownLog rank output.log }

def neededFiles (args : List String) (environment : Environment) : List String :=
  match readJob args {} with
  | .error _ => []
  | .ok job =>
    [job.arguments.file, job.arguments.tools, job.arguments.config, environment.config].filterMap id

def program (args : List String) (files : Files) (environment : Environment) (clock : Clock) :
    Output :=
  match readJob args {} with
  | .error refused => refuse refused
  | .ok job => perform files environment clock job

end ToolPlan.Cli
