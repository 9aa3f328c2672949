import ToolPlan.Tool

/-!
What limits a run. The options say how many steps it may take and how long; the budget counts the steps
that were taken. Every statement and every round of a loop passes a checkpoint.
-/

namespace ToolPlan

/-! ### Options -/

/-- What limits a run: the number of steps, and the milliseconds it may take. A dry run calls no
tool. -/
structure Options where
  maxSteps : Nat := 1000
  deadlineMs : Option Nat := none
  dryRun : Bool := false
  deriving DecidableEq, Repr

inductive OptionsError where
  | noSteps
  | malformed
  deriving DecidableEq, Repr

def OptionsError.message : OptionsError → String
  | noSteps => "Invalid options: max_steps must be a positive integer"
  | malformed => "TOML error"

/-- A run has to be allowed at least one step. -/
def Options.validate (options : Options) : Except OptionsError Unit :=
  if options.maxSteps = 0 then .error .noSteps else .ok ()

/-! ### Budget -/

inductive Halt where
  | unknownTool (name : String)
  | notAnArray (var : String) (found : String)
  | stepLimit (limit : Nat)
  | deadline (limitMs : Nat)
  | toolFailure (name : String) (error : ToolError)
  deriving DecidableEq, Repr

def Halt.message : Halt → String
  | unknownTool name => s!"unknown tool '{name}'"
  | notAnArray var found => s!"type mismatch: FOR {var} expects an array, got {found}"
  | stepLimit limit => s!"step limit exceeded: more than {limit} steps"
  | deadline limitMs => s!"deadline exceeded: execution ran longer than {limitMs} ms"
  | toolFailure name error => s!"tool '{name}' failed: " ++ error.message

/-- The limits of a run and the steps counted so far. -/
structure Budget where
  maxSteps : Nat
  deadlineMs : Option Nat
  consumed : Nat := 0
  deriving DecidableEq, Repr

namespace Budget

/-- The counter has 32 bits and stays at its greatest value. -/
def counterMax : Nat := 0xffffffff

def nanosPerMilli : Nat := 1000000

def ofOptions (options : Options) : Budget where
  maxSteps := options.maxSteps
  deadlineMs := options.deadlineMs

def count (budget : Budget) : Budget :=
  { budget with consumed := min (budget.consumed + 1) counterMax }

/-- Whether more steps were counted than are allowed. -/
def stepLimit? (budget : Budget) : Option Halt :=
  if budget.maxSteps < budget.consumed then some (.stepLimit budget.maxSteps) else none

/-- Whether the deadline has passed, when so many nanoseconds have. -/
def checkDeadline (budget : Budget) (elapsed : Nat) : Option Halt :=
  match budget.deadlineMs with
  | none => none
  | some limit => if limit * nanosPerMilli < elapsed then some (.deadline limit) else none

/-- Counts a step, and then looks at the step limit first and at the deadline second. -/
def checkpoint (budget : Budget) (elapsed : Nat) : Option Halt × Budget :=
  let budget := budget.count
  (budget.stepLimit?.or (budget.checkDeadline elapsed), budget)

end Budget

end ToolPlan
