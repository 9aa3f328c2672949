import ToolPlan.Plan.Analysis
import ToolPlan.Plan.Grammar
import ToolPlan.Run.Machine

/-!
A whole run of a plan and the report on it. Whatever goes wrong while a plan runs is part of the
report; only options that are refused and texts that are no plan prevent a run.
-/

namespace ToolPlan

/-- The report on a run: how it ended, the variables at the end, the journal in order, and the steps
counted. -/
structure Report where
  flow : Flow
  vars : Bindings
  journal : List Event
  steps : Nat

namespace Report

/-- A run succeeds unless it halts. -/
def ok (report : Report) : Bool :=
  match report.flow with
  | .halted _ => false
  | _ => true

/-- The value that ended the plan, if a statement gave one. -/
def returned? (report : Report) : Option Value :=
  match report.flow with
  | .returned value => some value
  | _ => none

def halt? (report : Report) : Option Halt :=
  match report.flow with
  | .halted reason => some reason
  | _ => none

def trace (report : Report) : List TraceEntry :=
  report.journal.filterMap Event.traceEntry?

/-- The calls that tools saw, with their answers. -/
def invocations (report : Report) : List (String × Entries Value × Except ToolError Value) :=
  report.journal.filterMap Event.invocation?

def count (report : Report) (kind : String) : Nat :=
  report.trace.countP (·.kind = kind)

/-- The report as data. The value and the error stand there only if there are any. -/
def toValue (report : Report) : Value :=
  let value := (report.returned?.map fun value => ("return", value)).toList
  let error := (report.halt?.map fun reason => ("error", .string reason.message)).toList
  .map (("ok", .bool report.ok) :: value ++ error ++
    [("vars", .map report.vars), ("trace", .array (report.trace.map TraceEntry.toValue)),
     ("steps", .int report.steps)])

end Report

namespace Plan

variable {σ : Type}

/-- Runs a plan with the tools of a registry, from no variables. Gives the report, and the memories
of the tools after the run. -/
def run (plan : Plan) (registry : Registry σ) (options : Options) (clock : Clock)
    (memories : Memories σ) : Report × Memories σ :=
  let setting : Setting σ := ⟨registry, options.dryRun, clock⟩
  let (flow, machine) :=
    Machine.runBlock setting plan { budget := Budget.ofOptions options, memories := memories }
  (⟨flow, machine.vars, machine.journal.reverse, machine.budget.consumed⟩, machine.memories)

/-- The messages of a run: an announcement, what was done, and how it ended. -/
def log (plan : Plan) (options : Options) (report : Report) : List LogLine :=
  let first : LogLine :=
    ⟨.info, s!"Executing plan: {plan.length} statements, max_steps={options.maxSteps}, "
      ++ s!"dry_run={options.dryRun}"⟩
  let last : LogLine :=
    match report.flow with
    | .halted reason => ⟨.warn, s!"Plan aborted after {report.steps} steps: " ++ reason.message⟩
    | _ => ⟨.info, s!"Plan finished in {report.steps} steps"⟩
  first :: report.journal.filterMap Event.logLine? ++ [last]

def missingTools (plan : Plan) (registry : Registry σ) : List String :=
  registry.missing plan.requiredTools

end Plan

inductive Refusal where
  | options (error : OptionsError)
  | plan (error : PlanError)

/-- Reads a plan and runs it. The options are looked at first, then the text. -/
def execute {σ : Type} (text : String) (registry : Registry σ) (options : Options) (clock : Clock)
    (memories : Memories σ) : Except Refusal (Report × Memories σ) :=
  match options.validate with
  | .error error => .error (.options error)
  | .ok () =>
    match Plan.parse text with
    | .error error => .error (.plan error)
    | .ok plan => .ok (plan.run registry options clock memories)

end ToolPlan
