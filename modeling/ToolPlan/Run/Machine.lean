import ToolPlan.Run.Budget
import ToolPlan.Run.Environment
import ToolPlan.Run.Journal
import ToolPlan.Tool.Registry

/-!
Running a plan. A run goes from state to state, statement by statement; it falls through to the next
statement, or ends with a value, or halts. The state is kept in every case, so what was done before
a halt is never lost.

Time is what the clock shows at each check, together with what tools took.
-/

namespace ToolPlan

/-- The nanoseconds since the start that a clock shows, by the number of earlier readings. -/
abbrev Clock := Nat → Nat

/-- The clock that shows one nanosecond more at each reading, the first one included. Only tools take
noticeable time by it. -/
def Clock.ticking : Clock := (· + 1)

/-- What stays the same during a run. -/
structure Setting (σ : Type) where
  registry : Registry σ
  dryRun : Bool
  clock : Clock

/-- What changes during a run. The journal has the latest event first. -/
structure Machine (σ : Type) where
  env : Environment := .empty
  journal : List Event := []
  budget : Budget
  readings : Nat := 0
  spent : Nat := 0
  memories : Memories σ

/-- How a statement or a list of statements ends. -/
inductive Flow where
  | next
  | returned (value : Value)
  | halted (reason : Halt)

namespace Machine

variable {σ : Type}

abbrev vars (machine : Machine σ) : Bindings :=
  machine.env.vars

def note (machine : Machine σ) (event : Event) : Machine σ :=
  { machine with journal := event :: machine.journal }

def define (machine : Machine σ) (name : String) (value : Value) : Machine σ :=
  { machine with env := machine.env.define name value }

/-- The time of the next check. -/
def elapsed (setting : Setting σ) (machine : Machine σ) : Nat :=
  setting.clock machine.readings + machine.spent

def checkDeadline (setting : Setting σ) (machine : Machine σ) : Option Halt × Machine σ :=
  (machine.budget.checkDeadline (machine.elapsed setting),
    { machine with readings := machine.readings + 1 })

def checkpoint (setting : Setting σ) (machine : Machine σ) : Option Halt × Machine σ :=
  let (halt, budget) := machine.budget.checkpoint (machine.elapsed setting)
  (halt, { machine with budget, readings := machine.readings + 1 }.note .step)

/-- Keeps the result of a call: in the variable that captures it, and in the trace. -/
def conclude (machine : Machine σ) (call : Call) (args : Entries Value) (result : Value) :
    Machine σ :=
  let captured := match call.capture with
    | some name => machine.define name result
    | none => machine
  captured.note (.traced (.called call.name args call.capture result))

/-- Calls a tool with its arguments. An unknown tool halts the run, in a dry run too; a failure of
the tool halts it before anything is captured or traced. -/
def runCall (setting : Setting σ) (call : Call) (machine : Machine σ) : Flow × Machine σ :=
  let args := Expr.resolveEntries machine.vars call.args
  match Entries.get? setting.registry call.name with
  | none => (.halted (.unknownTool call.name), machine)
  | some tool =>
    let announced := machine.note (.calling call.name call.place setting.dryRun)
    if setting.dryRun then (.next, announced.conclude call args .null)
    else
      let (reply, memories) := tool.invoke (.map args) machine.memories
      let answered :=
        { announced with memories, spent := machine.spent + reply.duration }.note
          (.invoked call.name args reply.outcome)
      match reply.outcome with
      | .error error => (.halted (.toolFailure call.name error), answered)
      | .ok result => (.next, answered.conclude call args result)

/-- Gives a loop variable back the value it had before the loop, or none. -/
def restore (machine : Machine σ) (var : String) : Option Value → Machine σ
  | some value => machine.define var value
  | none => { machine with env := machine.env.remove var }

/-- The rounds of a loop over the items left, counted from `index`. -/
def iterate (setting : Setting σ) (var : String) (body : Machine σ → Flow × Machine σ) :
    Nat → List Value → Machine σ → Flow × Machine σ
  | _, [], machine => (.next, machine)
  | index, item :: items, machine =>
    match machine.checkpoint setting with
    | (some halt, machine) => (.halted halt, machine)
    | (none, machine) =>
      match body ((machine.define var item).note (.traced (.iterated var index item))) with
      | (.next, machine) => iterate setting var body (index + 1) items machine
      | stopped => stopped

mutual

def runStatement (setting : Setting σ) : Statement → Machine σ → Flow × Machine σ
  | .assign name expr, machine =>
    let value := expr.resolve machine.vars
    (.next, (machine.define name value).note (.traced (.assigned name value)))
  | .call call, machine => machine.runCall setting call
  | .branch condition yes no, machine =>
    let outcome := condition.holds machine.vars
    let noted := machine.note (.traced (.branched condition outcome))
    if outcome then runBlock setting yes noted else runBranch setting no noted
  | .loop var iterable body, machine =>
    match iterable.resolve machine.vars with
    | .array items =>
      let (flow, after) :=
        iterate setting var (runBlock setting body) 0 items (machine.note (.looping var))
      (flow, after.restore var (machine.vars.get? var))
    | other => (.halted (.notAnArray var other.typeName), machine.note (.looping var))
  | .finish expr, machine =>
    let value := expr.resolve machine.vars
    (.returned value, machine.note (.traced (.returned value)))
  | .blank, machine => (.next, machine.note .blank)

/-- Runs statements in order, each after a checkpoint. After a statement that falls through, the
deadline is looked at once more. -/
def runBlock (setting : Setting σ) : List Statement → Machine σ → Flow × Machine σ
  | [], machine => (.next, machine)
  | statement :: rest, machine =>
    match machine.checkpoint setting with
    | (some halt, machine) => (.halted halt, machine)
    | (none, machine) =>
      match runStatement setting statement machine with
      | (.next, machine) =>
        match machine.checkDeadline setting with
        | (some halt, machine) => (.halted halt, machine)
        | (none, machine) => runBlock setting rest machine
      | stopped => stopped

def runBranch (setting : Setting σ) : Option (List Statement) → Machine σ → Flow × Machine σ
  | none, machine => (.next, machine)
  | some statements, machine => runBlock setting statements machine

end

end Machine

end ToolPlan
