import Mathlib.Logic.Relation
import ToolPlan.Proofs.Run.Limits

/-!
Runs step by step. A run of a plan is a series of steps (`Step`), each of which belongs to a
statement that stands somewhere in the plan, and only the giving back of a loop variable follows
the step that ends a run. So what holds at the start of a run and is kept by every step holds at
its end, whichever way it ends (`Plan.run_invariant`). The induction over the statements of a plan
is made once (`Inherited.block`), and what uses it looks at single actions or at single steps.
-/

namespace ToolPlan

variable {σ : Type}

/-! ### The statements of a plan -/

mutual

/-- A statement and all statements of its blocks. -/
def Statement.parts : Statement → List Statement
  | .assign name value => [.assign name value]
  | .call request => [.call request]
  | .branch condition yes no => .branch condition yes no :: (partsOf yes ++ partsOfBranch no)
  | .loop var iterable body => .loop var iterable body :: partsOf body
  | .finish value => [.finish value]
  | .blank => [.blank]

def Statement.partsOf : List Statement → List Statement
  | [] => []
  | statement :: rest => statement.parts ++ partsOf rest

def Statement.partsOfBranch : Option (List Statement) → List Statement
  | none => []
  | some statements => partsOf statements

end

namespace Plan

/-- All statements of a plan, those of blocks included. -/
def parts (plan : Plan) : List Statement :=
  Statement.partsOf plan

def loopVars (plan : Plan) : List String :=
  plan.parts.filterMap fun
    | .loop var _ _ => some var
    | _ => none

theorem mem_loopVars {plan : Plan} {var : String} {iterable : Expr} {body : List Statement}
    (among : .loop var iterable body ∈ plan.parts) : var ∈ plan.loopVars :=
  List.mem_filterMap.mpr ⟨_, among, rfl⟩

end Plan

namespace Statement

mutual

/-- The analysis of a statement finds the calls among its parts. -/
theorem mem_calls {request : Call} : ∀ {statement : Statement},
    request ∈ statement.calls ↔ .call request ∈ statement.parts
  | .assign _ _ => by simp [calls, parts]
  | .call _ => by simp [calls, parts]
  | .branch _ yes no => by simp [calls, parts, mem_callsOf, mem_callsOfBranch]
  | .loop _ _ body => by simp [calls, parts, mem_callsOf]
  | .finish _ => by simp [calls, parts]
  | .blank => by simp [calls, parts]

/-- The calls of statements are among their parts. -/
theorem mem_callsOf {request : Call} : ∀ {statements : List Statement},
    request ∈ callsOf statements ↔ .call request ∈ partsOf statements
  | [] => by simp [callsOf, partsOf]
  | statement :: rest => by simp [callsOf, partsOf, mem_calls, mem_callsOf]

theorem mem_callsOfBranch {request : Call} : ∀ {no : Option (List Statement)},
    request ∈ callsOfBranch no ↔ .call request ∈ partsOfBranch no
  | none => by simp [callsOfBranch, partsOfBranch]
  | some statements => by simp [callsOfBranch, partsOfBranch, mem_callsOf]

end

theorem self_mem_parts (statement : Statement) : statement ∈ statement.parts := by
  cases statement <;> simp [parts]

end Statement

/-! ### What the runs of a plan inherit from its parts -/

/-- A property of actions that the simple statements of a plan have, that its branches and loops have
if their blocks do, and that is kept where one action follows the other. -/
structure Inherited (setting : Setting σ) (plan : Plan) (holds : Action σ → Prop) : Prop where
  skip : holds Action.skip
  andThen {first second : Action σ} : holds first → holds second → holds (first.andThen second)
  checkpoint : holds (.check (Machine.checkpoint setting))
  checkDeadline : holds (.check (Machine.checkDeadline setting))
  assign {name : String} {value : Expr} : .assign name value ∈ plan.parts →
    holds (Machine.runStatement setting (.assign name value))
  call {call : Call} : .call call ∈ plan.parts → holds (Machine.runCall setting call)
  branch {condition : Condition} {yes : List Statement} {no : Option (List Statement)} :
    .branch condition yes no ∈ plan.parts → holds (Machine.runBlock setting yes) →
    holds (Machine.runBranch setting no) →
    holds (Machine.runStatement setting (.branch condition yes no))
  loop {var : String} {iterable : Expr} {body : List Statement} :
    .loop var iterable body ∈ plan.parts → holds (Machine.runBlock setting body) →
    holds (Machine.runStatement setting (.loop var iterable body))
  finish {value : Expr} : .finish value ∈ plan.parts →
    holds (Machine.runStatement setting (.finish value))
  blank : holds (Machine.runStatement setting .blank)

namespace Inherited

variable {setting : Setting σ} {plan : Plan} {holds : Action σ → Prop}

mutual

/-- By recursion on the statement, whose blocks lie within the plan. -/
theorem statement (inherited : Inherited setting plan holds) : ∀ (statement : Statement),
    statement.parts ⊆ plan.parts → holds (Machine.runStatement setting statement)
  | .assign _ _, within => inherited.assign (within (Statement.self_mem_parts _))
  | .call call, within => by
    rw [Machine.runStatement_call]
    exact inherited.call (within (Statement.self_mem_parts _))
  | .branch condition yes no, within => by
    have among := within (Statement.self_mem_parts _)
    rw [Statement.parts, List.cons_subset, List.append_subset] at within
    exact inherited.branch among (block inherited yes within.2.1) (otherwise inherited no within.2.2)
  | .loop var iterable body, within => by
    have among := within (Statement.self_mem_parts _)
    rw [Statement.parts, List.cons_subset] at within
    exact inherited.loop among (block inherited body within.2)
  | .finish _, within => inherited.finish (within (Statement.self_mem_parts _))
  | .blank, _ => inherited.blank

/-- The run of statements of the plan has the property. -/
theorem block (inherited : Inherited setting plan holds) : ∀ (statements : List Statement),
    Statement.partsOf statements ⊆ plan.parts → holds (Machine.runBlock setting statements)
  | [], _ => by
    rw [Machine.runBlock_nil]
    exact inherited.skip
  | first :: rest, within => by
    rw [Statement.partsOf, List.append_subset] at within
    rw [Machine.runBlock_cons]
    have ran := inherited.andThen inherited.checkpoint (statement inherited first within.1)
    have timed := inherited.andThen ran inherited.checkDeadline
    exact inherited.andThen timed (block inherited rest within.2)

theorem otherwise (inherited : Inherited setting plan holds) : ∀ (no : Option (List Statement)),
    Statement.partsOfBranch no ⊆ plan.parts → holds (Machine.runBranch setting no)
  | none, _ => by
    rw [Machine.runBranch_none]
    exact inherited.skip
  | some statements, within => by
    rw [Statement.partsOfBranch] at within
    rw [Machine.runBranch_some]
    exact block inherited statements within

end

end Inherited

/-! ### What a machine shows -/

/-- The run goes on, or a limit or a loop over no array has halted it. -/
def Flow.isPlain : Flow → Bool
  | .next => true
  | .returned _ => false
  | .halted (.unknownTool _) => false
  | .halted (.toolFailure _ _) => false
  | .halted (.notAnArray _ _) => true
  | .halted (.stepLimit _) => true
  | .halted (.deadline _) => true

/-- A missed deadline is one of the plain ways to halt. -/
theorem Budget.checkDeadline_isPlain {budget : Budget} {elapsed : Nat} {halt : Halt}
    (late : budget.checkDeadline elapsed = some halt) : (Flow.halted halt).isPlain = true := by
  rcases budget.checkDeadline_cases elapsed with intime | ⟨ms, -, found⟩
  · rw [intime] at late
    cases late
  · rw [found] at late
    obtain rfl := Option.some.inj late
    rfl

/-- What a tool saw and answered, if the entry tells of a call. -/
def TraceEntry.invocation? : TraceEntry → Option (String × Entries Value × Except ToolError Value)
  | .called name args _ result => some (name, args, .ok result)
  | .assigned _ _ => none
  | .branched _ _ => none
  | .iterated _ _ _ => none
  | .returned _ => none

def Event.isStep : Event → Bool
  | .step => true
  | _ => false

theorem Report.halt?_eq_some {report : Report} {reason : Halt} :
    report.halt? = some reason ↔ report.flow = .halted reason := by
  unfold Report.halt?
  cases report.flow <;> simp

namespace Machine

/-- The trace so far, with the latest entry first. -/
def trace (machine : Machine σ) : List TraceEntry :=
  machine.journal.filterMap Event.traceEntry?

def steps (machine : Machine σ) : Nat :=
  machine.journal.countP Event.isStep

/-- The calls that tools saw so far, with the latest one first. -/
def invocations (machine : Machine σ) : List (String × Entries Value × Except ToolError Value) :=
  machine.journal.filterMap Event.invocation?

@[simp] theorem trace_traced (machine : Machine σ) (entry : TraceEntry) :
    (machine.note (.traced entry)).trace = entry :: machine.trace := rfl

@[simp] theorem trace_define (machine : Machine σ) (name : String) (value : Value) :
    (machine.define name value).trace = machine.trace := rfl

@[simp] theorem trace_restore (machine : Machine σ) (var : String) (saved : Option Value) :
    (machine.restore var saved).trace = machine.trace := by
  simp only [trace, restore_journal]

@[simp] theorem invocations_restore (machine : Machine σ) (var : String) (saved : Option Value) :
    (machine.restore var saved).invocations = machine.invocations := by
  simp only [invocations, restore_journal]

@[simp] theorem steps_restore (machine : Machine σ) (var : String) (saved : Option Value) :
    (machine.restore var saved).steps = machine.steps := by
  simp only [steps, restore_journal]

@[simp] theorem memories_restore (machine : Machine σ) (var : String) (saved : Option Value) :
    (machine.restore var saved).memories = machine.memories := by
  cases saved <;> rfl

section Conclude

variable (machine : Machine σ) (call : Call) (args : Entries Value) (result : Value)

@[simp] theorem trace_conclude : (machine.conclude call args result).trace =
    .called call.name args call.capture result :: machine.trace := by
  simp only [conclude]
  cases call.capture <;> rfl

@[simp] theorem invocations_conclude :
    (machine.conclude call args result).invocations = machine.invocations := by
  simp only [conclude]
  cases call.capture <;> rfl

@[simp] theorem steps_conclude :
    (machine.conclude call args result).steps = machine.steps := by
  simp only [conclude]
  cases call.capture <;> rfl

@[simp] theorem memories_conclude :
    (machine.conclude call args result).memories = machine.memories := by
  simp only [conclude]
  cases call.capture <;> rfl

end Conclude

/-- What has happened since shows neither in the variables nor in the trace, and no tool had a part
in it. At most one step was counted. -/
structure Quiet (machine : Machine σ) (outcome : Flow × Machine σ) : Prop where
  plain : outcome.1.isPlain = true
  vars : outcome.2.vars = machine.vars
  trace : outcome.2.trace = machine.trace
  invocations : outcome.2.invocations = machine.invocations
  memories : outcome.2.memories = machine.memories
  counted : (outcome.2.budget = machine.budget ∧ outcome.2.steps = machine.steps) ∨
    (outcome.2.budget = machine.budget.count ∧ outcome.2.steps = machine.steps + 1)

namespace Quiet

variable {machine : Machine σ}

/-- An event is noted that is no step, no entry of the trace and not seen by a tool. -/
theorem note {flow : Flow} {event : Event} (plain : flow.isPlain = true)
    (untraced : event.traceEntry? = none) (unseen : event.invocation? = none)
    (uncounted : event.isStep = false) : machine.Quiet (flow, machine.note event) where
  plain := plain
  vars := rfl
  trace := List.filterMap_cons_none untraced
  invocations := List.filterMap_cons_none unseen
  memories := rfl
  counted := by
    left
    refine ⟨rfl, List.countP_cons_of_neg ?_⟩
    rw [uncounted]
    exact Bool.false_ne_true

/-- A check that halts for a plain reason, and notes a step at most, is quiet. -/
theorem ofCheck {test : Machine σ → Option Halt × Machine σ}
    (plain : ∀ halt, (test machine).1 = some halt → (Flow.halted halt).isPlain = true)
    (quiet : machine.Quiet (.next, (test machine).2)) :
    machine.Quiet (Action.check test machine) := by
  cases found : (test machine).1 with
  | none =>
    rw [Action.check_none found]
    exact quiet
  | some halt =>
    rw [Action.check_some found]
    exact { quiet with plain := plain halt found }

/-- A checkpoint counts one step and shows nowhere else. -/
theorem checkpoint (setting : Setting σ) :
    machine.Quiet (Action.check (Machine.checkpoint setting) machine) := by
  refine ofCheck ?_ ⟨rfl, rfl, rfl, rfl, rfl, .inr ⟨rfl, List.countP_cons_of_pos rfl⟩⟩
  intro halt found
  simp only [Machine.checkpoint, Budget.checkpoint] at found
  rcases Option.or_eq_some_iff.mp found with passed | ⟨-, late⟩
  · obtain ⟨-, stepLimit⟩ := Option.ite_none_right_eq_some.mp passed
    obtain rfl := Option.some.inj stepLimit
    rfl
  · exact Budget.checkDeadline_isPlain late

theorem checkDeadline (setting : Setting σ) :
    machine.Quiet (Action.check (Machine.checkDeadline setting) machine) :=
  ofCheck (fun _ late => Budget.checkDeadline_isPlain late)
    ⟨rfl, rfl, rfl, rfl, rfl, .inl ⟨rfl, rfl⟩⟩

end Quiet

/-- A call that reaches its tool adds two events. -/
theorem journal_answered (machine : Machine σ) (call : Call) (tool : Tool σ) :
    (machine.answered call tool).journal =
      .invoked call.name (Expr.resolveEntries machine.vars call.args) (machine.answer call tool) ::
        .calling call.name call.place false :: machine.journal := rfl

theorem invocations_answered (machine : Machine σ) (call : Call) (tool : Tool σ) :
    (machine.answered call tool).invocations =
      (call.name, Expr.resolveEntries machine.vars call.args, machine.answer call tool) ::
        machine.invocations := rfl

theorem trace_answered (machine : Machine σ) (call : Call) (tool : Tool σ) :
    (machine.answered call tool).trace = machine.trace := rfl

/-- The four ways in which a call can go. -/
inductive Called (setting : Setting σ) (call : Call) (machine : Machine σ) :
    Flow × Machine σ → Prop where
  | unknown : Entries.get? setting.registry call.name = none →
      Called setting call machine (.halted (.unknownTool call.name), machine)
  | dry {tool : Tool σ} : Entries.get? setting.registry call.name = some tool →
      setting.dryRun = true → Called setting call machine
        (.next, (machine.note (.calling call.name call.place true)).conclude call
          (Expr.resolveEntries machine.vars call.args) .null)
  | failed {tool : Tool σ} {error : ToolError} :
      Entries.get? setting.registry call.name = some tool → setting.dryRun = false →
      machine.answer call tool = .error error → Called setting call machine
        (.halted (.toolFailure call.name error), machine.answered call tool)
  | answered {tool : Tool σ} {result : Value} :
      Entries.get? setting.registry call.name = some tool → setting.dryRun = false →
      machine.answer call tool = .ok result → Called setting call machine
        (.next, (machine.answered call tool).conclude call
          (Expr.resolveEntries machine.vars call.args) result)

/-- A call goes in one of four ways: the tool is unknown, the run is dry, the tool answers, or it
fails. -/
theorem called_runCall (setting : Setting σ) (call : Call) (machine : Machine σ) :
    Called setting call machine (machine.runCall setting call) := by
  cases known : Entries.get? setting.registry call.name with
  | none =>
    rw [runCall_unknown known]
    exact .unknown known
  | some tool =>
    cases isDry : setting.dryRun with
    | true =>
      rw [runCall_dry known isDry]
      exact .dry known isDry
    | false =>
      rw [runCall_live known isDry]
      cases answer : machine.answer call tool with
      | error error => exact .failed known isDry answer
      | ok result => exact .answered known isDry answer

end Machine

/-! ### Steps -/

/-- One step of a run of a plan, from how things stand to how they stand after it. Quiet steps are
the checks of the limits, the opening and the refusal of a loop, and blank lines. -/
inductive Step (setting : Setting σ) (plan : Plan) :
    Flow × Machine σ → Flow × Machine σ → Prop where
  | quiet {machine outcome} : machine.Quiet outcome → Step setting plan (.next, machine) outcome
  | assign {machine name value} : .assign name value ∈ plan.parts →
      Step setting plan (.next, machine) (.next, (machine.define name
        (value.resolve machine.vars)).note (.traced (.assigned name (value.resolve machine.vars))))
  | call {machine call outcome} : .call call ∈ plan.parts →
      Machine.Called setting call machine outcome → Step setting plan (.next, machine) outcome
  | branch {machine condition yes no} : .branch condition yes no ∈ plan.parts →
      Step setting plan (.next, machine)
        (.next, machine.note (.traced (.branched condition (condition.holds machine.vars))))
  | enter {machine var iterable body index item} : .loop var iterable body ∈ plan.parts →
      Step setting plan (.next, machine)
        (.next, (machine.define var item).note (.traced (.iterated var index item)))
  | restore {flow machine var iterable body saved} : .loop var iterable body ∈ plan.parts →
      Step setting plan (flow, machine) (flow, machine.restore var saved)
  | finish {machine value} : .finish value ∈ plan.parts →
      Step setting plan (.next, machine) (.returned (value.resolve machine.vars),
        machine.note (.traced (.returned (value.resolve machine.vars))))

abbrev Steps (setting : Setting σ) (plan : Plan) : Flow × Machine σ → Flow × Machine σ → Prop :=
  Relation.ReflTransGen (Step setting plan)

/-- The action is made of steps. -/
def Action.Stepwise (setting : Setting σ) (plan : Plan) (action : Action σ) : Prop :=
  ∀ machine : Machine σ, Steps setting plan (.next, machine) (action machine)

section Stepwise

variable {setting : Setting σ} {plan : Plan}

theorem Action.Stepwise.andThen {first second : Action σ} (before : first.Stepwise setting plan)
    (after : second.Stepwise setting plan) : (first.andThen second).Stepwise setting plan := by
  intro machine
  have ran := before machine
  rcases ended : first machine with ⟨flow, middle⟩
  rw [ended] at ran
  by_cases passed : flow = .next
  · subst passed
    rw [Action.andThen_next ended]
    exact ran.trans (after middle)
  · rw [Action.andThen_stop ended passed]
    exact ran

theorem stepwise_checkpoint :
    Action.Stepwise setting plan (.check (Machine.checkpoint setting)) :=
  fun _ => .single (.quiet (.checkpoint setting))

/-- By induction on the items left: each round is a checkpoint, a binding and the
steps of the body. -/
theorem stepwise_iterate {var : String} {iterable : Expr} {statements : List Statement}
    (among : .loop var iterable statements ∈ plan.parts) {body : Action σ}
    (stepwise : body.Stepwise setting plan) (index : Nat) (items : List Value) :
    Action.Stepwise setting plan (Machine.iterate setting var body index items) := by
  induction items generalizing index with
  | nil => exact fun machine => .refl
  | cons item items ih =>
    rw [Machine.iterate_cons]
    have entered : Action.Stepwise setting plan (.enter var index item) :=
      fun machine => .single (.enter among)
    exact ((stepwise_checkpoint.andThen entered).andThen stepwise).andThen (ih (index + 1))

/-- A loop is refused, or its rounds are made and its variable is given back. -/
theorem stepwise_loop {var : String} {iterable : Expr} {statements : List Statement}
    (among : .loop var iterable statements ∈ plan.parts) {rounds : List Value → Action σ}
    (stepwise : ∀ items, (rounds items).Stepwise setting plan) :
    (Action.loop var iterable rounds).Stepwise setting plan := by
  intro machine
  unfold Action.loop
  split
  · next items _ =>
    have opened : Steps setting plan (.next, machine) (.next, machine.note (.looping var)) :=
      .single (.quiet (.note rfl rfl rfl rfl))
    exact (opened.trans (stepwise items _)).tail (.restore among)
  · exact .single (.quiet (.note rfl rfl rfl rfl))

/-- The actions of a plan are made of steps of the plan. -/
theorem inherited_stepwise : Inherited setting plan (Action.Stepwise setting plan) where
  skip _ := .refl
  andThen := Action.Stepwise.andThen
  checkpoint := stepwise_checkpoint
  checkDeadline _ := .single (.quiet (.checkDeadline setting))
  assign among machine := by
    rw [Machine.runStatement]
    exact .single (.assign among)
  call among machine := .single (.call among (Machine.called_runCall ..))
  branch among yes no machine := by
    rw [Machine.runStatement_branch]
    simp only [Action.choose]
    split
    · exact .head (.branch among) (yes _)
    · exact .head (.branch among) (no _)
  loop among body := by
    rw [Machine.runStatement_loop]
    exact stepwise_loop among (stepwise_iterate among body 0)
  finish among machine := by
    rw [Machine.runStatement]
    exact .single (.finish among)
  blank machine := by
    rw [Machine.runStatement]
    exact .single (.quiet (.note rfl rfl rfl rfl))

/-- What every step keeps is kept by any number of them. -/
theorem Steps.invariant {holds : Flow × Machine σ → Prop}
    (kept : ∀ {before after}, Step setting plan before after → holds before → holds after)
    {before after : Flow × Machine σ} (steps : Steps setting plan before after)
    (start : holds before) : holds after := by
  induction steps with
  | refl => exact start
  | tail _ step ih => exact kept step ih

end Stepwise

/-- What holds at the start of a run and is kept by its steps holds of the run as its report tells
it. -/
theorem Plan.run_invariant (plan : Plan) (registry : Registry σ) (options : Options) (clock : Clock)
    (memories : Memories σ) {holds : Flow × Machine σ → Prop}
    (start : holds (.next, Machine.start options memories))
    (kept : ∀ {before after}, Step ⟨registry, options.dryRun, clock⟩ plan before after →
      holds before → holds after) :
    ∃ outcome, holds outcome ∧
      plan.run registry options clock memories = Report.ofOutcome outcome := by
  have within : Statement.partsOf plan ⊆ plan.parts := List.Subset.refl _
  have steps : Action.Stepwise ⟨registry, options.dryRun, clock⟩ plan
      (Machine.runBlock ⟨registry, options.dryRun, clock⟩ plan) :=
    inherited_stepwise.block plan within
  exact ⟨_, Steps.invariant kept (steps (Machine.start options memories)) start, rfl⟩

end ToolPlan
