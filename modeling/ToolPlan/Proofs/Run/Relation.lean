import ToolPlan.Run

/-!
Relations between runs. A run is put together from a few actions: checks of the limits, assignments,
calls, choices and loops. A relation between actions that holds of these and is kept where they are
put together holds of the runs of every plan (`Keeps.block`), so what two runs have in common is
shown action by action, and the induction over plans is made here once.
-/

namespace ToolPlan

/-- A part of a run: from a machine to the way it ends and the machine after it. -/
abbrev Action (σ : Type) := Machine σ → Flow × Machine σ

namespace Action

variable {σ : Type}

def skip : Action σ :=
  fun machine => (.next, machine)

/-- One action after the other, unless the first one ends the run. -/
def andThen (first second : Action σ) : Action σ :=
  fun machine =>
    match first machine with
    | (.next, after) => second after
    | stopped => stopped

def check (test : Machine σ → Option Halt × Machine σ) : Action σ :=
  fun machine =>
    match test machine with
    | (some halt, after) => (.halted halt, after)
    | (none, after) => (.next, after)

def enter (var : String) (index : Nat) (item : Value) : Action σ :=
  fun machine =>
    (.next, (machine.define var item).note (.traced (.iterated var index item)))

def choose (condition : Condition) (yes no : Action σ) : Action σ :=
  fun machine =>
    let outcome := condition.holds machine.vars
    let noted := machine.note (.traced (.branched condition outcome))
    if outcome then yes noted else no noted

/-- Makes the rounds of a loop over the items of an array, and gives the loop variable back what it
had before. -/
def loop (var : String) (iterable : Expr) (rounds : List Value → Action σ) : Action σ :=
  fun machine =>
    match iterable.resolve machine.vars with
    | .array items =>
      let (flow, after) := rounds items (machine.note (.looping var))
      (flow, after.restore var (machine.vars.get? var))
    | other => (.halted (.notAnArray var other.typeName), machine.note (.looping var))

theorem andThen_next {first second : Action σ} {machine after : Machine σ}
    (passed : first machine = (.next, after)) :
    first.andThen second machine = second after := by
  rw [andThen, passed]

theorem andThen_stop {first second : Action σ} {machine after : Machine σ} {flow : Flow}
    (ended : first machine = (flow, after)) (stopped : flow ≠ .next) :
    first.andThen second machine = (flow, after) := by
  rw [andThen, ended]
  split
  · next passed => exact absurd (congrArg Prod.fst passed) stopped
  · rfl

theorem check_snd (test : Machine σ → Option Halt × Machine σ) (machine : Machine σ) :
    (check test machine).2 = (test machine).2 := by
  unfold check
  split <;> simp [*]

theorem check_some {test : Machine σ → Option Halt × Machine σ} {machine : Machine σ} {halt : Halt}
    (found : (test machine).1 = some halt) :
    check test machine = (.halted halt, (test machine).2) := by
  unfold check
  split <;> simp_all

theorem check_none {test : Machine σ → Option Halt × Machine σ} {machine : Machine σ}
    (passed : (test machine).1 = none) : check test machine = (.next, (test machine).2) := by
  unfold check
  split <;> simp_all

end Action

/-- Without a deadline nothing is ever late. -/
theorem Budget.checkDeadline_untimed {budget : Budget} (untimed : budget.deadlineMs = none)
    (elapsed : Nat) : budget.checkDeadline elapsed = none := by
  rw [checkDeadline, untimed]

namespace Machine

variable {σ : Type}

/-- Without a deadline a checkpoint is passed, or the step limit halts the run. -/
theorem checkpoint_untimed (setting : Setting σ) {machine : Machine σ}
    (untimed : machine.budget.deadlineMs = none) :
    Action.check (checkpoint setting) machine =
      if machine.budget.maxSteps < machine.budget.count.consumed then
        (.halted (.stepLimit machine.budget.maxSteps), (machine.checkpoint setting).2)
      else (.next, (machine.checkpoint setting).2) := by
  have never : machine.budget.count.checkDeadline (machine.elapsed setting) = none :=
    Budget.checkDeadline_untimed untimed _
  have checked : (machine.checkpoint setting).1 =
      if machine.budget.maxSteps < machine.budget.count.consumed then
        some (.stepLimit machine.budget.maxSteps) else none := by
    simp only [checkpoint, Budget.checkpoint, never, Option.or_none]
    rfl
  split
  · next passed =>
    rw [if_pos passed] at checked
    exact Action.check_some checked
  · next below =>
    rw [if_neg below] at checked
    exact Action.check_none checked

/-! ### Runs as actions -/

theorem iterate_nil (setting : Setting σ) (var : String) (body : Action σ) (index : Nat) :
    iterate setting var body index [] = Action.skip := rfl

/-- A round is a checkpoint, the binding of the variable, the body, and the rounds that are left. -/
theorem iterate_cons (setting : Setting σ) (var : String) (body : Action σ) (index : Nat)
    (item : Value) (items : List Value) :
    iterate setting var body index (item :: items) =
      (((Action.check (checkpoint setting)).andThen (Action.enter var index item)).andThen
        body).andThen (iterate setting var body (index + 1) items) := by
  funext machine
  rcases checked : machine.checkpoint setting with ⟨_ | halt, after⟩
  · rcases ran : body ((after.define var item).note (.traced (.iterated var index item))) with
      ⟨_ | value | reason, ended⟩
    all_goals simp only [iterate, Action.andThen, Action.check, Action.enter, checked, ran]
  · simp only [iterate, Action.andThen, Action.check, checked]

theorem runBlock_nil (setting : Setting σ) : runBlock setting [] = Action.skip := by
  funext machine
  rw [runBlock, Action.skip]

/-- A statement runs between a checkpoint and a look at the deadline. -/
theorem runBlock_cons (setting : Setting σ) (statement : Statement) (rest : List Statement) :
    runBlock setting (statement :: rest) =
      (((Action.check (checkpoint setting)).andThen (runStatement setting statement)).andThen
        (Action.check (checkDeadline setting))).andThen (runBlock setting rest) := by
  funext machine
  rcases checked : machine.checkpoint setting with ⟨_ | halt, after⟩
  · rcases ran : runStatement setting statement after with ⟨_ | value | reason, ended⟩
    · rcases timed : ended.checkDeadline setting with ⟨_ | halt, later⟩
      all_goals simp only [runBlock, Action.andThen, Action.check, checked, ran, timed]
    all_goals simp only [runBlock, Action.andThen, Action.check, checked, ran]
  · simp only [runBlock, Action.andThen, Action.check, checked]

theorem runStatement_call (setting : Setting σ) (call : Call) :
    runStatement setting (.call call) = runCall setting call := by
  funext machine
  rw [runStatement]

theorem runStatement_branch (setting : Setting σ) (condition : Condition) (yes : List Statement)
    (no : Option (List Statement)) : runStatement setting (.branch condition yes no) =
      Action.choose condition (runBlock setting yes) (runBranch setting no) := by
  funext machine
  rw [runStatement, Action.choose]

/-- A loop binds its variable over its rounds, counted from zero. -/
theorem runStatement_loop (setting : Setting σ) (var : String) (iterable : Expr)
    (body : List Statement) : runStatement setting (.loop var iterable body) =
      Action.loop var iterable (iterate setting var (runBlock setting body) 0) := by
  funext machine
  cases resolved : iterable.resolve machine.vars <;>
    simp only [runStatement, Action.loop, resolved]

theorem runBranch_none (setting : Setting σ) : runBranch setting none = Action.skip := by
  funext machine
  rw [runBranch, Action.skip]

theorem runBranch_some (setting : Setting σ) (statements : List Statement) :
    runBranch setting (some statements) = runBlock setting statements := by
  funext machine
  rw [runBranch]

/-! ### Calls -/

/-- A tool that is not registered halts the run before anything is noted. -/
theorem runCall_unknown {setting : Setting σ} {call : Call}
    (unknown : Entries.get? setting.registry call.name = none) (machine : Machine σ) :
    runCall setting call machine = (.halted (.unknownTool call.name), machine) := by
  simp only [runCall, unknown]

/-- In a dry run a call is noted and answered null. -/
theorem runCall_dry {setting : Setting σ} {call : Call} {tool : Tool σ}
    (known : Entries.get? setting.registry call.name = some tool) (dry : setting.dryRun = true)
    (machine : Machine σ) : runCall setting call machine =
      (.next, (machine.note (.calling call.name call.place true)).conclude call
        (Expr.resolveEntries machine.vars call.args) .null) := by
  simp only [runCall, known, dry, if_true]

/-- The machine after a tool has answered a call, before the answer is kept. -/
def answered (machine : Machine σ) (call : Call) (tool : Tool σ) : Machine σ :=
  let args := Expr.resolveEntries machine.vars call.args
  let (reply, memories) := tool.invoke (.map args) machine.memories
  { machine.note (.calling call.name call.place false) with
    memories, spent := machine.spent + reply.duration }.note
      (.invoked call.name args reply.outcome)

def answer (machine : Machine σ) (call : Call) (tool : Tool σ) : Except ToolError Value :=
  (tool.invoke (.map (Expr.resolveEntries machine.vars call.args)) machine.memories).1.outcome

/-- Otherwise the tool is called, and its answer decides whether the run goes on. -/
theorem runCall_live {setting : Setting σ} {call : Call} {tool : Tool σ}
    (known : Entries.get? setting.registry call.name = some tool) (live : setting.dryRun = false)
    (machine : Machine σ) : runCall setting call machine =
      match machine.answer call tool with
      | .error error => (.halted (.toolFailure call.name error), machine.answered call tool)
      | .ok result => (.next, (machine.answered call tool).conclude call
          (Expr.resolveEntries machine.vars call.args) result) := by
  simp only [runCall, known, live, answer, answered]
  rfl

end Machine

/-! ### Relations that runs keep -/

/-- A relation between actions of two settings that holds of the parts of a run, and of what is put
together from related parts. -/
structure Keeps {σ τ : Type} (left : Setting σ) (right : Setting τ)
    (related : Action σ → Action τ → Prop) : Prop where
  skip : related Action.skip Action.skip
  andThen {first second : Action σ} {first' second' : Action τ} : related first first' →
    related second second' → related (first.andThen second) (first'.andThen second')
  checkpoint : related (.check (Machine.checkpoint left)) (.check (Machine.checkpoint right))
  checkDeadline :
    related (.check (Machine.checkDeadline left)) (.check (Machine.checkDeadline right))
  assign (name : String) (value : Expr) : related (Machine.runStatement left (.assign name value))
    (Machine.runStatement right (.assign name value))
  call (call : Call) : related (Machine.runCall left call) (Machine.runCall right call)
  finish (value : Expr) : related (Machine.runStatement left (.finish value))
    (Machine.runStatement right (.finish value))
  blank : related (Machine.runStatement left .blank) (Machine.runStatement right .blank)
  choose (condition : Condition) {yes no : Action σ} {yes' no' : Action τ} : related yes yes' →
    related no no' → related (.choose condition yes no) (.choose condition yes' no')
  enter (var : String) (index : Nat) (item : Value) :
    related (.enter var index item) (.enter var index item)
  loop (var : String) (iterable : Expr) {rounds : List Value → Action σ}
    {rounds' : List Value → Action τ} : (∀ items, related (rounds items) (rounds' items)) →
    related (.loop var iterable rounds) (.loop var iterable rounds')

namespace Keeps

variable {σ τ : Type} {left : Setting σ} {right : Setting τ}
  {related : Action σ → Action τ → Prop}

theorem iterate (keeps : Keeps left right related) (var : String) {body : Action σ}
    {body' : Action τ} (bodies : related body body') (index : Nat) (items : List Value) :
    related (Machine.iterate left var body index items)
      (Machine.iterate right var body' index items) := by
  induction items generalizing index with
  | nil =>
    rw [Machine.iterate_nil, Machine.iterate_nil]
    exact keeps.skip
  | cons item items ih =>
    rw [Machine.iterate_cons, Machine.iterate_cons]
    have entered := keeps.andThen keeps.checkpoint (keeps.enter var index item)
    exact keeps.andThen (keeps.andThen entered bodies) (ih (index + 1))

mutual

/-- The runs of every statement are related. -/
theorem statement (keeps : Keeps left right related) : ∀ (statement : Statement),
    related (Machine.runStatement left statement) (Machine.runStatement right statement)
  | .assign name value => keeps.assign name value
  | .call call => by
    have calls := keeps.call call
    rwa [← Machine.runStatement_call, ← Machine.runStatement_call] at calls
  | .branch condition yes no => by
    rw [Machine.runStatement_branch, Machine.runStatement_branch]
    exact keeps.choose condition (block keeps yes) (otherwise keeps no)
  | .loop var iterable body => by
    rw [Machine.runStatement_loop, Machine.runStatement_loop]
    exact keeps.loop var iterable fun items => keeps.iterate var (block keeps body) 0 items
  | .finish value => keeps.finish value
  | .blank => keeps.blank

/-- The runs of every list of statements are related. -/
theorem block (keeps : Keeps left right related) : ∀ (statements : List Statement),
    related (Machine.runBlock left statements) (Machine.runBlock right statements)
  | [] => by
    rw [Machine.runBlock_nil, Machine.runBlock_nil]
    exact keeps.skip
  | first :: rest => by
    rw [Machine.runBlock_cons, Machine.runBlock_cons]
    have ran := keeps.andThen keeps.checkpoint (statement keeps first)
    exact keeps.andThen (keeps.andThen ran keeps.checkDeadline) (block keeps rest)

theorem otherwise (keeps : Keeps left right related) : ∀ (no : Option (List Statement)),
    related (Machine.runBranch left no) (Machine.runBranch right no)
  | none => by
    rw [Machine.runBranch_none, Machine.runBranch_none]
    exact keeps.skip
  | some statements => by
    rw [Machine.runBranch_some, Machine.runBranch_some]
    exact block keeps statements

end

end Keeps

/-! ### Whole runs -/

def Machine.start {σ : Type} (options : Options) (memories : Memories σ) : Machine σ :=
  { budget := Budget.ofOptions options, memories }

/-- The report on the way a run ended, with the memories after it. -/
def Report.ofOutcome {σ : Type} (outcome : Flow × Machine σ) : Report × Memories σ :=
  (⟨outcome.1, outcome.2.vars, outcome.2.journal.reverse, outcome.2.budget.consumed⟩,
    outcome.2.memories)

/-- The journal has the latest event first, and the trace the earliest. -/
theorem Report.ofOutcome_trace {σ : Type} (outcome : Flow × Machine σ) :
    (ofOutcome outcome).1.trace = (outcome.2.journal.filterMap Event.traceEntry?).reverse := by
  simp only [ofOutcome, trace, List.filterMap_reverse]

theorem Report.ofOutcome_invocations {σ : Type} (outcome : Flow × Machine σ) :
    (ofOutcome outcome).1.invocations =
      (outcome.2.journal.filterMap Event.invocation?).reverse := by
  simp only [ofOutcome, invocations, List.filterMap_reverse]

end ToolPlan
