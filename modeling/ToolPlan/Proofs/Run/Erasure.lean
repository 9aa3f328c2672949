import ToolPlan.Proofs.Resolve
import ToolPlan.Proofs.Run.Variables

/-!
Statements that can be erased. A blank line does nothing, and an assignment to a name that the plan
never looks up changes nothing that shows elsewhere. A plan without them makes the same run in no
more steps: it keeps step with the plan that has them, on a machine that lacks only the dead variables
and the entries on them (`Shadows`), up to where the longer plan meets its step limit
(`Plan.run_erased`).
-/

namespace ToolPlan

variable {σ : Type}

/-! ### Names and dead statements -/

namespace Statement

mutual

/-- The names that a statement looks up, captures a result in or loops over. -/
def names : Statement → List String
  | .assign _ value => value.names
  | .call request => Expr.namesOfEntries request.args ++ request.capture.toList
  | .branch condition yes no => condition.names ++ (namesOfAll yes ++ namesOfOtherwise no)
  | .loop var iterable body => var :: (iterable.names ++ namesOfAll body)
  | .finish value => value.names
  | .blank => []

def namesOfAll : List Statement → List String
  | [] => []
  | statement :: rest => statement.names ++ namesOfAll rest

def namesOfOtherwise : Option (List Statement) → List String
  | none => []
  | some statements => namesOfAll statements

end

/-- A blank line, or an assignment to a dead name. -/
def isDead (dead : String → Bool) : Statement → Bool
  | .assign name _ => dead name
  | .call _ => false
  | .branch _ _ _ => false
  | .loop _ _ _ => false
  | .finish _ => false
  | .blank => true

mutual

/-- A statement without the dead statements of its blocks. -/
def erase (dead : String → Bool) : Statement → Statement
  | .branch condition yes no => .branch condition (eraseAll dead yes) (eraseOtherwise dead no)
  | .loop var iterable body => .loop var iterable (eraseAll dead body)
  | .assign name value => .assign name value
  | .call request => .call request
  | .finish value => .finish value
  | .blank => .blank

def eraseAll (dead : String → Bool) : List Statement → List Statement
  | [] => []
  | statement :: rest =>
    if statement.isDead dead then eraseAll dead rest
    else statement.erase dead :: eraseAll dead rest

def eraseOtherwise (dead : String → Bool) : Option (List Statement) → Option (List Statement)
  | none => none
  | some statements => some (eraseAll dead statements)

end

end Statement

namespace Plan

/-- The names that a plan looks up, captures results in or loops over. -/
def names (plan : Plan) : List String :=
  Statement.namesOfAll plan

def erase (dead : String → Bool) (plan : Plan) : Plan :=
  Statement.eraseAll dead plan

end Plan

/-- The entry tells of an assignment to a dead name. -/
def TraceEntry.isDead (dead : String → Bool) : TraceEntry → Bool
  | .assigned name _ => dead name
  | .called _ _ _ _ => false
  | .branched _ _ => false
  | .iterated _ _ _ => false
  | .returned _ => false

/-! ### Machines without the dead variables -/

/-- The second machine is the first one without its dead variables and the entries on them. It has
counted no more steps, under the same limit, and there is no deadline. -/
structure Shadows (dead : String → Bool) (full erased : Machine σ) : Prop where
  vars : ∀ name, Entries.get? erased.vars name =
    if dead name then none else Entries.get? full.vars name
  maxSteps : erased.budget.maxSteps = full.budget.maxSteps
  consumed : erased.budget.consumed ≤ min full.budget.consumed Budget.counterMax
  untimed : full.budget.deadlineMs = none ∧ erased.budget.deadlineMs = none
  trace : erased.trace = full.trace.filter (!·.isDead dead)
  invocations : erased.invocations = full.invocations
  memories : erased.memories = full.memories

namespace Shadows

variable {dead : String → Bool} {full erased : Machine σ}

/-- Both runs find the same under names that are not dead. -/
theorem get?_alive (shadows : Shadows dead full erased) {name : String}
    (alive : dead name = false) : Entries.get? full.vars name = Entries.get? erased.vars name := by
  rw [shadows.vars, if_neg (by simp [alive])]

/-- What is looked up has no dead names, so it resolves to the same. -/
theorem resolve (shadows : Shadows dead full erased) {value : Expr}
    (alive : ∀ name ∈ value.names, dead name = false) :
    value.resolve full.vars = value.resolve erased.vars :=
  Expr.resolve_congr fun name among => shadows.get?_alive (alive name among)

/-- Both note an event that tells of no dead name. -/
theorem note (shadows : Shadows dead full erased) {event : Event}
    (alive : ∀ entry ∈ event.traceEntry?, entry.isDead dead = false) :
    Shadows dead (full.note event) (erased.note event) :=
  { shadows with
    trace := by
      simp only [Machine.trace, Machine.note, List.filterMap_cons]
      cases found : event.traceEntry? with
      | none => exact shadows.trace
      | some entry =>
        rw [List.filter_cons_of_pos (by simp [alive entry found])]
        exact congrArg (entry :: ·) shadows.trace
    invocations := by
      simp only [Machine.invocations, Machine.note, List.filterMap_cons]
      cases event.invocation? with
      | none => exact shadows.invocations
      | some invocation => exact congrArg (invocation :: ·) shadows.invocations }

/-- Only the first machine notes an event, which tells of a dead name if of anything. -/
theorem noteDead (shadows : Shadows dead full erased) {event : Event}
    (isDead : ∀ entry ∈ event.traceEntry?, entry.isDead dead = true)
    (unseen : event.invocation? = none) : Shadows dead (full.note event) erased :=
  { shadows with
    trace := by
      simp only [Machine.trace, Machine.note, List.filterMap_cons]
      cases found : event.traceEntry? with
      | none => exact shadows.trace
      | some entry =>
        rw [List.filter_cons_of_neg (by simp [isDead entry found])]
        exact shadows.trace
    invocations := by
      simp only [Machine.invocations, Machine.note, List.filterMap_cons, unseen]
      exact shadows.invocations }

theorem define (shadows : Shadows dead full erased) {name : String} (alive : dead name = false)
    (value : Value) : Shadows dead (full.define name value) (erased.define name value) :=
  { shadows with
    vars := by
      intro other
      simp only [Machine.vars, Machine.define, Environment.vars_define]
      by_cases same : other = name
      · subst same
        rw [Entries.get?_insert_self, Entries.get?_insert_self, if_neg (by simp [alive])]
      · rw [Entries.get?_insert_of_ne _ _ same, Entries.get?_insert_of_ne _ _ same]
        exact shadows.vars other }

/-- A definition under a dead name is made in the full run only. -/
theorem defineDead (shadows : Shadows dead full erased) {name : String} (isDead : dead name = true)
    (value : Value) : Shadows dead (full.define name value) erased :=
  { shadows with
    vars := by
      intro other
      simp only [Machine.vars, Machine.define, Environment.vars_define]
      by_cases same : other = name
      · subst same
        rw [shadows.vars, if_pos isDead, if_pos isDead]
      · rw [Entries.get?_insert_of_ne _ _ same]
        exact shadows.vars other }

theorem restore (shadows : Shadows dead full erased) {var : String} (alive : dead var = false)
    (saved : Option Value) : Shadows dead (full.restore var saved) (erased.restore var saved) where
  vars := by
    intro other
    by_cases same : other = var
    · subst same
      rw [Machine.get?_restore_self, Machine.get?_restore_self, if_neg (by simp [alive])]
    · rw [Machine.get?_restore_of_ne _ same, Machine.get?_restore_of_ne _ same]
      exact shadows.vars other
  maxSteps := by
    rw [Machine.restore_budget, Machine.restore_budget]
    exact shadows.maxSteps
  consumed := by
    rw [Machine.restore_budget, Machine.restore_budget]
    exact shadows.consumed
  untimed := by
    rw [Machine.restore_budget, Machine.restore_budget]
    exact shadows.untimed
  trace := by
    rw [Machine.trace_restore, Machine.trace_restore]
    exact shadows.trace
  invocations := by
    rw [Machine.invocations_restore, Machine.invocations_restore]
    exact shadows.invocations
  memories := by
    rw [Machine.memories_restore, Machine.memories_restore]
    exact shadows.memories

theorem conclude (shadows : Shadows dead full erased) {call : Call}
    (alive : ∀ name ∈ call.capture, dead name = false) (args : Entries Value) (result : Value) :
    Shadows dead (full.conclude call args result) (erased.conclude call args result) := by
  simp only [Machine.conclude]
  cases captured : call.capture with
  | none => exact shadows.note (by rintro entry ⟨⟩; rfl)
  | some name => exact (shadows.define (alive name captured) result).note (by rintro entry ⟨⟩; rfl)

/-- Both count a step. -/
theorem counted (shadows : Shadows dead full erased) (left right : Setting σ) :
    Shadows dead (full.checkpoint left).2 (erased.checkpoint right).2 := by
  have fewer : erased.budget.count.consumed ≤
      min full.budget.count.consumed Budget.counterMax := by
    have consumed := shadows.consumed
    simp only [Budget.count]
    omega
  have after : Shadows dead
      { full with budget := full.budget.count, readings := full.readings + 1 }
      { erased with budget := erased.budget.count, readings := erased.readings + 1 } :=
    { shadows with maxSteps := shadows.maxSteps, consumed := fewer, untimed := shadows.untimed }
  exact after.note (by rintro entry ⟨⟩)

/-- Only the first machine counts a step. -/
theorem spared (shadows : Shadows dead full erased) (left : Setting σ) :
    Shadows dead (full.checkpoint left).2 erased := by
  -- The first counter may have reached its end already, which is why the bound names it.
  have fewer : erased.budget.consumed ≤ min full.budget.count.consumed Budget.counterMax := by
    have consumed := shadows.consumed
    simp only [Budget.count]
    omega
  have after : Shadows dead
      { full with budget := full.budget.count, readings := full.readings + 1 } erased :=
    { shadows with maxSteps := shadows.maxSteps, consumed := fewer, untimed := shadows.untimed }
  exact after.noteDead (by rintro entry ⟨⟩) rfl

end Shadows

/-! ### Actions without the dead statements -/

/-- The first run was halted by its step limit, or the second one ended in the same way with the dead
variables missing. -/
inductive Outlasts (dead : String → Bool) : Flow × Machine σ → Flow × Machine σ → Prop where
  | cut {limit machine other} : Outlasts dead (.halted (.stepLimit limit), machine) other
  | same {flow full erased} : Shadows dead full erased → Outlasts dead (flow, full) (flow, erased)

/-- Side by side with the first action, the second one lasts at least as long. -/
def OutlastsAction (dead : String → Bool) (first second : Action σ) : Prop :=
  ∀ ⦃full erased : Machine σ⦄, Shadows dead full erased →
    Outlasts dead (first full) (second erased)

section Outlasts

variable {dead : String → Bool} {left right : Setting σ}

theorem outlasts_andThen {first second first' second' : Action σ}
    (before : OutlastsAction dead first first') (after : OutlastsAction dead second second') :
    OutlastsAction dead (first.andThen second) (first'.andThen second') := by
  intro full erased shadows
  have step := before shadows
  rcases ran : first full with ⟨flow, ended⟩
  rcases ran' : first' erased with ⟨flow', ended'⟩
  rw [ran, ran'] at step
  cases step with
  | cut =>
    rw [Action.andThen_stop ran nofun]
    exact .cut
  | same shadows =>
    by_cases passed : flow = .next
    · subst passed
      rw [Action.andThen_next ran, Action.andThen_next ran']
      exact after shadows
    · rw [Action.andThen_stop ran passed, Action.andThen_stop ran' passed]
      exact .same shadows

/-! #### Checks -/

/-- Where the first machine may take a step, the second one may take it as well. -/
theorem outlasts_checkpoint :
    OutlastsAction dead (.check (Machine.checkpoint left)) (.check (Machine.checkpoint right)) := by
  intro full erased shadows
  rw [Machine.checkpoint_untimed left shadows.untimed.1,
    Machine.checkpoint_untimed right shadows.untimed.2]
  have limits := shadows.maxSteps
  have fewer : erased.budget.count.consumed ≤ full.budget.count.consumed := by
    have consumed := shadows.consumed
    simp only [Budget.count]
    omega
  split
  · exact .cut
  · rw [if_neg (by omega)]
    exact .same (shadows.counted left right)

/-- The first machine takes a step that is spared the second one. -/
theorem outlasts_spared : OutlastsAction dead (.check (Machine.checkpoint left)) Action.skip := by
  intro full erased shadows
  rw [Machine.checkpoint_untimed left shadows.untimed.1]
  split
  · exact .cut
  · exact .same (shadows.spared left)

/-- There is no deadline, so looking at it changes nothing. -/
theorem outlasts_checkDeadline :
    OutlastsAction dead (.check (Machine.checkDeadline left))
      (.check (Machine.checkDeadline right)) := by
  intro full erased shadows
  rw [Action.check_none (Budget.checkDeadline_untimed shadows.untimed.1 (full.elapsed left)),
    Action.check_none (Budget.checkDeadline_untimed shadows.untimed.2 (erased.elapsed right))]
  exact .same { shadows with }

/-- A dead statement takes a step and leaves nothing to see. -/
theorem outlasts_dead {statement : Statement} (isDead : statement.isDead dead = true) :
    OutlastsAction dead (((Action.check (Machine.checkpoint left)).andThen
      (Machine.runStatement left statement)).andThen (.check (Machine.checkDeadline left)))
        Action.skip := by
  have ran : OutlastsAction dead (Machine.runStatement left statement) Action.skip := by
    intro full erased shadows
    cases statement with
    | assign name value =>
      rw [Machine.runStatement]
      refine .same ((shadows.defineDead isDead _).noteDead ?_ rfl)
      rintro entry ⟨⟩
      exact isDead
    | blank =>
      rw [Machine.runStatement]
      exact .same (shadows.noteDead (by rintro entry ⟨⟩) rfl)
    | call | branch | loop | finish => cases isDead
  have timed : OutlastsAction dead (.check (Machine.checkDeadline left)) Action.skip := by
    intro full erased shadows
    rw [Action.check_none (Budget.checkDeadline_untimed shadows.untimed.1 (full.elapsed left))]
    exact .same { shadows with }
  exact outlasts_andThen (outlasts_andThen outlasts_spared ran) timed

/-! #### Statements -/

/-- The arguments of a call resolve to the same, so the tool sees and answers the same. -/
theorem outlasts_call (sameTools : left.registry = right.registry)
    (sameMode : left.dryRun = right.dryRun) {call : Call}
    (alive : ∀ name ∈ (Statement.call call).names, dead name = false) :
    OutlastsAction dead (Machine.runCall left call) (Machine.runCall right call) := by
  intro full erased shadows
  rw [Statement.names, List.forall_mem_append] at alive
  have captured : ∀ name ∈ call.capture, dead name = false :=
    fun name among => alive.2 name (Option.mem_toList.mpr among)
  have args : Expr.resolveEntries full.vars call.args = Expr.resolveEntries erased.vars call.args :=
    Expr.resolveEntries_congr fun name among => shadows.get?_alive (alive.1 name among)
  cases known : Entries.get? left.registry call.name with
  | none =>
    rw [Machine.runCall_unknown known, Machine.runCall_unknown (sameTools ▸ known)]
    exact .same shadows
  | some tool =>
    cases dry : left.dryRun with
    | true =>
      have announced : Shadows dead (full.note (.calling call.name call.place true))
          (erased.note (.calling call.name call.place true)) := shadows.note (by rintro entry ⟨⟩)
      rw [Machine.runCall_dry known dry, Machine.runCall_dry (sameTools ▸ known) (sameMode ▸ dry),
        args]
      exact .same (announced.conclude captured _ _)
    | false =>
      have answer : erased.answer call tool = full.answer call tool := by
        rw [Machine.answer, Machine.answer, args, shadows.memories]
      have heard : Shadows dead (full.answered call tool) (erased.answered call tool) := by
        have announced : Shadows dead (full.note (.calling call.name call.place false))
            (erased.note (.calling call.name call.place false)) :=
          shadows.note (by rintro entry ⟨⟩)
        simp only [Machine.answered, args, shadows.memories]
        refine Shadows.note ?_ (by rintro entry ⟨⟩)
        exact { announced with memories := rfl }
      rw [Machine.runCall_live known dry, Machine.runCall_live (sameTools ▸ known) (sameMode ▸ dry),
        answer, args]
      cases full.answer call tool with
      | error error => exact .same heard
      | ok result => exact .same (heard.conclude captured _ _)

/-- The condition looks up no dead name, so both runs take the same branch. -/
theorem outlasts_choose {condition : Condition}
    (alive : ∀ name ∈ condition.names, dead name = false) {yes no yes' no' : Action σ}
    (first : OutlastsAction dead yes yes') (other : OutlastsAction dead no no') :
    OutlastsAction dead (.choose condition yes no) (.choose condition yes' no') := by
  intro full erased shadows
  have same : condition.holds full.vars = condition.holds erased.vars :=
    Condition.holds_congr fun name among => shadows.get?_alive (alive name among)
  have noted : Shadows dead
      (full.note (.traced (.branched condition (condition.holds erased.vars))))
      (erased.note (.traced (.branched condition (condition.holds erased.vars)))) := by
    refine shadows.note ?_
    rintro entry ⟨⟩
    rfl
  simp only [Action.choose, same]
  split
  · exact first noted
  · exact other noted

theorem outlasts_enter {var : String} (alive : dead var = false) (index : Nat) (item : Value) :
    OutlastsAction dead (Action.enter var index item : Action σ) (.enter var index item) := by
  intro full erased shadows
  refine .same ((shadows.define alive item).note ?_)
  rintro entry ⟨⟩
  rfl

/-- By induction on the items left. Each round counts a step in both runs. -/
theorem outlasts_iterate {var : String} (alive : dead var = false) {body body' : Action σ}
    (bodies : OutlastsAction dead body body') (index : Nat) (items : List Value) :
    OutlastsAction dead (Machine.iterate left var body index items)
      (Machine.iterate right var body' index items) := by
  induction items generalizing index with
  | nil =>
    intro full erased shadows
    exact .same shadows
  | cons item items ih =>
    rw [Machine.iterate_cons, Machine.iterate_cons]
    have entered : OutlastsAction dead
        ((Action.check (Machine.checkpoint left)).andThen (.enter var index item))
        ((Action.check (Machine.checkpoint right)).andThen (.enter var index item)) :=
      outlasts_andThen outlasts_checkpoint (outlasts_enter alive index item)
    exact outlasts_andThen (outlasts_andThen entered bodies) (ih (index + 1))

/-- The loop variable is no dead one, so both machines give it back the same value. -/
theorem outlasts_loop {var : String} {iterable : Expr} (alive : dead var = false)
    (aliveIterable : ∀ name ∈ iterable.names, dead name = false)
    {rounds rounds' : List Value → Action σ}
    (outlasts : ∀ items, OutlastsAction dead (rounds items) (rounds' items)) :
    OutlastsAction dead (.loop var iterable rounds) (.loop var iterable rounds') := by
  intro full erased shadows
  have opened : Shadows dead (full.note (.looping var)) (erased.note (.looping var)) :=
    shadows.note (by rintro entry ⟨⟩)
  simp only [Action.loop, shadows.resolve aliveIterable]
  split
  · next items _ =>
    rw [shadows.get?_alive alive]
    have step := outlasts items opened
    rcases ran : rounds items (full.note (.looping var)) with ⟨flow, ended⟩
    rcases ran' : rounds' items (erased.note (.looping var)) with ⟨flow', ended'⟩
    rw [ran, ran'] at step
    cases step with
    | cut => exact .cut
    | same shadows => exact .same (shadows.restore alive _)
  · exact .same opened

mutual

/-- By recursion on the statements. A dead statement of a block takes a step of the full run only. -/
theorem outlasts_statement (sameTools : left.registry = right.registry)
    (sameMode : left.dryRun = right.dryRun) : ∀ (statement : Statement),
    (∀ name ∈ statement.names, dead name = false) → statement.isDead dead = false →
    OutlastsAction dead (Machine.runStatement left statement)
      (Machine.runStatement right (statement.erase dead))
  | .assign name value, alive, kept => by
    intro full erased shadows
    rw [Statement.names] at alive
    rw [Statement.erase, Machine.runStatement, Machine.runStatement, shadows.resolve alive]
    refine .same ((shadows.define kept _).note ?_)
    rintro entry ⟨⟩
    exact kept
  | .call request, alive, _ => by
    rw [Statement.erase, Machine.runStatement_call, Machine.runStatement_call]
    exact outlasts_call sameTools sameMode alive
  | .branch condition yes no, alive, _ => by
    rw [Statement.names, List.forall_mem_append, List.forall_mem_append] at alive
    rw [Statement.erase, Machine.runStatement_branch, Machine.runStatement_branch]
    exact outlasts_choose alive.1 (outlasts_block sameTools sameMode yes alive.2.1)
      (outlasts_otherwise sameTools sameMode no alive.2.2)
  | .loop var iterable body, alive, _ => by
    rw [Statement.names, List.forall_mem_cons, List.forall_mem_append] at alive
    rw [Statement.erase, Machine.runStatement_loop, Machine.runStatement_loop]
    exact outlasts_loop alive.1 alive.2.1
      (outlasts_iterate alive.1 (outlasts_block sameTools sameMode body alive.2.2) 0)
  | .finish value, alive, _ => by
    intro full erased shadows
    rw [Statement.names] at alive
    rw [Statement.erase, Machine.runStatement, Machine.runStatement, shadows.resolve alive]
    refine .same (shadows.note ?_)
    rintro entry ⟨⟩
    rfl
  | .blank, _, kept => by cases kept

/-- Statements without their dead ones last at least as long. -/
theorem outlasts_block (sameTools : left.registry = right.registry)
    (sameMode : left.dryRun = right.dryRun) : ∀ (statements : List Statement),
    (∀ name ∈ Statement.namesOfAll statements, dead name = false) →
    OutlastsAction dead (Machine.runBlock left statements)
      (Machine.runBlock right (Statement.eraseAll dead statements))
  | [], _ => by
    intro full erased shadows
    rw [Statement.eraseAll, Machine.runBlock_nil, Machine.runBlock_nil]
    exact .same shadows
  | first :: rest, alive => by
    rw [Statement.namesOfAll, List.forall_mem_append] at alive
    have others := outlasts_block sameTools sameMode rest alive.2
    rw [Statement.eraseAll, Machine.runBlock_cons]
    split
    · next isDead =>
      -- The other run goes on with the rest at once, as after an action that does nothing.
      exact outlasts_andThen (outlasts_dead isDead) others
    · next kept =>
      have ran : OutlastsAction dead
          ((Action.check (Machine.checkpoint left)).andThen (Machine.runStatement left first))
          ((Action.check (Machine.checkpoint right)).andThen
            (Machine.runStatement right (first.erase dead))) :=
        outlasts_andThen outlasts_checkpoint
          (outlasts_statement sameTools sameMode first alive.1 (Bool.eq_false_iff.mpr kept))
      rw [Machine.runBlock_cons]
      exact outlasts_andThen (outlasts_andThen ran outlasts_checkDeadline) others

theorem outlasts_otherwise (sameTools : left.registry = right.registry)
    (sameMode : left.dryRun = right.dryRun) : ∀ (no : Option (List Statement)),
    (∀ name ∈ Statement.namesOfOtherwise no, dead name = false) →
    OutlastsAction dead (Machine.runBranch left no)
      (Machine.runBranch right (Statement.eraseOtherwise dead no))
  | none, _ => by
    intro full erased shadows
    rw [Statement.eraseOtherwise, Machine.runBranch_none, Machine.runBranch_none]
    exact .same shadows
  | some statements, alive => by
    rw [Statement.namesOfOtherwise] at alive
    rw [Statement.eraseOtherwise, Machine.runBranch_some, Machine.runBranch_some]
    exact outlasts_block sameTools sameMode statements alive

end

end Outlasts

namespace Plan

/-- Dead statements can be erased. Let no dead name be one that the plan looks up, captures a result
in or loops over. If the run of the plan, without a deadline, is not halted by its step limit, then
neither is the run of the plan without its blank lines and its assignments to dead names, which takes
no more steps. It ends in the same way, calls the same tools with the same arguments and answers, in
the same order, and leaves them the same memories; its trace lacks only the assignments to dead names,
and its variables only these names. -/
theorem run_erased (plan : Plan) (dead : String → Bool) (registry : Registry σ) (options : Options)
    (clock erasedClock : Clock) (memories : Memories σ)
    (alive : ∀ name ∈ plan.names, dead name = false) (untimed : options.deadlineMs = none)
    (enough : ∀ limit,
      (plan.run registry options clock memories).1.halt? ≠ some (.stepLimit limit)) :
    let full := plan.run registry options clock memories
    let erased := (plan.erase dead).run registry options erasedClock memories
    (∀ limit, erased.1.halt? ≠ some (.stepLimit limit)) ∧
      erased.1.steps ≤ full.1.steps ∧ erased.1.invocations = full.1.invocations ∧
      erased.2 = full.2 ∧ erased.1.flow = full.1.flow ∧
      erased.1.trace = full.1.trace.filter (!·.isDead dead) ∧
      ∀ name, Entries.get? erased.1.vars name =
        if dead name then none else Entries.get? full.1.vars name := by
  have start : Shadows dead (Machine.start options memories) (Machine.start options memories) :=
    { vars := fun _ => (ite_self none).symm, maxSteps := rfl
      consumed := Nat.zero_le _, untimed := ⟨untimed, untimed⟩, trace := rfl, invocations := rfl
      memories := rfl }
  have outlasts : Outlasts dead
      (Machine.runBlock ⟨registry, options.dryRun, clock⟩ plan (Machine.start options memories))
      (Machine.runBlock ⟨registry, options.dryRun, erasedClock⟩ (plan.erase dead)
        (Machine.start options memories)) := by
    refine outlasts_block ?_ ?_ plan alive start
    · rfl
    · rfl
  -- Both outcomes get names here, as the runs are stated once through their reports.
  rcases ran : Machine.runBlock ⟨registry, options.dryRun, clock⟩ plan
    (Machine.start options memories) with ⟨flow, machine⟩
  rcases ranErased : Machine.runBlock ⟨registry, options.dryRun, erasedClock⟩ (plan.erase dead)
    (Machine.start options memories) with ⟨flow', machine'⟩
  have told : plan.run registry options clock memories = Report.ofOutcome (flow, machine) :=
    congrArg Report.ofOutcome ran
  have toldErased : (plan.erase dead).run registry options erasedClock memories =
      Report.ofOutcome (flow', machine') := congrArg Report.ofOutcome ranErased
  rw [ran, ranErased] at outlasts
  rw [told] at enough ⊢
  rw [toldErased]
  cases outlasts with
  | cut => exact absurd rfl (enough _)
  | same shadows =>
    refine ⟨enough, ?_, ?_, shadows.memories, rfl, ?_, shadows.vars⟩
    · exact Nat.le_trans shadows.consumed (Nat.min_le_left ..)
    · rw [Report.ofOutcome_invocations, Report.ofOutcome_invocations]
      exact congrArg List.reverse shadows.invocations
    · rw [Report.ofOutcome_trace, Report.ofOutcome_trace, List.filter_reverse]
      exact congrArg List.reverse shadows.trace

/-- Two rounds that call the counting tool, with blank lines and a variable that nothing reads. -/
def paddedTicks : Plan :=
  [.blank, .loop "i" (.array [.null, .null])
     [.assign "spare" (.var "i" []), .blank, .call ⟨"tick", [], some "last", .start⟩],
   .assign "spare" (.var "last" []), .finish (.var "last" [])]

/-- The second plan lacks two blank lines and two assignments. What its tool sees is the same. -/
theorem run_erased_paddedTicks :
    let full := Plan.run paddedTicks ticking ⟨20, none, false⟩ Clock.ticking ⟨0, []⟩
    let erased := Plan.run (Plan.erase (· == "spare") paddedTicks) ticking ⟨20, none, false⟩
      Clock.ticking ⟨0, []⟩
    (∀ name ∈ Plan.names paddedTicks, (name == "spare") = false) ∧
      (∀ limit, full.1.halt? ≠ some (.stepLimit limit)) ∧
      full.1.steps = 12 ∧ full.1.trace.length = 8 ∧ full.1.returned?.map Json.compact = some "1" ∧
      erased.1.steps = 6 ∧ erased.1.trace.length = 5 ∧
      erased.1.returned?.map Json.compact = some "1" ∧
      Entries.get? erased.1.vars "spare" = none ∧ erased.2.get 0 = 2 := by
  intro full erased
  have alive : ∀ name ∈ Plan.names paddedTicks, (name == "spare") = false := by decide
  have ended : full.1.halt? = none := by decide +kernel
  have enough : ∀ limit, full.1.halt? ≠ some (.stepLimit limit) := by
    rw [ended]
    exact nofun
  have steps : full.1.steps = 12 := by decide +kernel
  have fewer : erased.1.steps = 6 := by decide +kernel
  have entries : full.1.trace.length = 8 := by decide +kernel
  have returned : full.1.returned?.map Json.compact = some "1" := by decide +kernel
  have kept : (full.1.trace.filter (!·.isDead (· == "spare"))).length = 5 := by decide +kernel
  have left : full.2.get 0 = 2 := by decide +kernel
  obtain ⟨-, -, -, sameLeft, sameFlow, sameTrace, sameVars⟩ := run_erased paddedTicks
    (· == "spare") ticking ⟨20, none, false⟩ Clock.ticking Clock.ticking ⟨0, []⟩ alive rfl enough
  have sameReturned : erased.1.returned? = full.1.returned? := by
    rw [Report.returned?, Report.returned?, sameFlow]
  refine ⟨alive, enough, steps, entries, returned, fewer, ?_, ?_, ?_, ?_⟩
  · exact (congrArg List.length sameTrace).trans kept
  · rw [sameReturned]
    exact returned
  · rw [sameVars, if_pos (by decide)]
  · rw [sameLeft]
    exact left

end Plan

end ToolPlan
