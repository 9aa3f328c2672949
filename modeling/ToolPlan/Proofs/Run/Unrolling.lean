import ToolPlan.Proofs.Plan.Literals
import ToolPlan.Proofs.Run.Variables

/-!
Loops without loops. The items of a loop are fixed when it begins, whatever its body does to the
variables, so a loop may be written out: for each item the assignment of its literal to the loop
variable, and then the statements of the body. Both ways keep step with each other, round by round,
on machines of which the one with the loop has counted one step more (`Ahead`): the body does the
same on both (`keeps_alongside`), and a round of the loop differs from the statements written out
only in the entry that begins it (`unrolls_iterate`). What remains of the loop is the step that it
takes itself and that its variable is given back at the end (`Machine.loop_unrolls`).
-/

namespace ToolPlan

variable {σ : Type}

/-- The statements that a loop over the given items stands for. -/
def Statement.unrolled (var : String) (body : List Statement) (items : List Value) :
    List Statement :=
  items.flatMap fun item => .assign var item.literal :: body

/-! ### Actions in a row -/

namespace Action

theorem skip_andThen (action : Action σ) : skip.andThen action = action := rfl

/-- Doing nothing afterwards changes nothing. -/
theorem andThen_skip (action : Action σ) : action.andThen skip = action := by
  funext machine
  rcases ran : action machine with ⟨flow, after⟩
  by_cases passed : flow = .next
  · subst passed
    exact andThen_next ran
  · exact andThen_stop ran passed

/-- So a block may be cut anywhere. -/
theorem andThen_assoc (first second third : Action σ) :
    (first.andThen second).andThen third = first.andThen (second.andThen third) := by
  funext machine
  rcases ran : first machine with ⟨flow, after⟩
  by_cases passed : flow = .next
  · subst passed
    rw [andThen_next ran, andThen, andThen_next ran]
    rfl
  · rw [andThen_stop ran passed, andThen_stop (andThen_stop ran passed) passed]

end Action

/-- Statements one after another run as one block. -/
theorem Machine.runBlock_append (setting : Setting σ) (front rest : List Statement) :
    runBlock setting (front ++ rest) = Action.andThen (runBlock setting front)
      (runBlock setting rest) := by
  induction front with
  | nil => rw [List.nil_append, runBlock_nil, Action.skip_andThen]
  | cons statement front ih =>
    rw [List.cons_append, runBlock_cons, ih, runBlock_cons]
    exact (Action.andThen_assoc ..).symm

/-! ### Machines one step apart -/

/-- The machines agree on the variables and the memories of the tools, and the first has counted one
step more, as far as the counter goes. There is no deadline. -/
structure Ahead (first second : Machine σ) : Prop where
  vars : first.vars = second.vars
  memories : first.memories = second.memories
  maxSteps : first.budget.maxSteps = second.budget.maxSteps
  consumed : first.budget.consumed = min (second.budget.consumed + 1) Budget.counterMax
  untimed : first.budget.deadlineMs = none ∧ second.budget.deadlineMs = none

namespace Ahead

variable {first second : Machine σ}

theorem note (ahead : Ahead first second) (event event' : Event) :
    Ahead (first.note event) (second.note event') :=
  { ahead with }

theorem define (ahead : Ahead first second) (name : String) (value : Value) :
    Ahead (first.define name value) (second.define name value) :=
  { ahead with vars := congrArg (Entries.insert · name value) ahead.vars }

theorem restore (ahead : Ahead first second) (var : String) (saved : Option Value) :
    Ahead (first.restore var saved) (second.restore var saved) := by
  cases saved with
  | some value => exact ahead.define var value
  | none => exact { ahead with vars := congrArg (Entries.remove · var) ahead.vars }

theorem conclude (ahead : Ahead first second) (call : Call) (args : Entries Value)
    (result : Value) : Ahead (first.conclude call args result)
      (second.conclude call args result) := by
  simp only [Machine.conclude]
  cases call.capture with
  | none => exact ahead.note _ _
  | some name => exact (ahead.define name result).note _ _

/-- Both machines have the same memories, so their tools answer the same. -/
theorem answered (ahead : Ahead first second) (call : Call) (tool : Tool σ) :
    Ahead (first.answered call tool) (second.answered call tool) := by
  have same : (tool.invoke (.map (Expr.resolveEntries first.vars call.args)) first.memories) =
      tool.invoke (.map (Expr.resolveEntries second.vars call.args)) second.memories := by
    rw [ahead.vars, ahead.memories]
  exact { ahead with memories := congrArg Prod.snd same }

/-- Both count a step. -/
theorem counted (ahead : Ahead first second) (setting : Setting σ) :
    Ahead (first.checkpoint setting).2 (second.checkpoint setting).2 := by
  have consumed := ahead.consumed
  refine { ahead with maxSteps := ahead.maxSteps, consumed := ?_, untimed := ahead.untimed }
  simp only [Machine.checkpoint, Machine.note, Budget.checkpoint, Budget.count]
  omega

end Ahead

/-! ### The same on both machines -/

/-- From machines one step apart, the first was halted by its step limit, or both came to the same
end, one step apart, and noted the same events on their way. -/
inductive Alongside (first second : Machine σ) : Flow × Machine σ → Flow × Machine σ → Prop where
  | cut {limit machine other} :
      Alongside first second (.halted (.stepLimit limit), machine) other
  | same {flow first' second'} (events : List Event) : Ahead first' second' →
      first'.journal = events ++ first.journal → second'.journal = events ++ second.journal →
      Alongside first second (flow, first') (flow, second')

/-- The actions do the same on machines one step apart. -/
def AlongsideAction (left right : Action σ) : Prop :=
  ∀ ⦃first second : Machine σ⦄, Ahead first second → Alongside first second (left first)
    (right second)

section Alongside

variable {setting : Setting σ} {first second : Machine σ}

theorem Alongside.restore {left right : Flow × Machine σ}
    (alongside : Alongside first second left right) (var : String) (saved : Option Value) :
    Alongside first second (left.1, left.2.restore var saved)
      (right.1, right.2.restore var saved) := by
  cases alongside with
  | cut => exact .cut
  | same events ahead journal journal' =>
    exact .same events (ahead.restore var saved) (by rwa [Machine.restore_journal])
      (by rwa [Machine.restore_journal])

/-- Both have noted the same events before. -/
theorem Alongside.after {middle middle' : Machine σ} {left right : Flow × Machine σ}
    (alongside : Alongside middle middle' left right) (events : List Event)
    (grown : middle.journal = events ++ first.journal)
    (grown' : middle'.journal = events ++ second.journal) :
    Alongside first second left right := by
  cases alongside with
  | cut => exact .cut
  | same more ahead journal journal' =>
    refine .same (more ++ events) ahead ?_ ?_
    · rw [journal, grown, List.append_assoc]
    · rw [journal', grown', List.append_assoc]

/-- If the first machine is halted by its limit, it stays so. Otherwise both go on, one step apart. -/
theorem alongside_andThen {before after before' after' : Action σ}
    (alongside : AlongsideAction before before') (later : AlongsideAction after after') :
    AlongsideAction (before.andThen after) (before'.andThen after') := by
  intro first second ahead
  have step := alongside ahead
  rcases ran : before first with ⟨flow, middle⟩
  rcases ran' : before' second with ⟨flow', middle'⟩
  rw [ran, ran'] at step
  cases step with
  | cut =>
    rw [Action.andThen_stop ran nofun]
    exact .cut
  | same events ahead journal journal' =>
    by_cases passed : flow = .next
    · subst passed
      rw [Action.andThen_next ran, Action.andThen_next ran']
      exact (later ahead).after events journal journal'
    · rw [Action.andThen_stop ran passed, Action.andThen_stop ran' passed]
      exact .same events ahead journal journal'

/-- Where the machine ahead may take a step, the other one may take it as well. -/
theorem checkpoint_ahead (setting : Setting σ) (ahead : Ahead first second) :
    (∃ limit machine, Action.check (Machine.checkpoint setting) first =
      (.halted (.stepLimit limit), machine)) ∨
    (Action.check (Machine.checkpoint setting) first = (.next, (first.checkpoint setting).2) ∧
      Action.check (Machine.checkpoint setting) second =
        (.next, (second.checkpoint setting).2)) := by
  have limits := ahead.maxSteps
  have fewer : second.budget.count.consumed ≤ first.budget.count.consumed := by
    have consumed := ahead.consumed
    simp only [Budget.count]
    omega
  rw [Machine.checkpoint_untimed setting ahead.untimed.1,
    Machine.checkpoint_untimed setting ahead.untimed.2]
  split
  · exact .inl ⟨_, _, rfl⟩
  · rw [if_neg (by omega)]
    exact .inr ⟨rfl, rfl⟩

/-- The first machine comes to its limit a step earlier; below it, both count one. -/
theorem alongside_checkpoint (setting : Setting σ) :
    AlongsideAction (.check (Machine.checkpoint setting))
      (.check (Machine.checkpoint setting)) := by
  intro first second ahead
  rcases checkpoint_ahead setting ahead with ⟨limit, machine, cut⟩ | ⟨passed, passed'⟩
  · rw [cut]
    exact .cut
  · rw [passed, passed']
    exact .same [.step] (ahead.counted setting) rfl rfl

/-- Without a deadline, looking at it only reads the clock. -/
theorem checkDeadline_untimed (setting : Setting σ) {machine : Machine σ}
    (untimed : machine.budget.deadlineMs = none) :
    Action.check (Machine.checkDeadline setting) machine =
      (.next, { machine with readings := machine.readings + 1 }) :=
  Action.check_none (Budget.checkDeadline_untimed untimed (machine.elapsed setting))

theorem alongside_checkDeadline (setting : Setting σ) :
    AlongsideAction (.check (Machine.checkDeadline setting))
      (.check (Machine.checkDeadline setting)) := by
  intro first second ahead
  rw [checkDeadline_untimed setting ahead.untimed.1, checkDeadline_untimed setting ahead.untimed.2]
  exact .same [] { ahead with } rfl rfl

theorem alongside_conclude (ahead : Ahead first second) (call : Call) (args : Entries Value)
    (result : Value) : Alongside first second (.next, first.conclude call args result)
      (.next, second.conclude call args result) := by
  refine .same [.traced (.called call.name args call.capture result)]
    (ahead.conclude call args result) ?_ ?_
  all_goals
    simp only [Machine.conclude]
    cases call.capture <;> rfl

/-- A tool of the same memory answers the same, so both calls end in the same way. -/
theorem alongside_call (setting : Setting σ) (call : Call) :
    AlongsideAction (Machine.runCall setting call) (Machine.runCall setting call) := by
  intro first second ahead
  cases known : Entries.get? setting.registry call.name with
  | none =>
    rw [Machine.runCall_unknown known, Machine.runCall_unknown known]
    exact .same [] ahead rfl rfl
  | some tool =>
    cases dry : setting.dryRun with
    | true =>
      have announced : Ahead (first.note (.calling call.name call.place true))
          (second.note (.calling call.name call.place true)) := ahead.note _ _
      rw [Machine.runCall_dry known dry, Machine.runCall_dry known dry, ahead.vars]
      exact (alongside_conclude announced call _ _).after [_] rfl rfl
    | false =>
      have heard := ahead.answered call tool
      have same : first.answer call tool = second.answer call tool := by
        rw [Machine.answer, Machine.answer, ahead.vars, ahead.memories]
      have grown := first.journal_answered call tool
      have grown' := second.journal_answered call tool
      rw [ahead.vars, same] at grown
      rw [Machine.runCall_live known dry, Machine.runCall_live known dry, same, ahead.vars]
      cases second.answer call tool with
      | error error => exact .same [_, _] heard grown grown'
      | ok result => exact (alongside_conclude heard call _ result).after [_, _] grown grown'

theorem alongside_choose (condition : Condition) {yes no yes' no' : Action σ}
    (alongside : AlongsideAction yes yes') (other : AlongsideAction no no') :
    AlongsideAction (.choose condition yes no) (.choose condition yes' no') := by
  intro first second ahead
  have noted : Ahead
      (first.note (.traced (.branched condition (condition.holds second.vars))))
      (second.note (.traced (.branched condition (condition.holds second.vars)))) :=
    ahead.note _ _
  simp only [Action.choose, ahead.vars]
  split
  · exact (alongside noted).after [_] rfl rfl
  · exact (other noted).after [_] rfl rfl

/-- Both loops find the same items, since they read the same variables. -/
theorem alongside_loop (var : String) (iterable : Expr) {rounds rounds' : List Value → Action σ}
    (alongside : ∀ items, AlongsideAction (rounds items) (rounds' items)) :
    AlongsideAction (.loop var iterable rounds) (.loop var iterable rounds') := by
  intro first second ahead
  have opened : Ahead (first.note (.looping var)) (second.note (.looping var)) := ahead.note _ _
  simp only [Action.loop, ahead.vars]
  split
  · next items _ => exact ((alongside items opened).restore var _).after [_] rfl rfl
  · exact .same [_] opened rfl rfl

/-- Every plan does the same on machines one step apart. -/
theorem keeps_alongside (setting : Setting σ) : Keeps setting setting AlongsideAction where
  skip := by
    intro first second ahead
    exact .same [] ahead rfl rfl
  andThen := alongside_andThen
  checkpoint := alongside_checkpoint setting
  checkDeadline := alongside_checkDeadline setting
  assign name value := by
    intro first second ahead
    rw [Machine.runStatement, Machine.runStatement, ahead.vars]
    exact .same [_] ((ahead.define name _).note _ _) rfl rfl
  call := alongside_call setting
  finish value := by
    intro first second ahead
    rw [Machine.runStatement, Machine.runStatement, ahead.vars]
    exact .same [_] (ahead.note _ _) rfl rfl
  blank := by
    intro first second ahead
    exact .same [_] (ahead.note _ _) rfl rfl
  choose := alongside_choose
  enter var index item := by
    intro first second ahead
    exact .same [_] ((ahead.define var item).note _ _) rfl rfl
  loop := alongside_loop

end Alongside

/-! ### Rounds -/

section Rounds

variable {ε ι : Type}

/-- What each of the rounds for some items left, in a row, each after the mark of its round. The
rounds are counted from `index`. -/
def inRounds (mark : Nat → Value → List ε) (index : Nat) (rounds : List (Value × List ε)) :
    List ε :=
  (rounds.zipIdx index).flatMap fun (round, count) => mark count round.1 ++ round.2

@[simp] theorem inRounds_nil (mark : Nat → Value → List ε) (index : Nat) :
    inRounds mark index [] = [] := rfl

@[simp] theorem inRounds_cons (mark : Nat → Value → List ε) (index : Nat) (item : Value)
    (left : List ε) (rounds : List (Value × List ε)) :
    inRounds mark index ((item, left) :: rounds) =
      mark index item ++ left ++ inRounds mark (index + 1) rounds := rfl

/-- A view of the rounds shows the view of each. -/
theorem filterMap_inRounds (view : ε → Option ι) (mark : Nat → Value → List ε) (index : Nat)
    (rounds : List (Value × List ε)) : (inRounds mark index rounds).filterMap view =
      inRounds (fun count item => (mark count item).filterMap view) index
        (rounds.map (Prod.map id (List.filterMap view))) := by
  induction rounds generalizing index with
  | nil => rfl
  | cons round rounds ih =>
    obtain ⟨item, left⟩ := round
    simp [ih]

/-- Events that the marks of both loops have alike are counted alike. -/
theorem countP_inRounds {test : ε → Bool} {mark mark' : Nat → Value → List ε}
    (same : ∀ count item, (mark count item).countP test = (mark' count item).countP test)
    (index : Nat) (rounds : List (Value × List ε)) :
    (inRounds mark index rounds).countP test = (inRounds mark' index rounds).countP test := by
  simp only [inRounds, List.countP_flatMap, Function.comp_def, List.countP_append, same]

end Rounds

/-- What a round notes when it begins: its step, and an entry of the trace. -/
def Event.beginning (mark : Nat → Value → TraceEntry) (index : Nat) (item : Value) : List Event :=
  [.step, .traced (mark index item)]

namespace Machine

variable {mark : Nat → Value → TraceEntry} {index : Nat} {rounds : List (Value × List Event)}
  {machine after : Machine σ}

/-- What the rounds noted shows in the trace, round by round, behind the entry that begins each. -/
theorem trace_of_rounds
    (noted : after.journal =
      (inRounds (Event.beginning mark) index rounds).reverse ++ machine.journal) :
    after.trace.reverse = machine.trace.reverse ++
      inRounds (fun count item => [mark count item]) index
        (rounds.map (Prod.map id (List.filterMap Event.traceEntry?))) := by
  rw [trace, noted, List.filterMap_append, List.filterMap_reverse, filterMap_inRounds,
    List.reverse_append, List.reverse_reverse]
  rfl

/-- No tool sees the mark of a round. -/
theorem invocations_of_rounds
    (noted : after.journal =
      (inRounds (Event.beginning mark) index rounds).reverse ++ machine.journal) :
    after.invocations = (inRounds (fun _ _ => []) index
      (rounds.map (Prod.map id (List.filterMap Event.invocation?)))).reverse ++
        machine.invocations := by
  rw [invocations, noted, List.filterMap_append, List.filterMap_reverse, filterMap_inRounds]
  rfl

/-- Whatever the mark of a round is, the round takes one step for it. -/
theorem steps_of_rounds
    (noted : after.journal =
      (inRounds (Event.beginning mark) index rounds).reverse ++ machine.journal) :
    after.steps = (inRounds (fun _ _ => [.step]) index rounds).countP Event.isStep +
      machine.steps := by
  have single : ∀ count item, (Event.beginning mark count item).countP Event.isStep =
      [Event.step].countP Event.isStep := fun _ _ => rfl
  rw [steps, noted, List.countP_append, List.countP_reverse, countP_inRounds single]
  rfl

end Machine

/-- From machines one step apart, a loop over some items and the statements written out for them:
the loop was halted by the step limit, or both came to the same end, one step apart, and noted the
same rounds on their way, up to the entry that begins a round. -/
inductive Unrolls (var : String) (index : Nat) (items : List Value) (first second : Machine σ) :
    Flow × Machine σ → Flow × Machine σ → Prop where
  | cut {limit machine other} :
      Unrolls var index items first second (.halted (.stepLimit limit), machine) other
  | same {flow first' second'} (rounds : List (Value × List Event)) :
      Ahead first' second' → rounds.map Prod.fst <+: items →
      (flow = .next → rounds.map Prod.fst = items) →
      first'.journal =
        (inRounds (Event.beginning (.iterated var)) index rounds).reverse ++ first.journal →
      second'.journal =
        (inRounds (Event.beginning fun _ => .assigned var) index rounds).reverse ++
          second.journal →
      Unrolls var index items first second (flow, first') (flow, second')

section Unrolls

variable {setting : Setting σ} {first second : Machine σ}

/-- The statement that stands for the beginning of a round, and the beginning of the round. -/
theorem enter_ahead (setting : Setting σ) (var : String) (index : Nat) (item : Value)
    (ahead : Ahead first second) :
    (∃ limit machine, (Action.check (Machine.checkpoint setting)).andThen
      (.enter var index item) first = (.halted (.stepLimit limit), machine)) ∨
    ∃ first' second', Ahead first' second' ∧
      (Action.check (Machine.checkpoint setting)).andThen (.enter var index item) first =
        (.next, first') ∧
      ((Action.check (Machine.checkpoint setting)).andThen
        (Machine.runStatement setting (.assign var item.literal))).andThen
          (.check (Machine.checkDeadline setting)) second = (.next, second') ∧
      first'.journal = [.traced (.iterated var index item), .step] ++ first.journal ∧
      second'.journal = [.traced (.assigned var item), .step] ++ second.journal := by
  rcases checkpoint_ahead setting ahead with ⟨limit, machine, cut⟩ | ⟨passed, passed'⟩
  · exact .inl ⟨limit, machine, Action.andThen_stop cut nofun⟩
  · right
    have counted := ahead.counted setting
    have assigned : Machine.runStatement setting (.assign var item.literal)
        (second.checkpoint setting).2 = (.next, ((second.checkpoint setting).2.define var item).note
          (.traced (.assigned var item))) := by
      rw [Machine.runStatement, Value.resolve_literal]
    have written := (Action.andThen_next ((Action.andThen_next passed').trans assigned)).trans
      (checkDeadline_untimed setting counted.untimed.2)
    refine ⟨_, _, ?_, Action.andThen_next passed, written, rfl, rfl⟩
    exact { counted.define var item with }

/-- Both have made a round before. -/
theorem Unrolls.after_round {var : String} {index : Nat} {item : Value} {items : List Value}
    {middle middle' : Machine σ} {left right : Flow × Machine σ}
    (unrolls : Unrolls var (index + 1) items middle middle' left right) {events : List Event}
    (grown : middle.journal =
      events ++ [.traced (.iterated var index item), .step] ++ first.journal)
    (grown' : middle'.journal =
      events ++ [.traced (.assigned var item), .step] ++ second.journal) :
    Unrolls var index (item :: items) first second left right := by
  cases unrolls with
  | cut => exact .cut
  | same rounds ahead begun all journal journal' =>
    refine .same ((item, events.reverse) :: rounds) ahead ?_ ?_ ?_ ?_
    · exact List.cons_prefix_cons.mpr ⟨rfl, begun⟩
    · intro passed
      exact congrArg (item :: ·) (all passed)
    · rw [journal, grown]
      simp [Event.beginning]
    · rw [journal', grown']
      simp [Event.beginning]

/-- The rounds of a loop, and the statements written out for them. -/
theorem unrolls_iterate (setting : Setting σ) (var : String) (body : List Statement) (index : Nat)
    (items : List Value) (ahead : Ahead first second) :
    Unrolls var index items first second
      (Machine.iterate setting var (Machine.runBlock setting body) index items first)
      (Machine.runBlock setting (Statement.unrolled var body items) second) := by
  induction items generalizing index first second with
  | nil =>
    rw [Machine.iterate_nil, Statement.unrolled, List.flatMap_nil, Machine.runBlock_nil]
    exact .same [] ahead (List.prefix_refl _) (fun _ => rfl) rfl rfl
  | cons item items ih =>
    have written : Statement.unrolled var body (item :: items) =
        (.assign var item.literal :: body) ++ Statement.unrolled var body items := rfl
    rw [Machine.iterate_cons, written, Machine.runBlock_append, Machine.runBlock_cons]
    rcases enter_ahead setting var index item ahead with
      ⟨limit, machine, cut⟩ | ⟨entered, assigned, level, enter, assign, grown, grown'⟩
    · rw [Action.andThen_stop (Action.andThen_stop cut nofun) nofun]
      exact .cut
    have round := (keeps_alongside setting).block body level
    rcases ran : Machine.runBlock setting body entered with ⟨flow, after⟩
    rcases ran' : Machine.runBlock setting body assigned with ⟨flow', after'⟩
    rw [ran, ran'] at round
    replace ran := (Action.andThen_next enter).trans ran
    replace ran' := (Action.andThen_next assign).trans ran'
    cases round with
    | cut =>
      rw [Action.andThen_stop ran nofun]
      exact .cut
    | same events apart journal journal' =>
      rw [grown, ← List.append_assoc] at journal
      rw [grown', ← List.append_assoc] at journal'
      by_cases passed : flow = .next
      · subst passed
        rw [Action.andThen_next ran, Action.andThen_next ran']
        exact (ih (index + 1) apart).after_round journal journal'
      · -- The run ends in this round, and the items left make no difference.
        rw [Action.andThen_stop ran passed, Action.andThen_stop ran' passed]
        have unrolled : Unrolls var (index + 1) items after after' (flow, after) (flow, after') :=
          .same [] apart List.nil_prefix (absurd · passed) rfl rfl
        exact unrolled.after_round journal journal'

theorem Unrolls.untimed {var : String} {index : Nat} {items : List Value}
    {left right : Flow × Machine σ} (unrolls : Unrolls var index items first second left right)
    (passed : left.1 = .next) : left.2.budget.deadlineMs = none := by
  cases unrolls with
  | cut => cases passed
  | same rounds ahead => exact ahead.untimed.1

end Unrolls

/-! ### The whole loop -/

/-- The steps of a report are the steps that its journal tells of. -/
theorem Report.countP_ofOutcome (outcome : Flow × Machine σ) :
    (ofOutcome outcome).1.journal.countP Event.isStep = outcome.2.steps := by
  rw [ofOutcome, List.countP_reverse]
  rfl

namespace Machine

variable {setting : Setting σ} {machine : Machine σ}

/-- Where the step of a loop is counted, the other machine has counted one step less. -/
theorem ahead_looping (setting : Setting σ) (untimed : machine.budget.deadlineMs = none)
    (var : String) : Ahead ((machine.checkpoint setting).2.note (.looping var)) machine where
  vars := rfl
  memories := rfl
  maxSteps := rfl
  consumed := rfl
  untimed := ⟨untimed, untimed⟩

/-- Opening the loop is the step that the statements written out do not have. -/
theorem steps_looping (setting : Setting σ) (var : String) :
    ((machine.checkpoint setting).2.note (.looping var)).steps = machine.steps + 1 := by
  rw [steps, note, List.countP_cons_of_neg Bool.false_ne_true]
  exact List.countP_cons_of_pos rfl

/-- A block of one statement ends as the statement does. The deadline is looked at once more after
it, which does not show in the report if there is none. -/
theorem report_single {statement : Statement} {counted after : Machine σ} {flow : Flow}
    (passed : Action.check (checkpoint setting) machine = (.next, counted))
    (ran : runStatement setting statement counted = (flow, after))
    (untimed : flow = .next → after.budget.deadlineMs = none) :
    Report.ofOutcome (runBlock setting [statement] machine) = Report.ofOutcome (flow, after) := by
  have ended := (Action.andThen_next passed).trans ran
  rw [runBlock_cons, runBlock_nil, Action.andThen_skip]
  by_cases goesOn : flow = .next
  · subst goesOn
    rw [Action.andThen_next ended, checkDeadline_untimed setting (untimed rfl)]
    rfl
  · rw [Action.andThen_stop ended goesOn]

/-- A block that the step limit does not halt passes its first checkpoint. -/
theorem checkpoint_of_unlimited {statement : Statement} {rest : List Statement}
    (untimed : machine.budget.deadlineMs = none)
    (unlimited : ∀ limit, (Report.ofOutcome
      (runBlock setting (statement :: rest) machine)).1.halt? ≠ some (.stepLimit limit)) :
    Action.check (checkpoint setting) machine = (.next, (machine.checkpoint setting).2) := by
  have checked := checkpoint_untimed setting untimed
  rw [runBlock_cons] at unlimited
  split at checked
  · have stopped : (Flow.halted (.stepLimit machine.budget.maxSteps)) ≠ .next := nofun
    have cut := unlimited machine.budget.maxSteps
    rw [Action.andThen_stop (Action.andThen_stop (Action.andThen_stop checked stopped) stopped)
      stopped] at cut
    exact absurd rfl cut
  · exact checked

/-- A loop that passes its checkpoint makes its rounds and gives its variable back. -/
theorem report_loop (var : String) {iterable : Expr} (body : List Statement) {items : List Value}
    (untimed : machine.budget.deadlineMs = none)
    (resolved : iterable.resolve machine.vars = .array items)
    (passed : Action.check (checkpoint setting) machine = (.next, (machine.checkpoint setting).2)) :
    let outcome := iterate setting var (runBlock setting body) 0 items
      ((machine.checkpoint setting).2.note (.looping var))
    Report.ofOutcome (runBlock setting [.loop var iterable body] machine) =
      Report.ofOutcome (outcome.1, outcome.2.restore var (Entries.get? machine.vars var)) := by
  intro outcome
  have looped : runStatement setting (.loop var iterable body) (machine.checkpoint setting).2 =
      (outcome.1, outcome.2.restore var (Entries.get? machine.vars var)) := by
    have same : iterable.resolve (machine.checkpoint setting).2.vars = .array items := resolved
    rw [runStatement_loop]
    simp only [Action.loop, same]
    rfl
  apply report_single passed looped
  rw [restore_budget]
  exact (unrolls_iterate setting var body 0 items (ahead_looping setting untimed var)).untimed

/-- A loop is its statements written out over the items that it begins with. Without a deadline, and
unless the step limit halts the loop, both end in the same way; tools see the same calls; the traces
are the same but for the entries that begin the rounds of this loop, which count from 0; all other
variables have the same values; and the loop takes one step more, which shows as long as the counter
has not come to its greatest value. -/
theorem loop_unrolls (setting : Setting σ) (machine : Machine σ) (var : String) (iterable : Expr)
    (body : List Statement) (items : List Value) (untimed : machine.budget.deadlineMs = none)
    (resolved : iterable.resolve machine.vars = .array items)
    (unlimited : ∀ limit, (Report.ofOutcome
      (runBlock setting [.loop var iterable body] machine)).1.halt? ≠ some (.stepLimit limit)) :
    let looped := Report.ofOutcome (runBlock setting [.loop var iterable body] machine)
    let unrolled := Report.ofOutcome
      (runBlock setting (Statement.unrolled var body items) machine)
    looped.1.flow = unrolled.1.flow ∧
      looped.1.invocations = unrolled.1.invocations ∧ looped.2 = unrolled.2 ∧
      (∃ rounds : List (Value × List TraceEntry), rounds.map Prod.fst <+: items ∧
        (looped.1.flow = .next → rounds.map Prod.fst = items) ∧
        looped.1.trace = machine.trace.reverse ++
          inRounds (fun index item => [.iterated var index item]) 0 rounds ∧
        unrolled.1.trace = machine.trace.reverse ++
          inRounds (fun _ item => [.assigned var item]) 0 rounds) ∧
      (∀ name, name ≠ var →
        Entries.get? looped.1.vars name = Entries.get? unrolled.1.vars name) ∧
      looped.1.journal.countP Event.isStep = unrolled.1.journal.countP Event.isStep + 1 ∧
      looped.1.steps = min (unrolled.1.steps + 1) Budget.counterMax := by
  -- The loop is opened by a step of its own, and from there on it is one step ahead.
  have passed := checkpoint_of_unlimited untimed unlimited
  have report := report_loop var body untimed resolved passed
  have unrolls := unrolls_iterate setting var body 0 items (ahead_looping setting untimed var)
  generalize iterate setting var (runBlock setting body) 0 items
    ((machine.checkpoint setting).2.note (.looping var)) = outcome at *
  generalize runBlock setting [.loop var iterable body] machine = looped at *
  generalize runBlock setting (Statement.unrolled var body items) machine = outcome' at *
  cases unrolls with
  | cut => exact absurd (congrArg (·.1.halt?) report) (unlimited _)
  | @same flow after after' rounds ahead begun all journal journal' =>
    have unseen : after.invocations = after'.invocations :=
      (invocations_of_rounds journal).trans (invocations_of_rounds journal').symm
    have traced := trace_of_rounds journal
    have stepped : after.steps = after'.steps + 1 := by
      rw [steps_of_rounds journal, steps_of_rounds journal', steps_looping, Nat.add_assoc]
    let entries := rounds.map (Prod.map id (List.filterMap Event.traceEntry?))
    have marked : entries.map Prod.fst = rounds.map Prod.fst := by
      rw [List.map_map]
      rfl
    rw [report]
    refine ⟨rfl, ?_, ?_, ⟨entries, marked ▸ begun, marked ▸ all, ?_, ?_⟩, ?_, ?_, ?_⟩
    · rw [Report.ofOutcome_invocations, Report.ofOutcome_invocations]
      exact congrArg List.reverse ((invocations_restore ..).trans unseen)
    · exact (memories_restore ..).trans ahead.memories
    · rw [Report.ofOutcome_trace]
      exact (congrArg List.reverse (trace_restore ..)).trans traced
    · rw [Report.ofOutcome_trace]
      exact trace_of_rounds journal'
    · intro name differ
      have same := get?_restore_of_ne after differ (Entries.get? machine.vars var)
      exact same.trans (congrArg (Entries.get? · name) ahead.vars)
    · rw [Report.countP_ofOutcome, Report.countP_ofOutcome]
      exact (steps_restore ..).trans stepped
    · exact (congrArg Budget.consumed (restore_budget ..)).trans ahead.consumed

/-- A state with a list of items, and with a value of the loop variable. -/
def listed : Machine Nat where
  env := ⟨[("xs", .array [.null, .bool true, .null]), ("i", .string "outer")], by decide⟩
  budget := ⟨20, none, 3⟩
  memories := ⟨0, []⟩

/-- A body that calls a tool, loops over the same variable, forgets the list of items, and returns
in the second round. -/
def searchingTick : List Statement :=
  [.branch (.compare .eq (.var "i" []) (.bool true)) [.finish (.var "last" [])] none,
   .call ⟨"tick", [("round", .var "i" [])], some "last", .start⟩,
   .loop "i" (.array [.null]) [.assign "i" (.bool true)], .assign "xs" .null]

/-- The loop and its rounds written out: the inner loop uses the same variable, the list is
forgotten after it was read, and the second round returns. -/
theorem loop_unrolls_searchingTick :
    let setting : Setting Nat := ⟨Plan.ticking, false, Clock.ticking⟩
    let looped := Report.ofOutcome
      (runBlock setting [.loop "i" (.var "xs" []) searchingTick] listed)
    let unrolled := Report.ofOutcome (runBlock setting
      (Statement.unrolled "i" searchingTick [.null, .bool true, .null]) listed)
    listed.budget.deadlineMs = none ∧
      Expr.resolve listed.vars (.var "xs" []) = .array [.null, .bool true, .null] ∧
      looped.1.halt? = none ∧ looped.1.steps = 14 ∧
      looped.1.trace.map TraceEntry.kind =
        ["FOR_ITER", "IF", "CALL", "FOR_ITER", "LET", "LET", "FOR_ITER", "IF", "RETURN"] ∧
      looped.1.flow = unrolled.1.flow ∧ looped.1.invocations = unrolled.1.invocations ∧
      Entries.get? looped.1.vars "xs" = Entries.get? unrolled.1.vars "xs" ∧
      looped.1.steps = min (unrolled.1.steps + 1) Budget.counterMax := by
  intro setting looped unrolled
  have resolved : Expr.resolve listed.vars (.var "xs" []) =
      .array [.null, .bool true, .null] := rfl
  have ended : looped.1.halt? = none := by decide +kernel
  have unlimited : ∀ limit, looped.1.halt? ≠ some (.stepLimit limit) := by
    intro limit
    rw [ended]
    exact nofun
  obtain ⟨flow, invocations, -, -, vars, -, steps⟩ := loop_unrolls setting listed "i"
    (.var "xs" []) searchingTick [.null, .bool true, .null] rfl resolved unlimited
  exact ⟨rfl, resolved, ended, by decide +kernel, by decide +kernel, flow, invocations,
    vars "xs" (by decide), steps⟩

end Machine

end ToolPlan
