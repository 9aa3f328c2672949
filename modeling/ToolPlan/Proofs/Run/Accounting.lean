import ToolPlan.Proofs.Run.Steps

/-!
What the steps of a run are spent on. A step is counted before every statement and every round of a
loop, and one that passes its check is spent on one deed: an entry of the trace, a blank line or the
opening of a loop. At most one step is owed at any time (`Action.Settles`), so the steps and the
deeds of a run that succeeds are equally many, and a run is halted by its step limit exactly if it
has counted one step more than it may (`Plan.run_steps`).
-/

namespace ToolPlan

variable {σ : Type}

/-! ### Deeds -/

namespace Event

def isBlank : Event → Bool
  | .blank => true
  | _ => false

def isLooping : Event → Bool
  | .looping _ => true
  | _ => false

/-- What a step is spent on. -/
def isDeed (event : Event) : Bool :=
  event.traceEntry?.isSome || event.isBlank || event.isLooping

/-- The deeds are the entries of the trace, the blank lines and the loops. -/
theorem countP_isDeed (journal : List Event) : journal.countP isDeed =
    (journal.filterMap traceEntry?).length + journal.countP isBlank +
      journal.countP isLooping := by
  induction journal with
  | nil => rfl
  | cons event journal ih =>
    rw [List.countP_cons, List.countP_cons, List.countP_cons, List.filterMap_cons, ih]
    cases event with
    | traced entry =>
      simp only [isDeed, traceEntry?, isBlank, isLooping, Option.isSome_some, Bool.true_or,
        List.length_cons, if_true, Bool.false_eq_true, if_false]
      omega
    | blank =>
      simp only [isDeed, traceEntry?, isBlank, isLooping, Option.isSome_none, Bool.or_true,
        Bool.true_or, if_true, Bool.false_eq_true, if_false]
      omega
    | looping var =>
      simp only [isDeed, traceEntry?, isBlank, isLooping, Bool.or_true, if_true,
        Bool.false_eq_true, if_false]
      omega
    | step => rfl
    | calling name place dry => rfl
    | invoked name args outcome => rfl

end Event

namespace Machine

def deeds (machine : Machine σ) : Nat :=
  machine.journal.countP Event.isDeed

@[simp] theorem deeds_restore (machine : Machine σ) (var : String) (saved : Option Value) :
    (machine.restore var saved).deeds = machine.deeds := by
  simp only [deeds, restore_journal]

/-- The machine is within its step limit, and so many of the steps counted are not spent yet. -/
structure Owes (limit owed : Nat) (machine : Machine σ) : Prop where
  maxSteps : machine.budget.maxSteps = limit
  within : machine.budget.consumed ≤ limit
  balance : machine.budget.consumed = machine.deeds + owed

namespace Owes

variable {limit owed : Nat} {machine other : Machine σ}

/-- Neither a step nor a deed is added. -/
theorem kept (owes : machine.Owes limit owed) (sameBudget : other.budget = machine.budget)
    (sameDeeds : other.deeds = machine.deeds) : other.Owes limit owed := by
  constructor
  · rw [sameBudget]
    exact owes.maxSteps
  · rw [sameBudget]
    exact owes.within
  · rw [sameBudget, sameDeeds]
    exact owes.balance

/-- One of the owed steps is spent. -/
theorem spent (owes : machine.Owes limit (owed + 1)) (sameBudget : other.budget = machine.budget)
    (oneMore : other.deeds = machine.deeds + 1) : other.Owes limit owed := by
  constructor
  · rw [sameBudget]
    exact owes.maxSteps
  · rw [sameBudget]
    exact owes.within
  · have balance := owes.balance
    rw [sameBudget, oneMore]
    omega

theorem restore (owes : machine.Owes limit owed) (var : String) (saved : Option Value) :
    (machine.restore var saved).Owes limit owed :=
  owes.kept (restore_budget ..) (deeds_restore ..)

/-- A call that is answered is the deed its step was counted for. -/
theorem conclude (owes : machine.Owes limit (owed + 1)) (call : Call) (args : Entries Value)
    (result : Value) : (machine.conclude call args result).Owes limit owed := by
  refine owes.spent (conclude_budget ..) ?_
  simp only [Machine.conclude]
  cases call.capture with
  | none => exact List.countP_cons_of_pos rfl
  | some name => exact List.countP_cons_of_pos rfl

end Owes

end Machine

/-! ### Actions that settle what is owed -/

/-- How the steps and the deeds stand after an action. Where the run goes on so many steps are owed,
a value that is returned leaves none, and nothing but the step limit halts a run above the limit. -/
inductive Settled (limit owed : Nat) : Flow × Machine σ → Prop where
  | next {machine} : machine.Owes limit owed → Settled limit owed (.next, machine)
  | returned {value machine} : machine.Owes limit 0 → Settled limit owed (.returned value, machine)
  | overrun {machine} : machine.budget.consumed = limit + 1 → machine.deeds ≤ limit →
      Settled limit owed (.halted (.stepLimit limit), machine)
  | halted {reason machine} : (∀ steps, reason ≠ .stepLimit steps) →
      machine.budget.consumed ≤ limit → machine.deeds ≤ machine.budget.consumed →
      Settled limit owed (.halted reason, machine)

namespace Settled

variable {limit owed : Nat}

/-- A halt that is not the step limit's, within the limit. -/
theorem of_owes {machine : Machine σ} {left : Nat} (owes : machine.Owes limit left) {reason : Halt}
    (other : ∀ steps, reason ≠ .stepLimit steps) : Settled limit owed (.halted reason, machine) := by
  have balance := owes.balance
  exact .halted other owes.within (by omega)

theorem restore {outcome : Flow × Machine σ} (settled : Settled limit owed outcome) (var : String)
    (saved : Option Value) : Settled limit owed (outcome.1, outcome.2.restore var saved) := by
  cases settled with
  | next owes => exact .next (owes.restore var saved)
  | returned owes => exact .returned (owes.restore var saved)
  | overrun passed few =>
    refine .overrun ?_ ?_
    · rw [Machine.restore_budget]
      exact passed
    · rw [Machine.deeds_restore]
      exact few
  | halted other within few =>
    refine .halted other ?_ ?_
    · rw [Machine.restore_budget]
      exact within
    · rw [Machine.restore_budget, Machine.deeds_restore]
      exact few

end Settled

/-- From a machine that owes `before` steps, the action leaves one that owes `after`. -/
def Action.Settles (limit before after : Nat) (action : Action σ) : Prop :=
  ∀ machine : Machine σ, machine.Owes limit before → Settled limit after (action machine)

namespace Action.Settles

variable {limit : Nat}

theorem skip (owed : Nat) : (Action.skip : Action σ).Settles limit owed owed :=
  fun _ owes => .next owes

theorem andThen {before between after : Nat} {first second : Action σ}
    (settles : first.Settles limit before between) (later : second.Settles limit between after) :
    (first.andThen second).Settles limit before after := by
  intro machine owes
  have settled := settles machine owes
  rcases ran : first machine with ⟨flow, ended⟩
  rw [ran] at settled
  cases settled with
  | next owes =>
    rw [Action.andThen_next ran]
    exact later ended owes
  | returned owes =>
    rw [Action.andThen_stop ran nofun]
    exact .returned owes
  | overrun passed few =>
    rw [Action.andThen_stop ran nofun]
    exact .overrun passed few
  | halted other within few =>
    rw [Action.andThen_stop ran nofun]
    exact .halted other within few

/-- A counted step is owed until it is spent. The counter does not reach its end below the limit. -/
theorem checkpoint (setting : Setting σ) (bounded : limit < Budget.counterMax) (owed : Nat) :
    (Action.check (Machine.checkpoint setting)).Settles limit owed (owed + 1) := by
  intro machine owes
  have balance := owes.balance
  have within := owes.within
  have counted : (machine.checkpoint setting).2.budget.consumed = machine.budget.consumed + 1 := by
    simp only [Machine.checkpoint, Machine.note, Budget.checkpoint, Budget.count]
    omega
  have deeds : (machine.checkpoint setting).2.deeds = machine.deeds :=
    List.countP_cons_of_neg Bool.false_ne_true
  have limits : machine.budget.count.maxSteps = limit := owes.maxSteps
  have sum : machine.budget.count.consumed = machine.budget.consumed + 1 := counted
  by_cases passed : limit < machine.budget.consumed + 1
  · have cut : (machine.checkpoint setting).1 = some (.stepLimit limit) := by
      simp only [Machine.checkpoint, Budget.checkpoint, Budget.stepLimit?, limits, sum,
        if_pos passed]
      rfl
    rw [Action.check_some cut]
    exact .overrun (by omega) (by omega)
  · have below : machine.budget.count.stepLimit? = none := by
      rw [Budget.stepLimit?, limits, sum, if_neg passed]
    have checked : (machine.checkpoint setting).1 =
        machine.budget.count.checkDeadline (machine.elapsed setting) := by
      simp only [Machine.checkpoint, Budget.checkpoint, below, Option.none_or]
    rcases machine.budget.count.checkDeadline_cases (machine.elapsed setting) with
      intime | ⟨ms, -, late⟩
    · rw [Action.check_none (checked.trans intime)]
      exact .next ⟨limits, by omega, by omega⟩
    · rw [Action.check_some (checked.trans late)]
      exact .halted (by rintro steps ⟨⟩) (by omega) (by omega)

theorem checkDeadline (setting : Setting σ) (owed : Nat) :
    (Action.check (Machine.checkDeadline setting)).Settles limit owed owed := by
  intro machine owes
  rcases machine.budget.checkDeadline_cases (machine.elapsed setting) with intime | ⟨ms, -, late⟩
  · rw [Action.check_none intime]
    exact .next (owes.kept rfl rfl)
  · have still : (machine.checkDeadline setting).2.Owes limit owed := owes.kept rfl rfl
    rw [Action.check_some late]
    exact .of_owes still nofun

/-- A call spends its step on its entry in the trace; one that halts the run spends none. -/
theorem call (setting : Setting σ) (request : Call) :
    Action.Settles limit 1 0 (Machine.runCall setting request) := by
  intro machine owes
  have called := machine.called_runCall setting request
  generalize Machine.runCall setting request machine = outcome at called
  cases called with
  | unknown unknown => exact .of_owes owes nofun
  | dry known isDry =>
    have announced : (machine.note (.calling request.name request.place true)).Owes limit (0 + 1) :=
      owes.kept rfl rfl
    exact .next (announced.conclude ..)
  | @failed tool error known live answer =>
    have heard : (machine.answered request tool).Owes limit 1 := owes.kept rfl rfl
    exact .of_owes heard nofun
  | @answered tool result known live answer =>
    have heard : (machine.answered request tool).Owes limit (0 + 1) := owes.kept rfl rfl
    exact .next (heard.conclude ..)

/-- The step of a conditional is spent on its entry in the trace, before a branch is entered. -/
theorem choose (condition : Condition) {yes no : Action σ} (first : yes.Settles limit 0 0)
    (other : no.Settles limit 0 0) : (Action.choose condition yes no).Settles limit 1 0 := by
  intro machine owes
  have noted : (machine.note (.traced (.branched condition
      (condition.holds machine.vars)))).Owes limit 0 :=
    owes.spent rfl (List.countP_cons_of_pos rfl)
  simp only [Action.choose]
  split
  · exact first _ noted
  · exact other _ noted

/-- The step of a round is spent on its entry in the trace. -/
theorem enter (var : String) (index : Nat) (item : Value) :
    (Action.enter var index item : Action σ).Settles limit 1 0 :=
  fun _ owes => .next (owes.spent rfl (List.countP_cons_of_pos rfl))

/-- The step of a loop is spent on opening it, or the loop is refused and halts the run. -/
theorem loop (var : String) (iterable : Expr) {rounds : List Value → Action σ}
    (settles : ∀ items, (rounds items).Settles limit 0 0) :
    (Action.loop var iterable rounds).Settles limit 1 0 := by
  intro machine owes
  have opened : (machine.note (.looping var)).Owes limit 0 :=
    owes.spent rfl (List.countP_cons_of_pos rfl)
  unfold Action.loop
  split
  · next items _ => exact (settles items _ opened).restore var _
  · exact .of_owes opened nofun

/-- By induction on the items left. Each round counts a step of its own and spends it at once. -/
theorem iterate (setting : Setting σ) (bounded : limit < Budget.counterMax) (var : String)
    {body : Action σ} (settles : body.Settles limit 0 0) (index : Nat) (items : List Value) :
    Action.Settles limit 0 0 (Machine.iterate setting var body index items) := by
  induction items generalizing index with
  | nil => exact skip 0
  | cons item items ih =>
    rw [Machine.iterate_cons]
    have entered := (checkpoint setting bounded 0).andThen (enter var index item)
    exact (entered.andThen settles).andThen (ih (index + 1))

mutual

/-- A statement spends the step that was counted for it, and all steps of its blocks. -/
theorem statement (setting : Setting σ) (bounded : limit < Budget.counterMax) :
    ∀ (statement : Statement), Action.Settles limit 1 0 (Machine.runStatement setting statement)
  | .assign name value => by
    intro machine owes
    rw [Machine.runStatement]
    exact .next (owes.spent rfl (List.countP_cons_of_pos rfl))
  | .call request => by
    rw [Machine.runStatement_call]
    exact call setting request
  | .branch condition yes no => by
    rw [Machine.runStatement_branch]
    exact choose condition (block setting bounded yes) (otherwise setting bounded no)
  | .loop var iterable body => by
    rw [Machine.runStatement_loop]
    exact loop var iterable (iterate setting bounded var (block setting bounded body) 0)
  | .finish value => by
    intro machine owes
    rw [Machine.runStatement]
    exact .returned (owes.spent rfl (List.countP_cons_of_pos rfl))
  | .blank => by
    intro machine owes
    rw [Machine.runStatement]
    exact .next (owes.spent rfl (List.countP_cons_of_pos rfl))

/-- By recursion on the statements: a statement counts a step, and has spent it when it is done. -/
theorem block (setting : Setting σ) (bounded : limit < Budget.counterMax) :
    ∀ (statements : List Statement), Action.Settles limit 0 0 (Machine.runBlock setting statements)
  | [] => by
    rw [Machine.runBlock_nil]
    exact skip 0
  | first :: rest => by
    rw [Machine.runBlock_cons]
    have ran := (checkpoint setting bounded 0).andThen (statement setting bounded first)
    exact (ran.andThen (checkDeadline setting 0)).andThen (block setting bounded rest)

theorem otherwise (setting : Setting σ) (bounded : limit < Budget.counterMax) :
    ∀ (no : Option (List Statement)), Action.Settles limit 0 0 (Machine.runBranch setting no)
  | none => by
    rw [Machine.runBranch_none]
    exact skip 0
  | some statements => by
    rw [Machine.runBranch_some]
    exact block setting bounded statements

end

end Action.Settles

/-! ### Reports -/

/-- The deeds of a run are the entries of its trace, its blank lines and its loops. -/
theorem Report.ofOutcome_deeds (outcome : Flow × Machine σ) : outcome.2.deeds =
    (ofOutcome outcome).1.trace.length + (ofOutcome outcome).1.journal.countP Event.isBlank +
      (ofOutcome outcome).1.journal.countP Event.isLooping := by
  rw [Machine.deeds, Event.countP_isDeed, ofOutcome_trace, List.length_reverse]
  simp only [ofOutcome, List.countP_reverse]

namespace Plan

/-- The steps of a run, under any step limit below the greatest count. At most one step is counted
above the limit, and this is so exactly if the limit halts the run. Every entry of the trace takes a
step within the limit; and where the run succeeds, each step is one entry of the trace, one blank line
or one loop. -/
theorem run_steps (plan : Plan) (registry : Registry σ) (options : Options) (clock : Clock)
    (memories : Memories σ) (bounded : options.maxSteps < Budget.counterMax) :
    let report := (plan.run registry options clock memories).1
    report.steps ≤ options.maxSteps + 1 ∧
      (report.ok = true → report.steps ≤ options.maxSteps) ∧
      (∀ limit, report.halt? = some (.stepLimit limit) ↔
        limit = options.maxSteps ∧ report.steps = options.maxSteps + 1) ∧
      report.trace.length ≤ min report.steps options.maxSteps ∧
      (report.ok = true → report.steps = report.trace.length +
        report.journal.countP Event.isBlank + report.journal.countP Event.isLooping) := by
  have owes : (Machine.start options memories).Owes options.maxSteps 0 := ⟨rfl, Nat.zero_le _, rfl⟩
  have settled := Action.Settles.block ⟨registry, options.dryRun, clock⟩ bounded plan _ owes
  rcases ran : Machine.runBlock ⟨registry, options.dryRun, clock⟩ plan
    (Machine.start options memories) with ⟨flow, machine⟩
  have told : plan.run registry options clock memories = Report.ofOutcome (flow, machine) :=
    congrArg Report.ofOutcome ran
  rw [ran] at settled
  rw [told]
  intro report
  have deeds : machine.deeds = report.trace.length + report.journal.countP Event.isBlank +
      report.journal.countP Event.isLooping := Report.ofOutcome_deeds (flow, machine)
  have steps : report.steps = machine.budget.consumed := rfl
  have ended : report.flow = flow := rfl
  simp only [Report.halt?_eq_some, ended, steps, Nat.le_min]
  cases settled with
  | next owes | returned owes =>
    have within := owes.within
    have balance := owes.balance
    refine ⟨by omega, fun _ => within, ?_, by omega, fun _ => by omega⟩
    intro limit
    exact ⟨nofun, fun above => by omega⟩
  | overrun passed few =>
    refine ⟨by omega, nofun, ?_, by omega, nofun⟩
    intro limit
    constructor
    · rintro ⟨⟩
      exact ⟨rfl, passed⟩
    · rintro ⟨rfl, -⟩
      rfl
  | halted other within few =>
    -- A run that something else halts is within the limit, so it has not taken the step beyond it.
    refine ⟨by omega, nofun, ?_, by omega, nofun⟩
    intro limit
    constructor
    · rintro ⟨⟩
      exact absurd rfl (other limit)
    · rintro ⟨-, above⟩
      omega

/-- Two rounds with a blank line and a call each, between a blank line and the end. -/
def spacedTicks : Plan :=
  [.blank, .loop "i" (.array [.null, .null]) [.blank, .call ⟨"tick", [], none, .start⟩],
   .finish .null]

/-- A whole run, and one that is cut off, of which the last step is counted and not spent. -/
theorem run_steps_spacedTicks :
    let whole := (Plan.run spacedTicks ticking ⟨9, none, false⟩ Clock.ticking ⟨0, []⟩).1
    let cut := (Plan.run spacedTicks ticking ⟨6, none, false⟩ Clock.ticking ⟨0, []⟩).1
    9 < Budget.counterMax ∧ 6 < Budget.counterMax ∧ whole.ok = true ∧ whole.trace.length = 5 ∧
      whole.journal.countP Event.isBlank = 3 ∧ whole.journal.countP Event.isLooping = 1 ∧
      whole.steps = 5 + 3 + 1 ∧
      cut.halt? = some (.stepLimit 6) ∧ cut.steps = 6 + 1 := by
  intro whole cut
  have bounded : 9 < Budget.counterMax := by decide
  have boundedCut : 6 < Budget.counterMax := by decide
  have ok : whole.ok = true := by decide +kernel
  have entries : whole.trace.length = 5 := by decide +kernel
  have blanks : whole.journal.countP Event.isBlank = 3 := by decide +kernel
  have loops : whole.journal.countP Event.isLooping = 1 := by decide +kernel
  have halted : cut.halt? = some (.stepLimit 6) := by decide +kernel
  obtain ⟨-, -, -, -, spent⟩ :=
    run_steps spacedTicks ticking ⟨9, none, false⟩ Clock.ticking ⟨0, []⟩ bounded
  obtain ⟨-, -, overrun, -⟩ :=
    run_steps spacedTicks ticking ⟨6, none, false⟩ Clock.ticking ⟨0, []⟩ boundedCut
  have total := spent ok
  rw [entries, blanks, loops] at total
  exact ⟨bounded, boundedCut, ok, entries, blanks, loops, total, halted, ((overrun 6).mp halted).2⟩

end Plan

end ToolPlan
