import ToolPlan.Proofs.Run.Relation

/-!
Limits only cut a run short. A run under a step limit and a deadline does what the run under a wider
step limit and no deadline does, up to the check that halts it; from there on it only misses what the
other run still adds to its journal (`Plan.run_truncates`).
-/

namespace ToolPlan

variable {σ : Type}

/-- The limits of a run are what halts it. -/
def Halt.isLimit : Halt → Bool
  | .stepLimit _ => true
  | .deadline _ => true
  | .unknownTool _ => false
  | .notAnArray _ _ => false
  | .toolFailure _ _ => false

/-- The run was halted by one of its limits. -/
def Flow.isCut : Flow → Bool
  | .halted reason => reason.isLimit
  | .next => false
  | .returned _ => false

/-- A deadline halts a run only where it has passed. -/
theorem Budget.checkDeadline_cases (budget : Budget) (elapsed : Nat) :
    budget.checkDeadline elapsed = none ∨ ∃ ms, budget.deadlineMs = some ms ∧
      budget.checkDeadline elapsed = some (.deadline ms) := by
  unfold Budget.checkDeadline
  cases found : budget.deadlineMs with
  | none => exact .inl rfl
  | some ms =>
    by_cases late : ms * nanosPerMilli < elapsed
    · exact .inr ⟨ms, rfl, if_pos late⟩
    · exact .inl (if_neg late)

namespace Machine

/-! ### What a run adds -/

/-- Nothing that was noted or counted before is lost. -/
structure Grows (before after : Machine σ) : Prop where
  journal : before.journal <:+ after.journal
  consumed : min before.budget.consumed Budget.counterMax ≤ after.budget.consumed

namespace Grows

theorem refl (machine : Machine σ) : machine.Grows machine :=
  ⟨List.suffix_rfl, Nat.min_le_left ..⟩

theorem trans {first second third : Machine σ} (before : first.Grows second)
    (after : second.Grows third) : first.Grows third := by
  refine ⟨before.journal.trans after.journal, ?_⟩
  have early := before.consumed
  have late := after.consumed
  omega

theorem note (machine : Machine σ) (event : Event) : machine.Grows (machine.note event) :=
  ⟨List.suffix_cons .., Nat.min_le_left ..⟩

end Grows

@[simp] theorem restore_journal (machine : Machine σ) (var : String) (saved : Option Value) :
    (machine.restore var saved).journal = machine.journal := by
  cases saved <;> rfl

@[simp] theorem restore_budget (machine : Machine σ) (var : String) (saved : Option Value) :
    (machine.restore var saved).budget = machine.budget := by
  cases saved <;> rfl

theorem Grows.restore {before after : Machine σ} (grows : before.Grows after) (var : String)
    (saved saved' : Option Value) :
    (before.restore var saved).Grows (after.restore var saved') := by
  refine ⟨?_, ?_⟩
  · rw [restore_journal, restore_journal]
    exact grows.journal
  · rw [restore_budget, restore_budget]
    exact grows.consumed

theorem Grows.conclude (machine : Machine σ) (call : Call) (args : Entries Value)
    (result : Value) : machine.Grows (machine.conclude call args result) := by
  simp only [Machine.conclude]
  cases call.capture with
  | none => exact ⟨List.suffix_cons .., Nat.min_le_left ..⟩
  | some name => exact ⟨List.suffix_cons .., Nat.min_le_left ..⟩

end Machine

def Action.Grows (action : Action σ) : Prop :=
  ∀ machine : Machine σ, machine.Grows (action machine).2

namespace Action.Grows

open Machine (Grows)

theorem skip : (Action.skip : Action σ).Grows :=
  fun machine => .refl machine

/-- Whatever ends the first action, nothing of it is lost. -/
theorem rest (first : Action σ) {second : Action σ} (after : second.Grows)
    (machine : Machine σ) : (first machine).2.Grows (first.andThen second machine).2 := by
  unfold Action.andThen
  split
  · next ended passed =>
    rw [passed]
    exact after ended
  · exact .refl _

theorem andThen {first second : Action σ} (before : first.Grows) (after : second.Grows) :
    (first.andThen second).Grows :=
  fun machine => (before machine).trans (rest first after machine)

theorem ofCheck {test : Machine σ → Option Halt × Machine σ}
    (grows : ∀ machine : Machine σ, machine.Grows (test machine).2) : (Action.check test).Grows := by
  intro machine
  have grown := grows machine
  unfold Action.check
  split
  · next passed =>
    rw [passed] at grown
    exact grown
  · next passed =>
    rw [passed] at grown
    exact grown

theorem checkpoint (setting : Setting σ) : (Action.check (Machine.checkpoint setting)).Grows := by
  apply ofCheck
  intro machine
  refine ⟨List.suffix_cons .., ?_⟩
  simp only [Machine.checkpoint, Machine.note, Budget.checkpoint, Budget.count]
  omega

theorem checkDeadline (setting : Setting σ) :
    (Action.check (Machine.checkDeadline setting)).Grows := by
  apply ofCheck
  intro machine
  exact ⟨List.suffix_rfl, Nat.min_le_left ..⟩

/-- A call adds its events, whether the tool is known, skipped, or fails. -/
theorem call (setting : Setting σ) (call : Call) : Action.Grows (Machine.runCall setting call) := by
  intro machine
  cases known : Entries.get? setting.registry call.name with
  | none =>
    rw [Machine.runCall_unknown known]
    exact .refl machine
  | some tool =>
    cases dry : setting.dryRun with
    | true =>
      rw [Machine.runCall_dry known dry]
      exact (Grows.note machine _).trans (.conclude ..)
    | false =>
      have heard : machine.Grows (machine.answered call tool) := by
        refine ⟨?_, Nat.min_le_left ..⟩
        exact (List.suffix_cons ..).trans (List.suffix_cons ..)
      rw [Machine.runCall_live known dry]
      cases machine.answer call tool with
      | error error => exact heard
      | ok result => exact heard.trans (.conclude ..)

theorem choose (condition : Condition) {yes no : Action σ} (first : yes.Grows) (other : no.Grows) :
    (Action.choose condition yes no).Grows := by
  intro machine
  simp only [Action.choose]
  split
  · exact (Grows.note machine _).trans (first _)
  · exact (Grows.note machine _).trans (other _)

theorem loop (var : String) (iterable : Expr) {rounds : List Value → Action σ}
    (grows : ∀ items, (rounds items).Grows) : (Action.loop var iterable rounds).Grows := by
  intro machine
  unfold Action.loop
  split
  · next items _ =>
    have grown := (Grows.note machine (.looping var)).trans (grows items _)
    refine ⟨?_, ?_⟩
    · rw [Machine.restore_journal]
      exact grown.journal
    · rw [Machine.restore_budget]
      exact grown.consumed
  · exact .note machine _

end Action.Grows

/-! ### Two runs side by side -/

namespace Machine

/-- The machine under another step limit and no deadline. -/
def freed (more : Nat) (machine : Machine σ) : Machine σ :=
  { machine with budget := { machine.budget with maxSteps := more, deadlineMs := none } }

/-- The machine has these limits and has not passed the first of them. -/
structure Within (limit : Nat) (deadlineMs : Option Nat) (machine : Machine σ) : Prop where
  maxSteps : machine.budget.maxSteps = limit
  deadline : machine.budget.deadlineMs = deadlineMs
  consumed : machine.budget.consumed ≤ limit

theorem Within.of_budget {limit : Nat} {deadlineMs : Option Nat} {machine other : Machine σ}
    (within : machine.Within limit deadlineMs) (same : other.budget = machine.budget) :
    other.Within limit deadlineMs := by
  obtain ⟨steps, deadline, consumed⟩ := within
  exact ⟨by rw [same, steps], by rw [same, deadline], by rw [same]; exact consumed⟩

theorem conclude_budget (machine : Machine σ) (call : Call) (args : Entries Value) (result : Value) :
    (machine.conclude call args result).budget = machine.budget := by
  simp only [conclude]
  cases call.capture <;> rfl

theorem freed_conclude (more : Nat) (machine : Machine σ) (call : Call) (args : Entries Value)
    (result : Value) : (machine.freed more).conclude call args result =
      (machine.conclude call args result).freed more := by
  simp only [conclude]
  cases call.capture <;> rfl

theorem freed_restore (more : Nat) (machine : Machine σ) (var : String) (saved : Option Value) :
    (machine.freed more).restore var saved = (machine.restore var saved).freed more := by
  cases saved <;> rfl

end Machine

/-- How a run under limits relates to the run under the wider step limit `more` alone: they end in
the same way on the same machine, or a limit has halted the first while the second may have gone
on. -/
inductive Truncates (limit : Nat) (deadlineMs : Option Nat) (more : Nat) :
    Flow × Machine σ → Flow × Machine σ → Prop where
  | same {flow : Flow} {machine : Machine σ} : machine.Within limit deadlineMs →
      flow.isCut = false → Truncates limit deadlineMs more (flow, machine) (flow, machine.freed more)
  | stepLimit {machine : Machine σ} {free : Flow × Machine σ} : limit < Budget.counterMax →
      machine.budget.consumed = limit + 1 → machine.Grows free.2 →
      Truncates limit deadlineMs more (.halted (.stepLimit limit), machine) free
  | deadline {ms : Nat} {machine : Machine σ} {free : Flow × Machine σ} : deadlineMs = some ms →
      machine.Grows free.2 → Truncates limit deadlineMs more (.halted (.deadline ms), machine) free

namespace Truncates

variable {limit : Nat} {deadlineMs : Option Nat} {more : Nat}

/-- What the free run does after a limit has halted the other does not matter. -/
theorem extend {limited free later : Flow × Machine σ}
    (truncates : Truncates limit deadlineMs more limited free) (cut : limited.1.isCut = true)
    (grows : free.2.Grows later.2) : Truncates limit deadlineMs more limited later := by
  cases truncates with
  | same _ notCut =>
    rw [notCut] at cut
    exact Bool.noConfusion cut
  | stepLimit below passed grown => exact .stepLimit below passed (grown.trans grows)
  | deadline found grown => exact .deadline found (grown.trans grows)

/-- Where no limit has cut the run off, the free run did the same. -/
theorem of_not_cut {limited free : Flow × Machine σ}
    (truncates : Truncates limit deadlineMs more limited free) (whole : limited.1.isCut = false) :
    limited.2.Within limit deadlineMs ∧ free = (limited.1, limited.2.freed more) := by
  cases truncates with
  | same within _ => exact ⟨within, rfl⟩
  | stepLimit => exact Bool.noConfusion whole
  | deadline => exact Bool.noConfusion whole

/-- Where one has, it is the limit that the run was given, and the free run has lost nothing. -/
theorem of_cut {limited free : Flow × Machine σ}
    (truncates : Truncates limit deadlineMs more limited free) (cut : limited.1.isCut = true) :
    (limited.1 = .halted (.stepLimit limit) ∨
      ∃ ms, deadlineMs = some ms ∧ limited.1 = .halted (.deadline ms)) ∧
      limited.2.Grows free.2 := by
  cases truncates with
  | same _ whole =>
    rw [whole] at cut
    exact Bool.noConfusion cut
  | stepLimit _ _ grown => exact ⟨.inl rfl, grown⟩
  | deadline found grown => exact ⟨.inr ⟨_, found, rfl⟩, grown⟩

theorem restore {limited free : Flow × Machine σ}
    (truncates : Truncates limit deadlineMs more limited free) (var : String)
    (saved : Option Value) : Truncates limit deadlineMs more
      (limited.1, limited.2.restore var saved) (free.1, free.2.restore var saved) := by
  cases truncates with
  | same within notCut =>
    rw [Machine.freed_restore]
    exact .same (within.of_budget (Machine.restore_budget ..)) notCut
  | stepLimit below passed grown =>
    refine .stepLimit below ?_ (grown.restore var saved saved)
    rw [Machine.restore_budget]
    exact passed
  | deadline found grown => exact .deadline found (grown.restore var saved saved)

end Truncates

/-- The first action, under limits, does what the second does, up to a limit. -/
def TruncatesAction (limit : Nat) (deadlineMs : Option Nat) (more : Nat)
    (limited free : Action σ) : Prop :=
  (∀ machine : Machine σ, machine.Within limit deadlineMs →
    Truncates limit deadlineMs more (limited machine) (free (machine.freed more))) ∧ free.Grows

section Keeps

variable {limit more : Nat} {deadlineMs : Option Nat} {left right : Setting σ}

/-- If the first action is cut off, what the free run does after it only adds. -/
theorem truncates_andThen {first second first' second' : Action σ}
    (before : TruncatesAction limit deadlineMs more first first')
    (after : TruncatesAction limit deadlineMs more second second') :
    TruncatesAction limit deadlineMs more (first.andThen second) (first'.andThen second') := by
  refine ⟨?_, before.2.andThen after.2⟩
  intro machine within
  have step := before.1 machine within
  rcases ran : first machine with ⟨flow, ended⟩
  rw [ran] at step
  by_cases passed : flow = .next
  · subst passed
    obtain ⟨within, ranFree⟩ := step.of_not_cut rfl
    rw [Action.andThen_next ran, Action.andThen_next ranFree]
    exact after.1 ended within
  · rw [Action.andThen_stop ran passed]
    cases cut : flow.isCut with
    | true =>
      -- The other run may go on here, and only adds to what it has.
      exact step.extend cut (Action.Grows.rest first' after.2 _)
    | false =>
      obtain ⟨within, ranFree⟩ := step.of_not_cut cut
      rw [Action.andThen_stop ranFree passed]
      exact .same within cut

/-- A checkpoint refuses the step that is one too many, or finds both runs within their limits. -/
theorem truncates_checkpoint (wider : limit ≤ more) :
    TruncatesAction limit deadlineMs more (.check (Machine.checkpoint left))
      (.check (Machine.checkpoint right)) := by
  refine ⟨?_, .checkpoint right⟩
  intro machine within
  have grows : (machine.checkpoint left).2.Grows
      (Action.check (Machine.checkpoint right) (machine.freed more)).2 := by
    rw [Action.check_snd]
    exact ⟨List.suffix_rfl, Nat.min_le_left ..⟩
  have limits : machine.budget.count.maxSteps = limit := within.maxSteps
  by_cases passed : limit < machine.budget.count.consumed
  · -- The count went up by one, so it stands right above the limit.
    have cut : (machine.checkpoint left).1 = some (.stepLimit limit) := by
      simp only [Machine.checkpoint, Budget.checkpoint, Budget.stepLimit?, limits, if_pos passed]
      rfl
    have consumed := within.consumed
    simp only [Budget.count] at passed
    rw [Action.check_some cut]
    refine .stepLimit (by omega) ?_ grows
    simp only [Machine.checkpoint, Machine.note, Budget.checkpoint, Budget.count]
    omega
  · have below : machine.budget.count.stepLimit? = none := by
      rw [Budget.stepLimit?, limits, if_neg passed]
    have belowMore : (machine.freed more).budget.count.stepLimit? = none := by
      have same : (machine.freed more).budget.count.consumed = machine.budget.count.consumed := rfl
      have limitsMore : (machine.freed more).budget.count.maxSteps = more := rfl
      rw [Budget.stepLimit?, same, limitsMore, if_neg (by omega)]
    rcases machine.budget.count.checkDeadline_cases (machine.elapsed left) with
      intime | ⟨ms, found, late⟩
    · have passes : (machine.checkpoint left).1 = none := by
        simp only [Machine.checkpoint, Budget.checkpoint, below, intime, Option.or_none]
      have passesFree : ((machine.freed more).checkpoint right).1 = none := by
        simp only [Machine.checkpoint, Budget.checkpoint, belowMore, Option.none_or]
        rfl
      rw [Action.check_none passes, Action.check_none passesFree]
      exact .same ⟨limits, within.deadline, Nat.le_of_not_lt passed⟩ rfl
    · have cut : (machine.checkpoint left).1 = some (.deadline ms) := by
        simp only [Machine.checkpoint, Budget.checkpoint, below, late, Option.none_or]
      rw [Action.check_some cut]
      exact .deadline (within.deadline.symm.trans found) grows

/-- The deadline can cut the limited run off; the free run has none. -/
theorem truncates_checkDeadline :
    TruncatesAction limit deadlineMs more (.check (Machine.checkDeadline left))
      (.check (Machine.checkDeadline right)) := by
  refine ⟨?_, .checkDeadline right⟩
  intro machine within
  rcases machine.budget.checkDeadline_cases (machine.elapsed left) with intime | ⟨ms, found, late⟩
  · have passesFree : ((machine.freed more).checkDeadline right).1 = none := rfl
    rw [Action.check_none intime, Action.check_none passesFree]
    exact .same (within.of_budget rfl) rfl
  · rw [Action.check_some late]
    refine .deadline (within.deadline.symm.trans found) ?_
    rw [Action.check_snd]
    exact ⟨List.suffix_rfl, Nat.min_le_left ..⟩

theorem concluded {machine : Machine σ} (within : machine.Within limit deadlineMs) (call : Call)
    (args : Entries Value) (result : Value) : Truncates limit deadlineMs more
      (.next, machine.conclude call args result)
      (.next, (machine.freed more).conclude call args result) := by
  rw [Machine.freed_conclude]
  exact .same (within.of_budget (Machine.conclude_budget ..)) rfl

/-- A call looks at no limit. What a tool answers depends on its memory alone. -/
theorem truncates_call (sameTools : left.registry = right.registry)
    (sameMode : left.dryRun = right.dryRun) (call : Call) :
    TruncatesAction limit deadlineMs more (Machine.runCall left call)
      (Machine.runCall right call) := by
  refine ⟨?_, .call right call⟩
  intro machine within
  cases known : Entries.get? left.registry call.name with
  | none =>
    rw [Machine.runCall_unknown known, Machine.runCall_unknown (sameTools ▸ known)]
    exact .same within rfl
  | some tool =>
    cases dry : left.dryRun with
    | true =>
      have noted : (machine.note (.calling call.name call.place true)).Within limit deadlineMs :=
        within.of_budget rfl
      rw [Machine.runCall_dry known dry, Machine.runCall_dry (sameTools ▸ known) (sameMode ▸ dry)]
      exact concluded noted ..
    | false =>
      rw [Machine.runCall_live known dry, Machine.runCall_live (sameTools ▸ known) (sameMode ▸ dry)]
      have alike : (machine.freed more).answer call tool = machine.answer call tool := rfl
      have heard : (machine.answered call tool).Within limit deadlineMs := within.of_budget rfl
      rw [alike]
      cases machine.answer call tool with
      | error error => exact .same heard rfl
      | ok result => exact concluded heard ..

theorem keeps_truncates (wider : limit ≤ more) (sameTools : left.registry = right.registry)
    (sameMode : left.dryRun = right.dryRun) :
    Keeps left right (TruncatesAction limit deadlineMs more) where
  skip := ⟨fun _ within => .same within rfl, .skip⟩
  andThen := truncates_andThen
  checkpoint := truncates_checkpoint wider
  checkDeadline := truncates_checkDeadline
  assign name value := by
    constructor
    · intro machine within
      exact .same (within.of_budget rfl) rfl
    · intro machine
      exact ⟨List.suffix_cons .., Nat.min_le_left ..⟩
  call := truncates_call sameTools sameMode
  finish value := by
    constructor
    · intro machine within
      exact .same (within.of_budget rfl) rfl
    · intro machine
      exact .note machine _
  blank := by
    constructor
    · intro machine within
      exact .same (within.of_budget rfl) rfl
    · intro machine
      exact .note machine _
  choose condition := by
    intro yes no yes' no' first other
    refine ⟨?_, .choose condition first.2 other.2⟩
    intro machine within
    have alike : condition.holds (machine.freed more).vars = condition.holds machine.vars := rfl
    simp only [Action.choose, alike]
    by_cases holds : condition.holds machine.vars = true
    · rw [if_pos holds, if_pos holds]
      exact first.1 _ (within.of_budget rfl)
    · rw [if_neg holds, if_neg holds]
      exact other.1 _ (within.of_budget rfl)
  enter var index item := by
    constructor
    · intro machine within
      exact .same (within.of_budget rfl) rfl
    · intro machine
      exact ⟨List.suffix_cons .., Nat.min_le_left ..⟩
  loop var iterable := by
    intro rounds rounds' alike
    refine ⟨?_, .loop var iterable fun items => (alike items).2⟩
    intro machine within
    have noted : (machine.note (.looping var)).Within limit deadlineMs := within.of_budget rfl
    have sameVars : (machine.freed more).vars = machine.vars := rfl
    simp only [Action.loop, sameVars]
    cases iterable.resolve machine.vars with
    | array items => exact ((alike items).1 _ noted).restore var _
    | null => exact .same noted rfl
    | bool value => exact .same noted rfl
    | number value => exact .same noted rfl
    | string text => exact .same noted rfl
    | map entries => exact .same noted rfl

end Keeps

/-! ### Reports -/

/-- A journal that is a beginning of another one makes a trace that is. -/
theorem Machine.Grows.trace {before after : Flow × Machine σ} (grows : before.2.Grows after.2) :
    (Report.ofOutcome before).1.trace <+: (Report.ofOutcome after).1.trace :=
  (List.reverse_prefix.mpr grows.journal).filterMap _

/-- A report on a halted run has its reason, and neither succeeds nor returns. -/
theorem Report.of_halted {outcome : Flow × Machine σ} {reason : Halt}
    (halted : outcome.1 = .halted reason) : (Report.ofOutcome outcome).1.halt? = some reason ∧
      (Report.ofOutcome outcome).1.ok = false ∧
      (Report.ofOutcome outcome).1.returned? = none := by
  simp only [Report.ofOutcome, Report.halt?, Report.ok, Report.returned?, halted, and_self]

/-- The steps of the free run do not pass the limit, or the limit has halted the other run. -/
theorem Truncates.steps {limit more : Nat} {limited free : Flow × Machine σ}
    (truncates : Truncates limit none more limited free) :
    (free = (limited.1, limited.2.freed more) ∧ free.2.budget.consumed ≤ limit) ∨
      (limited.1 = .halted (.stepLimit limit) ∧ limited.2.budget.consumed = limit + 1 ∧
        limit < free.2.budget.consumed) := by
  cases truncates with
  | same within _ => exact .inl ⟨rfl, within.consumed⟩
  | stepLimit below passed grown =>
    have counted := grown.consumed
    rw [passed] at counted
    exact .inr ⟨rfl, passed, by omega⟩
  | deadline found _ => cases found

namespace Plan

/-- Limits only cut a run short. Against the run under a wider step limit and no deadline, with any
clock, a run either was not halted by its limits and is the same in every respect, or it was halted
by one of them and its trace is the beginning of the other's. Without a deadline the steps of the
wider run tell which: a limit that they do not pass changes nothing, and any other limit halts the
run at the first step beyond it. -/
theorem run_truncates (plan : Plan) (registry : Registry σ) (dryRun : Bool) (memories : Memories σ)
    {limit more : Nat} (wider : limit ≤ more) (deadlineMs : Option Nat) (clock freeClock : Clock) :
    let limited := plan.run registry ⟨limit, deadlineMs, dryRun⟩ clock memories
    let free := plan.run registry ⟨more, none, dryRun⟩ freeClock memories
    ((limited.1.flow.isCut = false ∧ limited = free) ∨
      ((limited.1.halt? = some (.stepLimit limit) ∨
          ∃ ms, deadlineMs = some ms ∧ limited.1.halt? = some (.deadline ms)) ∧
        limited.1.ok = false ∧ limited.1.returned? = none ∧
        limited.1.trace <+: free.1.trace)) ∧
    (deadlineMs = none → (free.1.steps ≤ limit → limited = free) ∧
      (limit < free.1.steps →
        limited.1.halt? = some (.stepLimit limit) ∧ limited.1.steps = limit + 1)) := by
  intro limited free
  have within : (Machine.start ⟨limit, deadlineMs, dryRun⟩ memories).Within limit deadlineMs :=
    ⟨rfl, rfl, Nat.zero_le limit⟩
  have keeps : Keeps (⟨registry, dryRun, clock⟩ : Setting σ) ⟨registry, dryRun, freeClock⟩
      (TruncatesAction limit deadlineMs more) := keeps_truncates wider rfl rfl
  have truncates := (keeps.block plan).1 _ within
  constructor
  · cases cut : limited.1.flow.isCut with
    | false =>
      obtain ⟨-, same⟩ := truncates.of_not_cut cut
      exact .inl ⟨rfl, (congrArg Report.ofOutcome same).symm⟩
    | true =>
      obtain ⟨stepLimit | ⟨ms, found, late⟩, grows⟩ := truncates.of_cut cut
      · obtain ⟨reason, notOk, nothing⟩ := Report.of_halted stepLimit
        exact .inr ⟨.inl reason, notOk, nothing, grows.trace⟩
      · obtain ⟨reason, notOk, nothing⟩ := Report.of_halted late
        exact .inr ⟨.inr ⟨ms, found, reason⟩, notOk, nothing, grows.trace⟩
  · -- Without a deadline only the step limit can cut the run off, and it tells where.
    intro noDeadline
    subst noDeadline
    rcases truncates.steps with ⟨same, below⟩ | ⟨cut, passed, above⟩
    · refine ⟨fun _ => (congrArg Report.ofOutcome same).symm, ?_⟩
      intro beyond
      exact absurd beyond (Nat.not_lt_of_le below)
    · constructor
      · intro enough
        exact absurd enough (Nat.not_le_of_lt above)
      · intro _
        exact ⟨(Report.of_halted cut).1, passed⟩

/-- A tool that counts its calls. -/
def ticking : Registry Nat :=
  [("tick", ⟨0, fun count _ => (⟨.ok (.int count), 0⟩, count + 1)⟩)]

/-- Two rounds that call the counting tool, and then its last answer: six steps. -/
def twoTicks : Plan :=
  [.loop "i" (.array [.null, .null]) [.call ⟨"tick", [("round", .var "i" [])], some "last", .start⟩],
   .finish (.var "last" [])]

/-- The run is cut off after four steps of six, and its trace is the beginning of the whole one. -/
theorem run_truncates_twoTicks :
    let limited := Plan.run twoTicks ticking ⟨4, none, false⟩ Clock.ticking ⟨0, []⟩
    let free := Plan.run twoTicks ticking ⟨9, none, false⟩ Clock.ticking ⟨0, []⟩
    4 ≤ 9 ∧ free.1.steps = 6 ∧ limited.1.trace <+: free.1.trace ∧
      limited.1.halt? = some (.stepLimit 4) ∧ limited.1.steps = 5 := by
  have wider : 4 ≤ 9 := by decide
  have steps : (Plan.run twoTicks ticking ⟨9, none, false⟩ Clock.ticking ⟨0, []⟩).1.steps = 6 := by
    decide +kernel
  obtain ⟨beginning, cut⟩ :=
    run_truncates twoTicks ticking false ⟨0, []⟩ wider none Clock.ticking Clock.ticking
  rw [steps] at cut
  have halted := (cut rfl).2 (by decide)
  refine ⟨wider, steps, ?_, halted⟩
  rcases beginning with ⟨-, same⟩ | ⟨-, -, -, begins⟩
  · simp only [same, List.prefix_refl]
  · exact begins

end Plan

end ToolPlan
