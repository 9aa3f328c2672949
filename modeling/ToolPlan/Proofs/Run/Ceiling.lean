import ToolPlan.Proofs.Run.Steps

/-!
How hard a ceiling the step limit is. The counter stays at its greatest value, so what it shows after
any number of checks is known (`Budget.Shows`), and with it what the next checkpoint says
(`checkpoint_after`). Below the greatest count the limit is exact: as many checkpoints pass as it
allows, and no run does anything after the first one that fails (`step_ceiling`). The greatest count
itself is no limit at all, as the counter never shows more: every checkpoint passes, however many
there were (`ceiling_missing`).
-/

namespace ToolPlan

variable {σ : Type}

namespace Budget

/-! ### Checks one after the other -/

/-- A check of a budget, when so many nanoseconds have passed. -/
inductive Check where
  | checkpoint (elapsed : Nat)
  | deadline (elapsed : Nat)

def Check.counts : Check → Bool
  | checkpoint _ => true
  | deadline _ => false

def afterCheck (budget : Budget) : Check → Budget
  | .checkpoint elapsed => (budget.checkpoint elapsed).2
  | .deadline _ => budget

/-- The budget after checks, whatever they said. -/
def after (budget : Budget) (checks : List Check) : Budget :=
  checks.foldl afterCheck budget

/-- The counter shows so many steps, up to its greatest value, and the limits are these. -/
structure Shows (options : Options) (taken : Nat) (budget : Budget) : Prop where
  maxSteps : budget.maxSteps = options.maxSteps
  deadline : budget.deadlineMs = options.deadlineMs
  consumed : budget.consumed = min taken counterMax

namespace Shows

variable {options : Options} {taken : Nat} {budget : Budget}

theorem start (options : Options) : (ofOptions options).Shows options 0 :=
  ⟨rfl, rfl, rfl⟩

/-- The counter goes up by one as long as it can. -/
theorem count (shows : budget.Shows options taken) : budget.count.Shows options (taken + 1) := by
  refine ⟨shows.maxSteps, shows.deadline, ?_⟩
  have before := shows.consumed
  simp only [Budget.count]
  omega

theorem afterCheck (shows : budget.Shows options taken) (check : Check) :
    (budget.afterCheck check).Shows options (taken + if check.counts then 1 else 0) := by
  cases check with
  | checkpoint elapsed => exact shows.count
  | deadline elapsed => exact shows

/-- After any checks the counter shows those that count, up to its greatest value. -/
theorem after (shows : budget.Shows options taken) (checks : List Check) :
    (budget.after checks).Shows options (taken + checks.countP Check.counts) := by
  induction checks generalizing budget taken with
  | nil => exact shows
  | cons check checks ih =>
    have rest := ih (shows.afterCheck check)
    rwa [Nat.add_assoc, Nat.add_comm (if check.counts then 1 else 0), ← List.countP_cons] at rest

/-- The step limit is found to be passed exactly if it is, unless the counter cannot show it. -/
theorem stepLimit?_count (shows : budget.Shows options taken)
    (range : options.maxSteps ≤ counterMax) : budget.count.stepLimit? =
      if taken + 1 ≤ options.maxSteps ∨ options.maxSteps = counterMax then none
      else some (.stepLimit options.maxSteps) := by
  have counted := shows.count.consumed
  have limit : budget.count.maxSteps = options.maxSteps := shows.maxSteps
  rw [stepLimit?, limit]
  split
  · next passed => rw [if_neg (by omega)]
  · next within => rw [if_pos (by omega)]

end Shows

/-- What the checkpoint after any checks says, without a deadline. -/
theorem checkpoint_after (options : Options) (untimed : options.deadlineMs = none)
    (range : options.maxSteps ≤ counterMax) (earlier : List Check) (elapsed : Nat) :
    (((ofOptions options).after earlier).checkpoint elapsed).1 =
      if earlier.countP Check.counts + 1 ≤ options.maxSteps ∨ options.maxSteps = counterMax
      then none else some (.stepLimit options.maxSteps) := by
  have shows := (Shows.start options).after earlier
  rw [Nat.zero_add] at shows
  have never : ((ofOptions options).after earlier).count.checkDeadline elapsed = none :=
    checkDeadline_untimed (shows.deadline.trans untimed) elapsed
  rw [checkpoint, never, Option.or_none]
  exact shows.stepLimit?_count range

end Budget

/-! ### Runs under the limit -/

def Flow.isOverrun : Flow → Bool
  | .halted (.stepLimit _) => true
  | _ => false

/-- How a run stands to its step limit: it is not halted by it and has taken no more steps than it may,
or the step after the last one was noted, refused, and followed by nothing. No run passes the limit
that the counter cannot show. -/
inductive Ceiling (options : Options) : Flow → Machine σ → Prop where
  | within {flow machine} : machine.budget.Shows options machine.steps →
      flow.isOverrun = false →
      (machine.steps ≤ options.maxSteps ∨ options.maxSteps = Budget.counterMax) →
      Ceiling options flow machine
  | refused {machine earlier} : options.maxSteps < Budget.counterMax →
      machine.journal = .step :: earlier → earlier.countP Event.isStep = options.maxSteps →
      Ceiling options (.halted (.stepLimit options.maxSteps)) machine

/-- The action keeps a run under its step limit. -/
def Action.Holds (options : Options) (action : Action σ) : Prop :=
  ∀ machine : Machine σ, Ceiling options .next machine →
    Ceiling options (action machine).1 (action machine).2

namespace Ceiling

variable {setting : Setting σ} {plan : Plan} {options : Options} {machine after : Machine σ}
  {flow : Flow}

/-- No step is noted or counted. -/
theorem kept (ceiling : Ceiling options .next machine)
    (other : flow.isOverrun = false)
    (sameBudget : after.budget = machine.budget) (sameSteps : after.steps = machine.steps) :
    Ceiling options flow after := by
  cases ceiling with
  | within shows _ few =>
    rw [← sameBudget, ← sameSteps] at shows
    rw [← sameSteps] at few
    exact .within shows other few

theorem restore (ceiling : Ceiling options flow machine) (var : String) (saved : Option Value) :
    Ceiling options flow (machine.restore var saved) := by
  cases ceiling with
  | within shows other few =>
    rw [← Machine.steps_restore machine var saved] at shows few
    rw [← Machine.restore_budget machine var saved] at shows
    exact .within shows other few
  | refused below last all =>
    exact .refused below ((machine.restore_journal var saved).trans last) all

theorem call {request : Call} {outcome : Flow × Machine σ} (ceiling : Ceiling options .next machine)
    (called : Machine.Called setting request machine outcome) :
    Ceiling options outcome.1 outcome.2 := by
  cases called with
  | unknown unknown => exact ceiling.kept rfl rfl rfl
  | dry known isDry =>
    exact ceiling.kept rfl (Machine.conclude_budget ..) (Machine.steps_conclude ..)
  | failed known live answer => exact ceiling.kept rfl rfl rfl
  | answered known live answer =>
    exact ceiling.kept rfl (Machine.conclude_budget ..) (Machine.steps_conclude ..)

theorem andThen {first second : Action σ} (before : first.Holds options)
    (after : second.Holds options) : (first.andThen second).Holds options := by
  intro machine ceiling
  have ran := before machine ceiling
  rcases ended : first machine with ⟨flow, middle⟩
  rw [ended] at ran
  by_cases passed : flow = .next
  · subst passed
    rw [Action.andThen_next ended]
    exact after middle ran
  · rw [Action.andThen_stop ended passed]
    exact ran

/-- A deadline halts a run below its limit. -/
theorem checkDeadline : Action.Holds options (.check (Machine.checkDeadline setting)) := by
  intro machine ceiling
  rcases machine.budget.checkDeadline_cases (machine.elapsed setting) with intime | ⟨ms, -, late⟩
  · rw [Action.check_none intime]
    exact ceiling.kept rfl rfl rfl
  · rw [Action.check_some late]
    exact ceiling.kept rfl rfl rfl

/-- A checkpoint notes one more step. Where the limit refuses it, this step is the first above. -/
theorem checkpoint (range : options.maxSteps ≤ Budget.counterMax) :
    Action.Holds options (.check (Machine.checkpoint setting)) := by
  intro machine ceiling
  cases ceiling with
  | within shows _ few =>
    have noted : (machine.checkpoint setting).2.steps = machine.steps + 1 :=
      List.countP_cons_of_pos rfl
    have counted : (machine.checkpoint setting).2.budget.Shows options
        (machine.checkpoint setting).2.steps := by
      rw [noted]
      exact shows.count
    have limit := shows.stepLimit?_count range
    split at limit
    · next allowed =>
      have checked : (machine.checkpoint setting).1 =
          machine.budget.count.checkDeadline (machine.elapsed setting) := by
        simp only [Machine.checkpoint, Budget.checkpoint, limit, Option.none_or]
      rw [← noted] at allowed
      rcases machine.budget.count.checkDeadline_cases (machine.elapsed setting) with
        intime | ⟨ms, -, late⟩
      · rw [Action.check_none (checked.trans intime)]
        exact .within counted rfl allowed
      · rw [Action.check_some (checked.trans late)]
        exact .within counted rfl allowed
    · next above =>
      have checked : (machine.checkpoint setting).1 = some (.stepLimit options.maxSteps) := by
        simp only [Machine.checkpoint, Budget.checkpoint, limit, Option.some_or]
      have exact : machine.journal.countP Event.isStep = options.maxSteps := by
        have steps : machine.steps = machine.journal.countP Event.isStep := rfl
        omega
      rw [Action.check_some checked]
      exact .refused (by omega) rfl exact

/-- A round that is one too many is refused, and nothing is noted after that. -/
theorem iterate (range : options.maxSteps ≤ Budget.counterMax) (var : String) {body : Action σ}
    (holds : body.Holds options) (index : Nat) (items : List Value) :
    Action.Holds options (Machine.iterate setting var body index items) := by
  induction items generalizing index with
  | nil => exact fun machine ceiling => ceiling
  | cons item items ih =>
    rw [Machine.iterate_cons]
    have entered : Action.Holds (σ := σ) options (.enter var index item) :=
      fun machine ceiling => ceiling.kept rfl rfl rfl
    exact andThen (andThen (andThen (checkpoint range) entered) holds) (ih (index + 1))

theorem loop (var : String) (iterable : Expr) {rounds : List Value → Action σ}
    (holds : ∀ items, (rounds items).Holds options) :
    (Action.loop var iterable rounds).Holds options := by
  intro machine ceiling
  have opened : Ceiling options .next (machine.note (.looping var)) := ceiling.kept rfl rfl rfl
  unfold Action.loop
  split
  · next items _ => exact (holds items _ opened).restore ..
  · exact ceiling.kept rfl rfl rfl

/-- So every part of a plan keeps the run under its limit. -/
theorem inherited (range : options.maxSteps ≤ Budget.counterMax) :
    Inherited setting plan (Action.Holds options) where
  skip machine ceiling := ceiling
  andThen := andThen
  checkpoint := checkpoint range
  checkDeadline := checkDeadline
  assign _ machine ceiling := by
    rw [Machine.runStatement]
    exact ceiling.kept rfl rfl rfl
  call _ machine ceiling := ceiling.call (Machine.called_runCall ..)
  branch _ yes no machine ceiling := by
    rw [Machine.runStatement_branch]
    simp only [Action.choose]
    split
    · exact yes _ (ceiling.kept rfl rfl rfl)
    · exact no _ (ceiling.kept rfl rfl rfl)
  loop _ body := by
    rw [Machine.runStatement_loop]
    exact loop _ _ (iterate range _ body 0)
  finish _ machine ceiling := by
    rw [Machine.runStatement]
    exact ceiling.kept rfl rfl rfl
  blank machine ceiling := by
    rw [Machine.runStatement]
    exact ceiling.kept rfl rfl rfl

end Ceiling

/-- How a whole run stands to its step limit at its end. -/
theorem Plan.run_ceiling (plan : Plan) (registry : Registry σ) {options : Options} (clock : Clock)
    (memories : Memories σ) (range : options.maxSteps ≤ Budget.counterMax) :
    ∃ outcome : Flow × Machine σ, Ceiling options outcome.1 outcome.2 ∧
      plan.run registry options clock memories = Report.ofOutcome outcome := by
  have held : Action.Holds options
      (Machine.runBlock (σ := σ) ⟨registry, options.dryRun, clock⟩ plan) :=
    (Ceiling.inherited range).block plan (List.Subset.refl _)
  exact ⟨_, held (Machine.start options memories)
    (.within (.start options) rfl (.inl (Nat.zero_le _))), rfl⟩

/-! ### The ceiling -/

/-- The step limit as a ceiling, without a deadline. The checkpoint after any checks passes if it is
within the limit, as counted from the first one, and fails with the limit otherwise; but under the
greatest count every checkpoint passes. So a run under a lower limit passes no more checkpoints than
that: it notes no more steps, or one more, which is the last thing it notes, and is halted by the
limit. Under the greatest count no run is halted by its step limit. -/
theorem Budget.step_ceiling (options : Options) (untimed : options.deadlineMs = none)
    (range : options.maxSteps ≤ counterMax) :
    (∀ (earlier : List Check) (elapsed : Nat),
      let budget := (ofOptions options).after earlier
      budget.checkDeadline elapsed = none ∧
        (budget.checkpoint elapsed).1 =
          if earlier.countP Check.counts + 1 ≤ options.maxSteps ∨ options.maxSteps = counterMax
          then none else some (.stepLimit options.maxSteps)) ∧
    ∀ (σ : Type) (plan : Plan) (registry : Registry σ) (clock : Clock) (memories : Memories σ),
      let report := (plan.run registry options clock memories).1
      (options.maxSteps < counterMax →
        report.journal.countP Event.isStep ≤ options.maxSteps ∨
          report.halt? = some (.stepLimit options.maxSteps) ∧
            ∃ earlier, report.journal = earlier ++ [.step] ∧
              earlier.countP Event.isStep = options.maxSteps) ∧
      (options.maxSteps = counterMax → ∀ limit, report.halt? ≠ some (.stepLimit limit)) := by
  constructor
  · intro earlier elapsed budget
    have limits : budget.deadlineMs = options.deadlineMs :=
      ((Shows.start options).after earlier).deadline
    exact ⟨checkDeadline_untimed (limits.trans untimed) elapsed,
      checkpoint_after options untimed range earlier elapsed⟩
  · intro σ plan registry clock memories
    obtain ⟨⟨flow, machine⟩, ceiling, told⟩ := plan.run_ceiling registry clock memories range
    rw [told]
    intro report
    have ended : report.flow = flow := rfl
    have journal : report.journal = machine.journal.reverse := rfl
    simp only [ne_eq, Report.halt?_eq_some, ended, journal, List.countP_reverse]
    cases ceiling with
    | within shows other few =>
      -- The run may have come to the greatest count, but then nothing has refused it.
      constructor
      · intro below
        exact .inl (few.resolve_right (Nat.ne_of_lt below))
      · rintro - limit rfl
        cases other
    | @refused _ earlier below last all =>
      constructor
      · intro _
        refine .inr ⟨rfl, earlier.reverse, ?_, ?_⟩
        · rw [last, List.reverse_cons]
        · rw [List.countP_reverse, all]
      · intro greatest
        exact absurd greatest (Nat.ne_of_lt below)

/-- Two checkpoints pass under a limit of two, with a look at the deadline in between, and the third
one fails; a run of six steps is halted at its third. -/
theorem Budget.step_ceiling_two :
    let options : Options := ⟨2, none, false⟩
    let budget := (ofOptions options).after [.checkpoint 0, .deadline 5, .checkpoint 7]
    let report := (Plan.run Plan.twoTicks Plan.ticking options Clock.ticking ⟨0, []⟩).1
    options.maxSteps ≤ counterMax ∧ budget.checkDeadline 9 = none ∧
      (budget.checkpoint 9).1 = some (.stepLimit 2) ∧ report.halt? = some (.stepLimit 2) ∧
      ∃ earlier, report.journal = earlier ++ [.step] ∧ earlier.countP Event.isStep = 2 := by
  intro options budget report
  have range : options.maxSteps ≤ counterMax := by decide
  obtain ⟨checks, runs⟩ := step_ceiling options rfl range
  obtain ⟨early, third⟩ := checks [.checkpoint 0, .deadline 5, .checkpoint 7] 9
  obtain ⟨held, -⟩ := runs Nat Plan.twoTicks Plan.ticking Clock.ticking ⟨0, []⟩
  have many : report.journal.countP Event.isStep = 3 := by decide +kernel
  rcases held (by decide) with few | ⟨halted, last⟩
  · rw [many] at few
    exact absurd few (by decide)
  · exact ⟨range, early, third, halted, last⟩

/-- Blank lines are run to their end under the greatest count, however many there are. -/
theorem Machine.runBlock_blanks (setting : Setting σ) (count : Nat) (machine : Machine σ)
    (untimed : machine.budget.deadlineMs = none)
    (greatest : machine.budget.maxSteps = Budget.counterMax) :
    ∃ after : Machine σ, runBlock setting (List.replicate count .blank) machine = (.next, after) ∧
      after.steps = machine.steps + count := by
  induction count generalizing machine with
  | zero => exact ⟨machine, by rw [List.replicate_zero, runBlock_nil]; rfl, rfl⟩
  | succ count ih =>
    have shown : machine.budget.count.consumed ≤ Budget.counterMax := Nat.min_le_right ..
    have passed := checkpoint_untimed setting untimed
    rw [greatest, if_neg (Nat.not_lt.mpr shown)] at passed
    have noted : (machine.checkpoint setting).2.steps = machine.steps + 1 :=
      List.countP_cons_of_pos rfl
    let blank := (machine.checkpoint setting).2.note .blank
    have intime : Action.check (checkDeadline setting) blank =
        (.next, (blank.checkDeadline setting).2) :=
      Action.check_none (Budget.checkDeadline_untimed untimed _)
    obtain ⟨after, ran, steps⟩ := ih (blank.checkDeadline setting).2 untimed greatest
    refine ⟨after, ?_, ?_⟩
    · rw [List.replicate_succ, runBlock_cons, Action.andThen_next, ran]
      rw [Action.andThen_next, intime]
      rw [Action.andThen_next passed, runStatement]
    · have kept : (blank.checkDeadline setting).2.steps = (machine.checkpoint setting).2.steps := rfl
      rw [steps, kept, noted]
      omega

/-- At the greatest value the counter stays, so a limit of this value is never passed. -/
theorem Plan.run_blanks (count : Nat) (registry : Registry σ) (options : Options) (clock : Clock)
    (memories : Memories σ) (untimed : options.deadlineMs = none)
    (greatest : options.maxSteps = Budget.counterMax) :
    let report := (Plan.run (List.replicate count .blank) registry options clock memories).1
    report.ok = true ∧ report.journal.countP Event.isStep = count := by
  obtain ⟨after, ran, steps⟩ := Machine.runBlock_blanks ⟨registry, options.dryRun, clock⟩ count
    (Machine.start options memories) untimed greatest
  have told : Plan.run (List.replicate count .blank) registry options clock memories =
      Report.ofOutcome (.next, after) := congrArg Report.ofOutcome ran
  have uncounted : (Machine.start options memories).steps = 0 := rfl
  have noted : after.journal.countP Event.isStep = count := by
    rw [uncounted, Nat.zero_add] at steps
    exact steps
  rw [told]
  exact ⟨rfl, (List.countP_reverse ..).trans noted⟩

/-- Under the greatest count there is no ceiling: after as many checkpoints as it allows the next one
passes, and a plan of one blank line more is run to its end, with a step for each of them. -/
theorem Budget.ceiling_missing :
    let options : Options := ⟨counterMax, none, false⟩
    let earlier := List.replicate counterMax (Check.checkpoint 0)
    let plan : Plan := List.replicate (counterMax + 1) .blank
    let report := (plan.run Plan.ticking options Clock.ticking ⟨0, []⟩).1
    options.maxSteps < earlier.countP Check.counts + 1 ∧
      (((ofOptions options).after earlier).checkpoint 0).1 = none ∧
      report.ok = true ∧ options.maxSteps < report.journal.countP Event.isStep := by
  intro options earlier plan report
  have checks : earlier.countP Check.counts = counterMax := by
    rw [List.countP_replicate]
    rfl
  have passed := checkpoint_after options rfl (Nat.le_refl _) earlier 0
  rw [if_pos (.inr rfl)] at passed
  obtain ⟨ok, steps⟩ :=
    Plan.run_blanks (counterMax + 1) Plan.ticking options Clock.ticking ⟨0, []⟩ rfl rfl
  refine ⟨?_, passed, ok, ?_⟩
  · rw [checks]
    exact Nat.lt_succ_self _
  · rw [steps]
    exact Nat.lt_succ_self _

end ToolPlan
