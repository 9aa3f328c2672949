import ToolPlan.Proofs.Run.Invocations

/-!
A returned value ends everything. The trace of a run tells of a returned value exactly if the run
succeeds with this value, and then nothing comes after it: the value is the last thing that the run
notes, the steps counted are those before it, and the memories of the tools are those that the calls
before it have left (`Plan.run_returned`). How deep the statement stands in branches and loops does
not matter, as these only pass the value on.
-/

namespace ToolPlan

variable {σ : Type}

/-! ### The last event -/

/-- How a run stands to the values that its trace tells of as returned: it has returned none, or one,
which is then the last event and the first of its kind. -/
inductive Ending : Flow → Machine σ → Prop where
  | pending {flow machine} : (∀ value, flow ≠ .returned value) →
      (∀ value, .returned value ∉ machine.trace) → Ending flow machine
  | reached {machine value earlier} : machine.journal = .traced (.returned value) :: earlier →
      (∀ other, .returned other ∉ earlier.filterMap Event.traceEntry?) →
      Ending (.returned value) machine

namespace Ending

variable {setting : Setting σ} {plan : Plan} {machine after : Machine σ} {flow : Flow}

/-- While a run goes on, it has returned nothing. -/
theorem of_next (ending : Ending .next machine) (value : Value) :
    .returned value ∉ machine.trace := by
  cases ending with
  | pending _ unreturned => exact unreturned value

/-- The trace stays as it is, and no value is returned. -/
theorem untraced (ending : Ending .next machine) (goesOn : ∀ value, flow ≠ .returned value)
    (same : after.trace = machine.trace) : Ending flow after := by
  refine .pending goesOn ?_
  rw [same]
  exact ending.of_next

/-- The trace tells of something else. -/
theorem traced (ending : Ending .next machine) {entry : TraceEntry}
    (added : after.trace = entry :: machine.trace) (other : ∀ value, .returned value ≠ entry) :
    Ending .next after := by
  refine .pending nofun ?_
  intro value among
  rw [added] at among
  rcases List.mem_cons.mp among with same | among
  · exact other value same
  · exact ending.of_next value among

theorem call {request : Call} {outcome : Flow × Machine σ} (ending : Ending .next machine)
    (called : Machine.Called setting request machine outcome) : Ending outcome.1 outcome.2 := by
  cases called with
  | unknown unknown => exact ending.untraced nofun rfl
  | dry known isDry => exact ending.traced (Machine.trace_conclude ..) nofun
  | failed known live answer => exact ending.untraced nofun (Machine.trace_answered ..)
  | answered known live answer => exact ending.traced (Machine.trace_conclude ..) nofun

theorem restore {var : String} {saved : Option Value} (ending : Ending flow machine) :
    Ending flow (machine.restore var saved) := by
  cases ending with
  | pending goesOn unreturned =>
    refine .pending goesOn ?_
    rw [Machine.trace_restore]
    exact unreturned
  | reached last first => exact .reached ((machine.restore_journal var saved).trans last) first

/-- By the kind of the step: only one kind returns, and it ends the run. -/
theorem step {before after : Flow × Machine σ} (step : Step setting plan before after)
    (ending : Ending before.1 before.2) : Ending after.1 after.2 := by
  cases step with
  | quiet quiet =>
    refine ending.untraced ?_ quiet.trace
    intro value returned
    have plain := quiet.plain
    rw [returned] at plain
    cases plain
  | assign among => exact ending.traced rfl nofun
  | call among called => exact ending.call called
  | branch among => exact ending.traced rfl nofun
  | enter among => exact ending.traced rfl nofun
  | restore among => exact ending.restore
  | finish among => exact .reached rfl ending.of_next

end Ending

/-! ### The counter -/

/-- The counter shows the steps that were noted, up to its greatest value. -/
def Machine.Counted (machine : Machine σ) : Prop :=
  machine.budget.consumed = min machine.steps Budget.counterMax

namespace Machine.Counted

variable {setting : Setting σ} {plan : Plan} {machine after : Machine σ}

theorem uncounted (counted : machine.Counted) (sameBudget : after.budget = machine.budget)
    (sameSteps : after.steps = machine.steps) : after.Counted := by
  rw [Counted, sameBudget, sameSteps]
  exact counted

/-- The counter and the journal count the same steps. -/
theorem count (counted : machine.Counted) (oneMore : after.budget = machine.budget.count)
    (noted : after.steps = machine.steps + 1) : after.Counted := by
  have before : machine.budget.consumed = min machine.steps Budget.counterMax := counted
  have after : machine.budget.count.consumed =
      min (machine.budget.consumed + 1) Budget.counterMax := rfl
  rw [Counted, oneMore, noted, after, before]
  omega

theorem call {request : Call} {outcome : Flow × Machine σ} (counted : machine.Counted)
    (called : Called setting request machine outcome) : outcome.2.Counted := by
  cases called with
  | unknown unknown => exact counted
  | dry known isDry => exact counted.uncounted (conclude_budget ..) (steps_conclude ..)
  | failed known live answer => exact counted.uncounted rfl rfl
  | answered known live answer => exact counted.uncounted (conclude_budget ..) (steps_conclude ..)

/-- A step is counted where it is noted. -/
theorem step {before after : Flow × Machine σ} (step : Step setting plan before after)
    (counted : before.2.Counted) : after.2.Counted := by
  cases step with
  | quiet quiet =>
    rcases quiet.counted with ⟨sameBudget, sameSteps⟩ | ⟨oneMore, noted⟩
    · exact counted.uncounted sameBudget sameSteps
    · exact counted.count oneMore noted
  | assign among => exact counted.uncounted rfl rfl
  | call among called => exact counted.call called
  | branch among => exact counted.uncounted rfl rfl
  | enter among => exact counted.uncounted rfl rfl
  | restore among => exact counted.uncounted (restore_budget ..) (steps_restore ..)
  | finish among => exact counted.uncounted rfl rfl

end Machine.Counted

/-! ### Reports -/

/-- What is known of a run at every moment: whether it has returned, how many steps it took, and what
the tools saw. -/
structure Tracked (registry : Registry σ) (start : Memories σ) (outcome : Flow × Machine σ) : Prop where
  ending : Ending outcome.1 outcome.2
  counted : outcome.2.Counted
  saw : registry.Saw start outcome.2.invocations.reverse outcome.2.memories

theorem Tracked.step {setting : Setting σ} {plan : Plan} {start : Memories σ}
    {before after : Flow × Machine σ} (step : Step setting plan before after)
    (tracked : Tracked setting.registry start before) : Tracked setting.registry start after :=
  ⟨tracked.ending.step step, tracked.counted.step step, tracked.saw.step step⟩

theorem Report.returned?_eq_some {report : Report} {value : Value} :
    report.returned? = some value ↔ report.flow = .returned value := by
  unfold Report.returned?
  cases report.flow <;> simp

namespace Plan

/-- A returned value ends everything. The trace tells of a returned value if and only if the run
succeeds and gives this value. No limit and nothing else has halted the run then, and all that it did
came before: the trace tells of no other returned value, and of nothing after this one; the steps
counted are those before it; and the tools saw the calls before it and no others. -/
theorem run_returned (plan : Plan) (registry : Registry σ) (options : Options) (clock : Clock)
    (memories : Memories σ) :
    let ran := plan.run registry options clock memories
    (∀ value, .returned value ∈ ran.1.trace ↔
      ran.1.ok = true ∧ ran.1.returned? = some value) ∧
    ∀ value, .returned value ∈ ran.1.trace → ran.1.halt? = none ∧
      ∃ earlier, ran.1.journal = earlier ++ [.traced (.returned value)] ∧
        ran.1.trace = earlier.filterMap Event.traceEntry? ++ [.returned value] ∧
        (∀ other, .returned other ∉ earlier.filterMap Event.traceEntry?) ∧
        ran.1.steps = min (earlier.countP Event.isStep) Budget.counterMax ∧
        registry.Saw memories (earlier.filterMap Event.invocation?) ran.2 := by
  obtain ⟨⟨flow, machine⟩, ⟨ending, counted, saw⟩, same⟩ := run_invariant plan registry options
    clock memories (show Tracked registry memories (.next, Machine.start options memories) from
      ⟨.pending nofun nofun, rfl, .nothing⟩) Tracked.step
  rw [same]
  intro ran
  have trace : ran.1.trace = machine.trace.reverse := Report.ofOutcome_trace (flow, machine)
  have journal : ran.1.journal = machine.journal.reverse := rfl
  have ended : ran.1.flow = flow := rfl
  cases ending with
  | pending goesOn unreturned =>
    have never : ∀ value, .returned value ∉ ran.1.trace := by
      intro value among
      rw [trace, List.mem_reverse] at among
      exact unreturned value among
    refine ⟨?_, fun value among => absurd among (never value)⟩
    intro value
    rw [Report.returned?_eq_some]
    exact ⟨fun among => absurd among (never value), fun gives => absurd gives.2 (goesOn value)⟩
  | @reached machine value earlier last first =>
    -- The journal is kept with the latest event first, so its head is the end of the trace.
    have split : ran.1.trace = earlier.reverse.filterMap Event.traceEntry? ++ [.returned value] := by
      have told : machine.trace = .returned value :: earlier.filterMap Event.traceEntry? := by
        rw [Machine.trace, last]
        rfl
      rw [trace, told, List.reverse_cons, List.filterMap_reverse]
    have only : ∀ other, .returned other ∈ ran.1.trace ↔ other = value := by
      intro other
      rw [split, List.mem_append, List.filterMap_reverse, List.mem_reverse, List.mem_singleton,
        or_iff_right (first other), TraceEntry.returned.injEq]
    constructor
    · intro other
      rw [only, Report.returned?_eq_some, ended, Flow.returned.injEq]
      exact ⟨fun same => ⟨rfl, same.symm⟩, fun gives => gives.2.symm⟩
    · intro other among
      obtain rfl := (only other).mp among
      refine ⟨rfl, earlier.reverse, ?_, split, ?_, ?_, ?_⟩
      · rw [journal, last, List.reverse_cons]
      · intro again
        rw [List.filterMap_reverse, List.mem_reverse]
        exact first again
      · rw [List.countP_reverse]
        have steps : machine.steps = earlier.countP Event.isStep := by
          rw [Machine.steps, last]
          exact List.countP_cons_of_neg Bool.false_ne_true
        rw [← steps]
        exact counted
      · have invocations : machine.invocations = earlier.filterMap Event.invocation? := by
          rw [Machine.invocations, last, List.filterMap_cons_none rfl]
        rw [List.filterMap_reverse, ← invocations]
        exact saw

/-- A loop that returns from a branch in its first round, after a call of the counting tool. -/
def searching : Plan :=
  [.loop "i" (.array [.number (.int 1), .number (.int 2)])
    [.branch (.compare .eq (.var "i" []) (.number (.int 1)))
      [.call ⟨"tick", [], none, .start⟩, .finish (.var "i" [])] none],
   .call ⟨"tick", [], none, .start⟩]

/-- One more step would pass the limit, and one more look at the clock the deadline. -/
theorem run_returned_searching :
    let late : Clock := fun readings => if readings < 6 then 0 else 2000000
    let ran := Plan.run searching ticking ⟨5, some 1, false⟩ late ⟨0, []⟩
    ∃ value earlier, ran.1.returned? = some value ∧ Json.compact value = "1" ∧
      ran.1.trace = earlier ++ [.returned value] ∧ ran.1.halt? = none ∧ ran.1.steps = 5 ∧
      ran.2.get 0 = 1 := by
  intro late ran
  have printed : ran.1.returned?.map Json.compact = some "1" := by decide +kernel
  obtain ⟨value, gives, one⟩ := Option.map_eq_some_iff.mp printed
  obtain ⟨told, last⟩ := run_returned searching ticking ⟨5, some 1, false⟩ late ⟨0, []⟩
  have among : .returned value ∈ ran.1.trace := (told value).mpr ⟨by decide +kernel, gives⟩
  obtain ⟨unhalted, earlier, -, trace, -⟩ := last value among
  exact ⟨value, _, gives, one, trace, unhalted, by decide +kernel, by decide +kernel⟩

end Plan

end ToolPlan
