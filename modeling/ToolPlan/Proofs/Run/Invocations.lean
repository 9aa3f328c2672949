import ToolPlan.Proofs.Run.Steps

/-!
The trace as a log of what the tools saw. In a run that is not dry every call in the trace was seen
by its tool with these arguments and answered with this result, in the order of the trace. At most
one more call was seen, and only by a tool whose failure halted the run; nothing is noted after that
(`Plan.run_invocations`).
-/

namespace ToolPlan

variable {σ : Type}

/-- The tools of a registry saw calls in this order and gave these answers, each from the memories
that the call before it had left: from those at the start to those at the end. -/
inductive Registry.Saw (registry : Registry σ) (start : Memories σ) :
    List (String × Entries Value × Except ToolError Value) → Memories σ → Prop where
  | nothing : Saw registry start [] start
  | call {earlier memories name args tool} : Saw registry start earlier memories →
      Entries.get? registry name = some tool →
      Saw registry start (earlier ++ [(name, args, (tool.invoke (.map args) memories).1.outcome)])
        (tool.invoke (.map args) memories).2

namespace Registry.Saw

variable {setting : Setting σ} {plan : Plan} {start : Memories σ} {machine : Machine σ}

/-- A tool sees a call, answers it and is left with new memories. -/
theorem answered {registry : Registry σ} {call : Call} {tool : Tool σ}
    (saw : registry.Saw start machine.invocations.reverse machine.memories)
    (known : Entries.get? registry call.name = some tool) :
    registry.Saw start (machine.answered call tool).invocations.reverse
      (machine.answered call tool).memories := by
  rw [Machine.invocations_answered, List.reverse_cons]
  exact .call saw known

/-- A call that reaches its tool is added to those that were seen, with the memories it left. -/
theorem called {call : Call} {outcome : Flow × Machine σ}
    (saw : setting.registry.Saw start machine.invocations.reverse machine.memories)
    (called : Machine.Called setting call machine outcome) :
    setting.registry.Saw start outcome.2.invocations.reverse outcome.2.memories := by
  cases called with
  | unknown unknown => exact saw
  | dry known isDry =>
    rw [Machine.invocations_conclude, Machine.memories_conclude]
    exact saw
  | failed known live answer => exact saw.answered known
  | answered known live answer =>
    rw [Machine.invocations_conclude, Machine.memories_conclude]
    exact saw.answered known

/-- At every step, of a dry run too, the memories are those that the calls so far have left. -/
theorem step {before after : Flow × Machine σ} (step : Step setting plan before after)
    (saw : setting.registry.Saw start before.2.invocations.reverse before.2.memories) :
    setting.registry.Saw start after.2.invocations.reverse after.2.memories := by
  cases step with
  | quiet quiet =>
    rw [quiet.invocations, quiet.memories]
    exact saw
  | assign among => exact saw
  | call among called => exact saw.called called
  | branch among => exact saw
  | enter among => exact saw
  | restore among =>
    rw [Machine.invocations_restore, Machine.memories_restore]
    exact saw
  | finish among => exact saw

end Registry.Saw

/-- How the calls that tools saw relate to the trace: the trace tells of all, or it tells of all but
the last one, which failed and halted the run, and which is the last event. -/
inductive Told : Flow → Machine σ → Prop where
  | all {flow machine} : (∀ name error, flow ≠ .halted (.toolFailure name error)) →
      machine.invocations = machine.trace.filterMap TraceEntry.invocation? → Told flow machine
  | failed {machine name args error earlier} :
      machine.journal = .invoked name args (.error error) :: earlier →
      machine.invocations =
        (name, args, .error error) :: machine.trace.filterMap TraceEntry.invocation? →
      Told (.halted (.toolFailure name error)) machine

namespace Told

variable {setting : Setting σ} {plan : Plan} {machine after : Machine σ} {flow : Flow}

/-- As long as the run goes on, the trace tells of every call. -/
theorem of_next (told : Told .next machine) :
    machine.invocations = machine.trace.filterMap TraceEntry.invocation? := by
  cases told with
  | all _ same => exact same

/-- No tool sees a call, and the trace tells of none. -/
theorem unseen (told : Told .next machine)
    (kept : ∀ name error, flow ≠ .halted (.toolFailure name error))
    (sameInvocations : after.invocations = machine.invocations)
    (sameCalls : after.trace.filterMap TraceEntry.invocation? =
      machine.trace.filterMap TraceEntry.invocation?) : Told flow after := by
  refine .all kept ?_
  rw [sameInvocations, sameCalls]
  exact told.of_next

/-- A call that is answered is told of, and one that fails halts the run at once. -/
theorem call {request : Call} {outcome : Flow × Machine σ} (live : setting.dryRun = false)
    (called : Machine.Called setting request machine outcome) (told : Told .next machine) :
    Told outcome.1 outcome.2 := by
  cases called with
  | unknown unknown => exact told.unseen nofun rfl rfl
  | dry known isDry =>
    rw [live] at isDry
    cases isDry
  | @failed tool error known live answer =>
    have last := machine.journal_answered request tool
    rw [answer] at last
    refine .failed last ?_
    rw [Machine.invocations_answered, Machine.trace_answered, answer, told.of_next]
  | answered known live answer =>
    refine .all nofun ?_
    rw [Machine.invocations_conclude, Machine.trace_conclude, Machine.invocations_answered,
      Machine.trace_answered, answer, told.of_next]
    rfl

theorem restore {var : String} {saved : Option Value} (told : Told flow machine) :
    Told flow (machine.restore var saved) := by
  cases told with
  | all kept same =>
    refine .all kept ?_
    rw [Machine.invocations_restore, Machine.trace_restore]
    exact same
  | failed last same =>
    refine .failed ((machine.restore_journal var saved).trans last) ?_
    rw [Machine.invocations_restore, Machine.trace_restore]
    exact same

theorem step {before after : Flow × Machine σ} (live : setting.dryRun = false)
    (step : Step setting plan before after) (told : Told before.1 before.2) :
    Told after.1 after.2 := by
  cases step with
  | quiet quiet =>
    refine told.unseen ?_ quiet.invocations (by rw [quiet.trace])
    intro name error failed
    have plain := quiet.plain
    rw [failed] at plain
    cases plain
  | assign among => exact told.unseen nofun rfl rfl
  | call among called => exact told.call live called
  | branch among => exact told.unseen nofun rfl rfl
  | enter among => exact told.unseen nofun rfl rfl
  | restore among => exact told.restore
  | finish among => exact told.unseen nofun rfl rfl

end Told

/-- The tools saw the calls so far, and the trace tells of them. -/
structure Logged (registry : Registry σ) (start : Memories σ) (outcome : Flow × Machine σ) :
    Prop where
  saw : registry.Saw start outcome.2.invocations.reverse outcome.2.memories
  told : Told outcome.1 outcome.2

theorem Logged.step {setting : Setting σ} {plan : Plan} {start : Memories σ}
    {before after : Flow × Machine σ} (live : setting.dryRun = false)
    (step : Step setting plan before after) (logged : Logged setting.registry start before) :
    Logged setting.registry start after :=
  ⟨logged.saw.step step, logged.told.step live step⟩

namespace Plan

/-- What tools saw in a run that is not dry: the calls of the trace, with their arguments and
results, in the order of the trace; and after these one more, if and only if the run was halted by
the failure of that tool, which is then the last thing that the run noted. The memories of the tools
are those that these calls left, one after the other. -/
theorem run_invocations (plan : Plan) (registry : Registry σ) (maxSteps : Nat)
    (deadlineMs : Option Nat) (clock : Clock) (memories : Memories σ) :
    let ran := plan.run registry ⟨maxSteps, deadlineMs, false⟩ clock memories
    let told := ran.1.trace.filterMap TraceEntry.invocation?
    registry.Saw memories ran.1.invocations ran.2 ∧
      ((ran.1.invocations = told ∧ ∀ name error, ran.1.halt? ≠ some (.toolFailure name error)) ∨
        ∃ name args error earlier, ran.1.halt? = some (.toolFailure name error) ∧
          ran.1.invocations = told ++ [(name, args, .error error)] ∧
          ran.1.journal = earlier ++ [.invoked name args (.error error)]) := by
  obtain ⟨⟨flow, machine⟩, ⟨saw, logged⟩, same⟩ := run_invariant plan registry
    ⟨maxSteps, deadlineMs, false⟩ clock memories
    (show Logged registry memories (.next, _) from ⟨.nothing, .all nofun rfl⟩) (Logged.step rfl)
  rw [same]
  intro ran told
  have calls : told = (machine.trace.filterMap TraceEntry.invocation?).reverse := by
    rw [← List.filterMap_reverse]
    exact congrArg _ (Report.ofOutcome_trace (flow, machine))
  have invocations : ran.1.invocations = machine.invocations.reverse :=
    Report.ofOutcome_invocations (flow, machine)
  rw [calls, invocations]
  refine ⟨saw, ?_⟩
  cases logged with
  | all kept alike =>
    left
    refine ⟨congrArg List.reverse alike, ?_⟩
    intro name error halted
    exact kept name error (Report.halt?_eq_some.mp halted)
  | @failed machine name args error earlier last alike =>
    right
    refine ⟨name, args, error, earlier.reverse, rfl, ?_, ?_⟩
    · rw [alike, List.reverse_cons]
    · exact (congrArg List.reverse last).trans List.reverse_cons

end Plan

end ToolPlan
