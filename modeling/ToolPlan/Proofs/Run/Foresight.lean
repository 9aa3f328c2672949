import ToolPlan.Proofs.Run.Steps

/-!
What the analysis of a plan foresees. Whatever the tools answer and whatever the clock shows, a run
makes only calls that the analysis lists, of tools that are there, and it meets an unknown tool only
where the analysis says that one is missing (`Plan.run_foreseen`).
-/

namespace ToolPlan

variable {σ : Type}

/-- The values of arguments stand under the names of the arguments, in the same order. -/
theorem Expr.keys_resolveEntries (vars : Bindings) (entries : List (String × Expr)) :
    Entries.keys (resolveEntries vars entries) = Entries.keys entries := by
  induction entries with
  | nil => rfl
  | cons entry entries ih =>
    obtain ⟨key, value⟩ := entry
    simp only [Entries.keys, resolveEntries, List.map_cons] at ih ⊢
    rw [ih]

namespace Plan

variable {plan : Plan} {registry : Registry σ} {name : String}

theorem mem_requiredTools : name ∈ plan.requiredTools ↔ ∃ call ∈ plan.calls, call.name = name := by
  rw [requiredTools, List.mem_eraseDups, List.mem_map]

theorem mem_missingTools : name ∈ plan.missingTools registry ↔
    name ∈ plan.requiredTools ∧ Entries.get? registry name = none := by
  simp [missingTools, Registry.missing, Entries.contains]

/-- The plan has a call of this name and capture, and with arguments of these names. -/
def Lists (plan : Plan) (name : String) (args : Entries Value) (capture : Option String) : Prop :=
  ∃ call ∈ plan.calls, call.name = name ∧ call.capture = capture ∧
    Entries.keys call.args = Entries.keys args

/-- A call of the plan is listed under its name, whatever its arguments resolve to. -/
theorem lists_of_mem {call : Call} (among : .call call ∈ plan.parts) (vars : Bindings) :
    plan.Lists call.name (Expr.resolveEntries vars call.args) call.capture :=
  ⟨call, Statement.mem_callsOf.mpr among, rfl, rfl, (Expr.keys_resolveEntries ..).symm⟩

end Plan

/-- An unknown tool is missing by the analysis, and every call in the trace is listed by it, of a
tool that is there. -/
structure Foreseen (plan : Plan) (registry : Registry σ) (outcome : Flow × Machine σ) : Prop where
  missing : ∀ name, outcome.1 = .halted (.unknownTool name) → name ∈ plan.missingTools registry
  listed : ∀ name args capture result, .called name args capture result ∈ outcome.2.trace →
    plan.Lists name args capture ∧ Entries.contains registry name = true

namespace Foreseen

variable {setting : Setting σ} {plan : Plan} {registry : Registry σ} {machine after : Machine σ}

/-- An entry that tells of no call is added to the trace. -/
theorem traced (foreseen : Foreseen plan registry (.next, machine)) {flow : Flow}
    {entry : TraceEntry} (known : ∀ name, flow ≠ .halted (.unknownTool name))
    (uncalled : entry.invocation? = none)
    (added : after.trace = entry :: machine.trace) : Foreseen plan registry (flow, after) := by
  constructor
  · intro name unknown
    exact absurd unknown (known name)
  · intro name args capture result among
    rw [added] at among
    rcases List.mem_cons.mp among with same | among
    · subst same
      cases uncalled
    · exact foreseen.listed _ _ _ _ among

/-- A call of the plan is added to the trace, of a tool that is there. -/
theorem concluded (foreseen : Foreseen plan registry (.next, machine)) {call : Call} {tool : Tool σ}
    (among : .call call ∈ plan.parts) (known : Entries.get? registry call.name = some tool)
    {vars : Bindings} {value : Value} (added : after.trace =
      .called call.name (Expr.resolveEntries vars call.args) call.capture value :: machine.trace) :
    Foreseen plan registry (.next, after) := by
  refine ⟨nofun, ?_⟩
  intro name args capture result told
  rw [added] at told
  rcases List.mem_cons.mp told with same | told
  · obtain ⟨rfl, rfl, rfl, rfl⟩ := TraceEntry.called.inj same
    refine ⟨Plan.lists_of_mem among vars, ?_⟩
    rw [Entries.contains, known, Option.isSome_some]
  · exact foreseen.listed _ _ _ _ told

/-- A call of an unknown tool halts the run, and any other is listed. -/
theorem call {request : Call} {outcome : Flow × Machine σ} (among : .call request ∈ plan.parts)
    (called : Machine.Called setting request machine outcome)
    (foreseen : Foreseen plan setting.registry (.next, machine)) :
    Foreseen plan setting.registry outcome := by
  cases called with
  | unknown unknown =>
    refine ⟨?_, foreseen.listed⟩
    rintro name ⟨⟩
    have required : request.name ∈ plan.requiredTools :=
      Plan.mem_requiredTools.mpr ⟨request, Statement.mem_callsOf.mpr among, rfl⟩
    exact Plan.mem_missingTools.mpr ⟨required, unknown⟩
  | dry known isDry => exact foreseen.concluded among known (Machine.trace_conclude ..)
  | failed known live error => exact ⟨nofun, foreseen.listed⟩
  | answered known live result => exact foreseen.concluded among known (Machine.trace_conclude ..)

theorem step {before after : Flow × Machine σ} (step : Step setting plan before after)
    (foreseen : Foreseen plan setting.registry before) : Foreseen plan setting.registry after := by
  cases step with
  | quiet quiet =>
    constructor
    · intro name unknown
      have plain := quiet.plain
      rw [unknown] at plain
      cases plain
    · rw [quiet.trace]
      exact foreseen.listed
  | assign among => exact foreseen.traced nofun rfl rfl
  | call among called => exact foreseen.call among called
  | branch among => exact foreseen.traced nofun rfl rfl
  | enter among => exact foreseen.traced nofun rfl rfl
  | restore among =>
    refine ⟨foreseen.missing, ?_⟩
    rw [Machine.trace_restore]
    exact foreseen.listed
  | finish among => exact foreseen.traced nofun rfl rfl

end Foreseen

namespace Plan

/-- The analysis is sound for every run of every plan: an unknown tool that halts a run is among the
missing ones, so a plan that misses none is never halted so; and every call in the trace has the
name, the capture and the argument names of a call that the analysis lists, and its tool is required
and there. -/
theorem run_foreseen (plan : Plan) (registry : Registry σ) (options : Options) (clock : Clock)
    (memories : Memories σ) :
    let report := (plan.run registry options clock memories).1
    (∀ name, report.halt? = some (.unknownTool name) → name ∈ plan.missingTools registry) ∧
      (plan.missingTools registry = [] → ∀ name, report.halt? ≠ some (.unknownTool name)) ∧
      ∀ name args capture result, .called name args capture result ∈ report.trace →
        (∃ call ∈ plan.calls, call.name = name ∧ call.capture = capture ∧
          Entries.keys call.args = Entries.keys args) ∧
        name ∈ plan.requiredTools ∧ Entries.contains registry name = true := by
  obtain ⟨outcome, foreseen, ran⟩ := run_invariant plan registry options clock memories
    (show Foreseen plan registry (.next, Machine.start options memories) from ⟨nofun, nofun⟩)
    Foreseen.step
  rw [ran]
  intro report
  have trace : report.trace = outcome.2.trace.reverse := Report.ofOutcome_trace outcome
  have missing : ∀ name, report.halt? = some (.unknownTool name) →
      name ∈ plan.missingTools registry :=
    fun name halted => foreseen.missing name (Report.halt?_eq_some.mp halted)
  refine ⟨missing, ?_, ?_⟩
  · intro none name halted
    have among := missing name halted
    rw [none] at among
    cases among
  · intro name args capture result told
    rw [trace, List.mem_reverse] at told
    obtain ⟨⟨call, among, same, matching⟩, known⟩ := foreseen.listed _ _ _ _ told
    exact ⟨⟨call, among, same, matching⟩, mem_requiredTools.mpr ⟨call, among, same⟩, known⟩

/-- What the first tool answers decides whether the second one is called. -/
def notifying : Plan :=
  [.call ⟨"fetch", [("id", .number (.int 1))], some "order", .start⟩,
   .branch (.compare .eq (.var "order" []) .null) [.call ⟨"notify", [], none, .start⟩] none]

/-- The first answer leads to the second call, whose tool is missing, as the analysis says. -/
theorem run_foreseen_notifying :
    let fetching : Registry Unit := [("fetch", .fixture .null)]
    let report := (Plan.run notifying fetching ⟨9, none, false⟩ Clock.ticking ⟨(), []⟩).1
    report.halt? = some (.unknownTool "notify") ∧ "notify" ∈ missingTools notifying fetching ∧
      report.trace.map TraceEntry.kind = ["CALL", "IF"] ∧
      ∀ name args capture result, .called name args capture result ∈ report.trace →
        name ∈ requiredTools notifying := by
  intro fetching report
  have halted : report.halt? = some (.unknownTool "notify") := by decide +kernel
  obtain ⟨missing, -, listed⟩ :=
    run_foreseen notifying fetching ⟨9, none, false⟩ Clock.ticking ⟨(), []⟩
  refine ⟨halted, missing _ halted, by decide +kernel, ?_⟩
  intro name args capture result told
  exact (listed _ _ _ _ told).2.1

end Plan

end ToolPlan
