import ToolPlan.Proofs.Run.Steps

/-!
The variables of a run by its trace. A variable that no loop of the plan runs over has, at every
moment and so at the end, the value that the trace gave it last, and no value where the trace gives
it none (`Plan.run_vars`). Loops may move such a variable to another place, but do not touch its
value.
-/

namespace ToolPlan

variable {σ : Type}

/-- The value that an entry of the trace gives to a variable, if it gives one: that of an
assignment, or the captured result of a call. -/
def TraceEntry.binding? (name : String) : TraceEntry → Option Value
  | .assigned var value => if var = name then some value else none
  | .called _ _ capture result => if capture = some name then some result else none
  | .branched _ _ => none
  | .iterated _ _ _ => none
  | .returned _ => none

/-- An entry binds a variable if it tells of an assignment or of a capture under that name. -/
theorem TraceEntry.binding?_eq_some {name : String} {entry : TraceEntry} {value : Value} :
    entry.binding? name = some value ↔ entry = .assigned name value ∨
      ∃ tool args, entry = .called tool args (some name) value := by
  cases entry <;> simp [binding?]

/-- A trace gives a variable a last value if it gives it one at all. -/
theorem TraceEntry.exists_last_iff {name : String} {trace : List TraceEntry} :
    (∃ value, (trace.filterMap (binding? name)).getLast? = some value) ↔
      (∃ value, .assigned name value ∈ trace) ∨
        ∃ tool args result, .called tool args (some name) result ∈ trace := by
  constructor
  · rintro ⟨value, last⟩
    obtain ⟨entry, told, gives⟩ := List.mem_filterMap.mp (List.mem_of_getLast? last)
    rcases binding?_eq_some.mp gives with rfl | ⟨tool, args, rfl⟩
    · exact .inl ⟨value, told⟩
    · exact .inr ⟨tool, args, value, told⟩
  · intro told
    have given : ∃ value, value ∈ trace.filterMap (binding? name) := by
      rcases told with ⟨value, told⟩ | ⟨tool, args, value, told⟩
      · exact ⟨value, List.mem_filterMap.mpr ⟨_, told, if_pos rfl⟩⟩
      · exact ⟨value, List.mem_filterMap.mpr ⟨_, told, if_pos rfl⟩⟩
    obtain ⟨value, among⟩ := given
    exact ⟨_, List.getLast?_eq_some_getLast (List.ne_nil_of_mem among)⟩

namespace Machine

/-- A variable that is given back what it had has just that. -/
theorem get?_restore_self (machine : Machine σ) (var : String) (saved : Option Value) :
    Entries.get? (machine.restore var saved).vars var = saved := by
  cases saved with
  | none => exact machine.env.get?_remove_self var
  | some value => exact Entries.get?_insert_self ..

/-- Giving a variable back what it had leaves the others as they are. -/
theorem get?_restore_of_ne (machine : Machine σ) {name var : String} (differ : name ≠ var)
    (saved : Option Value) :
    Entries.get? (machine.restore var saved).vars name = Entries.get? machine.vars name := by
  cases saved with
  | none => exact machine.env.get?_remove_of_ne differ
  | some value => exact Entries.get?_insert_of_ne _ _ differ

end Machine

/-- The variables that no loop runs over have the value that the trace gave them last. -/
def Accounted (plan : Plan) (machine : Machine σ) : Prop :=
  ∀ name ∉ plan.loopVars, Entries.get? machine.vars name =
    (machine.trace.filterMap (TraceEntry.binding? name)).head?

namespace Accounted

variable {setting : Setting σ} {plan : Plan} {machine after : Machine σ}

/-- The variables stay, and the trace gives no variable a value. -/
theorem unbound (accounted : Accounted plan machine) (sameVars : after.vars = machine.vars)
    (sameTrace : ∀ name, after.trace.filterMap (TraceEntry.binding? name) =
      machine.trace.filterMap (TraceEntry.binding? name)) : Accounted plan after := by
  intro name free
  rw [sameVars, sameTrace]
  exact accounted name free

/-- A variable takes a value, and the trace gives it this value. -/
theorem bound (accounted : Accounted plan machine) {name : String} {value : Value}
    {entry : TraceEntry} (gives : entry.binding? name = some value)
    (others : ∀ other ≠ name, entry.binding? other = none) :
    Accounted plan ((machine.define name value).note (.traced entry)) := by
  intro other free
  rw [Machine.trace_traced, Machine.trace_define, List.filterMap_cons]
  by_cases same : other = name
  · subst same
    rw [gives]
    exact Entries.get?_insert_self ..
  · rw [others other same]
    exact (Entries.get?_insert_of_ne _ _ same).trans (accounted other free)

/-- The loop variable takes a value or loses its value, which concerns no other variable. -/
theorem looped (accounted : Accounted plan machine) {var : String} (looping : var ∈ plan.loopVars)
    (others : ∀ name ≠ var, Entries.get? after.vars name = Entries.get? machine.vars name)
    (sameTrace : ∀ name, after.trace.filterMap (TraceEntry.binding? name) =
      machine.trace.filterMap (TraceEntry.binding? name)) : Accounted plan after := by
  intro name free
  have differ : name ≠ var := by
    rintro rfl
    exact free looping
  rw [others name differ, sameTrace]
  exact accounted name free

theorem restore (accounted : Accounted plan machine) {var : String}
    (looping : var ∈ plan.loopVars) (saved : Option Value) :
    Accounted plan (machine.restore var saved) := by
  refine accounted.looped looping
    (fun name differ => Machine.get?_restore_of_ne machine differ saved) ?_
  intro name
  rw [Machine.trace_restore]

/-- A result that is kept is told of, with its name. -/
theorem conclude (accounted : Accounted plan machine) (call : Call) (args : Entries Value)
    (result : Value) : Accounted plan (machine.conclude call args result) := by
  simp only [Machine.conclude]
  cases call.capture with
  | none =>
    refine accounted.unbound rfl ?_
    intro name
    exact List.filterMap_cons_none rfl
  | some capture =>
    refine accounted.bound (if_pos rfl) ?_
    intro other differ
    exact if_neg fun same => differ (Option.some.inj same).symm

/-- A call that fails or is refused binds nothing. -/
theorem call {request : Call} {outcome : Flow × Machine σ} (accounted : Accounted plan machine)
    (called : Machine.Called setting request machine outcome) : Accounted plan outcome.2 := by
  cases called with
  | unknown unknown => exact accounted
  | dry known isDry =>
    apply conclude
    exact accounted.unbound rfl fun _ => rfl
  | failed known live error => exact accounted.unbound rfl fun _ => rfl
  | answered known live result =>
    apply conclude
    exact accounted.unbound rfl fun _ => rfl

theorem step {before after : Flow × Machine σ} (step : Step setting plan before after)
    (accounted : Accounted plan before.2) : Accounted plan after.2 := by
  cases step with
  | quiet quiet =>
    refine accounted.unbound quiet.vars ?_
    intro name
    rw [quiet.trace]
  | assign among =>
    refine accounted.bound (if_pos rfl) ?_
    intro other differ
    exact if_neg (Ne.symm differ)
  | call among called => exact accounted.call called
  | branch among => exact accounted.unbound rfl fun _ => rfl
  | enter among =>
    exact accounted.looped (Plan.mem_loopVars among)
      (fun name differ => Entries.get?_insert_of_ne _ _ differ) fun _ => rfl
  | restore among => exact accounted.restore (Plan.mem_loopVars among) _
  | finish among => exact accounted.unbound rfl fun _ => rfl

end Accounted

namespace Plan

/-- The trace of a run determines its variables at the end, however it ended: a variable that no
loop of the plan runs over is there if and only if the trace has an assignment to it or a call that
captures its result in it, and its value is that of the last such entry. No variable stands
twice. -/
theorem run_vars (plan : Plan) (registry : Registry σ) (options : Options) (clock : Clock)
    (memories : Memories σ) {name : String} (free : name ∉ plan.loopVars) :
    let report := (plan.run registry options clock memories).1
    (Entries.keys report.vars).Nodup ∧
      (name ∈ Entries.keys report.vars ↔ (∃ value, .assigned name value ∈ report.trace) ∨
        ∃ tool args result, .called tool args (some name) result ∈ report.trace) ∧
      Entries.get? report.vars name =
        (report.trace.filterMap (TraceEntry.binding? name)).getLast? := by
  obtain ⟨⟨flow, machine⟩, accounted, same⟩ := run_invariant plan registry options clock memories
    (show Accounted plan (Machine.start options memories) from fun _ _ => rfl)
    Accounted.step
  rw [same]
  intro report
  have trace : report.trace = machine.trace.reverse := Report.ofOutcome_trace (flow, machine)
  have latest : Entries.get? report.vars name =
      (report.trace.filterMap (TraceEntry.binding? name)).getLast? := by
    rw [trace, List.filterMap_reverse, List.getLast?_reverse]
    exact accounted name free
  refine ⟨machine.env.distinct, ?_, latest⟩
  rw [Entries.mem_keys_iff, latest]
  exact TraceEntry.exists_last_iff

/-- The body of a loop assigns and captures; then an unknown tool halts the run. -/
def gathering : Plan :=
  [.loop "i" (.array [.number (.int 1), .number (.int 2)])
    [.assign "x" (.var "i" []), .call ⟨"fetch", [], some "y", .start⟩],
   .call ⟨"store", [], none, .start⟩]

/-- When the loop variable goes, the last variable takes its place. -/
theorem run_vars_gathering :
    let report := (Plan.run gathering ([("fetch", .fixture .null)] : Registry Unit) ⟨9, none, false⟩
      Clock.ticking ⟨(), []⟩).1
    "x" ∉ Plan.loopVars gathering ∧ report.halt? = some (.unknownTool "store") ∧
      Entries.keys report.vars = ["y", "x"] ∧
      (report.trace.filterMap (TraceEntry.binding? "x")).length = 2 ∧
      Entries.get? report.vars "x" =
        (report.trace.filterMap (TraceEntry.binding? "x")).getLast? := by
  have free : "x" ∉ Plan.loopVars gathering := by decide
  obtain ⟨-, -, latest⟩ := run_vars gathering ([("fetch", .fixture .null)] : Registry Unit)
    ⟨9, none, false⟩ Clock.ticking ⟨(), []⟩ free
  exact ⟨free, by decide +kernel, by decide +kernel, by decide +kernel, latest⟩

end Plan

end ToolPlan
