import ToolPlan.Proofs.Run.Foresight
import ToolPlan.Proofs.Run.Invocations

/-!
Tools that a plan does not call have no part in its runs. A run looks up the names of the plan's
calls and no others, so it goes as with the tools under these names alone (`Plan.run_only`), and
these read and write nothing but their own memories (`keeps_twins`, `Registry.Saw.confined`). Two
runs whose required tools are the same, in the same state, report the same, whatever other tools
there are (`Plan.run_independent`).
-/

namespace ToolPlan

variable {σ : Type}

/-! ### The tools that are looked up -/

namespace Machine

/-- A call asks the registry for nothing but its name. -/
theorem runCall_congr {setting : Setting σ} {registry : Registry σ} {call : Call}
    (same : Entries.get? setting.registry call.name = Entries.get? registry call.name) :
    runCall setting call = runCall { setting with registry } call := by
  funext machine
  unfold runCall
  rw [same]

/-- The rounds of a loop look at the clock and the budget alone. -/
theorem iterate_registry (setting : Setting σ) (registry : Registry σ) (var : String)
    (body : Action σ) (index : Nat) (items : List Value) :
    iterate setting var body index items = iterate { setting with registry } var body index items := by
  induction items generalizing index with
  | nil => rfl
  | cons item items ih =>
    rw [iterate_cons, iterate_cons, ih]
    rfl

section Congr

variable {setting : Setting σ} {registry : Registry σ}

mutual

/-- A statement runs the same with another registry that has the same tools for its calls. -/
theorem runStatement_congr : ∀ {statement : Statement}, (∀ call ∈ statement.calls,
      Entries.get? setting.registry call.name = Entries.get? registry call.name) →
    runStatement setting statement = runStatement { setting with registry } statement
  | .assign _ _, _ => by
    funext machine
    rw [runStatement, runStatement]
  | .call call, same => by
    rw [runStatement_call, runStatement_call]
    exact runCall_congr (same call (List.mem_singleton.mpr rfl))
  | .branch _ yes no, same => by
    rw [Statement.calls, List.forall_mem_append] at same
    rw [runStatement_branch, runStatement_branch, runBlock_congr same.1, runBranch_congr same.2]
  | .loop _ _ body, same => by
    rw [Statement.calls] at same
    rw [runStatement_loop, runStatement_loop, runBlock_congr same]
    congr 1
    funext items
    exact iterate_registry ..
  | .finish _, _ => by
    funext machine
    rw [runStatement, runStatement]
  | .blank, _ => by
    funext machine
    rw [runStatement, runStatement]

/-- Statements run in the same way with any two registries that agree on the names they call. -/
theorem runBlock_congr : ∀ {statements : List Statement}, (∀ call ∈ Statement.callsOf statements,
      Entries.get? setting.registry call.name = Entries.get? registry call.name) →
    runBlock setting statements = runBlock { setting with registry } statements
  | [], _ => by rw [runBlock_nil, runBlock_nil]
  | first :: rest, same => by
    rw [Statement.callsOf, List.forall_mem_append] at same
    rw [runBlock_cons, runBlock_cons, runStatement_congr same.1, runBlock_congr same.2]
    rfl

theorem runBranch_congr : ∀ {no : Option (List Statement)}, (∀ call ∈ Statement.callsOfBranch no,
      Entries.get? setting.registry call.name = Entries.get? registry call.name) →
    runBranch setting no = runBranch { setting with registry } no
  | none, _ => by rw [runBranch_none, runBranch_none]
  | some statements, same => by
    rw [Statement.callsOfBranch] at same
    rw [runBranch_some, runBranch_some, runBlock_congr same]

end

end Congr

end Machine

namespace Plan

/-- A run is the same with any two registries that agree on the tools that the plan requires. -/
theorem run_congr {plan : Plan} {first second : Registry σ}
    (same : ∀ name ∈ plan.requiredTools, Entries.get? first name = Entries.get? second name)
    (options : Options) (clock : Clock) (memories : Memories σ) :
    plan.run first options clock memories = plan.run second options clock memories := by
  have called : ∀ call ∈ Statement.callsOf plan,
      Entries.get? first call.name = Entries.get? second call.name :=
    fun call among => same _ (mem_requiredTools.mpr ⟨call, among, rfl⟩)
  have block : Machine.runBlock ⟨first, options.dryRun, clock⟩ plan =
      Machine.runBlock ⟨second, options.dryRun, clock⟩ plan := Machine.runBlock_congr called
  simp only [run, block]

end Plan

namespace Registry

def only (registry : Registry σ) (names : List String) : Registry σ :=
  registry.filter (·.1 ∈ names)

theorem get?_only (registry : Registry σ) (names : List String) (name : String) :
    Entries.get? (registry.only names) name =
      if name ∈ names then Entries.get? registry name else none := by
  induction registry with
  | nil => exact (ite_self none).symm
  | cons entry registry ih =>
    obtain ⟨key, tool⟩ := entry
    by_cases kept : key ∈ names
    · rw [only, List.filter_cons_of_pos (by simpa using kept), Entries.get?, Entries.get?]
      by_cases same : key = name
      · rw [if_pos same, if_pos same, if_pos (same ▸ kept)]
      · rw [if_neg same, if_neg same]
        exact ih
    · rw [only, List.filter_cons_of_neg (by simpa using kept), Entries.get?]
      by_cases same : key = name
      · subst same
        rw [if_neg kept] at ih ⊢
        exact ih
      · rw [if_neg same]
        exact ih

theorem get?_only_eq_some {registry : Registry σ} {names : List String} {name : String}
    {tool : Tool σ} : Entries.get? (registry.only names) name = some tool ↔
      name ∈ names ∧ Entries.get? registry name = some tool := by
  rw [get?_only]
  split
  · next among => exact (and_iff_right among).symm
  · next outside => exact ⟨nofun, fun found => absurd found.1 outside⟩

end Registry

/-- A run goes as with the required tools alone. -/
theorem Plan.run_only (plan : Plan) (registry : Registry σ) (options : Options) (clock : Clock)
    (memories : Memories σ) : plan.run registry options clock memories =
      plan.run (registry.only plan.requiredTools) options clock memories := by
  refine run_congr ?_ options clock memories
  intro name required
  rw [Registry.get?_only, if_pos required]

/-! ### The memories that are used -/

namespace Registry

/-- What tools saw, they saw under names of the registry, and no other memories than theirs have
changed. -/
theorem Saw.confined {registry : Registry σ} {start memories : Memories σ}
    {calls : List (String × Entries Value × Except ToolError Value)}
    (saw : registry.Saw start calls memories) :
    (∀ call ∈ calls, ∃ tool, Entries.get? registry call.1 = some tool) ∧
      ∀ slot, (∀ name tool, Entries.get? registry name = some tool → tool.slot ≠ slot) →
        memories.get slot = start.get slot := by
  induction saw with
  | nothing => exact ⟨nofun, fun _ _ => rfl⟩
  | call _ known ih =>
    obtain ⟨registered, unchanged⟩ := ih
    constructor
    · exact List.forall_mem_append.mpr ⟨registered, List.forall_mem_singleton.mpr ⟨_, known⟩⟩
    · intro slot outside
      exact (Memories.get_set_of_ne _ _ (outside _ _ known).symm).trans (unchanged slot outside)

/-- The tools of the registry find the same in both memories. -/
def Alike (registry : Registry σ) (memories others : Memories σ) : Prop :=
  ∀ name tool, Entries.get? registry name = some tool →
    memories.get tool.slot = others.get tool.slot

/-- A tool that finds the same answers the same, and leaves the same to all tools. -/
theorem Alike.invoke {registry : Registry σ} {memories others : Memories σ}
    (alike : registry.Alike memories others) {name : String} {tool : Tool σ}
    (known : Entries.get? registry name = some tool) (args : Value) :
    (tool.invoke args memories).1 = (tool.invoke args others).1 ∧
      registry.Alike (tool.invoke args memories).2 (tool.invoke args others).2 := by
  have same := alike name tool known
  simp only [Tool.invoke, same]
  refine ⟨trivial, ?_⟩
  intro other sibling found
  by_cases shared : sibling.slot = tool.slot
  · rw [shared, Memories.get_set_self, Memories.get_set_self]
  · rw [Memories.get_set_of_ne _ _ shared, Memories.get_set_of_ne _ _ shared]
    exact alike other sibling found

end Registry

/-- The two machines differ in nothing but memories that no tool of the registry uses, and the run
ended in the same way on both. -/
def Twins (registry : Registry σ) (one other : Flow × Machine σ) : Prop :=
  ∃ memories, other = (one.1, { one.2 with memories }) ∧ registry.Alike one.2.memories memories

theorem Twins.restore {registry : Registry σ} {one other : Flow × Machine σ}
    (twins : Twins registry one other) (var : String) (saved : Option Value) :
    Twins registry (one.1, one.2.restore var saved) (other.1, other.2.restore var saved) := by
  obtain ⟨memories, rfl, alike⟩ := twins
  refine ⟨memories, ?_, ?_⟩
  · cases saved <;> rfl
  · rw [Machine.memories_restore]
    exact alike

/-- From twins, the two actions end with twins. -/
def TwinsAction (registry : Registry σ) (action action' : Action σ) : Prop :=
  ∀ (machine : Machine σ) (memories : Memories σ), registry.Alike machine.memories memories →
    Twins registry (action machine) (action' { machine with memories })

section Keeps

variable {setting : Setting σ}

theorem twins_andThen {registry : Registry σ} {first second first' second' : Action σ}
    (before : TwinsAction registry first first') (after : TwinsAction registry second second') :
    TwinsAction registry (first.andThen second) (first'.andThen second') := by
  intro machine memories alike
  obtain ⟨between, ran', still⟩ := before machine memories alike
  rcases ran : first machine with ⟨flow, ended⟩
  rw [ran] at ran' still
  by_cases passed : flow = .next
  · subst passed
    rw [Action.andThen_next ran, Action.andThen_next ran']
    exact after ended between still
  · rw [Action.andThen_stop ran passed, Action.andThen_stop ran' passed]
    exact ⟨between, rfl, still⟩

/-- A check that does not look at memories cannot tell twins apart. -/
theorem twins_check {registry : Registry σ} {test : Machine σ → Option Halt × Machine σ}
    (apart : ∀ (machine : Machine σ) (memories : Memories σ), test { machine with memories } =
      ((test machine).1, { (test machine).2 with memories }))
    (kept : ∀ machine, (test machine).2.memories = machine.memories) :
    TwinsAction registry (.check test) (.check test) := by
  intro machine memories alike
  have still : registry.Alike (test machine).2.memories memories := by
    rw [kept]
    exact alike
  cases found : (test machine).1 with
  | none =>
    have found' : (test { machine with memories }).1 = none := by
      rw [apart machine memories, found]
    rw [Action.check_none found, Action.check_none found', apart machine memories]
    exact ⟨memories, rfl, still⟩
  | some halt =>
    have found' : (test { machine with memories }).1 = some halt := by
      rw [apart machine memories, found]
    rw [Action.check_some found, Action.check_some found', apart machine memories]
    exact ⟨memories, rfl, still⟩

theorem twins_conclude {registry : Registry σ} {machine : Machine σ} {memories : Memories σ}
    (alike : registry.Alike machine.memories memories) (call : Call) (args : Entries Value)
    (result : Value) : Twins registry (.next, machine.conclude call args result)
      (.next, { machine with memories }.conclude call args result) := by
  refine ⟨memories, ?_, ?_⟩
  · simp only [Machine.conclude]
    cases call.capture <;> rfl
  · rw [Machine.memories_conclude]
    exact alike

/-- A tool finds the same in both memories, so it answers the same and leaves the same. -/
theorem twins_call (call : Call) : TwinsAction setting.registry (Machine.runCall setting call)
    (Machine.runCall setting call) := by
  intro machine memories alike
  cases known : Entries.get? setting.registry call.name with
  | none =>
    rw [Machine.runCall_unknown known, Machine.runCall_unknown known]
    exact ⟨memories, rfl, alike⟩
  | some tool =>
    cases dry : setting.dryRun with
    | true =>
      have announced : setting.registry.Alike
          (machine.note (.calling call.name call.place true)).memories memories := alike
      rw [Machine.runCall_dry known dry, Machine.runCall_dry known dry]
      exact twins_conclude announced call _ .null
    | false =>
      obtain ⟨reply, still⟩ :=
        alike.invoke known (.map (Expr.resolveEntries machine.vars call.args))
      have answer : ({ machine with memories } : Machine σ).answer call tool =
          machine.answer call tool := congrArg Reply.outcome reply.symm
      have heard : Twins setting.registry (.next, machine.answered call tool)
          (.next, ({ machine with memories } : Machine σ).answered call tool) := by
        refine ⟨_, ?_, still⟩
        simp only [Machine.answered, Machine.note, reply]
      rw [Machine.runCall_live known dry, Machine.runCall_live known dry, answer]
      obtain ⟨after, same, left⟩ := heard
      rw [(Prod.mk.inj same).2]
      cases machine.answer call tool with
      | error error => exact ⟨after, rfl, left⟩
      | ok result => exact twins_conclude left ..

/-- Runs that start with twins end with twins. -/
theorem keeps_twins : Keeps setting setting (TwinsAction setting.registry) where
  skip machine memories alike := ⟨memories, rfl, alike⟩
  andThen := twins_andThen
  checkpoint := twins_check (fun _ _ => rfl) (fun _ => rfl)
  checkDeadline := twins_check (fun _ _ => rfl) (fun _ => rfl)
  assign name value machine memories alike := by
    rw [Machine.runStatement, Machine.runStatement]
    exact ⟨memories, rfl, alike⟩
  call := twins_call
  finish value machine memories alike := by
    rw [Machine.runStatement, Machine.runStatement]
    exact ⟨memories, rfl, alike⟩
  blank machine memories alike := by
    rw [Machine.runStatement, Machine.runStatement]
    exact ⟨memories, rfl, alike⟩
  choose condition := by
    intro yes no yes' no' first other machine memories alike
    simp only [Action.choose]
    split
    · exact first _ memories alike
    · exact other _ memories alike
  enter var index item machine memories alike := ⟨memories, rfl, alike⟩
  loop var iterable := by
    intro rounds rounds' twins machine memories alike
    have same : ({ machine with memories } : Machine σ).vars = machine.vars := rfl
    simp only [Action.loop, same]
    split
    · next items _ => exact (twins items (machine.note (.looping var)) memories alike).restore var _
    · exact ⟨memories, rfl, alike⟩

end Keeps

namespace Plan

variable (plan : Plan) (registry : Registry σ)

/-- A run calls required tools only, and changes no other memories than theirs. -/
theorem run_confined (options : Options) (clock : Clock) (start : Memories σ) :
    (∀ call ∈ (plan.run registry options clock start).1.invocations,
      call.1 ∈ plan.requiredTools) ∧
    ∀ slot, (∀ name ∈ plan.requiredTools, ∀ tool, Entries.get? registry name = some tool →
        tool.slot ≠ slot) →
      (plan.run registry options clock start).2.get slot = start.get slot := by
  obtain ⟨outcome, saw, ran⟩ := run_invariant plan (registry.only plan.requiredTools) options clock
    start (show (fun outcome : Flow × Machine σ => Registry.Saw (registry.only plan.requiredTools)
      start outcome.2.invocations.reverse outcome.2.memories) (.next, _) from .nothing)
    Registry.Saw.step
  obtain ⟨registered, unchanged⟩ := saw.confined
  rw [run_only, ran, Report.ofOutcome_invocations]
  constructor
  · intro call among
    obtain ⟨tool, known⟩ := registered call among
    exact (Registry.get?_only_eq_some.mp known).1
  · intro slot outside
    refine unchanged slot ?_
    intro name tool known
    obtain ⟨required, known⟩ := Registry.get?_only_eq_some.mp known
    exact outside name required tool known

/-- Two runs in which the required tools find the same report the same and leave the same to them. -/
theorem run_alike (options : Options) (clock : Clock) {memories others : Memories σ}
    (alike : (registry.only plan.requiredTools).Alike memories others) :
    let one := plan.run registry options clock memories
    let other := plan.run registry options clock others
    one.1 = other.1 ∧ (registry.only plan.requiredTools).Alike one.2 other.2 := by
  have keeps : Keeps ⟨registry.only plan.requiredTools, options.dryRun, clock⟩
      ⟨registry.only plan.requiredTools, options.dryRun, clock⟩ _ := keeps_twins
  obtain ⟨after, ran, left⟩ := keeps.block plan (Machine.start options memories) others alike
  have other : plan.run (registry.only plan.requiredTools) options clock others =
      Report.ofOutcome (_, _) := congrArg Report.ofOutcome ran
  rw [run_only plan registry options clock memories, run_only plan registry options clock others,
    other]
  exact ⟨rfl, left⟩

/-- The tools that the analysis does not list cannot matter. With the same tools under the required
names, or none, in the same state, two runs report the same and leave these tools in the same state,
whatever other tools there are and whatever their state is. Only required tools are called, so that
what belongs to none of them stays as it was. -/
theorem run_independent (plan : Plan) (first second : Registry σ) (options : Options) (clock : Clock)
    (memories others : Memories σ)
    (sameTools : ∀ name ∈ plan.requiredTools, Entries.get? first name = Entries.get? second name)
    (sameState : ∀ name ∈ plan.requiredTools, ∀ tool, Entries.get? first name = some tool →
      memories.get tool.slot = others.get tool.slot) :
    let one := plan.run first options clock memories
    let other := plan.run second options clock others
    one.1 = other.1 ∧
      (∀ name ∈ plan.requiredTools, ∀ tool, Entries.get? first name = some tool →
        one.2.get tool.slot = other.2.get tool.slot) ∧
      (∀ call ∈ one.1.invocations, call.1 ∈ plan.requiredTools) ∧
      ∀ slot, (∀ name ∈ plan.requiredTools, ∀ tool, Entries.get? first name = some tool →
        tool.slot ≠ slot) → one.2.get slot = memories.get slot ∧
          other.2.get slot = others.get slot := by
  have alike : (first.only plan.requiredTools).Alike memories others := by
    intro name tool known
    obtain ⟨required, known⟩ := Registry.get?_only_eq_some.mp known
    exact sameState name required tool known
  obtain ⟨sameReport, sameLeft⟩ := run_alike plan first options clock alike
  obtain ⟨required, unchanged⟩ := run_confined plan first options clock memories
  obtain ⟨-, unchangedOther⟩ := run_confined plan first options clock others
  rw [← run_congr sameTools options clock others]
  refine ⟨sameReport, ?_, required, ?_⟩
  · intro name among tool known
    exact sameLeft name tool (Registry.get?_only_eq_some.mpr ⟨among, known⟩)
  · intro slot outside
    exact ⟨unchanged slot outside, unchangedOther slot outside⟩

/-- The counting tool behind another one, which has a memory of its own and would fail. -/
def crowded : Registry Nat :=
  ("spy", ⟨1, fun seen _ => (⟨.error (.failed "seen"), 5⟩, seen + 1)⟩) :: ticking

/-- A tool in front and its memory make no difference to the counting tool behind it. -/
theorem run_independent_twoTicks :
    let one := Plan.run twoTicks ticking ⟨9, some 1, false⟩ Clock.ticking ⟨0, []⟩
    let other := Plan.run twoTicks crowded ⟨9, some 1, false⟩ Clock.ticking ⟨7, [(0, 0)]⟩
    (∀ name ∈ requiredTools twoTicks, Entries.get? ticking name = Entries.get? crowded name) ∧
      (∀ name ∈ requiredTools twoTicks, ∀ tool, Entries.get? ticking name = some tool →
        (⟨0, []⟩ : Memories Nat).get tool.slot = (⟨7, [(0, 0)]⟩ : Memories Nat).get tool.slot) ∧
      one.1 = other.1 ∧ one.1.steps = 6 ∧ one.2.get 0 = 2 ∧ other.2.get 0 = 2 ∧
      one.2.get 1 = 0 ∧ other.2.get 1 = 7 := by
  intro one other
  have required : requiredTools twoTicks = ["tick"] := by decide
  have sameTools : ∀ name ∈ requiredTools twoTicks,
      Entries.get? ticking name = Entries.get? crowded name := by
    rw [required]
    exact List.forall_mem_singleton.mpr rfl
  have found : ∀ name ∈ requiredTools twoTicks, ∀ tool, Entries.get? ticking name = some tool →
      tool.slot = 0 := by
    rw [required]
    refine List.forall_mem_singleton.mpr ?_
    rintro tool ⟨⟩
    rfl
  have sameState : ∀ name ∈ requiredTools twoTicks, ∀ tool,
      Entries.get? ticking name = some tool →
        (⟨0, []⟩ : Memories Nat).get tool.slot = (⟨7, [(0, 0)]⟩ : Memories Nat).get tool.slot := by
    intro name among tool known
    rw [found name among tool known]
    rfl
  have twice : one.2.get 0 = 2 := by decide +kernel
  obtain ⟨sameReport, sameLeft, -, unchanged⟩ := run_independent twoTicks ticking crowded
    ⟨9, some 1, false⟩ Clock.ticking ⟨0, []⟩ ⟨7, [(0, 0)]⟩ sameTools sameState
  have left := sameLeft "tick" (by rw [required]; exact List.mem_singleton.mpr rfl) _ rfl
  have untouched := unchanged 1 fun name among tool known => by
    rw [found name among tool known]
    decide
  exact ⟨sameTools, sameState, sameReport, by decide +kernel, twice, left.symm.trans twice,
    untouched.1, untouched.2⟩

end Plan

end ToolPlan
