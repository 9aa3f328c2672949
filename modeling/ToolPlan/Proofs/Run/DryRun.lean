import ToolPlan.Proofs.Run.Relation

/-!
A dry run is the run with tools that answer null. The two go side by side, action by action: the same
variables, the same counts and the same trace, while the dry one calls no tool and leaves all
memories as they were (`Plan.run_dry`).
-/

namespace ToolPlan

variable {σ τ : Type}

/-- A registry with the same names, in which every tool answers null. -/
def Registry.nulled (registry : Registry σ) : Registry τ :=
  .ofFixtures (registry.map fun entry => (entry.1, .null))

/-- The names stay, and every tool answers null. -/
theorem Registry.get?_nulled (registry : Registry σ) (name : String) :
    Entries.get? (registry.nulled : Registry τ) name =
      (Entries.get? registry name).map fun _ => Tool.fixture .null := by
  induction registry with
  | nil => rfl
  | cons entry registry ih =>
    obtain ⟨key, tool⟩ := entry
    by_cases same : key = name
    · simp [nulled, ofFixtures, Entries.get?, same]
    · simpa [nulled, ofFixtures, Entries.get?, same] using ih

/-- Two reports that tell the same: how the run ended, the variables, the trace and the steps. -/
structure Report.Agrees (first second : Report) : Prop where
  flow : first.flow = second.flow
  vars : first.vars = second.vars
  trace : first.trace = second.trace
  steps : first.steps = second.steps

/-- An entry of the trace that is no call, or a call that was answered null. -/
def TraceEntry.AnswersNull : TraceEntry → Prop
  | .called _ _ _ result => result = .null
  | .assigned _ _ => True
  | .branched _ _ => True
  | .iterated _ _ _ => True
  | .returned _ => True

/-! ### Machines side by side -/

/-- A machine of the dry run and one of the run with null tools, which differ in nothing that a plan
can tell. -/
structure Mirrors (deadlineMs : Option Nat) (memories : Memories σ) (dry : Machine σ)
    (live : Machine τ) : Prop where
  vars : dry.vars = live.vars
  budget : dry.budget = live.budget
  readings : dry.readings = live.readings
  spent : dry.spent = live.spent
  trace : dry.journal.filterMap Event.traceEntry? = live.journal.filterMap Event.traceEntry?
  deadline : dry.budget.deadlineMs = deadlineMs
  untouched : dry.memories = memories
  uncalled : dry.journal.filterMap Event.invocation? = []
  nulls : ∀ entry ∈ dry.journal.filterMap Event.traceEntry?, entry.AnswersNull

namespace Mirrors

variable {deadlineMs : Option Nat} {memories : Memories σ} {dry : Machine σ} {live : Machine τ}

/-- Both machines note an event, perhaps another one each, if the trace does not tell them apart. -/
theorem note (mirrors : Mirrors deadlineMs memories dry live) {event event' : Event}
    (alike : event.traceEntry? = event'.traceEntry?) (quiet : event.invocation? = none)
    (null : ∀ entry ∈ event.traceEntry?, entry.AnswersNull) :
    Mirrors deadlineMs memories (dry.note event) (live.note event') where
  vars := mirrors.vars
  budget := mirrors.budget
  readings := mirrors.readings
  spent := mirrors.spent
  trace := by
    simp only [Machine.note, List.filterMap_cons, alike, mirrors.trace]
  deadline := mirrors.deadline
  untouched := mirrors.untouched
  uncalled := by
    simp only [Machine.note, List.filterMap_cons, quiet, mirrors.uncalled]
  nulls := by
    simp only [Machine.note, List.filterMap_cons]
    cases found : event.traceEntry? with
    | none => exact mirrors.nulls
    | some entry =>
      exact List.forall_mem_cons.mpr ⟨null entry found, mirrors.nulls⟩

/-- Both machines note an event that is not traced. -/
theorem noteUntraced (mirrors : Mirrors deadlineMs memories dry live) {event event' : Event}
    (untraced : event.traceEntry? = none) (untraced' : event'.traceEntry? = none)
    (quiet : event.invocation? = none) :
    Mirrors deadlineMs memories (dry.note event) (live.note event') := by
  refine mirrors.note (untraced.trans untraced'.symm) quiet ?_
  intro entry found
  rw [untraced] at found
  cases found

/-- Both machines note an entry of the trace. -/
theorem noteTraced (mirrors : Mirrors deadlineMs memories dry live) {entry : TraceEntry}
    (null : entry.AnswersNull) :
    Mirrors deadlineMs memories (dry.note (.traced entry)) (live.note (.traced entry)) := by
  refine mirrors.note rfl rfl ?_
  intro noted found
  obtain rfl := Option.some.inj found
  exact null

theorem define (mirrors : Mirrors deadlineMs memories dry live) (name : String) (value : Value) :
    Mirrors deadlineMs memories (dry.define name value) (live.define name value) :=
  { mirrors with vars := congrArg (Entries.insert · name value) mirrors.vars }

theorem restore (mirrors : Mirrors deadlineMs memories dry live) (var : String)
    (saved : Option Value) :
    Mirrors deadlineMs memories (dry.restore var saved) (live.restore var saved) := by
  cases saved with
  | none => exact { mirrors with vars := congrArg (Entries.remove · var) mirrors.vars }
  | some value => exact mirrors.define var value

/-- A dry run keeps null where the other run keeps the answer of a null tool. -/
theorem conclude (mirrors : Mirrors deadlineMs memories dry live) (call : Call)
    (args : Entries Value) : Mirrors deadlineMs memories (dry.conclude call args .null)
      (live.conclude call args .null) := by
  simp only [Machine.conclude]
  cases call.capture with
  | none => exact mirrors.noteTraced rfl
  | some name => exact (mirrors.define name .null).noteTraced rfl

end Mirrors

/-! ### Actions side by side -/

/-- The two actions end in the same way, and what mirrored each other before does so after. -/
def MirrorsAction (deadlineMs : Option Nat) (memories : Memories σ) (first : Action σ)
    (second : Action τ) : Prop :=
  ∀ ⦃dry : Machine σ⦄ ⦃live : Machine τ⦄, Mirrors deadlineMs memories dry live →
    (first dry).1 = (second live).1 ∧ Mirrors deadlineMs memories (first dry).2 (second live).2

section Keeps

variable {deadlineMs : Option Nat} {memories : Memories σ} {left : Setting σ} {right : Setting τ}

theorem mirrors_andThen {first second : Action σ} {first' second' : Action τ}
    (before : MirrorsAction deadlineMs memories first first')
    (after : MirrorsAction deadlineMs memories second second') :
    MirrorsAction deadlineMs memories (first.andThen second) (first'.andThen second') := by
  intro dry live mirrors
  obtain ⟨sameFlow, mirrored⟩ := before mirrors
  rcases ran : first dry with ⟨flow, ended⟩
  rcases ran' : first' live with ⟨flow', ended'⟩
  rw [ran, ran'] at sameFlow mirrored
  obtain rfl : flow = flow' := sameFlow
  by_cases passed : flow = .next
  · subst passed
    rw [Action.andThen_next ran, Action.andThen_next ran']
    exact after mirrored
  · rw [Action.andThen_stop ran passed, Action.andThen_stop ran' passed]
    exact ⟨rfl, mirrored⟩

/-- Checks that look at the clock and the budget alone cannot tell the two machines apart. -/
theorem mirrors_check {test : Machine σ → Option Halt × Machine σ}
    {test' : Machine τ → Option Halt × Machine τ}
    (alike : ∀ {dry live}, Mirrors deadlineMs memories dry live →
      (test dry).1 = (test' live).1 ∧ Mirrors deadlineMs memories (test dry).2 (test' live).2) :
    MirrorsAction deadlineMs memories (.check test) (.check test') := by
  intro dry live mirrors
  obtain ⟨sameHalt, mirrored⟩ := alike mirrors
  cases found : (test dry).1 with
  | none =>
    rw [Action.check_none found, Action.check_none (sameHalt ▸ found)]
    exact ⟨rfl, mirrored⟩
  | some halt =>
    rw [Action.check_some found, Action.check_some (sameHalt ▸ found)]
    exact ⟨rfl, mirrored⟩

/-- The deadline is looked at in the same way: there is none, or the clocks show the same. -/
theorem checkDeadline_mirrors (timed : deadlineMs = none ∨ left.clock = right.clock)
    {dry : Machine σ} {live : Machine τ} (mirrors : Mirrors deadlineMs memories dry live)
    {budget : Budget} (limit : budget.deadlineMs = deadlineMs) :
    budget.checkDeadline (dry.elapsed left) = budget.checkDeadline (live.elapsed right) := by
  rcases timed with none | sameClock
  · simp only [Budget.checkDeadline, limit, none]
  · simp only [Machine.elapsed, sameClock, mirrors.readings, mirrors.spent]

/-- A step is counted on both sides. Time matters only if there is a deadline, and then the clocks
are the same. -/
theorem mirrors_checkpoint (timed : deadlineMs = none ∨ left.clock = right.clock) :
    MirrorsAction deadlineMs memories (.check (Machine.checkpoint left))
      (.check (Machine.checkpoint right)) := by
  apply mirrors_check
  intro dry live mirrors
  constructor
  · have late := checkDeadline_mirrors timed mirrors (show dry.budget.count.deadlineMs = _ from
      mirrors.deadline)
    simp only [Machine.checkpoint, Budget.checkpoint, ← mirrors.budget, late]
  · have counted : Mirrors deadlineMs memories
        { dry with budget := dry.budget.count, readings := dry.readings + 1 }
        { live with budget := live.budget.count, readings := live.readings + 1 } :=
      { mirrors with
        budget := by rw [mirrors.budget]
        readings := by rw [mirrors.readings]
        deadline := mirrors.deadline }
    exact counted.noteUntraced rfl rfl rfl

theorem mirrors_checkDeadline (timed : deadlineMs = none ∨ left.clock = right.clock) :
    MirrorsAction deadlineMs memories (.check (Machine.checkDeadline left))
      (.check (Machine.checkDeadline right)) := by
  apply mirrors_check
  intro dry live mirrors
  constructor
  · simp only [Machine.checkDeadline, ← mirrors.budget]
    exact checkDeadline_mirrors timed mirrors mirrors.deadline
  · exact { mirrors with readings := by simp only [Machine.checkDeadline, mirrors.readings] }

/-- A dry run calls no tool and notes null. A null tool is called and answers null, in no time. -/
theorem mirrors_call (isDry : left.dryRun = true) (isLive : right.dryRun = false)
    (nulled : right.registry = left.registry.nulled) (call : Call) :
    MirrorsAction deadlineMs memories (Machine.runCall left call) (Machine.runCall right call) := by
  intro dry live mirrors
  have found : Entries.get? right.registry call.name =
      (Entries.get? left.registry call.name).map fun _ => Tool.fixture .null := by
    rw [nulled]
    exact left.registry.get?_nulled call.name
  cases known : Entries.get? left.registry call.name with
  | none =>
    rw [known] at found
    rw [Machine.runCall_unknown known, Machine.runCall_unknown found]
    exact ⟨rfl, mirrors⟩
  | some tool =>
    rw [known] at found
    rw [Machine.runCall_dry known isDry, Machine.runCall_live found isLive]
    have announced : Mirrors deadlineMs memories (dry.note (.calling call.name call.place true))
        (live.note (.calling call.name call.place false)) := mirrors.noteUntraced rfl rfl rfl
    have heard : Mirrors deadlineMs memories (dry.note (.calling call.name call.place true))
        (live.answered call (Tool.fixture .null)) := { announced with }
    refine ⟨rfl, ?_⟩
    rw [mirrors.vars]
    exact heard.conclude call _

/-- A dry run and the run with null tools go side by side. -/
theorem keeps_mirrors (timed : deadlineMs = none ∨ left.clock = right.clock)
    (isDry : left.dryRun = true) (isLive : right.dryRun = false)
    (nulled : right.registry = left.registry.nulled) :
    Keeps left right (MirrorsAction deadlineMs memories) where
  skip := fun _ _ mirrors => ⟨rfl, mirrors⟩
  andThen := mirrors_andThen
  checkpoint := mirrors_checkpoint timed
  checkDeadline := mirrors_checkDeadline timed
  assign name value := by
    intro dry live mirrors
    have assigned := mirrors.define name (value.resolve live.vars)
    rw [Machine.runStatement, Machine.runStatement, mirrors.vars]
    exact ⟨rfl, assigned.noteTraced trivial⟩
  call := mirrors_call isDry isLive nulled
  finish value := by
    intro dry live mirrors
    rw [Machine.runStatement, Machine.runStatement, mirrors.vars]
    exact ⟨rfl, mirrors.noteTraced trivial⟩
  blank := by
    intro dry live mirrors
    exact ⟨rfl, mirrors.noteUntraced rfl rfl rfl⟩
  choose condition := by
    intro yes no yes' no' first other dry live mirrors
    simp only [Action.choose, mirrors.vars]
    by_cases holds : condition.holds live.vars = true
    · rw [if_pos holds, if_pos holds]
      exact first (mirrors.noteTraced trivial)
    · rw [if_neg holds, if_neg holds]
      exact other (mirrors.noteTraced trivial)
  enter var index item := by
    intro dry live mirrors
    exact ⟨rfl, (mirrors.define var item).noteTraced trivial⟩
  loop var iterable := by
    intro rounds rounds' alike dry live mirrors
    have noted : Mirrors deadlineMs memories (dry.note (.looping var)) (live.note (.looping var)) :=
      mirrors.noteUntraced rfl rfl rfl
    simp only [Action.loop, mirrors.vars]
    cases iterable.resolve live.vars with
    | array items =>
      obtain ⟨sameFlow, mirrored⟩ := alike items noted
      exact ⟨sameFlow, mirrored.restore var _⟩
    | null => exact ⟨rfl, noted⟩
    | bool value => exact ⟨rfl, noted⟩
    | number value => exact ⟨rfl, noted⟩
    | string text => exact ⟨rfl, noted⟩
    | map entries => exact ⟨rfl, noted⟩

end Keeps

/-! ### Reports -/

namespace Report

theorem Agrees.symm {first second : Report} (agrees : first.Agrees second) : second.Agrees first :=
  ⟨agrees.flow.symm, agrees.vars.symm, agrees.trace.symm, agrees.steps.symm⟩

theorem Agrees.trans {first second third : Report} (before : first.Agrees second)
    (after : second.Agrees third) : first.Agrees third :=
  ⟨before.flow.trans after.flow, before.vars.trans after.vars, before.trace.trans after.trace,
    before.steps.trans after.steps⟩

end Report

namespace Mirrors

variable {deadlineMs : Option Nat} {memories : Memories σ} {dry : Flow × Machine σ}
  {live : Flow × Machine τ}

/-- Machines that mirror each other give reports that agree. -/
theorem agrees (mirrors : Mirrors deadlineMs memories dry.2 live.2) (sameFlow : dry.1 = live.1) :
    (Report.ofOutcome dry).1.Agrees (Report.ofOutcome live).1 where
  flow := sameFlow
  vars := mirrors.vars
  trace := by rw [Report.ofOutcome_trace, Report.ofOutcome_trace, mirrors.trace]
  steps := congrArg Budget.consumed mirrors.budget

theorem no_invocations (mirrors : Mirrors deadlineMs memories dry.2 live.2) :
    (Report.ofOutcome dry).1.invocations = [] := by
  rw [Report.ofOutcome_invocations, mirrors.uncalled, List.reverse_nil]

/-- Every call in the trace of a dry run was answered null. -/
theorem answersNull (mirrors : Mirrors deadlineMs memories dry.2 live.2) :
    ∀ entry ∈ (Report.ofOutcome dry).1.trace, entry.AnswersNull := by
  intro entry among
  rw [Report.ofOutcome_trace, List.mem_reverse] at among
  exact mirrors.nulls entry among

end Mirrors

namespace Plan

variable (plan : Plan) (registry : Registry σ) (memories : Memories σ) (maxSteps : Nat)
  (deadlineMs : Option Nat) (clock : Clock)

/-- A dry run and the run with null tools start and end as mirrors of each other. -/
theorem mirrors_run (nullMemories : Memories τ) (liveClock : Clock)
    (timed : deadlineMs = none ∨ clock = liveClock) :
    let dry := Machine.runBlock ⟨registry, true, clock⟩ plan
      (Machine.start ⟨maxSteps, deadlineMs, true⟩ memories)
    let live := Machine.runBlock ⟨registry.nulled, false, liveClock⟩ plan
      (Machine.start ⟨maxSteps, deadlineMs, false⟩ nullMemories)
    dry.1 = live.1 ∧ Mirrors deadlineMs memories dry.2 live.2 := by
  intro dry live
  have keeps : Keeps (⟨registry, true, clock⟩ : Setting σ)
      (⟨registry.nulled, false, liveClock⟩ : Setting τ) (MirrorsAction deadlineMs memories) :=
    keeps_mirrors timed rfl rfl rfl
  exact keeps.block plan ⟨rfl, rfl, rfl, rfl, rfl, rfl, rfl, rfl, nofun⟩

/-- A dry run is the run with tools of the same names that answer null, whatever memories these have:
without a deadline, or by the same clock, the reports agree. It calls no tool and leaves all memories
as they were, every call in its trace was answered null, and a dry run after it reports the same. -/
theorem run_dry (nullMemories : Memories τ) (liveClock : Clock)
    (timed : deadlineMs = none ∨ clock = liveClock) :
    let dry := plan.run registry ⟨maxSteps, deadlineMs, true⟩ clock memories
    let live := plan.run registry.nulled ⟨maxSteps, deadlineMs, false⟩ liveClock nullMemories
    let again := plan.run registry ⟨maxSteps, deadlineMs, true⟩ liveClock dry.2
    dry.1.Agrees live.1 ∧ dry.1.invocations = [] ∧ dry.2 = memories ∧
      (∀ name args capture result, .called name args capture result ∈ dry.1.trace →
        result = .null) ∧
      again.1.Agrees dry.1 ∧ again.2 = dry.2 := by
  intro dry live again
  obtain ⟨sameFlow, mirrors⟩ :=
    mirrors_run plan registry memories maxSteps deadlineMs clock nullMemories liveClock timed
  obtain ⟨sameAgain, mirrorsAgain⟩ :=
    mirrors_run plan registry dry.2 maxSteps deadlineMs liveClock nullMemories liveClock (.inr rfl)
  have agrees : dry.1.Agrees live.1 := mirrors.agrees sameFlow
  have agreesAgain : again.1.Agrees live.1 := mirrorsAgain.agrees sameAgain
  refine ⟨agrees, mirrors.no_invocations, mirrors.untouched, ?_, agreesAgain.trans agrees.symm,
    mirrorsAgain.untouched⟩
  intro name args capture result among
  exact mirrors.answersNull _ among

/-- The answer of a tool decides a branch and is looped over. -/
def fetchAndLoop : Plan :=
  [.call ⟨"fetch", [("page", .number (.int 1))], some "items", .start⟩,
   .branch (.compare .eq (.var "items" []) .null) [.assign "empty" (.bool true)] none,
   .loop "item" (.var "items" []) []]

/-- A tool that remembers how often it was asked, and takes a while. -/
def fetching : Registry Nat :=
  [("fetch", ⟨3, fun asked _ => (⟨.ok (.array [.int asked]), 500⟩, asked + 1)⟩)]

/-- The answer would decide the branch and the loop, so the dry run goes the way of null. -/
theorem run_dry_fetchAndLoop :
    let dry := Plan.run fetchAndLoop fetching ⟨9, some 1, true⟩ Clock.ticking ⟨7, []⟩
    let live := Plan.run fetchAndLoop (fetching.nulled : Registry Unit) ⟨9, some 1, false⟩
      Clock.ticking ⟨(), []⟩
    (some 1 = none ∨ Clock.ticking = Clock.ticking) ∧
      dry.1.halt? = some (.notAnArray "item" "null") ∧ dry.1.Agrees live.1 ∧
      dry.1.invocations = [] ∧ dry.2 = ⟨7, []⟩ := by
  have timed : some 1 = none ∨ Clock.ticking = Clock.ticking := .inr rfl
  have halted : (Plan.run fetchAndLoop fetching ⟨9, some 1, true⟩ Clock.ticking ⟨7, []⟩).1.halt? =
      some (.notAnArray "item" "null") := by decide +kernel
  obtain ⟨agrees, uncalled, untouched, -⟩ := run_dry fetchAndLoop fetching ⟨7, []⟩ 9 (some 1)
    Clock.ticking (⟨(), []⟩ : Memories Unit) Clock.ticking timed
  exact ⟨timed, halted, agrees, uncalled, untouched⟩

end Plan

end ToolPlan
