import ToolPlan.Proofs.Run.Steps

/-!
The order of the variables. A run binds variables, binds them anew, and lets loop variables go; its
history is the list of what was bound at each moment (`Plan.history`). New variables go last, so the
variables stand in the order in which they were bound, but for one thing: where a loop variable goes,
the last variable takes its place and so comes to stand before all those in between (`Overtakes`).
Every pair of variables is in the order in which the two were bound unless one has overtaken the other
in this way since (`run_order`), and then it need not be (`order_lost`).
-/

namespace ToolPlan

variable {σ : Type}

/-! ### Histories -/

namespace History

/-- One change of the variables of a run with these loop variables. -/
inductive Change (loopVars : List String) : Bindings → Bindings → Prop where
  | same {vars} : Change loopVars vars vars
  | bound {vars} (name : String) (value : Value) : Change loopVars vars (vars.insert name value)
  | gone {vars var} : var ∈ loopVars → Change loopVars vars (vars.remove var)

/-- The variables at every moment of a run, the latest first: each from the one before, and none at
the start. -/
inductive Evolves (loopVars : List String) : List Bindings → Prop where
  | start : Evolves loopVars [[]]
  | change {before after past} : Change loopVars before after →
      Evolves loopVars (before :: past) → Evolves loopVars (after :: before :: past)

/-- For how many moments a variable has been bound without a break. -/
def age (history : List Bindings) (name : String) : Nat :=
  (history.takeWhile fun vars => decide (name ∈ Entries.keys vars)).length

/-- A loop variable goes, and the last variable takes its place, before another one. -/
def Overtakes (loopVars : List String) (name other : String) (before after : Bindings) : Prop :=
  ∃ var ∈ loopVars, ∃ front middle, Entries.keys before = front ++ var :: (middle ++ [name]) ∧
    other ∈ middle ∧ Entries.keys after = front ++ name :: middle

/-- One variable was bound before the other, or has overtaken it since both were bound. -/
def Precedes (loopVars : List String) (history : List Bindings) (name other : String) : Prop :=
  age history other < age history name ∨
    ∃ recent after before past, history = recent ++ after :: before :: past ∧
      Overtakes loopVars name other before after ∧
      ∀ vars ∈ recent, name ∈ Entries.keys vars ∧ other ∈ Entries.keys vars

variable {loopVars : List String} {history past : List Bindings} {before after vars : Bindings}
  {name other : String}

theorem age_cons_of_mem (bound : name ∈ Entries.keys vars) :
    age (vars :: history) name = age history name + 1 := by
  simp [age, bound]

theorem age_cons_of_not_mem (unbound : name ∉ Entries.keys vars) :
    age (vars :: history) name = 0 := by
  simp [age, unbound]

/-- Two variables that stay bound keep their places to each other in the history. -/
theorem Precedes.later (precedes : Precedes loopVars history name other)
    (bound : name ∈ Entries.keys vars) (otherBound : other ∈ Entries.keys vars) :
    Precedes loopVars (vars :: history) name other := by
  rcases precedes with older | ⟨recent, after, before, past, rfl, overtakes, since⟩
  · left
    rw [age_cons_of_mem bound, age_cons_of_mem otherBound]
    omega
  · refine .inr ⟨vars :: recent, after, before, past, rfl, overtakes, ?_⟩
    exact List.forall_mem_cons.mpr ⟨⟨bound, otherBound⟩, since⟩

/-- The names that still stand in their old order have kept their places in the history. -/
theorem pairwise_later {names : List String} (ordered : names.Pairwise (Precedes loopVars history))
    (bound : ∀ name ∈ names, name ∈ Entries.keys vars) :
    names.Pairwise (Precedes loopVars (vars :: history)) :=
  ordered.imp_of_mem fun among otherAmong precedes =>
    precedes.later (bound _ among) (bound _ otherAmong)

/-- A new variable goes last, and was bound last. -/
theorem pairwise_bound {value : Value} (name : String)
    (ordered : (Entries.keys before).Pairwise (Precedes loopVars (before :: past))) :
    (Entries.keys (before.insert name value)).Pairwise
      (Precedes loopVars (before.insert name value :: before :: past)) := by
  by_cases among : name ∈ Entries.keys before
  · rw [Entries.keys_insert_of_mem among]
    refine pairwise_later ordered ?_
    rw [Entries.keys_insert_of_mem among]
    exact fun _ bound => bound
  · have last : Entries.keys (before.insert name value) = Entries.keys before ++ [name] := by
      rw [Entries.insert_of_not_mem among, Entries.keys, List.map_append]
      rfl
    have stays : ∀ other ∈ Entries.keys before, other ∈ Entries.keys (before.insert name value) := by
      intro other bound
      rw [last]
      exact List.mem_append_left _ bound
    have new : name ∈ Entries.keys (before.insert name value) := by
      rw [last]
      exact List.mem_append_right _ (List.mem_singleton_self name)
    rw [last]
    refine List.pairwise_append.mpr
      ⟨pairwise_later ordered stays, List.pairwise_singleton .., ?_⟩
    intro other bound _ newest
    obtain rfl := List.mem_singleton.mp newest
    left
    rw [age_cons_of_mem new, age_cons_of_mem (stays other bound), age_cons_of_not_mem among,
      age_cons_of_mem bound]
    omega

/-- Where a loop variable goes, only the variable that takes its place comes to stand before others
that it stood behind. -/
theorem pairwise_gone {var : String} (looping : var ∈ loopVars)
    (ordered : (Entries.keys before).Pairwise (Precedes loopVars (before :: past))) :
    (Entries.keys (before.remove var)).Pairwise
      (Precedes loopVars (before.remove var :: before :: past)) := by
  rcases Entries.keys_remove before var with kept | last | ⟨front, middle, last, earlier, now⟩
  · rw [← kept] at ordered
    exact pairwise_later ordered fun _ bound => bound
  · rw [last] at ordered
    exact pairwise_later (List.pairwise_append.mp ordered).1 fun _ bound => bound
  · have overtakes : ∀ other ∈ middle,
        Precedes loopVars (before.remove var :: before :: past) last other := by
      intro other among
      exact .inr ⟨[], _, _, _, rfl, ⟨var, looping, front, middle, earlier, among, now⟩, nofun⟩
    have stays : ∀ other ∈ front ++ last :: middle, other ∈ Entries.keys (before.remove var) := by
      rw [now]
      exact fun _ among => among
    rw [List.forall_mem_append, List.forall_mem_cons] at stays
    obtain ⟨inFront, atEnd, between⟩ := stays
    rw [earlier, List.pairwise_append, List.pairwise_cons, List.pairwise_append] at ordered
    obtain ⟨frontOrdered, ⟨-, middleOrdered, -⟩, apart⟩ := ordered
    rw [now, List.pairwise_append, List.pairwise_cons]
    refine ⟨pairwise_later frontOrdered inFront,
      ⟨overtakes, pairwise_later middleOrdered between⟩, ?_⟩
    intro name among other behind
    have before : other ∈ var :: (middle ++ [last]) := by
      rw [List.mem_cons, List.mem_append, List.mem_singleton]
      exact .inr (List.mem_cons.mp behind).symm
    refine (apart name among other before).later (inFront name among) ?_
    rcases List.mem_cons.mp behind with rfl | further
    · exact atEnd
    · exact between other further

/-- At every moment the variables stand in the order in which they were bound, as far as none has
overtaken another. -/
theorem Evolves.ordered (evolves : Evolves loopVars (vars :: past)) :
    (Entries.keys vars).Pairwise (Precedes loopVars (vars :: past)) := by
  -- The latest change is undone, so the moment before is ordered.
  generalize whole : vars :: past = history at evolves
  induction evolves generalizing vars past with
  | start =>
    obtain ⟨rfl, rfl⟩ := List.cons.inj whole
    exact .nil
  | change change _ ih =>
    obtain ⟨rfl, rfl⟩ := List.cons.inj whole
    have ordered := ih rfl
    cases change with
    | same => exact pairwise_later ordered fun _ bound => bound
    | bound name value => exact pairwise_bound name ordered
    | gone looping => exact pairwise_gone looping ordered

namespace Change

variable {setting : Setting σ} {loopVars : List String} {machine : Machine σ} {request : Call}

/-- A result is bound to the captured name, if there is one. -/
theorem concluded (machine : Machine σ) (request : Call) (args : Entries Value) (result : Value) :
    Change loopVars machine.vars (machine.conclude request args result).vars := by
  simp only [Machine.conclude]
  cases request.capture with
  | none => exact .same
  | some name => exact .bound name result

/-- A call changes the variables by its capture and in no other way. -/
theorem called {outcome : Flow × Machine σ}
    (called : Machine.Called setting request machine outcome) :
    Change loopVars machine.vars outcome.2.vars := by
  cases called with
  | unknown unknown => exact .same
  | dry known isDry => exact concluded (machine.note _) request _ _
  | failed known live answer => exact .same
  | answered known live answer => exact concluded (machine.answered request _) request _ _

end Change

end History

/-! ### Runs with their histories -/

open History

/-- An action together with what it adds to the history. -/
structure Course (σ : Type) where
  action : Action σ
  extend : Machine σ → List Bindings → List Bindings

namespace Course

/-- An action that changes the variables at most once. -/
def once (action : Action σ) : Course σ where
  action := action
  extend machine past := (action machine).2.vars :: past

def skip : Course σ where
  action := .skip
  extend _ past := past

def andThen (first second : Course σ) : Course σ where
  action := first.action.andThen second.action
  extend machine past :=
    match first.action machine with
    | (.next, after) => second.extend after (first.extend machine past)
    | _ => first.extend machine past

def choose (condition : Condition) (yes no : Course σ) : Course σ where
  action := .choose condition yes.action no.action
  extend machine past :=
    let outcome := condition.holds machine.vars
    let noted := machine.note (.traced (.branched condition outcome))
    if outcome then yes.extend noted past else no.extend noted past

/-- The loop variable is given back at the end, after all the rounds. -/
def loop (var : String) (iterable : Expr) (rounds : List Value → Course σ) : Course σ where
  action := .loop var iterable fun items => (rounds items).action
  extend machine past :=
    match iterable.resolve machine.vars with
    | .array items =>
      let opened := machine.note (.looping var)
      let ended := ((rounds items).action opened).2
      (ended.restore var (machine.vars.get? var)).vars :: (rounds items).extend opened past
    | _ => past

/-- The rounds of a loop over the items left, counted from `index`. -/
def rounds (setting : Setting σ) (var : String) (body : Course σ) : Nat → List Value → Course σ
  | _, [] => skip
  | index, item :: items =>
    (((once (.check (Machine.checkpoint setting))).andThen (once (.enter var index item))).andThen
      body).andThen (rounds setting var body (index + 1) items)

mutual

def ofStatement (setting : Setting σ) : Statement → Course σ
  | .assign name value => once (Machine.runStatement setting (.assign name value))
  | .call call => once (Machine.runCall setting call)
  | .branch condition yes no => choose condition (ofBlock setting yes) (ofBranch setting no)
  | .loop var iterable body => loop var iterable (rounds setting var (ofBlock setting body) 0)
  | .finish value => once (Machine.runStatement setting (.finish value))
  | .blank => once (Machine.runStatement setting .blank)

def ofBlock (setting : Setting σ) : List Statement → Course σ
  | [] => skip
  | statement :: rest =>
    (((once (.check (Machine.checkpoint setting))).andThen (ofStatement setting statement)).andThen
      (once (.check (Machine.checkDeadline setting)))).andThen (ofBlock setting rest)

def ofBranch (setting : Setting σ) : Option (List Statement) → Course σ
  | none => skip
  | some statements => ofBlock setting statements

end

/-! #### The actions of a course are those of a run -/

theorem rounds_action (setting : Setting σ) (var : String) (body : Course σ) (index : Nat)
    (items : List Value) : (rounds setting var body index items).action =
      Machine.iterate setting var body.action index items := by
  induction items generalizing index with
  | nil => rfl
  | cons item items ih =>
    rw [Machine.iterate_cons, ← ih]
    rfl

mutual

/-- Watching the variables changes nothing about the run. -/
theorem ofStatement_action (setting : Setting σ) : ∀ (statement : Statement),
    (ofStatement setting statement).action = Machine.runStatement setting statement
  | .assign _ _ => by rw [ofStatement, once]
  | .call call => by rw [ofStatement, once, Machine.runStatement_call]
  | .branch condition yes no => by
    rw [ofStatement, choose, Machine.runStatement_branch, ofBlock_action setting yes,
      ofBranch_action setting no]
  | .loop var iterable body => by
    rw [ofStatement, loop, Machine.runStatement_loop, ← ofBlock_action setting body]
    simp only [rounds_action]
  | .finish _ => by rw [ofStatement, once]
  | .blank => by rw [ofStatement, once]

theorem ofBlock_action (setting : Setting σ) : ∀ (statements : List Statement),
    (ofBlock setting statements).action = Machine.runBlock setting statements
  | [] => by
    rw [ofBlock, Machine.runBlock_nil]
    rfl
  | statement :: rest => by
    rw [ofBlock, Machine.runBlock_cons, ← ofStatement_action setting statement,
      ← ofBlock_action setting rest]
    rfl

theorem ofBranch_action (setting : Setting σ) : ∀ (no : Option (List Statement)),
    (ofBranch setting no).action = Machine.runBranch setting no
  | none => by
    rw [ofBranch, Machine.runBranch_none]
    rfl
  | some statements => by
    rw [ofBranch, Machine.runBranch_some, ofBlock_action setting statements]

end

/-! #### Histories are made of changes -/

/-- The course extends a history by changes, up to the variables that its action leaves. -/
def Faithful (loopVars : List String) (course : Course σ) : Prop :=
  ∀ (machine : Machine σ) (past : List Bindings), Evolves loopVars (machine.vars :: past) →
    ∃ earlier, course.extend machine (machine.vars :: past) =
        (course.action machine).2.vars :: earlier ∧
      Evolves loopVars ((course.action machine).2.vars :: earlier)

namespace Faithful

variable {plan : Plan} {loopVars : List String}

theorem skip : (Course.skip : Course σ).Faithful loopVars :=
  fun _ past evolves => ⟨past, rfl, evolves⟩

theorem once {action : Action σ}
    (change : ∀ machine, Change loopVars machine.vars (action machine).2.vars) :
    (Course.once action).Faithful loopVars :=
  fun machine past evolves => ⟨machine.vars :: past, rfl, .change (change machine) evolves⟩

/-- The second course goes on from the variables that the first one leaves. -/
theorem andThen {first second : Course σ} (before : first.Faithful loopVars)
    (after : second.Faithful loopVars) : (first.andThen second).Faithful loopVars := by
  intro machine past evolves
  obtain ⟨earlier, extended, evolved⟩ := before machine past evolves
  rcases ended : first.action machine with ⟨flow, middle⟩
  rw [ended] at extended evolved
  simp only [Course.andThen, ended, extended]
  by_cases passed : flow = .next
  · subst passed
    rw [Action.andThen_next ended]
    exact after middle earlier evolved
  · rw [Action.andThen_stop ended passed]
    refine ⟨earlier, ?_, evolved⟩
    split
    · next again => exact absurd (congrArg Prod.fst again) passed
    · rfl

theorem choose (condition : Condition) {yes no : Course σ} (first : yes.Faithful loopVars)
    (other : no.Faithful loopVars) : (Course.choose condition yes no).Faithful loopVars := by
  intro machine past evolves
  simp only [Course.choose, Action.choose]
  split
  · exact first (machine.note _) past evolves
  · exact other (machine.note _) past evolves

/-- Giving the loop variable back is a change like others: it is bound again or removed. -/
theorem loop {var : String} (looping : var ∈ loopVars) (iterable : Expr)
    {rounds : List Value → Course σ} (faithful : ∀ items, (rounds items).Faithful loopVars) :
    (Course.loop var iterable rounds).Faithful loopVars := by
  intro machine past evolves
  cases resolved : iterable.resolve machine.vars with
  | array items =>
    simp only [Course.loop, Action.loop, resolved]
    obtain ⟨earlier, extended, evolved⟩ :=
      faithful items (machine.note (.looping var)) past evolves
    have same : (machine.note (.looping var)).vars = machine.vars := rfl
    rw [same] at extended
    refine ⟨_, rfl, ?_⟩
    rw [extended]
    refine .change ?_ evolved
    cases machine.vars.get? var with
    | none => exact .gone looping
    | some value => exact .bound var value
  | _ =>
    simp only [Course.loop, Action.loop, resolved]
    exact ⟨past, rfl, evolves⟩

theorem checkpoint (setting : Setting σ) :
    (Course.once (.check (Machine.checkpoint setting))).Faithful loopVars := by
  refine once fun machine => ?_
  rw [Action.check_snd]
  exact .same

theorem checkDeadline (setting : Setting σ) :
    (Course.once (.check (Machine.checkDeadline setting))).Faithful loopVars := by
  refine once fun machine => ?_
  rw [Action.check_snd]
  exact .same

/-- A call is one change at most. -/
theorem call (setting : Setting σ) (request : Call) :
    (Course.once (Machine.runCall setting request)).Faithful loopVars :=
  once fun _ => .called (Machine.called_runCall ..)

theorem rounds (setting : Setting σ) (var : String) {body : Course σ}
    (faithful : body.Faithful loopVars) (index : Nat) (items : List Value) :
    (Course.rounds setting var body index items).Faithful loopVars := by
  induction items generalizing index with
  | nil => exact skip
  | cons item items ih =>
    have entered : (Course.once (.enter var index item) : Course σ).Faithful loopVars :=
      once fun machine => .bound var item
    exact (((checkpoint setting).andThen entered).andThen faithful).andThen (ih (index + 1))

mutual

/-- By recursion on the statements, whose loops are those of the plan. -/
theorem statement (setting : Setting σ) : ∀ (statement : Statement), statement.parts ⊆ plan.parts →
    (ofStatement setting statement).Faithful plan.loopVars
  | .assign name value, _ => by
    rw [ofStatement]
    refine once fun machine => ?_
    rw [Machine.runStatement]
    exact .bound name _
  | .call request, _ => by
    rw [ofStatement]
    exact call setting request
  | .branch condition yes no, within => by
    rw [Statement.parts, List.cons_subset, List.append_subset] at within
    rw [ofStatement]
    exact choose condition (block setting yes within.2.1) (otherwise setting no within.2.2)
  | .loop var iterable body, within => by
    rw [Statement.parts, List.cons_subset] at within
    rw [ofStatement]
    exact loop (Plan.mem_loopVars within.1) iterable
      (rounds setting var (block setting body within.2) 0)
  | .finish _, _ => by
    rw [ofStatement]
    refine once fun machine => ?_
    rw [Machine.runStatement]
    exact .same
  | .blank, _ => by
    rw [ofStatement]
    refine once fun machine => ?_
    rw [Machine.runStatement]
    exact .same

theorem block (setting : Setting σ) : ∀ (statements : List Statement),
    Statement.partsOf statements ⊆ plan.parts →
    (ofBlock setting statements).Faithful plan.loopVars
  | [], _ => by
    rw [ofBlock]
    exact skip
  | first :: rest, within => by
    rw [Statement.partsOf, List.append_subset] at within
    rw [ofBlock]
    exact (((checkpoint setting).andThen (statement setting first within.1)).andThen
      (checkDeadline setting)).andThen (block setting rest within.2)

theorem otherwise (setting : Setting σ) : ∀ (no : Option (List Statement)),
    Statement.partsOfBranch no ⊆ plan.parts →
    (ofBranch setting no).Faithful plan.loopVars
  | none, _ => by
    rw [ofBranch]
    exact skip
  | some statements, within => by
    rw [Statement.partsOfBranch] at within
    rw [ofBranch]
    exact block setting statements within

end

end Faithful

end Course

/-! ### The order at the end -/

namespace Plan

/-- The variables at every moment of a run, the latest first. -/
def history (plan : Plan) (registry : Registry σ) (options : Options) (clock : Clock)
    (memories : Memories σ) : List Bindings :=
  (Course.ofBlock ⟨registry, options.dryRun, clock⟩ plan).extend (Machine.start options memories) [[]]

/-- The order of the variables at the end of a run. The history goes from no variables to those of
the report, by single changes. Of any two variables the one that stands first was bound for the
longer time without a break; or it has overtaken the other one when a loop variable went, and both
have been bound since. -/
theorem run_order (plan : Plan) (registry : Registry σ) (options : Options) (clock : Clock)
    (memories : Memories σ) :
    let report := (plan.run registry options clock memories).1
    let history := plan.history registry options clock memories
    history.head? = some report.vars ∧ Evolves plan.loopVars history ∧
      (Entries.keys report.vars).Pairwise (Precedes plan.loopVars history) := by
  intro report history
  obtain ⟨earlier, extended, evolves⟩ :=
    Course.Faithful.block ⟨registry, options.dryRun, clock⟩ plan (List.Subset.refl plan.parts)
      (Machine.start options memories) [] .start
  have ended : ((Course.ofBlock ⟨registry, options.dryRun, clock⟩ plan).action
      (Machine.start options memories)).2.vars = report.vars := by
    rw [Course.ofBlock_action]
    rfl
  rw [ended] at extended evolves
  have whole : history = report.vars :: earlier := extended
  rw [whole]
  exact ⟨rfl, evolves, evolves.ordered⟩

/-- A loop whose only round binds two variables. -/
def boundInLoop : Plan :=
  [.loop "i" (.array [.number (.int 1)])
    [.assign "x" (.number (.int 1)), .assign "y" (.number (.int 2))]]

/-- The variables do not always stand in the order in which they were bound. Where the loop variable
goes, the last variable is put before the one that was bound first. -/
theorem order_lost :
    let report := (boundInLoop.run ticking ⟨1000, none, false⟩ Clock.ticking ⟨0, []⟩).1
    let history := boundInLoop.history ticking ⟨1000, none, false⟩ Clock.ticking ⟨0, []⟩
    report.ok = true ∧ Entries.keys report.vars = ["y", "x"] ∧
      age history "y" < age history "x" ∧
      ¬ (Entries.keys report.vars).Pairwise fun earlier later =>
        age history later < age history earlier := by
  intro report history
  have keys : Entries.keys report.vars = ["y", "x"] := by decide +kernel
  have later : age history "y" < age history "x" := by decide +kernel
  refine ⟨by decide +kernel, keys, later, ?_⟩
  rw [keys, List.pairwise_pair]
  exact Nat.not_lt_of_lt later

end Plan

end ToolPlan
