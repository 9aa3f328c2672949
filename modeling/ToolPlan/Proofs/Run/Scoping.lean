import ToolPlan.Proofs.Run.Variables

/-!
Loop variables stay within their loops. There are no scopes, and the body of a loop may bind the loop
variable as it likes; but however the loop ends, its variable has afterwards what it had before. So
what no assignment and no capture of a plan binds is not bound by a run of the plan either
(`Machine.loop_scoped`).
-/

namespace ToolPlan

variable {σ : Type}

namespace Machine

/-! ### One loop -/

/-- A loop does not touch the variables, or runs its rounds and restores its own variable. -/
theorem runStatement_loop_cases (setting : Setting σ) (machine : Machine σ) (var : String)
    (iterable : Expr) (body : List Statement) :
    (runStatement setting (.loop var iterable body) machine).2.vars = machine.vars ∨
      ∃ items, (runStatement setting (.loop var iterable body) machine).2 =
        (iterate setting var (runBlock setting body) 0 items
          (machine.note (.looping var))).2.restore var (Entries.get? machine.vars var) := by
  rw [runStatement_loop]
  unfold Action.loop
  split
  · next items _ => exact .inr ⟨items, rfl⟩
  · exact .inl rfl

/-- However a loop ends, its variable has what it had before. -/
theorem get?_loop_self (setting : Setting σ) (machine : Machine σ) (var : String) (iterable : Expr)
    (body : List Statement) :
    Entries.get? (runStatement setting (.loop var iterable body) machine).2.vars var =
      Entries.get? machine.vars var := by
  rcases runStatement_loop_cases setting machine var iterable body with untouched | ⟨items, restored⟩
  · rw [untouched]
  · rw [restored]
    exact get?_restore_self ..

end Machine

/-! ### What a plan does not bind -/

namespace Action

/-- Whatever the action does, the variable has afterwards what it had before. -/
def Leaves (name : String) (action : Action σ) : Prop :=
  ∀ machine : Machine σ,
    Entries.get? (action machine).2.vars name = Entries.get? machine.vars name

namespace Leaves

variable {name : String}

theorem skip : (Action.skip : Action σ).Leaves name :=
  fun _ => rfl

theorem andThen {first second : Action σ} (before : first.Leaves name)
    (after : second.Leaves name) : (first.andThen second).Leaves name := by
  intro machine
  have same := before machine
  rcases ended : first machine with ⟨flow, middle⟩
  rw [ended] at same
  by_cases passed : flow = .next
  · subst passed
    rw [Action.andThen_next ended]
    exact (after middle).trans same
  · rw [Action.andThen_stop ended passed]
    exact same

/-- The action does not touch the variables. -/
theorem of_vars {action : Action σ} (same : ∀ machine, (action machine).2.vars = machine.vars) :
    action.Leaves name := by
  intro machine
  rw [same]

theorem checkpoint (setting : Setting σ) :
    (Action.check (Machine.checkpoint setting)).Leaves name := by
  apply of_vars
  intro machine
  rw [Action.check_snd]
  rfl

theorem checkDeadline (setting : Setting σ) :
    (Action.check (Machine.checkDeadline setting)).Leaves name := by
  apply of_vars
  intro machine
  rw [Action.check_snd]
  rfl

/-- A round binds its own variable only. -/
theorem enter {var : String} (differ : name ≠ var) (index : Nat) (item : Value) :
    (Action.enter var index item : Action σ).Leaves name :=
  fun _ => Entries.get?_insert_of_ne _ _ differ

theorem iterate {setting : Setting σ} {var : String} {body : Action σ} (differ : name ≠ var)
    (leaves : body.Leaves name) (index : Nat) (items : List Value) :
    Action.Leaves name (Machine.iterate setting var body index items) := by
  induction items generalizing index with
  | nil => exact skip
  | cons item items ih =>
    rw [Machine.iterate_cons]
    have entered := (checkpoint setting).andThen (enter differ index item)
    exact (entered.andThen leaves).andThen (ih (index + 1))

/-- Keeping a result binds the captured name only. -/
theorem conclude (machine : Machine σ) {call : Call} (uncaptured : call.capture ≠ some name)
    (args : Entries Value) (result : Value) :
    Entries.get? (machine.conclude call args result).vars name =
      Entries.get? machine.vars name := by
  simp only [Machine.conclude]
  cases captured : call.capture with
  | none => rfl
  | some var =>
    have differ : name ≠ var := by
      rintro rfl
      exact uncaptured captured
    exact Entries.get?_insert_of_ne _ _ differ

/-- So a call that captures under another name, or not at all, leaves the variable alone. -/
theorem call (setting : Setting σ) {call : Call} (uncaptured : call.capture ≠ some name) :
    Action.Leaves name (Machine.runCall setting call) := by
  intro machine
  have called := machine.called_runCall setting call
  generalize Machine.runCall setting call machine = outcome at called
  cases called with
  | unknown unknown => rfl
  | dry known isDry => exact conclude _ uncaptured _ _
  | failed known live error => rfl
  | answered known live result => exact conclude _ uncaptured _ _

/-- A loop leaves its own variable as it was, whatever its body does, and the others if its body
does. -/
theorem loop {setting : Setting σ} {body : List Statement}
    (leaves : Action.Leaves name (Machine.runBlock setting body)) (var : String) (iterable : Expr) :
    Action.Leaves name (Machine.runStatement setting (.loop var iterable body)) := by
  intro machine
  rcases Machine.runStatement_loop_cases setting machine var iterable body with
    untouched | ⟨items, restored⟩
  · rw [untouched]
  · rw [restored]
    by_cases own : name = var
    · subst own
      exact Machine.get?_restore_self ..
    · have same := @iterate _ name setting _ _ own leaves 0 items (machine.note (.looping var))
      exact (Machine.get?_restore_of_ne _ own _).trans same

end Leaves

end Action

/-- The variable that a statement binds for the statements after it. -/
def Statement.target? : Statement → Option String
  | .assign name _ => some name
  | .call request => request.capture
  | .branch _ _ _ => none
  | .loop _ _ _ => none
  | .finish _ => none
  | .blank => none

/-- A statement binds a variable by an assignment or by a capture. -/
theorem Statement.target?_eq_some {statement : Statement} {name : String} :
    statement.target? = some name ↔ (∃ value, statement = .assign name value) ∨
      ∃ call, statement = .call call ∧ call.capture = some name := by
  cases statement <;> simp [target?]

/-- What no statement of a plan binds is left as it was by all of them. -/
theorem inherited_leaves (setting : Setting σ) {plan : Plan} {name : String}
    (unbound : ∀ statement ∈ plan.parts, statement.target? ≠ some name) :
    Inherited setting plan (Action.Leaves name) where
  skip := .skip
  andThen := .andThen
  checkpoint := .checkpoint setting
  checkDeadline := .checkDeadline setting
  assign {var value} among machine := by
    have differ : name ≠ var := by
      rintro rfl
      exact unbound _ among rfl
    rw [Machine.runStatement]
    exact Entries.get?_insert_of_ne _ _ differ
  call among := .call setting (unbound _ among)
  branch among yes no machine := by
    rw [Machine.runStatement_branch]
    simp only [Action.choose]
    split
    · exact yes _
    · exact no _
  loop among leaves := .loop leaves _ _
  finish among machine := by
    rw [Machine.runStatement]
    rfl
  blank machine := by
    rw [Machine.runStatement]
    rfl

namespace Machine

/-- Loop variables do not leak. From every state and with every body, whichever way the loop ends,
its variable has afterwards the value that it had before, or again none; and so every variable at the
end of a run is one that the plan assigns, or in which it captures the result of a call. -/
theorem loop_scoped :
    (∀ (setting : Setting σ) (machine : Machine σ) (var : String) (iterable : Expr)
      (body : List Statement),
      Entries.get? (runStatement setting (.loop var iterable body) machine).2.vars var =
        Entries.get? machine.vars var) ∧
    ∀ (plan : Plan) (registry : Registry σ) (options : Options) (clock : Clock)
      (memories : Memories σ),
      ∀ name ∈ Entries.keys (plan.run registry options clock memories).1.vars,
        (∃ value, .assign name value ∈ plan.parts) ∨
          ∃ call, .call call ∈ plan.parts ∧ call.capture = some name := by
  constructor
  · intro setting machine var iterable body
    exact get?_loop_self setting machine var iterable body
  · intro plan registry options clock memories name among
    apply Classical.byContradiction
    intro free
    have unbound : ∀ statement ∈ plan.parts, statement.target? ≠ some name := by
      intro statement standing binds
      rcases Statement.target?_eq_some.mp binds with ⟨value, rfl⟩ | ⟨call, rfl, captured⟩
      · exact free (.inl ⟨value, standing⟩)
      · exact free (.inr ⟨call, standing, captured⟩)
    have leaves := (inherited_leaves ⟨registry, options.dryRun, clock⟩ unbound).block plan
      (List.Subset.refl _)
    have same := leaves (start options memories)
    obtain ⟨value, found⟩ := Entries.mem_keys_iff.mp among
    cases same.symm.trans found

/-- A body that binds the loop variable in every way, and then calls an unknown tool. -/
def rebinding : List Statement :=
  [.assign "i" .null, .call ⟨"tick", [], some "i", .start⟩,
   .loop "i" (.array [.null]) [.assign "i" (.bool true)], .call ⟨"store", [], none, .start⟩]

/-- A state in which the loop variable has a value already. -/
def holding : Machine Nat where
  env := ⟨[("i", .string "outer"), ("x", .null)], by decide⟩
  budget := ⟨9, none, 0⟩
  memories := ⟨0, []⟩

/-- A loop whose last item is left in another variable. -/
def keeping : Plan :=
  [.loop "i" (.array [.null]) [.assign "kept" (.var "i" [])]]

/-- The body binds the loop variable in every way and then halts the run; still the old value is
back. -/
theorem loop_scoped_rebinding :
    (Report.ofOutcome (runStatement ⟨Plan.ticking, false, Clock.ticking⟩
        (.loop "i" (.array [.null, .null]) rebinding) holding)).1.halt? =
          some (.unknownTool "store") ∧
      Entries.get? (runStatement ⟨Plan.ticking, false, Clock.ticking⟩
        (.loop "i" (.array [.null, .null]) rebinding) holding).2.vars "i" =
          some (.string "outer") ∧
      Entries.keys (Plan.run keeping Plan.ticking ⟨9, none, false⟩ Clock.ticking ⟨0, []⟩).1.vars =
        ["kept"] ∧
      ((∃ value, .assign "kept" value ∈ Plan.parts keeping) ∨
        ∃ call, .call call ∈ Plan.parts keeping ∧ call.capture = some "kept") := by
  have before : Entries.get? holding.vars "i" = some (.string "outer") := rfl
  have left : Entries.keys
      (Plan.run keeping Plan.ticking ⟨9, none, false⟩ Clock.ticking ⟨0, []⟩).1.vars = ["kept"] := by
    decide +kernel
  refine ⟨by decide +kernel, ?_, left, ?_⟩
  · rw [← before]
    exact (@loop_scoped Nat).1 _ holding "i" (.array [.null, .null]) rebinding
  · apply loop_scoped.2 keeping Plan.ticking ⟨9, none, false⟩ Clock.ticking ⟨0, []⟩
    rw [left]
    exact List.mem_singleton.mpr rfl

end Machine

end ToolPlan
