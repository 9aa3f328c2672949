import ToolPlan.Resolve

/-!
The variables of a run as its statements change them: a statement defines a variable, and a loop
removes its own when it ends. There are no scopes, and no name ever stands twice.
-/

namespace ToolPlan

/-- The variables of a run, each name once. -/
@[ext] structure Environment where
  vars : Bindings
  distinct : (Entries.keys vars).Nodup

namespace Environment

protected def empty : Environment where
  vars := []
  distinct := List.nodup_nil

def define (env : Environment) (name : String) (value : Value) : Environment where
  vars := env.vars.insert name value
  distinct := Entries.nodup_keys_insert env.distinct name value

/-- Removes a variable. The last one moves into its place. -/
def remove (env : Environment) (name : String) : Environment where
  vars := env.vars.remove name
  distinct := Entries.nodup_keys_remove env.distinct name

variable {env : Environment} {name : String}

@[simp] theorem vars_define (value : Value) :
    (env.define name value).vars = env.vars.insert name value :=
  rfl

@[simp] theorem vars_remove : (env.remove name).vars = env.vars.remove name :=
  rfl

/-- A removed variable has no value. -/
theorem get?_remove_self (env : Environment) (name : String) :
    Entries.get? (env.remove name).vars name = none :=
  Entries.get?_remove_self env.distinct name

/-- The other variables keep their values, wherever they have moved. -/
theorem get?_remove_of_ne (env : Environment) {other : String} (differ : other ≠ name) :
    Entries.get? (env.remove name).vars other = Entries.get? env.vars other :=
  Entries.get?_remove_of_ne env.distinct differ

end Environment

end ToolPlan
