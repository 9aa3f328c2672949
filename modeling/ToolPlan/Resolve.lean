import ToolPlan.Plan

/-!
The value of an expression and the truth of a condition, under the variables of a run. Nothing here
has an effect or fails: a variable without a value, and a step that leads nowhere, are null.
-/

namespace ToolPlan

abbrev Bindings := Entries Value

namespace Bindings

/-- A bare word: the variable of that name, or one of the literal words, or a number, or else the
word itself. -/
def resolveBare (vars : Bindings) (word : String) : Value :=
  match Entries.get? vars word with
  | some value => value
  | none =>
    match word with
    | "true" => .bool true
    | "false" => .bool false
    | "null" => .null
    | _ =>
      match Number.ofText? word with
      | some value => .number value
      | none => .string word

/-- The value at the end of a path; a path from null stays at null. -/
def follow (value : Value) : List IndexStep → Value
  | [] => value
  | step :: rest => if value.isNull then value else follow (value.index step) rest

/-- A variable with a path into its value. -/
def resolveVar (vars : Bindings) (name : String) (path : List IndexStep) : Value :=
  follow ((Entries.get? vars name).getD .null) path

end Bindings

mutual

def Expr.resolve (vars : Bindings) : Expr → Value
  | .number value => .number value
  | .bool value => .bool value
  | .null => .null
  | .string text => .string text
  | .bare word => vars.resolveBare word
  | .array items => .array (resolveItems vars items)
  | .map entries => .map (resolveEntries vars entries)
  | .var name path => vars.resolveVar name path

def Expr.resolveItems (vars : Bindings) : List Expr → List Value
  | [] => []
  | item :: items => item.resolve vars :: resolveItems vars items

/-- The values of expressions under names, in the same order. -/
def Expr.resolveEntries (vars : Bindings) : List (String × Expr) → List (String × Value)
  | [] => []
  | (key, value) :: entries => (key, value.resolve vars) :: resolveEntries vars entries

end

def Condition.holds (vars : Bindings) : Condition → Bool
  | not inner => !inner.holds vars
  | and left right => left.holds vars && right.holds vars
  | or left right => left.holds vars || right.holds vars
  | compare op left right => op.holds (left.resolve vars) (right.resolve vars)

end ToolPlan
