import ToolPlan.Token
import ToolPlan.Value

/-!
Plans: the statements that a plan text stands for. A plan is a list of statements; the branches of a
conditional and the body of a loop are such lists again.
-/

namespace ToolPlan

/-- An expression for a value. A bare word is resolved only when the plan runs. -/
inductive Expr where
  | number (value : Number)
  | bool (value : Bool)
  | null
  | string (text : String)
  | bare (text : String)
  | array (items : List Expr)
  | map (entries : List (String × Expr))
  | var (name : String) (path : List IndexStep)
  deriving Repr

inductive Condition where
  | not (inner : Condition)
  | and (left right : Condition)
  | or (left right : Condition)
  | compare (op : Comparison) (left right : Expr)
  deriving Repr

/-- A call of a tool, with the place of the word that opens it. The result may be captured in a
variable. -/
structure Call where
  name : String
  args : Entries Expr
  capture : Option String
  place : Position
  deriving Repr

/-- A statement. A blank line is a statement that does nothing. -/
inductive Statement where
  | assign (name : String) (value : Expr)
  | call (call : Call)
  | branch (condition : Condition) (yes : List Statement) (no : Option (List Statement))
  | loop (var : String) (iterable : Expr) (body : List Statement)
  | finish (value : Expr)
  | blank
  deriving Repr

abbrev Plan := List Statement

end ToolPlan
