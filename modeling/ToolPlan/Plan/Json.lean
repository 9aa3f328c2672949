import ToolPlan.Plan.Analysis

/-!
Plans as data, for readers outside: every node is a map that names its kind first. The outermost list
of statements is a script, every inner one a block.
-/

namespace ToolPlan

def Position.toValue (place : Position) : Value :=
  .map [("line", .int place.line), ("col", .int place.column)]

/-- An optional text; its absence is null. -/
def Value.ofText? : Option String → Value
  | some text => .string text
  | none => .null

def IndexStep.toValue : IndexStep → Value
  | position index => .int index
  | key name => .string name

mutual

def Expr.toValue : Expr → Value
  | .number value => .map [("type", .string "number"), ("value", .number value)]
  | .bool value => .map [("type", .string "bool"), ("value", .bool value)]
  | .null => .map [("type", .string "null")]
  | .string text => .map [("type", .string "string"), ("value", .string text)]
  | .bare text => .map [("type", .string "bare"), ("value", .string text)]
  | .array items => .map [("type", .string "array"), ("value", .array (itemsToValue items))]
  | .map entries => .map [("type", .string "map"), ("value", .map (entriesToValue entries))]
  | .var name path =>
    let reference := .map [("name", .string name), ("path", .array (path.map IndexStep.toValue))]
    .map [("type", .string "var"), ("value", reference)]

def Expr.itemsToValue : List Expr → List Value
  | [] => []
  | item :: items => item.toValue :: itemsToValue items

def Expr.entriesToValue : List (String × Expr) → List (String × Value)
  | [] => []
  | (key, value) :: entries => (key, value.toValue) :: entriesToValue entries

end

def Condition.toValue : Condition → Value
  | not inner => .map [("type", .string "not"), ("inner", inner.toValue)]
  | and left right =>
    .map [("type", .string "and"), ("left", left.toValue), ("right", right.toValue)]
  | or left right =>
    .map [("type", .string "or"), ("left", left.toValue), ("right", right.toValue)]
  | compare op left right =>
    .map [("type", .string "cmp"), ("op", .string op.symbol), ("left", left.toValue),
      ("right", right.toValue)]

def Call.fields (call : Call) : List (String × Value) :=
  [("name", .string call.name), ("args", .map (Expr.entriesToValue call.args)),
   ("capture", Value.ofText? call.capture), ("location", call.place.toValue)]

/-- A list of statements as a node of the given kind. -/
def Plan.node (kind : String) (statements : List Value) : Value :=
  .map [("kind", .string kind), ("statements", .array statements)]

mutual

def Statement.toValue : Statement → Value
  | .assign name value =>
    .map [("type", .string "let"), ("name", .string name), ("value", value.toValue)]
  | .call request => .map (("type", .string "call") :: request.fields)
  | .branch condition yes no =>
    .map [("type", .string "if"), ("condition", condition.toValue),
      ("then_block", Plan.node "block" (listToValue yes)), ("else_block", branchToValue no)]
  | .loop var iterable body =>
    .map [("type", .string "for"), ("var", .string var), ("iterable", iterable.toValue),
      ("body", Plan.node "block" (listToValue body))]
  | .finish value => .map [("type", .string "return"), ("value", value.toValue)]
  | .blank => .map [("type", .string "empty")]

def Statement.listToValue : List Statement → List Value
  | [] => []
  | statement :: rest => statement.toValue :: listToValue rest

/-- The other branch of a conditional; its absence is null. -/
def Statement.branchToValue : Option (List Statement) → Value
  | none => .null
  | some statements => Plan.node "block" (listToValue statements)

end

namespace Plan

def toValue (plan : Plan) : Value :=
  node "script" (Statement.listToValue plan)

/-- A plan with what it asks for: the tools it needs, its calls and its statements. -/
def analysis (plan : Plan) : Value :=
  .map [("requiredCapabilities", .array (plan.requiredTools.map .string)),
    ("invocations", .array (plan.calls.map fun call => .map call.fields)),
    ("plan", plan.toValue)]

end Plan

end ToolPlan
