import ToolPlan.Entries
import ToolPlan.Number

/-!
The data a plan works on: null, truth values, numbers, strings, arrays and maps whose entries keep
their order. Equality compares numbers by value and maps without regard to order; an order exists
between numbers, between strings and between truth values only.
-/

namespace ToolPlan

/-- A value. The entries of a map are in order of insertion. -/
inductive Value where
  | null
  | bool (value : Bool)
  | number (value : Number)
  | string (text : String)
  | array (items : List Value)
  | map (entries : List (String × Value))
  deriving Repr, Inhabited

/-- One step into a value: the place in an array, or the key in a map. -/
inductive IndexStep where
  | position (index : Int)
  | key (name : String)
  deriving DecidableEq, Repr

inductive Comparison where
  | eq | ne | lt | le | gt | ge
  deriving DecidableEq, Repr

namespace Value

def typeName : Value → String
  | null => "null"
  | bool _ => "boolean"
  | number _ => "number"
  | string _ => "string"
  | array _ => "array"
  | map _ => "map"

def isNull : Value → Bool
  | null => true
  | _ => false

def int (value : Int) : Value :=
  number (.int value)

/-- The entries of a map; every other value has none. -/
def fields : Value → Entries Value
  | map entries => entries
  | _ => []

/-- The value under a key of a map. -/
def field? (value : Value) (key : String) : Option Value :=
  value.fields.get? key

/-! ### Equality and order -/

mutual

/-- Equality by content: numbers by value, arrays item by item, maps by the values under their
keys. -/
def equal : Value → Value → Bool
  | null, null => true
  | bool a, bool b => a == b
  | number a, number b => a.order b == .eq
  | string a, string b => a == b
  | array xs, array ys => xs.length == ys.length && equalItems xs ys
  | map xs, map ys => xs.length == ys.length && equalEntries xs ys
  | _, _ => false

/-- Items at the same places are equal, as far as both lists go. -/
def equalItems : List Value → List Value → Bool
  | x :: xs, y :: ys => equal x y && equalItems xs ys
  | _, _ => true

/-- Every entry is matched by an equal value under the same key of the other map. -/
def equalEntries : List (String × Value) → List (String × Value) → Bool
  | [], _ => true
  | (key, x) :: xs, others =>
    (match Entries.get? others key with
      | some y => equal x y
      | none => false) && equalEntries xs others

end

/-- The order of two texts, by code points. -/
def orderText (a b : String) : Ordering :=
  if a < b then .lt else if a = b then .eq else .gt

/-- The order of two truth values: false comes first. -/
def orderBool : Bool → Bool → Ordering
  | false, true => .lt
  | true, false => .gt
  | _, _ => .eq

def order? : Value → Value → Option Ordering
  | number a, number b => some (a.order b)
  | string a, string b => some (orderText a b)
  | bool a, bool b => some (orderBool a b)
  | _, _ => none

end Value

namespace Comparison

def symbol : Comparison → String
  | eq => "=="
  | ne => "!="
  | lt => "<"
  | le => "<="
  | gt => ">"
  | ge => ">="

def ofSymbol? : String → Option Comparison
  | "==" => some eq
  | "!=" => some ne
  | "<" => some lt
  | "<=" => some le
  | ">" => some gt
  | ">=" => some ge
  | _ => none

/-- No two operators have the same symbol. -/
@[simp] theorem ofSymbol?_symbol (op : Comparison) : ofSymbol? op.symbol = some op := by
  cases op <;> rfl

/-- Whether an operator admits an order between its operands. -/
def admits : Comparison → Ordering → Bool
  | eq, o => o == .eq
  | ne, o => o != .eq
  | lt, o => o == .lt
  | le, o => o != .gt
  | gt, o => o == .gt
  | ge, o => o != .lt

/-- Whether a comparison holds. Null takes part in equality alone, so two nulls satisfy exactly the
operators that admit equality, and one null satisfies none of the ordering operators. -/
def holds (op : Comparison) (left right : Value) : Bool :=
  match op with
  | eq => left.equal right
  | ne => !left.equal right
  | _ =>
    if left.isNull && right.isNull then op.admits .eq
    else if left.isNull || right.isNull then false
    else match left.order? right with
      | some o => op.admits o
      | none => false

end Comparison

namespace Value

/-- One step into a value; a step that finds nothing gives null. A position in a map is the key
written with the same digits. -/
def index (value : Value) (step : IndexStep) : Value :=
  match value, step with
  | array items, .position i => if i < 0 then null else items.getD i.toNat null
  | map entries, .position i => (Entries.get? entries (Number.renderInt i)).getD null
  | map entries, .key name => (Entries.get? entries name).getD null
  | _, _ => null

end Value

end ToolPlan
