import ToolPlan.Token

/-!
Why a text or a list of tokens is no plan, and what is said about it.
-/

namespace ToolPlan

/-- Blocks, arrays, maps, negations and parentheses nest at most this deep. -/
def maxNesting : Nat := 128

/-- What the grammar admits at a place where something else was found. -/
inductive Expectation where
  | statement
  | endOfStatement
  | variableName
  | assignSign
  | toolName
  | argumentAssign
  | captureName
  | loopVariable
  | inWord
  | openBrace
  | closeBrace
  | nameAfterDollar
  | integerIndex
  | indexOrKey
  | closeBracket
  | value
  | mapKey
  | mapAssign
  | closeParen
  | comparison
  deriving DecidableEq, Repr

/-- A sign between single quotes. -/
def Expectation.quoted (sign : Char) : String :=
  s!"'{sign}'"

def Expectation.describe : Expectation → String
  | statement => "statement"
  | endOfStatement => "NEWLINE or end of input"
  | variableName => "variable name"
  | assignSign => quoted '='
  | toolName => "tool name"
  | argumentAssign => quoted '=' ++ " after argument name"
  | captureName => "capture variable name"
  | loopVariable => "loop variable name"
  | inWord => "IN"
  | openBrace => quoted '{'
  | closeBrace => quoted '}'
  | nameAfterDollar => "variable name after " ++ quoted '$'
  | integerIndex => "integer index"
  | indexOrKey => "integer index or quoted key"
  | closeBracket => quoted ']'
  | value => "value"
  | mapKey => "map key"
  | mapAssign => quoted '=' ++ " after map key"
  | closeParen => quoted ')'
  | comparison => "comparison operator"

/-- Why there is no plan. -/
inductive PlanError where
  | scan (error : ScanError)
  | unexpectedToken (found : Token) (expected : Expectation)
  | nestingTooDeep (place : Position)
  | numberOutOfRange (literal : Token)
  deriving DecidableEq, Repr

namespace PlanError

/-- Where the offending character or token stands. -/
def place : PlanError → Position
  | scan error => error.place
  | unexpectedToken found _ => found.place
  | nestingTooDeep place => place
  | numberOutOfRange literal => literal.place

def message : PlanError → String
  | scan error => "lexical error: " ++ error.message
  | unexpectedToken found expected =>
    s!"unexpected token {found.kind.label} '{found.text}' at {found.place.describe}; expected "
      ++ expected.describe
  | nestingTooDeep place => s!"nesting deeper than {maxNesting} levels at " ++ place.describe
  | numberOutOfRange literal =>
    s!"numeric literal '{literal.text}' out of range at " ++ literal.place.describe

end PlanError

end ToolPlan
