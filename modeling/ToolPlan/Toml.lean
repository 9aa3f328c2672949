/-!
Documents of the TOML format, as far as options need them: what a value is, and how each table came
to be, because that decides whether later lines may add to it.
-/

namespace ToolPlan

/-- How a table came to be: written in braces, named by a header of its own, implied by the header of
a table inside it, or made by a key with dots. -/
inductive TableOrigin where
  | inline | header | implied | dotted
  deriving DecidableEq, Repr

/-- A value of a document. A list of tables is one that grows by headers in double brackets. -/
inductive Toml where
  | string (text : String)
  | integer (value : Int)
  | float
  | boolean (value : Bool)
  | datetime
  | array (items : List Toml)
  | table (origin : TableOrigin) (entries : List (String × Toml))
  | tables (items : List Toml)
  deriving Repr

namespace Toml

/-- A line of a document that says something: a key with a value, or a header. -/
inductive Line where
  | keyValue (path : List String) (value : Toml)
  | header (path : List String)
  | arrayHeader (path : List String)
  deriving Repr

/-- Arrays and inline tables nest less than this deep, and keys have fewer parts. -/
def maxDepth : Nat := 80

end Toml

end ToolPlan
