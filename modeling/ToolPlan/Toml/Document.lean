import ToolPlan.Toml.Scalar
import ToolPlan.Toml.Table

/-!
Reading a TOML document: values, keys and lines. The whole text has to be read.
-/

namespace ToolPlan.Toml.Read

open Text (Reader)

/-! ### Keys -/

def isKeyChar (c : Char) : Bool :=
  c.isAlphanum || c = '-' || c = '_'

def simpleKey : Reader String := fun text =>
  match text with
  | '"' :: _ | '\'' :: _ => lineString text
  | _ =>
    match text.span isKeyChar with
    | ([], _) => none
    | (chars, after) => some (String.ofList chars, after)

/-- The parts of a key, with dots between them and blanks around them. -/
def keyParts : Nat → Reader (List String)
  | 0, _ => none
  | fuel + 1, text => do
    let (first, after) ← simpleKey (text.dropWhile isSpace)
    match after.dropWhile isSpace with
    | '.' :: rest =>
      let (parts, after) ← keyParts fuel rest
      return (first :: parts, after)
    | rest => return ([first], rest)

/-- A key. It has fewer parts than the depth that is allowed. -/
def key : Reader (List String) :=
  keyParts (maxDepth - 1)

/-! ### Values -/

/-- What is left after a comment, if the text begins with one. -/
def skipComment : List Char → List Char
  | '#' :: rest => rest.dropWhile isPlain
  | text => text

/-- What is left after blanks, line ends and comments. -/
def skipFiller : Nat → List Char → List Char
  | 0, text => text
  | fuel + 1, text =>
    let shorter := skipComment (skipBlankLines text.length text)
    if shorter.length < text.length then skipFiller fuel shorter else text

def keyValue (value : Reader Toml) : Reader (List String × Toml) := fun text => do
  let (path, after) ← key text
  match after with
  | '=' :: rest =>
    let (found, after) ← value (rest.dropWhile isSpace)
    return ((path, found), after.dropWhile isSpace)
  | _ => none

/-- The items of an array up to its bracket. A comma stands between two items, and may follow the
last one. -/
def arrayItems (value : Reader Toml) : Nat → Reader (List Toml)
  | 0, _ => none
  | fuel + 1, text =>
    match skipFiller text.length text with
    | ']' :: rest => some ([], rest)
    | inside => do
      let (first, after) ← value inside
      match skipFiller after.length after with
      | ']' :: rest => return ([first], rest)
      | ',' :: rest =>
        let (items, after) ← arrayItems value fuel rest
        return (first :: items, after)
      | _ => none

/-- The entries of an inline table up to its brace. A comma stands between two entries only. -/
def inlineEntries (value : Reader Toml) : Nat → Reader (List (List String × Toml))
  | 0, _ => none
  | fuel + 1, text => do
    let (first, after) ← keyValue value text
    match after with
    | '}' :: rest => return ([first], rest)
    | ',' :: rest =>
      let (entries, after) ← inlineEntries value fuel rest
      return (first :: entries, after)
    | _ => none

/-- An inline table after its opening brace. -/
def inlineTable (value : Reader Toml) : Reader Toml := fun text =>
  match text.dropWhile isSpace with
  | '}' :: rest => some (.table .inline [], rest)
  | inside => do
    let (entries, after) ← inlineEntries value (inside.length + 1) inside
    let fields ← entries.foldlM (fun fields (path, found) => addValue path found .inline fields) []
    return (.table .inline fields, after)

def scalar : Reader Toml := fun text =>
  match text with
  | '"' :: _ | '\'' :: _ => (string text).map fun (found, after) => (.string found, after)
  | 't' :: _ => (Text.fixed "true" text).map fun (_, after) => (.boolean true, after)
  | 'f' :: _ => (Text.fixed "false" text).map fun (_, after) => (.boolean false, after)
  | _ => (datetime text).or (number text)

/-- A value with the given number of levels left for arrays and inline tables. -/
def value : Nat → Reader Toml
  | 0, text =>
    match text with
    | '[' :: _ | '{' :: _ => none
    | _ => scalar text
  | levels + 1, text =>
    match text with
    | '[' :: rest =>
      (arrayItems (value levels) (rest.length + 1) rest).map fun (items, after) =>
        (.array items, after)
    | '{' :: rest => inlineTable (value levels) rest
    | _ => scalar text

/-! ### Lines -/

/-- The end of a line that says something: blanks, a comment, and the line end or the end of the
text. -/
def trailing : Reader Unit := fun text =>
  match skipComment (text.dropWhile isSpace) with
  | [] => some ((), [])
  | rest => lineEnd rest

/-- The header of a table, or of an item of a list of tables. -/
def header : Reader Line
  | '[' :: '[' :: rest => do
    let (path, after) ← key rest
    let (_, after) ← Text.fixed "]]" after
    let (_, after) ← trailing after
    return (.arrayHeader path, after)
  | '[' :: rest => do
    let (path, after) ← key rest
    let (_, after) ← Text.fixed "]" after
    let (_, after) ← trailing after
    return (.header path, after)
  | _ => none

def keyValueLine : Reader Line := fun text => do
  let ((path, found), after) ← keyValue (value (maxDepth - 1)) text
  let (_, after) ← trailing after
  return (.keyValue path found, after)

/-- The lines of a text. A line says at least one character, or ends, so the length of the text
bounds their number. -/
def lines : Nat → List Char → Option (List Line)
  | 0, text => if text.isEmpty then some [] else none
  | fuel + 1, text =>
    match text.dropWhile isSpace with
    | [] => some []
    | '#' :: rest => do
      let (_, after) ← trailing ('#' :: rest)
      lines fuel after
    | '\n' :: rest => lines fuel rest
    | '\r' :: rest => do
      let (_, after) ← lineEnd ('\r' :: rest)
      lines fuel after
    | '[' :: rest => do
      let (line, after) ← header ('[' :: rest)
      let more ← lines fuel after
      return line :: more
    | inside => do
      let (line, after) ← keyValueLine inside
      let more ← lines fuel after
      return line :: more

/-- What is left after a byte order mark. -/
def skipMark : List Char → List Char
  | c :: rest => if c.toNat = 0xFEFF then rest else c :: rest
  | [] => []

end ToolPlan.Toml.Read

namespace ToolPlan.Toml

def parse? (text : String) : Option Fields := do
  let chars := Read.skipMark text.toList
  let lines ← Read.lines (chars.length + 1) chars
  ofLines lines

end ToolPlan.Toml
