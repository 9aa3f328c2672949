import ToolPlan.Value

/-!
JSON text of a value, in two layouts: on one line without blanks, and indented by two blanks a
level with one item a line. An empty array or map stays on one line in both.
-/

namespace ToolPlan.Json

/-- The two hexadecimal digits of a code below 256. -/
def hexByte (code : Nat) : String :=
  String.ofList [Nat.digitChar (code / 16), Nat.digitChar (code % 16)]

/-- One character inside a string. Quotes, backslashes and control characters are escaped. -/
def escapeChar (c : Char) : String :=
  match c with
  | '"' => "\\\""
  | '\\' => "\\\\"
  | '\n' => "\\n"
  | '\r' => "\\r"
  | '\t' => "\\t"
  | _ =>
    if c.toNat = 8 then "\\b"
    else if c.toNat = 12 then "\\f"
    else if c.toNat < 32 then "\\u00" ++ hexByte c.toNat
    else c.toString

def quote (text : String) : String :=
  text.toList.foldl (fun done c => done ++ escapeChar c) "\"" ++ "\""

/-- Where the lines of an indented layout begin; on one line there are no breaks. -/
inductive Layout where
  | compact
  | indented (level : Nat)

namespace Layout

def inner : Layout → Layout
  | compact => compact
  | indented level => indented (level + 1)

/-- What separates two items, or an item from its bracket. -/
def lineBreak : Layout → String
  | compact => ""
  | indented level => "\n" ++ String.ofList (List.replicate (2 * level) ' ')

def colon : Layout → String
  | compact => ":"
  | indented _ => ": "

end Layout

mutual

/-- Writes a value after the text written so far. -/
def write (layout : Layout) : Value → String → String
  | .null, done => done ++ "null"
  | .bool value, done => done ++ (if value then "true" else "false")
  | .number value, done => done ++ value.render
  | .string text, done => done ++ quote text
  | .array [], done => done ++ "[]"
  | .array (item :: items), done =>
    let inside := write layout.inner item (done ++ "[" ++ layout.inner.lineBreak)
    writeItems layout.inner items inside ++ layout.lineBreak ++ "]"
  | .map [], done => (done.push '{').push '}'
  | .map ((key, value) :: entries), done =>
    let opened := done.push '{' ++ layout.inner.lineBreak ++ quote key ++ layout.colon
    (writeEntries layout.inner entries (write layout.inner value opened) ++ layout.lineBreak).push '}'

def writeItems (layout : Layout) : List Value → String → String
  | [], done => done
  | item :: items, done =>
    writeItems layout items (write layout item (done ++ "," ++ layout.lineBreak))

def writeEntries (layout : Layout) : List (String × Value) → String → String
  | [], done => done
  | (key, value) :: entries, done =>
    let opened := done ++ "," ++ layout.lineBreak ++ quote key ++ layout.colon
    writeEntries layout entries (write layout value opened)

end

def compact (value : Value) : String :=
  write .compact value ""

def pretty (value : Value) : String :=
  write (.indented 0) value ""

end ToolPlan.Json
