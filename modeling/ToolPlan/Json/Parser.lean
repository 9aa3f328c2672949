import ToolPlan.Json.Numeral
import ToolPlan.Value

/-!
Values read from JSON text. The grammar is strict, a repeated key keeps its place and takes the last
value, and arrays and maps nest less than `maxDepth` deep.
-/

namespace ToolPlan.Json

open Text (Reader)

/-- Containers nest less than this deep. -/
def maxDepth : Nat := 128

def isSpace (c : Char) : Bool :=
  c = ' ' || c = '\t' || c = '\n' || c = '\r'

def skipSpace (text : List Char) : List Char :=
  text.dropWhile isSpace

def word (expected : String) (value : Value) : Reader Value := fun text =>
  (Text.fixed expected text).map fun (_, rest) => (value, rest)

/-! ### Strings -/

/-- The character after a backslash, for the escapes of one letter. -/
def simpleEscape? : Char → Option Char
  | '"' => some '"'
  | '\\' => some '\\'
  | '/' => some '/'
  | 'b' => some (Char.ofNat 8)
  | 'f' => some (Char.ofNat 12)
  | 'n' => some '\n'
  | 'r' => some '\r'
  | 't' => some '\t'
  | _ => none

/-- The character of two surrogate units. -/
def surrogatePair? (high low : Nat) : Option Char :=
  if 0xD800 ≤ high && high < 0xDC00 && 0xDC00 ≤ low && low < 0xE000 then
    some (Char.ofNat (0x10000 + (high - 0xD800) * 0x400 + (low - 0xDC00)))
  else none

/-- The character of one unit that is no surrogate. -/
def plainUnit? (unit : Nat) : Option Char :=
  if 0xD800 ≤ unit && unit < 0xE000 then none else some (Char.ofNat unit)

/-- One character of a string, which may be written as an escape, and the text after it. -/
def stringChar : Reader Char
  | '\\' :: 'u' :: a :: b :: c :: d :: rest => do
    let unit ← Text.hexValue? [a, b, c, d]
    match plainUnit? unit with
    | some char => return (char, rest)
    | none =>
      match rest with
      | '\\' :: 'u' :: e :: f :: g :: h :: after =>
        let char ← surrogatePair? unit (← Text.hexValue? [e, f, g, h])
        return (char, after)
      | _ => none
  | '\\' :: c :: rest => (simpleEscape? c).map fun char => (char, rest)
  | '\\' :: [] => none
  | c :: rest => if c.toNat < 32 then none else some (c, rest)
  | [] => none

/-- The characters of a string up to its closing quote. Every character takes at least one of the
text, so the text's length bounds the loop. -/
def stringChars : Nat → List Char → Reader (List Char)
  | _, '"' :: rest, done => some (done.reverse, rest)
  | 0, _, _ => none
  | fuel + 1, text, done => do
    let (char, rest) ← stringChar text
    stringChars fuel rest (char :: done)

def string : Reader String
  | '"' :: rest => (stringChars rest.length rest []).map fun (chars, after) =>
      (String.ofList chars, after)
  | _ => none

/-! ### Values -/

def items (item : Reader Value) : Nat → List Char → List Value → Option (List Value × List Char)
  | 0, _, _ => none
  | fuel + 1, text, done =>
    match skipSpace text with
    | ']' :: rest => some (done.reverse, rest)
    | ',' :: rest => do
      let (next, after) ← item (skipSpace rest)
      items item fuel after (next :: done)
    | _ => none

def entry (item : Reader Value) : Reader (String × Value) := fun text => do
  let (key, afterKey) ← string (skipSpace text)
  match skipSpace afterKey with
  | ':' :: rest =>
    let (value, after) ← item (skipSpace rest)
    return ((key, value), after)
  | _ => none

def entries (item : Reader Value) :
    Nat → List Char → Entries Value → Option (Entries Value × List Char)
  | 0, _, _ => none
  | fuel + 1, text, done =>
    match skipSpace text with
    | '}' :: rest => some (done, rest)
    | ',' :: rest => do
      let ((key, value), after) ← entry item rest
      entries item fuel after (done.insert key value)
    | _ => none

/-- A value with at most the given number of containers around its parts; the text begins with it.
An array or a map counts as one level, and the last level holds no container. -/
def value : Nat → Reader Value
  | _, [] => none
  | _, '"' :: rest => (string ('"' :: rest)).map fun (text, after) => (.string text, after)
  | depth, '[' :: rest =>
    match depth with
    | 0 => none
    | depth + 1 =>
      match skipSpace rest with
      | ']' :: after => some (.array [], after)
      | inside => do
        let (first, after) ← value depth inside
        let (all, after) ← items (value depth) (after.length + 1) after [first]
        return (.array all, after)
  | depth, '{' :: rest =>
    match depth with
    | 0 => none
    | depth + 1 =>
      match skipSpace rest with
      | '}' :: after => some (.map [], after)
      | inside => do
        let ((key, first), after) ← entry (value depth) inside
        let (all, after) ← entries (value depth) (after.length + 1) after [(key, first)]
        return (.map all, after)
  | _, 'n' :: rest => word "null" .null ('n' :: rest)
  | _, 't' :: rest => word "true" (.bool true) ('t' :: rest)
  | _, 'f' :: rest => word "false" (.bool false) ('f' :: rest)
  | _, text => (number text).map fun (found, after) => (.number found, after)

def parse? (text : String) : Option Value := do
  let (found, rest) ← value (maxDepth - 1) (skipSpace text.toList)
  if (skipSpace rest).isEmpty then return found else none

end ToolPlan.Json
