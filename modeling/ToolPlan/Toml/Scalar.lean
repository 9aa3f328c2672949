import ToolPlan.Number
import ToolPlan.Text
import ToolPlan.Toml

/-!
The values of a TOML document that hold no others: strings in their four forms, whole numbers in
four bases, binary numbers, and dates and times. Of a binary number and of a date only the form
matters, since no option has such a value.
-/

namespace ToolPlan.Toml.Read

open Text (Reader)

/-! ### Characters -/

/-- Blanks within a line. -/
def isSpace (c : Char) : Bool :=
  c = ' ' || c = '\t'

/-- Characters that may stand in a comment, in a literal string and in a basic one: all but the
control characters, of which only the tab is admitted. -/
def isPlain (c : Char) : Bool :=
  c = '\t' || (32 ≤ c.toNat && c.toNat ≠ 127)

def lineEnd : Reader Unit
  | '\n' :: rest => some ((), rest)
  | '\r' :: '\n' :: rest => some ((), rest)
  | _ => none

/-! ### Strings -/

/-- The character of a code in hexadecimal digits. -/
def codePoint? (digits : List Char) : Option Char := do
  let code ← Text.hexValue? digits
  if code < 0xD800 || (0xE000 ≤ code && code < 0x110000) then return Char.ofNat code else none

def escape : Reader Char
  | 'b' :: rest => some (Char.ofNat 8, rest)
  | 't' :: rest => some ('\t', rest)
  | 'n' :: rest => some ('\n', rest)
  | 'f' :: rest => some (Char.ofNat 12, rest)
  | 'r' :: rest => some ('\r', rest)
  | '"' :: rest => some ('"', rest)
  | '\\' :: rest => some ('\\', rest)
  | 'u' :: rest =>
    if rest.length < 4 then none
    else (codePoint? (rest.take 4)).map fun c => (c, rest.drop 4)
  | 'U' :: rest =>
    if rest.length < 8 then none
    else (codePoint? (rest.take 8)).map fun c => (c, rest.drop 8)
  | _ => none

/-- The rest of a basic string on one line, up to its quote. -/
def basicChars : Nat → Reader (List Char)
  | 0, _ => none
  | _ + 1, '"' :: rest => some ([], rest)
  | fuel + 1, '\\' :: rest => do
    let (c, after) ← escape rest
    let (chars, after) ← basicChars fuel after
    return (c :: chars, after)
  | fuel + 1, c :: rest =>
    if isPlain c then do
      let (chars, after) ← basicChars fuel rest
      return (c :: chars, after)
    else none
  | _ + 1, [] => none

/-- The rest of a literal string on one line, up to its quote. -/
def literalChars : Reader (List Char)
  | [] => none
  | '\'' :: rest => some ([], rest)
  | c :: rest =>
    if isPlain c then (literalChars rest).map fun (chars, after) => (c :: chars, after)
    else none

def skipBlankLines : Nat → List Char → List Char
  | 0, text => text
  | fuel + 1, text =>
    match text with
    | [] => []
    | c :: rest =>
      if isSpace c then skipBlankLines fuel rest
      else match lineEnd text with
        | some (_, after) => skipBlankLines fuel after
        | none => text

/-- A backslash at the end of a line takes the blanks and line ends after it. -/
def foldedLine (text : List Char) : Option (List Char) :=
  match lineEnd (text.dropWhile isSpace) with
  | some (_, after) => some (skipBlankLines after.length after)
  | none => none

/-- The end of a string over several lines: three quotes, before which two more may stand. -/
def closing (quote : Char) (text : List Char) : Option (List Char × List Char) :=
  let count := (text.takeWhile (· = quote)).length
  if count < 3 then none
  else
    let inside := min (count - 3) 2
    some (List.replicate inside quote, text.drop (inside + 3))

/-- The rest of a string over several lines. Only a basic one has escapes. -/
def multilineChars (quote : Char) (escapes : Bool) : Nat → Reader (List Char)
  | 0, _ => none
  | fuel + 1, text =>
    match closing quote text with
    | some found => some found
    | none =>
      match text with
      | [] => none
      | c :: rest =>
        if c = '\\' && escapes then
          match foldedLine rest with
          | some after => multilineChars quote escapes fuel after
          | none => do
            let (escaped, after) ← escape rest
            let (chars, after) ← multilineChars quote escapes fuel after
            return (escaped :: chars, after)
        else if isPlain c then do
          let (chars, after) ← multilineChars quote escapes fuel rest
          return (c :: chars, after)
        else do
          let (_, after) ← lineEnd text
          let (chars, after) ← multilineChars quote escapes fuel after
          return ('\n' :: chars, after)

/-- A string over several lines after its opening quotes. A line end right after them is no part of
it. -/
def multiline (quote : Char) (escapes : Bool) (text : List Char) : Option (String × List Char) :=
  let inside := match lineEnd text with
    | some (_, after) => after
    | none => text
  (multilineChars quote escapes (inside.length + 1) inside).map fun (chars, after) =>
    (String.ofList chars, after)

/-- A string on one line, as keys have it. -/
def lineString : Reader String
  | '"' :: rest => (basicChars (rest.length + 1) rest).map fun (chars, after) =>
      (String.ofList chars, after)
  | '\'' :: rest => (literalChars rest).map fun (chars, after) => (String.ofList chars, after)
  | _ => none

/-- A string in any of the four forms. -/
def string : Reader String
  | '"' :: '"' :: '"' :: rest => multiline '"' true rest
  | '\'' :: '\'' :: '\'' :: rest => multiline '\'' false rest
  | text => lineString text

/-! ### Numbers -/

/-- More digits after a first one. An underscore stands between two digits only, and is left out. -/
def moreDigits (isDigit : Char → Bool) : Reader (List Char)
  | [] => some ([], [])
  | '_' :: [] => none
  | '_' :: c :: rest =>
    if isDigit c then (moreDigits isDigit rest).map fun (digits, after) => (c :: digits, after)
    else none
  | c :: rest =>
    if isDigit c then (moreDigits isDigit rest).map fun (digits, after) => (c :: digits, after)
    else some ([], c :: rest)

/-- At least one digit, with underscores between digits. -/
def spacedDigits (isDigit : Char → Bool) : Reader (List Char)
  | [] => none
  | c :: rest =>
    if isDigit c then (moreDigits isDigit rest).map fun (digits, after) => (c :: digits, after)
    else none

/-- Decimal digits without needless zeros in front. -/
def decimalDigits : Reader (List Char)
  | '0' :: rest => some (['0'], rest)
  | text => spacedDigits Char.isDigit text

/-- A whole number fits a signed word. -/
def word? (negative : Bool) (magnitude : Nat) : Option Int :=
  let value : Int := if negative then -magnitude else magnitude
  if Number.isWord value then some value else none

def inBase (base : Nat) (digits : List Char) : Nat :=
  digits.foldl (fun value c => value * base + (Text.hexDigit? c).getD 0) 0

def based (base : Nat) (isDigit : Char → Bool) (text : List Char) : Option (Toml × List Char) := do
  let (digits, after) ← spacedDigits isDigit text
  let value ← word? false (inBase base digits)
  return (.integer value, after)

def fraction : Reader (Option (List Char))
  | '.' :: rest => (spacedDigits Char.isDigit rest).map fun (digits, after) => (some digits, after)
  | text => some (none, text)

def exponent : Reader (Option Int)
  | [] => some (none, [])
  | c :: rest =>
    if c = 'e' || c = 'E' then
      let (negative, unsigned) := Decimal.splitSign rest
      (spacedDigits Char.isDigit unsigned).map fun (digits, after) =>
        let magnitude : Int := Decimal.digitsValue digits
        (some (if negative then -magnitude else magnitude), after)
    else some (none, c :: rest)

/-- A decimal number after its sign: whole, or binary if a point or an exponent follows. A positive
one must not exceed the finite binary numbers. -/
def decimal (negative : Bool) (text : List Char) : Option (Toml × List Char) := do
  let (whole, afterWhole) ← decimalDigits text
  let (places, afterPlaces) ← fraction afterWhole
  let (power, after) ← exponent afterPlaces
  if places.isNone && power.isNone then
    let value ← word? negative (Decimal.digitsValue whole)
    return (.integer value, after)
  else
    let places := places.getD []
    let value : Decimal :=
      ⟨negative, Decimal.digitsValue (whole ++ places), power.getD 0 - places.length⟩
    if negative || value.toBinary64?.isSome then return (.float, after) else none

def special (text : List Char) : Option (Toml × List Char) :=
  ((Text.fixed "inf" text).or (Text.fixed "nan" text)).map fun (_, after) => (.float, after)

def isOctal (c : Char) : Bool :=
  '0' ≤ c && c ≤ '7'

def isBinary (c : Char) : Bool :=
  c = '0' || c = '1'

def number : Reader Toml
  | '0' :: 'x' :: rest => based 16 (fun c => (Text.hexDigit? c).isSome) rest
  | '0' :: 'o' :: rest => based 8 isOctal rest
  | '0' :: 'b' :: rest => based 2 isBinary rest
  | text =>
    let (negative, unsigned) := Decimal.splitSign text
    (special unsigned).or (decimal negative unsigned)

/-! ### Dates and times -/

def twoDigits (low high : Nat) : Reader Nat
  | a :: b :: rest =>
    let value := Decimal.digitsValue [a, b]
    if a.isDigit && b.isDigit && low ≤ value && value ≤ high then some (value, rest) else none
  | _ => none

def daysIn (year month : Nat) : Nat :=
  if month = 2 then
    if year % 4 = 0 && (year % 100 ≠ 0 || year % 400 = 0) then 29 else 28
  else if [4, 6, 9, 11].contains month then 30
  else 31

def date : Reader Unit
  | a :: b :: c :: d :: '-' :: rest =>
    if [a, b, c, d].all Char.isDigit then do
      let (month, rest) ← twoDigits 1 12 rest
      let (_, rest) ← Text.fixed "-" rest
      let (_, rest) ← twoDigits 1 (daysIn (Decimal.digitsValue [a, b, c, d]) month) rest
      return ((), rest)
    else none
  | _ => none

def secondFraction : Reader Unit
  | '.' :: rest =>
    match rest.span Char.isDigit with
    | ([], _) => none
    | (_, after) => some ((), after)
  | text => some ((), text)

def time : Reader Unit := fun text => do
  let (_, rest) ← twoDigits 0 23 text
  let (_, rest) ← Text.fixed ":" rest
  let (_, rest) ← twoDigits 0 59 rest
  let (_, rest) ← Text.fixed ":" rest
  let (_, rest) ← twoDigits 0 60 rest
  secondFraction rest

/-- The distance from universal time, which may be left out. -/
def offset : Reader Unit
  | [] => some ((), [])
  | c :: rest =>
    if c = 'Z' || c = 'z' then some ((), rest)
    else if c = '+' || c = '-' then do
      let (_, rest) ← twoDigits 0 23 rest
      let (_, rest) ← Text.fixed ":" rest
      let (_, rest) ← twoDigits 0 59 rest
      return ((), rest)
    else some ((), c :: rest)

def timeAfterDate : Reader Unit
  | [] => some ((), [])
  | c :: rest =>
    if c = 'T' || c = 't' then time rest >>= fun (_, after) => offset after
    else if c = ' ' then
      match time rest with
      | some (_, after) => offset after
      | none => some ((), c :: rest)
    else some ((), c :: rest)

def datetime (text : List Char) : Option (Toml × List Char) :=
  let found := match date text with
    | some (_, after) => timeAfterDate after
    | none => time text
  found.map fun (_, after) => (.datetime, after)

end ToolPlan.Toml.Read
