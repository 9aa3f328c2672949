import ToolPlan.Text.Alphabetic
import ToolPlan.Text.Numeric
import ToolPlan.Text
import ToolPlan.Token

/-!
The piece of a text that begins at a given character: a gap that is skipped, or a token with the
number of characters it covers. Words and numbers extend as far as a bare word may; an arrow always
stands for itself, so `tool->out` is three tokens.
-/

namespace ToolPlan

/-- What was recognised, and how many characters it covers. -/
inductive Lexeme where
  | gap (width : Nat)
  | token (kind : TokenKind) (text : String) (width : Nat)
  deriving DecidableEq, Repr

/-- Why nothing was recognised. -/
inductive LexemeFault where
  | unexpected (c : Char)
  | unterminated
  deriving DecidableEq, Repr

namespace Lexeme

def width : Lexeme → Nat
  | gap width => width
  | token _ _ width => width

/-! ### Classes of characters -/

/-- Blanks within a line. -/
def isGapChar (c : Char) : Bool :=
  c = ' ' || c = '\t' || c = '\r'

/-- The signs that end a bare word. -/
def isSign (c : Char) : Bool :=
  ['(', ')', '[', ']', '{', '}', ',', ':', '=', '<', '>', '!', '"', '\'', '$'].contains c

def isBareChar (c : Char) : Bool :=
  !Text.isBlank c && !isSign c

def isWordStart (c : Char) : Bool :=
  Text.isAlphabetic c || c = '_'

def isWordChar (c : Char) : Bool :=
  Text.isAlphabetic c || Text.isNumeric c || c = '_'

/-! ### Runs of characters -/

/-- Whether a bare word goes on with the next character. -/
def continuesBare : List Char → Bool
  | [] => false
  | '-' :: '>' :: _ => false
  | c :: _ => isBareChar c

def bareRun : List Char → List Char
  | [] => []
  | c :: rest => if continuesBare (c :: rest) then c :: bareRun rest else []

/-- Digits, underscores and at most one point. -/
def numeralRun (pointAllowed : Bool) : List Char → List Char
  | [] => []
  | c :: rest =>
    if c.isDigit || c = '_' then c :: numeralRun pointAllowed rest
    else if c = '.' && pointAllowed then c :: numeralRun false rest
    else []

/-- A run that was read as a word or a number is a bare word when more follows it. -/
def bareOr (run after : List Char) (whole : Lexeme) : Lexeme :=
  if continuesBare after then
    let text := run ++ bareRun after
    token .bare (String.ofList text) text.length
  else whole

/-! ### Kinds of pieces -/

def sign? : Char → List Char → Option (TokenKind × String)
  | '\n', _ => some (.newline, "\n")
  | '(', _ => some (.leftParen, "(")
  | ')', _ => some (.rightParen, ")")
  | '[', _ => some (.leftBracket, "[")
  | ']', _ => some (.rightBracket, "]")
  | '{', _ => some (.leftBrace, '{'.toString)
  | '}', _ => some (.rightBrace, '}'.toString)
  | ':', _ => some (.colon, ":")
  | ',', _ => some (.comma, ",")
  | '$', _ => some (.dollar, "$")
  | '=', '=' :: _ => some (.comparison, "==")
  | '!', '=' :: _ => some (.comparison, "!=")
  | '<', '=' :: _ => some (.comparison, "<=")
  | '>', '=' :: _ => some (.comparison, ">=")
  | '<', _ => some (.comparison, "<")
  | '>', _ => some (.comparison, ">")
  | '=', _ => some (.assign, "=")
  | '-', '>' :: _ => some (.arrow, "->")
  | _, _ => none

/-- A number begins with a digit, or with a minus sign right before a digit. -/
def startsNumber (c : Char) (rest : List Char) : Bool :=
  c.isDigit || (c = '-' && (rest.head?.map Char.isDigit).getD false)

/-- A number, or the bare word it turns into: `1.2.3` and `3rd` are words. -/
def ofNumber (c : Char) (rest : List Char) : Lexeme :=
  let run :=
    if c = '-' then '-' :: numeralRun true rest else numeralRun true (c :: rest)
  let digits := String.ofList (run.filter (· ≠ '_'))
  bareOr run ((c :: rest).drop run.length) (token .number digits run.length)

/-- A reserved word, a name, or the bare word it turns into. -/
def ofWord (chars : List Char) : Lexeme :=
  let run := chars.takeWhile isWordChar
  let word := String.ofList run
  let kind := (TokenKind.keyword? word).getD .name
  bareOr run (chars.drop run.length) (token kind word run.length)

/-- What a backslash and a character mean between double quotes. -/
def doubleEscape : Char → Char
  | 'n' => '\n'
  | 't' => '\t'
  | c => c

/-- The content of a string after its opening double quote, and the number of characters up to and
with the closing one. -/
def doubleQuoted : List Char → Option (List Char × Nat)
  | [] => none
  | '"' :: _ => some ([], 1)
  | '\\' :: [] => none
  | '\\' :: c :: rest =>
    (doubleQuoted rest).map fun (text, count) => (doubleEscape c :: text, count + 2)
  | c :: rest => (doubleQuoted rest).map fun (text, count) => (c :: text, count + 1)

/-- What a backslash and a character mean between single quotes: an unknown escape stays as it is
written. -/
def singleEscape : Char → List Char
  | '\\' => ['\\']
  | '\'' => ['\'']
  | 'n' => ['\n']
  | '\n' => ['\n']
  | c => ['\\', c]

@[inherit_doc doubleQuoted]
def singleQuoted : List Char → Option (List Char × Nat)
  | [] => none
  | '\'' :: _ => some ([], 1)
  | '\\' :: [] => none
  | '\\' :: c :: rest =>
    (singleQuoted rest).map fun (text, count) => (singleEscape c ++ text, count + 2)
  | c :: rest => (singleQuoted rest).map fun (text, count) => (c :: text, count + 1)

def ofString (content : Option (List Char × Nat)) : Except LexemeFault Lexeme :=
  match content with
  | none => .error .unterminated
  | some (text, count) => .ok (token .string (String.ofList text) (count + 1))

/-- The piece that begins with the character `c`, when `rest` follows it. A comment reaches up to the
end of its line. -/
def read (c : Char) (rest : List Char) : Except LexemeFault Lexeme :=
  if isGapChar c then .ok (gap 1)
  else if c = '/' && rest.head? = some '/' then
    .ok (gap (1 + (rest.takeWhile (· ≠ '\n')).length))
  else match sign? c rest with
  | some (kind, text) => .ok (token kind text text.length)
  | none =>
    if c = '"' then ofString (doubleQuoted rest)
    else if c = '\'' then ofString (singleQuoted rest)
    else if startsNumber c rest then .ok (ofNumber c rest)
    else if isWordStart c then .ok (ofWord (c :: rest))
    else if isBareChar c then
      let run := bareRun (c :: rest)
      .ok (token .bare (String.ofList run) run.length)
    else .error (.unexpected c)

end Lexeme

end ToolPlan
