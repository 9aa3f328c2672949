import ToolPlan.Entries

/-!
Tokens of the plan language: a kind, the text the kind stands for, and the position where it begins.
-/

namespace ToolPlan

/-- A place in a text; lines and columns count from one, and columns count characters. -/
structure Position where
  line : Nat
  column : Nat
  deriving DecidableEq, Repr

namespace Position

def start : Position := ⟨1, 1⟩

def advance (place : Position) (c : Char) : Position :=
  if c = '\n' then ⟨place.line + 1, 1⟩ else ⟨place.line, place.column + 1⟩

def after (place : Position) (chars : List Char) : Position :=
  chars.foldl advance place

@[simp] theorem after_nil (place : Position) : place.after [] = place := rfl

/-- Places are counted along the text, so a text in two parts is walked part by part. -/
@[simp] theorem after_append (place : Position) (first second : List Char) :
    place.after (first ++ second) = (place.after first).after second := by
  simp [after]

def describe (place : Position) : String :=
  s!"line {place.line}, col {place.column}"

end Position

/-- The kinds of tokens. The words of statements and operators come first, then the literals that
are words, then signs, then the tokens that carry a text of their own. -/
inductive TokenKind where
  | letWord | callWord | ifWord | elseWord | forWord | inWord | returnWord
  | andWord | orWord | notWord
  | trueWord | falseWord | nullWord
  | leftParen | rightParen | leftBracket | rightBracket | leftBrace | rightBrace
  | colon | comma | arrow | assign
  | comparison
  | dollar
  | number
  | string
  | bare
  | name
  | newline
  | eof
  deriving DecidableEq, Repr

namespace TokenKind

/-- All kinds with the labels that messages give them. -/
def labels : List (String × TokenKind) :=
  [("LET", letWord), ("CALL", callWord), ("IF", ifWord), ("ELSE", elseWord), ("FOR", forWord),
   ("IN", inWord), ("RETURN", returnWord), ("AND", andWord), ("OR", orWord), ("NOT", notWord),
   ("TRUE", trueWord), ("FALSE", falseWord), ("NULL", nullWord), ("LPAREN", leftParen),
   ("RPAREN", rightParen), ("LBRACKET", leftBracket), ("RBRACKET", rightBracket),
   ("LBRACE", leftBrace), ("RBRACE", rightBrace), ("COLON", colon), ("COMMA", comma),
   ("ARROW", arrow), ("ASSIGN", assign), ("CMP", comparison), ("DOLLAR", dollar),
   ("NUMBER", number), ("STRING", string), ("BARE", bare), ("NAME", name), ("NEWLINE", newline),
   ("EOF", eof)]

def label : TokenKind → String
  | letWord => "LET"
  | callWord => "CALL"
  | ifWord => "IF"
  | elseWord => "ELSE"
  | forWord => "FOR"
  | inWord => "IN"
  | returnWord => "RETURN"
  | andWord => "AND"
  | orWord => "OR"
  | notWord => "NOT"
  | trueWord => "TRUE"
  | falseWord => "FALSE"
  | nullWord => "NULL"
  | leftParen => "LPAREN"
  | rightParen => "RPAREN"
  | leftBracket => "LBRACKET"
  | rightBracket => "RBRACKET"
  | leftBrace => "LBRACE"
  | rightBrace => "RBRACE"
  | colon => "COLON"
  | comma => "COMMA"
  | arrow => "ARROW"
  | assign => "ASSIGN"
  | comparison => "CMP"
  | dollar => "DOLLAR"
  | number => "NUMBER"
  | string => "STRING"
  | bare => "BARE"
  | name => "NAME"
  | newline => "NEWLINE"
  | eof => "EOF"

def ofLabel? (text : String) : Option TokenKind :=
  Entries.get? labels text

/-- No two kinds have the same label. -/
@[simp] theorem ofLabel?_label (kind : TokenKind) : ofLabel? kind.label = some kind := by
  cases kind <;> decide

/-- The reserved words. Case matters. -/
def keywords : List (String × TokenKind) :=
  [("LET", letWord), ("CALL", callWord), ("IF", ifWord), ("ELSE", elseWord), ("FOR", forWord),
   ("IN", inWord), ("RETURN", returnWord), ("AND", andWord), ("OR", orWord), ("NOT", notWord),
   ("true", trueWord), ("false", falseWord), ("null", nullWord)]

def keyword? (word : String) : Option TokenKind :=
  Entries.get? keywords word

end TokenKind

/-- A token. The text of a string is its content without quotes and escapes; that of a number has no
underscores; every other text is as written. -/
structure Token where
  kind : TokenKind
  text : String
  place : Position
  deriving DecidableEq, Repr

/-- Why a text has no tokens. -/
inductive ScanError where
  | unexpectedCharacter (c : Char) (place : Position)
  | unterminatedString (place : Position)
  deriving DecidableEq, Repr

namespace ScanError

/-- Where the fault lies: the character, or the opening quote. -/
def place : ScanError → Position
  | unexpectedCharacter _ place => place
  | unterminatedString place => place

def message : ScanError → String
  | unexpectedCharacter c place => s!"unexpected character '{c}' at " ++ place.describe
  | unterminatedString place => "unterminated string starting at " ++ place.describe

end ScanError

end ToolPlan
