import ToolPlan.Token.Lexeme

/-!
The tokens of a text, in order and with their positions. The last token, and only that one, is the
end of the input; it stands where the text ends.
-/

namespace ToolPlan

/-- The error of a piece that begins at a place. -/
def LexemeFault.atPlace (place : Position) : LexemeFault → ScanError
  | unexpected c => .unexpectedCharacter c place
  | unterminated => .unterminatedString place

namespace Token

def endOfInput (place : Position) : Token :=
  ⟨.eof, "", place⟩

/-- The tokens of a text that begins at a place. Every piece covers a character, so the length of
the text is fuel enough. -/
def scanFrom : Nat → Position → List Char → Except ScanError (List Token)
  | _, place, [] => .ok [endOfInput place]
  | 0, place, _ :: _ => .ok [endOfInput place]
  | fuel + 1, place, c :: rest =>
    match Lexeme.read c rest with
    | .error fault => .error (fault.atPlace place)
    | .ok lexeme =>
      let next := place.after ((c :: rest).take lexeme.width)
      let tokens := scanFrom fuel next ((c :: rest).drop lexeme.width)
      match lexeme with
      | .gap _ => tokens
      | .token kind text _ => tokens.map (⟨kind, text, place⟩ :: ·)

/-- The tokens of a text, or the error at the first character that begins none. -/
def scanChars (text : List Char) : Except ScanError (List Token) :=
  scanFrom text.length .start text

@[inherit_doc scanChars]
def scan (text : String) : Except ScanError (List Token) :=
  scanChars text.toList

end Token

end ToolPlan
