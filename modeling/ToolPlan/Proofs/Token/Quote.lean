import ToolPlan.Token.Lexeme

/-!
Quoted strings. There are two ways of quoting, which differ in their mark and in what an escape
means, and share everything else: a string ends at the first mark that is not escaped
(`Quote.content_of_unescapes`, `Quote.unescapes_of_content`), and with backslashes before marks and
backslashes every text can be written in both ways (`Quote.unescapes_escape`).
-/

namespace ToolPlan

namespace Lexeme

theorem doubleQuoted_plain {c : Char} (notQuote : c ≠ '"') (notEscape : c ≠ '\\')
    (rest : List Char) : doubleQuoted (c :: rest) =
      (doubleQuoted rest).map fun (text, count) => (c :: text, count + 1) := by
  rw [doubleQuoted]
  · exact notQuote
  · exact fun same => absurd same notEscape
  · exact fun _ _ same => absurd same notEscape

theorem singleQuoted_plain {c : Char} (notQuote : c ≠ '\'') (notEscape : c ≠ '\\')
    (rest : List Char) : singleQuoted (c :: rest) =
      (singleQuoted rest).map fun (text, count) => (c :: text, count + 1) := by
  rw [singleQuoted]
  · exact notQuote
  · exact fun same => absurd same notEscape
  · exact fun _ _ same => absurd same notEscape

end Lexeme

/-- The two ways of quoting a string. -/
inductive Quote where
  | double
  | single
  deriving DecidableEq, Repr

namespace Quote

def mark : Quote → Char
  | double => '"'
  | single => '\''

/-- What a backslash and a character mean. -/
def meaning : Quote → Char → List Char
  | double => fun c => [Lexeme.doubleEscape c]
  | single => Lexeme.singleEscape

/-- The content of a string after its opening mark, and the number of characters up to and with the
closing one. -/
def content : Quote → List Char → Option (List Char × Nat)
  | double => Lexeme.doubleQuoted
  | single => Lexeme.singleQuoted

/-- The text that the characters between two marks stand for. -/
inductive Unescapes (quote : Quote) : List Char → List Char → Prop where
  | nil : Unescapes quote [] []
  | plain {c raw text} : c ≠ quote.mark → c ≠ '\\' → Unescapes quote raw text →
      Unescapes quote (c :: raw) (c :: text)
  | escape {c raw text} : Unescapes quote raw text →
      Unescapes quote ('\\' :: c :: raw) (quote.meaning c ++ text)

variable {quote : Quote}

/-! ### Reading the content -/

theorem content_nil : quote.content [] = none := by
  cases quote <;> rfl

theorem content_mark (rest : List Char) : quote.content (quote.mark :: rest) = some ([], 1) := by
  cases quote <;> rfl

/-- A backslash at the end escapes nothing, so the string has no end. -/
theorem content_backslash : quote.content ['\\'] = none := by
  cases quote <;> rfl

/-- A backslash and a character stand for what that escape means under this way of quoting. -/
theorem content_escape (c : Char) (rest : List Char) : quote.content ('\\' :: c :: rest) =
    (quote.content rest).map fun (text, count) => (quote.meaning c ++ text, count + 2) := by
  cases quote <;> rfl

theorem content_plain {c : Char} (notMark : c ≠ quote.mark) (notEscape : c ≠ '\\')
    (rest : List Char) : quote.content (c :: rest) =
      (quote.content rest).map fun (text, count) => (c :: text, count + 1) := by
  cases quote with
  | double => exact Lexeme.doubleQuoted_plain notMark notEscape rest
  | single => exact Lexeme.singleQuoted_plain notMark notEscape rest

/-- A closed content is read up to its mark. -/
theorem content_of_unescapes {raw text : List Char} (unescapes : quote.Unescapes raw text)
    (after : List Char) :
    quote.content (raw ++ quote.mark :: after) = some (text, raw.length + 1) := by
  induction unescapes with
  | nil => exact content_mark after
  | plain notMark notEscape _ ih =>
    rw [List.cons_append, content_plain notMark notEscape, ih]
    rfl
  | escape _ ih =>
    rw [List.cons_append, List.cons_append, content_escape, ih]
    rfl

/-- What is read is closed by a mark. -/
theorem unescapes_of_content : ∀ {rest text : List Char} {count : Nat},
    quote.content rest = some (text, count) → ∃ raw after,
      rest = raw ++ quote.mark :: after ∧ quote.Unescapes raw text ∧ count = raw.length + 1
  | [], _, _, closed => by
    rw [content_nil] at closed
    cases closed
  | c :: rest, text, count, closed => by
    by_cases ended : c = quote.mark
    · subst ended
      rw [content_mark] at closed
      cases closed
      exact ⟨[], rest, rfl, .nil, rfl⟩
    · by_cases escape : c = '\\'
      · subst escape
        match rest, closed with
        | [], closed =>
          rw [content_backslash] at closed
          cases closed
        | d :: rest, closed =>
          rw [content_escape] at closed
          obtain ⟨⟨inner, inside⟩, found, same⟩ := Option.map_eq_some_iff.mp closed
          obtain ⟨raw, after, rfl, unescapes, rfl⟩ := unescapes_of_content found
          cases same
          exact ⟨'\\' :: d :: raw, after, rfl, .escape unescapes, rfl⟩
      · rw [content_plain ended escape] at closed
        obtain ⟨⟨inner, inside⟩, found, same⟩ := Option.map_eq_some_iff.mp closed
        obtain ⟨raw, after, rfl, unescapes, rfl⟩ := unescapes_of_content found
        cases same
        exact ⟨c :: raw, after, rfl, .plain ended escape unescapes, rfl⟩

/-- What follows the closing mark does not matter. -/
theorem content_append {chars : List Char} {result : List Char × Nat}
    (closed : quote.content chars = some result) (more : List Char) :
    quote.content (chars ++ more) = some result := by
  obtain ⟨raw, after, rfl, unescapes, same⟩ := unescapes_of_content closed
  rw [List.append_assoc, List.cons_append, content_of_unescapes unescapes, ← same]

/-! ### Writing a text -/

/-- A text with a backslash before every mark and every backslash. -/
def escape (quote : Quote) (text : List Char) : List Char :=
  text.flatMap fun c => if c = quote.mark ∨ c = '\\' then ['\\', c] else [c]

def write (quote : Quote) (text : List Char) : List Char :=
  quote.mark :: (quote.escape text ++ [quote.mark])

/-- An escaped mark and an escaped backslash stand for themselves. -/
theorem meaning_self {c : Char} (special : c = quote.mark ∨ c = '\\') : quote.meaning c = [c] := by
  rcases special with rfl | rfl
  · cases quote <;> rfl
  · cases quote <;> rfl

/-- Escaping every mark and every backslash is enough to get any text back. -/
theorem unescapes_escape (text : List Char) : quote.Unescapes (quote.escape text) text := by
  induction text with
  | nil => exact .nil
  | cons c rest ih =>
    rw [escape, List.flatMap_cons]
    by_cases special : c = quote.mark ∨ c = '\\'
    · have escaped : quote.Unescapes ('\\' :: c :: quote.escape rest) (quote.meaning c ++ rest) :=
        .escape ih
      rw [if_pos special]
      rw [meaning_self special] at escaped
      exact escaped
    · obtain ⟨notMark, notEscape⟩ := not_or.mp special
      rw [if_neg special]
      exact .plain notMark notEscape ih

end Quote

end ToolPlan
