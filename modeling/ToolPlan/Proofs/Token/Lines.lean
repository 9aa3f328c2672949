import Mathlib.Data.List.Basic
import ToolPlan.Proofs.Token.Segments
import ToolPlan.Proofs.Token.Standalone

/-!
Tokens of whole lines. What is read in a line does not look at the lines after it, so a text that ends
with a line end has the same tokens in front of any other text (`Token.Scans.append`), and the last of
them is the line end (`Token.Scans.endsLine`). Further down in a text the same tokens are read, with
other lines and the same columns (`Token.Scans.down`).
-/

namespace ToolPlan

/-- A text is empty or ends with a line end. -/
def WholeLines (chars : List Char) : Prop :=
  ∀ c ∈ chars.getLast?, c = '\n'

theorem wholeLines_concat {chars : List Char} {c : Char} :
    WholeLines (chars ++ [c]) ↔ c = '\n' := by
  simp [WholeLines]

/-- What is left of whole lines are whole lines. -/
theorem WholeLines.of_append {front chars : List Char} (lines : WholeLines (front ++ chars)) :
    WholeLines chars := by
  intro c last
  apply lines
  rw [List.getLast?_append, Option.mem_def.mp last]
  rfl

namespace Position

/-- The place in the same column, so many lines further down. -/
def down (lines : Nat) (place : Position) : Position :=
  ⟨place.line + lines, place.column⟩

/-- Moving a place down commutes with walking along a text, since a column is never changed. -/
theorem down_after (lines : Nat) (place : Position) (chars : List Char) :
    (place.down lines).after chars = (place.after chars).down lines := by
  induction chars generalizing place with
  | nil => rfl
  | cons c rest ih =>
    have step : (place.down lines).advance c = (place.advance c).down lines := by
      unfold advance down
      split
      · simp only [Nat.add_right_comm]
      · rfl
    calc (place.down lines).after (c :: rest)
        = ((place.advance c).down lines).after rest := by rw [← step]; rfl
      _ = (place.after (c :: rest)).down lines := ih (place.advance c)

/-- Behind whole lines the next line begins. -/
theorem after_wholeLines {chars : List Char} (lines : WholeLines chars) :
    start.after chars = start.down (chars.count '\n') := by
  have behind := behind_append [] chars
  rw [List.nil_append] at behind
  refine behind.symm.trans ?_
  rcases List.eq_nil_or_concat' chars with rfl | ⟨init, last, rfl⟩
  · rfl
  · obtain rfl := wholeLines_concat.mp lines
    rw [Position.behind, List.reverse_concat, List.takeWhile_cons_of_neg (by decide)]
    rfl

end Position

namespace Lexeme

/-! ### Pieces of whole lines -/

/-- A piece covers a first part of the text, which is not empty. -/
theorem read_split {c : Char} {rest : List Char} {lexeme : Lexeme}
    (read : Lexeme.read c rest = .ok lexeme) :
    ∃ span after, c :: rest = span ++ after ∧ lexeme.width = span.length ∧ span ≠ [] := by
  cases lexeme with
  | gap width =>
    obtain ⟨span, after, same, rfl, filler⟩ := read_filler read
    exact ⟨span, after, same, rfl, List.length_pos_iff.mp filler.length_pos⟩
  | token kind text width =>
    obtain ⟨span, after, same, rfl, spelled⟩ := read_spelled read
    exact ⟨span, after, same, rfl, spelled.nonempty⟩

theorem read_newline (rest : List Char) :
    Lexeme.read '\n' rest = .ok (.token .newline "\n" 1) := by
  rfl

/-- A comment ends with its line, so a line end divides all that is no string. -/
theorem read_before_newline {c : Char} {rest : List Char} (notMark : ¬ ∃ quote, c = Quote.mark quote)
    (more : List Char) : Lexeme.read c (rest ++ '\n' :: more) = Lexeme.read c rest :=
  read_divided divides_newline (not_exists.mp notMark) (fun _ _ => rfl) more

/-- What is read in whole lines is read in the same way before more lines. -/
theorem read_append {c : Char} {rest : List Char} {lexeme : Lexeme}
    (lines : WholeLines (c :: rest)) (read : Lexeme.read c rest = .ok lexeme)
    (more : List Char) : Lexeme.read c (rest ++ more) = .ok lexeme := by
  rcases List.eq_nil_or_concat' rest with rfl | ⟨init, last, rfl⟩
  · obtain rfl : c = '\n' := lines c rfl
    rwa [read_newline] at read ⊢
  · obtain rfl : last = '\n' := wholeLines_concat.mp (List.cons_append ▸ lines)
    by_cases mark : ∃ quote, c = Quote.mark quote
    · obtain ⟨quote, rfl⟩ := mark
      exact read_mark_append read more
    · rw [read_before_newline mark] at read
      rw [List.append_assoc, List.singleton_append, read_before_newline mark, read]

/-- A piece that reaches to the end of whole lines is a line end. -/
theorem eq_newline_of_width {c : Char} {rest : List Char} {lexeme : Lexeme}
    (lines : WholeLines (c :: rest)) (read : Lexeme.read c rest = .ok lexeme)
    (whole : lexeme.width = (c :: rest).length) : lexeme = .token .newline "\n" 1 := by
  rcases List.eq_nil_or_concat' rest with rfl | ⟨init, last, rfl⟩
  · obtain rfl : c = '\n' := lines c rfl
    rw [read_newline] at read
    exact (Except.ok.inj read).symm
  · obtain rfl : last = '\n' := wholeLines_concat.mp (List.cons_append ▸ lines)
    by_cases mark : ∃ quote, c = Quote.mark quote
    · -- A string ends with its mark.
      obtain ⟨quote, rfl⟩ := mark
      rw [read_mark] at read
      obtain ⟨text, count, closed, rfl⟩ := ofString_eq_ok read
      obtain ⟨raw, after, same, -, rfl⟩ := Quote.unescapes_of_content closed
      have lengths := congrArg List.length same
      simp only [Lexeme.width, List.length_cons, List.length_append, List.length_nil] at whole lengths
      obtain rfl : after = [] := List.eq_nil_of_length_eq_zero (by omega)
      obtain ⟨-, ends⟩ := List.append_inj' same rfl
      cases quote <;> cases ends
    · rw [read_before_newline mark] at read
      obtain ⟨span, after, same, width, -⟩ := read_split read
      have lengths := congrArg List.length same
      simp only [List.length_cons, List.length_append, List.length_nil] at whole lengths
      omega

/-- The tokens of a piece that begins at a place: none for a gap. -/
def tokens (place : Position) : Lexeme → List Token
  | gap _ => []
  | token kind text _ => [⟨kind, text, place⟩]

end Lexeme

namespace Token

def relocate (move : Position → Position) (token : Token) : Token :=
  ⟨token.kind, token.text, move token.place⟩

/-! ### Scanning as a relation -/

/-- The tokens before the end of the input, of a text that begins at a place. -/
inductive Scans : Position → List Char → List Token → Prop where
  | done {place} : Scans place [] []
  | piece {place c rest lexeme span after tokens} : Lexeme.read c rest = .ok lexeme →
      c :: rest = span ++ after → lexeme.width = span.length →
      Scans (place.after span) after tokens →
      Scans place (c :: rest) (lexeme.tokens place ++ tokens)

/-- One step of the scan, by the span that its piece covers. -/
theorem scanFrom_piece {c : Char} {rest span after : List Char} {lexeme : Lexeme}
    (read : Lexeme.read c rest = .ok lexeme) (same : c :: rest = span ++ after)
    (width : lexeme.width = span.length) (fuel : Nat) (place : Position) :
    scanFrom (fuel + 1) place (c :: rest) =
      (scanFrom fuel (place.after span) after).map (lexeme.tokens place ++ ·) := by
  rw [scanFrom, read]
  simp only [same, width, List.take_left, List.drop_left]
  cases lexeme with
  | gap => cases scanFrom fuel (place.after span) after <;> rfl
  | token => rfl

/-- A scan that succeeds splits the text into the spans of tokens. The fuel of the scan is its
length. -/
theorem scans_of_scanFrom {fuel : Nat} {place : Position} {chars : List Char} {tokens : List Token}
    (enough : chars.length ≤ fuel) (scanned : scanFrom fuel place chars = .ok tokens) :
    ∃ front, Scans place chars front ∧ tokens = front ++ [endOfInput (place.after chars)] := by
  induction fuel generalizing place chars tokens with
  | zero =>
    obtain rfl : chars = [] := List.eq_nil_of_length_eq_zero (Nat.le_zero.mp enough)
    exact ⟨[], .done, (Except.ok.inj scanned).symm⟩
  | succ fuel ih =>
    cases chars with
    | nil => exact ⟨[], .done, (Except.ok.inj scanned).symm⟩
    | cons c rest =>
      cases read : Lexeme.read c rest with
      | error fault =>
        rw [scanFrom, read] at scanned
        cases scanned
      | ok lexeme =>
        obtain ⟨span, after, same, width, nonempty⟩ := Lexeme.read_split read
        have shorter : after.length ≤ fuel := by
          have positive := List.length_pos_iff.mpr nonempty
          rw [same, List.length_append] at enough
          omega
        rw [scanFrom_piece read same width] at scanned
        obtain ⟨others, later, rfl⟩ := Word.map_eq_ok scanned
        obtain ⟨front, scans, rfl⟩ := ih shorter later
        refine ⟨lexeme.tokens place ++ front, .piece read same width scans, ?_⟩
        rw [same, Position.after_append, List.append_assoc]

/-- And a text that is split so is scanned to these tokens, with the end of the input behind them. -/
theorem Scans.scanFrom_eq {fuel : Nat} {place : Position} {chars : List Char} {front : List Token}
    (scans : Scans place chars front) (enough : chars.length ≤ fuel) :
    scanFrom fuel place chars = .ok (front ++ [endOfInput (place.after chars)]) := by
  induction scans generalizing fuel with
  | done => cases fuel <;> rfl
  | @piece place c rest lexeme span after tokens read same width _ ih =>
    have positive : 0 < span.length := by
      obtain ⟨span', after', same', width', nonempty⟩ := Lexeme.read_split read
      rw [← width, width']
      exact List.length_pos_iff.mpr nonempty
    have lengths := congrArg List.length same
    rw [List.length_append] at lengths
    obtain ⟨fuel, rfl⟩ : ∃ left, fuel = left + 1 := ⟨fuel - 1, by omega⟩
    rw [scanFrom_piece read same width, ih (by omega), same, Position.after_append]
    simp [Except.map]

/-- None of them is the end of the input. -/
theorem Scans.kind_ne_eof {place : Position} {chars : List Char} {front : List Token}
    (scans : Scans place chars front) : ∀ token ∈ front, token.kind ≠ .eof := by
  induction scans with
  | done => exact nofun
  | @piece place c rest lexeme span after tokens read _ _ _ ih =>
    refine List.forall_mem_append.mpr ⟨?_, ih⟩
    cases lexeme with
    | gap => exact nofun
    | token => exact List.forall_mem_singleton.mpr (Lexeme.kind_ne_eof read)

/-- The tokens of a text are those that are scanned, and the end of the input behind the text. -/
theorem scanChars_eq_ok_iff {chars : List Char} {tokens : List Token} :
    scanChars chars = .ok tokens ↔
      ∃ front, Scans .start chars front ∧
        tokens = front ++ [endOfInput (Position.start.after chars)] := by
  constructor
  · exact scans_of_scanFrom (Nat.le_refl _)
  · rintro ⟨front, scans, rfl⟩
    exact scans.scanFrom_eq (Nat.le_refl _)

/-! ### Texts of whole lines -/

namespace Scans

variable {place : Position} {chars more : List Char} {tokens others : List Token}

/-- Further down only the lines of the places differ. -/
theorem down (lines : Nat) (scans : Scans place chars tokens) :
    Scans (place.down lines) chars (tokens.map (relocate (.down lines))) := by
  induction scans with
  | done => exact .done
  | @piece place c rest lexeme span after tokens read same width _ ih =>
    have moved : (lexeme.tokens place).map (relocate (.down lines)) =
        lexeme.tokens (place.down lines) := by
      cases lexeme <;> rfl
    rw [← Position.down_after] at ih
    rw [List.map_append, moved]
    exact .piece read same width ih

/-- Whole lines are scanned in the same way before other lines. -/
theorem append (scans : Scans place chars tokens) (lines : WholeLines chars)
    (later : Scans (place.after chars) more others) :
    Scans place (chars ++ more) (tokens ++ others) := by
  induction scans with
  | done => exact later
  | @piece place c rest lexeme span after tokens read same width _ ih =>
    have left : WholeLines after := WholeLines.of_append (same ▸ lines)
    rw [same, Position.after_append] at later
    rw [List.append_assoc, List.cons_append]
    refine .piece (Lexeme.read_append lines read more) ?_ width (ih left later)
    rw [← List.cons_append, same, List.append_assoc]

/-- The last token of whole lines is a line end. -/
theorem endsLine (scans : Scans place chars tokens) (lines : WholeLines chars) :
    chars = [] ∨ tokens.getLast?.map Token.kind = some .newline := by
  induction scans with
  | done => exact .inl rfl
  | @piece place c rest lexeme span after tokens read same width others ih =>
    right
    have left : WholeLines after := WholeLines.of_append (same ▸ lines)
    rcases ih left with rfl | ended
    · cases others
      rw [List.append_nil] at same
      obtain rfl := Lexeme.eq_newline_of_width lines read (by rw [width, same])
      rfl
    · have last : tokens.getLast?.isSome := by
        rw [← Option.isSome_map, ended]
        rfl
      rwa [List.getLast?_append, Option.or_of_isSome last]

end Scans

end Token

end ToolPlan
