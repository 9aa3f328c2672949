import ToolPlan.Proofs.Token.Spelling

/-!
The tokens of a text cover it. A text that can be scanned splits into gaps and spans, one span for
each token, in order; nothing is lost, and every token stands at the place of its span. A text that
cannot be scanned splits in the same way up to the character at which scanning stops, and the error
gives the place of this character (`Token.scan_splits`).
-/

namespace ToolPlan

namespace Position

/-- The place behind the first characters of a text: the line is one more than there are newlines
among them, and the column is one more than there are characters since the last newline. -/
def behind (before : List Char) : Position :=
  ⟨1 + before.count '\n', 1 + (before.reverse.takeWhile (· ≠ '\n')).length⟩

theorem behind_concat (before : List Char) (c : Char) :
    behind (before ++ [c]) = (behind before).advance c := by
  unfold behind advance
  rw [List.count_append, List.reverse_concat]
  by_cases newline : c = '\n'
  · subst newline
    rw [if_pos rfl, List.takeWhile_cons_of_neg (by decide)]
    rfl
  · rw [if_neg newline, List.count_singleton, if_neg (by simpa using newline),
      List.takeWhile_cons_of_pos (by simpa using newline)]
    rfl

/-- The place moves on character by character. -/
theorem behind_append (before span : List Char) :
    behind (before ++ span) = (behind before).after span := by
  induction span generalizing before with
  | nil => rw [List.append_nil, after_nil]
  | cons c span ih =>
    rw [List.append_cons, ih, behind_concat]
    rfl

end Position

namespace Token

/-! ### Gaps and spans -/

/-- Blanks and comments in a row, with what follows them. -/
inductive Gap : List Char → List Char → Prop where
  | empty {after} : Gap [] after
  | more {skipped gap after} : Lexeme.Filler skipped (gap ++ after) → Gap gap after →
      Gap (skipped ++ gap) after

/-- The characters after those of `before` split into gaps and the spans of tokens, up to what is
left. Every token stands at the place where its span begins. -/
inductive Splits : List Char → List Char → List Token → List Char → Prop where
  | rest {before gap left} : Gap gap left → Splits before (gap ++ left) [] left
  | token {before gap span after token tokens left} : Gap gap (span ++ after) →
      Lexeme.Spelled token.kind token.text span after →
      token.place = .behind (before ++ gap) → Splits (before ++ gap ++ span) after tokens left →
      Splits before (gap ++ (span ++ after)) (token :: tokens) left

/-- A blank or a comment goes to the first gap. -/
theorem Splits.skip {before skipped chars left : List Char} {tokens : List Token}
    (filler : Lexeme.Filler skipped chars) (splits : Splits (before ++ skipped) chars tokens left) :
    Splits before (skipped ++ chars) tokens left := by
  cases splits with
  | rest gap =>
    rw [← List.append_assoc]
    exact .rest (.more filler gap)
  | token gap spelled place later =>
    rw [List.append_assoc before] at place later
    rw [← List.append_assoc]
    exact .token (.more filler gap) spelled place later

end Token

/-! ### Where scanning stops -/

/-- Why nothing is read at a character: it is an exclamation mark that opens no comparison, or a
blank that is neither between tokens nor a newline, or a mark that opens a string without an end. -/
inductive LexemeFault.Blames (c : Char) (rest : List Char) : LexemeFault → Prop where
  | exclamation : c = '!' → rest.head? ≠ some '=' → Blames c rest (.unexpected c)
  | blank : Text.isBlank c = true → c ∉ [' ', '\t', '\r', '\n'] → Blames c rest (.unexpected c)
  | unclosed {quote} : c = Quote.mark quote →
      (∀ raw text after, quote.Unescapes raw text → rest ≠ raw ++ quote.mark :: after) →
      Blames c rest .unterminated

namespace Lexeme

/-- Of the signs that end bare words, only the exclamation mark can be no token. -/
theorem exclamation_of_isSign {c : Char} {rest : List Char} (sign : isSign c = true)
    (notSign : sign? c rest = none) (notMark : ∀ quote, c ≠ Quote.mark quote) :
    c = '!' ∧ rest.head? ≠ some '=' := by
  have among := List.contains_iff_mem.mp sign
  have notDouble : c ≠ '"' := notMark .double
  have notSingle : c ≠ '\'' := notMark .single
  have exclamation : c = '!' := by
    unfold sign? at notSign
    split at notSign
    case h_19 => simp_all
    all_goals cases notSign
  subst exclamation
  refine ⟨rfl, ?_⟩
  intro next
  obtain ⟨after, rfl⟩ : ∃ after, rest = '=' :: after := List.head?_eq_some_iff.mp next
  cases notSign

/-- Nothing is read for one of three reasons, of which the character shows the first two and the
rest of the text the third. -/
theorem blames_of_read {c : Char} {rest : List Char} {fault : LexemeFault}
    (read : Lexeme.read c rest = .error fault) : fault.Blames c rest := by
  have reads := reads_read c rest
  rw [read] at reads
  cases reads with
  | unterminated opens unclosed =>
    refine .unclosed opens ?_
    rintro raw text after unescapes rfl
    rw [Quote.content_of_unescapes unescapes] at unclosed
    cases unclosed
  | unexpected notGap notSign notMark notBare =>
    cases blank : Text.isBlank c with
    | true =>
      refine .blank blank ?_
      intro among
      have either : c ∈ [' ', '\t', '\r'] ++ ['\n'] := among
      rcases List.mem_append.mp either with gap | newline
      · have inGap : [' ', '\t', '\r'].all isGapChar = true := rfl
        rw [List.all_eq_true.mp inGap c gap] at notGap
        cases notGap
      · obtain rfl := List.mem_singleton.mp newline
        cases notSign
    | false =>
      have sign : isSign c = true := by simpa [isBareChar, blank] using notBare
      obtain ⟨mark, alone⟩ := exclamation_of_isSign sign notSign notMark
      exact .exclamation mark alone

end Lexeme

namespace Token

/-- The characters after those of `before` were scanned: to the end of the text, or up to a
character that is to blame. -/
inductive Scanned (before chars : List Char) : Except ScanError (List Token) → Prop where
  | done {front} : (∀ token ∈ front, token.kind ≠ .eof) → Splits before chars front [] →
      Scanned before chars (.ok (front ++ [endOfInput (.behind (before ++ chars))]))
  | stopped {front read c rest fault} : chars = read ++ c :: rest →
      Splits before chars front (c :: rest) → LexemeFault.Blames c rest fault →
      Scanned before chars (.error (fault.atPlace (.behind (before ++ read))))

namespace Scanned

variable {before chars : List Char} {result : Except ScanError (List Token)}

theorem nil : Scanned before [] (.ok [endOfInput (.behind before)]) := by
  have done : Scanned before [] (.ok ([] ++ [endOfInput (.behind (before ++ []))])) :=
    .done nofun (.rest .empty)
  rwa [List.append_nil] at done

/-- What fills the space between tokens moves the place and adds no token. -/
theorem skip {skipped : List Char} (filler : Lexeme.Filler skipped chars)
    (scanned : Scanned (before ++ skipped) chars result) :
    Scanned before (skipped ++ chars) result := by
  cases scanned with
  | done inside splits =>
    rw [List.append_assoc]
    exact .done inside (splits.skip filler)
  | @stopped _ read _ _ _ same splits blames =>
    rw [List.append_assoc]
    refine .stopped ?_ (splits.skip filler) blames
    rw [same, List.append_assoc]

/-- A span adds its token, at the place where it begins. -/
theorem token {span : List Char} {kind : TokenKind} {text : String}
    (spelled : Lexeme.Spelled kind text span chars) (other : kind ≠ .eof)
    (scanned : Scanned (before ++ span) chars result) :
    Scanned before (span ++ chars) (result.map (⟨kind, text, .behind before⟩ :: ·)) := by
  have place : Position.behind before = .behind (before ++ []) := by rw [List.append_nil]
  have split : ∀ {front left}, Splits (before ++ span) chars front left →
      Splits before (span ++ chars) (⟨kind, text, .behind before⟩ :: front) left := by
    intro front left splits
    rw [← List.append_nil before] at splits
    exact .token .empty spelled place splits
  cases scanned with
  | done inside splits =>
    rw [List.append_assoc]
    exact .done (List.forall_mem_cons.mpr ⟨other, inside⟩) (split splits)
  | @stopped _ read _ _ _ same splits blames =>
    rw [List.append_assoc]
    refine .stopped ?_ (split splits) blames
    rw [same, List.append_assoc]

end Scanned

/-- By induction on the fuel. Every piece has a width, so as much fuel as there are characters is
enough. -/
theorem scanned_scanFrom {fuel : Nat} {before chars : List Char} (enough : chars.length ≤ fuel) :
    Scanned before chars (scanFrom fuel (.behind before) chars) := by
  induction fuel generalizing before chars with
  | zero =>
    obtain rfl : chars = [] := List.eq_nil_of_length_eq_zero (Nat.le_zero.mp enough)
    exact .nil
  | succ fuel ih =>
    cases chars with
    | nil => exact .nil
    | cons c rest =>
      cases read : Lexeme.read c rest with
      | error fault =>
        rw [scanFrom, read]
        have stopped : Scanned before (c :: rest)
            (.error (fault.atPlace (.behind (before ++ [])))) :=
          .stopped rfl (.rest .empty) (Lexeme.blames_of_read read)
        rwa [List.append_nil] at stopped
      | ok lexeme =>
        rw [scanFrom, read]
        cases lexeme with
        | gap width =>
          obtain ⟨skipped, after, same, rfl, filler⟩ := Lexeme.read_filler read
          have shorter : after.length ≤ fuel := by
            have positive := filler.length_pos
            rw [same, List.length_append] at enough
            omega
          simp only [Lexeme.width, same, List.take_left, List.drop_left, ← Position.behind_append]
          exact (ih shorter).skip filler
        | token kind text width =>
          obtain ⟨span, after, same, rfl, spelled⟩ := Lexeme.read_spelled read
          have shorter : after.length ≤ fuel := by
            have positive := List.length_pos_iff.mpr spelled.nonempty
            rw [same, List.length_append] at enough
            omega
          simp only [Lexeme.width, same, List.take_left, List.drop_left, ← Position.behind_append]
          exact (ih shorter).token spelled (Lexeme.kind_ne_eof read)

/-- The tokens of a text cover it. If a text can be scanned, it splits into gaps and spans, one for
each token before the end of the input, which stands behind the whole text. If it cannot, it splits so
up to a character that is to blame, and the error gives the place of this character. -/
theorem scan_splits (text : String) :
    (∀ tokens, scan text = .ok tokens → ∃ front,
      tokens = front ++ [endOfInput (.behind text.toList)] ∧
        (∀ token ∈ front, token.kind ≠ .eof) ∧ Splits [] text.toList front []) ∧
    ∀ error, scan text = .error error → ∃ before c rest front fault,
      text.toList = before ++ c :: rest ∧ Splits [] text.toList front (c :: rest) ∧
        error = LexemeFault.atPlace (.behind before) fault ∧ fault.Blames c rest := by
  have scanned : Scanned [] text.toList (scan text) := scanned_scanFrom (Nat.le_refl _)
  constructor
  · intro tokens accepted
    rw [accepted] at scanned
    cases scanned with
    | done inside splits => exact ⟨_, rfl, inside, splits⟩
  · intro error refused
    rw [refused] at scanned
    cases scanned with
    | stopped same splits blames => exact ⟨_, _, _, _, _, same, splits, rfl, blames⟩

/-- A string over two lines, a comment, and a word, an arrow and a number without blanks. -/
def crossing : String :=
  "'a\nb' // c\nd->1_0"

def crossed : List Token :=
  [⟨.string, "a\nb", ⟨1, 1⟩⟩, ⟨.newline, "\n", ⟨2, 8⟩⟩, ⟨.name, "d", ⟨3, 1⟩⟩,
    ⟨.arrow, "->", ⟨3, 2⟩⟩, ⟨.number, "10", ⟨3, 4⟩⟩]

/-- Tokens may stand over several lines and right next to each other, and the place of an error
counts both. -/
theorem scan_splits_crossing :
    scan crossing = .ok (crossed ++ [endOfInput ⟨3, 7⟩]) ∧ Splits [] crossing.toList crossed [] ∧
      scan "a\n !" = .error (.unexpectedCharacter '!' ⟨2, 2⟩) ∧
      ∃ before c rest front, "a\n !".toList = before ++ c :: rest ∧
        Position.behind before = ⟨2, 2⟩ ∧ Splits [] "a\n !".toList front (c :: rest) := by
  have accepted : scan crossing = .ok (crossed ++ [endOfInput ⟨3, 7⟩]) := by decide +kernel
  have refused : scan "a\n !" = .error (.unexpectedCharacter '!' ⟨2, 2⟩) := by decide +kernel
  obtain ⟨front, same, -, splits⟩ := (scan_splits crossing).1 _ accepted
  obtain ⟨before, c, rest, ahead, fault, whole, up, given, -⟩ := (scan_splits "a\n !").2 _ refused
  obtain ⟨rfl, -⟩ := List.append_inj' same rfl
  refine ⟨accepted, splits, refused, before, c, rest, ahead, whole, ?_, up⟩
  cases fault with
  | unexpected d => exact (ScanError.unexpectedCharacter.inj given).2.symm
  | unterminated => cases given

end Token

end ToolPlan
