import ToolPlan.Proofs.Token.Quote
import ToolPlan.Token.Scan

/-!
Tokens apart from each other. A token that is read where a text ends is read in the same way where a
blank follows (`read_before_blank`), so tokens that are written with blanks between them are scanned
back one by one (`scanChars_writeAll`).
-/

namespace ToolPlan

namespace Lexeme

/-! ### Runs stop at a dividing character -/

/-- A character that goes on with no word, number or sign. -/
structure Divides (d : Char) : Prop where
  notBare : isBareChar d = false
  notWord : isWordChar d = false
  notNumeral : d.isDigit = false ∧ d ≠ '_' ∧ d ≠ '.'
  notSecond : d ≠ '/' ∧ d ≠ '=' ∧ d ≠ '>'

theorem divides_blank : Divides ' ' where
  notBare := by decide
  notWord := by decide
  notNumeral := by decide
  notSecond := by decide

theorem divides_newline : Divides '\n' where
  notBare := by decide
  notWord := by decide
  notNumeral := by decide
  notSecond := by decide

variable {d : Char}

/-- Of two characters only an arrow stops a bare word. -/
theorem continuesBare_cons (c : Char) (rest : List Char) :
    continuesBare (c :: rest) = (isBareChar c && !(c = '-' && rest.head? = some '>')) := by
  unfold continuesBare
  split
  · contradiction
  · next after same =>
    obtain ⟨rfl, rfl⟩ := List.cons.inj same
    simp
  · next other notArrow same =>
    obtain ⟨rfl, rfl⟩ := List.cons.inj same
    cases rest with
    | nil => simp
    | cons d after =>
      have differ : ¬ (c = '-' ∧ d = '>') := by
        rintro ⟨rfl, rfl⟩
        exact notArrow after rfl rfl
      by_cases minus : c = '-'
      · have notSign : d ≠ '>' := fun sign => differ ⟨minus, sign⟩
        simp [minus, notSign]
      · simp [minus]

/-- A bare word goes on with its characters, but ends before an arrow. -/
theorem continuesBare_iff {c : Char} {rest : List Char} : continuesBare (c :: rest) = true ↔
    isBareChar c = true ∧ ¬ (c = '-' ∧ rest.head? = some '>') := by
  rw [continuesBare_cons, Bool.and_eq_true, Bool.not_eq_true', ← Bool.decide_and,
    decide_eq_false_iff_not]

/-- A dividing character is not the one looked for, so looking ahead finds it only in the word
itself. -/
theorem head?_divided (chars more : List Char) {c : Char} (other : d ≠ c) :
    (chars ++ d :: more).head? = some c ↔ chars.head? = some c := by
  cases chars with
  | nil => simp [other]
  | cons first rest => simp

theorem continuesBare_divided (divides : Divides d) (chars more : List Char) :
    continuesBare (chars ++ d :: more) = continuesBare chars := by
  cases chars with
  | nil =>
    rw [List.nil_append, continuesBare_cons, divides.notBare]
    rfl
  | cons c rest =>
    rw [List.cons_append, continuesBare_cons, continuesBare_cons]
    simp only [head?_divided rest more divides.notSecond.2.2]

/-- A bare word does not go on behind a divider. -/
theorem bareRun_divided (divides : Divides d) (chars more : List Char) :
    bareRun (chars ++ d :: more) = bareRun chars := by
  induction chars with
  | nil =>
    have stops : continuesBare (d :: more) = false := continuesBare_divided divides [] more
    simp [bareRun, stops]
  | cons c rest ih =>
    have same := continuesBare_divided divides (c :: rest) more
    rw [List.cons_append] at same ⊢
    rw [bareRun, bareRun, same, ih]

theorem numeralRun_divided (divides : Divides d) (pointAllowed : Bool) (chars more : List Char) :
    numeralRun pointAllowed (chars ++ d :: more) = numeralRun pointAllowed chars := by
  induction chars generalizing pointAllowed with
  | nil =>
    obtain ⟨notDigit, notUnderscore, notPoint⟩ := divides.notNumeral
    simp [numeralRun, notDigit, notUnderscore, notPoint]
  | cons c rest ih => simp only [List.cons_append, numeralRun, ih]

theorem takeWhile_divided {p : Char → Bool} (stops : p d = false) (chars more : List Char) :
    (chars ++ d :: more).takeWhile p = chars.takeWhile p := by
  induction chars with
  | nil => rw [List.nil_append, List.takeWhile_cons_of_neg (by simp [stops]), List.takeWhile_nil]
  | cons c rest ih => simp only [List.cons_append, List.takeWhile_cons, ih]

/-- Whether a run goes on as a bare word does not depend on what is behind a divider. -/
theorem bareOr_divided (divides : Divides d) (run after more : List Char) (whole : Lexeme) :
    bareOr run (after ++ d :: more) whole = bareOr run after whole := by
  simp only [bareOr, continuesBare_divided divides, bareRun_divided divides]

/-! ### Pieces before a dividing character -/

/-- The signs of two characters do not reach across a divider. -/
theorem sign?_divided (divides : Divides d) (c : Char) (rest more : List Char) :
    sign? c (rest ++ d :: more) = sign? c rest := by
  cases rest with
  | nil =>
    obtain ⟨-, notEquals, notArrow⟩ := divides.notSecond
    unfold sign?
    split <;> simp_all
  | cons next after =>
    unfold sign?
    split <;> simp_all

theorem startsNumber_divided (divides : Divides d) (c : Char) (rest more : List Char) :
    startsNumber c (rest ++ d :: more) = startsNumber c rest := by
  cases rest with
  | nil => simp [startsNumber, divides.notNumeral.1]
  | cons next after => simp [startsNumber]

theorem numeralRun_isPrefix (pointAllowed : Bool) (chars : List Char) :
    numeralRun pointAllowed chars <+: chars := by
  induction chars generalizing pointAllowed with
  | nil => exact List.prefix_refl []
  | cons c rest ih =>
    rw [numeralRun]
    split
    · exact (List.prefix_cons_inj c).mpr (ih pointAllowed)
    · split
      · exact (List.prefix_cons_inj c).mpr (ih false)
      · exact List.nil_prefix

theorem ofNumber_divided (divides : Divides d) (c : Char) (rest more : List Char) :
    ofNumber c (rest ++ d :: more) = ofNumber c rest := by
  have same : ∀ run : List Char, run.length ≤ (c :: rest).length →
      ((c :: (rest ++ d :: more)).drop run.length) = (c :: rest).drop run.length ++ d :: more := by
    intro run fits
    rw [← List.cons_append, List.drop_append_of_le_length fits]
  simp only [ofNumber]
  split
  · have fits : ('-' :: numeralRun true rest).length ≤ (c :: rest).length :=
      Nat.succ_le_succ (numeralRun_isPrefix true rest).length_le
    rw [numeralRun_divided divides, same _ fits, bareOr_divided divides]
  · have run := numeralRun_divided divides true (c :: rest) more
    rw [List.cons_append] at run
    rw [run, same _ (numeralRun_isPrefix true (c :: rest)).length_le, bareOr_divided divides]

theorem ofWord_divided (divides : Divides d) (chars more : List Char) :
    ofWord (chars ++ d :: more) = ofWord chars := by
  have fits : (chars.takeWhile isWordChar).length ≤ chars.length :=
    (List.takeWhile_sublist isWordChar).length_le
  simp only [ofWord, takeWhile_divided divides.notWord, List.drop_append_of_le_length fits,
    bareOr_divided divides]

/-- A string is read if its content ends, and covers its marks. -/
theorem ofString_eq_ok {content : Option (List Char × Nat)} {lexeme : Lexeme}
    (read : ofString content = .ok lexeme) :
    ∃ text count, content = some (text, count) ∧
      lexeme = .token .string (String.ofList text) (count + 1) := by
  unfold ofString at read
  split at read
  · simp at read
  · next text count =>
    obtain rfl := Except.ok.inj read
    exact ⟨text, count, rfl, rfl⟩

/-- What stands behind a quotation mark is read as the content of a string. -/
theorem read_mark (quote : Quote) (rest : List Char) :
    Lexeme.read quote.mark rest = ofString (quote.content rest) := by
  cases quote <;> rfl

/-- A string that is closed does not look further. -/
theorem read_mark_append {quote : Quote} {rest : List Char} {lexeme : Lexeme}
    (read : Lexeme.read quote.mark rest = .ok lexeme) (more : List Char) :
    Lexeme.read quote.mark (rest ++ more) = .ok lexeme := by
  rw [read_mark] at read ⊢
  obtain ⟨text, count, closed, -⟩ := ofString_eq_ok read
  rw [Quote.content_append closed, ← closed]
  exact read

/-- What is no string is read in the same way where a dividing character follows; a comment has to end
there. -/
theorem read_divided (divides : Divides d) {c : Char} {rest : List Char}
    (notMark : ∀ quote, c ≠ Quote.mark quote)
    (comment : c = '/' → rest.head? = some '/' → d = '\n') (more : List Char) :
    Lexeme.read c (rest ++ d :: more) = Lexeme.read c rest := by
  have notDouble : c ≠ '"' := notMark .double
  have notSingle : c ≠ '\'' := notMark .single
  have body : (c = '/' && rest.head? = some '/') = true →
      (rest ++ d :: more).takeWhile (· ≠ '\n') = rest.takeWhile (· ≠ '\n') := by
    intro opens
    simp only [Bool.and_eq_true, decide_eq_true_eq] at opens
    exact takeWhile_divided (by simp [comment opens.1 opens.2]) rest more
  unfold Lexeme.read
  simp only [head?_divided rest more divides.notSecond.1, sign?_divided divides,
    startsNumber_divided divides, ofNumber_divided divides, ← List.cons_append,
    ofWord_divided divides, bareRun_divided divides, if_neg notDouble, if_neg notSingle]
  split
  · rfl
  · split
    · next opens => rw [body opens]
    · rfl

/-- A token that is read where a text ends is read in the same way where a dividing character
follows. -/
theorem read_before_divider (divides : Divides d) {c : Char} {rest : List Char} {kind : TokenKind}
    {text : String} {width : Nat} (read : Lexeme.read c rest = .ok (.token kind text width))
    (more : List Char) : Lexeme.read c (rest ++ d :: more) = .ok (.token kind text width) := by
  by_cases opens : ∃ quote, c = Quote.mark quote
  · obtain ⟨quote, rfl⟩ := opens
    exact read_mark_append read _
  · refine (read_divided divides (not_exists.mp opens) ?_ more).trans read
    rintro rfl second
    have gap : Lexeme.read '/' rest = .ok (.gap (1 + (rest.takeWhile (· ≠ '\n')).length)) := by
      simp [Lexeme.read, isGapChar, second]
    rw [gap] at read
    cases read

/-- A token is read the same before a blank, whatever comes after the blank. -/
theorem read_before_blank {c : Char} {rest : List Char} {kind : TokenKind} {text : String}
    {width : Nat} (read : Lexeme.read c rest = .ok (.token kind text width)) (more : List Char) :
    Lexeme.read c (rest ++ ' ' :: more) = .ok (.token kind text width) :=
  read_before_divider divides_blank read more

end Lexeme

/-! ### Written words -/

/-- A token without its place. -/
abbrev Word := TokenKind × String

def Token.word (token : Token) : Word :=
  (token.kind, token.text)

namespace Word

/-- A word as it is written with a choice of quotes: only strings have quotes. -/
def render (quote : Quote) : Word → List Char
  | (.string, text) => quote.write text.toList
  | (_, text) => text.toList

abbrev write (word : Word) : List Char :=
  word.render .double

/-- Words with a blank after each. -/
def writeAll (words : List Word) : List Char :=
  words.flatMap fun word => word.write ++ [' ']

/-- The characters are read as the word when they are the whole text. -/
def ReadFrom (word : Word) (piece : List Char) : Prop :=
  ∃ c rest, piece = c :: rest ∧ Lexeme.read c rest = .ok (.token word.1 word.2 piece.length)

/-- Every word has at least one character in the text, be it a mark. -/
theorem ReadFrom.length_pos {word : Word} {piece : List Char} (read : word.ReadFrom piece) :
    0 < piece.length := by
  obtain ⟨c, rest, rfl, -⟩ := read
  exact Nat.succ_pos _

/-- A word that is read as itself when it is the whole text. -/
def Standalone (word : Word) : Prop :=
  word.ReadFrom word.write

theorem writeAll_cons (word : Word) (words : List Word) :
    writeAll (word :: words) = word.write ++ ' ' :: writeAll words := by
  simp [writeAll]

/-- A piece at the end of a text is its only token. -/
theorem scanFrom_last {word : Word} {piece : List Char} (read : word.ReadFrom piece) (fuel : Nat)
    (place : Position) : Token.scanFrom (fuel + 1) place piece =
      .ok [⟨word.1, word.2, place⟩, Token.endOfInput (place.after piece)] := by
  obtain ⟨c, rest, rfl, read⟩ := read
  rw [Token.scanFrom, read]
  simp only [Lexeme.width, List.take_length, List.drop_length]
  cases fuel <;> rfl

/-- A piece before a blank is one token, and the text after the blank is scanned on its own. -/
theorem scanFrom_apart {word : Word} {piece : List Char} (read : word.ReadFrom piece)
    (more : List Char) (fuel : Nat) (place : Position) :
    Token.scanFrom (fuel + 2) place (piece ++ ' ' :: more) =
      (Token.scanFrom fuel ((place.after piece).after [' ']) more).map
        (⟨word.1, word.2, place⟩ :: ·) := by
  obtain ⟨c, rest, rfl, read⟩ := read
  have apart := Lexeme.read_before_blank read more
  have before : (c :: (rest ++ ' ' :: more)).take (c :: rest).length = c :: rest := by
    rw [← List.cons_append, List.take_left]
  have left : (c :: (rest ++ ' ' :: more)).drop (c :: rest).length = ' ' :: more := by
    rw [← List.cons_append, List.drop_left]
  have blank : Lexeme.read ' ' more = .ok (.gap 1) := rfl
  rw [List.cons_append, Token.scanFrom, apart]
  simp only [Lexeme.width, before, left, Token.scanFrom, blank, List.take_succ_cons, List.take_zero,
    List.drop_succ_cons, List.drop_zero]

/-- Words that stand alone are scanned one by one, from any place. -/
theorem scanFrom_writeAll {words : List Word} (alone : ∀ word ∈ words, word.Standalone)
    {fuel : Nat} (enough : (writeAll words).length ≤ fuel) (place : Position) :
    ∃ tokens ending, Token.scanFrom fuel place (writeAll words) =
      .ok (tokens ++ [Token.endOfInput ending]) ∧ tokens.map Token.word = words := by
  induction words generalizing fuel place with
  | nil => exact ⟨[], place, by cases fuel <;> rfl, rfl⟩
  | cons word words ih =>
    have first := alone word (List.mem_cons_self ..)
    have others := fun other among => alone other (List.mem_cons_of_mem word among)
    have positive := first.length_pos
    rw [writeAll_cons] at enough ⊢
    rw [List.length_append, List.length_cons] at enough
    obtain ⟨fuel, rfl⟩ : ∃ left, fuel = left + 2 := ⟨fuel - 2, by omega⟩
    obtain ⟨tokens, ending, scanned, same⟩ :=
      ih others (by omega : _ ≤ fuel) ((place.after word.write).after [' '])
    refine ⟨⟨word.1, word.2, place⟩ :: tokens, ending, ?_, by rw [List.map_cons, same]; rfl⟩
    rw [scanFrom_apart first, scanned]
    rfl

/-- The tokens of written words are the words. -/
theorem scanChars_writeAll {words : List Word} (alone : ∀ word ∈ words, word.Standalone) :
    ∃ tokens ending, Token.scanChars (writeAll words) = .ok (tokens ++ [Token.endOfInput ending]) ∧
      tokens.map Token.word = words :=
  scanFrom_writeAll alone (Nat.le_refl _) .start

end Word

end ToolPlan
