import ToolPlan.Proofs.Number.Literal
import ToolPlan.Proofs.Token.Spelling
import ToolPlan.Value

/-!
The words that stand alone: reserved words, signs and comparisons, identifiers, strings of any
content, numerals, and the loose words, whose text by itself is scanned to one name or bare word.
-/

namespace ToolPlan

namespace Lexeme

/-! ### The first character decides -/

/-- The characters that open a gap, a comment, a sign or a string. -/
def openers : List Char :=
  [' ', '\t', '\r', '/', '\n', '(', ')', '[', ']', '{', '}', ':', ',', '$', '=', '!', '<', '>',
   '-', '"', '\'']

/-- Of the pieces that open with another character, those of numbers come first, then words. -/
theorem read_of_not_opener {c : Char} (other : c ∉ openers) (rest : List Char) :
    Lexeme.read c rest =
      if c.isDigit then .ok (ofNumber c rest)
      else if isWordStart c then .ok (ofWord (c :: rest))
      else if isBareChar c then
        .ok (token .bare (String.ofList (bareRun (c :: rest))) (bareRun (c :: rest)).length)
      else .error (.unexpected c) := by
  have differ : ∀ d ∈ openers, c ≠ d := by
    rintro d opener rfl
    exact other opener
  have notSign : sign? c rest = none := by
    unfold sign?
    split
    case h_19 => rfl
    all_goals exact absurd rfl (differ _ (by decide))
  have notGap : isGapChar c = false := by
    simp [isGapChar, differ ' ' (by decide), differ '\t' (by decide), differ '\r' (by decide)]
  simp [Lexeme.read, notGap, notSign, startsNumber, differ '/' (by decide), differ '"' (by decide),
    differ '\'' (by decide), differ '-' (by decide)]

/-- A class of characters is disjoint from a list if none of the list belongs to it. -/
theorem outside_of_all {belongs : Char → Bool} {chars : List Char}
    (outside : chars.all fun d => !belongs d) {c : Char} (among : c ∈ chars) : belongs c = false := by
  have outside := List.all_eq_true.mp outside c among
  rwa [Bool.not_eq_true'] at outside

/-- A class of characters without openers. -/
theorem not_opener {belongs : Char → Bool} (outside : openers.all fun d => !belongs d) {c : Char}
    (member : belongs c) : c ∉ openers := by
  intro opener
  rw [outside_of_all outside opener] at member
  cases member

theorem isAlpha_of_isDigit {c : Char} (digit : c.isDigit) : c.isAlpha = false := by
  obtain ⟨-, high⟩ := Char.isDigit_iff_toNat.mp digit
  have below : ∀ d : Char, '9'.toNat < d.toNat → ¬ c.val ≥ d.val := by
    intro d above letter
    exact absurd (UInt32.le_iff_toNat_le.mp letter)
      (Nat.not_le_of_lt (Nat.lt_of_le_of_lt high above))
  show (decide (c.val ≥ 'A'.val ∧ c.val ≤ 'Z'.val) ||
    (decide (c.val ≥ 'a'.val) && decide (c.val ≤ 'z'.val))) = false
  rw [decide_eq_false fun upper => below 'A' (by decide) upper.1,
    decide_eq_false (below 'a' (by decide))]
  rfl

/-- Digits open no word, so numbers are told from names by their first character. -/
theorem isWordStart_of_isDigit {c : Char} (digit : c.isDigit) : isWordStart c = false := by
  obtain ⟨-, high⟩ := Char.isDigit_iff_toNat.mp digit
  have ascii : c.toNat < 128 := Nat.lt_of_le_of_lt high (by decide)
  have notUnderscore : c ≠ '_' := by
    rintro rfl
    exact absurd digit (by decide)
  simp [isWordStart, Text.isAlphabetic_ascii ascii, isAlpha_of_isDigit digit, notUnderscore]

theorem read_of_isWordStart {c : Char} (start : isWordStart c) (rest : List Char) :
    Lexeme.read c rest = .ok (ofWord (c :: rest)) := by
  have notDigit : c.isDigit = false := by
    cases digit : c.isDigit with
    | false => rfl
    | true =>
      rw [isWordStart_of_isDigit digit] at start
      exact Bool.noConfusion start
  rw [read_of_not_opener (not_opener (by decide) start), if_neg (by simp [notDigit]), if_pos start]

theorem read_of_isDigit {c : Char} (digit : c.isDigit) (rest : List Char) :
    Lexeme.read c rest = .ok (ofNumber c rest) := by
  rw [read_of_not_opener (not_opener (by decide) digit), if_pos digit]

/-- A minus sign right before a digit opens a number. -/
theorem read_minus {d : Char} (digit : d.isDigit) (rest : List Char) :
    Lexeme.read '-' (d :: rest) = .ok (ofNumber '-' (d :: rest)) := by
  have notArrow : d ≠ '>' := by
    rintro rfl
    exact absurd digit (by decide)
  have notSign : sign? '-' (d :: rest) = none := by
    unfold sign?
    split <;> simp_all
  simp [Lexeme.read, notSign, isGapChar, startsNumber, digit]

/-! ### Numerals -/

theorem numeralRun_digits {digits : List Char} (all : digits.all Char.isDigit) (pointAllowed : Bool)
    (rest : List Char) :
    numeralRun pointAllowed (digits ++ rest) = digits ++ numeralRun pointAllowed rest := by
  induction digits with
  | nil => rfl
  | cons c digits ih =>
    rw [List.all_cons, Bool.and_eq_true] at all
    simp only [List.cons_append, numeralRun, all.1, ih all.2, Bool.true_or, if_true]

/-- One point is taken, with the digits behind it. -/
theorem numeralRun_pointed {whole fraction : List Char} (all : whole.all Char.isDigit)
    (decimals : fraction.all Char.isDigit) :
    numeralRun true (whole ++ '.' :: fraction) = whole ++ '.' :: fraction := by
  have atEnd := numeralRun_digits decimals false []
  rw [List.append_nil, numeralRun, List.append_nil] at atEnd
  rw [numeralRun_digits all]
  simp [numeralRun, atEnd]

theorem filter_underscore {chars : List Char} (all : ∀ c ∈ chars, c.isDigit ∨ c = '.') :
    chars.filter (· ≠ '_') = chars := by
  rw [List.filter_eq_self]
  intro c among
  have notUnderscore : c ≠ '_' := by
    rintro rfl
    exact absurd (all '_' among) (by decide)
  simpa using notUnderscore

/-- A number whose digits and point reach up to the end is read as a whole. -/
theorem read_signed (negative : Bool) {d : Char} {more : List Char} (digit : d.isDigit)
    (run : numeralRun true (d :: more) = d :: more)
    (clean : (d :: more).filter (· ≠ '_') = d :: more) :
    ∃ c rest, Numeral.signed negative (d :: more) = c :: rest ∧
      Lexeme.read c rest = .ok (.token .number
        (String.ofList (Numeral.signed negative (d :: more)))
        (Numeral.signed negative (d :: more)).length) := by
  cases negative with
  | true =>
    refine ⟨'-', d :: more, rfl, ?_⟩
    rw [read_minus digit]
    simp only [ofNumber, run, if_true, Numeral.signed, List.drop_length, bareOr, continuesBare]
    rw [List.filter_cons_of_pos (by decide), clean]
    rfl
  | false =>
    refine ⟨d, more, rfl, ?_⟩
    have notMinus : d ≠ '-' := by
      rintro rfl
      exact absurd digit (by decide)
    rw [read_of_isDigit digit]
    simp only [ofNumber, run, notMinus, if_false, Numeral.signed, List.drop_length, bareOr,
      continuesBare, clean]
    rfl

end Lexeme

/-- The text of the kinds that have only one. -/
def TokenKind.spelling : TokenKind → String
  | letWord => "LET"
  | callWord => "CALL"
  | ifWord => "IF"
  | elseWord => "ELSE"
  | forWord => "FOR"
  | inWord => "IN"
  | returnWord => "RETURN"
  | andWord => "AND"
  | orWord => "OR"
  | notWord => "NOT"
  | trueWord => "true"
  | falseWord => "false"
  | nullWord => "null"
  | leftParen => "("
  | rightParen => ")"
  | leftBracket => "["
  | rightBracket => "]"
  | leftBrace => '{'.toString
  | rightBrace => '}'.toString
  | colon => ":"
  | comma => ","
  | arrow => "->"
  | assign => "="
  | dollar => "$"
  | newline => "\n"
  | _ => ""

namespace Word

/-- The word of a kind that has only one. -/
def fixed (kind : TokenKind) : Word :=
  (kind, kind.spelling)

theorem render_asWritten {kind : TokenKind} (notString : kind ≠ .string) (quote : Quote)
    (text : String) : render quote (kind, text) = text.toList := by
  unfold render
  split
  · next same => exact absurd (Prod.mk.inj same).1 notString
  · next same => rw [(Prod.mk.inj same).2]

/-- Reserved words and signs stand alone. -/
theorem standalone_fixed {kind : TokenKind} (spelled : kind.spelling ≠ "") :
    (fixed kind).Standalone := by
  cases kind
  case comparison | number | string | bare | name | eof => exact absurd rfl spelled
  all_goals exact ⟨_, _, rfl, by decide⟩

theorem standalone_comparison (op : Comparison) : Standalone (.comparison, op.symbol) := by
  cases op <;> exact ⟨_, _, rfl, rfl⟩

/-- A numeral without an exponent stands alone, with its sign and its point. -/
theorem standalone_number {text : String} (numeral : Numeral text.toList) :
    Standalone (.number, text) := by
  have written : write (.number, text) = text.toList := rfl
  have back : String.ofList text.toList = text := String.ofList_toList
  simp only [Standalone, written]
  generalize text.toList = chars at numeral back ⊢
  subst back
  cases numeral with
  | whole negative nonempty all =>
    obtain ⟨d, more, rfl⟩ := List.exists_cons_of_ne_nil nonempty
    have run := Lexeme.numeralRun_digits all true []
    rw [List.append_nil, Lexeme.numeralRun, List.append_nil] at run
    refine Lexeme.read_signed negative (List.all_eq_true.mp all d (List.mem_cons_self ..)) run ?_
    exact Lexeme.filter_underscore fun c among => .inl (List.all_eq_true.mp all c among)
  | @pointed negative whole fraction nonempty all decimals =>
    obtain ⟨d, more, rfl⟩ := List.exists_cons_of_ne_nil nonempty
    have run := Lexeme.numeralRun_pointed all decimals
    refine Lexeme.read_signed negative (List.all_eq_true.mp all d (List.mem_cons_self ..)) run ?_
    apply Lexeme.filter_underscore
    intro c among
    change c ∈ (d :: more) ++ '.' :: fraction at among
    rcases List.mem_append.mp among with before | after
    · exact .inl (List.all_eq_true.mp all c before)
    · rcases List.mem_cons.mp after with point | after
      · exact .inr point
      · exact .inl (List.all_eq_true.mp decimals c after)

/-! ### Identifiers -/

/-- Whether a text is a word that is not reserved. -/
def isIdentifier (text : String) : Bool :=
  match text.toList with
  | [] => false
  | c :: rest =>
    Lexeme.isWordStart c && rest.all Lexeme.isWordChar && (TokenKind.keyword? text).isNone

/-- An identifier that is not reserved stands alone as a name. -/
theorem standalone_name {text : String} (identifier : isIdentifier text) :
    Standalone (.name, text) := by
  have written : write (.name, text) = text.toList := rfl
  unfold isIdentifier at identifier
  split at identifier
  · simp at identifier
  · next c rest chars =>
    simp only [Bool.and_eq_true, Option.isNone_iff_eq_none] at identifier
    obtain ⟨⟨start, all⟩, free⟩ := identifier
    refine ⟨c, rest, by rw [written, chars], ?_⟩
    have run : (c :: rest).takeWhile Lexeme.isWordChar = c :: rest := by
      rw [List.takeWhile_eq_self_iff]
      intro d among
      rcases List.mem_cons.mp among with rfl | among
      · exact Lexeme.isWordChar_of_isWordStart start
      · exact List.all_eq_true.mp all d among
    have word : String.ofList (c :: rest) = text := by
      rw [← chars, String.ofList_toList]
    rw [Lexeme.read_of_isWordStart start, written, chars]
    simp only [Lexeme.ofWord, run, word, free, List.drop_length, Lexeme.bareOr,
      Lexeme.continuesBare]
    rfl

/-! ### Strings -/

/-- A string is read back from either way of writing it. -/
theorem readFrom_write (quote : Quote) (text : String) :
    ReadFrom (.string, text) (quote.write text.toList) := by
  refine ⟨quote.mark, quote.escape text.toList ++ [quote.mark], rfl, ?_⟩
  have content := Quote.content_of_unescapes (quote.unescapes_escape text.toList) []
  rw [Lexeme.read_mark, content]
  simp [Lexeme.ofString, Quote.write]

/-- Any text at all stands alone as a string, once it is escaped. -/
theorem standalone_string (text : String) : Standalone (.string, text) :=
  readFrom_write .double text

/-! ### Loose words -/

/-- The kind of the only token of a text, if that is a name or a bare word with the same text. -/
def looseKind? (text : String) : Option TokenKind :=
  match Token.scan text with
  | .ok [token, _] =>
    if token.text = text && (token.kind = .name || token.kind = .bare) then some token.kind
    else none
  | _ => none

theorem map_eq_ok {ε α β : Type} {f : α → β} {result : Except ε α} {b : β}
    (mapped : result.map f = .ok b) : ∃ a, result = .ok a ∧ b = f a := by
  cases result with
  | error error => cases mapped
  | ok a => exact ⟨a, rfl, (Except.ok.inj mapped).symm⟩

/-- One step of a scan that succeeds: a piece, and the scan of what follows it. -/
theorem scanFrom_eq_ok {fuel : Nat} {place : Position} {c : Char} {rest : List Char}
    {tokens : List Token} (scanned : Token.scanFrom (fuel + 1) place (c :: rest) = .ok tokens) :
    ∃ lexeme next others, Lexeme.read c rest = .ok lexeme ∧
      Token.scanFrom fuel next ((c :: rest).drop lexeme.width) = .ok others ∧
      ((∃ width, lexeme = .gap width ∧ tokens = others) ∨
        ∃ kind text width, lexeme = .token kind text width ∧
          tokens = ⟨kind, text, place⟩ :: others) := by
  unfold Token.scanFrom at scanned
  split at scanned
  · simp at scanned
  · next lexeme read =>
    simp only at scanned
    split at scanned
    · next width =>
      exact ⟨_, _, tokens, read, scanned, .inl ⟨width, rfl, rfl⟩⟩
    · next kind text width =>
      obtain ⟨others, found, rfl⟩ := map_eq_ok scanned
      exact ⟨_, _, others, read, found, .inr ⟨kind, text, width, rfl, rfl⟩⟩

/-- The end of the input comes last, and every token before it is read somewhere in the text. -/
theorem scanFrom_front {fuel : Nat} {place : Position} {chars : List Char} {tokens : List Token}
    (scanned : Token.scanFrom fuel place chars = .ok tokens) :
    ∃ front ending, tokens = front ++ [Token.endOfInput ending] ∧ ∀ token ∈ front,
      ∃ c rest width, Lexeme.read c rest = .ok (.token token.kind token.text width) := by
  induction fuel generalizing place chars tokens with
  | zero =>
    have ended : Token.scanFrom 0 place chars = .ok [Token.endOfInput place] := by
      cases chars <;> rfl
    obtain rfl := Except.ok.inj (ended.symm.trans scanned)
    exact ⟨[], place, rfl, nofun⟩
  | succ fuel ih =>
    cases chars with
    | nil =>
      obtain rfl := Except.ok.inj scanned
      exact ⟨[], place, rfl, nofun⟩
    | cons c rest =>
      obtain ⟨lexeme, next, others, read, later, ⟨width, rfl, rfl⟩ | ⟨kind, text, width, rfl, rfl⟩⟩ :=
        scanFrom_eq_ok scanned
      · exact ih later
      · obtain ⟨front, ending, rfl, inside⟩ := ih later
        refine ⟨⟨kind, text, place⟩ :: front, ending, rfl, ?_⟩
        exact List.forall_mem_cons.mpr ⟨⟨c, rest, width, read⟩, inside⟩

/-- No token but a string or a number is longer than the text it stands in. -/
theorem scanFrom_text_length_le {fuel : Nat} {place : Position} {chars : List Char}
    {tokens : List Token} (scanned : Token.scanFrom fuel place chars = .ok tokens) {token : Token}
    (among : token ∈ tokens) (notString : token.kind ≠ .string) (notNumber : token.kind ≠ .number) :
    token.text.toList.length ≤ chars.length := by
  induction fuel generalizing place chars tokens with
  | zero =>
    have ended : Token.scanFrom 0 place chars = .ok [Token.endOfInput place] := by
      cases chars <;> rfl
    obtain rfl := Except.ok.inj (ended.symm.trans scanned)
    obtain rfl := List.mem_singleton.mp among
    exact Nat.zero_le _
  | succ fuel ih =>
    cases chars with
    | nil =>
      obtain rfl := Except.ok.inj scanned
      obtain rfl := List.mem_singleton.mp among
      exact Nat.zero_le _
    | cons c rest =>
      obtain ⟨lexeme, next, others, read, later, ⟨width, rfl, rfl⟩ | ⟨kind, text, width, rfl, rfl⟩⟩ :=
        scanFrom_eq_ok scanned
      · have shorter := ih later among
        rw [List.length_drop] at shorter
        exact Nat.le_trans shorter (Nat.sub_le ..)
      · rcases List.mem_cons.mp among with rfl | among
        · exact (Lexeme.read_asWritten read notString notNumber).1.length_le
        · have shorter := ih later among
          rw [List.length_drop] at shorter
          exact Nat.le_trans shorter (Nat.sub_le ..)

/-- A text of one loose word has no gap before it, so the word stands alone. -/
theorem standalone_loose {text : String} {kind : TokenKind} (loose : looseKind? text = some kind) :
    (kind = .name ∨ kind = .bare) ∧ Standalone (kind, text) := by
  unfold looseKind? at loose
  split at loose
  · next token ending scanned =>
    obtain ⟨same, kindSame⟩ := Option.ite_none_right_eq_some.mp loose
    simp only [Bool.and_eq_true, Bool.or_eq_true, decide_eq_true_eq] at same
    obtain ⟨textSame, nameOrBare⟩ := same
    obtain rfl := Option.some.inj kindSame
    have notString : token.kind ≠ .string := by
      rcases nameOrBare with is | is <;> simp [is]
    have notNumber : token.kind ≠ .number := by
      rcases nameOrBare with is | is <;> simp [is]
    refine ⟨nameOrBare, ?_⟩
    simp only [Token.scan, Token.scanChars] at scanned
    rw [Standalone, write, render_asWritten notString]
    generalize chars : text.toList = whole at scanned
    cases whole with
    | nil => cases scanned
    | cons c rest =>
      obtain ⟨lexeme, next, others, read, later, ⟨width, rfl, rfl⟩ | ⟨kind, found, width, rfl, first⟩⟩ :=
        scanFrom_eq_ok scanned
      · -- Behind a gap there is no room for the whole text.
        have fits := scanFrom_text_length_le later (List.mem_cons_self ..) notString notNumber
        obtain ⟨skipped, _, -, rfl, filler⟩ := Lexeme.read_filler read
        have positive := filler.length_pos
        rw [textSame, chars, List.length_drop, Lexeme.width, List.length_cons] at fits
        omega
      · obtain ⟨rfl, -⟩ := List.cons.inj first
        obtain rfl : found = text := textSame
        obtain ⟨-, whole⟩ := Lexeme.read_asWritten read notString notNumber
        rw [whole, chars] at read
        exact ⟨c, rest, rfl, read⟩
  · simp at loose

/-! ### Lists of words -/

def Alone (words : List Word) : Prop :=
  ∀ word ∈ words, word.Standalone

namespace Alone

variable {word : Word} {words others : List Word}

theorem nil : Alone [] :=
  List.forall_mem_nil _

theorem cons (first : word.Standalone) (rest : Alone words) : Alone (word :: words) :=
  List.forall_mem_cons.mpr ⟨first, rest⟩

theorem append (first : Alone words) (second : Alone others) : Alone (words ++ others) :=
  List.forall_mem_append.mpr ⟨first, second⟩

theorem fixed (kind : TokenKind) (spelled : kind.spelling ≠ "") (rest : Alone words) :
    Alone (fixed kind :: words) :=
  cons (standalone_fixed spelled) rest

end Alone

end Word

end ToolPlan
