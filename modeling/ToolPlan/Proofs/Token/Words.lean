import ToolPlan.Proofs.Token.Rewriting

/-!
What the words of a text look like, character by character. A name is an identifier (`Identifier`): a
letter or an underscore with letters, numbers and underscores after it. Names and bare words are loose
words (`Loose`): they hold no blank and no sign, and open no comment. Neither is reserved. A number is
a numeral without an exponent (`Numeral`). These are properties of every token that a text is scanned
to (`Token.lexical_of_scan`), in whichever way its characters were taken for a word: a bare word may
begin as a number or as a name, and a number may be written with underscores.
-/

namespace ToolPlan

namespace Word

/-- The words that stand for themselves and for nothing else. -/
def reserved : List String :=
  TokenKind.keywords.map Prod.fst

def signs : List Char :=
  ['(', ')', '[', ']', '{', '}', ',', ':', '=', '<', '>', '!', '"', '\'', '$']

/-- A text that may name a variable or an argument. -/
structure Identifier (text : String) : Prop where
  shape : ∃ c rest, text.toList = c :: rest ∧ (Text.isAlphabetic c = true ∨ c = '_') ∧
    ∀ d ∈ rest, Text.isAlphabetic d = true ∨ Text.isNumeric d = true ∨ d = '_'
  free : text ∉ reserved

/-- A text that may name a tool or a captured result, or stand for itself. -/
structure Loose (text : String) : Prop where
  nonempty : text ≠ ""
  unbroken : ∀ c ∈ text.toList, Text.isBlank c = false ∧ c ∉ signs
  uncommented : ¬ ['/', '/'] <+: text.toList
  free : text ∉ reserved

end Word

namespace Lexeme

/-! ### Classes of characters -/

/-- The white space of every script. -/
def blanks : List Char :=
  Text.blankRanges.flatMap fun range =>
    (List.range' range.1 (range.2 + 1 - range.1)).map Char.ofNat

/-- A blank is one of finitely many characters, so classes can be checked against all of them. -/
theorem mem_blanks {c : Char} (blank : Text.isBlank c = true) : c ∈ blanks := by
  obtain ⟨range, among, low, high⟩ := (Text.Ranges.contains_iff _ _).mp blank
  refine List.mem_flatMap.mpr ⟨range, among, List.mem_map.mpr ⟨c.toNat, ?_, c.ofNat_toNat⟩⟩
  rw [List.mem_range'_1]
  omega

theorem isSign_iff {c : Char} : isSign c = true ↔ c ∈ Word.signs := by
  rw [isSign, List.contains_iff_mem]
  exact Iff.rfl

/-- No letter, number or underscore breaks a bare word. -/
theorem isBareChar_of_isWordChar {c : Char} (word : isWordChar c = true) : isBareChar c = true := by
  have blanksOut : blanks.all fun d => !isWordChar d := by decide +kernel
  have signsOut : Word.signs.all fun d => !isWordChar d := by decide
  have notBlank : Text.isBlank c = false := by
    rw [Bool.eq_false_iff]
    intro blank
    exact absurd word (Bool.eq_false_iff.mp (outside_of_all blanksOut (mem_blanks blank)))
  have notSign : isSign c = false := by
    rw [Bool.eq_false_iff]
    intro sign
    exact absurd word (Bool.eq_false_iff.mp (outside_of_all signsOut (isSign_iff.mp sign)))
  rw [isBareChar, notBlank, notSign]
  rfl

theorem isWordChar_of_isDigit {c : Char} (digit : c.isDigit = true) : isWordChar c = true := by
  obtain ⟨-, high⟩ := Char.isDigit_iff_toNat.mp digit
  have ascii : c.toNat < 128 := Nat.lt_of_le_of_lt high (by decide)
  rw [isWordChar, Text.isNumeric_ascii ascii, digit, Bool.or_true, Bool.true_or]

/-! ### Runs of characters -/

/-- A bare word consists of the characters it may have. -/
theorem isBareChar_of_mem_bareRun {chars : List Char} {c : Char} (among : c ∈ bareRun chars) :
    isBareChar c = true := by
  induction chars with
  | nil => cases among
  | cons d rest ih =>
    rw [bareRun] at among
    split at among
    · next goesOn =>
      rcases List.mem_cons.mp among with rfl | later
      · exact (continuesBare_iff.mp goesOn).1
      · exact ih later
    · cases among

theorem isBareChar_of_mem_numeralRun {pointAllowed : Bool} {chars : List Char} {c : Char}
    (among : c ∈ numeralRun pointAllowed chars) : isBareChar c = true := by
  induction chars generalizing pointAllowed with
  | nil => cases among
  | cons d rest ih =>
    rw [numeralRun] at among
    split at among
    · next digit =>
      rcases List.mem_cons.mp among with rfl | later
      · rw [Bool.or_eq_true, decide_eq_true_eq] at digit
        rcases digit with digit | rfl
        · exact isBareChar_of_isWordChar (isWordChar_of_isDigit digit)
        · decide
      · exact ih later
    · split at among
      · next point =>
        rw [Bool.and_eq_true, decide_eq_true_eq] at point
        rcases List.mem_cons.mp among with rfl | later
        · rw [point.1]
          decide
        · exact ih later
      · cases among

/-- A number could go on as a bare word, so its characters are also those of bare words. -/
theorem isBareChar_of_mem_numberRun {c d : Char} {rest : List Char}
    (among : d ∈ numberRun c rest) : isBareChar d = true := by
  unfold numberRun at among
  split at among
  · rcases List.mem_cons.mp among with rfl | later
    · decide
    · exact isBareChar_of_mem_numeralRun later
  · exact isBareChar_of_mem_numeralRun among

/-! ### Reserved words -/

/-- A text that opens with no letter and no underscore is not reserved. -/
theorem not_reserved_of_head {c : Char} {rest : List Char} (other : isWordStart c = false) :
    String.ofList (c :: rest) ∉ Word.reserved := by
  have starts : Word.reserved.all fun word => word.toList.head?.any isWordStart := by decide
  intro among
  have start := List.all_eq_true.mp starts _ among
  rw [String.toList_ofList, List.head?_cons, Option.any_some, other] at start
  cases start

/-- A text with a character that continues no word is not reserved. -/
theorem not_reserved_of_mem {chars : List Char} {c : Char} (among : c ∈ chars)
    (other : isWordChar c = false) : String.ofList chars ∉ Word.reserved := by
  have words : Word.reserved.all fun word => word.toList.all isWordChar := by decide
  intro reserved
  have word := List.all_eq_true.mp words _ reserved
  rw [String.toList_ofList] at word
  have continues := List.all_eq_true.mp word c among
  rw [other] at continues
  cases continues

theorem not_reserved_of_keyword? {text : String} (free : TokenKind.keyword? text = none) :
    text ∉ Word.reserved := by
  intro among
  obtain ⟨kind, found⟩ := Entries.mem_keys_iff.mp among
  rw [TokenKind.keyword?, found] at free
  cases free

/-! ### Words -/

/-- Characters of bare words make a loose word, if they open no comment and are not reserved. -/
theorem loose_of_bare {c : Char} {rest : List Char}
    (bare : ∀ d ∈ c :: rest, isBareChar d = true)
    (uncommented : ¬ (c = '/' ∧ rest.head? = some '/'))
    (free : String.ofList (c :: rest) ∉ Word.reserved) :
    Word.Loose (String.ofList (c :: rest)) where
  nonempty := by
    intro empty
    have chars := congrArg String.toList empty
    rw [String.toList_ofList] at chars
    cases chars
  unbroken := by
    intro d among
    rw [String.toList_ofList] at among
    have plain := bare d among
    rw [isBareChar, Bool.and_eq_true, Bool.not_eq_true', Bool.not_eq_true'] at plain
    refine ⟨plain.1, ?_⟩
    rw [← isSign_iff, plain.2]
    exact Bool.false_ne_true
  uncommented := by
    rw [String.toList_ofList]
    rintro ⟨after, same⟩
    obtain ⟨rfl, rfl⟩ := List.cons.inj same
    exact uncommented ⟨rfl, rfl⟩
  free := free

/-- What a word that a text is scanned to looks like, by its kind. -/
structure Lexical (kind : TokenKind) (text : String) : Prop where
  identifier : kind = .name → Word.Identifier text
  loose : kind = .name ∨ kind = .bare → Word.Loose text
  numeral : kind = .number → Numeral text.toList

theorem Lexical.of_other {kind : TokenKind} {text : String} (notName : kind ≠ .name)
    (notBare : kind ≠ .bare) (notNumber : kind ≠ .number) : Lexical kind text :=
  ⟨fun name => absurd name notName, fun word => absurd word (by simp [notName, notBare]),
    fun number => absurd number notNumber⟩

theorem Lexical.of_bare {text : String} (loose : Word.Loose text) : Lexical .bare text :=
  ⟨nofun, fun _ => loose, nofun⟩

theorem Lexical.of_name {text : String} (identifier : Word.Identifier text)
    (loose : Word.Loose text) : Lexical .name text :=
  ⟨fun _ => identifier, fun _ => loose, nofun⟩

theorem Lexical.of_number {text : String} (numeral : Numeral text.toList) : Lexical .number text :=
  ⟨nofun, nofun, fun _ => numeral⟩

/-- A number, or a bare word that begins as one. -/
theorem lexical_ofNumber {c : Char} {rest : List Char} (starts : startsNumber c rest = true)
    {kind : TokenKind} {text : String} {width : Nat}
    (read : ofNumber c rest = .token kind text width) : Lexical kind text := by
  rw [ofNumber_eq] at read
  rcases bareOr_cases read with ⟨itself, -⟩ | bare
  · cases itself
    refine .of_number ?_
    rw [String.toList_ofList]
    exact numeral_numberRun starts
  · cases bare
    have nonempty := numberRun_ne_nil starts
    obtain ⟨d, more, run⟩ := List.exists_cons_of_ne_nil nonempty
    have first : d = c := by
      obtain ⟨after, same⟩ := numberRun_isPrefix c rest
      rw [run] at same
      exact (List.cons.inj same).1
    have notStart : isWordStart c = false ∧ c ≠ '/' := by
      rcases startsNumber_cases starts with ⟨digit, -⟩ | ⟨rfl, -⟩
      · refine ⟨isWordStart_of_isDigit digit, ?_⟩
        rintro rfl
        cases digit
      · decide
    have plain : ∀ d ∈ numberRun c rest ++ bareRun ((c :: rest).drop (numberRun c rest).length),
        isBareChar d = true := by
      rw [List.forall_mem_append]
      exact ⟨fun _ => isBareChar_of_mem_numberRun, fun _ => isBareChar_of_mem_bareRun⟩
    rw [run, List.cons_append] at plain ⊢
    rw [first] at plain ⊢
    exact .of_bare (loose_of_bare plain (fun comment => notStart.2 comment.1)
      (not_reserved_of_head notStart.1))

/-- A name, a reserved word, or a bare word that begins as one of them. -/
theorem lexical_ofWord {c : Char} {rest : List Char} (start : isWordStart c = true)
    {kind : TokenKind} {text : String} {width : Nat}
    (read : ofWord (c :: rest) = .token kind text width) : Lexical kind text := by
  have notSlash : c ≠ '/' := by
    rintro rfl
    cases start
  have run : (c :: rest).takeWhile isWordChar = c :: rest.takeWhile isWordChar :=
    List.takeWhile_cons_of_pos (isWordChar_of_isWordStart start)
  have wordChars : ∀ d ∈ c :: rest.takeWhile isWordChar, isWordChar d = true := by
    rw [← run]
    exact fun _ => List.mem_takeWhile_imp
  rw [ofWord_eq, run, bareOr] at read
  split at read
  · next goesOn =>
    -- What follows the run is no part of a name, so the whole is not reserved.
    cases read
    have stops := List.head?_dropWhile_not isWordChar (c :: rest)
    cases after : (c :: rest).dropWhile isWordChar with
    | nil =>
      rw [after] at goesOn
      cases goesOn
    | cons d more =>
      rw [after] at goesOn stops
      have plain : ∀ e ∈ c :: rest.takeWhile isWordChar ++ bareRun (d :: more),
          isBareChar e = true := by
        rw [List.forall_mem_append]
        exact ⟨fun e among => isBareChar_of_isWordChar (wordChars e among),
          fun _ => isBareChar_of_mem_bareRun⟩
      have among : d ∈ c :: rest.takeWhile isWordChar ++ bareRun (d :: more) := by
        rw [bareRun, if_pos goesOn]
        exact List.mem_append_right _ (List.mem_cons_self ..)
      exact .of_bare (loose_of_bare plain (fun comment => notSlash comment.1)
        (not_reserved_of_mem among stops))
  · cases read
    cases reserved : TokenKind.keyword? (String.ofList (c :: rest.takeWhile isWordChar)) with
    | some kind =>
      have notWord : ∀ kind ∈ TokenKind.keywords.map Prod.snd,
          kind ≠ .name ∧ kind ≠ .bare ∧ kind ≠ .number := by
        decide
      obtain ⟨notName, notBare, notNumber⟩ := notWord kind (TokenKind.keyword?_mem reserved)
      exact .of_other notName notBare notNumber
    | none =>
      have free := not_reserved_of_keyword? reserved
      have loose : Word.Loose (String.ofList (c :: rest.takeWhile isWordChar)) :=
        loose_of_bare (fun d among => isBareChar_of_isWordChar (wordChars d among))
          (fun comment => notSlash comment.1) free
      refine .of_name ⟨⟨c, rest.takeWhile isWordChar, String.toList_ofList, ?_, ?_⟩, free⟩ loose
      · simpa [isWordStart] using start
      · intro d among
        have word := wordChars d (List.mem_cons_of_mem _ among)
        simpa [isWordChar, or_assoc] using word

/-- By the piece that was read: a sign, a number, a word or a bare word. -/
theorem lexical_of_read {c : Char} {rest : List Char} {kind : TokenKind} {text : String}
    {width : Nat} (read : Lexeme.read c rest = .ok (.token kind text width)) :
    Lexical kind text := by
  have reads := reads_read c rest
  rw [read] at reads
  cases reads with
  | sign found =>
    obtain ⟨-, -, other⟩ := sign?_spec found
    refine .of_other ?_ ?_ ?_
    · rintro rfl
      exact other (by decide)
    · rintro rfl
      exact other (by decide)
    · rintro rfl
      exact other (by decide)
  | string opens closed => exact .of_other nofun nofun nofun
  | number starts same => exact lexical_ofNumber starts same
  | word start same => exact lexical_ofWord start same
  | bare notComment notSign notNumber notWord bare =>
    have goesOn := continuesBare_of_not_sign bare notSign
    have plain : ∀ d ∈ bareRun (c :: rest), isBareChar d = true :=
      fun _ => isBareChar_of_mem_bareRun
    rw [bareRun, if_pos goesOn] at plain ⊢
    refine .of_bare (loose_of_bare plain ?_ (not_reserved_of_head notWord))
    rintro ⟨slash, next⟩
    exact notComment ⟨slash, head?_bareRun next⟩

end Lexeme

namespace Token

/-- The words of a text: every name is an identifier, every name and bare word is loose, and every
number is a numeral. -/
theorem lexical_of_scan {text : String} {tokens : List Token} (scanned : scan text = .ok tokens) :
    ∀ token ∈ tokens, Lexeme.Lexical token.kind token.text := by
  obtain ⟨front, ending, rfl, inside⟩ := Word.scanFrom_front scanned
  rw [List.forall_mem_append]
  constructor
  · intro token among
    obtain ⟨c, rest, width, read⟩ := inside token among
    exact Lexeme.lexical_of_read read
  · intro token among
    obtain rfl := List.mem_singleton.mp among
    exact .of_other nofun nofun nofun

end Token

end ToolPlan
