import ToolPlan.Proofs.Token.Standalone

/-!
Tokens written anew. The text of a token by itself is read as this token again, whatever stood around
it in the text that it comes from (`Word.standalone_of_read`). So tokens that are written with single
blanks between them, strings in either kind of quotes, are scanned to the same kinds and texts
(`Token.scan_rewrite`).
-/

namespace ToolPlan

namespace Lexeme

/-! ### Bare words by themselves -/

/-- A bare word begins like the text that it is taken from. -/
theorem head?_bareRun {chars : List Char} {c : Char} (first : (bareRun chars).head? = some c) :
    chars.head? = some c := by
  cases chars with
  | nil => cases first
  | cons d rest =>
    rw [bareRun] at first
    split at first
    · exact first
    · cases first

theorem bareRun_of_continues {c : Char} {rest : List Char}
    (goesOn : continuesBare (c :: rest) = true) : bareRun (c :: rest) = c :: bareRun rest := by
  rw [bareRun, if_pos goesOn]

theorem continuesBare_bareRun {c : Char} {rest : List Char}
    (goesOn : continuesBare (c :: rest) = true) : continuesBare (c :: bareRun rest) = true := by
  obtain ⟨bare, notArrow⟩ := continuesBare_iff.mp goesOn
  apply continuesBare_iff.mpr
  exact ⟨bare, fun arrow => notArrow ⟨arrow.1, head?_bareRun arrow.2⟩⟩

theorem bareRun_of_stop {chars : List Char} (stops : continuesBare chars = false) :
    bareRun chars = [] := by
  cases chars with
  | nil => rfl
  | cons c rest => rw [bareRun, if_neg (Bool.eq_false_iff.mp stops)]

theorem bareRun_bareRun (chars : List Char) : bareRun (bareRun chars) = bareRun chars := by
  induction chars with
  | nil => rfl
  | cons c rest ih =>
    cases goesOn : continuesBare (c :: rest) with
    | true => rw [bareRun_of_continues goesOn, bareRun_of_continues (continuesBare_bareRun goesOn), ih]
    | false => rw [bareRun_of_stop goesOn, bareRun]

/-- What a run is read as depends on the bare word after it, and on nothing behind this word. -/
theorem bareOr_bareRun (run after : List Char) (whole : Lexeme) :
    bareOr run (bareRun after) whole = bareOr run after whole := by
  cases goesOn : continuesBare after with
  | true =>
    have again : continuesBare (bareRun after) = true := by
      cases after with
      | nil => cases goesOn
      | cons c rest =>
        rw [bareRun_of_continues goesOn]
        exact continuesBare_bareRun goesOn
    rw [bareOr, bareOr, if_pos goesOn, if_pos again, bareRun_bareRun]
  | false =>
    rw [bareRun_of_stop goesOn, bareOr, bareOr, goesOn]
    rfl

/-! ### Runs before other characters -/

/-- A run of word characters is the same before a bare word that begins as what followed it. -/
theorem takeWhile_isWordChar_bareRun (chars : List Char) :
    (chars.takeWhile isWordChar ++ bareRun (chars.dropWhile isWordChar)).takeWhile isWordChar =
      chars.takeWhile isWordChar := by
  rw [List.takeWhile_append_of_pos fun c among => List.mem_takeWhile_imp among]
  have stops := List.head?_dropWhile_not isWordChar chars
  have nothing : (bareRun (chars.dropWhile isWordChar)).takeWhile isWordChar = [] := by
    cases first : (bareRun (chars.dropWhile isWordChar)) with
    | nil => rfl
    | cons c rest =>
      have same := head?_bareRun (congrArg List.head? first)
      rw [same] at stops
      exact List.takeWhile_cons_of_neg (Bool.eq_false_iff.mp stops)
  rw [nothing, List.append_nil]

/-- A number that ends before other characters ends there if these are cut off behind the bare word,
too. -/
theorem numeralRun_bareRun {pointAllowed : Bool} {run after : List Char}
    (taken : numeralRun pointAllowed (run ++ after) = run) :
    numeralRun pointAllowed (run ++ bareRun after) = run := by
  induction run generalizing pointAllowed with
  | nil =>
    rw [List.nil_append] at taken ⊢
    cases first : bareRun after with
    | nil => rfl
    | cons c rest =>
      obtain ⟨others, rfl⟩ := List.head?_eq_some_iff.mp (head?_bareRun (congrArg List.head? first))
      -- Whether anything is taken depends on the first character alone.
      rw [numeralRun] at taken ⊢
      split at taken
      · cases taken
      · next notDigit =>
        split at taken
        · cases taken
        · next notPoint => rw [if_neg notDigit, if_neg notPoint]
  | cons c run ih =>
    rw [List.cons_append, numeralRun] at taken ⊢
    split at taken
    · next digit => rw [if_pos digit, ih (List.cons.inj taken).2]
    · next notDigit =>
      split at taken
      · next point => rw [if_neg notDigit, if_pos point, ih (List.cons.inj taken).2]
      · cases taken

/-! ### Numbers by themselves -/

theorem numeralRun_digit {d : Char} (digit : d.isDigit = true) (pointAllowed : Bool)
    (rest : List Char) :
    numeralRun pointAllowed (d :: rest) = d :: numeralRun pointAllowed rest := by
  rw [numeralRun, digit, Bool.true_or, if_pos rfl]

/-- A number opens with a digit, or with a minus sign and a digit. -/
theorem startsNumber_cases {c : Char} {rest : List Char} (starts : startsNumber c rest = true) :
    c.isDigit = true ∧ c ≠ '-' ∨ c = '-' ∧ ∃ d more, rest = d :: more ∧ d.isDigit = true := by
  by_cases digit : c.isDigit = true
  · refine .inl ⟨digit, ?_⟩
    rintro rfl
    cases digit
  · simp only [startsNumber, digit, Bool.false_or, Bool.and_eq_true, decide_eq_true_eq] at starts
    obtain ⟨minus, next⟩ := starts
    cases rest with
    | nil => cases next
    | cons d more => exact .inr ⟨minus, d, more, rfl, next⟩

/-- A text that starts as a number is read as one, or as a bare word that begins with it. -/
theorem read_number {c : Char} {rest : List Char} (starts : startsNumber c rest = true) :
    Lexeme.read c rest = .ok (ofNumber c rest) := by
  rcases startsNumber_cases starts with ⟨digit, -⟩ | ⟨rfl, d, more, rfl, digit⟩
  · exact read_of_isDigit digit rest
  · exact read_minus digit more

theorem numberRun_digit {c : Char} (notMinus : c ≠ '-') (rest : List Char) :
    numberRun c rest = numeralRun true (c :: rest) :=
  if_neg notMinus

theorem numberRun_minus (rest : List Char) : numberRun '-' rest = '-' :: numeralRun true rest :=
  if_pos rfl

/-- A number is opened in the same way, and goes as far, before a bare word that begins as what
followed it. -/
theorem numberRun_bareRun {c : Char} {rest after : List Char} (starts : startsNumber c rest = true)
    (split : c :: rest = numberRun c rest ++ after) :
    ∃ tail, numberRun c rest ++ bareRun after = c :: tail ∧ startsNumber c tail = true ∧
      numberRun c tail = numberRun c rest := by
  rcases startsNumber_cases starts with ⟨digit, notMinus⟩ | ⟨rfl, d, more, rfl, digit⟩
  · rw [numberRun_digit notMinus] at split ⊢
    have again := numeralRun_bareRun (congrArg (numeralRun true) split).symm
    rw [numeralRun_digit digit, List.cons_append] at again ⊢
    refine ⟨_, rfl, ?_, ?_⟩
    · rw [startsNumber, digit, Bool.true_or]
    · rw [numberRun_digit notMinus, again]
  · rw [numberRun_minus] at split ⊢
    have again := numeralRun_bareRun (congrArg (numeralRun true) (List.cons.inj split).2).symm
    refine ⟨_, List.cons_append, ?_, ?_⟩
    · rw [numeralRun_digit digit]
      exact digit
    · rw [numberRun_minus, again]

theorem filter_numeralRun_digit {d : Char} (digit : d.isDigit = true) (pointAllowed : Bool)
    (rest : List Char) : (numeralRun pointAllowed (d :: rest)).filter (· ≠ '_') =
      d :: (numeralRun pointAllowed rest).filter (· ≠ '_') := by
  have notUnderscore : d ≠ '_' := by
    rintro rfl
    cases digit
  rw [numeralRun_digit digit, List.filter_cons_of_pos (by simpa using notUnderscore)]

/-- Without its underscores, a run of digits has at most one point. -/
theorem filter_numeralRun (pointAllowed : Bool) (chars : List Char) :
    ((numeralRun pointAllowed chars).filter (· ≠ '_')).all Char.isDigit = true ∨
      pointAllowed = true ∧ ∃ whole fraction,
        (numeralRun pointAllowed chars).filter (· ≠ '_') = whole ++ '.' :: fraction ∧
          whole.all Char.isDigit = true ∧ fraction.all Char.isDigit = true := by
  induction chars generalizing pointAllowed with
  | nil => exact .inl rfl
  | cons c rest ih =>
    by_cases digit : c.isDigit = true
    · rw [filter_numeralRun_digit digit]
      rcases ih pointAllowed with all | ⟨allowed, whole, fraction, same, all, decimals⟩
      · exact .inl (by rw [List.all_cons, digit, all, Bool.and_self])
      · refine .inr ⟨allowed, c :: whole, fraction, by rw [same, List.cons_append], ?_, decimals⟩
        rw [List.all_cons, digit, all, Bool.and_self]
    · rw [numeralRun]
      split
      · next taken =>
        have underscore : c = '_' := by simpa [digit] using taken
        rw [List.filter_cons_of_neg (by simp [underscore])]
        exact ih pointAllowed
      · split
        · next point =>
          simp only [Bool.and_eq_true, decide_eq_true_eq] at point
          obtain ⟨rfl, allowed⟩ := point
          rw [List.filter_cons_of_pos (by decide)]
          rcases ih false with all | ⟨impossible, -⟩
          · exact .inr ⟨allowed, [], _, rfl, rfl, all⟩
          · cases impossible
        · exact .inl rfl

/-- The text of a number is a numeral. -/
theorem numeral_numberRun {c : Char} {rest : List Char} (starts : startsNumber c rest = true) :
    Numeral ((numberRun c rest).filter (· ≠ '_')) := by
  have unsigned : ∀ {d : Char} (more : List Char) (negative : Bool), d.isDigit = true →
      Numeral (Numeral.signed negative ((numeralRun true (d :: more)).filter (· ≠ '_'))) := by
    intro d more negative digit
    rw [filter_numeralRun_digit digit]
    rcases filter_numeralRun true more with all | ⟨-, whole, fraction, same, all, decimals⟩
    · refine .whole negative (List.cons_ne_nil _ _) ?_
      rw [List.all_cons, digit, all, Bool.and_self]
    · rw [same, ← List.cons_append]
      refine .pointed negative (List.cons_ne_nil _ _) ?_ decimals
      rw [List.all_cons, digit, all, Bool.and_self]
  rcases startsNumber_cases starts with ⟨digit, notMinus⟩ | ⟨rfl, d, more, rfl, digit⟩
  · rw [numberRun_digit notMinus]
    exact unsigned rest false digit
  · rw [numberRun_minus, List.filter_cons_of_pos (by decide)]
    exact unsigned more true digit

/-! ### Pieces by themselves -/

theorem sign?_of_continues {c : Char} {rest : List Char}
    (goesOn : continuesBare (c :: rest) = true) : sign? c rest = none := by
  obtain ⟨bare, notArrow⟩ := continuesBare_iff.mp goesOn
  unfold sign?
  split
  case h_18 => exact absurd ⟨rfl, rfl⟩ notArrow
  case h_19 => rfl
  all_goals exact absurd bare (by decide)

/-- A blank is in no bare word, nor is a quotation mark. -/
theorem isBareChar_of_isGapChar {c : Char} (gap : isGapChar c = true) : isBareChar c = false := by
  simp only [isGapChar, Bool.or_eq_true, decide_eq_true_eq] at gap
  rcases gap with (rfl | rfl) | rfl <;> decide

theorem isBareChar_mark (quote : Quote) : isBareChar quote.mark = false := by
  cases quote <;> decide

/-- Cutting off what follows a bare word makes no number of what was none. -/
theorem startsNumber_bareRun {c : Char} {rest : List Char}
    (starts : startsNumber c (bareRun rest) = true) : startsNumber c rest = true := by
  rcases startsNumber_cases starts with ⟨digit, -⟩ | ⟨rfl, d, more, same, digit⟩
  · rw [startsNumber, digit, Bool.true_or]
  · have first := head?_bareRun (congrArg List.head? same)
    rw [startsNumber, first]
    exact digit

/-- A bare word that is neither a word nor a number at its beginning is read by itself. -/
theorem read_bareRun {c : Char} {rest : List Char}
    (notComment : ¬ (c = '/' ∧ rest.head? = some '/')) (notNumber : startsNumber c rest = false)
    (notWord : isWordStart c = false) (goesOn : continuesBare (c :: rest) = true) :
    Lexeme.read c (bareRun rest) =
      .ok (.token .bare (String.ofList (c :: bareRun rest)) (c :: bareRun rest).length) := by
  have again := continuesBare_bareRun goesOn
  obtain ⟨bare, -⟩ := continuesBare_iff.mp goesOn
  have reads := reads_read c (bareRun rest)
  generalize Lexeme.read c (bareRun rest) = result at reads
  cases reads with
  | blank gap =>
    rw [isBareChar_of_isGapChar gap] at bare
    cases bare
  | comment slash next => exact absurd ⟨slash, head?_bareRun next⟩ notComment
  | sign found =>
    rw [sign?_of_continues again] at found
    cases found
  | string opens _ =>
    rw [opens, isBareChar_mark] at bare
    cases bare
  | unterminated opens _ =>
    rw [opens, isBareChar_mark] at bare
    cases bare
  | number starts _ =>
    rw [startsNumber_bareRun starts] at notNumber
    cases notNumber
  | word start _ =>
    rw [notWord] at start
    cases start
  | bare =>
    rw [bareRun_of_continues again, bareRun_bareRun]
  | unexpected _ _ _ notBare =>
    rw [bare] at notBare
    cases notBare

/-- A word ends where its characters do, unless a bare word goes on from there. -/
theorem ofWord_eq (chars : List Char) : ofWord chars =
    bareOr (chars.takeWhile isWordChar) (chars.dropWhile isWordChar)
      (.token ((TokenKind.keyword? (String.ofList (chars.takeWhile isWordChar))).getD .name)
        (String.ofList (chars.takeWhile isWordChar)) (chars.takeWhile isWordChar).length) := by
  have left : chars.drop (chars.takeWhile isWordChar).length = chars.dropWhile isWordChar := by
    have whole := List.takeWhile_append_dropWhile (p := isWordChar) (l := chars)
    calc chars.drop (chars.takeWhile isWordChar).length
        = (chars.takeWhile isWordChar ++ chars.dropWhile isWordChar).drop
            (chars.takeWhile isWordChar).length := by rw [whole]
      _ = chars.dropWhile isWordChar := List.drop_left
  rw [← left]
  rfl

/-- A word is read in the same way before the bare word alone that follows it. -/
theorem ofWord_bareRun (chars : List Char) :
    ofWord (chars.takeWhile isWordChar ++ bareRun (chars.dropWhile isWordChar)) = ofWord chars := by
  rw [ofWord_eq chars]
  simp only [ofWord, takeWhile_isWordChar_bareRun, List.drop_left, bareOr_bareRun]

end Lexeme

namespace Word

open Lexeme

theorem standalone_of_cut {c : Char} {tail : List Char} {kind : TokenKind}
    (notString : kind ≠ .string)
    (read : Lexeme.read c tail = .ok (.token kind (String.ofList (c :: tail)) (c :: tail).length)) :
    Standalone (kind, String.ofList (c :: tail)) := by
  rw [Standalone, write, render_asWritten notString, String.toList_ofList]
  exact ⟨c, tail, rfl, read⟩

/-- Signs stand alone: none of them needs what follows it. -/
theorem standalone_sign {c : Char} {rest : List Char} {kind : TokenKind} {text : String}
    (found : sign? c rest = some (kind, text)) : Standalone (kind, text) := by
  unfold sign? at found
  split at found <;> cases found <;> exact ⟨_, _, rfl, rfl⟩

/-- The text of a number stands alone. It has no underscores, so it may be shorter than its span. -/
theorem standalone_ofNumber {c : Char} {rest : List Char} (starts : startsNumber c rest = true)
    {kind : TokenKind} {text : String} {width : Nat} (read : ofNumber c rest = .token kind text width) :
    Standalone (kind, text) := by
  obtain ⟨after, split⟩ := numberRun_isPrefix c rest
  obtain ⟨tail, cut, opens, run⟩ := numberRun_bareRun starts split.symm
  have again : Lexeme.read c tail = .ok (.token kind text width) := by
    rw [read_number opens, ← read, ofNumber_eq, ofNumber_eq, ← cut, run, ← split, List.drop_left,
      List.drop_left, bareOr_bareRun]
  rw [ofNumber_eq, ← split, List.drop_left] at read
  rcases bareOr_cases read with ⟨whole, -⟩ | bare
  · -- The text is not what was read, which may have underscores.
    cases whole
    refine standalone_number ?_
    rw [String.toList_ofList]
    exact numeral_numberRun starts
  · rw [cut] at bare
    cases bare
    exact standalone_of_cut nofun again

/-- So does the text of a word, be it a name, a reserved word or a bare word. -/
theorem standalone_ofWord {c : Char} {rest : List Char} (start : isWordStart c = true)
    {kind : TokenKind} {text : String} {width : Nat}
    (read : ofWord (c :: rest) = .token kind text width) : Standalone (kind, text) := by
  obtain ⟨tail, cut⟩ : ∃ tail, (c :: rest).takeWhile isWordChar ++
      bareRun ((c :: rest).dropWhile isWordChar) = c :: tail := by
    rw [List.takeWhile_cons_of_pos (isWordChar_of_isWordStart start)]
    exact ⟨_, List.cons_append⟩
  have again : Lexeme.read c tail = .ok (.token kind text width) := by
    rw [read_of_isWordStart start, ← cut, ofWord_bareRun, read]
  rw [ofWord_eq] at read
  rcases bareOr_cases read with ⟨whole, stops⟩ | bare
  · rw [bareRun_of_stop stops, List.append_nil] at cut
    rw [cut] at whole
    cases whole
    refine standalone_of_cut ?_ again
    have plain : ∀ kind ∈ .name :: TokenKind.keywords.map Prod.snd, kind ≠ .string := by decide
    exact plain _ (TokenKind.wordKind_mem _)
  · rw [cut] at bare
    cases bare
    exact standalone_of_cut nofun again

/-- The text of a token that is read anywhere is read as this token by itself. -/
theorem standalone_of_read {c : Char} {rest : List Char} {kind : TokenKind} {text : String}
    {width : Nat} (read : Lexeme.read c rest = .ok (.token kind text width)) :
    Standalone (kind, text) := by
  have reads := reads_read c rest
  rw [read] at reads
  cases reads with
  | sign found => exact standalone_sign found
  | string => exact standalone_string _
  | number starts same => exact standalone_ofNumber starts same
  | word start same => exact standalone_ofWord start same
  | bare notComment notSign notNumber notWord bare =>
    have goesOn := continuesBare_of_not_sign bare notSign
    rw [bareRun_of_continues goesOn]
    exact standalone_of_cut nofun (read_bareRun notComment notNumber notWord goesOn)

/-! ### Words with single blanks between them -/

/-- Words with single blanks between them, each with its own choice of quotes. -/
def renderAll (quotes : Nat → Quote) (words : List Word) : List Char :=
  [' '].intercalate (words.mapIdx fun index word => word.render (quotes index))

/-- A word that stands alone does so with either quotes. -/
theorem Standalone.readFrom_render {word : Word} (alone : word.Standalone) (quote : Quote) :
    word.ReadFrom (word.render quote) := by
  unfold render
  split
  · exact readFrom_write quote _
  · next kind text notString =>
    rw [Standalone, write, render_asWritten (fun same => notString same)] at alone
    exact alone

theorem renderAll_singleton (quotes : Nat → Quote) (word : Word) :
    renderAll quotes [word] = word.render (quotes 0) :=
  List.intercalate_singleton

theorem renderAll_cons_cons (quotes : Nat → Quote) (word next : Word) (words : List Word) :
    renderAll quotes (word :: next :: words) =
      word.render (quotes 0) ++ ' ' :: renderAll (fun index => quotes (index + 1)) (next :: words) := by
  rw [renderAll, renderAll, List.mapIdx_cons, List.mapIdx_cons,
    List.intercalate_cons_cons, List.append_assoc, List.singleton_append]

/-- Words that stand alone are scanned one by one when a blank divides them. -/
theorem scanFrom_renderAll {words : List Word} (alone : ∀ word ∈ words, word.Standalone)
    (quotes : Nat → Quote) {fuel : Nat} (enough : (renderAll quotes words).length ≤ fuel)
    (place : Position) : ∃ tokens ending, Token.scanFrom fuel place (renderAll quotes words) =
      .ok (tokens ++ [Token.endOfInput ending]) ∧ tokens.map Token.word = words := by
  induction words generalizing quotes fuel place with
  | nil => exact ⟨[], place, by cases fuel <;> rfl, rfl⟩
  | cons word words ih =>
    have first := (alone word (List.mem_cons_self ..)).readFrom_render (quotes 0)
    have positive := first.length_pos
    cases words with
    | nil =>
      rw [renderAll_singleton] at enough ⊢
      obtain ⟨fuel, rfl⟩ : ∃ left, fuel = left + 1 := ⟨fuel - 1, by omega⟩
      exact ⟨[⟨word.1, word.2, place⟩], _, scanFrom_last first fuel place, rfl⟩
    | cons next words =>
      have others := fun other among => alone other (List.mem_cons_of_mem word among)
      rw [renderAll_cons_cons] at enough ⊢
      rw [List.length_append, List.length_cons] at enough
      obtain ⟨fuel, rfl⟩ : ∃ left, fuel = left + 2 := ⟨fuel - 2, by omega⟩
      obtain ⟨tokens, ending, scanned, same⟩ :=
        ih others (fun index => quotes (index + 1)) (by omega : _ ≤ fuel)
          ((place.after (word.render (quotes 0))).after [' '])
      refine ⟨⟨word.1, word.2, place⟩ :: tokens, ending, ?_, by rw [List.map_cons, same]; rfl⟩
      rw [scanFrom_apart first, scanned]
      rfl

/-- A text that is one word has one token. -/
theorem scan_readFrom {word : Word} {piece : List Char} (read : word.ReadFrom piece) :
    ∃ ending, Token.scan (String.ofList piece) =
      .ok [⟨word.1, word.2, .start⟩, Token.endOfInput ending] := by
  have positive := read.length_pos
  obtain ⟨fuel, same⟩ : ∃ left, piece.length = left + 1 := ⟨piece.length - 1, by omega⟩
  refine ⟨Position.start.after piece, ?_⟩
  rw [Token.scan, Token.scanChars, String.toList_ofList, same, scanFrom_last read]

end Word

namespace Token

/-- The tokens before the end of the input are those of other kinds, and they stand alone. -/
theorem scan_standalone {text : String} {tokens : List Token} (scanned : scan text = .ok tokens) :
    ∃ front ending, tokens = front ++ [endOfInput ending] ∧
      tokens.filter (·.kind ≠ .eof) = front ∧ ∀ token ∈ front, token.word.Standalone := by
  obtain ⟨front, ending, rfl, inside⟩ := Word.scanFrom_front scanned
  refine ⟨front, ending, rfl, ?_, ?_⟩
  · have dropped : [endOfInput ending].filter (·.kind ≠ .eof) = [] := rfl
    rw [List.filter_append, dropped, List.append_nil, List.filter_eq_self]
    intro token among
    obtain ⟨c, rest, width, read⟩ := inside token among
    exact decide_eq_true (Lexeme.kind_ne_eof read)
  · intro token among
    obtain ⟨c, rest, width, read⟩ := inside token among
    exact Word.standalone_of_read read

/-- The text of tokens that are written anew: their own texts, and strings in chosen quotes, with
single blanks between them. -/
def rewrite (quotes : Nat → Quote) (tokens : List Token) : String :=
  String.ofList (Word.renderAll quotes ((tokens.filter (·.kind ≠ .eof)).map Token.word))

/-- Tokens that are written anew are scanned to the same kinds and texts, whatever quotes are chosen
for their strings, and so is each of them by itself. Every text can be written as a string with either
quotes. -/
theorem scan_rewrite :
    (∀ text tokens, scan text = .ok tokens →
      (∀ quotes, ∃ again, scan (rewrite quotes tokens) = .ok again ∧
        again.map Token.word = tokens.map Token.word) ∧
      ∀ token ∈ tokens, token.kind ≠ .eof → ∀ quote, ∃ ending,
        scan (String.ofList (token.word.render quote)) =
          .ok [⟨token.kind, token.text, .start⟩, endOfInput ending]) ∧
    ∀ (quote : Quote) (value : String), ∃ ending, scan (String.ofList (quote.write value.toList)) =
      .ok [⟨.string, value, .start⟩, endOfInput ending] := by
  constructor
  · intro text tokens scanned
    obtain ⟨front, ending, rfl, kept, alone⟩ := scan_standalone scanned
    constructor
    · intro quotes
      obtain ⟨again, last, found, same⟩ :=
        Word.scanFrom_renderAll (List.forall_mem_map.mpr alone) quotes (Nat.le_refl _) .start
      refine ⟨again ++ [endOfInput last], ?_, ?_⟩
      · rw [rewrite, kept, scan, String.toList_ofList]
        exact found
      · rw [List.map_append, List.map_append, same]
        rfl
    · intro token among other quote
      have inside : token ∈ front := by
        rw [← kept]
        exact List.mem_filter.mpr ⟨among, decide_eq_true other⟩
      exact Word.scan_readFrom ((alone token inside).readFrom_render quote)
  · intro quote value
    exact Word.scan_readFrom (Word.readFrom_write quote value)

/-- Words of every kind that a bare word can be taken for, and strings in both quotes. -/
def assorted : String :=
  "x a-->b 1_0 3rd 'it\\'s' \"\\n\" // end"

/-- A word of each kind and two strings, whose quotes are exchanged, are scanned to
the same tokens. -/
theorem scan_rewrite_assorted : ∃ tokens again, scan assorted = .ok tokens ∧
    tokens.map Token.word = [(.name, "x"), (.bare, "a-"), (.arrow, "->"), (.name, "b"),
      (.number, "10"), (.bare, "3rd"), (.string, "it's"), (.string, "\n"), (.eof, "")] ∧
    rewrite (fun index => if index = 6 then .double else .single) tokens =
      "x a- -> b 10 3rd \"it's\" '\n'" ∧
    scan "x a- -> b 10 3rd \"it's\" '\n'" = .ok again ∧
    again.map Token.word = tokens.map Token.word := by
  have words : (scan assorted).toOption.map (List.map Token.word) =
      some [(.name, "x"), (.bare, "a-"), (.arrow, "->"), (.name, "b"), (.number, "10"),
        (.bare, "3rd"), (.string, "it's"), (.string, "\n"), (.eof, "")] := by decide +kernel
  have written : (scan assorted).toOption.map
      (rewrite fun index => if index = 6 then .double else .single) =
        some "x a- -> b 10 3rd \"it's\" '\n'" := by decide +kernel
  cases accepted : scan assorted with
  | error fault =>
    rw [accepted] at words
    cases words
  | ok tokens =>
    rw [accepted] at words written
    obtain ⟨again, found, same⟩ := (scan_rewrite.1 assorted tokens accepted).1
      fun index => if index = 6 then .double else .single
    rw [Option.some.inj written] at found
    exact ⟨tokens, again, rfl, Option.some.inj words, Option.some.inj written, found, same⟩

end Token

end ToolPlan
