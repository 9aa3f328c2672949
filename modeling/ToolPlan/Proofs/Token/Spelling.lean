import Mathlib.Data.List.TakeWhile
import ToolPlan.Proofs.Token.Apart

/-!
How tokens are spelled. What is read at a character is one of a few things (`Lexeme.Reads`). A token
covers a span of characters: its text is the span as written, but for the underscores of numbers and
for the quotes and escapes of strings, and a word is as long as it can be (`Lexeme.read_spelled`). What
is read and is no token is a blank or a comment (`Lexeme.read_filler`).
-/

namespace ToolPlan

/-- The kinds of tokens that are words: names, numbers, bare words and the reserved words. -/
def TokenKind.wordKinds : List TokenKind :=
  .name :: .number :: .bare :: keywords.map Prod.snd

/-- Reserved words have kinds of their own. -/
theorem TokenKind.keyword?_mem {word : String} {kind : TokenKind}
    (reserved : keyword? word = some kind) : kind ∈ keywords.map Prod.snd :=
  List.mem_map.mpr ⟨_, Entries.mem_of_get? reserved, rfl⟩

/-- A word that stands for no other kind of token is a name or reserved. -/
theorem TokenKind.wordKind_mem (word : String) :
    (keyword? word).getD .name ∈ .name :: keywords.map Prod.snd := by
  cases reserved : keyword? word with
  | none => exact List.mem_cons_self ..
  | some kind => exact List.mem_cons_of_mem _ (keyword?_mem reserved)

namespace Lexeme

/-! ### Where words end -/

/-- A word ends where the text ends, before a character that no bare word has, and before an
arrow. -/
def WordEnds (after : List Char) : Prop :=
  after = [] ∨ (∃ c rest, after = c :: rest ∧ isBareChar c = false) ∨
    ∃ rest, after = '-' :: '>' :: rest

theorem wordEnds_of_stop {after : List Char} (stops : continuesBare after = false) :
    WordEnds after := by
  unfold continuesBare at stops
  split at stops
  · exact .inl rfl
  · exact .inr (.inr ⟨_, rfl⟩)
  · exact .inr (.inl ⟨_, _, rfl, stops⟩)

/-- A bare word is what is taken, and it ends before what is left. -/
theorem bareRun_split (chars : List Char) :
    ∃ after, chars = bareRun chars ++ after ∧ continuesBare after = false := by
  induction chars with
  | nil => exact ⟨[], rfl, rfl⟩
  | cons c rest ih =>
    rw [bareRun]
    split
    · obtain ⟨after, same, stops⟩ := ih
      exact ⟨after, congrArg (c :: ·) same, stops⟩
    · next stops => exact ⟨c :: rest, rfl, Bool.eq_false_iff.mpr stops⟩

/-! ### Spans -/

/-- The text of a token of a kind, by the characters it covers. -/
def Spells (kind : TokenKind) (text : String) (span : List Char) : Prop :=
  match kind with
  | .number => text.toList = span.filter (· ≠ '_')
  | .string => ∃ (quote : Quote) (raw : List Char),
      span = quote.mark :: (raw ++ [quote.mark]) ∧ quote.Unescapes raw text.toList
  | _ => text.toList = span

/-- A word other than a string or a number is written as its text. -/
theorem spells_asWritten {kind : TokenKind} {text : String} {span : List Char}
    (notString : kind ≠ .string) (notNumber : kind ≠ .number) :
    Spells kind text span ↔ text.toList = span := by
  unfold Spells
  split
  · exact absurd rfl notNumber
  · exact absurd rfl notString
  · rfl

/-- A token of a kind and text covers a span, and what follows does not belong to it. -/
structure Spelled (kind : TokenKind) (text : String) (span after : List Char) : Prop where
  nonempty : span ≠ []
  spells : Spells kind text span
  ends : kind ∈ TokenKind.wordKinds → WordEnds after

/-- What stands between tokens: a blank, or a comment, which reaches up to the end of its line. -/
inductive Filler : List Char → List Char → Prop where
  | blank {c after} : isGapChar c = true → Filler [c] after
  | comment {body after} : '\n' ∉ body → (∀ c ∈ after.head?, c = '\n') →
      Filler ('/' :: '/' :: body) after

theorem Filler.length_pos {skipped after : List Char} (filler : Filler skipped after) :
    0 < skipped.length := by
  cases filler <;> exact Nat.succ_pos _

/-! ### What can be read -/

/-- What is read at a character, by the characters that follow it. The order of the cases is that in
which they are tried, and a case says of the earlier ones what matters. -/
inductive Reads (c : Char) (rest : List Char) : Except LexemeFault Lexeme → Prop where
  | blank : isGapChar c = true → Reads c rest (.ok (.gap 1))
  | comment : c = '/' → rest.head? = some '/' →
      Reads c rest (.ok (.gap (1 + (rest.takeWhile (· ≠ '\n')).length)))
  | sign {kind text} : sign? c rest = some (kind, text) →
      Reads c rest (.ok (.token kind text text.length))
  | string {quote text count} : c = Quote.mark quote → quote.content rest = some (text, count) →
      Reads c rest (.ok (.token .string (String.ofList text) (count + 1)))
  | unterminated {quote} : c = Quote.mark quote → quote.content rest = none →
      Reads c rest (.error .unterminated)
  | number {lexeme} : startsNumber c rest = true → ofNumber c rest = lexeme →
      Reads c rest (.ok lexeme)
  | word {lexeme} : isWordStart c = true → ofWord (c :: rest) = lexeme → Reads c rest (.ok lexeme)
  | bare : ¬ (c = '/' ∧ rest.head? = some '/') → sign? c rest = none →
      startsNumber c rest = false → isWordStart c = false → isBareChar c = true →
      Reads c rest
        (.ok (.token .bare (String.ofList (bareRun (c :: rest))) (bareRun (c :: rest)).length))
  | unexpected : isGapChar c = false → sign? c rest = none → (∀ quote, c ≠ Quote.mark quote) →
      isBareChar c = false → Reads c rest (.error (.unexpected c))

/-- A string is read up to its mark or not at all. -/
theorem reads_string {c : Char} {quote : Quote} (opens : c = quote.mark) (rest : List Char) :
    Reads c rest (ofString (quote.content rest)) := by
  cases closed : quote.content rest with
  | none => exact .unterminated opens closed
  | some result => exact .string opens closed

/-- Every piece is read in one of these ways. The cases follow the order in which the characters are
tried. -/
theorem reads_read (c : Char) (rest : List Char) : Reads c rest (Lexeme.read c rest) := by
  unfold Lexeme.read
  split
  · next gap => exact .blank gap
  · next notGap =>
    split
    · next comment =>
      simp only [Bool.and_eq_true, decide_eq_true_eq] at comment
      exact .comment comment.1 comment.2
    · next notComment =>
      simp only [Bool.and_eq_true, decide_eq_true_eq] at notComment
      split
      · next found => exact .sign found
      · next notSign =>
        split
        · next opens => exact @reads_string c .double opens rest
        · next notDouble =>
          split
          · next opens => exact @reads_string c .single opens rest
          · next notSingle =>
            split
            · next starts => exact .number starts rfl
            · next notNumber =>
              split
              · next start => exact .word start rfl
              · next notWord =>
                split
                · next bare =>
                  exact .bare notComment notSign (Bool.eq_false_iff.mpr notNumber)
                    (Bool.eq_false_iff.mpr notWord) bare
                · next notBare =>
                  refine .unexpected (Bool.eq_false_iff.mpr notGap) notSign ?_
                    (Bool.eq_false_iff.mpr notBare)
                  intro quote
                  cases quote with
                  | double => exact notDouble
                  | single => exact notSingle

/-! ### Signs -/

/-- A sign is written as it is read, and is of no kind that words have. -/
theorem sign?_spec {c : Char} {rest : List Char} {kind : TokenKind} {text : String}
    (found : sign? c rest = some (kind, text)) :
    text.toList <+: c :: rest ∧ text.toList ≠ [] ∧ kind ∉ .string :: .eof :: TokenKind.wordKinds := by
  unfold sign? at found
  split at found <;> cases found <;> exact ⟨⟨_, rfl⟩, by decide, by decide⟩

/-! ### Words -/

theorem isWordChar_of_isWordStart {c : Char} (start : isWordStart c) : isWordChar c := by
  simp only [isWordStart, isWordChar, Bool.or_eq_true] at start ⊢
  exact start.imp_left .inl

/-- The sign, the digits and the point of a number. -/
def numberRun (c : Char) (rest : List Char) : List Char :=
  if c = '-' then '-' :: numeralRun true rest else numeralRun true (c :: rest)

theorem ofNumber_eq (c : Char) (rest : List Char) : ofNumber c rest =
    bareOr (numberRun c rest) ((c :: rest).drop (numberRun c rest).length)
      (.token .number (String.ofList ((numberRun c rest).filter (· ≠ '_')))
        (numberRun c rest).length) := rfl

theorem numberRun_isPrefix (c : Char) (rest : List Char) : numberRun c rest <+: c :: rest := by
  unfold numberRun
  split
  · next minus =>
    rw [minus]
    exact (List.prefix_cons_inj '-').mpr (numeralRun_isPrefix true rest)
  · exact numeralRun_isPrefix true (c :: rest)

theorem numberRun_ne_nil {c : Char} {rest : List Char} (starts : startsNumber c rest = true) :
    numberRun c rest ≠ [] := by
  unfold numberRun
  split
  · exact List.cons_ne_nil _ _
  · next notMinus =>
    have digit : c.isDigit = true := by simpa [startsNumber, notMinus] using starts
    simp [numeralRun, digit]

/-- A run stands for itself when no bare word follows it, and otherwise is a part of one. -/
theorem bareOr_cases {run after : List Char} {whole lexeme : Lexeme}
    (read : bareOr run after whole = lexeme) : whole = lexeme ∧ continuesBare after = false ∨
      .token .bare (String.ofList (run ++ bareRun after)) (run ++ bareRun after).length = lexeme := by
  unfold bareOr at read
  split at read
  · exact .inr read
  · next stops => exact .inl ⟨read, Bool.eq_false_iff.mpr stops⟩

/-- A run that is read as a word or number covers its characters, and a bare word that it turns into
covers these and more. -/
theorem bareOr_spelled {run chars : List Char} (start : run <+: chars) (nonempty : run ≠ [])
    {whole kind : TokenKind} {word text : String} {width : Nat} (spells : Spells whole word run)
    (read : bareOr run (chars.drop run.length) (.token whole word run.length) =
      .token kind text width) :
    ∃ span after, chars = span ++ after ∧ width = span.length ∧ Spelled kind text span after := by
  obtain ⟨after, rfl⟩ := start
  rw [List.drop_left] at read
  rcases bareOr_cases read with ⟨itself, stops⟩ | bare
  · cases itself
    exact ⟨run, after, rfl, rfl, nonempty, spells, fun _ => wordEnds_of_stop stops⟩
  · cases bare
    obtain ⟨left, same, stops⟩ := bareRun_split after
    refine ⟨run ++ bareRun after, left, ?_, rfl, ?_, String.toList_ofList, ?_⟩
    · rw [List.append_assoc, ← same]
    · exact List.append_ne_nil_of_left_ne_nil nonempty _
    · exact fun _ => wordEnds_of_stop stops

/-- A number covers its run, or the whole bare word if that goes on. -/
theorem ofNumber_spelled {c : Char} {rest : List Char} (starts : startsNumber c rest = true)
    {kind : TokenKind} {text : String} {width : Nat} (read : ofNumber c rest = .token kind text width) :
    ∃ span after, c :: rest = span ++ after ∧ width = span.length ∧ Spelled kind text span after := by
  rw [ofNumber_eq] at read
  have spells : Spells .number (String.ofList ((numberRun c rest).filter (· ≠ '_')))
      (numberRun c rest) := String.toList_ofList
  exact bareOr_spelled (numberRun_isPrefix c rest) (numberRun_ne_nil starts) spells read

/-- A word covers its run, or the whole bare word if that goes on. -/
theorem ofWord_spelled {c : Char} {rest : List Char} (start : isWordStart c = true)
    {kind : TokenKind} {text : String} {width : Nat}
    (read : ofWord (c :: rest) = .token kind text width) :
    ∃ span after, c :: rest = span ++ after ∧ width = span.length ∧ Spelled kind text span after := by
  have nonempty : (c :: rest).takeWhile isWordChar ≠ [] := by
    rw [List.takeWhile_cons_of_pos (isWordChar_of_isWordStart start)]
    exact List.cons_ne_nil _ _
  have reserved := TokenKind.wordKind_mem (String.ofList ((c :: rest).takeWhile isWordChar))
  have plain : ∀ kind ∈ .name :: TokenKind.keywords.map Prod.snd,
      kind ≠ .string ∧ kind ≠ .number := by decide
  obtain ⟨notString, notNumber⟩ := plain _ reserved
  refine bareOr_spelled (List.takeWhile_prefix isWordChar) nonempty ?_ read
  exact (spells_asWritten notString notNumber).mpr String.toList_ofList

/-- Where no sign is read, a bare word takes the first character. -/
theorem continuesBare_of_not_sign {c : Char} {rest : List Char} (bare : isBareChar c = true)
    (notSign : sign? c rest = none) : continuesBare (c :: rest) = true := by
  have notArrow : ¬ (c = '-' ∧ rest.head? = some '>') := by
    rintro ⟨rfl, next⟩
    obtain ⟨after, rfl⟩ : ∃ after, rest = '>' :: after := List.head?_eq_some_iff.mp next
    cases notSign
  exact continuesBare_iff.mpr ⟨bare, notArrow⟩

/-! ### Tokens and gaps -/

/-- A token covers a span that spells it, and a word is as long as it can be. -/
theorem read_spelled {c : Char} {rest : List Char} {kind : TokenKind} {text : String} {width : Nat}
    (read : Lexeme.read c rest = .ok (.token kind text width)) :
    ∃ span after, c :: rest = span ++ after ∧ width = span.length ∧ Spelled kind text span after := by
  have reads := reads_read c rest
  rw [read] at reads
  cases reads with
  | sign found =>
    obtain ⟨⟨after, same⟩, nonempty, other⟩ := sign?_spec found
    have notString : kind ≠ .string := List.ne_of_not_mem_cons other
    have notWord := List.not_mem_of_not_mem_cons (List.not_mem_of_not_mem_cons other)
    have notNumber : kind ≠ .number := by
      rintro rfl
      exact notWord (by decide)
    exact ⟨text.toList, after, same.symm, String.length_toList.symm, nonempty,
      (spells_asWritten notString notNumber).mpr rfl, fun word => absurd word notWord⟩
  | @string quote content count opens closed =>
    obtain ⟨raw, after, rfl, unescapes, rfl⟩ := Quote.unescapes_of_content closed
    refine ⟨quote.mark :: (raw ++ [quote.mark]), after, ?_, ?_, List.cons_ne_nil _ _, ?_, nofun⟩
    · rw [opens, List.cons_append, List.append_assoc, List.singleton_append]
    · rw [List.length_cons, List.length_append, List.length_singleton]
    · refine ⟨quote, raw, rfl, ?_⟩
      rw [String.toList_ofList]
      exact unescapes
  | number starts same => exact ofNumber_spelled starts same
  | word start same => exact ofWord_spelled start same
  | bare notComment notSign notNumber notWord bare =>
    obtain ⟨after, same, stops⟩ := bareRun_split (c :: rest)
    refine ⟨bareRun (c :: rest), after, same, rfl, ?_, String.toList_ofList,
      fun _ => wordEnds_of_stop stops⟩
    rw [bareRun, if_pos (continuesBare_of_not_sign bare notSign)]
    exact List.cons_ne_nil _ _

/-- The tokens other than strings and numbers have the text they cover. -/
theorem read_asWritten {c : Char} {rest : List Char} {kind : TokenKind} {text : String}
    {width : Nat} (read : Lexeme.read c rest = .ok (.token kind text width))
    (notString : kind ≠ .string) (notNumber : kind ≠ .number) :
    text.toList <+: c :: rest ∧ width = text.toList.length := by
  obtain ⟨span, after, same, rfl, -, spells, -⟩ := read_spelled read
  rw [(spells_asWritten notString notNumber).mp spells, same]
  exact ⟨List.prefix_append .., rfl⟩

/-- What began as a word of some kind stays of that kind or becomes a bare word. -/
theorem bareOr_kind {run after : List Char} {whole kind : TokenKind} {word text : String}
    {size width : Nat} (read : bareOr run after (.token whole word size) = .token kind text width) :
    kind = whole ∨ kind = .bare := by
  rcases bareOr_cases read with ⟨itself, -⟩ | bare
  · cases itself
    exact .inl rfl
  · cases bare
    exact .inr rfl

/-- No piece of a text is the end of the input. -/
theorem kind_ne_eof {c : Char} {rest : List Char} {kind : TokenKind} {text : String} {width : Nat}
    (read : Lexeme.read c rest = .ok (.token kind text width)) : kind ≠ .eof := by
  have words : ∀ kind ∈ .bare :: .number :: .name :: TokenKind.keywords.map Prod.snd,
      kind ≠ .eof := by decide
  have reads := reads_read c rest
  rw [read] at reads
  cases reads with
  | sign found =>
    obtain ⟨-, -, other⟩ := sign?_spec found
    exact List.ne_of_not_mem_cons (List.not_mem_of_not_mem_cons other)
  | string opens closed => decide
  | number starts same => rcases bareOr_kind same with rfl | rfl <;> decide
  | word start same =>
    rcases bareOr_kind same with rfl | rfl
    · exact words _ (List.mem_cons_of_mem _ (List.mem_cons_of_mem _ (TokenKind.wordKind_mem _)))
    · decide
  | bare => decide

theorem bareOr_ne_gap {run after : List Char} {kind : TokenKind} {text : String}
    {width gapWidth : Nat} : bareOr run after (.token kind text width) ≠ .gap gapWidth := by
  intro gap
  rcases bareOr_cases gap with ⟨itself, -⟩ | bare
  · cases itself
  · cases bare

/-- A gap is a blank or a comment. -/
theorem read_filler {c : Char} {rest : List Char} {width : Nat}
    (read : Lexeme.read c rest = .ok (.gap width)) :
    ∃ skipped after, c :: rest = skipped ++ after ∧ width = skipped.length ∧
      Filler skipped after := by
  have reads := reads_read c rest
  rw [read] at reads
  cases reads with
  | blank gap => exact ⟨[c], rest, rfl, rfl, .blank gap⟩
  | comment slash second =>
    obtain ⟨body, rfl⟩ : ∃ body, rest = '/' :: body := List.head?_eq_some_iff.mp second
    refine ⟨'/' :: '/' :: body.takeWhile (· ≠ '\n'), body.dropWhile (· ≠ '\n'), ?_, ?_, ?_⟩
    · rw [slash, List.cons_append, List.cons_append, List.takeWhile_append_dropWhile]
    · rw [List.takeWhile_cons_of_pos (by decide), List.length_cons, List.length_cons,
        List.length_cons]
      omega
    · apply Filler.comment
      · intro newline
        exact absurd (List.mem_takeWhile_imp newline) (by decide)
      · intro d next
        have stops := List.head?_dropWhile_not (· ≠ '\n') body
        rw [Option.mem_def.mp next] at stops
        simpa using stops
  | number starts same => exact absurd same bareOr_ne_gap
  | word start same => exact absurd same bareOr_ne_gap

end Lexeme

end ToolPlan
