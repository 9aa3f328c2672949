import ToolPlan.Proofs.Number.Literal
import ToolPlan.Proofs.Number.Nearest

/-!
Which texts are numbers, and which numbers they are. A whole number is a sign that may be left out
and at least one digit (`Decimal.Whole`); a numeral has digits with a point before, among or after
them, or none, and perhaps an exponent (`Decimal.Writes`). The readers accept exactly these texts
and give the values that are written (`int?_eq_some_iff`, `ofChars?_eq_some_iff`).

As a number of a plan a text denotes the whole number it writes if that is a signed word, and
otherwise the binary number nearest to the value of the numeral; a text that is no numeral, and a
numeral beyond the finite numbers, denote nothing (`Number.Denotes`). No text denotes more than one
thing, and every text is read as what it denotes (`Number.denotes_iff`).
-/

namespace ToolPlan

namespace Decimal

/-! ### Notation -/

/-- A sign, which may be left out, and whether it is a minus sign. -/
inductive Sign : Bool → List Char → Prop where
  | absent : Sign false []
  | plus : Sign false ['+']
  | minus : Sign true ['-']

/-- A text that writes a whole number: a sign and at least one digit. -/
inductive Whole : List Char → Int → Prop where
  | intro {negative : Bool} {sign digits : List Char} : Sign negative sign → digits ≠ [] →
      digits.all Char.isDigit →
      Whole (sign ++ digits) (if negative then -(digitsValue digits : Int) else digitsValue digits)

/-- The digits before and after the point of a numeral. The point may be left out if no digits follow
it, and on one of its sides there are digits. -/
inductive Mantissa : List Char → List Char → List Char → Prop where
  | whole {whole : List Char} : whole ≠ [] → whole.all Char.isDigit → Mantissa whole [] whole
  | pointed {whole fraction : List Char} : whole ≠ [] → whole.all Char.isDigit →
      fraction.all Char.isDigit → Mantissa whole fraction (whole ++ '.' :: fraction)
  | fraction {fraction : List Char} : fraction ≠ [] → fraction.all Char.isDigit →
      Mantissa [] fraction ('.' :: fraction)

/-- The power of ten that may follow the digits of a numeral. -/
inductive Exponent : Int → List Char → Prop where
  | absent : Exponent 0 []
  | marked {mark : Char} {power : Int} {text : List Char} : mark = 'e' ∨ mark = 'E' →
      Whole text power → Exponent power (mark :: text)

/-- A text that writes a numeral, with its sign, digits and power of ten. -/
inductive Writes : List Char → Decimal → Prop where
  | intro {negative : Bool} {power : Int} {sign whole fraction mantissa ending : List Char} :
      Sign negative sign → Mantissa whole fraction mantissa → Exponent power ending →
      Writes (sign ++ (mantissa ++ ending))
        ⟨negative, digitsValue (whole ++ fraction), power - fraction.length⟩

/-! ### Signs -/

/-- A sign is split off if there is one, and what was split off can be put back. -/
theorem sign_splitSign (text : List Char) :
    ∃ sign, Sign (splitSign text).1 sign ∧ text = sign ++ (splitSign text).2 := by
  unfold splitSign
  split
  · exact ⟨['-'], .minus, rfl⟩
  · exact ⟨['+'], .plus, rfl⟩
  · exact ⟨[], .absent, rfl⟩

/-- A sign is told apart from what follows it, unless that is a sign too. -/
theorem splitSign_append {negative : Bool} {sign : List Char} (written : Sign negative sign)
    {rest : List Char} (unsigned : rest.head? ≠ some '-' ∧ rest.head? ≠ some '+') :
    splitSign (sign ++ rest) = (negative, rest) := by
  cases written with
  | plus => rfl
  | minus => rfl
  | absent =>
    rw [List.nil_append]
    unfold splitSign
    split
    · exact absurd rfl unsigned.1
    · exact absurd rfl unsigned.2
    · rfl

/-- Digits open with no sign. -/
theorem head?_digits {digits : List Char} (nonempty : digits ≠ []) (all : digits.all Char.isDigit)
    (rest : List Char) :
    (digits ++ rest).head? ≠ some '-' ∧ (digits ++ rest).head? ≠ some '+' := by
  obtain ⟨c, more, rfl⟩ := List.exists_cons_of_ne_nil nonempty
  have digit : c.isDigit := List.all_eq_true.mp all c (List.mem_cons_self ..)
  rw [List.cons_append, List.head?_cons]
  constructor <;> (rintro ⟨⟩; cases digit)

/-! ### Whole numbers -/

/-- The reader of whole numbers accepts exactly the texts that write one. -/
theorem int?_eq_some_iff {text : List Char} {value : Int} :
    int? text = some value ↔ Whole text value := by
  constructor
  · intro read
    obtain ⟨sign, written, split⟩ := sign_splitSign text
    simp only [int?] at read
    split at read
    · cases read
    · next accepted =>
      obtain ⟨nonempty, all⟩ : (splitSign text).2 ≠ [] ∧ (splitSign text).2.all Char.isDigit := by
        simpa using accepted
      obtain rfl := Option.some.inj read
      have whole := Whole.intro written nonempty all
      rw [← split] at whole
      exact whole
  · rintro ⟨written, nonempty, all⟩
    have unsigned := head?_digits nonempty all []
    rw [List.append_nil] at unsigned
    simp only [int?, splitSign_append written unsigned, all, List.isEmpty_eq_false_iff.mpr nonempty]
    rfl

/-! ### Numerals -/

/-- The reader of exponents accepts exactly the texts that write one. -/
theorem exponent?_eq_some_iff {text : List Char} {power : Int} :
    exponent? text = some power ↔ Exponent power text := by
  constructor
  · intro read
    unfold exponent? at read
    split at read
    · obtain rfl := Option.some.inj read
      exact .absent
    · next mark rest =>
      obtain ⟨marked, whole⟩ := Option.ite_none_right_eq_some.mp read
      exact .marked (by simpa using marked) (int?_eq_some_iff.mp whole)
  · intro written
    cases written with
    | absent => rfl
    | marked mark whole =>
      rw [exponent?, if_pos (by simpa using mark)]
      exact int?_eq_some_iff.mpr whole

/-- An exponent continues no digits and opens with no point. -/
theorem Exponent.head? {power : Int} {ending : List Char} (written : Exponent power ending) :
    ∀ c ∈ ending.head?, c.isDigit = false ∧ c ≠ '.' := by
  intro c first
  cases written with
  | absent => cases first
  | marked mark whole =>
    obtain rfl := Option.some.inj first
    rcases mark with rfl | rfl <;> decide

/-- A mantissa opens with no sign. -/
theorem Mantissa.head? {whole fraction mantissa : List Char}
    (written : Mantissa whole fraction mantissa) (ending : List Char) :
    (mantissa ++ ending).head? ≠ some '-' ∧ (mantissa ++ ending).head? ≠ some '+' := by
  cases written with
  | whole nonempty all => exact head?_digits nonempty all ending
  | pointed nonempty all decimals =>
    rw [List.append_assoc]
    exact head?_digits nonempty all _
  | fraction nonempty decimals => exact ⟨by simp, by simp⟩

/-- A mantissa has a digit on one of its sides. -/
theorem Mantissa.digits {whole fraction mantissa : List Char}
    (written : Mantissa whole fraction mantissa) :
    (whole.isEmpty && fraction.isEmpty) = false := by
  cases written with
  | whole nonempty all => simp [nonempty]
  | pointed nonempty all decimals => simp [nonempty]
  | fraction nonempty decimals => simp [nonempty]

/-- The digits of a numeral are cut at its point and before its exponent. -/
theorem span_mantissa {whole fraction mantissa ending : List Char}
    (written : Mantissa whole fraction mantissa)
    (stops : ∀ c ∈ ending.head?, c.isDigit = false ∧ c ≠ '.') :
    (mantissa ++ ending).span Char.isDigit = (whole, (mantissa ++ ending).drop whole.length) ∧
      splitFraction ((mantissa ++ ending).drop whole.length) = (fraction, ending) := by
  have ends : ∀ c ∈ ending.head?, c.isDigit = false := fun c first => (stops c first).1
  cases written with
  | whole nonempty all =>
    rw [List.drop_left]
    refine ⟨span_isDigit all ends, ?_⟩
    unfold splitFraction
    split
    · exact absurd rfl (stops '.' rfl).2
    · rfl
  | pointed nonempty all decimals =>
    rw [List.append_assoc, List.drop_left]
    exact ⟨span_isDigit all (by simp), span_isDigit decimals ends⟩
  | fraction nonempty decimals =>
    exact ⟨span_isDigit (List.all_nil ..) (by simp), span_isDigit decimals ends⟩

/-- What is cut off an unsigned text is a mantissa, unless there are no digits. -/
theorem mantissa_of_span {unsigned whole afterWhole fraction ending : List Char}
    (cut : unsigned.span Char.isDigit = (whole, afterWhole))
    (cutFraction : splitFraction afterWhole = (fraction, ending))
    (digits : (whole.isEmpty && fraction.isEmpty) = false) :
    ∃ mantissa, Mantissa whole fraction mantissa ∧ unsigned = mantissa ++ ending := by
  rw [List.span_eq_takeWhile_dropWhile] at cut
  obtain ⟨rfl, rfl⟩ := Prod.mk.inj cut
  have all := List.all_takeWhile (l := unsigned) (p := Char.isDigit)
  have split := List.takeWhile_append_dropWhile (p := Char.isDigit) (l := unsigned)
  generalize unsigned.takeWhile Char.isDigit = whole at all split digits
  generalize unsigned.dropWhile Char.isDigit = afterWhole at split cutFraction
  subst split
  unfold splitFraction at cutFraction
  split at cutFraction
  · next rest =>
    rw [List.span_eq_takeWhile_dropWhile] at cutFraction
    obtain ⟨rfl, rfl⟩ := Prod.mk.inj cutFraction
    have decimals := List.all_takeWhile (l := rest) (p := Char.isDigit)
    by_cases empty : whole = []
    · subst empty
      refine ⟨_, .fraction (by simpa using digits) decimals, ?_⟩
      rw [List.nil_append, List.cons_append, List.takeWhile_append_dropWhile]
    · refine ⟨_, .pointed empty all decimals, ?_⟩
      rw [List.append_assoc, List.cons_append, List.takeWhile_append_dropWhile]
  · obtain ⟨rfl, rfl⟩ := Prod.mk.inj cutFraction
    exact ⟨whole, .whole (by simpa using digits) all, rfl⟩

/-- The reader of numerals accepts exactly the texts that write one, and gives what they write. -/
theorem ofChars?_eq_some_iff {text : List Char} {d : Decimal} :
    ofChars? text = some d ↔ Writes text d := by
  constructor
  · intro read
    obtain ⟨sign, signed, split⟩ := sign_splitSign text
    rcases cut : (splitSign text).2.span Char.isDigit with ⟨whole, afterWhole⟩
    rcases cutFraction : splitFraction afterWhole with ⟨fraction, ending⟩
    simp only [ofChars?, cut, cutFraction] at read
    split at read
    · cases read
    · next digits =>
      obtain ⟨power, exponent, same⟩ := Option.bind_eq_some_iff.mp read
      obtain rfl := Option.some.inj same
      obtain ⟨mantissa, written, parts⟩ :=
        mantissa_of_span cut cutFraction (Bool.eq_false_of_not_eq_true digits)
      have writes := Writes.intro signed written (exponent?_eq_some_iff.mp exponent)
      rw [← parts, ← split] at writes
      exact writes
  · rintro ⟨signed, written, exponent⟩
    obtain ⟨cut, cutFraction⟩ := span_mantissa written exponent.head?
    simp only [ofChars?, splitSign_append signed (written.head? _), cut, cutFraction,
      written.digits, exponent?_eq_some_iff.mpr exponent]
    rfl

end Decimal

theorem Decimal.Whole.writes {text : List Char} {value : Int} (whole : Decimal.Whole text value) :
    ∃ d, Decimal.Writes text d := by
  obtain ⟨sign, nonempty, all⟩ := whole
  have writes := Decimal.Writes.intro sign (.whole nonempty all) .absent
  rw [List.append_nil] at writes
  exact ⟨_, writes⟩

/-- A text writes one whole number at most, as the reader is a function. -/
theorem Decimal.Whole.unique {text : List Char} {a b : Int} (first : Decimal.Whole text a)
    (second : Decimal.Whole text b) : a = b :=
  Option.some.inj ((Decimal.int?_eq_some_iff.mpr first).symm.trans
    (Decimal.int?_eq_some_iff.mpr second))

theorem Decimal.Writes.unique {text : List Char} {a b : Decimal} (first : Decimal.Writes text a)
    (second : Decimal.Writes text b) : a = b :=
  Option.some.inj ((Decimal.ofChars?_eq_some_iff.mpr first).symm.trans
    (Decimal.ofChars?_eq_some_iff.mpr second))

/-- The numerals that a plan text may hold are numerals. -/
theorem Numeral.writes {text : List Char} (numeral : Numeral text) :
    ∃ d, Decimal.Writes text d := by
  have signed (negative : Bool) (body : List Char) : ∃ sign, Decimal.Sign negative sign ∧
      Numeral.signed negative body = sign ++ (body ++ []) := by
    rw [List.append_nil]
    cases negative with
    | false => exact ⟨[], .absent, rfl⟩
    | true => exact ⟨['-'], .minus, rfl⟩
  cases numeral with
  | whole negative nonempty all =>
    obtain ⟨sign, written, same⟩ := signed negative _
    rw [same]
    exact ⟨_, .intro written (.whole nonempty all) .absent⟩
  | pointed negative nonempty all decimals =>
    obtain ⟨sign, written, same⟩ := signed negative _
    rw [same]
    exact ⟨_, .intro written (.pointed nonempty all decimals) .absent⟩

namespace Number

/-! ### What a text denotes -/

/-- The number that a text denotes: the whole number it writes, if that is a signed word; otherwise the
finite binary number nearest to its value, with its sign; and otherwise nothing. -/
inductive Denotes (text : List Char) : Option Number → Prop where
  | word {value : Int} : Decimal.Whole text value → isWord value = true →
      Denotes text (some (int value))
  | nearest {d : Decimal} {x : Binary64} :
      (∀ value, Decimal.Whole text value → isWord value = false) → Decimal.Writes text d →
      |d.value| < Decimal.overflow → x.negative = d.negative → x.Nearest d.value →
      Denotes text (some (float x))
  | beyond {d : Decimal} : (∀ value, Decimal.Whole text value → isWord value = false) →
      Decimal.Writes text d → Decimal.overflow ≤ |d.value| → Denotes text none
  | other : (∀ d, ¬ Decimal.Writes text d) → Denotes text none

/-- What is read is what the text denotes, and a text that is not read denotes nothing. -/
theorem denotes_ofChars? (text : List Char) : Denotes text (ofChars? text) := by
  unfold ofChars?
  split
  · next value found =>
    obtain ⟨whole, word⟩ := Option.filter_eq_some_iff.mp found
    exact .word (Decimal.int?_eq_some_iff.mp whole) word
  · next notWord =>
    have noWord : ∀ value, Decimal.Whole text value → isWord value = false := by
      intro value whole
      rw [Decimal.int?_eq_some_iff.mpr whole, Option.filter_some, ite_eq_right_iff] at notWord
      rw [Bool.eq_false_iff]
      intro word
      cases notWord word
    cases read : Decimal.ofChars? text with
    | none =>
      refine .other fun d writes => ?_
      rw [Decimal.ofChars?_eq_some_iff.mpr writes] at read
      cases read
    | some d =>
      have writes := Decimal.ofChars?_eq_some_iff.mp read
      rw [Option.bind_some]
      cases rounded : d.toBinary64? with
      | none => exact .beyond noWord writes ((Decimal.toBinary64?_eq_none_iff d).mp rounded)
      | some x =>
        obtain ⟨sign, nearest⟩ := Decimal.toBinary64?_nearest rounded
        refine .nearest noWord writes ?_ sign nearest
        rw [← not_le, ← Decimal.toBinary64?_eq_none_iff, rounded]
        exact nofun

/-- Every text is read as the number it denotes. -/
theorem denotes_ofText? (text : String) : Denotes text.toList (ofText? text) :=
  denotes_ofChars? text.toList

/-- A text that writes a word is told apart from all others. -/
theorem Denotes.of_word {text : List Char} {value : Int} {result : Option Number}
    (whole : Decimal.Whole text value) (word : isWord value = true)
    (denotes : Denotes text result) : result = some (int value) := by
  have noWord (others : ∀ value, Decimal.Whole text value → isWord value = false) : False := by
    have refused := others value whole
    rw [word] at refused
    cases refused
  cases denotes with
  | word other => rw [other.unique whole]
  | nearest others => exact (noWord others).elim
  | beyond others => exact (noWord others).elim
  | other unwritten =>
    obtain ⟨d, writes⟩ := whole.writes
    exact absurd writes (unwritten d)

/-- Where a numeral is finite and no word, the nearest number with its sign is the only one that can
be meant. -/
theorem Denotes.of_finite {text : List Char} {d : Decimal} {x : Binary64} {result : Option Number}
    (others : ∀ value, Decimal.Whole text value → isWord value = false)
    (writes : Decimal.Writes text d) (finite : |d.value| < Decimal.overflow)
    (sign : x.negative = d.negative) (nearest : x.Nearest d.value) (denotes : Denotes text result) :
    result = some (float x) := by
  cases denotes with
  | word whole word =>
    rw [others _ whole] at word
    cases word
  | nearest _ other _ otherSign otherNearest =>
    obtain rfl := other.unique writes
    rw [otherNearest.unique nearest (otherSign.trans sign.symm)]
  | beyond _ other beyond =>
    obtain rfl := other.unique writes
    exact absurd beyond (not_le.mpr finite)
  | other unwritten => exact absurd writes (unwritten d)

/-- A text denotes one number at most: the three cases exclude each other, and the nearest number is
unique. -/
theorem Denotes.unique {text : List Char} {a b : Option Number} (first : Denotes text a)
    (second : Denotes text b) : a = b := by
  -- A number that either of them is forces the other one, and nothing is one thing only.
  have forced {x : Number} {result : Option Number} (denoted : Denotes text (some x))
      (denotes : Denotes text result) : result = some x := by
    cases denoted with
    | word whole word => exact denotes.of_word whole word
    | nearest others writes finite sign nearest =>
      exact denotes.of_finite others writes finite sign nearest
  cases a with
  | some x => exact (forced first second).symm
  | none =>
    cases b with
    | some y => exact forced second first
    | none => rfl

/-- A text denotes what it is read as, and nothing else. -/
theorem denotes_iff (text : String) (result : Option Number) :
    Denotes text.toList result ↔ ofText? text = result := by
  constructor
  · exact (denotes_ofText? text).unique
  · rintro rfl
    exact denotes_ofText? text

/-- A signed word is read back from its digits. -/
theorem ofText?_renderInt {value : Int} (word : isWord value = true) :
    ofText? (renderInt value) = some (int value) :=
  @ofText?_literal (int value) word

/-- A numeral that denotes nothing has a value beyond the finite numbers. -/
theorem beyond_of_ofText? {text : String} {d : Decimal} (writes : Decimal.Writes text.toList d)
    (nothing : ofText? text = none) : Decimal.overflow ≤ |d.value| := by
  have denotes := denotes_ofText? text
  rw [nothing] at denotes
  cases denotes with
  | beyond noWord other beyond =>
    obtain rfl := other.unique writes
    exact beyond
  | other unwritten => exact absurd writes (unwritten d)

end Number

end ToolPlan
