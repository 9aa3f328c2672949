import ToolPlan.Proofs.Grammar.Sound
import ToolPlan.Proofs.Number.Text
import ToolPlan.Proofs.Token.Words

/-!
Which numbers of a text are refused. A reader of the grammar refuses a number at one place only, where
a value is expected and the text of the next token denotes nothing. So whatever is read, a number that
is refused is one of the tokens (`Ranging`), which passes from the parts of a reader to the whole.

The number tokens of a text are numerals, and a numeral denotes a number unless its value lies beyond
the finite ones. Main statement: `Plan.numbers_denoted`.
-/

namespace ToolPlan

namespace Grammar

variable {α β : Type}

/-! ### Readers and the numbers they refuse -/

/-- A result of reading some of the given tokens: what is left is among them, and a number that is
refused is one of them and denotes nothing. -/
structure Ranged (whole : List Token) (result : Except PlanError (α × List Token)) : Prop where
  left : ∀ ⦃meaning rest⦄, result = .ok (meaning, rest) → rest ⊆ whole
  refused : ∀ ⦃literal⦄, result = .error (.numberOutOfRange literal) →
    literal ∈ whole ∧ literal.kind = .number ∧ Number.ofText? literal.text = none

/-- A reader with such results. -/
def Ranging (reader : TokenReader α) : Prop :=
  ∀ ⦃whole tokens⦄, tokens ⊆ whole → Ranged whole (reader tokens)

namespace Ranged

variable {whole : List Token}

theorem ok {rest : List Token} (meaning : α) (inside : rest ⊆ whole) :
    Ranged whole (.ok (meaning, rest)) where
  left := by
    rintro _ _ ⟨⟩
    exact inside
  refused := nofun

/-- A token that is taken leaves tokens that were there before. -/
theorem take {token : Token} {rest : List Token} (meaning : α) (inside : token :: rest ⊆ whole) :
    Ranged whole (.ok (meaning, rest)) :=
  ok meaning (List.subset_of_cons_subset inside)

/-- Another error says nothing about numbers. -/
theorem error {fault : PlanError} (other : ∀ literal, fault ≠ .numberOutOfRange literal) :
    Ranged whole (.error fault : Except PlanError (α × List Token)) where
  left := nofun
  refused := by
    rintro literal ⟨⟩
    exact absurd rfl (other literal)

theorem unexpected (eof : Token) (expected : Expectation) (tokens : List Token) :
    Ranged whole (Grammar.unexpected eof expected tokens : Except PlanError (α × List Token)) :=
  error nofun

/-- Parts read one after the other. -/
theorem bind {first : Except PlanError (α × List Token)}
    {next : α × List Token → Except PlanError (β × List Token)} (ranged : Ranged whole first)
    (continues : ∀ meaning rest, rest ⊆ whole → Ranged whole (next (meaning, rest))) :
    Ranged whole (first >>= next) := by
  cases first with
  | error fault =>
    refine ⟨nofun, ?_⟩
    rintro literal ⟨⟩
    exact ranged.refused rfl
  | ok read =>
    obtain ⟨meaning, rest⟩ := read
    exact continues meaning rest (ranged.left rfl)

end Ranged

/-! ### Values -/

section Skipping

variable {whole tokens : List Token}

theorem skip_inside (kind : TokenKind) (inside : tokens ⊆ whole) : skip kind tokens ⊆ whole :=
  fun _ among => inside ((List.dropWhile_suffix _).subset among)

theorem skipComma_inside (inside : tokens ⊆ whole) : skipComma tokens ⊆ whole := by
  unfold skipComma
  split
  · exact List.subset_of_cons_subset inside
  · exact inside

end Skipping

theorem expect_ranging (eof : Token) (kind : TokenKind) (expected : Expectation) :
    Ranging (expect eof kind expected) := by
  intro whole tokens inside
  unfold expect
  split
  · split
    · exact .take _ inside
    · exact .unexpected ..
  · exact .unexpected ..

theorem descend_ranging (eof : Token) {inner : Option (TokenReader α)}
    (ranging : ∀ reader ∈ inner, Ranging reader) : Ranging (descend eof inner) := by
  intro whole tokens inside
  cases inner with
  | none => exact .error nofun
  | some reader => exact ranging reader rfl inside

theorem path_ranging (eof : Token) : Ranging (path eof) := by
  intro whole tokens inside
  fun_induction path eof tokens with
  | case1 => exact .unexpected ..
  | case2 _ _ _ _ _ _ _ _ rest ih =>
    refine (ih ?_).bind fun _ _ left => .ok _ left
    intro token among
    exact inside (by simp [among])
  | case3 => exact .unexpected ..
  | case4 _ _ _ _ _ _ rest ih =>
    refine (ih ?_).bind fun _ _ left => .ok _ left
    intro token among
    exact inside (by simp [among])
  | case5 => exact .unexpected ..
  | case6 => exact .unexpected ..
  | case7 => exact .ok _ inside

section Values

variable {eof : Token} {item : TokenReader Expr}

/-- Every entry leaves tokens that were there, so the rounds do too. -/
theorem listing_ranging {entry : TokenReader α} (ranging : Ranging entry) (close : TokenKind)
    (expected : Expectation) (fuel : Nat) : Ranging (listing eof close expected entry fuel) := by
  induction fuel with
  | zero =>
    intro whole tokens inside
    exact .unexpected ..
  | succ fuel ih =>
    intro whole tokens inside
    have skipped := skip_inside .newline inside
    unfold listing
    split
    · exact .ok _ (List.Subset.trans (List.tail_subset _) skipped)
    · refine (ranging skipped).bind fun first after left => ?_
      have next := skipComma_inside (skip_inside .newline left)
      exact (ih next).bind fun _ _ left => .ok _ left

theorem mapKey_ranging : Ranging (mapKey eof) := by
  intro whole tokens inside
  unfold mapKey
  split
  · exact (expect_ranging _ _ _ (List.subset_of_cons_subset inside)).bind fun _ _ left => .ok _ left
  · exact (expect_ranging _ _ _ (List.subset_of_cons_subset inside)).bind fun _ _ left => .ok _ left
  · exact .unexpected ..

theorem mapField_ranging (ranging : Ranging item) : Ranging (mapField eof item) := by
  intro whole tokens inside
  refine (mapKey_ranging inside).bind fun key afterKey left => ?_
  exact (ranging left).bind fun _ _ left => .ok _ left

theorem opened_ranging {inner : Option (TokenReader α)}
    (ranging : ∀ reader ∈ inner, Ranging reader) : Ranging (opened eof inner) := by
  refine descend_ranging eof fun reader deeper => ?_
  obtain ⟨inside, among, rfl⟩ := Option.mem_map.mp deeper
  intro whole tokens subset
  exact ranging inside among (List.Subset.trans (List.drop_subset 1 tokens) subset)

/-- A number is refused here, and nowhere else. -/
theorem valueWith_ranging {inner : Option (TokenReader Expr)}
    (ranging : ∀ reader ∈ inner, Ranging reader) : Ranging (valueWith eof inner) := by
  intro whole tokens inside
  unfold valueWith
  split
  · have rest := List.subset_of_cons_subset inside
    refine (expect_ranging _ _ _ rest).bind fun name afterName left => ?_
    exact (path_ranging eof left).bind fun _ _ left => .ok _ left
  · next text place rest =>
    split
    · exact .take _ inside
    · next nothing =>
      refine ⟨nofun, ?_⟩
      rintro literal ⟨⟩
      exact ⟨inside (List.mem_cons_self ..), rfl, nothing⟩
  · exact .take _ inside
  · exact .take _ inside
  · exact .take _ inside
  · exact .take _ inside
  · exact .take _ inside
  · exact .take _ inside
  · refine opened_ranging (fun reader deeper => ?_) inside
    obtain ⟨item, among, rfl⟩ := Option.mem_map.mp deeper
    intro whole tokens inside
    refine Ranged.bind ?_ fun _ _ left => .ok _ left
    rw [arrayItems_eq]
    exact listing_ranging (ranging item among) _ _ _ inside
  · refine opened_ranging (fun reader deeper => ?_) inside
    obtain ⟨item, among, rfl⟩ := Option.mem_map.mp deeper
    intro whole tokens inside
    refine Ranged.bind ?_ fun _ _ left => .ok _ left
    rw [mapEntries_eq]
    exact listing_ranging (mapField_ranging (ranging item among)) _ _ _ inside
  · exact .unexpected ..

end Values

/-- By induction on the levels. The only number that can be refused is the token just taken. -/
theorem value_ranging (eof : Token) (levels : Nat) : Ranging (value eof levels) := by
  induction levels with
  | zero => exact valueWith_ranging nofun
  | succ levels ih =>
    refine valueWith_ranging ?_
    rintro _ ⟨⟩
    exact ih

/-! ### Conditions -/

theorem comparison_ranging (eof : Token) {operand : TokenReader Expr} (ranging : Ranging operand) :
    Ranging (comparison eof operand) := by
  intro whole tokens inside
  refine (ranging inside).bind fun first afterFirst left => ?_
  refine (expect_ranging _ _ _ left).bind fun sign afterSign left => ?_
  dsimp only
  split
  · exact .error nofun
  · exact (ranging left).bind fun _ _ left => .ok _ left

section Chains

variable {operand : TokenReader Condition}

theorem chain_ranging (ranging : Ranging operand) (word : TokenKind)
    (join : Condition → Condition → Condition) (fuel : Nat) (first : Condition) :
    Ranging (chain word join operand fuel first) := by
  induction fuel generalizing first with
  | zero =>
    intro whole tokens inside
    exact .ok _ inside
  | succ fuel ih =>
    intro whole tokens inside
    cases tokens with
    | nil => exact .ok _ inside
    | cons token rest =>
      unfold chain
      split
      · refine (ranging (List.subset_of_cons_subset inside)).bind fun second after left => ?_
        exact ih _ left
      · exact .ok _ inside

theorem chained_ranging (ranging : Ranging operand) (word : TokenKind)
    (join : Condition → Condition → Condition) : Ranging (chained word join operand) := by
  intro whole tokens inside
  exact (ranging inside).bind fun first rest left => chain_ranging ranging word join _ first left

theorem disjunction_ranging (ranging : Ranging operand) : Ranging (disjunction operand) :=
  chained_ranging (chained_ranging ranging _ _) _ _

end Chains

theorem operandWith_ranging (eof : Token) {comparison : TokenReader Condition}
    {inner : Option (TokenReader Condition)} (compares : Ranging comparison)
    (ranging : ∀ reader ∈ inner, Ranging reader) : Ranging (operandWith eof comparison inner) := by
  intro whole tokens inside
  unfold operandWith
  split
  · have rest := List.subset_of_cons_subset inside
    exact (descend_ranging eof ranging rest).bind fun _ _ left => .ok _ left
  · split
    · exact compares inside
    · have rest := List.subset_of_cons_subset inside
      have groups : ∀ reader ∈ inner.map disjunction, Ranging reader := by
        intro reader deeper
        obtain ⟨operand, among, rfl⟩ := Option.mem_map.mp deeper
        exact disjunction_ranging (ranging operand among)
      refine (descend_ranging eof groups rest).bind fun grouped after left => ?_
      exact (expect_ranging _ _ _ left).bind fun _ _ left => .ok _ left
  · exact compares inside

theorem operand_ranging (eof : Token) (levels : Nat) : Ranging (operand eof levels) := by
  induction levels with
  | zero => exact operandWith_ranging eof (comparison_ranging eof (value_ranging eof 0)) nofun
  | succ levels ih =>
    refine operandWith_ranging eof (comparison_ranging eof (value_ranging eof _)) ?_
    rintro _ ⟨⟩
    exact ih

theorem condition_ranging (eof : Token) (levels : Nat) : Ranging (condition eof levels) :=
  disjunction_ranging (operand_ranging eof levels)

/-! ### Statements -/

theorem endOfStatement_ranging (eof : Token) : Ranging (endOfStatement eof) := by
  intro whole tokens inside
  unfold endOfStatement
  split
  · exact .ok _ inside
  · exact .take _ inside
  · exact .ok _ inside
  · exact .unexpected ..

theorem looseName_ranging (eof : Token) (expected : Expectation) :
    Ranging (looseName eof expected) := by
  intro whole tokens inside
  unfold looseName
  split
  · exact .take _ inside
  · exact .take _ inside
  · exact .unexpected ..

theorem arguments_ranging (eof : Token) {value : TokenReader Expr} (ranging : Ranging value)
    (fuel : Nat) : Ranging (arguments eof value fuel) := by
  induction fuel with
  | zero =>
    intro whole tokens inside
    exact .ok _ inside
  | succ fuel ih =>
    intro whole tokens inside
    unfold arguments
    split
    · next same =>
      obtain rfl := Nat.succ.inj same
      have rest := List.subset_of_cons_subset inside
      refine (expect_ranging _ _ _ rest).bind fun sign afterKey left => ?_
      refine (ranging left).bind fun first after left => ?_
      exact (ih left).bind fun _ _ left => .ok _ left
    · exact .ok _ inside

theorem capture_ranging (eof : Token) : Ranging (capture eof) := by
  intro whole tokens inside
  unfold capture
  split
  · have rest := List.subset_of_cons_subset inside
    exact (looseName_ranging _ _ rest).bind fun _ _ left => .ok _ left
  · exact .ok _ inside

section Blocks

variable {statement : TokenReader Statement}

theorem blockStatements_ranging (eof : Token) (ranging : Ranging statement) (fuel : Nat) :
    Ranging (blockStatements eof statement fuel) := by
  induction fuel with
  | zero =>
    intro whole tokens inside
    exact .unexpected ..
  | succ fuel ih =>
    intro whole tokens inside
    cases tokens with
    | nil => exact .unexpected ..
    | cons token rest =>
      unfold blockStatements
      split
      · exact .take _ inside
      · refine (ranging inside).bind fun first after left => ?_
        exact (ih left).bind fun _ _ left => .ok _ left

theorem block_ranging (eof : Token) (ranging : Ranging statement) :
    Ranging (block eof statement) := by
  intro whole tokens inside
  have skipped := skip_inside .newline (skip_inside .colon inside)
  exact (expect_ranging _ _ _ skipped).bind fun brace inside left =>
    blockStatements_ranging eof ranging _ left

theorem otherwise_ranging {block : TokenReader (List Statement)} (ranging : Ranging block) :
    Ranging (otherwise block) := by
  intro whole tokens inside
  have skipped := skip_inside .newline inside
  unfold otherwise
  split
  · next found =>
    rw [found] at skipped
    exact (ranging (List.subset_of_cons_subset skipped)).bind fun _ _ left => .ok _ left
  · exact .ok _ inside

/-- No statement makes tokens of its own. -/
theorem statementWith_ranging (eof : Token) (levels : Nat)
    {inner : Option (TokenReader Statement)} (ranging : ∀ reader ∈ inner, Ranging reader) :
    Ranging (statementWith eof levels inner) := by
  have blocks : Ranging (descend eof (inner.map (block eof))) := by
    refine descend_ranging eof fun reader deeper => ?_
    obtain ⟨statement, among, rfl⟩ := Option.mem_map.mp deeper
    exact block_ranging eof (ranging statement among)
  intro whole tokens inside
  unfold statementWith
  dsimp only
  split
  · exact .take _ inside
  · have rest := List.subset_of_cons_subset inside
    refine (expect_ranging _ _ _ rest).bind fun name afterName left => ?_
    refine (expect_ranging _ _ _ left).bind fun sign afterSign left => ?_
    refine (value_ranging eof levels left).bind fun value afterValue left => ?_
    exact (endOfStatement_ranging eof left).bind fun _ _ left => .ok _ left
  · have rest := List.subset_of_cons_subset inside
    refine (looseName_ranging _ _ rest).bind fun name afterName left => ?_
    have arguments := arguments_ranging eof (value_ranging eof levels)
    refine (arguments _ left).bind fun args afterArgs left => ?_
    refine (capture_ranging eof left).bind fun name afterCapture left => ?_
    exact (endOfStatement_ranging eof left).bind fun _ _ left => .ok _ left
  · have rest := List.subset_of_cons_subset inside
    refine (condition_ranging eof levels rest).bind fun condition afterCondition left => ?_
    refine (blocks left).bind fun yes afterYes left => ?_
    refine (otherwise_ranging blocks left).bind fun no afterNo left => ?_
    exact (endOfStatement_ranging eof left).bind fun _ _ left => .ok _ left
  · have rest := List.subset_of_cons_subset inside
    refine (expect_ranging _ _ _ rest).bind fun var afterVar left => ?_
    refine (expect_ranging _ _ _ left).bind fun word afterWord left => ?_
    refine (value_ranging eof levels left).bind fun iterable afterIterable left => ?_
    refine (blocks left).bind fun body afterBody left => ?_
    exact (endOfStatement_ranging eof left).bind fun _ _ left => .ok _ left
  · have rest := List.subset_of_cons_subset inside
    refine (value_ranging eof levels rest).bind fun value afterValue left => ?_
    exact (endOfStatement_ranging eof left).bind fun _ _ left => .ok _ left
  · exact .unexpected ..

end Blocks

theorem statement_ranging (eof : Token) (levels : Nat) : Ranging (statement eof levels) := by
  induction levels with
  | zero => exact statementWith_ranging eof 0 nofun
  | succ levels ih =>
    refine statementWith_ranging eof (levels + 1) ?_
    rintro _ ⟨⟩
    exact ih

/-- A number that is refused among statements is one of their tokens and denotes nothing. -/
theorem statements_refused {eof : Token} {statement : TokenReader Statement}
    (ranging : Ranging statement) {fuel : Nat} {tokens : List Token} {literal : Token}
    (failed : statements eof statement fuel tokens = .error (.numberOutOfRange literal)) :
    literal ∈ tokens ∧ literal.kind = .number ∧ Number.ofText? literal.text = none := by
  induction fuel generalizing tokens with
  | zero =>
    cases tokens with
    | nil => cases failed
    | cons => cases failed
  | succ fuel ih =>
    cases tokens with
    | nil => cases failed
    | cons token rest =>
      have ranged := ranging (List.Subset.refl (token :: rest))
      unfold statements at failed
      cases read : statement (token :: rest) with
      | error fault =>
        rw [read] at failed
        obtain rfl := Except.error.inj failed
        exact ranged.refused read
      | ok result =>
        obtain ⟨first, after⟩ := result
        rw [read, ok_bind] at failed
        cases later : statements eof statement fuel after with
        | error fault =>
          simp only [later] at failed
          obtain rfl := Except.error.inj failed
          obtain ⟨among, denies⟩ := ih later
          exact ⟨ranged.left read among, denies⟩
        | ok more =>
          simp only [later] at failed
          cases failed

end Grammar

namespace Plan

/-- A number that a text is refused for is one of its tokens and denotes nothing. -/
theorem parse_refused {text : String} {literal : Token}
    (failed : parse text = .error (.numberOutOfRange literal)) :
    ∃ tokens, Token.scan text = .ok tokens ∧ literal ∈ tokens ∧ literal.kind = .number ∧
      Number.ofText? literal.text = none := by
  rw [parse, parseChars] at failed
  split at failed
  · cases failed
  · next tokens scanned =>
    obtain ⟨among, refused⟩ :=
      Grammar.statements_refused (Grammar.statement_ranging _ maxNesting) failed
    exact ⟨tokens, scanned, (List.takeWhile_prefix _).subset among, refused⟩

/-- Numbers in text. A text is read as the number it denotes, which is one only, and a signed word is
read back from its digits. Every number token of a text is a numeral without an exponent; so when a
text is refused for a number, that is one of its tokens, and its value is rounded beyond the finite
numbers. -/
theorem numbers_denoted (text : String) :
    (∀ result, Number.Denotes text.toList result ↔ Number.ofText? text = result) ∧
      (∀ value, Number.isWord value = true →
        Number.ofText? (Number.renderInt value) = some (.int value)) ∧
      (∀ tokens, Token.scan text = .ok tokens →
        ∀ token ∈ tokens, token.kind = .number → Numeral token.text.toList) ∧
      ∀ literal, parse text = .error (.numberOutOfRange literal) →
        ∃ tokens d, Token.scan text = .ok tokens ∧ literal ∈ tokens ∧ literal.kind = .number ∧
          Decimal.Writes literal.text.toList d ∧ Decimal.overflow ≤ |d.value| := by
  have numerals (tokens : List Token) (scanned : Token.scan text = .ok tokens) (token : Token)
      (among : token ∈ tokens) : token.kind = .number → Numeral token.text.toList :=
    (Token.lexical_of_scan scanned token among).numeral
  refine ⟨Number.denotes_iff text, fun _ => Number.ofText?_renderInt, numerals,
    fun literal failed => ?_⟩
  obtain ⟨tokens, scanned, among, number, nothing⟩ := parse_refused failed
  obtain ⟨d, writes⟩ := (numerals tokens scanned literal among number).writes
  exact ⟨tokens, d, scanned, among, number, writes, Number.beyond_of_ofText? writes nothing⟩

/-- A plan that returns a number which denotes nothing is refused for it. -/
theorem ofTokens_return_number {text : String} (nothing : Number.ofText? text = none)
    (first second last : Position) :
    ofTokens [⟨.returnWord, "RETURN", first⟩, ⟨.number, text, second⟩, Token.endOfInput last] =
      .error (.numberOutOfRange ⟨.number, text, second⟩) := by
  have value (eof : Token) (levels : Nat) : Grammar.value eof levels [⟨.number, text, second⟩] =
      .error (.numberOutOfRange ⟨.number, text, second⟩) := by
    cases levels <;> rw [Grammar.value, Grammar.valueWith, nothing]
  have statement (eof : Token) (levels : Nat) : Grammar.statement eof levels
      [⟨.returnWord, "RETURN", first⟩, ⟨.number, text, second⟩] =
        .error (.numberOutOfRange ⟨.number, text, second⟩) := by
    cases levels <;> (rw [Grammar.statement, Grammar.statementWith, value]; rfl)
  have cut : body [⟨.returnWord, "RETURN", first⟩, ⟨.number, text, second⟩, Token.endOfInput last] =
      [⟨.returnWord, "RETURN", first⟩, ⟨.number, text, second⟩] := rfl
  rw [ofTokens, cut, List.length_cons, Grammar.statements, statement]
  · rfl
  · nofun

/-- A negative power of ten beyond the finite numbers. -/
def power : List Char :=
  '-' :: '1' :: List.replicate 309 '0'

/-- The power of ten in a plan, its zeros grouped by underscores. -/
def grouped : List Char :=
  "RETURN -1".toList ++ (List.replicate 103 "_000".toList).flatten

/-- The scan of this text takes the numeral as one token, with its underscores gone. -/
theorem scanChars_grouped : (Token.scanChars grouped).toOption =
    some [⟨.returnWord, "RETURN", ⟨1, 1⟩⟩, ⟨.number, String.ofList power, ⟨1, 8⟩⟩,
      Token.endOfInput ⟨1, 422⟩] := by
  decide +kernel

/-- A number of 310 digits is refused for its range, and the least word is read back. -/
theorem numbers_denoted_grouped :
    parse (String.ofList grouped) =
        .error (.numberOutOfRange ⟨.number, String.ofList power, ⟨1, 8⟩⟩) ∧
      Numeral power ∧ (∃ d, Decimal.Writes power d ∧ Decimal.overflow ≤ |d.value|) ∧
      Number.isWord (-0x8000000000000000) = true ∧
      Number.ofText? (Number.renderInt (-0x8000000000000000)) =
        some (.int (-0x8000000000000000)) := by
  have nothing : Number.ofText? (String.ofList power) = none := by
    rw [Number.ofText?, String.toList_ofList]
    decide +kernel
  have word : Number.isWord (-0x8000000000000000) = true := by decide
  have failed : parse (String.ofList grouped) =
      .error (.numberOutOfRange ⟨.number, String.ofList power, ⟨1, 8⟩⟩) := by
    have measured := scanChars_grouped
    rw [parse, String.toList_ofList, parseChars]
    generalize Token.scanChars grouped = found at measured ⊢
    cases found with
    | error fault => cases measured
    | ok tokens =>
      rw [Option.some.inj measured]
      exact ofTokens_return_number nothing _ _ _
  obtain ⟨-, words, numerals, refused⟩ := numbers_denoted (String.ofList grouped)
  obtain ⟨tokens, d, scanned, among, number, writes, beyond⟩ := refused _ failed
  have numeral := numerals tokens scanned _ among number
  rw [String.toList_ofList] at writes numeral
  exact ⟨failed, numeral, ⟨d, writes, beyond⟩, word, words _ word⟩

end Plan

end ToolPlan
