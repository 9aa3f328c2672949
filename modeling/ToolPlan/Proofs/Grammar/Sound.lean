import ToolPlan.Proofs.Grammar.Listing

/-!
Every reader gives only phrases of the grammar. The readers are taken in the order in which they are
built from each other; a reader that is given another one is sound as soon as that one is.
-/

namespace ToolPlan.Grammar

open Derives (Phrase Many Comma Listed Field cons_of_ahead)

variable {α β : Type}

/-- Whatever the reader gives is a phrase. -/
def Sound (reader : TokenReader α) (phrase : Phrase α) : Prop :=
  ∀ ⦃tokens meaning rest⦄, reader tokens = .ok (meaning, rest) → phrase tokens meaning rest

/-! ### Steps of a reader -/

/-- Two steps succeed when the first one does and the second one does with its result. -/
theorem bind_eq_ok {ε : Type} {first : Except ε α} {next : α → Except ε β} {result : β} :
    (first >>= next) = .ok result ↔ ∃ value, first = .ok value ∧ next value = .ok result := by
  cases first with
  | error e => simp [bind, Except.bind]
  | ok value => simp [bind, Except.bind]

@[simp] theorem ok_bind {ε : Type} {value : α} {next : α → Except ε β} :
    ((Except.ok value : Except ε α) >>= next) = next value := rfl

@[simp] theorem pure_eq_ok {ε : Type} {value result : α} :
    (pure value : Except ε α) = .ok result ↔ value = result := by
  simp [pure, Except.pure]

@[simp] theorem unexpected_ne_ok {eof : Token} {expected : Expectation} {tokens : List Token}
    {result : α × List Token} : unexpected eof expected tokens ≠ .ok result := by
  simp [unexpected]

/-- What is expected is the next token. -/
theorem expect_eq_ok {eof : Token} {kind : TokenKind} {expected : Expectation}
    {tokens rest : List Token} {token : Token} :
    expect eof kind expected tokens = .ok (token, rest) ↔
      ∃ text place, token = ⟨kind, text, place⟩ ∧ tokens = token :: rest := by
  cases tokens with
  | nil => simp [expect]
  | cons first others =>
    obtain ⟨found, text, place⟩ := first
    by_cases same : found = kind
    · subst same
      simp only [expect, if_true, Except.ok.injEq, Prod.mk.injEq, List.cons.injEq]
      constructor
      · rintro ⟨rfl, rfl⟩
        exact ⟨text, place, rfl, rfl, rfl⟩
      · rintro ⟨_, _, _, same⟩
        exact same
    · simp only [expect, same, if_false, unexpected_ne_ok, List.cons.injEq, false_iff]
      rintro ⟨_, _, rfl, asToken, -⟩
      exact same (congrArg Token.kind asToken)

theorem many_skip (kind : TokenKind) (tokens : List Token) :
    Many kind tokens (skip kind tokens) := by
  induction tokens with
  | nil => exact .none
  | cons token rest ih =>
    obtain ⟨first, text, place⟩ := token
    by_cases same : first = kind
    · subst same
      simpa [skip] using Many.more ih
    · simpa [skip, same] using Many.none

theorem comma_skipComma (tokens : List Token) : Comma tokens (skipComma tokens) := by
  unfold skipComma
  split
  · exact .present
  · exact .absent

theorem descend_eq_ok {eof : Token} {inner : Option (TokenReader α)} {tokens : List Token}
    {result : α × List Token} :
    descend eof inner tokens = .ok result ↔
      ∃ reader, inner = some reader ∧ reader tokens = .ok result := by
  cases inner with
  | none => simp [descend]
  | some reader => simp [descend]

/-! ### Values -/

/-- By induction on the tokens of the path, as the reader recurses. -/
theorem path_sound (eof : Token) : Sound (path eof) Derives.Path := by
  intro tokens steps rest read
  fun_induction path eof tokens generalizing steps with
  | case1 => simp at read
  | case2 text place digits q index whole t r tokens ih =>
    simp only [bind_eq_ok, pure_eq_ok, Prod.exists, Prod.mk.injEq] at read
    obtain ⟨more, after, readMore, rfl, rfl⟩ := read
    exact .position whole (ih readMore)
  | case3 => simp at read
  | case4 text place name q t r tokens ih =>
    simp only [bind_eq_ok, pure_eq_ok, Prod.exists, Prod.mk.injEq] at read
    obtain ⟨more, after, readMore, rfl, rfl⟩ := read
    exact .key (ih readMore)
  | case5 => simp at read
  | case6 => simp at read
  | case7 tokens notNumber notString notBracket =>
    obtain ⟨rfl, rfl⟩ := Prod.mk.inj (Except.ok.inj read)
    refine .done fun opened => ?_
    cases tokens with
    | nil => simp at opened
    | cons token others =>
      obtain ⟨kind, text, place⟩ := token
      obtain rfl : kind = .leftBracket := Option.some.inj opened
      exact notBracket text place others rfl

/-- Where no entry is read any more, the closing token has been found. -/
theorem listing_sound {eof : Token} {close : TokenKind} {expected : Expectation}
    {entry : TokenReader α} {phrase : Phrase α} (sound : Sound entry phrase) (fuel : Nat) :
    Sound (listing eof close expected entry fuel) (Listed close phrase) := by
  induction fuel with
  | zero =>
    intro tokens meaning rest read
    simp [listing] at read
  | succ fuel ih =>
    intro tokens meaning rest read
    have skipped := many_skip .newline tokens
    rw [listing] at read
    split at read
    · next closed =>
      obtain ⟨text, place, others, found⟩ := cons_of_ahead closed
      rw [found] at read skipped
      obtain ⟨rfl, rfl⟩ := Prod.mk.inj (Except.ok.inj read)
      exact .close skipped
    · simp only [bind_eq_ok, pure_eq_ok, Prod.exists, Prod.mk.injEq] at read
      obtain ⟨first, after, readFirst, others, left, readOthers, rfl, rfl⟩ := read
      exact .more skipped (sound readFirst) (many_skip _ _) (comma_skipComma _) (ih readOthers)

theorem arrayItems_sound {eof : Token} {item : TokenReader Expr} {phrase : Phrase Expr}
    (sound : Sound item phrase) (fuel : Nat) :
    Sound (arrayItems eof item fuel) (Derives.Items phrase) := by
  intro tokens items rest read
  rw [arrayItems_eq] at read
  exact Derives.items_iff.mpr (listing_sound sound fuel read)

/-- The key is read with its equals sign, which the derivation leaves to the field. -/
theorem mapKey_sound {eof : Token} {tokens rest : List Token} {key : String}
    (read : mapKey eof tokens = .ok (key, rest)) :
    ∃ text place, Derives.Key tokens key (⟨.assign, text, place⟩ :: rest) := by
  unfold mapKey at read
  split at read
  · simp only [bind_eq_ok, pure_eq_ok, Prod.exists, Prod.mk.injEq] at read
    obtain ⟨sign, after, readSign, rfl, rfl⟩ := read
    obtain ⟨text, place, rfl, rfl⟩ := expect_eq_ok.mp readSign
    exact ⟨text, place, .name⟩
  · simp only [bind_eq_ok, pure_eq_ok, Prod.exists, Prod.mk.injEq] at read
    obtain ⟨sign, after, readSign, rfl, rfl⟩ := read
    obtain ⟨text, place, rfl, rfl⟩ := expect_eq_ok.mp readSign
    exact ⟨text, place, .string⟩
  · simp at read

theorem mapField_sound {eof : Token} {item : TokenReader Expr} {phrase : Phrase Expr}
    (sound : Sound item phrase) : Sound (mapField eof item) (Field phrase) := by
  intro tokens field rest read
  simp only [mapField, bind_eq_ok, pure_eq_ok, Prod.exists, Prod.mk.injEq] at read
  obtain ⟨key, afterKey, readKey, value, after, readValue, rfl, rfl⟩ := read
  obtain ⟨text, place, key⟩ := mapKey_sound readKey
  exact .assign key (sound readValue)

theorem mapEntries_sound {eof : Token} {item : TokenReader Expr} {phrase : Phrase Expr}
    (sound : Sound item phrase) (fuel : Nat) :
    Sound (mapEntries eof item fuel) (Derives.Fields phrase) := by
  intro tokens fields rest read
  rw [mapEntries_eq] at read
  exact Derives.fields_iff.mpr (listing_sound (mapField_sound sound) fuel read)

theorem opened_eq_ok {eof token : Token} {inner : Option (TokenReader α)} {tokens : List Token}
    {result : α × List Token} :
    opened eof inner (token :: tokens) = .ok result ↔
      ∃ reader, inner = some reader ∧ reader tokens = .ok result := by
  cases inner with
  | none => simp [opened, descend]
  | some reader => simp [opened, descend]

/-- A value holds other values only if there is a reader for these. -/
theorem valueWith_sound {eof : Token} {inner : Option (TokenReader Expr)} {phrase : Phrase Expr}
    (sound : ∀ item, inner = some item → Sound item phrase) {tokens rest : List Token}
    {value : Expr} (read : valueWith eof inner tokens = .ok (value, rest)) :
    Derives.Scalar tokens value rest ∨
      inner.isSome ∧ Derives.Container phrase tokens value rest := by
  unfold valueWith at read
  split at read
  · simp only [bind_eq_ok, pure_eq_ok, Prod.exists, Prod.mk.injEq] at read
    obtain ⟨name, afterName, readName, steps, after, readSteps, rfl, rfl⟩ := read
    obtain ⟨text, place, rfl, rfl⟩ := expect_eq_ok.mp readName
    exact .inl (.var (path_sound eof readSteps))
  · split at read
    · next number known =>
      obtain ⟨rfl, rfl⟩ := Prod.mk.inj (Except.ok.inj read)
      exact .inl (.number known)
    · simp at read
  · obtain ⟨rfl, rfl⟩ := Prod.mk.inj (Except.ok.inj read)
    exact .inl .trueWord
  · obtain ⟨rfl, rfl⟩ := Prod.mk.inj (Except.ok.inj read)
    exact .inl .falseWord
  · obtain ⟨rfl, rfl⟩ := Prod.mk.inj (Except.ok.inj read)
    exact .inl .nullWord
  · obtain ⟨rfl, rfl⟩ := Prod.mk.inj (Except.ok.inj read)
    exact .inl .string
  · obtain ⟨rfl, rfl⟩ := Prod.mk.inj (Except.ok.inj read)
    exact .inl .name
  · obtain ⟨rfl, rfl⟩ := Prod.mk.inj (Except.ok.inj read)
    exact .inl .bare
  · obtain ⟨reader, deeper, readInside⟩ := opened_eq_ok.mp read
    obtain ⟨item, rfl, rfl⟩ := Option.map_eq_some_iff.mp deeper
    simp only [array, bind_eq_ok, pure_eq_ok, Prod.exists, Prod.mk.injEq] at readInside
    obtain ⟨items, after, readItems, rfl, rfl⟩ := readInside
    exact .inr ⟨rfl, .array (arrayItems_sound (sound item rfl) _ readItems)⟩
  · obtain ⟨reader, deeper, readInside⟩ := opened_eq_ok.mp read
    obtain ⟨item, rfl, rfl⟩ := Option.map_eq_some_iff.mp deeper
    simp only [map, bind_eq_ok, pure_eq_ok, Prod.exists, Prod.mk.injEq] at readInside
    obtain ⟨fields, after, readFields, rfl, rfl⟩ := readInside
    exact .inr ⟨rfl, .map (mapEntries_sound (sound item rfl) _ readFields)⟩
  · simp at read

theorem value_sound (eof : Token) (levels : Nat) :
    Sound (value eof levels) (Derives.Value levels) := by
  induction levels with
  | zero =>
    intro tokens meaning rest read
    -- At the last level there is no reader for the inside, so any phrase will do for it.
    have sound : ∀ item, none = some item → Sound item (Derives.Value 0) := by simp
    rcases valueWith_sound sound read with scalar | ⟨deeper, -⟩
    · exact scalar
    · simp at deeper
  | succ levels ih =>
    intro tokens meaning rest read
    have sound : ∀ item, some (value eof levels) = some item →
        Sound item (Derives.Value levels) := by
      rintro _ ⟨⟩
      exact ih
    exact (valueWith_sound sound read).imp_right And.right

/-! ### Conditions -/

/-- The lookahead accepts what the rules allow after the parenthesis of a map. -/
theorem startsMap_iff {tokens : List Token} :
    startsMap tokens = true ↔ Derives.OpensMap tokens := by
  constructor
  · intro starts
    unfold startsMap at starts
    split at starts
    · exact .close
    · exact .key .name
    · exact .key .string
    · simp at starts
  · intro opens
    cases opens with
    | close => rfl
    | key key => cases key <;> rfl

/-- A comparison in parentheses would be a group, so its left value begins otherwise or is a map. -/
theorem comparison_sound {eof : Token} {operand : TokenReader Expr} {phrase : Phrase Expr}
    (sound : Sound operand phrase) {tokens rest : List Token} {condition : Condition}
    (map : ∀ t p inside, tokens = ⟨.leftParen, t, p⟩ :: inside → Derives.OpensMap inside)
    (read : comparison eof operand tokens = .ok (condition, rest)) :
    Derives.Compared phrase tokens condition rest := by
  simp only [comparison, bind_eq_ok, Prod.exists] at read
  obtain ⟨left, afterLeft, readLeft, sign, afterSign, readSign, read⟩ := read
  obtain ⟨symbol, place, rfl, rfl⟩ := expect_eq_ok.mp readSign
  split at read
  · simp at read
  · next op known =>
    simp only [bind_eq_ok, pure_eq_ok, Prod.exists, Prod.mk.injEq] at read
    obtain ⟨right, after, readRight, rfl, rfl⟩ := read
    exact .compare map (sound readLeft) known (sound readRight)

/-- A chain goes on from what is joined already. -/
theorem chain_sound {word : TokenKind} {join : Condition → Condition → Condition}
    {operand : TokenReader Condition} {phrase : Phrase Condition} (sound : Sound operand phrase)
    {start tokens rest : List Token} {left whole : Condition} {fuel : Nat}
    (joined : Derives.Joined word join phrase start left tokens)
    (read : chain word join operand fuel left tokens = .ok (whole, rest)) :
    Derives.Joined word join phrase start whole rest := by
  induction fuel generalizing left tokens with
  | zero =>
    obtain ⟨rfl, rfl⟩ := Prod.mk.inj (Except.ok.inj read)
    exact joined
  | succ fuel ih =>
    cases tokens with
    | nil =>
      obtain ⟨rfl, rfl⟩ := Prod.mk.inj (Except.ok.inj read)
      exact joined
    | cons token others =>
      obtain ⟨kind, text, place⟩ := token
      simp only [chain] at read
      split at read
      · next same =>
        subst same
        simp only [bind_eq_ok, Prod.exists] at read
        obtain ⟨right, after, readRight, read⟩ := read
        exact ih (.more joined (sound readRight)) read
      · obtain ⟨rfl, rfl⟩ := Prod.mk.inj (Except.ok.inj read)
        exact joined

/-- A chain is a first operand and as many joined ones as were read. -/
theorem chained_sound {operand : TokenReader Condition} {phrase : Phrase Condition}
    (sound : Sound operand phrase) (word : TokenKind)
    (join : Condition → Condition → Condition) :
    Sound (chained word join operand) (Derives.Joined word join phrase) := by
  intro tokens condition rest read
  simp only [chained, bind_eq_ok, Prod.exists] at read
  obtain ⟨first, after, readFirst, read⟩ := read
  exact chain_sound sound (.single (sound readFirst)) read

theorem disjunction_sound {operand : TokenReader Condition} {phrase : Phrase Condition}
    (sound : Sound operand phrase) : Sound (disjunction operand) (Derives.Disjunction phrase) :=
  chained_sound (chained_sound sound .andWord .and) .orWord .or

/-- An operand is a negation or a group only if there is a reader for the inside. -/
theorem operandWith_sound {eof : Token} {operand : TokenReader Expr}
    {inner : Option (TokenReader Condition)} {value : Phrase Expr} {phrase : Phrase Condition}
    (soundValue : Sound operand value) (sound : ∀ reader, inner = some reader → Sound reader phrase)
    {tokens rest : List Token} {condition : Condition}
    (read : operandWith eof (comparison eof operand) inner tokens = .ok (condition, rest)) :
    Derives.Compared value tokens condition rest ∨
      inner.isSome ∧ Derives.Wrapped phrase tokens condition rest := by
  unfold operandWith at read
  split at read
  · simp only [bind_eq_ok, pure_eq_ok, Prod.exists, Prod.mk.injEq] at read
    obtain ⟨negated, after, readNegated, rfl, rfl⟩ := read
    obtain ⟨reader, rfl, readNegated⟩ := descend_eq_ok.mp readNegated
    exact .inr ⟨rfl, .not (sound reader rfl readNegated)⟩
  · split at read
    · next starts =>
      refine .inl (comparison_sound soundValue ?_ read)
      rintro _ _ _ ⟨⟩
      exact startsMap_iff.mp starts
    · simp only [bind_eq_ok, pure_eq_ok, Prod.exists, Prod.mk.injEq] at read
      obtain ⟨grouped, after, readGroup, paren, left, readParen, rfl, rfl⟩ := read
      obtain ⟨text, place, rfl, rfl⟩ := expect_eq_ok.mp readParen
      obtain ⟨reader, deeper, readGroup⟩ := descend_eq_ok.mp readGroup
      obtain ⟨operands, rfl, rfl⟩ := Option.map_eq_some_iff.mp deeper
      exact .inr ⟨rfl, .group (disjunction_sound (sound operands rfl) readGroup)⟩
  · next notParen =>
    refine .inl (comparison_sound soundValue ?_ read)
    rintro t p inside rfl
    exact absurd rfl (notParen t p inside)

theorem operand_sound (eof : Token) (levels : Nat) :
    Sound (operand eof levels) (Derives.Operand levels) := by
  induction levels with
  | zero =>
    intro tokens condition rest read
    have sound : ∀ reader, none = some reader → Sound reader (Derives.Operand 0) := by simp
    rcases operandWith_sound (value_sound eof 0) sound read with compared | ⟨deeper, -⟩
    · exact compared
    · simp at deeper
  | succ levels ih =>
    intro tokens condition rest read
    have sound : ∀ reader, some (operand eof levels) = some reader →
        Sound reader (Derives.Operand levels) := by
      rintro _ ⟨⟩
      exact ih
    exact (operandWith_sound (value_sound eof (levels + 1)) sound read).imp_right And.right

/-! ### Statements -/

theorem endOfStatement_sound {eof : Token} {tokens rest : List Token}
    (read : endOfStatement eof tokens = .ok ((), rest)) : Derives.Close tokens rest := by
  unfold endOfStatement at read
  split at read
  · obtain ⟨-, rfl⟩ := Prod.mk.inj (Except.ok.inj read)
    exact .finished
  · obtain ⟨-, rfl⟩ := Prod.mk.inj (Except.ok.inj read)
    exact .newline
  · obtain ⟨-, rfl⟩ := Prod.mk.inj (Except.ok.inj read)
    exact .brace
  · simp at read

theorem looseName_sound (eof : Token) (expected : Expectation) :
    Sound (looseName eof expected) Derives.LooseName := by
  intro tokens name rest read
  unfold looseName at read
  split at read
  · obtain ⟨rfl, rfl⟩ := Prod.mk.inj (Except.ok.inj read)
    exact .name
  · obtain ⟨rfl, rfl⟩ := Prod.mk.inj (Except.ok.inj read)
    exact .bare
  · simp at read

theorem arguments_sound {eof : Token} {value : TokenReader Expr} {phrase : Phrase Expr}
    (sound : Sound value phrase) (fuel : Nat) :
    Sound (arguments eof value fuel) (Derives.Arguments phrase) := by
  intro tokens args rest read
  fun_induction arguments eof value fuel tokens generalizing args with
  | case1 fuel key place tokens ih =>
    simp only [bind_eq_ok, pure_eq_ok, Prod.exists, Prod.mk.injEq] at read
    obtain ⟨sign, afterKey, readSign, first, after, readFirst, others, left, readOthers, rfl, rfl⟩ :=
      read
    obtain ⟨text, q, rfl, rfl⟩ := expect_eq_ok.mp readSign
    exact .more (sound readFirst) (ih after readOthers)
  | case2 =>
    obtain ⟨rfl, rfl⟩ := Prod.mk.inj (Except.ok.inj read)
    exact .none

theorem capture_sound (eof : Token) : Sound (capture eof) Derives.Capture := by
  intro tokens name rest read
  unfold capture at read
  split at read
  · simp only [bind_eq_ok, pure_eq_ok, Prod.exists, Prod.mk.injEq] at read
    obtain ⟨name, after, readName, rfl, rfl⟩ := read
    exact .arrow (looseName_sound eof .captureName readName)
  · obtain ⟨rfl, rfl⟩ := Prod.mk.inj (Except.ok.inj read)
    exact .none

/-- The block ends at its closing brace, which the statements leave. -/
theorem blockStatements_sound {eof : Token} {statement : TokenReader Statement}
    {phrase : Phrase Statement} (sound : Sound statement phrase) {fuel : Nat}
    {tokens rest : List Token} {statements : List Statement}
    (read : blockStatements eof statement fuel tokens = .ok (statements, rest)) :
    ∃ text place,
      Derives.Statements phrase tokens statements (⟨.rightBrace, text, place⟩ :: rest) := by
  induction fuel generalizing tokens statements with
  | zero => simp [blockStatements] at read
  | succ fuel ih =>
    cases tokens with
    | nil => simp [blockStatements] at read
    | cons token others =>
      obtain ⟨kind, text, place⟩ := token
      simp only [blockStatements] at read
      split at read
      · next same =>
        subst same
        obtain ⟨rfl, rfl⟩ := Prod.mk.inj (Except.ok.inj read)
        exact ⟨text, place, .none⟩
      · simp only [bind_eq_ok, pure_eq_ok, Prod.exists, Prod.mk.injEq] at read
        obtain ⟨first, after, readFirst, more, left, readMore, rfl, rfl⟩ := read
        obtain ⟨t, p, derived⟩ := ih readMore
        exact ⟨t, p, .more (sound readFirst) derived⟩

theorem block_sound {eof : Token} {statement : TokenReader Statement} {phrase : Phrase Statement}
    (sound : Sound statement phrase) : Sound (block eof statement) (Derives.Block phrase) := by
  intro tokens statements rest read
  simp only [block, bind_eq_ok, Prod.exists] at read
  obtain ⟨brace, inside, readBrace, read⟩ := read
  obtain ⟨text, place, rfl, opened⟩ := expect_eq_ok.mp readBrace
  obtain ⟨t, p, derived⟩ := blockStatements_sound sound read
  exact .braces (many_skip _ _) (opened ▸ many_skip _ _) derived

/-- No other branch is read where its word does not follow. -/
theorem otherwise_sound {block : TokenReader (List Statement)} {phrase : Phrase Statement}
    (sound : Sound block (Derives.Block phrase)) :
    Sound (otherwise block) (Derives.Otherwise phrase) := by
  intro tokens branch rest read
  have skipped := many_skip .newline tokens
  unfold otherwise at read
  split at read
  · next text place inside found =>
    simp only [bind_eq_ok, pure_eq_ok, Prod.exists, Prod.mk.injEq] at read
    obtain ⟨statements, after, readBlock, rfl, rfl⟩ := read
    exact .block (found ▸ skipped) (sound readBlock)
  · obtain ⟨rfl, rfl⟩ := Prod.mk.inj (Except.ok.inj read)
    exact .none

/-- A statement has blocks only if there is a reader for their statements. -/
theorem statementWith_sound {eof : Token} {levels : Nat} {inner : Option (TokenReader Statement)}
    {phrase : Phrase Statement} (sound : ∀ reader, inner = some reader → Sound reader phrase)
    {tokens rest : List Token} {statement : Statement}
    (read : statementWith eof levels inner tokens = .ok (statement, rest)) :
    Derives.Simple (Derives.Value levels) tokens statement rest ∨
      inner.isSome ∧ Derives.Compound levels phrase tokens statement rest := by
  have soundBlock : ∀ {tokens statements rest},
      descend eof (inner.map (block eof)) tokens = .ok (statements, rest) →
      inner.isSome ∧ Derives.Block phrase tokens statements rest := by
    intro tokens statements rest read
    obtain ⟨reader, deeper, read⟩ := descend_eq_ok.mp read
    obtain ⟨statement, rfl, rfl⟩ := Option.map_eq_some_iff.mp deeper
    exact ⟨rfl, block_sound (sound statement rfl) read⟩
  unfold statementWith at read
  split at read
  · obtain ⟨rfl, rfl⟩ := Prod.mk.inj (Except.ok.inj read)
    exact .inl .blank
  · simp only [bind_eq_ok, pure_eq_ok, Prod.exists, Prod.mk.injEq] at read
    obtain ⟨name, _, readName, sign, _, readSign, expr, _, readExpr, _, _, readEnd, rfl, rfl⟩ := read
    obtain ⟨text, place, rfl, rfl⟩ := expect_eq_ok.mp readName
    obtain ⟨_, _, rfl, rfl⟩ := expect_eq_ok.mp readSign
    exact .inl (.assign (value_sound eof levels readExpr) (endOfStatement_sound readEnd))
  · simp only [bind_eq_ok, pure_eq_ok, Prod.exists, Prod.mk.injEq] at read
    obtain ⟨name, _, readName, args, _, readArgs, captured, _, readCapture, _, _, readEnd, rfl, rfl⟩ :=
      read
    exact .inl (.call (looseName_sound eof .toolName readName)
      (arguments_sound (value_sound eof levels) _ readArgs) (capture_sound eof readCapture)
      (endOfStatement_sound readEnd))
  · simp only [bind_eq_ok, pure_eq_ok, Prod.exists, Prod.mk.injEq] at read
    obtain ⟨test, _, readTest, yes, _, readYes, no, _, readNo, _, _, readEnd, rfl, rfl⟩ := read
    obtain ⟨deeper, derivedYes⟩ := soundBlock readYes
    have derivedNo := otherwise_sound (fun _ _ _ read => (soundBlock read).2) readNo
    exact .inr ⟨deeper, .branch (disjunction_sound (operand_sound eof levels) readTest) derivedYes
      derivedNo (endOfStatement_sound readEnd)⟩
  · simp only [bind_eq_ok, pure_eq_ok, Prod.exists, Prod.mk.injEq] at read
    obtain ⟨var, _, readVar, word, _, readWord, iterable, _, readIterable, body, _, readBody, _, _,
      readEnd, rfl, rfl⟩ := read
    obtain ⟨text, place, rfl, rfl⟩ := expect_eq_ok.mp readVar
    obtain ⟨_, _, rfl, rfl⟩ := expect_eq_ok.mp readWord
    obtain ⟨deeper, derivedBody⟩ := soundBlock readBody
    exact .inr ⟨deeper, .loop (value_sound eof levels readIterable) derivedBody
      (endOfStatement_sound readEnd)⟩
  · simp only [bind_eq_ok, pure_eq_ok, Prod.exists, Prod.mk.injEq] at read
    obtain ⟨expr, _, readExpr, _, _, readEnd, rfl, rfl⟩ := read
    exact .inl (.finish (value_sound eof levels readExpr) (endOfStatement_sound readEnd))
  · simp at read

theorem statement_sound (eof : Token) (levels : Nat) :
    Sound (statement eof levels) (Derives.Statement levels) := by
  induction levels with
  | zero =>
    intro tokens meaning rest read
    have sound : ∀ reader, none = some reader → Sound reader (Derives.Statement 0) := by simp
    rcases statementWith_sound sound read with simple | ⟨deeper, -⟩
    · exact simple
    · simp at deeper
  | succ levels ih =>
    intro tokens meaning rest read
    have sound : ∀ reader, some (statement eof levels) = some reader →
        Sound reader (Derives.Statement levels) := by
      rintro _ ⟨⟩
      exact ih
    exact (statementWith_sound sound read).imp_right And.right

theorem statements_sound {eof : Token} {statement : TokenReader Statement}
    {phrase : Phrase Statement} (sound : Sound statement phrase) {fuel : Nat} {tokens : List Token}
    {plan : List Statement} (read : statements eof statement fuel tokens = .ok plan) :
    Derives.Statements phrase tokens plan [] := by
  fun_induction statements eof statement fuel tokens generalizing plan with
  | case1 =>
    obtain rfl := Except.ok.inj read
    exact .none
  | case2 => simp [unexpected, Except.map] at read
  | case3 fuel tokens notEmpty ih =>
    simp only [bind_eq_ok, pure_eq_ok, Prod.exists] at read
    obtain ⟨first, after, readFirst, more, readMore, rfl⟩ := read
    exact .more (sound readFirst) (ih after readMore)

end ToolPlan.Grammar

namespace ToolPlan.Plan

/-- The plan that is read from tokens is derived by the rules. -/
theorem script_of_ofTokens {tokens : List Token} {plan : Plan} (read : ofTokens tokens = .ok plan) :
    Derives.Script (body tokens) plan :=
  Grammar.statements_sound (Grammar.statement_sound (endToken tokens) maxNesting) read

end ToolPlan.Plan
