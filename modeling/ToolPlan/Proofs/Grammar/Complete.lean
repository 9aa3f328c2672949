import ToolPlan.Proofs.Grammar.Extent
import ToolPlan.Proofs.Grammar.Sound

/-!
Every phrase of the grammar is read. The rules leave some choices open that a reader has to make: how
many line ends to skip, whether a list goes on, whether an `ELSE` follows. What comes after the
phrase settles them, so some readers are complete only before certain tokens (`CompleteBefore`), and
the enclosing phrase shows that these are the tokens that stand there.

Main statement: `ofTokens_eq_ok_iff`, the plans that are read are the plans that are derived.
-/

namespace ToolPlan.Grammar

open Derives (Phrase Many Comma Listed Field ahead Shortens OpensWith valueOpeners)

variable {α : Type}

/-- Every phrase is read. -/
def Complete (reader : TokenReader α) (phrase : Phrase α) : Prop :=
  ∀ ⦃tokens meaning rest⦄, phrase tokens meaning rest → reader tokens = .ok (meaning, rest)

/-- Every phrase is read when suitable tokens follow it. -/
def CompleteBefore (follow : List Token → Prop) (reader : TokenReader α) (phrase : Phrase α) :
    Prop :=
  ∀ ⦃tokens meaning rest⦄, phrase tokens meaning rest → follow rest →
    reader tokens = .ok (meaning, rest)

/-! ### Skipped tokens -/

theorem skip_of_ahead_ne {kind : TokenKind} {tokens : List Token}
    (other : ahead tokens ≠ some kind) : skip kind tokens = tokens := by
  cases tokens with
  | nil => rfl
  | cons token rest =>
    have differ : token.kind ≠ kind := fun same => other (congrArg some same)
    simp [skip, differ]

/-- Skipping goes past any number of tokens that the rules skip. -/
theorem skip_of_many {kind : TokenKind} {tokens rest : List Token} (many : Many kind tokens rest) :
    skip kind tokens = skip kind rest := by
  induction many with
  | none => rfl
  | more _ ih => simpa [skip] using ih

/-- Skipping takes as many tokens of a kind as there are, so it ends where the derivation says if
another kind follows. -/
theorem skip_eq_of_many {kind : TokenKind} {tokens rest : List Token} (many : Many kind tokens rest)
    (other : ahead rest ≠ some kind) : skip kind tokens = rest := by
  rw [skip_of_many many, skip_of_ahead_ne other]

theorem ahead_skip_ne (kind : TokenKind) (tokens : List Token) :
    ahead (skip kind tokens) ≠ some kind := by
  induction tokens with
  | nil => simp [skip]
  | cons token rest ih =>
    by_cases same : token.kind = kind
    · simpa [skip, same] using ih
    · simp [skip, same]

theorem skip_skip (kind : TokenKind) (tokens : List Token) :
    skip kind (skip kind tokens) = skip kind tokens :=
  skip_of_ahead_ne (ahead_skip_ne kind tokens)

theorem skipComma_of_ahead_ne {tokens : List Token} (other : ahead tokens ≠ some .comma) :
    skipComma tokens = tokens := by
  unfold skipComma
  split
  · exact absurd rfl other
  · rfl

/-- After an item, line ends and one comma are skipped. The rules may leave line ends for the next
item to skip, so the readers agree with them up to these. -/
theorem skip_skipComma {after spaced next : List Token} (many : Many .newline after spaced)
    (comma : Comma spaced next) (other : ahead (skip .newline next) ≠ some .comma) :
    skip .newline (skipComma (skip .newline after)) = skip .newline next := by
  cases comma with
  | absent => rw [skip_of_many many, skipComma_of_ahead_ne other, skip_skip]
  | present => rw [skip_eq_of_many many (by simp)]; rfl

/-! ### Values -/

/-- A path goes on as long as a bracket follows, and a derivation of it can only stop where none
does. -/
theorem path_complete (eof : Token) : Complete (path eof) Derives.Path := by
  intro tokens steps rest derived
  induction derived with
  | done single =>
    unfold path
    split
    · exact absurd rfl single
    · exact absurd rfl single
    · exact absurd rfl single
    · rfl
  | position whole _ ih =>
    simp only [path, whole, ih, ok_bind]
    rfl
  | key _ ih =>
    simp only [path, ih, ok_bind]
    rfl

/-- Only the tokens after the line ends matter to a listing. -/
theorem listing_congr {eof : Token} {close : TokenKind} {expected : Expectation}
    {entry : TokenReader α} {tokens others : List Token}
    (same : skip .newline tokens = skip .newline others) (fuel : Nat) :
    listing eof close expected entry (fuel + 1) tokens =
      listing eof close expected entry (fuel + 1) others := by
  rw [listing, listing, same]

section Listings

variable {close : TokenKind} {openers : List TokenKind} {phrase : Phrase α} {tokens rest : List Token}
  {meaning : List α}

/-- No comma comes next where entries, and then the closing token, are still to come. -/
theorem ahead_skip_listed (opens : OpensWith openers phrase)
    (lineless : .newline ∉ openers) (commaless : .comma ∉ openers)
    (notLine : close ≠ .newline) (notComma : close ≠ .comma)
    (listed : Listed close phrase tokens meaning rest) :
    ahead (skip .newline tokens) ≠ some .comma := by
  cases listed with
  | close many =>
    rw [skip_eq_of_many many (by simpa using notLine)]
    simpa using notComma
  | more before first =>
    rw [skip_eq_of_many before (opens.ahead_ne first lineless)]
    exact opens.ahead_ne first commaless

/-- A listing is read to its closing token. The openers of an entry tell it from the close and from
the separators, so the reader takes the branch that the derivation took. -/
theorem listing_complete (eof : Token) (expected : Expectation) {entry : TokenReader α}
    (complete : Complete entry phrase) (shorter : Shortens phrase)
    (opens : OpensWith openers phrase) (unclosed : close ∉ openers)
    (lineless : .newline ∉ openers) (commaless : .comma ∉ openers)
    (notLine : close ≠ .newline) (notComma : close ≠ .comma)
    (listed : Listed close phrase tokens meaning rest) {fuel : Nat} (enough : tokens.length < fuel) :
    listing eof close expected entry fuel tokens = .ok (meaning, rest) := by
  induction listed generalizing fuel with
  | close many =>
    obtain ⟨fuel, rfl⟩ : ∃ n, fuel = n + 1 := ⟨fuel - 1, by omega⟩
    rw [listing, skip_eq_of_many many (by simpa using notLine)]
    simp
  | @more tokens inside after spaced next first others rest before derived between comma left ih =>
    have shortened : next.length < tokens.length := by
      have := before.length_le
      have := shorter derived
      have := between.length_le
      have := comma.length_le
      omega
    obtain ⟨fuel, rfl⟩ : ∃ n, fuel = n + 2 := ⟨fuel - 2, by omega⟩
    -- The reader skips the line ends after the comma now, the rules only in the next round.
    have readOthers : listing eof close expected entry (fuel + 1) (skipComma (skip .newline after)) =
        .ok (others, rest) := by
      have uncommaed := ahead_skip_listed opens lineless commaless notLine notComma left
      rw [listing_congr (skip_skipComma between comma uncommaed) fuel]
      exact ih (by omega)
    rw [listing, skip_eq_of_many before (opens.ahead_ne derived lineless),
      if_neg (opens.ahead_ne derived unclosed)]
    simp only [complete derived, readOthers, ok_bind]
    rfl

end Listings

theorem arrayItems_complete (eof : Token) {item : TokenReader Expr} {phrase : Phrase Expr}
    (complete : Complete item phrase) (shorter : Shortens phrase)
    (opens : OpensWith valueOpeners phrase) {tokens rest : List Token} {items : List Expr}
    (derived : Derives.Items phrase tokens items rest) {fuel : Nat} (enough : tokens.length < fuel) :
    arrayItems eof item fuel tokens = .ok (items, rest) := by
  rw [arrayItems_eq]
  exact listing_complete eof _ complete shorter opens (by decide) (by decide) (by decide) (by decide)
    (by decide) (Derives.items_iff.mp derived) enough

/-- A key is a name or a string. The assignment after it is only looked at, so the derivation keeps
it. -/
theorem mapKey_complete {eof : Token} {tokens rest : List Token} {key text : String}
    {place : Position} (derived : Derives.Key tokens key (⟨.assign, text, place⟩ :: rest)) :
    mapKey eof tokens = .ok (key, rest) := by
  cases derived <;> rfl

theorem mapField_complete {eof : Token} {item : TokenReader Expr} {phrase : Phrase Expr}
    (complete : Complete item phrase) : Complete (mapField eof item) (Field phrase) := by
  intro tokens field rest derived
  cases derived with
  | assign key value =>
    simp only [mapField, mapKey_complete key, complete value, ok_bind]
    rfl

/-- A field opens with its key, so no field can be taken for the close of a map. -/
theorem field_opens (phrase : Phrase Expr) : OpensWith [.name, .string] (Field phrase) := by
  intro tokens field rest derived
  cases derived with
  | assign key => cases key <;> exact ⟨_, by simp, rfl⟩

theorem mapEntries_complete (eof : Token) {item : TokenReader Expr} {phrase : Phrase Expr}
    (complete : Complete item phrase) (shorter : Shortens phrase) {tokens rest : List Token}
    {fields : List (String × Expr)} (derived : Derives.Fields phrase tokens fields rest) {fuel : Nat}
    (enough : tokens.length < fuel) : mapEntries eof item fuel tokens = .ok (fields, rest) := by
  rw [mapEntries_eq]
  exact listing_complete eof _ (mapField_complete complete) (Derives.Field.shortens shorter)
    (field_opens phrase) (by decide) (by decide) (by decide) (by decide) (by decide)
    (Derives.fields_iff.mp derived) enough

theorem scalar_complete (eof : Token) (inner : Option (TokenReader Expr)) :
    Complete (valueWith eof inner) Derives.Scalar := by
  intro tokens value rest derived
  cases derived with
  | var derivedPath =>
    simp only [valueWith, expect, if_true, path_complete eof derivedPath, ok_bind]
    rfl
  | number known => simp [valueWith, known]
  | _ => rfl

/-- An array or a map is read by its first token, with the levels that are left for its entries. -/
theorem container_complete {eof : Token} {item : TokenReader Expr} {phrase : Phrase Expr}
    (complete : Complete item phrase) (shorter : Shortens phrase)
    (opens : OpensWith valueOpeners phrase) :
    Complete (valueWith eof (some item)) (Derives.Container phrase) := by
  intro tokens value rest derived
  cases derived with
  | array items =>
    have read := arrayItems_complete eof complete shorter opens items (Nat.lt_succ_self _)
    simp only [valueWith, opened, descend, Option.map_some, List.drop_succ_cons, List.drop_zero, array,
      read, ok_bind]
    rfl
  | map fields =>
    have read := mapEntries_complete eof complete shorter fields (Nat.lt_succ_self _)
    simp only [valueWith, opened, descend, Option.map_some, List.drop_succ_cons, List.drop_zero, map,
      read, ok_bind]
    rfl

/-- By induction on the levels: the containers of one level are complete if the values of the level
below are. -/
theorem value_complete (eof : Token) (levels : Nat) :
    Complete (value eof levels) (Derives.Value levels) := by
  induction levels with
  | zero => exact scalar_complete eof none
  | succ levels ih =>
    rintro tokens meaning rest (scalar | container)
    · exact scalar_complete eof _ scalar
    · exact container_complete ih (Derives.Value.shortens levels) (Derives.Value.opens levels)
        container

/-! ### Conditions -/

theorem comparison_complete (eof : Token) {operand : TokenReader Expr} {phrase : Phrase Expr}
    (complete : Complete operand phrase) :
    Complete (comparison eof operand) (Derives.Compared phrase) := by
  intro tokens condition rest derived
  cases derived with
  | compare _ left known right =>
    simp only [comparison, complete left, expect, if_true, known, complete right, ok_bind]
    rfl

theorem chain_stop {word : TokenKind} {join : Condition → Condition → Condition}
    {operand : TokenReader Condition} {rest : List Token} (other : ahead rest ≠ some word)
    (fuel : Nat) (condition : Condition) :
    chain word join operand fuel condition rest = .ok (condition, rest) := by
  cases fuel with
  | zero => rfl
  | succ fuel =>
    cases rest with
    | nil => rfl
    | cons token others =>
      have differ : token.kind ≠ word := fun same => other (congrArg some same)
      simp [chain, differ]

/-- The chain after the first operand joins one more operand each round, until the whole phrase is
joined. -/
theorem chain_of_joined {word : TokenKind} {join : Condition → Condition → Condition}
    {operand : TokenReader Condition} {phrase : Phrase Condition} {follow : List Token → Prop}
    (complete : CompleteBefore follow operand phrase) (shorter : Shortens phrase)
    (before : ∀ t p rest, follow (⟨word, t, p⟩ :: rest)) {tokens rest : List Token}
    {condition : Condition} (derived : Derives.Joined word join phrase tokens condition rest)
    (followed : follow rest) :
    ∃ first after rounds, operand tokens = .ok (first, after) ∧ rounds + rest.length ≤ after.length ∧
      ∀ fuel, chain word join operand (rounds + fuel) first after =
        chain word join operand fuel condition rest := by
  induction derived with
  | @single tokens condition rest derived =>
    exact ⟨condition, rest, 0, complete derived followed, by simp, by simp⟩
  | @more tokens left t p middle right rest _ derivedRight ih =>
    obtain ⟨first, after, rounds, readFirst, fits, chained⟩ := ih (before t p middle)
    have := shorter derivedRight
    refine ⟨first, after, rounds + 1, readFirst, ?_, fun fuel => ?_⟩
    · simp only [List.length_cons] at fits
      omega
    · rw [Nat.add_assoc, Nat.add_comm 1 fuel, chained (fuel + 1), chain, if_pos rfl,
        complete derivedRight followed]
      rfl

/-- A chain is read to its last operand if the joining word does not follow it. Fuel is no limit,
since each operand takes a token. -/
theorem chained_complete {word : TokenKind} {join : Condition → Condition → Condition}
    {operand : TokenReader Condition} {phrase : Phrase Condition} {follow : List Token → Prop}
    (complete : CompleteBefore follow operand phrase) (shorter : Shortens phrase)
    (before : ∀ t p rest, follow (⟨word, t, p⟩ :: rest)) :
    CompleteBefore (fun rest => follow rest ∧ ahead rest ≠ some word) (chained word join operand)
      (Derives.Joined word join phrase) := by
  rintro tokens condition rest derived ⟨followed, other⟩
  obtain ⟨first, after, rounds, readFirst, fits, chained⟩ :=
    chain_of_joined complete shorter before derived followed
  obtain ⟨fuel, enough⟩ := Nat.exists_eq_add_of_le (Nat.le_of_add_right_le fits)
  simp only [Grammar.chained, readFirst, ok_bind, enough, chained]
  exact chain_stop other fuel condition

theorem disjunction_complete {operand : TokenReader Condition} {phrase : Phrase Condition}
    (complete : Complete operand phrase) (shorter : Shortens phrase) :
    CompleteBefore (fun rest => ahead rest ≠ some .andWord ∧ ahead rest ≠ some .orWord)
      (disjunction operand) (Derives.Disjunction phrase) := by
  have operands : CompleteBefore (fun _ => True) operand phrase :=
    fun _ _ _ derived _ => complete derived
  have conjunctions : CompleteBefore (fun rest => True ∧ ahead rest ≠ some .andWord)
      (chained .andWord .and operand) (Derives.Joined .andWord .and phrase) :=
    chained_complete operands shorter fun _ _ _ => trivial
  intro tokens condition rest derived ⟨notAnd, notOr⟩
  exact chained_complete conjunctions (Derives.Joined.shortens shorter)
    (fun _ _ _ => ⟨trivial, by simp⟩) derived ⟨⟨trivial, notAnd⟩, notOr⟩

/-- A comparison is tried only where no group opens, which the derivation promises. -/
theorem compared_complete {eof : Token} {operand : TokenReader Expr}
    {inner : Option (TokenReader Condition)} {levels : Nat}
    (complete : Complete operand (Derives.Value levels)) :
    Complete (operandWith eof (comparison eof operand) inner)
      (Derives.Compared (Derives.Value levels)) := by
  intro tokens condition rest derived
  have read := comparison_complete eof complete derived
  obtain ⟨map, left, -, -⟩ := derived
  unfold operandWith
  split
  · exact absurd rfl ((Derives.Value.opens levels).ahead_ne left (by simp [valueOpeners]))
  · next t p inside =>
    rw [if_pos (startsMap_iff.mpr (map t p inside rfl))]
    exact read
  · exact read

theorem wrapped_complete {eof : Token} {compared : TokenReader Condition} {levels : Nat}
    {inner : TokenReader Condition} (complete : Complete inner (Derives.Operand levels)) :
    Complete (operandWith eof compared (some inner)) (Derives.Wrapped (Derives.Operand levels)) := by
  intro tokens condition rest derived
  cases derived with
  | not derived =>
    simp only [operandWith, descend, complete derived, ok_bind]
    rfl
  | @group t₁ p₁ tokens condition t₂ p₂ rest derived =>
    have notMap : ¬ startsMap tokens = true := fun starts =>
      derived.not_opensMap (startsMap_iff.mp starts)
    have readGroup := disjunction_complete complete (Derives.Operand.shortens levels) derived
      ⟨by simp, by simp⟩
    simp only [operandWith, if_neg notMap, Option.map_some, descend, readGroup, expect, if_true,
      ok_bind]
    rfl

/-- By induction on the levels of groups. The lookahead for a map decides between a comparison and a
group. -/
theorem operand_complete (eof : Token) (levels : Nat) :
    Complete (operand eof levels) (Derives.Operand levels) := by
  induction levels with
  | zero => exact compared_complete (value_complete eof 0)
  | succ levels ih =>
    rintro tokens condition rest (compared | wrapped)
    · exact compared_complete (value_complete eof (levels + 1)) compared
    · exact wrapped_complete ih wrapped

/-! ### Statements -/

/-- A close is a line end that is taken, or a brace or the end of the input that is left in place. -/
theorem endOfStatement_complete (eof : Token) {tokens rest : List Token}
    (derived : Derives.Close tokens rest) : endOfStatement eof tokens = .ok ((), rest) := by
  cases derived <;> rfl

theorem looseName_complete (eof : Token) (expected : Expectation) :
    Complete (looseName eof expected) Derives.LooseName := by
  intro tokens name rest derived
  cases derived <;> rfl

/-- Arguments go on as long as a name follows, so the derivation must end before another kind. -/
theorem arguments_complete (eof : Token) {value : TokenReader Expr} {phrase : Phrase Expr}
    (complete : Complete value phrase) (shorter : Shortens phrase) {tokens rest : List Token}
    {args : List (String × Expr)} (derived : Derives.Arguments phrase tokens args rest)
    (other : ahead rest ≠ some .name) {fuel : Nat} (enough : tokens.length ≤ fuel) :
    arguments eof value fuel tokens = .ok (args, rest) := by
  induction derived generalizing fuel with
  | none =>
    unfold arguments
    split
    · exact absurd rfl other
    · rfl
  | @more key p t q tokens first after args rest derivedFirst _ ih =>
    have shortened := shorter derivedFirst
    simp only [List.length_cons] at enough
    obtain ⟨fuel, rfl⟩ : ∃ n, fuel = n + 1 := ⟨fuel - 1, by omega⟩
    have readOthers : arguments eof value fuel after = .ok (args, rest) := ih other (by omega)
    simp only [arguments, expect, if_true, complete derivedFirst, readOthers, ok_bind]
    rfl

/-- What ends a statement is neither an argument nor an arrow. -/
theorem ahead_close {tokens rest : List Token} (derived : Derives.Close tokens rest)
    {kind : TokenKind} (notNewline : kind ≠ .newline) (notBrace : kind ≠ .rightBrace) :
    ahead tokens ≠ some kind := by
  cases derived with
  | newline => exact fun same => notNewline (Option.some.inj same).symm
  | brace => exact fun same => notBrace (Option.some.inj same).symm
  | finished => simp

theorem ahead_capture {tokens after rest : List Token} {name : Option String}
    (derived : Derives.Capture tokens name after) (close : Derives.Close after rest) :
    ahead tokens ≠ some .name := by
  cases derived with
  | none => exact ahead_close close (by simp) (by simp)
  | arrow => simp

theorem capture_complete (eof : Token) {tokens after rest : List Token} {name : Option String}
    (derived : Derives.Capture tokens name after) (close : Derives.Close after rest) :
    capture eof tokens = .ok (name, after) := by
  cases derived with
  | none =>
    unfold capture
    split
    · exact absurd rfl (ahead_close close (by simp) (by simp))
    · rfl
  | arrow derivedName =>
    simp only [capture, looseName_complete eof .captureName derivedName, ok_bind]
    rfl

/-- A simple statement is chosen by its first word; each of its parts is complete where its close
follows. -/
theorem simple_complete (eof : Token) (levels : Nat) (inner : Option (TokenReader Statement)) :
    Complete (statementWith eof levels inner) (Derives.Simple (Derives.Value levels)) := by
  intro tokens statement rest derived
  cases derived with
  | blank => rfl
  | assign derivedValue close =>
    simp only [statementWith, expect, if_true, value_complete eof levels derivedValue,
      endOfStatement_complete eof close, ok_bind]
    rfl
  | call derivedName derivedArgs derivedCapture close =>
    have readArgs := arguments_complete eof (value_complete eof levels)
      (Derives.Value.shortens levels) derivedArgs (ahead_capture derivedCapture close)
      (Nat.le_refl _)
    simp only [statementWith, looseName_complete eof .toolName derivedName, readArgs,
      capture_complete eof derivedCapture close, endOfStatement_complete eof close, ok_bind]
    rfl
  | finish derivedValue close =>
    simp only [statementWith, value_complete eof levels derivedValue,
      endOfStatement_complete eof close, ok_bind]
    rfl

/-- No `ELSE` comes next, be it after line ends. -/
def NoElse (tokens : List Token) : Prop :=
  ahead (skip .newline tokens) ≠ some .elseWord

theorem noElse_of_ahead {tokens : List Token} (notNewline : ahead tokens ≠ some .newline)
    (notElse : ahead tokens ≠ some .elseWord) : NoElse tokens := by
  rw [NoElse, skip_of_ahead_ne notNewline]
  exact notElse

/-- A statement that ends by a line end or before a brace is not followed by another branch, unless
one comes later. -/
theorem noElse_close {tokens rest : List Token} (derived : Derives.Close tokens rest)
    (noElse : NoElse rest) : NoElse tokens := by
  cases derived with
  | newline => simpa [NoElse, skip] using noElse
  | brace => exact noElse
  | finished => exact noElse

/-- Statements do not open with `ELSE`, and a blank line before them does not change that. -/
theorem noElse_statements {levels : Nat} {tokens rest : List Token} {statements : List Statement}
    (derived : Derives.Statements (Derives.Statement levels) tokens statements rest)
    (noElse : NoElse rest) : NoElse tokens := by
  have simple : ∀ {value tokens statement rest}, Derives.Simple value tokens statement rest →
      NoElse rest → NoElse tokens := by
    intro value tokens statement rest derived noElse
    cases derived with
    | blank => simpa [NoElse, skip] using noElse
    | assign => exact noElse_of_ahead (by simp) (by simp)
    | call => exact noElse_of_ahead (by simp) (by simp)
    | finish => exact noElse_of_ahead (by simp) (by simp)
  induction derived with
  | none => exact noElse
  | more first _ ih =>
    cases levels with
    | zero => exact simple first (ih noElse)
    | succ levels =>
      rcases first with first | first
      · exact simple first (ih noElse)
      · cases first with
        | branch => exact noElse_of_ahead (by simp) (by simp)
        | loop => exact noElse_of_ahead (by simp) (by simp)

/-- Statements are read to the closing brace. The reader looks for the brace before each statement,
and no statement opens with one. -/
theorem blockStatements_complete (eof : Token) {statement : TokenReader Statement} {levels : Nat}
    (complete : CompleteBefore NoElse statement (Derives.Statement levels))
    {tokens rest : List Token} {text : String} {place : Position} {statements : List Statement}
    (derived : Derives.Statements (Derives.Statement levels) tokens statements
      (⟨.rightBrace, text, place⟩ :: rest))
    {fuel : Nat} (enough : tokens.length < fuel) :
    blockStatements eof statement fuel tokens = .ok (statements, rest) := by
  generalize closing : (⟨.rightBrace, text, place⟩ :: rest : List Token) = left at derived
  have noElse : NoElse left := closing ▸ noElse_of_ahead (by simp) (by simp)
  induction derived generalizing fuel with
  | none =>
    subst closing
    obtain ⟨fuel, rfl⟩ : ∃ n, fuel = n + 1 := ⟨fuel - 1, by omega⟩
    rfl
  | @more tokens first after others left derivedFirst derivedOthers ih =>
    have shortened := Derives.Statement.shortens levels derivedFirst
    have notClosed : ahead tokens ≠ some .rightBrace :=
      (Derives.Statement.opens levels).ahead_ne derivedFirst (by simp [Derives.statementOpeners])
    have readFirst := complete derivedFirst (noElse_statements derivedOthers noElse)
    obtain ⟨fuel, rfl⟩ : ∃ n, fuel = n + 1 := ⟨fuel - 1, by omega⟩
    have readOthers : blockStatements eof statement fuel after = .ok (others, rest) :=
      ih (by omega) closing noElse
    cases tokens with
    | nil => simp at shortened
    | cons token inside =>
      have notBrace : token.kind ≠ .rightBrace := fun same => notClosed (congrArg some same)
      simp only [blockStatements, if_neg notBrace, readFirst, readOthers, ok_bind]
      rfl

theorem block_complete (eof : Token) {statement : TokenReader Statement} {levels : Nat}
    (complete : CompleteBefore NoElse statement (Derives.Statement levels)) :
    Complete (block eof statement) (Derives.Block (Derives.Statement levels)) := by
  rintro tokens statements rest ⟨colons, newlines, inside⟩
  have notColon : ∀ {spaced t p inside}, Many .newline spaced (⟨.leftBrace, t, p⟩ :: inside) →
      ahead spaced ≠ some .colon := by
    intro spaced t p inside newlines
    cases newlines <;> simp
  have readInside := blockStatements_complete eof complete inside (Nat.lt_succ_self _)
  simp only [block, skip_eq_of_many colons (notColon newlines), skip_eq_of_many newlines (by simp),
    expect, if_true, ok_bind]
  exact readInside

/-- Another branch is looked for behind line ends. Where there is none, the line ends are left in
place. -/
theorem otherwise_complete {block : TokenReader (List Statement)} {phrase : Phrase Statement}
    (complete : Complete block (Derives.Block phrase)) :
    CompleteBefore NoElse (otherwise block) (Derives.Otherwise phrase) := by
  intro tokens branch rest derived noElse
  cases derived with
  | none =>
    unfold otherwise
    split
    · next found => exact absurd (congrArg ahead found) noElse
    · rfl
  | block newlines inside =>
    simp only [otherwise, skip_eq_of_many newlines (by simp), complete inside, ok_bind]
    rfl

/-- A compound statement is complete before anything that is not its other branch. -/
theorem compound_complete (eof : Token) {levels depth : Nat} {inner : TokenReader Statement}
    (complete : CompleteBefore NoElse inner (Derives.Statement depth)) :
    CompleteBefore NoElse (statementWith eof levels (some inner))
      (Derives.Compound levels (Derives.Statement depth)) := by
  have readBlock : Complete (descend eof ((some inner).map (block eof)))
      (Derives.Block (Derives.Statement depth)) :=
    fun _ _ _ derived => block_complete eof complete derived
  intro tokens statement rest derived noElse
  cases derived with
  | branch test yes no close =>
    have opens := Derives.Block.opens (Derives.Statement depth)
    have readTest := disjunction_complete (operand_complete eof levels)
      (Derives.Operand.shortens levels) test
      ⟨opens.ahead_ne yes (by simp), opens.ahead_ne yes (by simp)⟩
    have readNo := otherwise_complete readBlock no (noElse_close close noElse)
    simp only [statementWith, condition, readTest, readBlock yes, readNo,
      endOfStatement_complete eof close, ok_bind]
    rfl
  | loop iterable body close =>
    simp only [statementWith, expect, if_true, value_complete eof levels iterable, readBlock body,
      endOfStatement_complete eof close, ok_bind]
    rfl

theorem statement_complete (eof : Token) (levels : Nat) :
    CompleteBefore NoElse (statement eof levels) (Derives.Statement levels) := by
  induction levels with
  | zero =>
    intro tokens meaning rest derived _
    exact simple_complete eof 0 none derived
  | succ levels ih =>
    rintro tokens meaning rest (simple | compound) noElse
    · exact simple_complete eof (levels + 1) _ simple
    · exact compound_complete eof ih compound noElse

/-- The outermost loop stops at the end of the tokens only, so nothing need follow. -/
theorem statements_complete (eof : Token) {statement : TokenReader Statement} {levels : Nat}
    (complete : CompleteBefore NoElse statement (Derives.Statement levels)) {tokens : List Token}
    {plan : List Statement} (derived : Derives.Statements (Derives.Statement levels) tokens plan [])
    {fuel : Nat} (enough : tokens.length ≤ fuel) :
    statements eof statement fuel tokens = .ok plan := by
  generalize ending : ([] : List Token) = left at derived
  have noElse : NoElse left := ending ▸ noElse_of_ahead (by simp) (by simp)
  induction derived generalizing fuel with
  | none =>
    subst ending
    cases fuel <;> rfl
  | @more tokens first after others left derivedFirst derivedOthers ih =>
    have shortened := Derives.Statement.shortens levels derivedFirst
    have readFirst := complete derivedFirst (noElse_statements derivedOthers noElse)
    obtain ⟨fuel, rfl⟩ : ∃ n, fuel = n + 1 := ⟨fuel - 1, by omega⟩
    have readOthers : statements eof statement fuel after = .ok others :=
      ih (by omega) ending noElse
    cases tokens with
    | nil => simp at shortened
    | cons token inside =>
      simp only [statements, readFirst, readOthers, ok_bind]
      rfl

end ToolPlan.Grammar

namespace ToolPlan.Plan

/-- A plan that the rules derive from tokens is read from them. -/
theorem ofTokens_of_script {tokens : List Token} {plan : Plan}
    (derived : Derives.Script (body tokens) plan) : ofTokens tokens = .ok plan :=
  Grammar.statements_complete (endToken tokens)
    (Grammar.statement_complete (endToken tokens) maxNesting) derived (Nat.le_refl _)

/-- The plans that are read from tokens are those that the rules derive from the tokens before the
first end of the input; every call stands where its word stands. -/
theorem ofTokens_eq_ok_iff (tokens : List Token) (plan : Plan) :
    ofTokens tokens = .ok plan ↔ Derives.Script (body tokens) plan :=
  ⟨script_of_ofTokens, ofTokens_of_script⟩

end ToolPlan.Plan
