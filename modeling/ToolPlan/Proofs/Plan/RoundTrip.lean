import ToolPlan.Proofs.Grammar.Complete
import ToolPlan.Proofs.Plan.Printer

/-!
A plan is read back from its text. Tokens that carry the words of a value, a condition or a statement
derive it, wherever they stand (`Spells`); with the completeness of reading this gives the plan from
its printed words, up to the places of its calls (`Plan.parse_print`).
-/

namespace ToolPlan

open Word (fixed)
open Derives (Phrase ahead)

/-- Tokens with these words are a phrase of that meaning, unless a bracket follows. -/
def Spells {α : Type} (phrase : Phrase α) (words : List Word) (meaning : α) : Prop :=
  ∀ ⦃front rest : List Token⦄, front.map Token.word = words →
    ahead rest ≠ some .leftBracket → phrase (front ++ rest) meaning rest

/-! ### Tokens of words -/

/-- The first token of some words has the first of them. -/
theorem tokens_cons {front : List Token} {kind : TokenKind} {text : String} {words : List Word}
    (written : front.map Token.word = (kind, text) :: words) :
    ∃ place tokens, front = ⟨kind, text, place⟩ :: tokens ∧ tokens.map Token.word = words := by
  obtain ⟨token, tokens, rfl, first, rest⟩ := List.map_eq_cons_iff.mp written
  obtain ⟨rfl, rfl⟩ := Prod.mk.inj first
  exact ⟨token.place, tokens, rfl, rest⟩

theorem tokens_singleton {front : List Token} {kind : TokenKind} {text : String}
    (written : front.map Token.word = [(kind, text)]) : ∃ place, front = [⟨kind, text, place⟩] := by
  obtain ⟨place, tokens, rfl, nothing⟩ := tokens_cons written
  obtain rfl := List.map_eq_nil_iff.mp nothing
  exact ⟨place, rfl⟩

/-! ### Values -/

namespace Expr

theorem derives_scalar {levels : Nat} {tokens rest : List Token} {value : Expr}
    (scalar : Derives.Scalar tokens value rest) : Derives.Value levels tokens value rest := by
  cases levels with
  | zero => exact scalar
  | succ levels => exact .inl scalar

/-- The token of a loose word is a name or a bare word. -/
theorem looseWord_cases {text : String} (loose : (Word.looseKind? text).isSome = true) :
    looseWord text = (.name, text) ∨ looseWord text = (.bare, text) := by
  obtain ⟨kind, found⟩ := Option.isSome_iff_exists.mp loose
  rw [looseWord, found]
  rcases (Word.standalone_loose found).1 with rfl | rfl
  · exact .inl rfl
  · exact .inr rfl

/-- The words of a path are its steps; a path ends where no bracket follows. -/
theorem spells_path (path : List IndexStep) (wellFormed : ∀ step ∈ path, StepWellFormed step) :
    Spells Derives.Path (path.flatMap stepWords) path := by
  induction path with
  | nil =>
    intro front rest written follow
    obtain rfl := List.map_eq_nil_iff.mp written
    exact .done follow
  | cons step path ih =>
    obtain ⟨first, others⟩ := List.forall_mem_cons.mp wellFormed
    intro front rest written follow
    cases step with
    | position index =>
      obtain ⟨_, _, rfl, opened⟩ := tokens_cons written
      obtain ⟨_, _, rfl, indexed⟩ := tokens_cons opened
      obtain ⟨_, _, rfl, closed⟩ := tokens_cons indexed
      have word : Number.isWord index = true := first
      refine .position ?_ (ih others closed follow)
      rw [Number.int?_renderInt, Option.filter_some, if_pos word]
    | key name =>
      obtain ⟨_, _, rfl, opened⟩ := tokens_cons written
      obtain ⟨_, _, rfl, keyed⟩ := tokens_cons opened
      obtain ⟨_, _, rfl, closed⟩ := tokens_cons keyed
      exact .key (ih others closed follow)

mutual

/-- A value that can be written is derived from its words. -/
theorem spells_words : ∀ (value : Expr) (levels : Nat), value.WellFormed → value.nesting ≤ levels →
    Spells (Derives.Value levels) value.words value
  | .number value, levels, wellFormed, _, front, rest, written, follow => by
    rw [WellFormed] at wellFormed
    rw [words] at written
    obtain ⟨text, read⟩ := wellFormed
    obtain ⟨place, rfl⟩ := tokens_singleton written
    exact derives_scalar (.number (Number.ofText?_literal (Number.wellFormed_of_ofText? read)))
  | .bool true, levels, _, _, front, rest, written, follow => by
    rw [words] at written
    obtain ⟨place, rfl⟩ := tokens_singleton written
    exact derives_scalar .trueWord
  | .bool false, levels, _, _, front, rest, written, follow => by
    rw [words] at written
    obtain ⟨place, rfl⟩ := tokens_singleton written
    exact derives_scalar .falseWord
  | .null, levels, _, _, front, rest, written, follow => by
    rw [words] at written
    obtain ⟨place, rfl⟩ := tokens_singleton written
    exact derives_scalar .nullWord
  | .string text, levels, _, _, front, rest, written, follow => by
    rw [words] at written
    obtain ⟨place, rfl⟩ := tokens_singleton written
    exact derives_scalar .string
  | .bare text, levels, wellFormed, _, front, rest, written, follow => by
    rw [WellFormed] at wellFormed
    rw [words] at written
    rcases looseWord_cases wellFormed with named | bare
    · rw [named] at written
      obtain ⟨place, rfl⟩ := tokens_singleton written
      exact derives_scalar .name
    · rw [bare] at written
      obtain ⟨place, rfl⟩ := tokens_singleton written
      exact derives_scalar .bare
  | .array items, levels, wellFormed, fits, front, rest, written, follow => by
    rw [WellFormed] at wellFormed
    rw [nesting] at fits
    rw [words] at written
    obtain ⟨levels, rfl⟩ : ∃ n, levels = n + 1 := ⟨levels - 1, by omega⟩
    obtain ⟨_, _, rfl, opened⟩ := tokens_cons written
    obtain ⟨inside, close, rfl, itemWords, closing⟩ := List.map_eq_append_iff.mp opened
    obtain ⟨_, rfl⟩ := tokens_singleton closing
    rw [List.cons_append, List.append_assoc]
    exact .inr (.array (derives_items items levels wellFormed (by omega) itemWords))
  | .map entries, levels, wellFormed, fits, front, rest, written, follow => by
    rw [WellFormed] at wellFormed
    rw [nesting] at fits
    rw [words] at written
    obtain ⟨levels, rfl⟩ : ∃ n, levels = n + 1 := ⟨levels - 1, by omega⟩
    obtain ⟨_, _, rfl, opened⟩ := tokens_cons written
    obtain ⟨inside, close, rfl, entryWords, closing⟩ := List.map_eq_append_iff.mp opened
    obtain ⟨_, rfl⟩ := tokens_singleton closing
    rw [List.cons_append, List.append_assoc, ← Entries.ofList_of_nodup wellFormed.1]
    exact .inr (.map (derives_entries entries levels wellFormed.2 (by omega) entryWords))
  | .var name path, levels, wellFormed, _, front, rest, written, follow => by
    rw [WellFormed] at wellFormed
    rw [words] at written
    obtain ⟨_, _, rfl, signed⟩ := tokens_cons written
    obtain ⟨_, _, rfl, named⟩ := tokens_cons signed
    exact derives_scalar (.var (spells_path path wellFormed.2 named follow))

/-- The words of items are the items of an array, with the last comma before the bracket. -/
theorem derives_items : ∀ (items : List Expr) (levels : Nat), WellFormedItems items →
    nestingOfItems items ≤ levels → ∀ {front rest : List Token} {text : String} {place : Position},
    front.map Token.word = wordsOfItems items →
    Derives.Items (Derives.Value levels) (front ++ ⟨.rightBracket, text, place⟩ :: rest) items rest
  | [], levels, _, _, front, rest, text, place, written => by
    rw [wordsOfItems] at written
    obtain rfl := List.map_eq_nil_iff.mp written
    exact .close .none
  | item :: items, levels, wellFormed, fits, front, rest, text, place, written => by
    rw [WellFormedItems] at wellFormed
    rw [nestingOfItems] at fits
    rw [wordsOfItems] at written
    obtain ⟨first, others, rfl, itemWords, more⟩ := List.map_eq_append_iff.mp written
    obtain ⟨_, _, rfl, otherWords⟩ := tokens_cons more
    rw [List.append_assoc, List.cons_append]
    exact .more .none (spells_words item levels wellFormed.1 (by omega) itemWords (by simp)) .none
      .present (derives_items items levels wellFormed.2 (by omega) otherWords)

/-- The words of entries are the fields of a map, each key once. -/
theorem derives_entries : ∀ (entries : List (String × Expr)) (levels : Nat),
    WellFormedEntries entries → nestingOfEntries entries ≤ levels →
    ∀ {front rest : List Token} {text : String} {place : Position},
    front.map Token.word = wordsOfEntries entries →
    Derives.Fields (Derives.Value levels) (front ++ ⟨.rightParen, text, place⟩ :: rest) entries rest
  | [], levels, _, _, front, rest, text, place, written => by
    rw [wordsOfEntries] at written
    obtain rfl := List.map_eq_nil_iff.mp written
    exact .close .none
  | (key, value) :: entries, levels, wellFormed, fits, front, rest, text, place, written => by
    rw [WellFormedEntries] at wellFormed
    rw [nestingOfEntries] at fits
    rw [wordsOfEntries] at written
    obtain ⟨_, _, rfl, keyed⟩ := tokens_cons written
    obtain ⟨_, _, rfl, assigned⟩ := tokens_cons keyed
    obtain ⟨first, others, rfl, valueWords, more⟩ := List.map_eq_append_iff.mp assigned
    obtain ⟨_, _, rfl, otherWords⟩ := tokens_cons more
    rw [List.cons_append, List.cons_append, List.append_assoc, List.cons_append]
    exact .more .none .string
      (spells_words value levels wellFormed.1 (by omega) valueWords (by simp)) .none .present
      (derives_entries entries levels wellFormed.2 (by omega) otherWords)

end

/-- The words of a value that is no map begin with another sign than a parenthesis. -/
theorem words_not_opener {value : Expr} (wellFormed : value.WellFormed)
    (other : ∀ entries, value ≠ .map entries) :
    ∃ kind text words, value.words = (kind, text) :: words ∧ kind ≠ .leftParen := by
  cases value with
  | map entries => exact absurd rfl (other entries)
  | bare text =>
    rw [WellFormed] at wellFormed
    rw [words]
    rcases looseWord_cases wellFormed with named | bare
    · exact ⟨.name, text, [], by rw [named], by simp⟩
    · exact ⟨.bare, text, [], by rw [bare], by simp⟩
  | bool value =>
    cases value with
    | true => exact ⟨_, _, _, by rw [words, fixed], by simp⟩
    | false => exact ⟨_, _, _, by rw [words, fixed], by simp⟩
  | number value => exact ⟨_, _, _, by rw [words], by simp⟩
  | null => exact ⟨_, _, _, by rw [words, fixed], by simp⟩
  | string text => exact ⟨_, _, _, by rw [words], by simp⟩
  | array items => exact ⟨_, _, _, by rw [words, fixed], by simp⟩
  | var name path => exact ⟨_, _, _, by rw [words, fixed], by simp⟩

/-- A value that begins with a parenthesis is a map, and its tokens say so. -/
theorem opensMap_words {value : Expr} (wellFormed : value.WellFormed) {front rest inside : List Token}
    {text : String} {place : Position} (written : front.map Token.word = value.words)
    (opens : front ++ rest = ⟨.leftParen, text, place⟩ :: inside) : Derives.OpensMap inside := by
  by_cases isMap : ∃ entries, value = .map entries
  · obtain ⟨entries, rfl⟩ := isMap
    rw [words] at written
    obtain ⟨_, _, rfl, opened⟩ := tokens_cons written
    obtain ⟨-, rfl⟩ := List.cons.inj opens
    cases entries with
    | nil =>
      rw [wordsOfEntries] at opened
      obtain ⟨_, _, rfl, -⟩ := tokens_cons opened
      exact .close
    | cons entry entries =>
      obtain ⟨key, value⟩ := entry
      rw [wordsOfEntries] at opened
      obtain ⟨_, _, rfl, keyed⟩ := tokens_cons opened
      obtain ⟨_, _, rfl, -⟩ := tokens_cons keyed
      exact .key .string
  · obtain ⟨kind, _, _, first, apart⟩ :=
      words_not_opener wellFormed fun entries same => isMap ⟨entries, same⟩
    rw [first] at written
    obtain ⟨_, _, rfl, -⟩ := tokens_cons written
    exact absurd (congrArg Token.kind (List.cons.inj opens).1) apart

end Expr

/-! ### Conditions -/

namespace Condition

def Slot.phrase (levels : Nat) : Slot → Phrase Condition
  | disjunction => Derives.Disjunction (Derives.Operand levels)
  | conjunction => Derives.Joined .andWord .and (Derives.Operand levels)
  | operand => Derives.Operand levels

/-- An operand may stand in any slot, as a chain of one. -/
theorem spells_slot (slot : Slot) {levels : Nat} {words : List Word} {condition : Condition}
    (spells : Spells (Derives.Operand levels) words condition) :
    Spells (slot.phrase levels) words condition := by
  intro front rest written follow
  cases slot with
  | disjunction => exact .single (.single (spells written follow))
  | conjunction => exact .single (spells written follow)
  | operand => exact spells written follow

/-- A joining word and its right side go on with a chain. -/
theorem spells_joined {word : TokenKind} (other : word ≠ .leftBracket)
    {join : Condition → Condition → Condition} {operand : Phrase Condition}
    {leftWords rightWords : List Word} {left right : Condition}
    (spellsLeft : Spells (Derives.Joined word join operand) leftWords left)
    (spellsRight : Spells operand rightWords right) :
    Spells (Derives.Joined word join operand) (leftWords ++ fixed word :: rightWords)
      (join left right) := by
  intro front rest written follow
  obtain ⟨first, _, rfl, writtenLeft, joined⟩ := List.map_eq_append_iff.mp written
  obtain ⟨_, second, rfl, writtenRight⟩ := tokens_cons joined
  rw [List.append_assoc, List.cons_append]
  refine .more (spellsLeft writtenLeft ?_) (spellsRight writtenRight follow)
  rw [Derives.ahead_cons]
  exact fun same => other (Option.some.inj same)

/-- Words in parentheses are an operand one level further out. -/
theorem spells_group {levels : Nat} {words : List Word} {condition : Condition}
    (spells : Spells (Slot.disjunction.phrase levels) words condition) :
    Spells (Derives.Operand (levels + 1)) (enclose true words) condition := by
  intro front rest written follow
  obtain ⟨_, _, rfl, opened⟩ := tokens_cons written
  obtain ⟨inside, _, rfl, writtenInside, closing⟩ := List.map_eq_append_iff.mp opened
  obtain ⟨_, rfl⟩ := tokens_singleton closing
  rw [List.cons_append, List.append_assoc]
  exact .inr (.group (spells writtenInside (by simp)))

theorem derives_compared {levels : Nat} {tokens rest : List Token} {condition : Condition}
    (compared : Derives.Compared (Derives.Value levels) tokens condition rest) :
    Derives.Operand levels tokens condition rest := by
  cases levels with
  | zero => exact compared
  | succ levels => exact .inl compared

/-- A comparison has to be no group: if its left value opens with a parenthesis, it is a map. -/
theorem spells_compare {levels : Nat} (op : Comparison) {left right : Expr}
    (leftWellFormed : left.WellFormed) (rightWellFormed : right.WellFormed)
    (leftFits : left.nesting ≤ levels) (rightFits : right.nesting ≤ levels) :
    Spells (Derives.Operand levels) (left.words ++ (.comparison, op.symbol) :: right.words)
      (.compare op left right) := by
  intro front rest written follow
  obtain ⟨first, _, rfl, writtenLeft, compared⟩ := List.map_eq_append_iff.mp written
  obtain ⟨_, second, rfl, writtenRight⟩ := tokens_cons compared
  rw [List.append_assoc, List.cons_append]
  exact derives_compared (.compare (fun _ _ _ => Expr.opensMap_words leftWellFormed writtenLeft)
    (left.spells_words levels leftWellFormed leftFits writtenLeft (by simp))
    (Comparison.ofSymbol?_symbol op)
    (right.spells_words levels rightWellFormed rightFits writtenRight follow))

/-- A condition that can be written is derived from its words. -/
theorem spells_words {condition : Condition} (slot : Slot) {levels : Nat}
    (wellFormed : condition.WellFormed) (fits : condition.nesting slot ≤ levels) :
    Spells (slot.phrase levels) (condition.words slot) condition := by
  induction condition generalizing slot levels with
  | not inner ih =>
    obtain ⟨levels, rfl⟩ : ∃ n, levels = n + 1 := ⟨levels - 1, by simp only [nesting] at fits; omega⟩
    apply spells_slot
    intro front rest written follow
    obtain ⟨_, _, rfl, negated⟩ := tokens_cons written
    exact .inr (.not (ih .operand wellFormed (Nat.le_of_succ_le_succ fits) negated follow))
  | and left right ihLeft ihRight =>
    have joined : ∀ {levels}, left.nesting .conjunction ≤ levels → right.nesting .operand ≤ levels →
        Spells (Slot.conjunction.phrase levels)
          (left.words .conjunction ++ fixed .andWord :: right.words .operand) (.and left right) :=
      fun leftFits rightFits => spells_joined (by decide)
        (ihLeft .conjunction wellFormed.1 leftFits) (ihRight .operand wellFormed.2 rightFits)
    simp only [nesting] at fits
    cases slot with
    | operand =>
      -- Only here a conjunction needs parentheses, and they take a level.
      simp only [decide_true, Bool.toNat_true] at fits
      obtain ⟨levels, rfl⟩ : ∃ n, levels = n + 1 := ⟨levels - 1, by omega⟩
      exact spells_group fun _ _ written follow =>
        .single (joined (by omega) (by omega) written follow)
    | conjunction => exact joined (by omega) (by omega)
    | disjunction =>
      exact fun _ _ written follow => .single (joined (by omega) (by omega) written follow)
  | or left right ihLeft ihRight =>
    have joined : ∀ {levels}, left.nesting .disjunction ≤ levels →
        right.nesting .conjunction ≤ levels → Spells (Slot.disjunction.phrase levels)
          (left.words .disjunction ++ fixed .orWord :: right.words .conjunction) (.or left right) :=
      fun leftFits rightFits => spells_joined (by decide)
        (ihLeft .disjunction wellFormed.1 leftFits) (ihRight .conjunction wellFormed.2 rightFits)
    simp only [nesting] at fits
    cases slot with
    | disjunction => exact joined (by omega) (by omega)
    | conjunction =>
      simp only [ne_eq, reduceCtorEq, not_false_eq_true, decide_true, Bool.toNat_true] at fits
      obtain ⟨levels, rfl⟩ : ∃ n, levels = n + 1 := ⟨levels - 1, by omega⟩
      exact spells_slot .conjunction (spells_group (joined (by omega) (by omega)))
    | operand =>
      simp only [ne_eq, reduceCtorEq, not_false_eq_true, decide_true, Bool.toNat_true] at fits
      obtain ⟨levels, rfl⟩ : ∃ n, levels = n + 1 := ⟨levels - 1, by omega⟩
      exact spells_group (joined (by omega) (by omega))
  | compare op left right =>
    have deep : max left.nesting right.nesting ≤ levels := fits
    exact spells_slot slot (spells_compare op wellFormed.1 wellFormed.2 (by omega) (by omega))

end Condition

/-! ### Statements -/

namespace Call

/-- Neither a key nor the end of the arguments is a bracket, so a value before them ends there. -/
theorem ahead_args {args : Entries Expr} {front rest : List Token}
    (written : front.map Token.word = wordsOfArgs args) (follow : ahead rest ≠ some .leftBracket) :
    ahead (front ++ rest) ≠ some .leftBracket := by
  cases args with
  | nil =>
    obtain rfl := List.map_eq_nil_iff.mp written
    exact follow
  | cons arg args =>
    obtain ⟨_, _, rfl, -⟩ := tokens_cons written
    simp

theorem spells_args {args : Entries Expr} {levels : Nat} (values : Expr.WellFormedEntries args)
    (fits : Expr.nestingOfEntries args ≤ levels) :
    Spells (Derives.Arguments (Derives.Value levels)) (wordsOfArgs args) args := by
  induction args with
  | nil =>
    intro front rest written follow
    obtain rfl := List.map_eq_nil_iff.mp written
    exact .none
  | cons arg args ih =>
    obtain ⟨key, value⟩ := arg
    rw [Expr.WellFormedEntries] at values
    rw [Expr.nestingOfEntries] at fits
    intro front rest written follow
    obtain ⟨_, _, rfl, keyed⟩ := tokens_cons written
    obtain ⟨_, _, rfl, assigned⟩ := tokens_cons keyed
    obtain ⟨first, others, rfl, valueWords, otherWords⟩ := List.map_eq_append_iff.mp assigned
    rw [List.cons_append, List.cons_append, List.append_assoc]
    exact .more
      (value.spells_words levels values.1 (by omega) valueWords (ahead_args otherWords follow))
      (ih values.2 (by omega) otherWords follow)

theorem derives_looseName {text : String} (loose : (Word.looseKind? text).isSome = true)
    {front : List Token} {words : List Word}
    (written : front.map Token.word = Expr.looseWord text :: words) :
    ∃ tokens, tokens.map Token.word = words ∧
      ∀ rest, Derives.LooseName (front ++ rest) text (tokens ++ rest) := by
  rcases Expr.looseWord_cases loose with named | bare
  · rw [named] at written
    obtain ⟨_, tokens, rfl, others⟩ := tokens_cons written
    exact ⟨tokens, others, fun _ => .name⟩
  · rw [bare] at written
    obtain ⟨_, tokens, rfl, others⟩ := tokens_cons written
    exact ⟨tokens, others, fun _ => .bare⟩

/-- What follows the arguments is an arrow, or what follows the call. -/
theorem ahead_capture {capture : Option String} {front rest : List Token}
    (written : front.map Token.word = wordsOfCapture capture)
    (follow : ahead rest ≠ some .leftBracket) : ahead (front ++ rest) ≠ some .leftBracket := by
  cases capture with
  | none =>
    obtain rfl := List.map_eq_nil_iff.mp written
    exact follow
  | some name =>
    obtain ⟨_, _, rfl, -⟩ := tokens_cons written
    simp

theorem derives_capture {capture : Option String}
    (loose : ∀ name ∈ capture, (Word.looseKind? name).isSome = true) {front rest : List Token}
    (written : front.map Token.word = wordsOfCapture capture) :
    Derives.Capture (front ++ rest) capture rest := by
  cases capture with
  | none =>
    obtain rfl := List.map_eq_nil_iff.mp written
    exact .none
  | some name =>
    obtain ⟨_, _, rfl, named⟩ := tokens_cons written
    obtain ⟨tokens, nothing, derived⟩ := derives_looseName (loose name rfl) named
    obtain rfl := List.map_eq_nil_iff.mp nothing
    exact .arrow (derived rest)

/-- A call that can be written is derived from its words, at the place of the first of them. -/
theorem derives_words {call : Call} {levels : Nat} (wellFormed : call.WellFormed)
    (fits : Expr.nestingOfEntries call.args ≤ levels) {front after rest : List Token}
    (written : front.map Token.word = call.words) (follow : ahead after ≠ some .leftBracket)
    (close : Derives.Close after rest) :
    ∃ place, Derives.Simple (Derives.Value levels) (front ++ after)
      (.call { call with place := place }) rest := by
  obtain ⟨place, front, rfl, called⟩ := tokens_cons written
  obtain ⟨_, named, name⟩ := derives_looseName wellFormed.name called
  obtain ⟨args, capture, rfl, argWords, captureWords⟩ := List.map_eq_append_iff.mp named
  have nameHere := name after
  rw [List.append_assoc] at nameHere
  have argsHere := spells_args wellFormed.values fits argWords (ahead_capture captureWords follow)
  refine ⟨place, ?_⟩
  rw [List.cons_append, ← Entries.ofList_of_nodup wellFormed.distinct]
  exact .call nameHere argsHere (derives_capture wellFormed.capture captureWords) close

end Call

namespace Statement

theorem derives_simple {levels : Nat} {tokens rest : List Token} {statement : Statement}
    (simple : Derives.Simple (Derives.Value levels) tokens statement rest) :
    Derives.Statement levels tokens statement rest := by
  cases levels with
  | zero => exact simple
  | succ levels => exact .inl simple

/-- Statements in braces. -/
theorem derives_block {phrase : Phrase Statement} {front rest : List Token}
    {read : List Statement} {t₁ t₂ : String} {p₁ p₂ : Position}
    (derived : Derives.Statements phrase (front ++ ⟨.rightBrace, t₂, p₂⟩ :: rest) read
      (⟨.rightBrace, t₂, p₂⟩ :: rest)) :
    Derives.Block phrase (⟨.leftBrace, t₁, p₁⟩ :: (front ++ ⟨.rightBrace, t₂, p₂⟩ :: rest)) read
      rest :=
  .braces .none .none derived

mutual

/-- A statement that can be written is derived from its words, up to the places of its calls. -/
theorem derives_words : ∀ (statement : Statement) (levels : Nat), statement.WellFormed →
    statement.nesting ≤ levels → ∀ {front rest : List Token},
    front.map Token.word = statement.words →
    ∃ read, unplaced read = statement.unplaced ∧
      Derives.Statement levels (front ++ rest) read rest
  | .assign name value, levels, wellFormed, fits, front, rest, written => by
    rw [WellFormed] at wellFormed
    rw [nesting] at fits
    rw [words] at written
    obtain ⟨_, _, rfl, opened⟩ := tokens_cons written
    obtain ⟨_, _, rfl, named⟩ := tokens_cons opened
    obtain ⟨_, _, rfl, assigned⟩ := tokens_cons named
    obtain ⟨inside, _, rfl, valueWords, closing⟩ := List.map_eq_append_iff.mp assigned
    obtain ⟨_, rfl⟩ := tokens_singleton closing
    refine ⟨.assign name value, rfl, derives_simple ?_⟩
    simp only [List.cons_append, List.append_assoc]
    exact .assign (value.spells_words levels wellFormed.2 fits valueWords (by simp)) .newline
  | .call request, levels, wellFormed, fits, front, rest, written => by
    rw [WellFormed] at wellFormed
    rw [nesting] at fits
    rw [words] at written
    obtain ⟨inside, _, rfl, callWords, closing⟩ := List.map_eq_append_iff.mp written
    obtain ⟨_, rfl⟩ := tokens_singleton closing
    rw [List.append_assoc]
    -- A call is read at the place of its word, which its words do not tell.
    obtain ⟨place, derived⟩ :=
      Call.derives_words wellFormed fits callWords (by simp) Derives.Close.newline
    refine ⟨.call { request with place := place }, ?_, derives_simple derived⟩
    simp only [unplaced]
  | .branch condition yes no, levels, wellFormed, fits, front, rest, written => by
    rw [WellFormed] at wellFormed
    rw [nesting] at fits
    rw [words] at written
    obtain ⟨test, first, other⟩ := wellFormed
    obtain ⟨levels, rfl⟩ : ∃ n, levels = n + 1 := ⟨levels - 1, by omega⟩
    obtain ⟨_, _, rfl, opened⟩ := tokens_cons written
    obtain ⟨testTokens, _, rfl, testWords, braced⟩ := List.map_eq_append_iff.mp opened
    obtain ⟨_, _, rfl, block⟩ := tokens_cons braced
    obtain ⟨yesTokens, _, rfl, yesWords, closing⟩ := List.map_eq_append_iff.mp block
    obtain ⟨_, _, rfl, closed⟩ := tokens_cons closing
    obtain ⟨noTokens, _, rfl, noWords, ending⟩ := List.map_eq_append_iff.mp closed
    obtain ⟨_, rfl⟩ := tokens_singleton ending
    obtain ⟨yesRead, yesSame, yesDerived⟩ := derives_wordsOf yes levels first (by omega) yesWords
    obtain ⟨noRead, noSame, noDerived⟩ :=
      derives_wordsOfOtherwise no levels other (by omega) noWords
    refine ⟨.branch condition yesRead noRead, ?_, .inr ?_⟩
    · simp only [unplaced, yesSame, noSame]
    · simp only [List.cons_append, List.append_assoc]
      exact .branch (Condition.spells_words .disjunction test (by omega) testWords (by simp))
        (derives_block yesDerived) noDerived .newline
  | .loop var iterable body, levels, wellFormed, fits, front, rest, written => by
    rw [WellFormed] at wellFormed
    rw [nesting] at fits
    rw [words] at written
    obtain ⟨identifier, values, inside⟩ := wellFormed
    obtain ⟨levels, rfl⟩ : ∃ n, levels = n + 1 := ⟨levels - 1, by omega⟩
    obtain ⟨_, _, rfl, opened⟩ := tokens_cons written
    obtain ⟨_, _, rfl, named⟩ := tokens_cons opened
    obtain ⟨_, _, rfl, among⟩ := tokens_cons named
    obtain ⟨iterableTokens, _, rfl, iterableWords, braced⟩ := List.map_eq_append_iff.mp among
    obtain ⟨_, _, rfl, block⟩ := tokens_cons braced
    obtain ⟨bodyTokens, _, rfl, bodyWords, closing⟩ := List.map_eq_append_iff.mp block
    obtain ⟨_, _, rfl, ending⟩ := tokens_cons closing
    obtain ⟨_, rfl⟩ := tokens_singleton ending
    obtain ⟨read, same, derived⟩ := derives_wordsOf body levels inside (by omega) bodyWords
    refine ⟨.loop var iterable read, ?_, .inr ?_⟩
    · simp only [unplaced, same]
    · simp only [List.cons_append, List.append_assoc]
      exact .loop (iterable.spells_words _ values (by omega) iterableWords (by simp))
        (derives_block derived) .newline
  | .finish value, levels, wellFormed, fits, front, rest, written => by
    rw [WellFormed] at wellFormed
    rw [nesting] at fits
    rw [words] at written
    obtain ⟨_, _, rfl, opened⟩ := tokens_cons written
    obtain ⟨inside, _, rfl, valueWords, closing⟩ := List.map_eq_append_iff.mp opened
    obtain ⟨_, rfl⟩ := tokens_singleton closing
    refine ⟨.finish value, rfl, derives_simple ?_⟩
    simp only [List.cons_append, List.append_assoc]
    exact .finish (value.spells_words levels wellFormed fits valueWords (by simp)) .newline
  | .blank, levels, _, _, front, rest, written => by
    rw [words] at written
    obtain ⟨_, rfl⟩ := tokens_singleton written
    exact ⟨.blank, rfl, derives_simple .blank⟩

/-- The statements are read back one by one, each up to its line end. -/
theorem derives_wordsOf : ∀ (statements : List Statement) (levels : Nat),
    WellFormedAll statements → nestingOf statements ≤ levels → ∀ {front rest : List Token},
    front.map Token.word = wordsOf statements →
    ∃ read, unplacedAll read = unplacedAll statements ∧
      Derives.Statements (Derives.Statement levels) (front ++ rest) read rest
  | [], levels, _, _, front, rest, written => by
    rw [wordsOf] at written
    obtain rfl := List.map_eq_nil_iff.mp written
    exact ⟨[], rfl, .none⟩
  | statement :: others, levels, wellFormed, fits, front, rest, written => by
    rw [WellFormedAll] at wellFormed
    rw [nestingOf] at fits
    rw [wordsOf] at written
    obtain ⟨first, after, rfl, firstWords, afterWords⟩ := List.map_eq_append_iff.mp written
    rw [List.append_assoc]
    obtain ⟨read, same, derived⟩ :=
      derives_words statement levels wellFormed.1 (by omega) firstWords
    obtain ⟨reads, sameOthers, derivedOthers⟩ :=
      derives_wordsOf others levels wellFormed.2 (by omega) afterWords
    refine ⟨read :: reads, ?_, .more derived derivedOthers⟩
    simp only [unplacedAll, same, sameOthers]

theorem derives_wordsOfOtherwise : ∀ (no : Option (List Statement)) (levels : Nat),
    WellFormedOtherwise no → nestingOfOtherwise no ≤ levels → ∀ {front rest : List Token},
    front.map Token.word = wordsOfOtherwise no →
    ∃ read, unplacedOtherwise read = unplacedOtherwise no ∧
      Derives.Otherwise (Derives.Statement levels) (front ++ rest) read rest
  | none, levels, _, _, front, rest, written => by
    rw [wordsOfOtherwise] at written
    obtain rfl := List.map_eq_nil_iff.mp written
    exact ⟨none, rfl, .none⟩
  | some statements, levels, wellFormed, fits, front, rest, written => by
    rw [WellFormedOtherwise] at wellFormed
    rw [nestingOfOtherwise] at fits
    rw [wordsOfOtherwise] at written
    obtain ⟨_, _, rfl, opened⟩ := tokens_cons written
    obtain ⟨_, _, rfl, block⟩ := tokens_cons opened
    obtain ⟨inside, _, rfl, insideWords, closing⟩ := List.map_eq_append_iff.mp block
    obtain ⟨_, rfl⟩ := tokens_singleton closing
    obtain ⟨read, same, derived⟩ := derives_wordsOf statements levels wellFormed fits insideWords
    refine ⟨some read, ?_, ?_⟩
    · simp only [unplacedOtherwise, same]
    · simp only [List.cons_append, List.append_assoc]
      exact .block .none (derives_block derived)

end

end Statement

namespace Plan

/-- The tokens of a printed plan carry its words, and then the input ends. -/
theorem scan_print {plan : Plan} (wellFormed : Statement.WellFormedAll plan) :
    ∃ tokens ending, Token.scanChars (Plan.print plan).toList =
        .ok (tokens ++ [Token.endOfInput ending]) ∧
      tokens.map Token.word = Statement.wordsOf plan ∧
      body (tokens ++ [Token.endOfInput ending]) = tokens := by
  have alone := Statement.alone_wordsOf plan wellFormed
  obtain ⟨tokens, ending, scanned, written⟩ := Word.scanChars_writeAll alone
  have inside : ∀ token ∈ tokens, decide (token.kind ≠ .eof) = true := by
    intro token among
    have word : token.word ∈ Statement.wordsOf plan := by
      rw [← written]
      exact List.mem_map_of_mem among
    obtain ⟨c, rest, -, read⟩ := alone _ word
    exact decide_eq_true (Lexeme.kind_ne_eof read)
  refine ⟨tokens, ending, ?_, written, ?_⟩
  · rw [Plan.print, String.toList_ofList]
    exact scanned
  · rw [body, List.takeWhile_append_of_pos inside]
    simp [Token.endOfInput]

/-- A well-formed plan with at most `maxNesting` levels is read back from its text, with nothing
changed but the places of its calls. -/
theorem parse_print {plan : Plan} (wellFormed : Statement.WellFormedAll plan)
    (fits : Statement.nestingOf plan ≤ maxNesting) :
    ∃ read, parse (Plan.print plan) = .ok read ∧
      Statement.unplacedAll read = Statement.unplacedAll plan := by
  obtain ⟨tokens, ending, scanned, written, whole⟩ := scan_print wellFormed
  obtain ⟨read, same, derived⟩ := Statement.derives_wordsOf plan maxNesting wellFormed fits written
  refine ⟨read, ?_, same⟩
  rw [parse, parseChars, scanned]
  apply ofTokens_of_script
  rw [whole, ← List.append_nil tokens]
  exact derived

/-- Blank lines at the front of a plan and of a block, a group on the right of `AND`, a negation, a
map on the left of a comparison, and texts with quotes, a backslash and a line end. -/
def mixed : Plan :=
  [.blank,
   .branch
    (.and (.compare .eq (.var "x" [.position (-1), .key "a\"b\\\n"]) (.number (.int 3)))
      (.or (.not (.compare .lt (.map [("k", .array [.null, .bool true])]) (.bare "web.search")))
        (.compare .ge (.string "it's") (.number (.float ⟨false, 4503599627370496, 1021⟩)))))
    [.call ⟨"web.search", [("q", .var "x" [])], some "out-1", .start⟩]
    (some [.blank, .finish (.bool false)]),
   .loop "i" (.array []) [],
   .assign "y" .null]

/-- The keys, names and numbers of this plan are such that they can be written. -/
theorem mixed_wellFormed : Statement.WellFormedAll mixed := by
  have x : Word.isIdentifier "x" = true := by decide +kernel
  have i : Word.isIdentifier "i" = true := by decide +kernel
  have y : Word.isIdentifier "y" = true := by decide +kernel
  have q : Word.isIdentifier "q" = true := by decide +kernel
  have tool : (Word.looseKind? "web.search").isSome = true := by decide +kernel
  have capture : (Word.looseKind? "out-1").isSome = true := by decide +kernel
  have three : ∃ text, Number.ofText? text = some (.int 3) := ⟨"3", by decide +kernel⟩
  have half : ∃ text, Number.ofText? text = some (.float ⟨false, 4503599627370496, 1021⟩) :=
    ⟨"0.5", by decide +kernel⟩
  have call : Call.WellFormed ⟨"web.search", [("q", .var "x" [])], some "out-1", .start⟩ := by
    constructor
    · exact tool
    · simpa [Entries.keys] using q
    · simp [Entries.keys]
    · simpa [Expr.WellFormedEntries, Expr.WellFormed] using x
    · simpa using capture
  simp [mixed, Statement.WellFormedAll, Statement.WellFormed, Condition.WellFormed, Expr.WellFormed,
    Expr.WellFormedEntries, Expr.WellFormedItems, Statement.WellFormedOtherwise,
    Expr.StepWellFormed, x, i, y, tool, three, half, call, Entries.keys, Number.isWord]

/-- What is printed for it is read back as the same plan, but for the places of its calls. -/
theorem parse_print_mixed : Statement.WellFormedAll mixed ∧
    Statement.nestingOf mixed ≤ maxNesting ∧
    ∃ read, parse (Plan.print mixed) = .ok read ∧
      Statement.unplacedAll read = Statement.unplacedAll mixed := by
  have fits : Statement.nestingOf mixed ≤ maxNesting := by decide +kernel
  exact ⟨mixed_wellFormed, fits, parse_print mixed_wellFormed fits⟩

end Plan

end ToolPlan
