import ToolPlan.Proofs.Grammar.Blame
import ToolPlan.Proofs.Grammar.Follows

/-!
How far reading with a cursor gets. The walk of every construct follows its reader, from the values
up to the whole plan, so it ends as that reader does. What the readers leave of the tokens says
where the cursor is, and it never was behind the first end of the input.

Main statement: `Walk.script_stops_at_end`.
-/

namespace ToolPlan

open Plan (body endToken)
open Derives (cons_of_ahead)
open Grammar (Reading Shortening)

namespace Walk

variable {α β : Type} {tape : Tape} {depth rounds : Nat} {left rest : List Token}
  {cursor after : Cursor}

/-! ### Values -/

theorem indexStep_follows : Follows tape depth rounds (indexStep tape) Grammar.index := by
  intro left cursor stands
  rw [indexStep, runFrom_bind_of_ok (runFrom_peek stands)]
  cases left with
  | nil =>
    rw [tape.kind_peek_nil]
    exact refuse_ends stands .indexOrKey
  | cons token rest =>
    obtain ⟨kind, text, place⟩ := token
    cases kind with
    | number =>
      simp only [Grammar.index, Grammar.peek, List.headD_cons]
      cases (Decimal.int? text.toList).filter Number.isWord with
      | none => exact refuse_ends stands .integerIndex
      | some index =>
        simp only [runFrom_bind_of_ok (runFrom_advance stands)]
        exact .read stands.next
    | string =>
      rw [Grammar.peek, List.headD_cons, runFrom_bind_of_ok (runFrom_advance stands)]
      exact .read stands.next
    | _ => exact refuse_ends stands .indexOrKey

/-- By induction on the rounds, one for each bracket. -/
theorem path_follows : Follows tape depth rounds (path tape rounds) Grammar.path := by
  intro left cursor stands
  induction rounds generalizing left cursor with
  | zero => exact absurd stands.bounded (Nat.not_lt_zero _)
  | succ rounds ih =>
    rw [path]
    by_cases opened : Derives.ahead left = some .leftBracket
    · obtain ⟨text, place, rest, rfl⟩ := cons_of_ahead opened
      rw [runFrom_taken stands, Grammar.path_bracket]
      refine Ends.mono ?_ (Nat.le_succ rounds)
      refine (indexStep_follows stands.inner).bind fun step inside cursor _ inner => ?_
      refine (expect_follows (by decide) _ inner).bind fun bracket after cursor _ outer => ?_
      exact (ih outer).bind fun _ _ _ _ stands => .read stands
    · rw [runFrom_passed stands (by decide) opened, Grammar.path_stop _ opened]
      exact .read stands

/-- Items up to a closing token, each with what stands between it and the next one. The rounds of an
item are those for all of them. -/
theorem items_follows {itemWalk : Walk α} {item : Reading α} {close : TokenKind}
    (expected : Expectation) (solid : close ∉ Grammar.skipped) (unended : close ≠ .eof)
    (shortens : Shortening item) (follows : Follows tape depth rounds itemWalk item) :
    Follows tape depth rounds (items tape close itemWalk rounds)
      (Grammar.items close expected item) := by
  refine follows_of_rounds fun {least left cursor} fewer stands again => ?_
  obtain ⟨cursor', stands', moved⟩ := skip_moves .newline (by decide) stands
  rw [items, runFrom_bind_of_ok moved, Grammar.items_skip shortens]
  by_cases closed : Derives.ahead (Grammar.skip .newline left) = some close
  · obtain ⟨text, place, rest, inside⟩ := cons_of_ahead closed
    rw [inside] at stands' ⊢
    rw [runFrom_taken stands', Grammar.items_close solid]
    exact .read (stands'.next.mono fewer)
  · rw [runFrom_passed stands' unended closed,
      Grammar.items_more shortens (Grammar.ahead_skip_ne _ _) closed]
    refine (follows (stands'.mono fewer)).bind fun first after cursor read behind => ?_
    have shortened := shortens read
    have bounded := stands'.bounded
    obtain ⟨cursor', behind, moved⟩ :=
      separator_moves (behind.within (Nat.lt_trans shortened bounded))
    have skips := (Grammar.many_skip .newline after).length_le
    have comma := (Grammar.comma_skipComma (Grammar.skip .newline after)).length_le
    have shorter : (Grammar.skipComma (Grammar.skip .newline after)).length < least := by omega
    have others := again (behind.within shorter)
    rw [Grammar.items_skip shortens] at others
    rw [runFrom_bind_of_ok moved]
    exact others.bind fun _ _ _ _ stands => .read stands

theorem mapKey_follows : Follows tape depth rounds (mapKey tape) Grammar.mapKey := by
  intro left cursor stands
  rw [mapKey, runFrom_bind_of_ok (runFrom_peek stands)]
  have keyed : ∀ {kind text place rest}, Stands tape depth rounds (⟨kind, text, place⟩ :: rest) cursor →
      Ends tape depth rounds
        (Reading.map (fun _ => text) (Grammar.expect · .assign .mapAssign) (endToken tape.tokens) rest)
        ((advance tape >>= fun _ => expect tape .assign .mapAssign >>= fun _ =>
          (pure text : Walk String)).runFrom cursor) := by
    intro kind text place rest stands
    rw [runFrom_bind_of_ok (runFrom_advance stands)]
    exact (expect_follows (by decide) .mapAssign).map (fun _ => text) stands.next
  cases left with
  | nil =>
    rw [tape.kind_peek_nil]
    exact refuse_ends stands .mapKey
  | cons token rest =>
    obtain ⟨kind, text, place⟩ := token
    cases kind with
    | name => exact keyed stands
    | string => exact keyed stands
    | _ => exact refuse_ends stands .mapKey

section Containers

variable {itemWalk : Walk Expr} {item : Reading Expr}

/-- The bracket is taken before the items are walked, so the items have a round less. -/
theorem array_ends (shortens : Shortening item) (follows : Follows tape depth rounds itemWalk item)
    (stands : Stands tape depth (rounds + 1) (token :: rest) cursor) :
    Ends tape depth rounds (Grammar.arrayOf item (endToken tape.tokens) rest)
      ((array tape itemWalk rounds).runFrom cursor) := by
  have items : Follows tape depth rounds (items tape .rightBracket itemWalk rounds)
      (Grammar.items .rightBracket .value item) :=
    items_follows .value (by decide) (by decide) shortens follows
  rw [array, runFrom_bind_of_ok (runFrom_advance stands), Grammar.arrayOf, Reading.map,
    ← Grammar.items_skip shortens]
  exact items.map Expr.array stands.inner

theorem map_ends (shortens : Shortening item) (follows : Follows tape depth rounds itemWalk item)
    (stands : Stands tape depth (rounds + 1) (token :: rest) cursor) :
    Ends tape depth rounds (Grammar.mapOf item (endToken tape.tokens) rest)
      ((map tape itemWalk rounds).runFrom cursor) := by
  have entry : Follows tape depth rounds (entry tape itemWalk) (Grammar.field item) :=
    mapKey_follows.andThen fun key => follows.map (key, ·)
  have entries : Follows tape depth rounds (items tape .rightParen (Walk.entry tape itemWalk) rounds)
      (Grammar.items .rightParen .mapKey (Grammar.field item)) :=
    items_follows .mapKey (by decide) (by decide) (Grammar.field_shortens shortens) entry
  rw [map, runFrom_bind_of_ok (runFrom_advance stands), Grammar.mapOf, Reading.map,
    ← Grammar.items_skip (Grammar.field_shortens shortens)]
  exact entries.map (fun entries => Expr.map (Entries.ofList entries)) stands.inner

end Containers

/-- A value that is one token is taken at once; a container is walked one level deeper. -/
theorem valueWith_follows {inner : Option (Reading Expr)}
    (nests : Nests tape depth rounds (value tape rounds) inner) :
    Follows tape depth (rounds + 1) (value tape (rounds + 1)) fun eof =>
      Grammar.valueWith eof (inner.map (· eof)) := by
  intro left cursor stands
  rw [value, runFrom_bind_of_ok (runFrom_peek stands)]
  cases left with
  | nil =>
    rw [tape.kind_peek_nil]
    exact refuse_ends stands .value
  | cons token rest =>
    obtain ⟨kind, text, place⟩ := token
    rw [Grammar.peek, List.headD_cons]
    cases kind with
    | dollar =>
      show Ends tape depth (rounds + 1) (Grammar.dollared _ rest)
        ((variableReference tape rounds).runFrom cursor)
      rw [variableReference, runFrom_bind_of_ok (runFrom_advance stands)]
      refine Ends.mono ?_ (Nat.le_succ rounds)
      refine (expect_follows (by decide) .nameAfterDollar).andThen (fun name => ?_) stands.inner
      exact path_follows.map (Expr.var name.text)
    | number =>
      show Ends tape depth (rounds + 1) _ ((number tape).runFrom cursor)
      rw [number, runFrom_bind_of_ok (runFrom_peek_cons stands)]
      simp only [Grammar.valueWith]
      cases Number.ofText? text with
      | none => exact .refused stands
      | some value =>
        simp only [runFrom_bind_of_ok (runFrom_advance stands)]
        exact .read stands.next
    | trueWord => exact taken_ends stands _
    | falseWord => exact taken_ends stands _
    | nullWord => exact taken_ends stands _
    | string => exact taken_ends stands _
    | name => exact taken_ends stands _
    | bare => exact taken_ends stands _
    -- A container is the only value that counts as nested, and the only one that can be too deep.
    | leftBracket =>
      cases nests with
      | full full => exact nested_full _ full stands
      | deeper room shortens follows =>
        simp only [Option.map_some, Grammar.valueWith_bracket shortens]
        exact nested_ends room stands fun _ stands =>
          (array_ends shortens follows stands).mono (Nat.le_succ rounds)
    | leftParen =>
      cases nests with
      | full full => exact nested_full _ full stands
      | deeper room shortens follows =>
        simp only [Option.map_some, Grammar.valueWith_paren shortens]
        exact nested_ends room stands fun _ stands =>
          (map_ends shortens follows stands).mono (Nat.le_succ rounds)
    | _ => exact refuse_ends stands .value

/-- By induction on the rounds, with the levels that the depth leaves. -/
theorem value_follows {levels : Nat} (left : maxNesting - depth = levels) (rounds : Nat) :
    Follows tape depth rounds (value tape rounds) (Grammar.value · levels) :=
  follows_of_levels (fun levels => (Grammar.value_foretells levels).shortens)
    (fun _ nests => valueWith_follows nests) (fun _ nests => valueWith_follows nests) left rounds

/-! ### Conditions -/

theorem comparison_follows {valueWalk : Walk Expr} {value : Reading Expr}
    (follows : Follows tape depth rounds valueWalk value) :
    Follows tape depth rounds (comparison tape valueWalk) fun eof =>
      Grammar.comparison eof (value eof) := by
  intro left cursor stands
  refine (follows stands).bind fun first after cursor _ stands => ?_
  refine (expect_follows (by decide) .comparison stands).bind fun sign after cursor _ stands => ?_
  dsimp only
  cases Comparison.ofSymbol? sign.text with
  | none => exact .refused stands
  | some op => exact follows.map (Condition.compare op first) stands

section Chains

variable {operandWalk : Walk Condition} {operand : Reading Condition} {word : TokenKind}
  {join : Condition → Condition → Condition}

/-- Operands with a word before each, joined to the left. -/
theorem joined_follows (unended : word ≠ .eof) (shortens : Shortening operand)
    (follows : Follows tape depth rounds operandWalk operand) (left : Condition) :
    Follows tape depth rounds (joined tape word join operandWalk rounds left)
      (Grammar.joined word join operand left) := by
  suffices loop : ∀ {least left tokens cursor}, least ≤ rounds →
      Stands tape depth least tokens cursor →
      Ends tape depth rounds (Grammar.joined word join operand left (endToken tape.tokens) tokens)
        ((joined tape word join operandWalk least left).runFrom cursor) from
    fun _ _ stands => loop (Nat.le_refl _) stands
  intro least left tokens cursor fewer stands
  induction least generalizing left tokens cursor with
  | zero => exact absurd stands.bounded (Nat.not_lt_zero _)
  | succ least ih =>
    rw [joined]
    by_cases goes : Derives.ahead tokens = some word
    · obtain ⟨text, place, rest, rfl⟩ := cons_of_ahead goes
      rw [runFrom_taken stands, Grammar.joined_word shortens]
      refine (follows (stands.next.mono fewer)).bind fun right after _ read behind => ?_
      have shortened := Nat.lt_trans (shortens read) stands.inner.bounded
      exact ih (Nat.le_of_succ_le fewer) (behind.within shortened)
    · rw [runFrom_passed stands unended goes, Grammar.joined, Grammar.chain_stop goes]
      exact .read (stands.mono fewer)

theorem chained_follows (unended : word ≠ .eof) (shortens : Shortening operand)
    (follows : Follows tape depth rounds operandWalk operand) :
    Follows tape depth rounds (chained tape word join operandWalk rounds) fun eof =>
      Grammar.chained word join (operand eof) :=
  follows.andThen (joined_follows unended shortens follows)

/-- A disjunction is a chain of chains. -/
theorem disjunction_follows (foretells : Grammar.Foretells operand)
    (follows : Follows tape depth rounds operandWalk operand) :
    Follows tape depth rounds (disjunction tape operandWalk rounds) fun eof =>
      Grammar.disjunction (operand eof) := by
  have shortens : Shortening fun eof => Grammar.chained .andWord .and (operand eof) :=
    (Grammar.chained_foretells foretells (by decide) rfl (by decide)).shortens
  exact chained_follows (by decide) shortens
    (chained_follows (by decide) foretells.shortens follows)

end Chains

/-- The lookahead for a map needs the token after the key only. -/
theorem startsMap_key {kind : TokenKind} (loose : kind = .name ∨ kind = .string) (tape : Tape)
    (text : String) (place : Position) (rest : List Token) :
    Grammar.startsMap (⟨kind, text, place⟩ :: rest) =
      decide ((Grammar.peek (endToken tape.tokens) rest).kind = .assign) := by
  cases rest with
  | nil =>
    rw [tape.kind_peek_nil]
    rcases loose with rfl | rfl <;> rfl
  | cons token rest =>
    obtain ⟨second, text', place'⟩ := token
    rcases loose with rfl | rfl <;> cases second <;> rfl

theorem runFrom_startsMap (stands : Stands tape depth rounds (token :: rest) cursor) :
    (startsMap tape).runFrom cursor = some (.ok (Grammar.startsMap rest), cursor) := by
  have one : 1 ≤ (token :: rest).length := by simp
  rw [startsMap, runFrom_bind_of_ok (runFrom_ahead stands one), List.drop_one, List.tail_cons]
  cases rest with
  | nil =>
    rw [tape.kind_peek_nil]
    rfl
  | cons first others =>
    have two : 2 ≤ (token :: first :: others).length := by simp
    have second := runFrom_bind_of_ok (runFrom_ahead stands two)
      fun token => (pure (decide (token.kind = .assign)) : Walk Bool)
    obtain ⟨kind, text, place⟩ := first
    cases kind with
    | name => rw [startsMap_key (.inl rfl) tape]; exact second
    | string => rw [startsMap_key (.inr rfl) tape]; exact second
    | _ => rfl

/-- A parenthesis opens a group if it does not open a map. -/
theorem runFrom_opensGroup_paren {text : String} {place : Position}
    (stands : Stands tape depth rounds (⟨.leftParen, text, place⟩ :: rest) cursor) :
    (opensGroup tape).runFrom cursor = some (.ok (!Grammar.startsMap rest), cursor) := by
  rw [opensGroup, runFrom_bind_of_ok (runFrom_peek_cons stands), if_pos rfl,
    runFrom_bind_of_ok (runFrom_startsMap stands)]
  rfl

theorem runFrom_opensGroup_other (stands : Stands tape depth rounds left cursor)
    (other : Derives.ahead left ≠ some .leftParen) :
    (opensGroup tape).runFrom cursor = some (.ok false, cursor) := by
  rw [opensGroup, runFrom_bind_of_ok (runFrom_peek stands),
    if_neg (kind_peek_ne tape (by decide) other)]
  rfl

/-- A condition in parentheses, from the opening one on. -/
theorem group_ends {operandWalk : Walk Condition} {inner : Option (Reading Condition)}
    (nests : Nests tape depth rounds operandWalk inner)
    (foretells : ∀ reader, inner = some reader → Grammar.Foretells reader)
    (stands : Stands tape depth (rounds + 1) (token :: rest) cursor) :
    Ends tape depth rounds
      (Reading.andThen
        (fun eof => Grammar.descend eof ((inner.map (· eof)).map Grammar.disjunction))
        (fun grouped => Reading.map (fun _ => grouped) (Grammar.expect · .rightParen .closeParen))
        (endToken tape.tokens) rest)
      ((group tape operandWalk rounds).runFrom cursor) := by
  have nested : Nests tape depth rounds (disjunction tape operandWalk rounds)
      (inner.map fun reader eof => Grammar.disjunction (reader eof)) := by
    cases nests with
    | full full => exact .full full
    | @deeper reader room _ follows =>
      have foretells := foretells reader rfl
      exact .deeper room (Grammar.disjunction_foretells foretells).shortens
        (disjunction_follows foretells follows)
  have closes : Follows tape depth rounds (expect tape .rightParen .closeParen)
      (Grammar.expect · .rightParen .closeParen) := expect_follows (by decide) .closeParen
  have ends := (nested_follows nested).andThen (fun grouped => closes.map fun _ => grouped) stands.inner
  simp only [Option.map_map] at ends ⊢
  rw [group, runFrom_bind_of_ok (runFrom_advance stands)]
  exact ends

/-- The walk looks for a negation, then for a group, and else compares. Where no level is left, the
first two are refused. -/
theorem operandWith_follows {levels : Nat} {inner : Option (Reading Condition)}
    (left : maxNesting - depth = levels) (nests : Nests tape depth rounds (operand tape rounds) inner)
    (foretells : ∀ reader, inner = some reader → Grammar.Foretells reader) :
    Follows tape depth (rounds + 1) (operand tape (rounds + 1)) fun eof =>
      Grammar.operandWith eof (Grammar.comparison eof (Grammar.value eof levels))
        (inner.map (· eof)) := by
  have compares : Follows tape depth (rounds + 1) (comparison tape (value tape (rounds + 1)))
      fun eof => Grammar.comparison eof (Grammar.value eof levels) :=
    comparison_follows (value_follows left (rounds + 1))
  intro tokens cursor stands
  rw [operand]
  by_cases negated : Derives.ahead tokens = some .notWord
  · obtain ⟨text, place, rest, rfl⟩ := cons_of_ahead negated
    rw [runFrom_taken stands]
    refine Ends.mono ?_ (Nat.le_succ rounds)
    exact (nested_follows nests stands.inner).bind fun _ _ _ _ stands => .read stands
  · rw [runFrom_passed stands (by decide) negated]
    by_cases paren : Derives.ahead tokens = some .leftParen
    · obtain ⟨text, place, rest, rfl⟩ := cons_of_ahead paren
      rw [runFrom_bind_of_ok (runFrom_opensGroup_paren stands)]
      simp only [Grammar.operandWith]
      cases Grammar.startsMap rest with
      | true => exact compares stands
      | false => exact (group_ends nests foretells stands).mono (Nat.le_succ rounds)
    · rw [runFrom_bind_of_ok (runFrom_opensGroup_other stands paren), if_neg Bool.false_ne_true]
      simp only [Grammar.operandWith]
      split
      · exact absurd rfl negated
      · exact absurd rfl paren
      · exact compares stands

/-- By induction on the rounds, with the levels that the depth leaves. -/
theorem operand_follows {levels : Nat} (left : maxNesting - depth = levels) (rounds : Nat) :
    Follows tape depth rounds (operand tape rounds) (Grammar.operand · levels) := by
  refine follows_of_levels (fun levels => (Grammar.operand_foretells levels).shortens)
    (fun left nests => operandWith_follows left nests nofun) (fun left nests => ?_) left rounds
  refine operandWith_follows left nests ?_
  rintro _ ⟨⟩
  exact Grammar.operand_foretells _

theorem condition_follows {levels : Nat} (left : maxNesting - depth = levels) :
    Follows tape depth rounds (condition tape rounds) (Grammar.condition · levels) :=
  disjunction_follows (Grammar.operand_foretells levels) (operand_follows left rounds)

/-! ### Statements -/

/-- The close of a statement is taken only if it is a line end. -/
theorem endOfStatement_follows :
    Follows tape depth rounds (endOfStatement tape) Grammar.endOfStatement := by
  intro left cursor stands
  rw [endOfStatement, runFrom_bind_of_ok (runFrom_peek stands)]
  cases left with
  | nil =>
    rw [tape.kind_peek_nil]
    exact .read stands
  | cons token rest =>
    obtain ⟨kind, text, place⟩ := token
    rw [Grammar.peek, List.headD_cons]
    cases kind with
    | newline =>
      simp only [runFrom_bind_of_ok (runFrom_advance stands)]
      exact .read stands.next
    | rightBrace => exact .read stands
    | eof => exact absurd rfl stands.unended
    | _ => exact refuse_ends stands .endOfStatement

theorem looseName_follows (expected : Expectation) :
    Follows tape depth rounds (looseName tape expected) (Grammar.looseName · expected) := by
  intro left cursor stands
  rw [looseName, runFrom_bind_of_ok (runFrom_peek stands)]
  cases left with
  | nil =>
    rw [tape.kind_peek_nil]
    exact refuse_ends stands expected
  | cons token rest =>
    obtain ⟨kind, text, place⟩ := token
    rw [Grammar.peek, List.headD_cons]
    cases kind with
    | name => exact taken_ends stands text
    | bare => exact taken_ends stands text
    | _ => exact refuse_ends stands expected

/-- Each argument takes its name, so one round for each token suffices. -/
theorem arguments_follows {valueWalk : Walk Expr} {value : Reading Expr} (shortens : Shortening value)
    (follows : Follows tape depth rounds valueWalk value) :
    Follows tape depth rounds (arguments tape valueWalk rounds) (Grammar.argumentsOf value) := by
  refine follows_of_rounds fun {least left cursor} fewer stands again => ?_
  rw [arguments, runFrom_bind_of_ok (runFrom_peek stands)]
  by_cases named : Derives.ahead left = some .name
  · obtain ⟨key, place, rest, rfl⟩ := cons_of_ahead named
    rw [Grammar.peek, List.headD_cons, if_pos rfl, runFrom_bind_of_ok (runFrom_advance stands),
      Grammar.argumentsOf_name shortens]
    simp only [Grammar.argument, Reading.andThen, bind_assoc]
    refine (expect_follows (by decide) _ (stands.next.mono fewer)).bind fun sign _ _ read valued => ?_
    refine (follows valued).bind fun first after _ read' others => ?_
    obtain ⟨-, -, -, rfl⟩ := Grammar.expect_eq_ok.mp read
    have shortened := shortens read'
    have bounded := stands.inner.bounded
    rw [List.length_cons] at bounded
    exact (again (others.within (by omega))).bind fun _ _ _ _ stands => .read stands
  · rw [if_neg (kind_peek_ne tape (by decide) named), Grammar.argumentsOf,
      Grammar.arguments_stop _ _ _ named]
    exact .read (stands.mono fewer)

theorem capture_follows : Follows tape depth rounds (capture tape) Grammar.capture := by
  intro left cursor stands
  rw [capture]
  by_cases arrow : Derives.ahead left = some .arrow
  · obtain ⟨text, place, rest, rfl⟩ := cons_of_ahead arrow
    rw [runFrom_taken stands]
    exact (looseName_follows .captureName).map some stands.next
  · rw [runFrom_passed stands (by decide) arrow, Grammar.capture_stop _ arrow]
    exact .read stands

theorem assignment_ends {levels : Nat} (left : maxNesting - depth = levels)
    (stands : Stands tape depth (rounds + 1) (token :: rest) cursor) :
    Ends tape depth rounds (Grammar.assignment levels (endToken tape.tokens) rest)
      ((assignment tape rounds).runFrom cursor) := by
  rw [assignment, runFrom_bind_of_ok (runFrom_advance stands)]
  refine (expect_follows (by decide) .variableName).andThen (fun name => ?_) stands.inner
  refine (expect_follows (by decide) .assignSign).andThen fun _ => ?_
  refine (value_follows left rounds).andThen fun value => ?_
  exact endOfStatement_follows.map fun _ => Statement.assign name.text value

theorem call_ends {levels : Nat} (left : maxNesting - depth = levels)
    (stands : Stands tape depth (rounds + 1) (token :: rest) cursor) :
    Ends tape depth rounds (Grammar.called levels token.place (endToken tape.tokens) rest)
      ((call tape rounds).runFrom cursor) := by
  have shortens := (Grammar.value_foretells levels).shortens
  rw [call, runFrom_bind_of_ok (runFrom_advance stands)]
  refine (looseName_follows .toolName).andThen (fun name => ?_) stands.inner
  refine (arguments_follows shortens (value_follows left rounds)).andThen fun args => ?_
  refine capture_follows.andThen fun capture => ?_
  exact endOfStatement_follows.map fun _ =>
    Statement.call ⟨name, Entries.ofList args, capture, token.place⟩

theorem finish_ends {levels : Nat} (left : maxNesting - depth = levels)
    (stands : Stands tape depth (rounds + 1) (token :: rest) cursor) :
    Ends tape depth rounds (Grammar.finished levels (endToken tape.tokens) rest)
      ((finish tape rounds).runFrom cursor) := by
  rw [finish, runFrom_bind_of_ok (runFrom_advance stands)]
  refine (value_follows left rounds).andThen (fun value => ?_) stands.inner
  exact endOfStatement_follows.map fun _ => Statement.finish value

/-! ### Blocks -/

section Blocks

variable {levels : Nat} {statementWalk : Walk Statement}

/-- By induction on the rounds: the block ends at its brace, or one of its statements is refused. -/
theorem blockStatements_follows
    (follows : Follows tape depth rounds statementWalk (Grammar.statement · levels)) :
    Follows tape depth rounds (blockStatements tape statementWalk rounds)
      (Grammar.blockBody levels) := by
  refine follows_of_rounds fun {least left cursor} fewer stands again => ?_
  have wide := stands.mono fewer
  rw [blockStatements, runFrom_bind_of_ok (runFrom_peek stands)]
  cases left with
  | nil =>
    rw [tape.kind_peek_nil]
    exact refuse_ends wide .closeBrace
  | cons token rest =>
    rw [Grammar.peek, List.headD_cons]
    split
    · next brace =>
      rw [Grammar.blockBody, Grammar.blockStatements, if_pos brace]
      exact taken_ends wide []
    · next ended => exact absurd ended stands.unended
    · next brace ended =>
      have unclosed : ¬ Grammar.Closing (token :: rest) := by
        simpa [Grammar.Closing] using brace
      rw [Grammar.blockBody_more _ _ unclosed]
      refine (follows wide).bind fun first after _ read behind => ?_
      have shortened := Grammar.statement_shortens levels read
      have bounded := stands.bounded
      exact (again (behind.within (by omega))).bind fun _ _ _ _ stands => .read stands

theorem block_follows
    (follows : Follows tape depth rounds statementWalk (Grammar.statement · levels)) :
    Follows tape depth rounds (block tape statementWalk rounds) fun eof tokens =>
      Grammar.braced levels eof (Grammar.beforeBrace tokens) := by
  intro left cursor stands
  obtain ⟨cursor', stands', colons⟩ := skip_moves .colon (by decide) stands
  obtain ⟨cursor'', stands'', lines⟩ := skip_moves .newline (by decide) stands'
  rw [block, runFrom_bind_of_ok colons, runFrom_bind_of_ok lines]
  exact (expect_follows (by decide) .openBrace).andThen (fun _ => blockStatements_follows follows)
    stands''

/-- A block is entered as a construct of its own, one level deeper. -/
theorem blockOf_follows {inner : Option Nat}
    (nests : Nests tape depth rounds statementWalk
      (inner.map fun levels => (Grammar.statement · levels))) :
    Follows tape depth rounds (nested tape (block tape statementWalk rounds))
      (Grammar.blockOf inner) := by
  intro left cursor stands
  cases inner with
  | none =>
    cases nests with
    | full full => exact nested_full _ full stands
  | some levels =>
    cases nests with
    | deeper room _ follows =>
      exact nested_ends room stands fun _ stands => block_follows follows stands

end Blocks

section Compounds

variable {levels : Nat} {inner : Option Nat} {blockWalk : Walk (List Statement)}

/-- The word of the other branch is looked for behind line ends. Where it is missing, the cursor is
set back before them. -/
theorem otherwise_follows {block : Reading (List Statement)}
    (follows : Follows tape depth rounds blockWalk block) :
    Follows tape depth rounds (otherwise tape blockWalk rounds) fun eof =>
      Grammar.otherwise (block eof) := by
  intro left cursor stands
  obtain ⟨after, stands', moved⟩ := skip_moves .newline (by decide) stands
  rw [otherwise, runFrom_bind_of_ok (runFrom_get cursor), runFrom_bind_of_ok moved]
  by_cases goes : Derives.ahead (Grammar.skip .newline left) = some .elseWord
  · obtain ⟨text, place, rest, inside⟩ := cons_of_ahead goes
    rw [inside] at stands'
    rw [runFrom_taken stands']
    simp only [Grammar.otherwise, inside]
    exact follows.map some stands'.next
  · have back : Stands tape depth rounds left (after.moveTo cursor.position) :=
      stands'.moveTo stands.position_le stands.facing stands.bounded
    rw [runFrom_passed stands' (by decide) goes]
    simp only [Grammar.otherwise]
    split
    · next found => exact absurd (congrArg Derives.ahead found) goes
    · exact .read back

/-- A conditional may have walked past line ends and come back, which its positions show. -/
theorem branch_ends (left : maxNesting - depth = levels)
    (follows : Follows tape depth rounds blockWalk (Grammar.blockOf inner))
    (stands : Stands tape depth (rounds + 1) (token :: rest) cursor) :
    Ends tape depth rounds (Grammar.conditional levels inner (endToken tape.tokens) rest)
      ((branch tape blockWalk rounds).runFrom cursor) := by
  rw [branch, runFrom_bind_of_ok (runFrom_advance stands)]
  refine (condition_follows left).andThen (fun condition => ?_) stands.inner
  refine follows.andThen fun yes => ?_
  intro tokens cursor stands
  have ending : Reading.map (Statement.branch condition yes) (Grammar.ending inner)
      (endToken tape.tokens) tokens =
        Grammar.otherwise (Grammar.blockOf inner (endToken tape.tokens)) tokens >>= fun no =>
          Grammar.endOfStatement (endToken tape.tokens) no.2 >>= fun ended =>
            pure (.branch condition yes no.1, ended.2) := by
    simp only [Reading.map, Grammar.ending, bind_assoc, pure_bind]
  rw [ending]
  refine (otherwise_follows follows stands).bind fun no after cursor _ stands => ?_
  exact (endOfStatement_follows stands).bind fun _ _ _ _ stands => .read stands

theorem loop_ends (left : maxNesting - depth = levels)
    (follows : Follows tape depth rounds blockWalk (Grammar.blockOf inner))
    (stands : Stands tape depth (rounds + 1) (token :: rest) cursor) :
    Ends tape depth rounds (Grammar.looped levels inner (endToken tape.tokens) rest)
      ((loop tape blockWalk rounds).runFrom cursor) := by
  rw [loop, runFrom_bind_of_ok (runFrom_advance stands)]
  refine (expect_follows (by decide) .loopVariable).andThen (fun var => ?_) stands.inner
  refine (expect_follows (by decide) .inWord).andThen fun _ => ?_
  refine (value_follows left rounds).andThen fun iterable => ?_
  refine follows.andThen fun body => ?_
  exact endOfStatement_follows.map fun _ => Statement.loop var.text iterable body

end Compounds

/-- The statement is chosen by its first word, as the reader chooses it. -/
theorem statementWith_follows {levels : Nat} (inner : Option Nat) (left : maxNesting - depth = levels)
    (nests : Nests tape depth rounds (statement tape rounds)
      (inner.map fun levels => (Grammar.statement · levels))) :
    Follows tape depth (rounds + 1) (statement tape (rounds + 1)) fun eof =>
      Grammar.statementWith eof levels (inner.map (Grammar.statement eof)) := by
  have blocks := blockOf_follows nests
  intro tokens cursor stands
  rw [statement, runFrom_bind_of_ok (runFrom_peek stands)]
  cases tokens with
  | nil =>
    rw [tape.kind_peek_nil]
    exact refuse_ends stands .statement
  | cons token rest =>
    obtain ⟨kind, text, place⟩ := token
    rw [Grammar.peek, List.headD_cons]
    cases kind with
    | newline => exact taken_ends stands Statement.blank
    | letWord => exact (assignment_ends left stands).mono (Nat.le_succ rounds)
    | callWord => exact (call_ends left stands).mono (Nat.le_succ rounds)
    | ifWord =>
      simp only [Grammar.statementWith_if]
      exact (branch_ends left blocks stands).mono (Nat.le_succ rounds)
    | forWord => exact (loop_ends left blocks stands).mono (Nat.le_succ rounds)
    | returnWord => exact (finish_ends left stands).mono (Nat.le_succ rounds)
    | _ => exact refuse_ends stands .statement

/-- By induction on the rounds, with the levels that the depth leaves. -/
theorem statement_follows {levels : Nat} (left : maxNesting - depth = levels) (rounds : Nat) :
    Follows tape depth rounds (statement tape rounds) (Grammar.statement · levels) :=
  follows_of_levels Grammar.statement_shortens
    (fun left nests => statementWith_follows none left nests)
    (fun left nests => statementWith_follows (some _) left nests) left rounds

/-! ### Scripts -/

/-- By induction on the rounds, one for each statement. -/
theorem script_follows {levels : Nat} (left : maxNesting - depth = levels) :
    Follows tape depth rounds (script tape rounds) (Grammar.script levels) := by
  intro tokens cursor stands
  induction rounds generalizing tokens cursor with
  | zero => exact absurd stands.bounded (Nat.not_lt_zero _)
  | succ rounds ih =>
    rw [script, runFrom_bind_of_ok (runFrom_peek stands)]
    cases tokens with
    | nil =>
      rw [if_pos tape.kind_peek_nil]
      exact .read stands
    | cons token rest =>
      have unread : ¬ Derives.ahead (token :: rest) = none := by simp
      rw [Grammar.peek, List.headD_cons, if_neg stands.unended, Grammar.script_more _ _ unread]
      refine (statement_follows left _ stands).bind fun first after _ read behind => ?_
      have shortened := Grammar.statement_shortens levels read
      have bounded := stands.bounded
      refine Ends.mono ?_ (Nat.le_succ rounds)
      exact (ih (behind.within (by omega))).bind fun _ _ _ _ stands => .read stands

/-- From a cursor that has never been beyond the first end of the input, a statement is read or
refused, and the cursor it leaves has never been beyond that end either. It is as deep as before, and
where a statement was read, it is further on. -/
theorem statement_ends (enough : (body tape.tokens).length < rounds)
    (confined : cursor.Within (body tape.tokens).length) :
    ∃ result last, (statement tape rounds).runFrom cursor = some (result, last) ∧
      last.Within (body tape.tokens).length ∧ last.depth = cursor.depth ∧
      ∀ meaning, result = .ok meaning → cursor.position < last.position := by
  have bounded : ((body tape.tokens).drop cursor.position).length < rounds := by
    rw [List.length_drop]
    omega
  have stands : Stands tape cursor.depth rounds ((body tape.tokens).drop cursor.position) cursor :=
    ⟨rfl, confined, rfl, bounded⟩
  have ends : Ends tape cursor.depth rounds
      (Grammar.statement (endToken tape.tokens) (maxNesting - cursor.depth)
        ((body tape.tokens).drop cursor.position)) ((statement tape rounds).runFrom cursor) :=
    statement_follows rfl rounds stands
  generalize read : Grammar.statement _ _ _ = outcome,
    (statement tape rounds).runFrom cursor = ended at ends
  cases ends with
  | refused refused => exact ⟨_, _, rfl, refused.confined, refused.nesting, nofun⟩
  | read done =>
    have shortened := Grammar.statement_shortens _ read
    have before := stands.position_add_length
    have after := done.position_add_length
    exact ⟨_, _, rfl, done.confined, done.nesting, fun _ _ => by omega⟩

/-- A script is read as the plan of its tokens, and the cursor has never been beyond the first end of
the input. -/
theorem script_ends {tokens : List Token} (enough : (body tokens).length < rounds) :
    ∃ last, (script (.ofTokens tokens) rounds).runFrom .start = some (Plan.ofTokens tokens, last) ∧
      last.Within (body tokens).length ∧ last.depth = 0 := by
  rw [← Tape.body_ofTokens] at enough ⊢
  have ends : Ends (.ofTokens tokens) 0 rounds ((Plan.ofTokens tokens).map (·, []))
      ((script (.ofTokens tokens) rounds).runFrom .start) := by
    rw [← Plan.script_eq, ← Tape.endToken_ofTokens, ← Tape.body_ofTokens]
    exact script_follows rfl (Stands.start (.ofTokens tokens) enough)
  generalize (script (.ofTokens tokens) rounds).runFrom .start = ended at ends ⊢
  cases read : Plan.ofTokens tokens with
  | error fault =>
    rw [read] at ends
    cases ends with
    | refused refused => exact ⟨_, rfl, refused.confined, refused.nesting⟩
  | ok plan =>
    rw [read] at ends
    cases ends with
    | read done => exact ⟨_, rfl, done.confined, done.nesting⟩

/-- The first end of the input is the end, whatever stands behind it: a script has the plan or the
error that the tokens up to there have by themselves. Reading it comes to an end, as no loop goes round
more often than there are tokens before that end, and once more. The cursor never goes beyond that end,
and when all is done, it is in no nested construct. From whatever cursor that has not gone beyond it, in
blocks or not, a statement that is read takes one token or more, also where the cursor goes back before
the line ends behind which no `ELSE` was found. -/
theorem script_stops_at_end {before : List Token} {ending : Token} (after : List Token)
    (unended : ∀ token ∈ before, token.kind ≠ .eof) (isEnd : ending.kind = .eof) :
    Plan.ofTokens (before ++ ending :: after) = Plan.ofTokens (before ++ [ending]) ∧
    ∀ rounds, before.length < rounds →
      (∃ last, (script (.ofTokens (before ++ [ending])) rounds).runFrom .start =
        some (Plan.ofTokens (before ++ [ending]), last)) ∧
      (∃ last, (script (.ofTokens (before ++ ending :: after)) rounds).runFrom .start =
          some (Plan.ofTokens (before ++ [ending]), last) ∧
        last.Within before.length ∧ last.depth = 0) ∧
      ∀ cursor, cursor.Within before.length →
        ∃ result last,
          (statement (.ofTokens (before ++ ending :: after)) rounds).runFrom cursor =
              some (result, last) ∧
            last.Within before.length ∧ last.depth = cursor.depth ∧
            ∀ meaning, result = .ok meaning → cursor.position < last.position := by
  have cut : ∀ after, body (before ++ ending :: after) = before := fun after => by
    rw [Plan.body_append_of_forall unended, body, List.takeWhile_cons_of_neg (by simpa using isEnd),
      List.append_nil]
  have found : ∀ after, endToken (before ++ ending :: after) = ending := fun after => by
    have nowhere : before.find? (·.kind = .eof) = none := by simpa using unended
    rw [endToken, List.find?_append, nowhere, List.find?_cons_of_pos (by simpa using isEnd)]
    rfl
  -- A plan is read from the tokens before the first end and from that end, which the lists share.
  have same : Plan.ofTokens (before ++ ending :: after) = Plan.ofTokens (before ++ [ending]) := by
    rw [Plan.ofTokens, Plan.ofTokens, cut, cut, found, found]
  refine ⟨same, fun rounds enough => ?_⟩
  have read : ∀ after, ∃ last,
      (script (.ofTokens (before ++ ending :: after)) rounds).runFrom .start =
          some (Plan.ofTokens (before ++ ending :: after), last) ∧
        last.Within before.length ∧ last.depth = 0 := by
    intro after
    have ends := @script_ends rounds (before ++ ending :: after)
    rw [cut] at ends
    exact ends enough
  obtain ⟨alone, readAlone, -⟩ := read []
  refine ⟨⟨alone, readAlone⟩, same ▸ read after, fun cursor inside => ?_⟩
  have bound : (body (Tape.ofTokens (before ++ ending :: after)).tokens).length = before.length := by
    rw [Tape.body_ofTokens, cut]
  rw [← bound] at inside enough ⊢
  exact statement_ends enough inside

/-- A conditional without another branch, and two line ends. -/
def oneBranch : List Token :=
  [⟨.ifWord, "IF", ⟨1, 1⟩⟩, ⟨.nullWord, "null", ⟨1, 4⟩⟩, ⟨.comparison, "==", ⟨1, 9⟩⟩,
   ⟨.nullWord, "null", ⟨1, 12⟩⟩, ⟨.leftBrace, '{'.toString, ⟨1, 17⟩⟩,
   ⟨.rightBrace, '}'.toString, ⟨1, 18⟩⟩, ⟨.newline, "", ⟨1, 19⟩⟩, ⟨.newline, "", ⟨2, 1⟩⟩]

/-- The word of another branch, and one more end of the input. -/
def lateOtherwise : List Token :=
  [⟨.elseWord, "ELSE", ⟨3, 2⟩⟩, ⟨.eof, "", ⟨3, 6⟩⟩]

/-- The cursor goes back from the end of the input to the first line end. -/
theorem script_stops_at_end_oneBranch :
    (∀ token ∈ oneBranch, token.kind ≠ .eof) ∧ (⟨.eof, "", ⟨3, 1⟩⟩ : Token).kind = .eof ∧
    ∃ last, (script (.ofTokens (oneBranch ++ ⟨.eof, "", ⟨3, 1⟩⟩ :: lateOtherwise)) 9).runFrom .start =
        some (.ok [.branch (.compare .eq .null .null) [] none, .blank], last) ∧
      last.Within 8 ∧ last.depth = 0 := by
  have unended : ∀ token ∈ oneBranch, token.kind ≠ .eof := by decide
  have isEnd : (⟨.eof, "", ⟨3, 1⟩⟩ : Token).kind = .eof := rfl
  have enough : oneBranch.length < 9 := by decide
  obtain ⟨-, stops⟩ := script_stops_at_end lateOtherwise unended isEnd
  obtain ⟨-, ⟨last, read, within, level⟩, -⟩ := stops 9 enough
  exact ⟨unended, isEnd, last, read, within, level⟩

end Walk

end ToolPlan
