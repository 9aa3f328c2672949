import ToolPlan.Proofs.Grammar.Cursor
import ToolPlan.Proofs.Grammar.Statements

/-!
Walks that follow a reader. A cursor stands before some of the tokens up to the first end of the input
(`Stands`), and from there a walk ends as the reader of the same construct does on these tokens
(`Follows`). A reader never sees what is behind the end, so a walk does not depend on it either. The
levels a reader has left are those that the cursor has not counted yet, and every round of a loop and
every nested construct takes a token, so one round more than there are tokens left is always enough
(`follows_of_rounds`, `follows_of_levels`).
-/

namespace ToolPlan

open Plan (body endToken)
open Derives (cons_of_ahead)
open Grammar (Reading Shortening)

/-! ### The tokens left -/

namespace Tape

/-- The tokens of a tape are those before its first end, that end, and others that are never read. -/
theorem split (tape : Tape) :
    (endToken tape.tokens).kind = .eof ∧
      ∃ after, tape.tokens = body tape.tokens ++ endToken tape.tokens :: after := by
  have whole : Plan.withEnd tape.tokens = tape.tokens := if_pos tape.closed
  simpa only [whole] using Plan.withEnd_split tape.tokens

/-- Up to the first end of the input, the tokens are those before it and then that end. -/
theorem token_eq (tape : Tape) (position : Nat) (within : position ≤ (body tape.tokens).length) :
    tape.token position =
      Grammar.peek (endToken tape.tokens) ((body tape.tokens).drop position) := by
  obtain ⟨-, after, whole⟩ := tape.split
  generalize body tape.tokens = front, endToken tape.tokens = ending at whole within ⊢
  have found : tape.tokens[position]? = some (front[position]?.getD ending) := by
    rw [whole]
    rcases Nat.lt_or_eq_of_le within with inside | rfl
    · rw [List.getElem?_append_left inside, List.getElem?_eq_getElem inside, Option.getD_some]
    · rw [List.getElem?_append_right (Nat.le_refl _), Nat.sub_self, List.getElem?_cons_zero,
        List.getElem?_eq_none (Nat.le_refl _), Option.getD_none]
  rw [token, List.getD_eq_getElem?_getD, found, Option.getD_some, Grammar.peek,
    List.headD_eq_head?_getD, List.head?_drop]

/-- Where no token is left, the next one is the end of the input. -/
theorem kind_peek_nil (tape : Tape) : (Grammar.peek (endToken tape.tokens) []).kind = .eof :=
  tape.split.1

@[simp]
theorem body_ofTokens (tokens : List Token) : body (ofTokens tokens).tokens = body tokens :=
  Plan.body_withEnd tokens

@[simp]
theorem endToken_ofTokens (tokens : List Token) :
    endToken (ofTokens tokens).tokens = endToken tokens := by
  rw [ofTokens, endToken, Plan.find_withEnd, Option.getD_some]

end Tape

/-- The cursor stands before the tokens that are left up to the first end of the input, in so many
nested constructs, and has never been beyond that end. The rounds suffice for these tokens, one for
each, and for the end. -/
structure Stands (tape : Tape) (depth rounds : Nat) (left : List Token) (cursor : Cursor) : Prop where
  facing : (body tape.tokens).drop cursor.position = left
  confined : cursor.Within (body tape.tokens).length
  nesting : cursor.depth = depth
  bounded : left.length < rounds

namespace Stands

variable {tape : Tape} {depth rounds : Nat} {left rest : List Token} {cursor : Cursor} {token : Token}

/-- The cursor before the first token has all tokens left. -/
theorem start (tape : Tape) (enough : (body tape.tokens).length < rounds) :
    Stands tape 0 rounds (body tape.tokens) .start where
  facing := rfl
  confined := by
    intro position among
    rw [List.mem_singleton.mp among]
    exact Nat.zero_le _
  nesting := rfl
  bounded := enough

/-- As many rounds suffice as there are tokens left, and one. -/
theorem within (stands : Stands tape depth rounds left cursor) {rounds' : Nat}
    (enough : left.length < rounds') : Stands tape depth rounds' left cursor :=
  { stands with bounded := enough }

/-- A cursor never stands beyond the first end of the input. -/
theorem position_le (stands : Stands tape depth rounds left cursor) :
    cursor.position ≤ (body tape.tokens).length := by
  have confined : ∀ position ∈ cursor.trail, position ≤ (body tape.tokens).length := stands.confined
  unfold Cursor.position
  cases found : cursor.trail with
  | nil => exact Nat.zero_le _
  | cons position earlier =>
    rw [found] at confined
    exact confined position (List.mem_cons_self ..)

/-- What is left is counted by the position. -/
theorem position_add_length (stands : Stands tape depth rounds left cursor) :
    cursor.position + left.length = (body tape.tokens).length := by
  have within := stands.position_le
  rw [← stands.facing, List.length_drop]
  omega

theorem mono (stands : Stands tape depth rounds left cursor) {rounds' : Nat}
    (more : rounds ≤ rounds') : Stands tape depth rounds' left cursor :=
  stands.within (Nat.lt_of_lt_of_le stands.bounded more)

/-- A cursor may be set to any position up to the end, be it an earlier one. -/
theorem moveTo (stands : Stands tape depth rounds left cursor) {position : Nat}
    (within : position ≤ (body tape.tokens).length)
    (facing : (body tape.tokens).drop position = rest) (bounded : rest.length < rounds) :
    Stands tape depth rounds rest (cursor.moveTo position) where
  facing := facing
  confined := List.forall_mem_cons.mpr ⟨within, stands.confined⟩
  nesting := stands.nesting
  bounded := bounded

/-- Past a token that is no end of the input, the cursor still stands within the tokens. -/
theorem next (stands : Stands tape depth rounds (token :: rest) cursor) :
    Stands tape depth rounds rest cursor.next := by
  have within := stands.position_add_length
  have bounded := stands.bounded
  rw [List.length_cons] at within bounded
  refine stands.moveTo (by omega) ?_ (by omega)
  rw [← List.drop_drop, stands.facing, List.drop_one, List.tail_cons]

/-- One token less takes one round less. -/
theorem inner (stands : Stands tape depth (rounds + 1) (token :: rest) cursor) :
    Stands tape depth rounds rest cursor.next :=
  stands.next.within (Nat.lt_of_succ_lt_succ stands.bounded)

theorem unended (stands : Stands tape depth rounds (token :: rest) cursor) : token.kind ≠ .eof := by
  refine Plan.not_eof_of_mem_body (?_ : token ∈ body tape.tokens)
  apply List.mem_of_mem_drop (i := cursor.position)
  rw [stands.facing]
  exact List.mem_cons_self ..

end Stands

/-! ### Walks that follow a reader -/

namespace Walk

variable {α β : Type} {tape : Tape} {depth rounds : Nat} {left rest : List Token}
  {cursor after : Cursor}
  {token : Token}

/-- A walk in two parts ends where its first part fails, or where the second does. -/
theorem runFrom_bind (walk : Walk α) (more : α → Walk β) (cursor : Cursor) :
    (walk >>= more).runFrom cursor =
      match walk.runFrom cursor with
      | some (.ok meaning, after) => (more meaning).runFrom after
      | some (.error fault, after) => some (.error fault, after)
      | none => none := by
  unfold runFrom
  rw [ExceptT.run_bind, StateT.run_bind]
  cases walk.run.run cursor with
  | none => rfl
  | some ended =>
    obtain ⟨result, after⟩ := ended
    cases result <;> rfl

theorem runFrom_bind_of_ok {walk : Walk α} {meaning : α}
    (first : walk.runFrom cursor = some (.ok meaning, after)) (more : α → Walk β) :
    (walk >>= more).runFrom cursor = (more meaning).runFrom after := by
  rw [runFrom_bind, first]

/-- A walk ends as reading the tokens does, and the cursor before the tokens that are left. Where a
construct is refused, the cursor is as deep as before it, too. -/
inductive Ends (tape : Tape) (depth rounds : Nat) :
    Except PlanError (α × List Token) → Option (Except PlanError α × Cursor) → Prop where
  | read {meaning rest cursor} : Stands tape depth rounds rest cursor →
      Ends tape depth rounds (.ok (meaning, rest)) (some (.ok meaning, cursor))
  | refused {fault rest cursor} : Stands tape depth rounds rest cursor →
      Ends tape depth rounds (.error fault) (some (.error fault, cursor))

/-- From wherever a cursor stands, the walk ends as the reader does. -/
def Follows (tape : Tape) (depth rounds : Nat) (walk : Walk α) (reader : Reading α) : Prop :=
  ∀ ⦃left cursor⦄, Stands tape depth rounds left cursor →
    Ends tape depth rounds (reader (endToken tape.tokens) left) (walk.runFrom cursor)

/-- From wherever a cursor stands, the walk takes the tokens that are dropped. -/
def Moves (tape : Tape) (depth rounds : Nat) (walk : Walk Unit)
    (drop : List Token → List Token) : Prop :=
  ∀ ⦃left cursor⦄, Stands tape depth rounds left cursor →
    ∃ after, Stands tape depth rounds (drop left) after ∧ walk.runFrom cursor = some (.ok (), after)

theorem Ends.mono {result : Except PlanError (α × List Token)}
    {ended : Option (Except PlanError α × Cursor)} (ends : Ends tape depth rounds result ended)
    {rounds' : Nat} (more : rounds ≤ rounds') : Ends tape depth rounds' result ended := by
  cases ends with
  | read stands => exact .read (stands.mono more)
  | refused stands => exact .refused (stands.mono more)

/-- To follow a reader in two parts, follow the first and then, from where the cursor stands, the
second. -/
theorem Ends.bind {first : Except PlanError (α × List Token)}
    {next : α × List Token → Except PlanError (β × List Token)} {walk : Walk α} {more : α → Walk β}
    (ends : Ends tape depth rounds first (walk.runFrom cursor))
    (continues : ∀ meaning rest after, first = .ok (meaning, rest) →
      Stands tape depth rounds rest after →
      Ends tape depth rounds (next (meaning, rest)) ((more meaning).runFrom after)) :
    Ends tape depth rounds (first >>= next) ((walk >>= more).runFrom cursor) := by
  rw [runFrom_bind]
  generalize walk.runFrom cursor = ended at ends
  cases ends with
  | read stands => exact continues _ _ _ rfl stands
  | refused stands => exact .refused stands

theorem Follows.andThen {walk : Walk α} {more : α → Walk β} {first : Reading α}
    {next : α → Reading β} (follows : Follows tape depth rounds walk first)
    (continues : ∀ meaning, Follows tape depth rounds (more meaning) (next meaning)) :
    Follows tape depth rounds (walk >>= more) (first.andThen next) :=
  fun _ _ stands => (follows stands).bind fun meaning _ _ _ stands => continues meaning stands

theorem Follows.map {walk : Walk α} {reader : Reading α}
    (follows : Follows tape depth rounds walk reader) (f : α → β) :
    Follows tape depth rounds (walk >>= fun meaning => pure (f meaning)) (reader.map f) :=
  fun _ _ stands => (follows stands).bind fun _ _ _ _ stands => .read stands

/-- A loop follows its reader if every round does, given that the rounds after it do. -/
theorem follows_of_rounds {walk : Nat → Walk α} {reader : Reading α}
    (round : ∀ {least left cursor}, least < rounds → Stands tape depth (least + 1) left cursor →
      (∀ {left cursor}, Stands tape depth least left cursor →
        Ends tape depth rounds (reader (endToken tape.tokens) left) ((walk least).runFrom cursor)) →
      Ends tape depth rounds (reader (endToken tape.tokens) left)
        ((walk (least + 1)).runFrom cursor)) :
    Follows tape depth rounds (walk rounds) reader := by
  suffices loop : ∀ {least left cursor}, least ≤ rounds → Stands tape depth least left cursor →
      Ends tape depth rounds (reader (endToken tape.tokens) left) ((walk least).runFrom cursor) from
    fun _ _ stands => loop (Nat.le_refl _) stands
  intro least left cursor fewer stands
  induction least generalizing left cursor with
  | zero => exact absurd stands.bounded (Nat.not_lt_zero _)
  | succ least ih => exact round fewer stands fun stands => ih (Nat.le_of_succ_le fewer) stands

/-! ### Steps -/

theorem runFrom_get (cursor : Cursor) :
    (get : Walk Cursor).runFrom cursor = some (.ok cursor, cursor) := rfl

/-- Looking ahead within the tokens sees what the reader sees, and moves nothing. -/
theorem runFrom_ahead (stands : Stands tape depth rounds left cursor) {offset : Nat}
    (within : offset ≤ left.length) :
    (ahead tape offset).runFrom cursor =
      some (.ok (Grammar.peek (endToken tape.tokens) (left.drop offset)), cursor) := by
  have bounded := stands.position_add_length
  have found := tape.token_eq (cursor.position + offset) (by omega)
  rw [← List.drop_drop, stands.facing] at found
  rw [← found]
  rfl

theorem runFrom_peek (stands : Stands tape depth rounds left cursor) :
    (peek tape).runFrom cursor =
      some (.ok (Grammar.peek (endToken tape.tokens) left), cursor) :=
  runFrom_ahead stands (Nat.zero_le _)

theorem runFrom_peek_cons (stands : Stands tape depth rounds (token :: rest) cursor) :
    (peek tape).runFrom cursor = some (.ok token, cursor) :=
  runFrom_peek stands

theorem runFrom_peek_nil (stands : Stands tape depth rounds [] cursor) :
    (peek tape).runFrom cursor = some (.ok (endToken tape.tokens), cursor) :=
  runFrom_peek stands

/-- Taking a token that is left moves the cursor by one. -/
theorem runFrom_advance (stands : Stands tape depth rounds (token :: rest) cursor) :
    (advance tape).runFrom cursor = some (.ok token, cursor.next) := by
  rw [advance, runFrom_bind_of_ok (runFrom_peek_cons stands), if_pos stands.unended]
  rfl

/-- What is read from one token. -/
theorem taken_ends (stands : Stands tape depth rounds (token :: rest) cursor) (meaning : α) :
    Ends tape depth rounds (.ok (meaning, rest))
      ((advance tape >>= fun _ => (pure meaning : Walk α)).runFrom cursor) := by
  rw [runFrom_bind_of_ok (runFrom_advance stands)]
  exact .read stands.next

/-- A refusal blames the token that the reader blames, and leaves the cursor where it is. -/
theorem refuse_ends (stands : Stands tape depth rounds left cursor) (expected : Expectation) :
    Ends tape depth rounds (Grammar.unexpected (endToken tape.tokens) expected left)
      ((refuse tape expected : Walk α).runFrom cursor) := by
  rw [refuse, runFrom_bind_of_ok (runFrom_peek stands)]
  exact .refused stands

/-- An end of the input is of no other kind, so a kind that is not ahead is not seen there either. -/
theorem kind_peek_ne {kind : TokenKind} (tape : Tape) (unended : kind ≠ .eof)
    (other : Derives.ahead left ≠ some kind) :
    (Grammar.peek (endToken tape.tokens) left).kind ≠ kind := by
  cases left with
  | nil => exact tape.split.1 ▸ unended.symm
  | cons token rest => exact fun same => other (congrArg some same)

theorem runFrom_eat_same (stands : Stands tape depth rounds (token :: rest) cursor) :
    (eat tape token.kind).runFrom cursor = some (.ok true, cursor.next) := by
  rw [eat, runFrom_bind_of_ok (runFrom_peek_cons stands), if_pos rfl,
    runFrom_bind_of_ok (runFrom_advance stands)]
  rfl

theorem runFrom_eat_other {kind : TokenKind} (stands : Stands tape depth rounds left cursor)
    (unended : kind ≠ .eof) (other : Derives.ahead left ≠ some kind) :
    (eat tape kind).runFrom cursor = some (.ok false, cursor) := by
  rw [eat, runFrom_bind_of_ok (runFrom_peek stands), if_neg (kind_peek_ne tape unended other)]
  rfl

theorem runFrom_taken (stands : Stands tape depth rounds (token :: rest) cursor) (yes no : Walk α) :
    (eat tape token.kind >>= fun taken => if taken = true then yes else no).runFrom cursor =
      yes.runFrom cursor.next := by
  rw [runFrom_bind_of_ok (runFrom_eat_same stands), if_pos rfl]

theorem runFrom_passed {kind : TokenKind} (stands : Stands tape depth rounds left cursor)
    (unended : kind ≠ .eof) (other : Derives.ahead left ≠ some kind) (yes no : Walk α) :
    (eat tape kind >>= fun taken => if taken = true then yes else no).runFrom cursor =
      no.runFrom cursor := by
  rw [runFrom_bind_of_ok (runFrom_eat_other stands unended other), if_neg Bool.false_ne_true]

/-- The reader and the walk expect the same token and blame the same one. -/
theorem expect_follows {kind : TokenKind} (unended : kind ≠ .eof) (expected : Expectation) :
    Follows tape depth rounds (expect tape kind expected) (Grammar.expect · kind expected) := by
  intro left cursor stands
  show Ends tape depth rounds (Grammar.expect (endToken tape.tokens) kind expected left) _
  cases left with
  | nil =>
    have other : (endToken tape.tokens).kind ≠ kind := tape.split.1 ▸ unended.symm
    rw [expect, runFrom_bind_of_ok (runFrom_peek_nil stands), if_neg other]
    exact refuse_ends stands expected
  | cons token rest =>
    rw [expect, runFrom_bind_of_ok (runFrom_peek_cons stands), Grammar.expect]
    split
    · rw [runFrom_advance stands]
      exact .read stands.next
    · exact refuse_ends stands expected

/-- One round for each token suffices to skip all of a kind. -/
theorem skip_moves (kind : TokenKind) (unended : kind ≠ .eof) :
    Moves tape depth rounds (skip tape kind rounds) (Grammar.skip kind) := by
  intro left cursor stands
  induction rounds generalizing left cursor with
  | zero => exact absurd stands.bounded (Nat.not_lt_zero _)
  | succ rounds ih =>
    by_cases goes : Derives.ahead left = some kind
    · obtain ⟨text, place, rest, rfl⟩ := cons_of_ahead goes
      obtain ⟨after, stands', moved⟩ := ih stands.inner
      refine ⟨after, ?_, (runFrom_taken stands _ _).trans moved⟩
      have skips : Grammar.skip kind (⟨kind, text, place⟩ :: rest) = Grammar.skip kind rest := by
        simp [Grammar.skip]
      rw [skips]
      exact stands'.mono (Nat.le_succ rounds)
    · refine ⟨cursor, ?_, runFrom_passed stands unended goes _ _⟩
      rw [Grammar.skip_of_ahead_ne goes]
      exact stands

/-- The line ends after an item, and a comma if one comes next. -/
theorem separator_moves : Moves tape depth rounds (separator tape rounds) fun tokens =>
    Grammar.skipComma (Grammar.skip .newline tokens) := by
  intro left cursor stands
  obtain ⟨after, stands, moved⟩ := skip_moves .newline (by decide) stands
  rw [separator, runFrom_bind_of_ok moved]
  show ∃ after, Stands tape depth rounds (Grammar.skipComma (Grammar.skip .newline left)) after ∧ _
  generalize Grammar.skip .newline left = tokens at stands ⊢
  by_cases comma : Derives.ahead tokens = some .comma
  · obtain ⟨text, place, rest, rfl⟩ := cons_of_ahead comma
    exact ⟨after.next, stands.next, runFrom_bind_of_ok (runFrom_eat_same stands) _⟩
  · refine ⟨after, ?_, runFrom_bind_of_ok (runFrom_eat_other stands (by decide) comma) _⟩
    rw [Grammar.skipComma_of_ahead_ne comma]
    exact stands

/-! ### Nested constructs -/

/-- A nested construct is left behind whether it was read or refused. -/
theorem runFrom_leave (walk : Walk α) (cursor : Cursor) :
    Walk.runFrom (walk.run >>= leave : StateT Cursor Option (Except PlanError α)) cursor =
      (walk.runFrom cursor).map fun ended => (ended.1, ended.2.leave) := by
  unfold runFrom
  show StateT.run (walk.run >>= leave) cursor = _
  rw [StateT.run_bind]
  cases walk.run.run cursor <;> rfl

/-- Whichever way a construct ends, the level it was entered with is given back. -/
theorem Ends.leave {result : Except PlanError (α × List Token)}
    {ended : Option (Except PlanError α × Cursor)} (ends : Ends tape (depth + 1) rounds result ended) :
    Ends tape depth rounds result (ended.map fun ended => (ended.1, ended.2.leave)) := by
  have back : ∀ {left cursor}, Stands tape (depth + 1) rounds left cursor →
      Stands tape depth rounds left cursor.leave := fun stands =>
    ⟨stands.facing, stands.confined, by rw [Cursor.leave, stands.nesting, Nat.add_sub_cancel],
      stands.bounded⟩
  cases ends with
  | read stands => exact .read (back stands)
  | refused stands => exact .refused (back stands)

/-- With a level left, a construct ends as it does one level deeper, and at the
depth it began with. -/
theorem nested_ends {walk : Walk α} {result : Except PlanError (α × List Token)}
    (room : depth < maxNesting) (stands : Stands tape depth rounds left cursor)
    (inside : ∀ ⦃cursor⦄, Stands tape (depth + 1) rounds left cursor →
      Ends tape (depth + 1) rounds result (walk.runFrom cursor)) :
    Ends tape depth rounds result ((nested tape walk).runFrom cursor) := by
  have shallow : ¬ maxNesting ≤ cursor.depth := stands.nesting ▸ Nat.not_le.mpr room
  have entered : (enter tape).runFrom cursor = some (.ok (), cursor.enter) := by
    rw [enter, runFrom_bind_of_ok (runFrom_get cursor), if_neg shallow]
    rfl
  rw [nested, runFrom_bind_of_ok entered, runFrom_leave]
  have deeper : Stands tape (depth + 1) rounds left cursor.enter :=
    ⟨stands.facing, stands.confined, congrArg (· + 1) stands.nesting, stands.bounded⟩
  exact (inside deeper).leave

/-- Without a level left, the next token is blamed for the depth, as by the reader. -/
theorem nested_full (walk : Walk α) (full : maxNesting ≤ depth)
    (stands : Stands tape depth rounds left cursor) :
    Ends tape depth rounds (.error (.nestingTooDeep (Grammar.peek (endToken tape.tokens) left).place))
      ((nested tape walk).runFrom cursor) := by
  have deep : maxNesting ≤ cursor.depth := stands.nesting ▸ full
  rw [nested, runFrom_bind, enter, runFrom_bind_of_ok (runFrom_get cursor), if_pos deep,
    runFrom_bind_of_ok (runFrom_peek stands)]
  exact .refused stands

/-- What the walk does one level deeper: it follows the reader of what is nested. Where no level is
left, there is no such reader. -/
inductive Nests (tape : Tape) (depth rounds : Nat) (walk : Walk α) : Option (Reading α) → Prop where
  | full : maxNesting ≤ depth → Nests tape depth rounds walk none
  | deeper {reader} : depth < maxNesting → Shortening reader →
      Follows tape (depth + 1) rounds walk reader → Nests tape depth rounds walk (some reader)

theorem nested_follows {walk : Walk α} {inner : Option (Reading α)}
    (nests : Nests tape depth rounds walk inner) :
    Follows tape depth rounds (nested tape walk) fun eof => Grammar.descend eof (inner.map (· eof)) := by
  intro left cursor stands
  cases nests with
  | full full => exact nested_full walk full stands
  | deeper room _ follows => exact nested_ends room stands fun _ stands => follows stands

/-- A walk follows the reader with as many levels as are left, at every depth, if it does so with one
round more wherever it does one level deeper. -/
theorem follows_of_levels {walk : Nat → Walk α} {reader : Nat → Reading α}
    (shortens : ∀ levels, Shortening (reader levels))
    (last : ∀ {depth rounds}, maxNesting - depth = 0 → Nests tape depth rounds (walk rounds) none →
      Follows tape depth (rounds + 1) (walk (rounds + 1)) (reader 0))
    (more : ∀ {depth rounds levels}, maxNesting - depth = levels + 1 →
      Nests tape depth rounds (walk rounds) (some (reader levels)) →
        Follows tape depth (rounds + 1) (walk (rounds + 1)) (reader (levels + 1)))
    {depth levels : Nat} (left : maxNesting - depth = levels) (rounds : Nat) :
    Follows tape depth rounds (walk rounds) (reader levels) := by
  induction rounds generalizing depth levels with
  | zero => exact fun _ _ stands => absurd stands.bounded (Nat.not_lt_zero _)
  | succ rounds ih =>
    cases levels with
    | zero => exact last left (.full (Nat.le_of_sub_eq_zero left))
    | succ levels =>
      have inside : Follows tape (depth + 1) rounds (walk rounds) (reader levels) := ih (by omega)
      exact more left (.deeper (by omega) (shortens levels) inside)

end Walk

end ToolPlan
