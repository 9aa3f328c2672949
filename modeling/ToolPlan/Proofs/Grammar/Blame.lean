import ToolPlan.Proofs.Grammar.Statements

/-!
Where a list of tokens is no plan, the first token that fits no plan is the one that is reported. A
plan is a body of statements that ends with the input, so its reader knows where it stands.

Main statement: `ofTokens_blames`.
-/

namespace ToolPlan.Grammar

open Derives (ahead)

/-! ### Statements up to the end -/

/-- Nothing follows a plan. -/
def Seam.script : Seam where
  Whole _ := True
  Exchange _ rest rest' := rest' = rest
  Ends rest := rest = []
  whole_append := fun _ _ => trivial
  exchange_append := fun _ same => same
  exchange_nil := fun same => .inl (congrArg ahead same)

section Script

variable {levels : Nat}

/-- The statements of a plan, in as many rounds as there can be. -/
def script (levels : Nat) : Reading (List Statement) := fun eof tokens =>
  (statements eof (statement eof levels) tokens.length tokens).map (·, [])

theorem statements_cons (eof : Token) (statement : TokenReader Statement) (fuel : Nat)
    (token : Token) (rest : List Token) :
    statements eof statement (fuel + 1) (token :: rest) =
      statement (token :: rest) >>= fun read =>
        statements eof statement fuel read.2 >>= fun others => pure (read.1 :: others) := rfl

/-- The fuel of the outermost loop does not matter once it covers the tokens, as each statement
takes at least one of them. -/
theorem statements_fuel {eof : Token} {statement : TokenReader Statement}
    (shorter : ∀ {tokens meaning rest}, statement tokens = .ok (meaning, rest) →
      rest.length < tokens.length) {fuel fuel' : Nat} {tokens : List Token}
    (enough : tokens.length ≤ fuel) (enough' : tokens.length ≤ fuel') :
    statements eof statement fuel tokens = statements eof statement fuel' tokens := by
  induction fuel generalizing fuel' tokens with
  | zero =>
    obtain rfl := List.length_eq_zero_iff.mp (Nat.le_zero.mp enough)
    cases fuel' <;> rfl
  | succ fuel ih =>
    cases tokens with
    | nil => cases fuel' <;> rfl
    | cons token rest =>
      simp only [List.length_cons] at enough enough'
      obtain ⟨fuel', rfl⟩ : ∃ n, fuel' = n + 1 := ⟨fuel' - 1, by omega⟩
      rw [statements_cons, statements_cons]
      cases read : statement (token :: rest) with
      | error fault => rfl
      | ok first =>
        have shortened := shorter read
        rw [List.length_cons] at shortened
        have others : statements eof statement fuel first.2 =
            statements eof statement fuel' first.2 := ih (by omega) (by omega)
        simp only [ok_bind, others]

theorem script_more (eof : Token) (tokens : List Token) (goes : ¬ ahead tokens = none) :
    script levels eof tokens =
      Reading.cons (statement · levels) (script levels) eof tokens := by
  cases tokens with
  | nil => exact absurd rfl goes
  | cons token rest =>
    rw [script, List.length_cons, statements_cons, Reading.cons, Reading.andThen]
    cases read : statement eof levels (token :: rest) with
    | error fault => rfl
    | ok first =>
      have shortened := statement_shortens levels read
      rw [List.length_cons] at shortened
      have others : statements eof (statement eof levels) rest.length first.2 =
          statements eof (statement eof levels) first.2.length first.2 :=
        statements_fuel (@statement_shortens levels eof) (by omega) (Nat.le_refl _)
      simp only [ok_bind, others, Reading.map, script]
      cases statements eof (statement eof levels) first.2.length first.2 <;> rfl

/-- A script may end wherever the input does; an end of the input is no part of it. -/
theorem script_isBody (levels : Nat) : Body .script 0 (script levels) where
  noElse := by
    intro eof tokens plan rest read
    cases inside : statements eof (statement eof levels) tokens.length tokens with
    | error fault =>
      rw [script, inside] at read
      cases read
    | ok plan' =>
      have derived := statements_sound (statement_sound eof levels) inside
      exact noElse_statements derived (noElse_of_ahead (by simp) (by simp))
  lines := by
    intro lines found expected allLines refused
    exact lines_of_goes (statement_blank levels) (fun eof text place rest =>
      script_more eof _ (by simp)) (fun refused => by cases refused) allLines refused
  starts := by
    refine ⟨[], [], nofun, ?_⟩
    rintro _ rfl
    exact ⟨.inl rfl, fun _ => rfl⟩
  whole_append _ _ := trivial
  settled := by
    rintro front used rest _ - rfl
    exact ⟨rfl, rfl⟩

/-- A script takes whole lines only, and what it blames is blamed by one of its statements. -/
theorem script_predictive (levels : Nat) (eof : Token) (tokens : List Token) :
    Predictive .script levels 0 (script levels) eof tokens := by
  refine (script_isBody levels).predictive (statement_shortens levels)
    (fun same ended => same.symm.trans ended) script_more (fun eof tokens ended => ?_)
    (statement_predictive levels) eof tokens
  cases tokens with
  | cons => simp at ended
  | nil =>
    constructor
    · intro plan rest read
      obtain ⟨rfl, rfl⟩ := Prod.mk.inj (Except.ok.inj read)
      refine ⟨[], rfl, rfl, trivial, ?_⟩
      rintro eof' _ rfl
      rfl
    · intro found expected refused
      cases refused

end Script

end ToolPlan.Grammar

namespace ToolPlan.Plan

open Grammar (openBlocks script script_predictive SameNext peek)

/-- Tokens that begin alike up to one of them go on alike, or end alike. -/
theorem sameNext_of_prefix {tokens others before left : List Token}
    (split : body tokens = before ++ left)
    (agree : before ++ [peek (endToken tokens) left] <+: withEnd others) :
    ∃ left', body others = before ++ left' ∧
      SameNext (endToken tokens) left (endToken others) left' := by
  obtain ⟨more, agree⟩ := agree
  have unended : ∀ token ∈ before, token.kind ≠ .eof := fun token among =>
    not_eof_of_mem_body (split ▸ List.mem_append_left left among)
  have inside : body others = before ++ body (peek (endToken tokens) left :: more) := by
    rw [← body_withEnd, ← agree, List.append_assoc, body_append_of_forall unended]
    rfl
  refine ⟨_, inside, ?_⟩
  cases left with
  | nil =>
    have isEnd : (endToken tokens).kind = .eof := (withEnd_split tokens).1
    have nothing : body (endToken tokens :: more) = [] := by simp [body, isEnd]
    have same : endToken others = endToken tokens := by
      have found := find_withEnd others
      rw [← agree, List.append_assoc, List.find?_append,
        List.find?_eq_none.mpr fun token among => by simpa using unended token among] at found
      simpa [peek, isEnd] using found.symm
    refine ⟨by rw [peek, List.headD_nil, nothing], ?_⟩
    rw [peek, peek, List.headD_nil, nothing]
    exact same
  | cons token left =>
    have among : token ∈ body tokens := by
      rw [split]
      simp
    have inner : token.kind ≠ .eof := not_eof_of_mem_body among
    have goes : body (token :: more) = token :: body more := by simp [body, inner]
    exact ⟨by rw [peek, List.headD_cons, goes]; rfl, by rw [peek, peek, List.headD_cons, goes]; rfl⟩

/-- Reading the tokens of a plan is reading a script off the ones before the first end. -/
theorem script_eq (tokens : List Token) :
    script maxNesting (endToken tokens) (body tokens) = (ofTokens tokens).map (·, []) := rfl

theorem ofTokens_of_script_ok {tokens rest : List Token} {plan : Plan}
    (read : script maxNesting (endToken tokens) (body tokens) = .ok (plan, rest)) :
    ofTokens tokens = .ok plan := by
  rw [script_eq] at read
  cases found : ofTokens tokens with
  | error fault =>
    rw [found] at read
    cases read
  | ok plan' =>
    rw [found] at read
    obtain ⟨rfl, -⟩ := Prod.mk.inj (Except.ok.inj read)
    rfl

theorem ofTokens_of_script_error {tokens : List Token} {fault : PlanError}
    (failed : script maxNesting (endToken tokens) (body tokens) = .error fault) :
    ofTokens tokens = .error fault := by
  rw [script_eq] at failed
  cases found : ofTokens tokens with
  | error fault' =>
    rw [found] at failed
    rw [Except.error.inj failed]
  | ok plan =>
    rw [found] at failed
    cases failed

/-- A plan is refused because of the first token that fits no plan. The token is one of those that
were given, or the end of the input; whatever else follows it, the same is reported; and other tokens
in its place would have made a plan, as long as fewer than `maxNesting` levels are open before it, of
which every block that is not closed takes one. -/
theorem ofTokens_blames {tokens : List Token} {found : Token} {expected : Expectation}
    (refused : ofTokens tokens = .error (.unexpectedToken found expected)) :
    ∃ before after, withEnd tokens = before ++ found :: after ∧
      (∀ others, before ++ [found] <+: withEnd others →
        ofTokens others = .error (.unexpectedToken found expected)) ∧
      (openBlocks before < maxNesting → ∃ more plan, ofTokens (before ++ more) = .ok plan) := by
  have failed : script maxNesting (endToken tokens) (body tokens) =
      .error (.unexpectedToken found expected) := by
    rw [script_eq, refused]
    rfl
  obtain ⟨before, left, split, blamed⟩ :=
    (script_predictive maxNesting (endToken tokens) (body tokens)).blamed failed
  obtain ⟨-, after, whole⟩ := withEnd_split tokens
  obtain rfl := blamed.next
  have unended : ∀ token ∈ before, token.kind ≠ .eof := fun token among =>
    not_eof_of_mem_body (split ▸ List.mem_append_left left among)
  -- Where no token is left, the end itself is blamed, and that is in the parser's list, too.
  have here : ∃ after, withEnd tokens = before ++ peek (endToken tokens) left :: after := by
    rw [whole, split]
    cases left with
    | nil => exact ⟨after, by simp [peek]⟩
    | cons token left => exact ⟨left ++ endToken tokens :: after, by simp [peek]⟩
  obtain ⟨after', here⟩ := here
  refine ⟨before, after', here, fun others agree => ?_, fun within => ?_⟩
  · obtain ⟨left', split', same⟩ := sameNext_of_prefix split agree
    apply ofTokens_of_script_error
    rw [split']
    exact blamed.firm (endToken others) left' same
  · obtain ⟨more, plan, unended', completed⟩ := blamed.completes within
    have all : body (before ++ more) = before ++ (more ++ []) := by
      rw [List.append_nil]
      exact body_eq_self fun token among =>
        (List.mem_append.mp among).elim (unended token) (unended' token)
    have read : script maxNesting (endToken (before ++ more)) (body (before ++ more)) =
        .ok (plan, []) := by
      rw [all]
      exact completed _ [] rfl
    exact ⟨more, plan, ofTokens_of_script_ok read⟩

/-- A condition without its sign, in a block that is still open. -/
def unsigned : List Token :=
  [⟨.ifWord, "IF", ⟨1, 1⟩⟩, ⟨.name, "a", ⟨1, 4⟩⟩, ⟨.comparison, "==", ⟨1, 6⟩⟩, ⟨.name, "b", ⟨1, 9⟩⟩,
   ⟨.leftBrace, '{'.toString, ⟨1, 11⟩⟩, ⟨.ifWord, "IF", ⟨1, 13⟩⟩, ⟨.leftParen, "(", ⟨1, 16⟩⟩,
   ⟨.name, "c", ⟨1, 17⟩⟩, ⟨.rightParen, ")", ⟨1, 18⟩⟩]

/-- A parenthesis stands in the place of a sign. What completes the tokens before it has to close
the block as well. -/
theorem ofTokens_blames_unsigned :
    ofTokens unsigned = .error (.unexpectedToken ⟨.rightParen, ")", ⟨1, 18⟩⟩ .comparison) ∧
    ∃ before after, withEnd unsigned = before ++ ⟨.rightParen, ")", ⟨1, 18⟩⟩ :: after ∧
      (∀ others, before ++ [⟨.rightParen, ")", ⟨1, 18⟩⟩] <+: withEnd others →
        ofTokens others = .error (.unexpectedToken ⟨.rightParen, ")", ⟨1, 18⟩⟩ .comparison)) ∧
      ∃ more plan, ofTokens (before ++ more) = .ok plan := by
  have refused : ofTokens unsigned =
      .error (.unexpectedToken ⟨.rightParen, ")", ⟨1, 18⟩⟩ .comparison) := rfl
  have shallow : ∀ count ≤ (withEnd unsigned).length,
      openBlocks ((withEnd unsigned).take count) < maxNesting := by decide
  obtain ⟨before, after, split, firm, completes⟩ := ofTokens_blames refused
  have within := shallow before.length (by simp [split])
  rw [split, List.take_left] at within
  exact ⟨refused, before, after, split, firm, completes within⟩

end ToolPlan.Plan
