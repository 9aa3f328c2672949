import ToolPlan.Proofs.Grammar.Blame

/-!
Values as operands. A value may stand alone in a statement, and on both sides of a comparison, and
it should be the same value everywhere. Where a value ends is told by the token after it, so a value
that stands alone also stands before a sign and before a block (`Derives.Value.used`). On the right
of a comparison that is all. On the left, a parenthesis is told by the two tokens after it, and these
do not tell a map that begins with a line end: it is taken for a condition in parentheses, which no
line end can begin (`Grammar.condition_line`). So a value that is not such a map is the same in all
three places, and such a map is refused in one of them (`Plan.value_as_operand`).
-/

namespace ToolPlan

open Grammar (EndsLine Free free_cons)

/-! ### Values by the rules -/

namespace Derives

/-- A value stands before everything that does not go on with it. -/
theorem Value.used {levels : Nat} {tokens rest : List Token} {expr : Expr}
    (derived : Value levels tokens expr rest) :
    ∃ used, tokens = used ++ rest ∧
      ∀ rest', Free rest' → Value levels (used ++ rest') expr rest' := by
  let eof := Grammar.sample .eof
  have read := Grammar.value_complete eof levels derived
  obtain ⟨used, split, taken⟩ :=
    ((Grammar.value_foretells levels).predictive 0 eof tokens).taken read
  refine ⟨used, split, ?_⟩
  intro rest' free
  exact Grammar.value_sound eof levels (taken.steady eof rest' (.inr free))

/-- The entries of a map begin as the lookahead of a condition wants them to, or with a line end. -/
theorem Fields.opensMap {item : Phrase Expr} {tokens rest : List Token}
    {fields : List (String × Expr)} (derived : Fields item tokens fields rest) :
    OpensMap tokens ∨ ahead tokens = some .newline := by
  cases derived with
  | close many =>
    cases many with
    | none => exact .inl .close
    | more => exact .inr rfl
  | more before key =>
    cases before with
    | none => exact .inl (.key key)
    | more => exact .inr rfl

/-- A map after its parenthesis has a key and an equals sign, or its end, unless a line end comes
first. -/
theorem Value.opensMap {levels : Nat} {text : String} {place : Position} {inside rest : List Token}
    {expr : Expr} (derived : Value levels (⟨.leftParen, text, place⟩ :: inside) expr rest) :
    OpensMap inside ∨ ahead inside = some .newline := by
  cases levels with
  | zero => cases derived
  | succ levels =>
    rcases derived with scalar | container
    · cases scalar
    · cases container with
      | map fields => exact fields.opensMap

theorem Value.of_number {token : Token} (isNumber : token.kind = .number) {number : Number}
    (known : Number.ofText? token.text = some number) (levels : Nat) (rest : List Token) :
    Value levels (token :: rest) (.number number) rest := by
  obtain ⟨kind, text, place⟩ := token
  subst isNumber
  have scalar : Scalar (⟨.number, text, place⟩ :: rest) (.number number) rest := .number known
  cases levels with
  | zero => exact scalar
  | succ levels => exact .inl scalar

/-- The tokens begin with a parenthesis and a line end. -/
def BreaksAtOnce (tokens : List Token) : Prop :=
  [.leftParen, .newline] <+: tokens.map Token.kind

instance (tokens : List Token) : Decidable (BreaksAtOnce tokens) :=
  inferInstanceAs (Decidable (_ <+: _))

/-- Only a parenthesis can be followed by the line end in question. -/
theorem not_breaksAtOnce_cons {token : Token} {rest : List Token}
    (notParen : token.kind ≠ .leftParen) : ¬ BreaksAtOnce (token :: rest) := by
  simp [BreaksAtOnce, List.cons_prefix_cons, notParen.symm]

/-- What follows can add such a break only by a parenthesis or a line end. -/
theorem not_breaksAtOnce_append {tokens rest : List Token} {next : Token}
    (unbroken : ¬ BreaksAtOnce tokens) (notParen : next.kind ≠ .leftParen)
    (notLine : next.kind ≠ .newline) : ¬ BreaksAtOnce (tokens ++ next :: rest) := by
  match tokens with
  | [] => exact not_breaksAtOnce_cons notParen
  | [token] => simp [BreaksAtOnce, List.cons_prefix_cons, notLine.symm]
  | token :: after :: tokens => simpa [BreaksAtOnce, List.cons_prefix_cons] using unbroken

/-- A comparison whose left side does not begin with a parenthesis and a line end. -/
theorem Value.compare {levels : Nat} {tokens after rest : List Token} {left right : Expr}
    {sign : Token} (isSign : sign.kind = .comparison) {op : Comparison}
    (known : Comparison.ofSymbol? sign.text = some op) (unbroken : ¬ BreaksAtOnce tokens)
    (first : Value levels tokens left (sign :: after)) (second : Value levels after right rest) :
    Compared (Value levels) tokens (.compare op left right) rest := by
  obtain ⟨kind, symbol, place⟩ := sign
  subst isSign
  refine .compare ?_ first known second
  rintro text place inside rfl
  refine first.opensMap.resolve_right ?_
  intro line
  obtain ⟨text', place', inside, rfl⟩ := Derives.cons_of_ahead line
  exact unbroken (List.prefix_append _ (inside.map Token.kind))

/-! ### Plans of one statement by the rules -/

theorem Script.of_single {tokens : List Token} {statement : ToolPlan.Statement}
    (derived : Statement maxNesting tokens statement []) : Script tokens [statement] :=
  .more derived .none

theorem Script.single {tokens : List Token} {statement : ToolPlan.Statement}
    (derived : Script tokens [statement]) : Statement maxNesting tokens statement [] := by
  cases derived with
  | more first others =>
    cases others with
    | none => exact first

/-- What ends a plan is a value after its word, and perhaps a line end. -/
theorem Statement.value_of_finish {levels : Nat} {word : Token} (isWord : word.kind = .returnWord)
    {tokens : List Token} {expr : Expr}
    (derived : Statement levels (word :: tokens) (.finish expr) []) :
    ∃ after, Value levels tokens expr after ∧ Close after [] := by
  obtain ⟨kind, text, place⟩ := word
  subst isWord
  cases levels with
  | zero =>
    cases derived with
    | finish value close => exact ⟨_, value, close⟩
  | succ levels =>
    rcases derived with simple | compound
    · cases simple with
      | finish value close => exact ⟨_, value, close⟩
    · cases compound

/-- A comparison with an empty block is a conditional. -/
theorem Statement.of_compared {levels : Nat} {tokens : List Token} {condition : Condition}
    {word opening closing : Token} (isWord : word.kind = .ifWord)
    (opens : opening.kind = .leftBrace) (closes : closing.kind = .rightBrace)
    (derived : Compared (Value (levels + 1)) tokens condition [opening, closing]) :
    Statement (levels + 1) (word :: tokens) (.branch condition [] none) [] := by
  obtain ⟨kind, text, place⟩ := word
  obtain ⟨kind₁, text₁, place₁⟩ := opening
  obtain ⟨kind₂, text₂, place₂⟩ := closing
  subst isWord opens closes
  have operand : Operand (levels + 1) tokens condition _ := .inl derived
  exact .inr (.branch (.single (.single operand)) (.braces .none .none .none) .none .finished)

end Derives

/-! ### A line end in the place of a condition -/

namespace Grammar

variable {eof : Token} {operand : TokenReader Condition} {tokens : List Token} {fault : PlanError}

theorem disjunction_of_error (failed : operand tokens = .error fault) :
    disjunction operand tokens = .error fault := by
  simp only [disjunction, chained, failed]
  rfl

/-- A line end opens no operand, so it is refused as a value. -/
theorem operand_line (eof : Token) (levels : Nat) (text : String) (place : Position)
    (rest : List Token) : Grammar.operand eof levels (⟨.newline, text, place⟩ :: rest) =
      .error (.unexpectedToken ⟨.newline, text, place⟩ .value) := by
  cases levels <;> rfl

/-- A parenthesis with a line end after it is taken for one around a condition, and the line end is
refused. -/
theorem condition_line (eof opening : Token) (levels : Nat) (opens : opening.kind = .leftParen)
    {line : Token} (isLine : line.kind = .newline) (rest : List Token) :
    condition eof (levels + 1) (opening :: line :: rest) =
      .error (.unexpectedToken line .value) := by
  obtain ⟨kind, text, place⟩ := opening
  obtain ⟨kind', text', place'⟩ := line
  subst opens isLine
  apply disjunction_of_error
  have refused := disjunction_of_error (operand_line eof levels text' place' rest)
  simp only [Grammar.operand, operandWith, startsMap, descend, Option.map_some, refused]
  rfl

theorem statement_of_condition_error {levels : Nat} {word : Token} (isWord : word.kind = .ifWord)
    (failed : condition eof (levels + 1) tokens = .error fault) :
    statement eof (levels + 1) (word :: tokens) = .error fault := by
  obtain ⟨kind, text, place⟩ := word
  subst isWord
  exact (statementWith_if (levels + 1) (some levels) eof text place tokens).trans
    (Reading.andThen_of_error failed)

end Grammar

/-! ### The places of a value -/

/-- The tokens around a value: a statement that ends a plan with it, and a conditional with an empty
block that compares it with zero. -/
structure Surroundings where
  finish : Token
  stop : Token
  word : Token
  sign : Token
  zero : Token
  opening : Token
  closing : Token
  ending : Token
  finish_kind : finish.kind = .returnWord
  stop_kind : stop.kind = .eof
  word_kind : word.kind = .ifWord
  sign_kind : sign.kind = .comparison
  sign_text : sign.text = "=="
  zero_kind : zero.kind = .number
  zero_text : zero.text = "0"
  opening_kind : opening.kind = .leftBrace
  closing_kind : closing.kind = .rightBrace
  ending_kind : ending.kind = .eof

namespace Surroundings

variable (around : Surroundings) (value : List Token)

def alone : List Token :=
  around.finish :: value ++ [around.stop]

def left : List Token :=
  around.word :: (value ++ [around.sign, around.zero, around.opening, around.closing]) ++
    [around.ending]

def right : List Token :=
  around.word :: around.zero :: around.sign :: (value ++ [around.opening, around.closing]) ++
    [around.ending]

/-- The sign of the surroundings is one that the parser knows. -/
theorem sign_known : Comparison.ofSymbol? around.sign.text = some .eq := by
  rw [around.sign_text]
  rfl

theorem zero_value (levels : Nat) (rest : List Token) :
    Derives.Value levels (around.zero :: rest) (.number (.int 0)) rest := by
  refine .of_number around.zero_kind ?_ levels rest
  rw [around.zero_text]
  rfl

end Surroundings

namespace Plan

theorem body_ended {tokens : List Token} {ending : Token} (isEnd : ending.kind = .eof)
    (unended : ∀ token ∈ tokens, token.kind ≠ .eof) : body (tokens ++ [ending]) = tokens := by
  rw [body_append_of_forall unended]
  simp [body, isEnd]

/-- A plan is refused where its first statement is. -/
theorem ofTokens_of_statement_error {tokens inside : List Token} {word : Token} {fault : PlanError}
    (begins : body tokens = word :: inside)
    (failed : Grammar.statement (endToken tokens) maxNesting (word :: inside) = .error fault) :
    ofTokens tokens = .error fault := by
  rw [ofTokens, begins, List.length_cons, Grammar.statements_cons, failed]
  rfl

section Operands

variable {around : Surroundings} {value : List Token}
  (unended : ∀ token ∈ value, token.kind ≠ .eof)

include unended

theorem body_alone : body (around.alone value) = around.finish :: value := by
  refine body_ended around.stop_kind ?_
  simpa [around.finish_kind] using unended

/-- On the left the value comes right after the word of the conditional. -/
theorem body_left : body (around.left value) =
    around.word :: (value ++ [around.sign, around.zero, around.opening, around.closing]) := by
  refine body_ended around.ending_kind ?_
  rw [List.forall_mem_cons, List.forall_mem_append]
  simpa [around.word_kind, around.sign_kind, around.zero_kind, around.opening_kind,
    around.closing_kind] using unended

theorem body_right : body (around.right value) =
    around.word :: around.zero :: around.sign :: (value ++ [around.opening, around.closing]) := by
  refine body_ended around.ending_kind ?_
  rw [List.forall_mem_cons, List.forall_mem_cons, List.forall_mem_cons, List.forall_mem_append]
  simpa [around.word_kind, around.sign_kind, around.zero_kind, around.opening_kind,
    around.closing_kind] using unended

end Operands

/-- What stands alone as a value stands as one before everything that does not go on with it. -/
theorem value_of_alone {around : Surroundings} {value : List Token} {expr : Expr}
    (unended : ∀ token ∈ value, token.kind ≠ .eof) (inline : ¬ EndsLine value)
    (read : ofTokens (around.alone value) = .ok [.finish expr]) {rest : List Token}
    (free : Free rest) : Derives.Value maxNesting (value ++ rest) expr rest := by
  have derived := (script_of_ofTokens read).single
  rw [body_alone unended] at derived
  obtain ⟨after, derived, close⟩ := derived.value_of_finish around.finish_kind
  obtain ⟨used, rfl, before⟩ := derived.used
  cases close with
  | @newline text place =>
    have line : EndsLine [⟨.newline, text, place⟩] := rfl
    exact absurd ((Grammar.endsLine_append (List.cons_ne_nil _ _)).mpr line) inline
  | finished =>
    rw [List.append_nil]
    exact before rest free

section Standing

variable {around : Surroundings} {value : List Token} {expr : Expr}
  (unended : ∀ token ∈ value, token.kind ≠ .eof)
  (stands : ∀ rest, Free rest → Derives.Value maxNesting (value ++ rest) expr rest)

include unended stands

theorem ofTokens_right : ofTokens (around.right value) =
    .ok [.branch (.compare .eq (.number (.int 0)) expr) [] none] := by
  have free : Free [around.opening, around.closing] :=
    free_cons (by rw [around.opening_kind]; decide)
  have compared := Derives.Value.compare around.sign_kind around.sign_known
    (Derives.not_breaksAtOnce_cons (by simp [around.zero_kind])) (around.zero_value _ _)
    (stands _ free)
  apply ofTokens_of_script
  rw [body_right unended]
  exact .of_single (.of_compared around.word_kind around.opening_kind around.closing_kind compared)

/-- On the left of a comparison the lookahead has to find the map, which it does unless a line end
comes first. -/
theorem ofTokens_left (unbroken : ¬ Derives.BreaksAtOnce value) : ofTokens (around.left value) =
    .ok [.branch (.compare .eq expr (.number (.int 0))) [] none] := by
  have free : Free [around.sign, around.zero, around.opening, around.closing] :=
    free_cons (by rw [around.sign_kind]; decide)
  have compared := Derives.Value.compare around.sign_kind around.sign_known
    (Derives.not_breaksAtOnce_append unbroken (by simp [around.sign_kind])
      (by simp [around.sign_kind])) (stands _ free) (around.zero_value _ _)
  apply ofTokens_of_script
  rw [body_left unended]
  exact .of_single (.of_compared around.word_kind around.opening_kind around.closing_kind compared)

end Standing

/-- A value is the same wherever it stands, but for a map that begins with a line end: alone and on
the right of a comparison it is read, and on the left of one its line end is refused. -/
theorem value_as_operand (around : Surroundings) (value : List Token) (expr : Expr)
    (unended : ∀ token ∈ value, token.kind ≠ .eof) (inline : ¬ EndsLine value)
    (read : ofTokens (around.alone value) = .ok [.finish expr]) :
    ofTokens (around.right value) =
        .ok [.branch (.compare .eq (.number (.int 0)) expr) [] none] ∧
      (¬ Derives.BreaksAtOnce value →
        ofTokens (around.left value) =
          .ok [.branch (.compare .eq expr (.number (.int 0))) [] none]) ∧
      ∀ opening line rest, value = opening :: line :: rest → opening.kind = .leftParen →
        line.kind = .newline →
        ofTokens (around.left value) = .error (.unexpectedToken line .value) := by
  have stands : ∀ rest, Free rest → Derives.Value maxNesting (value ++ rest) expr rest :=
    fun _ free => value_of_alone unended inline read free
  refine ⟨ofTokens_right unended stands, ofTokens_left unended stands, ?_⟩
  rintro opening line rest rfl opens isLine
  refine ofTokens_of_statement_error (body_left unended) ?_
  exact Grammar.statement_of_condition_error around.word_kind
    (Grammar.condition_line _ opening _ opens isLine _)

/-- The shortest tokens around a value. -/
def plain : Surroundings where
  finish := ⟨.returnWord, "RETURN", .start⟩
  stop := ⟨.eof, "", .start⟩
  word := ⟨.ifWord, "IF", .start⟩
  sign := ⟨.comparison, "==", .start⟩
  zero := ⟨.number, "0", .start⟩
  opening := ⟨.leftBrace, '{'.toString, .start⟩
  closing := ⟨.rightBrace, '}'.toString, .start⟩
  ending := ⟨.eof, "", .start⟩
  finish_kind := rfl
  stop_kind := rfl
  word_kind := rfl
  sign_kind := rfl
  sign_text := rfl
  zero_kind := rfl
  zero_text := rfl
  opening_kind := rfl
  closing_kind := rfl
  ending_kind := rfl

/-- A map over several lines, with a map in an array in it. The inner map begins with a line end. -/
def nested : List Token :=
  [⟨.leftParen, "(", .start⟩, ⟨.name, "a", .start⟩, ⟨.assign, "=", .start⟩,
   ⟨.leftBracket, "[", .start⟩, ⟨.dollar, "$", .start⟩, ⟨.name, "x", .start⟩,
   ⟨.newline, "\n", .start⟩, ⟨.comma, ",", .start⟩, ⟨.leftParen, "(", .start⟩,
   ⟨.newline, "\n", .start⟩, ⟨.rightParen, ")", .start⟩, ⟨.rightBracket, "]", .start⟩,
   ⟨.newline, "\n", .start⟩, ⟨.rightParen, ")", .start⟩]

/-- The inner map begins with a line end, which does no harm: the lookahead is made at the outer one
only. -/
theorem value_as_operand_nested :
    (∀ token ∈ nested, token.kind ≠ .eof) ∧ ¬ EndsLine nested ∧
      ¬ Derives.BreaksAtOnce nested ∧
      ofTokens (plain.alone nested) = .ok [.finish (.map [("a", .array [.var "x" [], .map []])])] ∧
      ofTokens (plain.right nested) = .ok [.branch (.compare .eq (.number (.int 0))
        (.map [("a", .array [.var "x" [], .map []])])) [] none] ∧
      ofTokens (plain.left nested) = .ok [.branch (.compare .eq
        (.map [("a", .array [.var "x" [], .map []])]) (.number (.int 0))) [] none] := by
  have unended : ∀ token ∈ nested, token.kind ≠ .eof := by decide
  have inline : ¬ EndsLine nested := by simp [EndsLine, nested]
  have unbroken : ¬ Derives.BreaksAtOnce nested := by decide
  have read : ofTokens (plain.alone nested) =
      .ok [.finish (.map [("a", .array [.var "x" [], .map []])])] := rfl
  obtain ⟨right, left, -⟩ := value_as_operand plain nested _ unended inline read
  exact ⟨unended, inline, unbroken, read, right, left unbroken⟩

/-- A map with a line end after its parenthesis. -/
def spread : List Token :=
  [⟨.leftParen, "(", .start⟩, ⟨.newline, "\n", .start⟩, ⟨.name, "a", .start⟩,
   ⟨.assign, "=", .start⟩, ⟨.number, "1", .start⟩, ⟨.rightParen, ")", .start⟩]

/-- A value that can stand alone, and on the right of a comparison, but not on the left of one. -/
theorem left_operand_refused :
    ¬ EndsLine spread ∧
      ofTokens (plain.alone spread) = .ok [.finish (.map [("a", .number (.int 1))])] ∧
      ofTokens (plain.right spread) = .ok [.branch (.compare .eq (.number (.int 0))
        (.map [("a", .number (.int 1))])) [] none] ∧
      ofTokens (plain.left spread) =
        .error (.unexpectedToken ⟨.newline, "\n", .start⟩ .value) := by
  refine ⟨by simp [EndsLine, spread], rfl, rfl, rfl⟩

end Plan

end ToolPlan
