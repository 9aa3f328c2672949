import ToolPlan.Proofs.Grammar.Listing

/-!
Where phrases begin and how far they reach, by the rules alone. Every value, operand, block and
statement takes at least one token, and the first token tells what kind of phrase it opens. In
particular no statement opens with `ELSE`, and nothing in a group can be taken for the key of a map.
-/

namespace ToolPlan.Derives

variable {α : Type}

/-- Every phrase takes at least one token. -/
def Shortens (phrase : Phrase α) : Prop :=
  ∀ ⦃tokens meaning rest⦄, phrase tokens meaning rest → rest.length < tokens.length

/-! ### Lengths -/

theorem Many.length_le {kind : TokenKind} {tokens rest : List Token} (many : Many kind tokens rest) :
    rest.length ≤ tokens.length := by
  induction many with
  | none => exact Nat.le_refl _
  | more _ ih => exact Nat.le_succ_of_le ih

theorem Comma.length_le {tokens rest : List Token} (comma : Comma tokens rest) :
    rest.length ≤ tokens.length := by
  cases comma with
  | absent => exact Nat.le_refl _
  | present => exact Nat.le_succ _

/-- Nothing but line ends, commas, paths and the like may be empty; for these the tokens do not
grow. -/
theorem Path.length_le {tokens rest : List Token} {steps : List IndexStep}
    (path : Path tokens steps rest) : rest.length ≤ tokens.length := by
  induction path with
  | done => exact Nat.le_refl _
  | position _ _ ih => simp only [List.length_cons]; omega
  | key _ ih => simp only [List.length_cons]; omega

theorem Scalar.shortens : Shortens Scalar := by
  intro tokens value rest scalar
  cases scalar with
  | var path =>
    have := path.length_le
    simp only [List.length_cons]
    omega
  | _ => simp

theorem Key.shortens : Shortens Key := by
  intro tokens key rest derived
  cases derived <;> simp

theorem Field.shortens {item : Phrase Expr} (shorter : Shortens item) : Shortens (Field item) := by
  intro tokens field rest derived
  cases derived with
  | assign key value =>
    have := Key.shortens key
    have := shorter value
    simp only [List.length_cons] at *
    omega

theorem Listed.shortens {close : TokenKind} {entry : Phrase α} (shorter : Shortens entry) :
    Shortens (Listed close entry) := by
  intro tokens meaning rest listed
  induction listed with
  | close many =>
    have := many.length_le
    simp only [List.length_cons] at this
    omega
  | more before first after comma _ ih =>
    have := before.length_le
    have := shorter first
    have := after.length_le
    have := comma.length_le
    omega

theorem Container.shortens {inner : Phrase Expr} (shorter : Shortens inner) :
    Shortens (Container inner) := by
  intro tokens value rest derived
  cases derived with
  | array items =>
    have := Listed.shortens shorter (items_iff.mp items)
    simp only [List.length_cons]
    omega
  | map fields =>
    have := Listed.shortens (Field.shortens shorter) (fields_iff.mp fields)
    simp only [List.length_cons]
    omega

/-- By induction on the levels: each value takes its first token. -/
theorem Value.shortens (levels : Nat) : Shortens (Value levels) := by
  induction levels with
  | zero => exact Scalar.shortens
  | succ levels ih =>
    rintro tokens value rest (scalar | container)
    · exact Scalar.shortens scalar
    · exact Container.shortens ih container

theorem Compared.shortens {value : Phrase Expr} (shorter : Shortens value) :
    Shortens (Compared value) := by
  intro tokens condition rest derived
  cases derived with
  | compare _ left _ right =>
    have := shorter left
    have := shorter right
    simp only [List.length_cons] at *
    omega

/-- Every operand takes a token, so a chain ends after finitely many of them. -/
theorem Joined.shortens {word : TokenKind} {join : Condition → Condition → Condition}
    {operand : Phrase Condition} (shorter : Shortens operand) :
    Shortens (Joined word join operand) := by
  intro tokens condition rest derived
  induction derived with
  | single first => exact shorter first
  | more _ right ih =>
    have := shorter right
    simp only [List.length_cons] at *
    omega

theorem Disjunction.shortens {operand : Phrase Condition} (shorter : Shortens operand) :
    Shortens (Disjunction operand) :=
  Joined.shortens (Joined.shortens shorter)

theorem Wrapped.shortens {inner : Phrase Condition} (shorter : Shortens inner) :
    Shortens (Wrapped inner) := by
  intro tokens condition rest derived
  cases derived with
  | not condition =>
    have := shorter condition
    simp only [List.length_cons]
    omega
  | group condition =>
    have := Disjunction.shortens shorter condition
    simp only [List.length_cons] at *
    omega

theorem Operand.shortens (levels : Nat) : Shortens (Operand levels) := by
  induction levels with
  | zero => exact Compared.shortens (Value.shortens 0)
  | succ levels ih =>
    rintro tokens condition rest (compared | wrapped)
    · exact Compared.shortens (Value.shortens (levels + 1)) compared
    · exact Wrapped.shortens ih wrapped

/-- A close may take nothing, before a brace or at the end of the input. -/
theorem Close.length_le {tokens rest : List Token} (close : Close tokens rest) :
    rest.length ≤ tokens.length := by
  cases close <;> simp

theorem LooseName.shortens : Shortens LooseName := by
  intro tokens name rest derived
  cases derived <;> simp

theorem Arguments.length_le {value : Phrase Expr} (shorter : Shortens value)
    {tokens rest : List Token} {args : List (String × Expr)}
    (derived : Arguments value tokens args rest) : rest.length ≤ tokens.length := by
  induction derived with
  | none => exact Nat.le_refl _
  | more first _ ih =>
    have := shorter first
    simp only [List.length_cons]
    omega

theorem Capture.length_le {tokens rest : List Token} {name : Option String}
    (derived : Capture tokens name rest) : rest.length ≤ tokens.length := by
  cases derived with
  | none => exact Nat.le_refl _
  | arrow name =>
    have := LooseName.shortens name
    simp only [List.length_cons]
    omega

theorem Simple.shortens {value : Phrase Expr} (shorter : Shortens value) :
    Shortens (Simple value) := by
  intro tokens statement rest derived
  cases derived with
  | blank => simp
  | assign expr close =>
    have := shorter expr
    have := close.length_le
    simp only [List.length_cons]
    omega
  | call name args capture close =>
    have := LooseName.shortens name
    have := args.length_le shorter
    have := capture.length_le
    have := close.length_le
    simp only [List.length_cons]
    omega
  | finish expr close =>
    have := shorter expr
    have := close.length_le
    simp only [List.length_cons]
    omega

theorem Statements.length_le {statement : Phrase ToolPlan.Statement} (shorter : Shortens statement)
    {tokens rest : List Token} {statements : List ToolPlan.Statement}
    (derived : Statements statement tokens statements rest) : rest.length ≤ tokens.length := by
  induction derived with
  | none => exact Nat.le_refl _
  | more first _ ih =>
    have := shorter first
    omega

theorem Block.shortens {statement : Phrase ToolPlan.Statement} (shorter : Shortens statement) :
    Shortens (Block statement) := by
  intro tokens statements rest derived
  cases derived with
  | braces colons newlines inside =>
    have := colons.length_le
    have := newlines.length_le
    have := inside.length_le shorter
    simp only [List.length_cons] at *
    omega

theorem Otherwise.length_le {statement : Phrase ToolPlan.Statement} (shorter : Shortens statement)
    {tokens rest : List Token} {branch : Option (List ToolPlan.Statement)}
    (derived : Otherwise statement tokens branch rest) : rest.length ≤ tokens.length := by
  cases derived with
  | none => exact Nat.le_refl _
  | block newlines inside =>
    have := newlines.length_le
    have := Block.shortens shorter inside
    simp only [List.length_cons] at *
    omega

theorem Compound.shortens {levels : Nat} {inner : Phrase ToolPlan.Statement}
    (shorter : Shortens inner) : Shortens (Compound levels inner) := by
  intro tokens statement rest derived
  cases derived with
  | branch condition yes no close =>
    have := Disjunction.shortens (Operand.shortens levels) condition
    have := Block.shortens shorter yes
    have := no.length_le shorter
    have := close.length_le
    simp only [List.length_cons]
    omega
  | loop iterable body close =>
    have := Value.shortens levels iterable
    have := Block.shortens shorter body
    have := close.length_le
    simp only [List.length_cons]
    omega

/-- By induction on the nesting levels. This is why the number of tokens is fuel enough. -/
theorem Statement.shortens (levels : Nat) : Shortens (Statement levels) := by
  induction levels with
  | zero => exact Simple.shortens (Value.shortens 0)
  | succ levels ih =>
    rintro tokens statement rest (simple | compound)
    · exact Simple.shortens (Value.shortens (levels + 1)) simple
    · exact Compound.shortens ih compound

/-! ### First tokens -/

def valueOpeners : List TokenKind :=
  [.dollar, .number, .trueWord, .falseWord, .nullWord, .string, .name, .bare, .leftBracket,
   .leftParen]

/-- Every phrase opens with a token of one of the given kinds. -/
def OpensWith (kinds : List TokenKind) (phrase : Phrase α) : Prop :=
  ∀ ⦃tokens meaning rest⦄, phrase tokens meaning rest → ∃ kind ∈ kinds, ahead tokens = some kind

/-- A token of another kind does not open the phrase. -/
theorem OpensWith.ahead_ne {kinds : List TokenKind} {phrase : Phrase α}
    (opens : OpensWith kinds phrase) {tokens rest : List Token} {meaning : α}
    (derived : phrase tokens meaning rest) {kind : TokenKind} (other : kind ∉ kinds) :
    ahead tokens ≠ some kind := by
  obtain ⟨first, among, found⟩ := opens derived
  rw [found]
  rintro ⟨⟩
  exact other among

/-- A value is told from a separator or a close by its first token. -/
theorem Value.opens (levels : Nat) : OpensWith valueOpeners (Value levels) := by
  have scalar : OpensWith valueOpeners Scalar := by
    intro tokens value rest derived
    cases derived <;> exact ⟨_, by simp [valueOpeners], rfl⟩
  cases levels with
  | zero => exact scalar
  | succ levels =>
    rintro tokens value rest (derived | derived)
    · exact scalar derived
    · cases derived <;> exact ⟨_, by simp [valueOpeners], rfl⟩

def statementOpeners : List TokenKind :=
  [.newline, .letWord, .callWord, .ifWord, .forWord, .returnWord]

/-- A statement is told from a closing brace by its first token. -/
theorem Statement.opens (levels : Nat) : OpensWith statementOpeners (Statement levels) := by
  have simple : ∀ value, OpensWith statementOpeners (Simple value) := by
    intro value tokens statement rest derived
    cases derived <;> exact ⟨_, by simp [statementOpeners], rfl⟩
  cases levels with
  | zero => exact simple (Value 0)
  | succ levels =>
    rintro tokens statement rest (derived | derived)
    · exact simple _ derived
    · cases derived <;> exact ⟨_, by simp [statementOpeners], rfl⟩

theorem Block.opens (statement : Phrase ToolPlan.Statement) :
    OpensWith [.colon, .newline, .leftBrace] (Block statement) := by
  rintro tokens statements rest ⟨colons, newlines, -⟩
  cases colons with
  | more => exact ⟨_, by simp, rfl⟩
  | none => cases newlines <;> exact ⟨_, by simp, rfl⟩

/-- A value that could be the key of a map is not followed by an equals sign in a comparison. -/
theorem Compared.not_opensMap {levels : Nat} {tokens rest : List Token} {condition : Condition}
    (derived : Compared (Value levels) tokens condition rest) : ¬ OpensMap tokens := by
  obtain ⟨-, left, -, -⟩ := derived
  intro opens
  cases opens with
  | close => exact (Value.opens levels).ahead_ne left (by simp [valueOpeners]) rfl
  | key key =>
    have scalar : ∀ {value after}, Value levels tokens value after → Scalar tokens value after := by
      intro value after derived
      cases levels with
      | zero => exact derived
      | succ levels =>
        rcases derived with derived | derived
        · exact derived
        · cases derived <;> cases key
    cases key <;> cases scalar left

/-- What opens a map after a parenthesis opens no group. -/
theorem Operand.not_opensMap {levels : Nat} {tokens rest : List Token} {condition : Condition}
    (derived : Operand levels tokens condition rest) : ¬ OpensMap tokens := by
  cases levels with
  | zero =>
    have compared : Compared (Value 0) tokens condition rest := derived
    exact compared.not_opensMap
  | succ levels =>
    rcases derived with compared | derived
    · exact compared.not_opensMap
    · intro opens
      cases derived <;> cases opens with
      | key key => cases key

/-- The first operand of a chain is also what the chain begins with. -/
theorem Joined.not_opensMap {word : TokenKind} {join : Condition → Condition → Condition}
    {operand : Phrase Condition}
    (notMap : ∀ {tokens condition rest}, operand tokens condition rest → ¬ OpensMap tokens)
    {tokens rest : List Token} {condition : Condition}
    (derived : Joined word join operand tokens condition rest) : ¬ OpensMap tokens := by
  induction derived with
  | single first => exact notMap first
  | more _ _ ih => exact ih

/-- A parenthesis that groups a condition is not taken for that of a map. -/
theorem Disjunction.not_opensMap {levels : Nat} {tokens rest : List Token} {condition : Condition}
    (derived : Disjunction (Operand levels) tokens condition rest) : ¬ OpensMap tokens :=
  Joined.not_opensMap (fun first => Joined.not_opensMap Operand.not_opensMap first) derived

end ToolPlan.Derives
