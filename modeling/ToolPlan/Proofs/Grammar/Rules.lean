import ToolPlan.Plan
import ToolPlan.Plan.Error

/-!
The grammar of plans as rules. A phrase is a relation between tokens, a meaning and the tokens after
the phrase, so a rule may look at what follows without taking it. The rules are those of the
language and say nothing about how a plan is read: skipped tokens are any number of tokens, an
optional part is there or not, and joined conditions are left-recursive.

Three rules look ahead:

* a path takes every bracket that follows it (`Path.done`);
* in a condition, a parenthesis opens a map only where it is closed at once or a key and its equals
  sign follow (`Compared.compare`, `OpensMap`);
* a statement ends without a line end only before a closing brace or at the end (`Close`).

Whatever nests lies one level deeper. The rules are indexed by the levels that are left, and at the
last level only phrases that do not nest remain.
-/

namespace ToolPlan.Derives

/-- `phrase tokens meaning rest`: the tokens begin with a phrase of that meaning, and `rest` is what
follows it. -/
abbrev Phrase (α : Type) := List Token → α → List Token → Prop

/-- The kind of the next token, if there is one. -/
def ahead (tokens : List Token) : Option TokenKind :=
  tokens.head?.map Token.kind

@[simp] theorem ahead_nil : ahead [] = none := rfl

@[simp] theorem ahead_cons (token : Token) (rest : List Token) :
    ahead (token :: rest) = some token.kind := rfl

/-- Any number of tokens of a kind, and what is left after them. -/
inductive Many (kind : TokenKind) : List Token → List Token → Prop where
  | none {rest} : Many kind rest rest
  | more {t p tokens rest} : Many kind tokens rest → Many kind (⟨kind, t, p⟩ :: tokens) rest

inductive Comma : List Token → List Token → Prop where
  | absent {rest} : Comma rest rest
  | present {t p rest} : Comma (⟨.comma, t, p⟩ :: rest) rest

/-! ### Values -/

/-- The steps after a variable. No further bracket follows them. -/
inductive Path : Phrase (List IndexStep) where
  | done {rest} : ahead rest ≠ some .leftBracket → Path rest [] rest
  | position {t₁ p₁ digits p₂ t₃ p₃ index tokens steps rest} :
      (Decimal.int? digits.toList).filter Number.isWord = some index →
      Path tokens steps rest →
      Path (⟨.leftBracket, t₁, p₁⟩ :: ⟨.number, digits, p₂⟩ :: ⟨.rightBracket, t₃, p₃⟩ :: tokens)
        (.position index :: steps) rest
  | key {t₁ p₁ name p₂ t₃ p₃ tokens steps rest} :
      Path tokens steps rest →
      Path (⟨.leftBracket, t₁, p₁⟩ :: ⟨.string, name, p₂⟩ :: ⟨.rightBracket, t₃, p₃⟩ :: tokens)
        (.key name :: steps) rest

/-- The values that hold no other values. -/
inductive Scalar : Phrase Expr where
  | var {t p name q tokens steps rest} :
      Path tokens steps rest →
      Scalar (⟨.dollar, t, p⟩ :: ⟨.name, name, q⟩ :: tokens) (.var name steps) rest
  | number {text p value rest} :
      Number.ofText? text = some value → Scalar (⟨.number, text, p⟩ :: rest) (.number value) rest
  | trueWord {t p rest} : Scalar (⟨.trueWord, t, p⟩ :: rest) (.bool true) rest
  | falseWord {t p rest} : Scalar (⟨.falseWord, t, p⟩ :: rest) (.bool false) rest
  | nullWord {t p rest} : Scalar (⟨.nullWord, t, p⟩ :: rest) .null rest
  | string {text p rest} : Scalar (⟨.string, text, p⟩ :: rest) (.string text) rest
  | name {text p rest} : Scalar (⟨.name, text, p⟩ :: rest) (.bare text) rest
  | bare {text p rest} : Scalar (⟨.bare, text, p⟩ :: rest) (.bare text) rest

/-- The items of an array and its closing bracket. -/
inductive Items (item : Phrase Expr) : Phrase (List Expr) where
  | close {tokens t p rest} :
      Many .newline tokens (⟨.rightBracket, t, p⟩ :: rest) → Items item tokens [] rest
  | more {tokens inside after spaced next first items rest} :
      Many .newline tokens inside → item inside first after →
      Many .newline after spaced → Comma spaced next → Items item next items rest →
      Items item tokens (first :: items) rest

/-- The key of a map entry: a name or any string. -/
inductive Key : Phrase String where
  | name {text p rest} : Key (⟨.name, text, p⟩ :: rest) text rest
  | string {text p rest} : Key (⟨.string, text, p⟩ :: rest) text rest

/-- The entries of a map, as they are written, and its closing parenthesis. -/
inductive Fields (item : Phrase Expr) : Phrase (List (String × Expr)) where
  | close {tokens t p rest} :
      Many .newline tokens (⟨.rightParen, t, p⟩ :: rest) → Fields item tokens [] rest
  | more {tokens inside key t p assigned value after spaced next fields rest} :
      Many .newline tokens inside → Key inside key (⟨.assign, t, p⟩ :: assigned) →
      item assigned value after →
      Many .newline after spaced → Comma spaced next → Fields item next fields rest →
      Fields item tokens ((key, value) :: fields) rest

/-- The values that hold values, which lie one level deeper. A key that is written twice keeps its
first place and its last value. -/
inductive Container (inner : Phrase Expr) : Phrase Expr where
  | array {t p tokens items rest} :
      Items inner tokens items rest →
      Container inner (⟨.leftBracket, t, p⟩ :: tokens) (.array items) rest
  | map {t p tokens fields rest} :
      Fields inner tokens fields rest →
      Container inner (⟨.leftParen, t, p⟩ :: tokens) (.map (Entries.ofList fields)) rest

/-- A value with the given number of levels left. -/
def Value : Nat → Phrase Expr
  | 0 => Scalar
  | levels + 1 => fun tokens value rest =>
    Scalar tokens value rest ∨ Container (Value levels) tokens value rest

/-! ### Conditions -/

/-- What stands after a parenthesis that opens a map. -/
inductive OpensMap : List Token → Prop where
  | close {t p rest} : OpensMap (⟨.rightParen, t, p⟩ :: rest)
  | key {tokens key t p rest} : Key tokens key (⟨.assign, t, p⟩ :: rest) → OpensMap tokens

inductive Compared (value : Phrase Expr) : Phrase Condition where
  | compare {tokens left symbol p afterSign op right rest} :
      (∀ t q inside, tokens = ⟨.leftParen, t, q⟩ :: inside → OpensMap inside) →
      value tokens left (⟨.comparison, symbol, p⟩ :: afterSign) →
      Comparison.ofSymbol? symbol = some op →
      value afterSign right rest →
      Compared value tokens (.compare op left right) rest

/-- Operands with a word between each two of them, joined to the left. -/
inductive Joined (word : TokenKind) (join : Condition → Condition → Condition)
    (operand : Phrase Condition) : Phrase Condition where
  | single {tokens condition rest} :
      operand tokens condition rest → Joined word join operand tokens condition rest
  | more {tokens left t p after right rest} :
      Joined word join operand tokens left (⟨word, t, p⟩ :: after) → operand after right rest →
      Joined word join operand tokens (join left right) rest

def Disjunction (operand : Phrase Condition) : Phrase Condition :=
  Joined .orWord .or (Joined .andWord .and operand)

/-- A negation or a condition in parentheses; what is inside lies one level deeper. -/
inductive Wrapped (inner : Phrase Condition) : Phrase Condition where
  | not {t p tokens condition rest} :
      inner tokens condition rest →
      Wrapped inner (⟨.notWord, t, p⟩ :: tokens) (.not condition) rest
  | group {t₁ p₁ tokens condition t₂ p₂ rest} :
      Disjunction inner tokens condition (⟨.rightParen, t₂, p₂⟩ :: rest) →
      Wrapped inner (⟨.leftParen, t₁, p₁⟩ :: tokens) condition rest

def Operand : Nat → Phrase Condition
  | 0 => Compared (Value 0)
  | levels + 1 => fun tokens condition rest =>
    Compared (Value (levels + 1)) tokens condition rest ∨
      Wrapped (Operand levels) tokens condition rest

/-! ### Statements -/

/-- The end of a statement: a line end, or nothing before a closing brace or at the end. -/
inductive Close : List Token → List Token → Prop where
  | newline {t p rest} : Close (⟨.newline, t, p⟩ :: rest) rest
  | brace {t p rest} : Close (⟨.rightBrace, t, p⟩ :: rest) (⟨.rightBrace, t, p⟩ :: rest)
  | finished : Close [] []

/-- The name of a tool or of the variable that captures its result. -/
inductive LooseName : Phrase String where
  | name {text p rest} : LooseName (⟨.name, text, p⟩ :: rest) text rest
  | bare {text p rest} : LooseName (⟨.bare, text, p⟩ :: rest) text rest

inductive Arguments (value : Phrase Expr) : Phrase (List (String × Expr)) where
  | none {rest} : Arguments value rest [] rest
  | more {key p t q tokens first after args rest} :
      value tokens first after → Arguments value after args rest →
      Arguments value (⟨.name, key, p⟩ :: ⟨.assign, t, q⟩ :: tokens) ((key, first) :: args) rest

inductive Capture : Phrase (Option String) where
  | none {rest} : Capture rest none rest
  | arrow {t p tokens name rest} :
      LooseName tokens name rest → Capture (⟨.arrow, t, p⟩ :: tokens) (some name) rest

/-- The statements without blocks. A call stands where its word stands. -/
inductive Simple (value : Phrase Expr) : Phrase Statement where
  | blank {t p rest} : Simple value (⟨.newline, t, p⟩ :: rest) .blank rest
  | assign {t₁ p₁ name p₂ t₃ p₃ tokens expr after rest} :
      value tokens expr after → Close after rest →
      Simple value (⟨.letWord, t₁, p₁⟩ :: ⟨.name, name, p₂⟩ :: ⟨.assign, t₃, p₃⟩ :: tokens)
        (.assign name expr) rest
  | call {t place tokens name afterName args afterArgs capture after rest} :
      LooseName tokens name afterName → Arguments value afterName args afterArgs →
      Capture afterArgs capture after → Close after rest →
      Simple value (⟨.callWord, t, place⟩ :: tokens)
        (.call ⟨name, Entries.ofList args, capture, place⟩) rest
  | finish {t p tokens expr after rest} :
      value tokens expr after → Close after rest →
      Simple value (⟨.returnWord, t, p⟩ :: tokens) (.finish expr) rest

inductive Statements (statement : Phrase Statement) : Phrase (List Statement) where
  | none {rest} : Statements statement rest [] rest
  | more {tokens first after others rest} :
      statement tokens first after → Statements statement after others rest →
      Statements statement tokens (first :: others) rest

/-- Statements in braces, after any number of colons and line ends. -/
inductive Block (statement : Phrase Statement) : Phrase (List Statement) where
  | braces {tokens spaced t₁ p₁ inside statements t₂ p₂ rest} :
      Many .colon tokens spaced → Many .newline spaced (⟨.leftBrace, t₁, p₁⟩ :: inside) →
      Statements statement inside statements (⟨.rightBrace, t₂, p₂⟩ :: rest) →
      Block statement tokens statements rest

/-- The other branch of a conditional, or nothing. -/
inductive Otherwise (statement : Phrase Statement) : Phrase (Option (List Statement)) where
  | none {rest} : Otherwise statement rest none rest
  | block {tokens t p inside statements rest} :
      Many .newline tokens (⟨.elseWord, t, p⟩ :: inside) → Block statement inside statements rest →
      Otherwise statement tokens (some statements) rest

inductive Compound (levels : Nat) (inner : Phrase Statement) : Phrase Statement where
  | branch {t p tokens condition afterCondition yes afterYes no after rest} :
      Disjunction (Operand levels) tokens condition afterCondition →
      Block inner afterCondition yes afterYes → Otherwise inner afterYes no after →
      Close after rest →
      Compound levels inner (⟨.ifWord, t, p⟩ :: tokens) (.branch condition yes no) rest
  | loop {t₁ p₁ var p₂ t₃ p₃ tokens iterable afterIterable body after rest} :
      Value levels tokens iterable afterIterable → Block inner afterIterable body after →
      Close after rest →
      Compound levels inner (⟨.forWord, t₁, p₁⟩ :: ⟨.name, var, p₂⟩ :: ⟨.inWord, t₃, p₃⟩ :: tokens)
        (.loop var iterable body) rest

/-- A statement with the given number of levels left. -/
def Statement : Nat → Phrase ToolPlan.Statement
  | 0 => Simple (Value 0)
  | levels + 1 => fun tokens statement rest =>
    Simple (Value (levels + 1)) tokens statement rest ∨
      Compound (levels + 1) (Statement levels) tokens statement rest

/-- The tokens, up to the end of the input, are the statements of the plan. -/
def Script (tokens : List Token) (plan : Plan) : Prop :=
  Statements (Statement maxNesting) tokens plan []

end ToolPlan.Derives
