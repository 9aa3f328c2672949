import ToolPlan.Plan.Grammar

/-!
Reading a plan with a cursor. The cursor moves over the whole list of tokens, ends of the input
included, counts the nested constructs it is in, and goes back where an `ELSE` was looked for in vain.
A look ahead may fall on any token. What keeps the cursor before the first end of the input is that a
walk does not step over an end (`advance`), and that no loop goes on there.

Nothing else ends a loop. A bound on its rounds comes from outside, and so does one on how deep the
constructs call each other; a walk that comes to a bound has not ended (`none`).
-/

namespace ToolPlan

/-! ### Tapes and cursors -/

/-- Tokens of which the last one is an end of the input. There may be others before it. -/
structure Tape where
  tokens : List Token
  closed : tokens.getLast?.map Token.kind = some .eof

namespace Tape

variable (tape : Tape)

/-- The tape has at least the end of the input, so there is always a token to look at. -/
theorem tokens_ne_nil : tape.tokens ≠ [] := by
  intro nothing
  have closed := tape.closed
  rw [nothing] at closed
  cases closed

def token (position : Nat) : Token :=
  tape.tokens.getD position (tape.tokens.getLast tape.tokens_ne_nil)

/-- The tape of a list of tokens. An end of the input is added where the last token is none. -/
def ofTokens (tokens : List Token) : Tape where
  tokens := Plan.withEnd tokens
  closed := Plan.getLast?_withEnd tokens

end Tape

/-- All positions that a cursor has held, the present one first, and the number of nested constructs
it is in. -/
structure Cursor where
  trail : List Nat
  depth : Nat

namespace Cursor

def start : Cursor := ⟨[0], 0⟩

def position (cursor : Cursor) : Nat :=
  cursor.trail.headD 0

def moveTo (cursor : Cursor) (position : Nat) : Cursor :=
  { cursor with trail := position :: cursor.trail }

def next (cursor : Cursor) : Cursor :=
  cursor.moveTo (cursor.position + 1)

def enter (cursor : Cursor) : Cursor :=
  { cursor with depth := cursor.depth + 1 }

def leave (cursor : Cursor) : Cursor :=
  { cursor with depth := cursor.depth - 1 }

/-- The cursor has never been beyond a position. -/
def Within (cursor : Cursor) (bound : Nat) : Prop :=
  ∀ position ∈ cursor.trail, position ≤ bound

end Cursor

/-- Reads something at a cursor and moves it, or does so and fails, or does not end. -/
abbrev Walk (α : Type) := ExceptT PlanError (StateT Cursor Option) α

namespace Walk

variable {α : Type}

def runFrom (walk : Walk α) (cursor : Cursor) : Option (Except PlanError α × Cursor) :=
  walk.run.run cursor

/-- A walk that has come to the bound. -/
def cutOff : Walk α :=
  (fun _ => none : StateT Cursor Option (Except PlanError α))

variable (tape : Tape)

/-! ### Steps -/

def ahead (offset : Nat) : Walk Token := do
  return tape.token ((← get).position + offset)

def peek : Walk Token :=
  ahead tape 0

/-- Takes the next token. An end of the input stays where it is. -/
def advance : Walk Token := do
  let token ← peek tape
  if token.kind ≠ .eof then
    modify Cursor.next
  return token

/-- The next token is none of those admitted. -/
def refuse (expected : Expectation) : Walk α := do
  throw (.unexpectedToken (← peek tape) expected)

def eat (kind : TokenKind) : Walk Bool := do
  if (← peek tape).kind = kind then
    _ ← advance tape
    return true
  else return false

def expect (kind : TokenKind) (expected : Expectation) : Walk Token := do
  if (← peek tape).kind = kind then advance tape else refuse tape expected

def skip (kind : TokenKind) : Nat → Walk Unit
  | 0 => cutOff
  | rounds + 1 => do
    if ← eat tape kind then skip kind rounds else return

/-- Counts one nested construct more, unless that is one too many. -/
def enter : Walk Unit := do
  if maxNesting ≤ (← get).depth then throw (.nestingTooDeep (← peek tape).place)
  else modify Cursor.enter

/-- Counts one nested construct less, whether it has been read or not. -/
def leave (result : Except PlanError α) : StateT Cursor Option (Except PlanError α) := do
  modify Cursor.leave
  return result

def nested (construct : Walk α) : Walk α := do
  enter tape
  (construct.run >>= leave : StateT Cursor Option (Except PlanError α))

/-! ### Values -/

def indexStep : Walk IndexStep := do
  let token ← peek tape
  match token.kind with
  | .number =>
    match (Decimal.int? token.text.toList).filter Number.isWord with
    | none => refuse tape .integerIndex
    | some index =>
      _ ← advance tape
      return .position index
  | .string =>
    _ ← advance tape
    return .key token.text
  | _ => refuse tape .indexOrKey

def path : Nat → Walk (List IndexStep)
  | 0 => cutOff
  | rounds + 1 => do
    if ← eat tape .leftBracket then
      let step ← indexStep tape
      _ ← expect tape .rightBracket .closeBracket
      let steps ← path rounds
      return step :: steps
    else return []

def variableReference (rounds : Nat) : Walk Expr := do
  _ ← advance tape
  let name ← expect tape .name .nameAfterDollar
  let steps ← path tape rounds
  return .var name.text steps

def number : Walk Expr := do
  let token ← peek tape
  match Number.ofText? token.text with
  | none => throw (.numberOutOfRange token)
  | some value =>
    _ ← advance tape
    return .number value

/-- A value that is one token. -/
def word (value : Expr) : Walk Expr := do
  _ ← advance tape
  return value

def mapKey : Walk String := do
  let token ← peek tape
  match token.kind with
  | .name | .string =>
    _ ← advance tape
    _ ← expect tape .assign .mapAssign
    return token.text
  | _ => refuse tape .mapKey

/-- The end of an item: any number of line ends, and a comma or none. -/
def separator (rounds : Nat) : Walk Unit := do
  skip tape .newline rounds
  _ ← eat tape .comma

def items (close : TokenKind) (item : Walk α) : Nat → Walk (List α)
  | 0 => cutOff
  | rounds + 1 => do
    skip tape .newline (rounds + 1)
    if ← eat tape close then return []
    else
      let first ← item
      separator tape (rounds + 1)
      let others ← items close item rounds
      return first :: others

def array (value : Walk Expr) (rounds : Nat) : Walk Expr := do
  _ ← advance tape
  let items ← items tape .rightBracket value rounds
  return .array items

def entry (value : Walk Expr) : Walk (String × Expr) := do
  let key ← mapKey tape
  let value ← value
  return (key, value)

def map (value : Walk Expr) (rounds : Nat) : Walk Expr := do
  _ ← advance tape
  let entries ← items tape .rightParen (entry tape value) rounds
  return .map (Entries.ofList entries)

def value : Nat → Walk Expr
  | 0 => cutOff
  | rounds + 1 => do
    let token ← peek tape
    match token.kind with
    | .dollar => variableReference tape rounds
    | .number => number tape
    | .trueWord => word tape (.bool true)
    | .falseWord => word tape (.bool false)
    | .nullWord => word tape .null
    | .string => word tape (.string token.text)
    | .name => word tape (.bare token.text)
    | .bare => word tape (.bare token.text)
    | .leftBracket => nested tape (array tape (value rounds) rounds)
    | .leftParen => nested tape (map tape (value rounds) rounds)
    | _ => refuse tape .value

/-! ### Conditions -/

def comparison (value : Walk Expr) : Walk Condition := do
  let left ← value
  let sign ← expect tape .comparison .comparison
  match Comparison.ofSymbol? sign.text with
  | none => throw (.unexpectedToken sign .comparison)
  | some op =>
    let right ← value
    return .compare op left right

/-- Whether the parenthesis that comes next is that of a map. -/
def startsMap : Walk Bool := do
  match (← ahead tape 1).kind with
  | .rightParen => return true
  | .name | .string => return (← ahead tape 2).kind = .assign
  | _ => return false

/-- A condition in parentheses, where the next token opens one. -/
def opensGroup : Walk Bool := do
  if (← peek tape).kind = .leftParen then return !(← startsMap tape) else return false

/-- More operands after the first ones, each after a joining word. -/
def joined (word : TokenKind) (join : Condition → Condition → Condition) (operand : Walk Condition) :
    Nat → Condition → Walk Condition
  | 0, _ => cutOff
  | rounds + 1, left => do
    if ← eat tape word then
      let right ← operand
      joined word join operand rounds (join left right)
    else return left

def chained (word : TokenKind) (join : Condition → Condition → Condition) (operand : Walk Condition)
    (rounds : Nat) : Walk Condition := do
  let first ← operand
  joined tape word join operand rounds first

def disjunction (operand : Walk Condition) (rounds : Nat) : Walk Condition :=
  chained tape .orWord .or (chained tape .andWord .and operand rounds) rounds

def group (operand : Walk Condition) (rounds : Nat) : Walk Condition := do
  _ ← advance tape
  let condition ← nested tape (disjunction tape operand rounds)
  _ ← expect tape .rightParen .closeParen
  return condition

def operand : Nat → Walk Condition
  | 0 => cutOff
  | rounds + 1 => do
    if ← eat tape .notWord then
      let negated ← nested tape (operand rounds)
      return .not negated
    else if ← opensGroup tape then group tape (operand rounds) rounds
    else comparison tape (value tape (rounds + 1))

def condition (rounds : Nat) : Walk Condition :=
  disjunction tape (operand tape rounds) rounds

/-! ### Statements -/

/-- The end of a statement. A closing brace and the end of the input are not taken. -/
def endOfStatement : Walk Unit := do
  match (← peek tape).kind with
  | .newline => do _ ← advance tape
  | .eof | .rightBrace => return
  | _ => refuse tape .endOfStatement

def looseName (expected : Expectation) : Walk String := do
  let token ← peek tape
  match token.kind with
  | .name | .bare =>
    _ ← advance tape
    return token.text
  | _ => refuse tape expected

def arguments (value : Walk Expr) : Nat → Walk (List (String × Expr))
  | 0 => cutOff
  | rounds + 1 => do
    let token ← peek tape
    if token.kind = .name then
      _ ← advance tape
      _ ← expect tape .assign .argumentAssign
      let first ← value
      let args ← arguments value rounds
      return (token.text, first) :: args
    else return []

def capture : Walk (Option String) := do
  if ← eat tape .arrow then
    let name ← looseName tape .captureName
    return some name
  else return none

def assignment (rounds : Nat) : Walk Statement := do
  _ ← advance tape
  let name ← expect tape .name .variableName
  _ ← expect tape .assign .assignSign
  let value ← value tape rounds
  endOfStatement tape
  return .assign name.text value

def call (rounds : Nat) : Walk Statement := do
  let word ← advance tape
  let name ← looseName tape .toolName
  let args ← arguments tape (value tape rounds) rounds
  let capture ← capture tape
  endOfStatement tape
  return .call ⟨name, Entries.ofList args, capture, word.place⟩

/-- The other branch of a conditional, if its word follows, be it after line ends. Where it does not
follow, the cursor goes back before them. -/
def otherwise (block : Walk (List Statement)) (rounds : Nat) : Walk (Option (List Statement)) := do
  let resume := (← get).position
  skip tape .newline rounds
  if ← eat tape .elseWord then
    let statements ← block
    return some statements
  else
    modify fun cursor => cursor.moveTo resume
    return none

def branch (block : Walk (List Statement)) (rounds : Nat) : Walk Statement := do
  _ ← advance tape
  let condition ← condition tape rounds
  let yes ← block
  let no ← otherwise tape block rounds
  endOfStatement tape
  return .branch condition yes no

def loop (block : Walk (List Statement)) (rounds : Nat) : Walk Statement := do
  _ ← advance tape
  let var ← expect tape .name .loopVariable
  _ ← expect tape .inWord .inWord
  let iterable ← value tape rounds
  let body ← block
  endOfStatement tape
  return .loop var.text iterable body

def finish (rounds : Nat) : Walk Statement := do
  _ ← advance tape
  let value ← value tape rounds
  endOfStatement tape
  return .finish value

def blockStatements (statement : Walk Statement) : Nat → Walk (List Statement)
  | 0 => cutOff
  | rounds + 1 => do
    match (← peek tape).kind with
    | .rightBrace =>
      _ ← advance tape
      return []
    | .eof => refuse tape .closeBrace
    | _ =>
      let first ← statement
      let statements ← blockStatements statement rounds
      return first :: statements

/-- A block in braces, after any number of colons and then of line ends. -/
def block (statement : Walk Statement) (rounds : Nat) : Walk (List Statement) := do
  skip tape .colon rounds
  skip tape .newline rounds
  _ ← expect tape .leftBrace .openBrace
  blockStatements tape statement rounds

def statement : Nat → Walk Statement
  | 0 => cutOff
  | rounds + 1 => do
    match (← peek tape).kind with
    | .newline =>
      _ ← advance tape
      return .blank
    | .letWord => assignment tape rounds
    | .callWord => call tape rounds
    | .ifWord => branch tape (nested tape (block tape (statement rounds) rounds)) rounds
    | .forWord => loop tape (nested tape (block tape (statement rounds) rounds)) rounds
    | .returnWord => finish tape rounds
    | _ => refuse tape .statement

def script : Nat → Walk Plan
  | 0 => cutOff
  | rounds + 1 => do
    if (← peek tape).kind = .eof then return []
    else
      let first ← statement tape (rounds + 1)
      let statements ← script rounds
      return first :: statements

end Walk

end ToolPlan
