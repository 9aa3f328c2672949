import ToolPlan.Plan
import ToolPlan.Plan.Error
import ToolPlan.Token.Scan

/-!
Reading a plan from its tokens, and so from its text. Every reader takes the tokens that are left,
without the end of the input, and gives what it read with the tokens after it; `eof` is the end of
the input, which is the token an error names when the tokens run out.

A construct that nests passes to a reader with one level less. At the last level there is no such
reader, and the construct is refused, so reading is structural in the levels. Loops over items take
at least one token a round, and the number of tokens left bounds them.
-/

namespace ToolPlan

/-- Reads something at the head of the tokens. -/
abbrev TokenReader (α : Type) := List Token → Except PlanError (α × List Token)

namespace Grammar

variable {α : Type}

def peek (eof : Token) (tokens : List Token) : Token :=
  tokens.headD eof

def unexpected (eof : Token) (expected : Expectation) : TokenReader α := fun tokens =>
  .error (.unexpectedToken (peek eof tokens) expected)

def expect (eof : Token) (kind : TokenKind) (expected : Expectation) : TokenReader Token
  | token :: rest =>
    if token.kind = kind then .ok (token, rest) else unexpected eof expected (token :: rest)
  | [] => unexpected eof expected []

/-- What is left after all next tokens of a kind. -/
def skip (kind : TokenKind) (tokens : List Token) : List Token :=
  tokens.dropWhile (·.kind = kind)

/-- What is left after one comma, if the next token is one. -/
def skipComma : List Token → List Token
  | ⟨.comma, _, _⟩ :: rest => rest
  | tokens => tokens

/-- A construct one level deeper. Where no level is left, the next token is too deep. -/
def descend (eof : Token) : Option (TokenReader α) → TokenReader α
  | some reader, tokens => reader tokens
  | none, tokens => .error (.nestingTooDeep (peek eof tokens).place)

/-! ### Values -/

def path (eof : Token) : TokenReader (List IndexStep)
  | ⟨.leftBracket, _, _⟩ :: ⟨.number, text, place⟩ :: rest =>
    match (Decimal.int? text.toList).filter Number.isWord with
    | none => unexpected eof .integerIndex (⟨.number, text, place⟩ :: rest)
    | some index =>
      match rest with
      | ⟨.rightBracket, _, _⟩ :: rest => do
        let (steps, after) ← path eof rest
        return (.position index :: steps, after)
      | _ => unexpected eof .closeBracket rest
  | ⟨.leftBracket, _, _⟩ :: ⟨.string, text, _⟩ :: rest =>
    match rest with
    | ⟨.rightBracket, _, _⟩ :: rest => do
      let (steps, after) ← path eof rest
      return (.key text :: steps, after)
    | _ => unexpected eof .closeBracket rest
  | ⟨.leftBracket, _, _⟩ :: rest => unexpected eof .indexOrKey rest
  | tokens => .ok ([], tokens)

/-- The items of an array up to its closing bracket. Line ends may stand anywhere between them, and
a comma after an item may be left out. -/
def arrayItems (eof : Token) (item : TokenReader Expr) : Nat → TokenReader (List Expr)
  | 0, tokens => unexpected eof .value tokens
  | fuel + 1, tokens =>
    match skip .newline tokens with
    | ⟨.rightBracket, _, _⟩ :: rest => .ok ([], rest)
    | inside => do
      let (first, after) ← item inside
      let (items, rest) ← arrayItems eof item fuel (skipComma (skip .newline after))
      return (first :: items, rest)

def array (eof : Token) (item : TokenReader Expr) : TokenReader Expr := fun tokens => do
  let (items, rest) ← arrayItems eof item (tokens.length + 1) tokens
  return (.array items, rest)

def mapKey (eof : Token) : TokenReader String := fun tokens =>
  match tokens with
  | ⟨.name, key, _⟩ :: rest | ⟨.string, key, _⟩ :: rest => do
    let (_, after) ← expect eof .assign .mapAssign rest
    return (key, after)
  | _ => unexpected eof .mapKey tokens

/-- The entries of a map up to its closing parenthesis, as they are written. -/
def mapEntries (eof : Token) (item : TokenReader Expr) :
    Nat → TokenReader (List (String × Expr))
  | 0, tokens => unexpected eof .mapKey tokens
  | fuel + 1, tokens =>
    match skip .newline tokens with
    | ⟨.rightParen, _, _⟩ :: rest => .ok ([], rest)
    | inside => do
      let (key, afterKey) ← mapKey eof inside
      let (value, after) ← item afterKey
      let (entries, rest) ← mapEntries eof item fuel (skipComma (skip .newline after))
      return ((key, value) :: entries, rest)

/-- A map after its opening parenthesis. A repeated key keeps its place and takes the last value. -/
def map (eof : Token) (item : TokenReader Expr) : TokenReader Expr := fun tokens => do
  let (entries, rest) ← mapEntries eof item (tokens.length + 1) tokens
  return (.map (Entries.ofList entries), rest)

/-- A construct that is opened by the next token and lies one level deeper. -/
def opened (eof : Token) (inner : Option (TokenReader α)) : TokenReader α :=
  descend eof (inner.map fun reader tokens => reader (tokens.drop 1))

/-- A value; `inner` reads the values inside an array or a map. -/
def valueWith (eof : Token) (inner : Option (TokenReader Expr)) : TokenReader Expr :=
  fun tokens =>
  match tokens with
  | ⟨.dollar, _, _⟩ :: rest => do
    let (name, afterName) ← expect eof .name .nameAfterDollar rest
    let (steps, after) ← path eof afterName
    return (.var name.text steps, after)
  | ⟨.number, text, place⟩ :: rest =>
    match Number.ofText? text with
    | some value => .ok (.number value, rest)
    | none => .error (.numberOutOfRange ⟨.number, text, place⟩)
  | ⟨.trueWord, _, _⟩ :: rest => .ok (.bool true, rest)
  | ⟨.falseWord, _, _⟩ :: rest => .ok (.bool false, rest)
  | ⟨.nullWord, _, _⟩ :: rest => .ok (.null, rest)
  | ⟨.string, text, _⟩ :: rest => .ok (.string text, rest)
  | ⟨.name, text, _⟩ :: rest => .ok (.bare text, rest)
  | ⟨.bare, text, _⟩ :: rest => .ok (.bare text, rest)
  | ⟨.leftBracket, _, _⟩ :: _ => opened eof (inner.map (array eof)) tokens
  | ⟨.leftParen, _, _⟩ :: _ => opened eof (inner.map (map eof)) tokens
  | _ => unexpected eof .value tokens

/-- A value with the given number of levels left. -/
def value (eof : Token) : Nat → TokenReader Expr
  | 0 => valueWith eof none
  | levels + 1 => valueWith eof (some (value eof levels))

/-! ### Conditions -/

def comparison (eof : Token) (operand : TokenReader Expr) : TokenReader Condition :=
  fun tokens => do
  let (left, afterLeft) ← operand tokens
  let (sign, afterSign) ← expect eof .comparison .comparison afterLeft
  match Comparison.ofSymbol? sign.text with
  | none => .error (.unexpectedToken sign .comparison)
  | some op =>
    let (right, rest) ← operand afterSign
    return (.compare op left right, rest)

/-- Whether an opening parenthesis is that of a map, by the tokens after it: an empty map, or a key
with its equals sign. Any other parenthesis groups a condition. -/
def startsMap : List Token → Bool
  | ⟨.rightParen, _, _⟩ :: _ => true
  | ⟨.name, _, _⟩ :: ⟨.assign, _, _⟩ :: _ => true
  | ⟨.string, _, _⟩ :: ⟨.assign, _, _⟩ :: _ => true
  | _ => false

/-- More operands of a chain, joined to the left. -/
def chain (word : TokenKind) (join : Condition → Condition → Condition)
    (operand : TokenReader Condition) : Nat → Condition → TokenReader Condition
  | 0, left, tokens => .ok (left, tokens)
  | _ + 1, left, [] => .ok (left, [])
  | fuel + 1, left, token :: rest =>
    if token.kind = word then do
      let (right, after) ← operand rest
      chain word join operand fuel (join left right) after
    else .ok (left, token :: rest)

/-- One operand, and more of them after a joining word. -/
def chained (word : TokenKind) (join : Condition → Condition → Condition)
    (operand : TokenReader Condition) : TokenReader Condition := fun tokens => do
  let (first, rest) ← operand tokens
  chain word join operand rest.length first rest

/-- Alternatives of conjunctions; `AND` binds more tightly than `OR`. -/
def disjunction (operand : TokenReader Condition) : TokenReader Condition :=
  chained .orWord .or (chained .andWord .and operand)

/-- A negation, a condition in parentheses or a comparison; `inner` reads the operand of a negation
and those of a group. -/
def operandWith (eof : Token) (comparison : TokenReader Condition)
    (inner : Option (TokenReader Condition)) : TokenReader Condition := fun tokens =>
  match tokens with
  | ⟨.notWord, _, _⟩ :: rest => do
    let (negated, after) ← descend eof inner rest
    return (.not negated, after)
  | ⟨.leftParen, _, _⟩ :: rest =>
    if startsMap rest then comparison tokens
    else do
      let (grouped, after) ← descend eof (inner.map disjunction) rest
      let (_, after) ← expect eof .rightParen .closeParen after
      return (grouped, after)
  | _ => comparison tokens

/-- An operand of `AND` with the given number of levels left. -/
def operand (eof : Token) : Nat → TokenReader Condition
  | 0 => operandWith eof (comparison eof (value eof 0)) none
  | levels + 1 =>
    operandWith eof (comparison eof (value eof (levels + 1)))
      (some (operand eof levels))

def condition (eof : Token) (levels : Nat) : TokenReader Condition :=
  disjunction (operand eof levels)

/-! ### Statements -/

/-- The end of a statement: a line end, which is taken, or a closing brace or the end of the input,
which are left. -/
def endOfStatement (eof : Token) : TokenReader Unit := fun tokens =>
  match tokens with
  | [] => .ok ((), [])
  | ⟨.newline, _, _⟩ :: rest => .ok ((), rest)
  | ⟨.rightBrace, _, _⟩ :: _ => .ok ((), tokens)
  | _ => unexpected eof .endOfStatement tokens

/-- The name of a tool, or of the variable that captures its result. -/
def looseName (eof : Token) (expected : Expectation) : TokenReader String := fun tokens =>
  match tokens with
  | ⟨.name, text, _⟩ :: rest | ⟨.bare, text, _⟩ :: rest => .ok (text, rest)
  | _ => unexpected eof expected tokens

def arguments (eof : Token) (value : TokenReader Expr) :
    Nat → TokenReader (List (String × Expr))
  | fuel + 1, ⟨.name, key, _⟩ :: rest => do
    let (_, afterKey) ← expect eof .assign .argumentAssign rest
    let (first, after) ← value afterKey
    let (args, rest) ← arguments eof value fuel after
    return ((key, first) :: args, rest)
  | _, tokens => .ok ([], tokens)

def capture (eof : Token) : TokenReader (Option String)
  | ⟨.arrow, _, _⟩ :: rest => do
    let (name, after) ← looseName eof .captureName rest
    return (some name, after)
  | tokens => .ok (none, tokens)

/-- The statements of a block up to its closing brace. -/
def blockStatements (eof : Token) (statement : TokenReader Statement) :
    Nat → TokenReader (List Statement)
  | 0, tokens => unexpected eof .closeBrace tokens
  | _ + 1, [] => unexpected eof .closeBrace []
  | fuel + 1, token :: rest =>
    if token.kind = .rightBrace then .ok ([], rest)
    else do
      let (first, after) ← statement (token :: rest)
      let (statements, rest) ← blockStatements eof statement fuel after
      return (first :: statements, rest)

/-- A block in braces. Colons, and then line ends, may stand before it. -/
def block (eof : Token) (statement : TokenReader Statement) : TokenReader (List Statement) :=
  fun tokens => do
  let (_, inside) ← expect eof .leftBrace .openBrace (skip .newline (skip .colon tokens))
  blockStatements eof statement (inside.length + 1) inside

/-- The other branch of a conditional, if its word follows, be it after line ends. Where it does not
follow, nothing is taken. -/
def otherwise (block : TokenReader (List Statement)) : TokenReader (Option (List Statement)) :=
  fun tokens =>
  match skip .newline tokens with
  | ⟨.elseWord, _, _⟩ :: rest => do
    let (statements, after) ← block rest
    return (some statements, after)
  | _ => .ok (none, tokens)

/-- A statement. `levels` are left for its values and conditions, and `inner` reads the statements of
its blocks. -/
def statementWith (eof : Token) (levels : Nat) (inner : Option (TokenReader Statement)) :
    TokenReader Statement := fun tokens =>
  let block := descend eof (inner.map (block eof))
  match tokens with
  | ⟨.newline, _, _⟩ :: rest => .ok (.blank, rest)
  | ⟨.letWord, _, _⟩ :: rest => do
    let (name, rest) ← expect eof .name .variableName rest
    let (_, rest) ← expect eof .assign .assignSign rest
    let (value, rest) ← value eof levels rest
    let (_, rest) ← endOfStatement eof rest
    return (.assign name.text value, rest)
  | ⟨.callWord, _, place⟩ :: rest => do
    let (name, rest) ← looseName eof .toolName rest
    let (args, rest) ← arguments eof (value eof levels) rest.length rest
    let (capture, rest) ← capture eof rest
    let (_, rest) ← endOfStatement eof rest
    return (.call ⟨name, Entries.ofList args, capture, place⟩, rest)
  | ⟨.ifWord, _, _⟩ :: rest => do
    let (condition, rest) ← condition eof levels rest
    let (yes, rest) ← block rest
    let (no, rest) ← otherwise block rest
    let (_, rest) ← endOfStatement eof rest
    return (.branch condition yes no, rest)
  | ⟨.forWord, _, _⟩ :: rest => do
    let (var, rest) ← expect eof .name .loopVariable rest
    let (_, rest) ← expect eof .inWord .inWord rest
    let (iterable, rest) ← value eof levels rest
    let (body, rest) ← block rest
    let (_, rest) ← endOfStatement eof rest
    return (.loop var.text iterable body, rest)
  | ⟨.returnWord, _, _⟩ :: rest => do
    let (value, rest) ← value eof levels rest
    let (_, rest) ← endOfStatement eof rest
    return (.finish value, rest)
  | _ => unexpected eof .statement tokens

/-- A statement with the given number of levels left. -/
def statement (eof : Token) : Nat → TokenReader Statement
  | 0 => statementWith eof 0 none
  | levels + 1 => statementWith eof (levels + 1) (some (statement eof levels))

def statements (eof : Token) (statement : TokenReader Statement) :
    Nat → List Token → Except PlanError (List Statement)
  | _, [] => .ok []
  | 0, tokens => (unexpected eof .statement tokens).map (·.1)
  | fuel + 1, tokens => do
    let (first, rest) ← statement tokens
    let more ← statements eof statement fuel rest
    return first :: more

end Grammar

namespace Plan

/-! ### The end of the input -/

/-- The end of the input, where a list of tokens does not hold one: right after its last token. Columns
are natural numbers, so the column after a column always exists; a machine word would wrap around. -/
def impliedEnd (tokens : List Token) : Token :=
  match tokens.getLast? with
  | none => ⟨.eof, "", .start⟩
  | some last => ⟨.eof, "", ⟨last.place.line, last.place.column + 1⟩⟩

/-- The tokens with the end of the input, which is added where the last token is none. -/
def withEnd (tokens : List Token) : List Token :=
  if tokens.getLast?.map Token.kind = some .eof then tokens else tokens ++ [impliedEnd tokens]

/-- The tokens before the first end of the input. -/
def body (tokens : List Token) : List Token :=
  tokens.takeWhile (·.kind ≠ .eof)

/-- The first end of the input. -/
def endToken (tokens : List Token) : Token :=
  (tokens.find? (·.kind = .eof)).getD (impliedEnd tokens)

theorem kind_impliedEnd (tokens : List Token) : (impliedEnd tokens).kind = .eof := by
  unfold impliedEnd
  split <;> rfl

/-- The parser's list always ends with an end of the input, so a reader never runs off it. -/
theorem getLast?_withEnd (tokens : List Token) :
    (withEnd tokens).getLast?.map Token.kind = some .eof := by
  unfold withEnd
  split
  · next closed => exact closed
  · rw [List.getLast?_concat]
    exact congrArg some (kind_impliedEnd tokens)

/-- Statements are read before the first end of the input only. -/
theorem not_eof_of_mem_body {tokens : List Token} {token : Token} (among : token ∈ body tokens) :
    token.kind ≠ .eof :=
  of_decide_eq_true (List.all_eq_true.mp List.all_takeWhile token among)

theorem body_append_of_forall {front tokens : List Token}
    (unended : ∀ token ∈ front, token.kind ≠ .eof) :
    body (front ++ tokens) = front ++ body tokens :=
  List.takeWhile_append_of_pos fun token among => decide_eq_true (unended token among)

theorem body_eq_self {tokens : List Token} (unended : ∀ token ∈ tokens, token.kind ≠ .eof) :
    body tokens = tokens := by
  have all := @body_append_of_forall tokens [] unended
  have nothing : body [] = [] := rfl
  rwa [List.append_nil, nothing, List.append_nil] at all

/-- The first end of the input divides the tokens: what is read, the end itself, what is not looked
at. -/
theorem split_of_find {tokens : List Token} {ending : Token}
    (found : tokens.find? (·.kind = .eof) = some ending) :
    ending.kind = .eof ∧ ∃ after, tokens = body tokens ++ ending :: after := by
  obtain ⟨isEnd, front, after, rfl, unended⟩ := List.find?_eq_some_iff_append.mp found
  have isEnd : ending.kind = .eof := of_decide_eq_true isEnd
  refine ⟨isEnd, after, ?_⟩
  rw [body_append_of_forall (fun token among => by simpa using unended token among)]
  simp [body, isEnd]

/-- The end of the input comes right after the tokens before it. -/
theorem withEnd_split (tokens : List Token) :
    (endToken tokens).kind = .eof ∧
      ∃ after, withEnd tokens = body tokens ++ endToken tokens :: after := by
  cases found : tokens.find? (·.kind = .eof) with
  | some ending =>
    obtain ⟨isEnd, after, split⟩ := split_of_find found
    rw [endToken, found, Option.getD_some, withEnd]
    refine ⟨isEnd, ?_⟩
    split
    · exact ⟨after, split⟩
    · refine ⟨after ++ [impliedEnd tokens], ?_⟩
      rw [← List.cons_append, ← List.append_assoc, ← split]
  | none =>
    have unended : ∀ token ∈ tokens, token.kind ≠ .eof := by
      simpa using found
    have notLast : ¬ tokens.getLast?.map Token.kind = some .eof := by
      intro last
      obtain ⟨token, isLast, isEnd⟩ := Option.map_eq_some_iff.mp last
      exact unended token (List.mem_of_getLast? isLast) isEnd
    rw [endToken, found, Option.getD_none, withEnd, if_neg notLast, body_eq_self unended]
    exact ⟨kind_impliedEnd tokens, [], rfl⟩

/-- An appended end changes nothing in what is read. -/
theorem body_withEnd (tokens : List Token) : body (withEnd tokens) = body tokens := by
  obtain ⟨isEnd, after, split⟩ := withEnd_split tokens
  rw [split, body_append_of_forall fun _ among => not_eof_of_mem_body among]
  simp [body, isEnd]

theorem find_withEnd (tokens : List Token) :
    (withEnd tokens).find? (·.kind = .eof) = some (endToken tokens) := by
  obtain ⟨isEnd, after, split⟩ := withEnd_split tokens
  refine List.find?_eq_some_iff_append.mpr ⟨decide_eq_true isEnd, body tokens, after, split, ?_⟩
  intro token among
  simpa using not_eof_of_mem_body among

/-! ### Plans -/

/-- The plan that a list of tokens stands for. Tokens after the first end of the input do not
matter. -/
def ofTokens (tokens : List Token) : Except PlanError Plan :=
  Grammar.statements (endToken tokens) (Grammar.statement (endToken tokens) maxNesting)
    (body tokens).length (body tokens)

/-- The plan of a text. A text whose characters are no tokens is refused before its grammar is looked
at. -/
def parseChars (text : List Char) : Except PlanError Plan :=
  match Token.scanChars text with
  | .error error => .error (.scan error)
  | .ok tokens => ofTokens tokens

@[inherit_doc parseChars]
def parse (text : String) : Except PlanError Plan :=
  parseChars text.toList

end Plan

end ToolPlan
