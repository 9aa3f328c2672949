import ToolPlan.Plan.Analysis
import ToolPlan.Proofs.Grammar.Sound
import ToolPlan.Proofs.Token.Standalone

/-!
Calls in a text and calls in its plan. By the rules of the grammar no value, condition or line end
holds a word that opens a call, and every statement holds as many as it has calls, in their order
(`Derives.Tells`). So the analysis of an accepted text lists its call words one by one, whatever the
nesting of blocks (`Plan.parse_calls`).
-/

namespace ToolPlan

namespace Token

/-- The places of the words that open calls, each with the text of the token after it, if there is
one. -/
def callHeads : List Token → List (Position × Option String)
  | [] => []
  | token :: rest =>
    if token.kind = .callWord then (token.place, rest.head?.map Token.text) :: callHeads rest
    else callHeads rest

theorem callHeads_skip {kind : TokenKind} (other : kind ≠ .callWord) (text : String)
    (place : Position) (rest : List Token) :
    callHeads (⟨kind, text, place⟩ :: rest) = callHeads rest :=
  if_neg other

def callNames (tokens : List Token) : List String :=
  ((tokens.zip tokens.tail).filter (·.1.kind = .callWord)).map (·.2.text)

end Token

/-- A call as the text shows it: where it is opened, and the name right after that. -/
def Call.head (call : Call) : Position × Option String :=
  (call.place, some call.name)

namespace Derives

open Token (callHeads callHeads_skip)

variable {α : Type}

/-- No phrase holds a word that opens a call. -/
def Silent (phrase : Phrase α) : Prop :=
  ∀ ⦃tokens meaning rest⦄, phrase tokens meaning rest → callHeads tokens = callHeads rest

/-- The words that open calls in a phrase are those of the calls of its meaning. -/
def Tells (calls : α → List Call) (phrase : Phrase α) : Prop :=
  ∀ ⦃tokens meaning rest⦄, phrase tokens meaning rest →
    callHeads tokens = (calls meaning).map Call.head ++ callHeads rest

/-! ### Values and conditions -/

theorem Many.callHeads_eq {kind : TokenKind} {tokens rest : List Token}
    (many : Many kind tokens rest) (other : kind ≠ .callWord) :
    callHeads tokens = callHeads rest := by
  induction many with
  | none => rfl
  | more _ ih => rw [callHeads_skip other, ih]

theorem Comma.callHeads_eq {tokens rest : List Token} (comma : Comma tokens rest) :
    callHeads tokens = callHeads rest := by
  cases comma <;> rfl

/-- An index or a key is no statement, so a path opens no call. -/
theorem Path.silent : Silent Path := by
  intro tokens steps rest path
  induction path with
  | done => rfl
  | position _ _ ih => exact ih
  | key _ ih => exact ih

theorem Scalar.silent : Silent Scalar := by
  intro tokens value rest scalar
  cases scalar with
  | var path => exact path.silent
  | _ => rfl

theorem Items.silent {item : Phrase Expr} (inner : Silent item) : Silent (Items item) := by
  intro tokens items rest derived
  induction derived with
  | close newlines => exact newlines.callHeads_eq nofun
  | more before first after comma _ ih =>
    rw [before.callHeads_eq nofun, inner first, after.callHeads_eq nofun,
      comma.callHeads_eq, ih]

theorem Key.silent : Silent Key := by
  intro tokens key rest derived
  cases derived <;> rfl

theorem Fields.silent {item : Phrase Expr} (inner : Silent item) : Silent (Fields item) := by
  intro tokens fields rest derived
  induction derived with
  | close newlines => exact newlines.callHeads_eq nofun
  | more before key value after comma _ ih =>
    rw [before.callHeads_eq nofun, key.silent, callHeads_skip (by decide), inner value,
      after.callHeads_eq nofun, comma.callHeads_eq, ih]

theorem Container.silent {inner : Phrase Expr} (silent : Silent inner) :
    Silent (Container inner) := by
  intro tokens value rest derived
  cases derived with
  | array items => rw [callHeads_skip (by decide), Items.silent silent items]
  | map fields => rw [callHeads_skip (by decide), Fields.silent silent fields]

/-- No value holds the word of a call: a loose word with that text would have been scanned as the
word. -/
theorem Value.silent (levels : Nat) : Silent (Value levels) := by
  induction levels with
  | zero => exact Scalar.silent
  | succ levels ih =>
    rintro tokens value rest (scalar | container)
    · exact scalar.silent
    · exact Container.silent ih container

theorem Compared.silent {value : Phrase Expr} (inner : Silent value) : Silent (Compared value) := by
  intro tokens condition rest derived
  cases derived with
  | compare _ left _ right => rw [inner left, callHeads_skip (by decide), inner right]

theorem Joined.silent {word : TokenKind} (other : word ≠ .callWord)
    {join : Condition → Condition → Condition} {operand : Phrase Condition}
    (inner : Silent operand) : Silent (Joined word join operand) := by
  intro tokens condition rest derived
  induction derived with
  | single first => exact inner first
  | more _ right ih => rw [ih, callHeads_skip other, inner right]

theorem Disjunction.silent {operand : Phrase Condition} (inner : Silent operand) :
    Silent (Disjunction operand) :=
  Joined.silent (by decide) (Joined.silent (by decide) inner)

theorem Wrapped.silent {inner : Phrase Condition} (silent : Silent inner) :
    Silent (Wrapped inner) := by
  intro tokens condition rest derived
  cases derived with
  | not condition => rw [callHeads_skip (by decide), silent condition]
  | group condition =>
    rw [callHeads_skip (by decide), Disjunction.silent silent condition,
      callHeads_skip (by decide)]

theorem Operand.silent (levels : Nat) : Silent (Operand levels) := by
  induction levels with
  | zero => exact Compared.silent (Value.silent 0)
  | succ levels ih =>
    rintro tokens condition rest (compared | wrapped)
    · exact Compared.silent (Value.silent (levels + 1)) compared
    · exact Wrapped.silent ih wrapped

/-! ### Statements -/

theorem Close.callHeads_eq {tokens rest : List Token} (close : Close tokens rest) :
    callHeads tokens = callHeads rest := by
  cases close <;> rfl

theorem LooseName.silent : Silent LooseName := by
  intro tokens name rest derived
  cases derived <;> rfl

/-- The text of the first token is the name, which is how the heads of calls know it. -/
theorem LooseName.head?_text {tokens rest : List Token} {name : String}
    (derived : LooseName tokens name rest) : tokens.head?.map Token.text = some name := by
  cases derived <;> rfl

theorem Arguments.silent {value : Phrase Expr} (inner : Silent value) :
    Silent (Arguments value) := by
  intro tokens args rest derived
  induction derived with
  | none => rfl
  | more first _ ih => exact (inner first).trans ih

theorem Capture.silent : Silent Capture := by
  intro tokens name rest derived
  cases derived with
  | none => rfl
  | arrow name => exact name.silent

/-- A call tells of itself, by its first two tokens; the other simple statements are silent. -/
theorem Simple.tells {value : Phrase Expr} (inner : Silent value) :
    Tells ToolPlan.Statement.calls (Simple value) := by
  intro tokens statement rest derived
  cases derived with
  | blank => rfl
  | assign expr close => exact (inner expr).trans close.callHeads_eq
  | call name args capture close =>
    rw [callHeads, if_pos rfl, name.head?_text, name.silent, Arguments.silent inner args,
      capture.silent, close.callHeads_eq]
    rfl
  | finish expr close => exact (inner expr).trans close.callHeads_eq

theorem Statements.tells {statement : Phrase ToolPlan.Statement}
    (inner : Tells ToolPlan.Statement.calls statement) :
    Tells ToolPlan.Statement.callsOf (Statements statement) := by
  intro tokens statements rest derived
  induction derived with
  | none => rfl
  | more first _ ih =>
    rw [inner first, ih, ToolPlan.Statement.callsOf, List.map_append, List.append_assoc]

theorem Block.tells {statement : Phrase ToolPlan.Statement}
    (inner : Tells ToolPlan.Statement.calls statement) :
    Tells ToolPlan.Statement.callsOf (Block statement) := by
  intro tokens statements rest derived
  cases derived with
  | braces colons newlines inside =>
    rw [colons.callHeads_eq nofun, newlines.callHeads_eq nofun,
      callHeads_skip (by decide), Statements.tells inner inside, callHeads_skip (by decide)]

theorem Otherwise.tells {statement : Phrase ToolPlan.Statement}
    (inner : Tells ToolPlan.Statement.calls statement) :
    Tells ToolPlan.Statement.callsOfBranch (Otherwise statement) := by
  intro tokens branch rest derived
  cases derived with
  | none => rfl
  | block newlines inside =>
    rw [newlines.callHeads_eq nofun, callHeads_skip (by decide), Block.tells inner inside,
      ToolPlan.Statement.callsOfBranch]

/-- A branch tells of its block and then of its other branch, a loop of its body. -/
theorem Compound.tells {levels : Nat} {inner : Phrase ToolPlan.Statement}
    (tells : Tells ToolPlan.Statement.calls inner) :
    Tells ToolPlan.Statement.calls (Compound levels inner) := by
  intro tokens statement rest derived
  cases derived with
  | branch condition yes no close =>
    rw [callHeads_skip (by decide), Disjunction.silent (Operand.silent levels) condition,
      Block.tells tells yes, Otherwise.tells tells no, close.callHeads_eq,
      ToolPlan.Statement.calls, List.map_append, List.append_assoc]
  | loop iterable body close =>
    refine (Value.silent levels iterable).trans ?_
    rw [Block.tells tells body, close.callHeads_eq, ToolPlan.Statement.calls]

/-- By induction on the nesting levels. The statement with no level left is a simple one. -/
theorem Statement.tells (levels : Nat) : Tells ToolPlan.Statement.calls (Statement levels) := by
  induction levels with
  | zero => exact Simple.tells (Value.silent 0)
  | succ levels ih =>
    rintro tokens statement rest (simple | compound)
    · exact Simple.tells (Value.silent (levels + 1)) simple
    · exact Compound.tells ih compound

/-- The words that open calls in a script are those of the calls of its plan. -/
theorem Script.callHeads_eq {tokens : List Token} {plan : Plan} (script : Script tokens plan) :
    callHeads tokens = plan.calls.map Call.head := by
  rw [Statements.tells (Statement.tells maxNesting) script, callHeads, List.append_nil, Plan.calls]

end Derives

/-! ### Tokens of a text -/

namespace Token

/-- The end of the input stands at the end of the tokens of a text, and nowhere else. -/
theorem scanFrom_ends {fuel : Nat} {place : Position} {chars : List Char} {tokens : List Token}
    (scanned : scanFrom fuel place chars = .ok tokens) :
    ∃ front ending, tokens = front ++ [endOfInput ending] ∧ ∀ token ∈ front, token.kind ≠ .eof := by
  obtain ⟨front, ending, same, inside⟩ := Word.scanFrom_front scanned
  refine ⟨front, ending, same, ?_⟩
  intro token among
  obtain ⟨c, rest, width, read⟩ := inside token among
  exact Lexeme.kind_ne_eof read

theorem callHeads_places (tokens : List Token) : (callHeads tokens).map Prod.fst =
    (tokens.filter (·.kind = .callWord)).map Token.place := by
  induction tokens with
  | nil => rfl
  | cons token rest ih => by_cases opens : token.kind = .callWord <;> simp [callHeads, opens, ih]

theorem callNames_cons_cons (token next : Token) (rest : List Token) :
    callNames (token :: next :: rest) =
      if token.kind = .callWord then next.text :: callNames (next :: rest)
      else callNames (next :: rest) := by
  by_cases opens : token.kind = .callWord <;> simp [callNames, opens]

/-- Where every call word has a token after it, one more token does not count. -/
theorem callNames_concat {front : List Token} (last : Token) {names : List String}
    (followed : (callHeads front).map Prod.snd = names.map some) :
    callNames (front ++ [last]) = names := by
  induction front generalizing names with
  | nil =>
    obtain rfl := List.map_eq_nil_iff.mp followed.symm
    rfl
  | cons token rest ih =>
    cases rest with
    | nil =>
      rw [List.singleton_append, callNames_cons_cons]
      by_cases opens : token.kind = .callWord
      · -- A call word with nothing after it is not followed.
        rw [callHeads, if_pos opens] at followed
        cases names <;> cases followed
      · rw [callHeads, if_neg opens] at followed
        obtain rfl := List.map_eq_nil_iff.mp followed.symm
        rw [if_neg opens]
        rfl
    | cons next rest =>
      rw [List.cons_append, List.cons_append, callNames_cons_cons]
      by_cases opens : token.kind = .callWord
      · rw [callHeads, if_pos opens] at followed
        obtain ⟨name, others, rfl, same, later⟩ := List.map_eq_cons_iff.mp followed.symm
        obtain rfl := Option.some.inj same
        rw [if_pos opens]
        exact congrArg (_ :: ·) (ih later.symm)
      · rw [callHeads, if_neg opens] at followed
        rw [if_neg opens]
        exact ih followed

end Token

namespace Plan

/-- The scanner's own end of the input is the only one, so all tokens before it are read. -/
theorem body_concat {front : List Token} (inside : ∀ token ∈ front, token.kind ≠ .eof)
    (ending : Position) : body (front ++ [Token.endOfInput ending]) = front := by
  rw [body, List.takeWhile_append_of_pos (by simpa using inside)]
  simp [Token.endOfInput]

/-- The calls of the plan of a text are its call words, in order: the analysis places them where
these words stand, gives them the names right after these words, and requires each name once, in the
order of first appearance. -/
theorem parse_calls {text : String} {plan : Plan} (accepted : parse text = .ok plan) :
    ∃ tokens, Token.scan text = .ok tokens ∧
      plan.calls.map Call.place = (tokens.filter (·.kind = .callWord)).map Token.place ∧
      plan.calls.map Call.name = Token.callNames tokens ∧
      plan.requiredTools = (Token.callNames tokens).eraseDups := by
  simp only [parse, parseChars] at accepted
  cases scanned : Token.scanChars text.toList with
  | error fault => simp [scanned] at accepted
  | ok tokens =>
    rw [scanned] at accepted
    obtain ⟨front, ending, rfl, inside⟩ := Token.scanFrom_ends scanned
    have script := script_of_ofTokens accepted
    rw [body_concat inside] at script
    have heads := script.callHeads_eq
    have names : plan.calls.map Call.name =
        Token.callNames (front ++ [Token.endOfInput ending]) := by
      refine (Token.callNames_concat _ ?_).symm
      rw [heads, List.map_map, List.map_map]
      rfl
    refine ⟨_, scanned, ?_, names, ?_⟩
    · have unopened : [Token.endOfInput ending].filter (·.kind = .callWord) = [] := rfl
      rw [List.filter_append, unopened, List.append_nil, ← Token.callHeads_places, heads,
        List.map_map]
      rfl
    · rw [requiredTools, names]

/-- Calls in both branches, in a loop, and twice of one tool. -/
def reporting : String :=
  "\n".intercalate
    ["CALL web.search q=x -> hits",
     "IF $hits == null ".push '{',
     " CALL notify",
     '}'.toString,
     "",
     "ELSE: ".push '{',
     " FOR hit IN $hits ".push '{',
     "  CALL web.search",
     "  CALL store ".push '}',
     '}'.toString]

theorem parse_calls_reporting : ∃ plan tokens, parse reporting = .ok plan ∧
    Token.scan reporting = .ok tokens ∧
    plan.calls.map Call.place = [⟨1, 1⟩, ⟨3, 2⟩, ⟨8, 3⟩, ⟨9, 3⟩] ∧
    plan.calls.map Call.place = (tokens.filter (·.kind = .callWord)).map Token.place ∧
    plan.calls.map Call.name = Token.callNames tokens ∧
    plan.requiredTools = (Token.callNames tokens).eraseDups := by
  have found : (parse reporting).toOption.map (fun plan => plan.calls.map Call.place) =
      some [⟨1, 1⟩, ⟨3, 2⟩, ⟨8, 3⟩, ⟨9, 3⟩] := by decide +kernel
  cases accepted : parse reporting with
  | error fault =>
    rw [accepted] at found
    cases found
  | ok plan =>
    rw [accepted] at found
    obtain ⟨tokens, scanned, places, names, required⟩ := parse_calls accepted
    exact ⟨plan, tokens, rfl, scanned, Option.some.inj found, places, names, required⟩

end Plan

end ToolPlan
