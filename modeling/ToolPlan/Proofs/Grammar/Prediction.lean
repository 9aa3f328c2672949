import ToolPlan.Proofs.Grammar.Complete

/-!
What a reader knows when it stops. A reader looks at its tokens one by one, and apart from a few looks
ahead it decides by the next token alone. So what it has read depends on the tokens it took and on
the token after them (`Taken`), and where it refuses a token, that token and those before it are to
blame: with other tokens after it the same is refused, and with other tokens in its place the reader
could have gone on (`Blamed`).

`Predictive` says both of a reader at given tokens. It passes from the parts of a reader to the whole
(`Predictive.andThen`), so it needs to be shown only of the parts and of the loops.
-/

namespace ToolPlan.Grammar

open Derives (ahead)

variable {α β : Type}

/-! ### Blocks, lines and next tokens -/

/-- How many blocks a token opens. -/
def braces (token : Token) : Int :=
  match token.kind with
  | .leftBrace => 1
  | .rightBrace => -1
  | _ => 0

/-- How many blocks are opened and not closed. -/
def openBlocks : List Token → Int
  | [] => 0
  | token :: tokens => braces token + openBlocks tokens

@[simp] theorem openBlocks_nil : openBlocks [] = 0 := rfl

@[simp] theorem openBlocks_cons (token : Token) (tokens : List Token) :
    openBlocks (token :: tokens) = braces token + openBlocks tokens := rfl

@[simp] theorem openBlocks_append (front tokens : List Token) :
    openBlocks (front ++ tokens) = openBlocks front + openBlocks tokens := by
  induction front with
  | nil => rw [List.nil_append, openBlocks_nil, Int.zero_add]
  | cons token front ih => rw [List.cons_append, openBlocks_cons, openBlocks_cons, ih, Int.add_assoc]

/-- The last token is a line end. -/
def EndsLine (tokens : List Token) : Prop :=
  tokens.getLast?.map Token.kind = some .newline

@[simp] theorem not_endsLine_nil : ¬ EndsLine [] := by simp [EndsLine]

theorem endsLine_append {front tokens : List Token} (nonempty : tokens ≠ []) :
    EndsLine (front ++ tokens) ↔ EndsLine tokens := by
  rw [EndsLine, List.getLast?_append, Option.or_of_isSome (by simpa using nonempty), EndsLine]

theorem not_endsLine_append {front tokens : List Token} (first : ¬ EndsLine front)
    (second : ¬ EndsLine tokens) : ¬ EndsLine (front ++ tokens) := by
  cases tokens with
  | nil => rwa [List.append_nil]
  | cons => rwa [endsLine_append (by simp)]

/-- Two inputs with the same next token, be it their end. -/
structure SameNext (eof : Token) (tokens : List Token) (eof' : Token) (tokens' : List Token) :
    Prop where
  head : tokens'.head? = tokens.head?
  peek : Grammar.peek eof' tokens' = Grammar.peek eof tokens

/-- Only the next token counts after the same tokens. -/
theorem ahead_append_congr {front tokens tokens' : List Token} (same : ahead tokens' = ahead tokens) :
    ahead (front ++ tokens') = ahead (front ++ tokens) := by
  cases front with
  | nil => exact same
  | cons => rfl

/-- The next token decides what can be seen after the same tokens. -/
theorem SameNext.ahead_append {eof eof' : Token} {tokens tokens' : List Token}
    (same : SameNext eof tokens eof' tokens') (front : List Token) :
    ahead (front ++ tokens') = ahead (front ++ tokens) :=
  ahead_append_congr (congrArg (Option.map Token.kind) same.head)

/-- The kinds of tokens that go on with a phrase that may end before them. -/
def continuing : List TokenKind := [.leftBracket, .andWord, .orWord, .name, .arrow]

/-- No phrase goes on with the next token. -/
def Free (tokens : List Token) : Prop :=
  ∀ kind ∈ continuing, ahead tokens ≠ some kind

/-- A kind that continues nothing may follow any phrase. -/
theorem free_cons {token : Token} {rest : List Token} (other : token.kind ∉ continuing) :
    Free (token :: rest) := by
  intro kind among same
  exact other (Option.some.inj same ▸ among)

/-- The input ends, or the block does. -/
def Closing (tokens : List Token) : Prop :=
  ahead tokens = none ∨ ahead tokens = some .rightBrace

theorem Closing.congr {tokens tokens' : List Token} (same : ahead tokens' = ahead tokens)
    (closing : Closing tokens) : Closing tokens' :=
  closing.imp same.trans same.trans

/-- Neither the end of a block nor that of the input continues a phrase. -/
theorem Closing.free {tokens : List Token} (closing : Closing tokens) : Free tokens := by
  intro kind among same
  rcases closing with ended | brace
  · simp [ended] at same
  · obtain rfl := Option.some.inj (brace.symm.trans same)
    simp [continuing] at among

/-- Nor is it another branch. -/
theorem Closing.noElse {tokens : List Token} (closing : Closing tokens) : NoElse tokens := by
  rcases closing with ended | brace
  · exact noElse_of_ahead (by simp [ended]) (by simp [ended])
  · exact noElse_of_ahead (by simp [brace]) (by simp [brace])

/-- What may be exchanged after a phrase. -/
structure Seam where
  /-- Which tokens make a phrase. -/
  Whole : List Token → Prop
  /-- `Exchange used rest rest'`: a phrase of the tokens `used` ends before `rest'` if it ends before
  `rest`. -/
  Exchange : List Token → List Token → List Token → Prop
  /-- Where every phrase ends. -/
  Ends : List Token → Prop
  whole_append : ∀ {front used}, ¬ EndsLine front → Whole used → Whole (front ++ used)
  exchange_append : ∀ {front used rest rest'}, ¬ EndsLine front →
    Exchange (front ++ used) rest rest' → Exchange used rest rest'
  exchange_nil : ∀ {rest rest'}, Exchange [] rest rest' → ahead rest' = ahead rest ∨ Free rest'

/-- Inside of a statement the next token tells where a phrase ends, and no phrase ends with a line. -/
def Seam.inner : Seam where
  Whole used := ¬ EndsLine used
  Exchange _ rest rest' := ahead rest' = ahead rest ∨ Free rest'
  Ends := Free
  whole_append := not_endsLine_append
  exchange_append := fun _ exchange => exchange
  exchange_nil := fun exchange => exchange

/-- A statement ends with its line or before the end of its block or of the input. A conditional looks
for an `ELSE` on later lines. -/
def Seam.line : Seam where
  Whole _ := True
  Exchange used rest rest' :=
    (EndsLine used ∨ Closing rest' ∨ ahead rest' = ahead rest) ∧ (NoElse rest → NoElse rest')
  Ends := NoElse
  whole_append := fun _ _ => trivial
  exchange_append := by
    rintro front used rest rest' inside ⟨ended, noElse⟩
    refine ⟨ended.imp_left fun line => ?_, noElse⟩
    cases used with
    | nil => exact absurd (List.append_nil front ▸ line) inside
    | cons => exact (endsLine_append (by simp)).mp line
  exchange_nil := fun exchange =>
    (exchange.1.resolve_left not_endsLine_nil).symm.imp_right Closing.free

/-! ### Readers that know -/

/-- A reader, for every end of the input. -/
abbrev Reading (α : Type) := Token → TokenReader α

namespace Reading

def andThen (first : Reading α) (next : α → Reading β) : Reading β := fun eof tokens =>
  first eof tokens >>= fun read => next read.1 eof read.2

def map (f : α → β) (reader : Reading α) : Reading β := fun eof tokens =>
  reader eof tokens >>= fun read => pure (f read.1, read.2)

variable {reader : Reading α} {first : Reading α} {next : α → Reading β} {f : α → β} {eof : Token}
  {tokens rest : List Token}

theorem andThen_of_ok {meaning : α} (read : first eof tokens = .ok (meaning, rest)) :
    first.andThen next eof tokens = next meaning eof rest := by
  rw [andThen, read]
  rfl

theorem andThen_of_error {fault : PlanError} (failed : first eof tokens = .error fault) :
    first.andThen next eof tokens = .error fault := by
  rw [andThen, failed]
  rfl

theorem map_of_ok {meaning : α} (read : reader eof tokens = .ok (meaning, rest)) :
    reader.map f eof tokens = .ok (f meaning, rest) := by
  rw [map, read]
  rfl

theorem map_of_error {fault : PlanError} (failed : reader eof tokens = .error fault) :
    reader.map f eof tokens = .error fault := by
  rw [map, failed]
  rfl

theorem error_of_map {fault : PlanError} (failed : reader.map f eof tokens = .error fault) :
    reader eof tokens = .error fault := by
  cases read : reader eof tokens with
  | error fault' =>
    rw [map_of_error read] at failed
    rw [Except.error.inj failed]
  | ok result =>
    rw [map_of_ok read] at failed
    cases failed

/-- An item, and then the others. -/
def cons (first : Reading α) (others : Reading (List α)) : Reading (List α) :=
  first.andThen fun item => others.map (item :: ·)

variable {others : Reading (List α)} {item : α} {items : List α} {between : List Token}

theorem cons_of_ok (readFirst : first eof tokens = .ok (item, between))
    (readOthers : others eof between = .ok (items, rest)) :
    first.cons others eof tokens = .ok (item :: items, rest) :=
  (andThen_of_ok readFirst).trans (map_of_ok readOthers)

theorem cons_eq_ok (read : first.cons others eof tokens = .ok (items, rest)) :
    ∃ item between items', first eof tokens = .ok (item, between) ∧
      others eof between = .ok (items', rest) ∧ item :: items' = items := by
  obtain ⟨⟨item, between⟩, readFirst, readMapped⟩ := bind_eq_ok.mp read
  obtain ⟨⟨items', rest'⟩, readOthers, made⟩ := bind_eq_ok.mp readMapped
  obtain ⟨rfl, rfl⟩ := Prod.mk.inj (pure_eq_ok.mp made)
  exact ⟨item, between, items', readFirst, readOthers, rfl⟩

theorem error_of_cons {fault : PlanError} (readFirst : first eof tokens = .ok (item, between))
    (failed : first.cons others eof tokens = .error fault) : others eof between = .error fault := by
  rw [cons, andThen_of_ok readFirst] at failed
  exact error_of_map failed

end Reading

/-- After the given tokens, others complete what the reader reads. -/
def Completes (seam : Seam) (reader : Reading α) (front : List Token) : Prop :=
  ∃ more meaning, (∀ token ∈ more, token.kind ≠ .eof) ∧
    ∀ eof rest, seam.Ends rest → reader eof (front ++ (more ++ rest)) = .ok (meaning, rest)

/-- Some tokens are read, and they can be read after any phrase. -/
def Starts (seam : Seam) (reader : Reading α) : Prop :=
  ∃ more meaning, (∀ token ∈ more, token.kind ≠ .eof) ∧
    ∀ rest, seam.Ends rest → Free (more ++ rest) ∧
      ∀ eof, reader eof (more ++ rest) = .ok (meaning, rest)

theorem Starts.completes {seam : Seam} {reader : Reading α} (starts : Starts seam reader) :
    Completes seam reader [] := by
  obtain ⟨more, meaning, unended, reads⟩ := starts
  exact ⟨more, meaning, unended, fun eof rest ends => (reads rest ends).2 eof⟩

/-- The reader takes the tokens `used` and does so before other tokens as well. -/
structure Taken (seam : Seam) (opened : Int) (reader : Reading α) (meaning : α)
    (used rest : List Token) : Prop where
  opened : openBlocks used = opened
  whole : seam.Whole used
  steady : ∀ eof' rest', seam.Exchange used rest rest' →
    reader eof' (used ++ rest') = .ok (meaning, rest')

/-- The reader refuses the next token of `left` after the tokens `front`, whatever follows that token,
and in its place others could have stood. -/
structure Blamed (seam : Seam) (budget : Int) (reader : Reading α) (eof found : Token)
    (expected : Expectation) (front left : List Token) : Prop where
  next : peek eof left = found
  opened : 0 ≤ openBlocks front
  firm : ∀ eof' left', SameNext eof left eof' left' →
    reader eof' (front ++ left') = .error (.unexpectedToken found expected)
  completes : openBlocks front < budget → Completes seam reader front

/-- What the reader takes of the given tokens opens so many blocks, and what it refuses of them is to
blame. Fewer than `budget` blocks may be open where a completion is promised. -/
structure Predictive (seam : Seam) (budget opened : Int) (reader : Reading α) (eof : Token)
    (tokens : List Token) : Prop where
  taken : ∀ ⦃meaning rest⦄, reader eof tokens = .ok (meaning, rest) →
    ∃ used, tokens = used ++ rest ∧ Taken seam opened reader meaning used rest
  blamed : ∀ ⦃found expected⦄, reader eof tokens = .error (.unexpectedToken found expected) →
    ∃ front left, tokens = front ++ left ∧
      Blamed seam budget reader eof found expected front left

section AndThen

variable {seam : Seam} {budget opened opened' : Int} {first : Reading α} {next : α → Reading β}
  {eof found : Token} {expected : Expectation} {used used' front left rest : List Token}
  {middle : α} {meaning : β}

/-- What the second reader takes stays taken after what the first one takes. -/
theorem Taken.andThen (taken : Taken .inner opened first middle used (used' ++ rest))
    (taken' : Taken seam opened' (next middle) meaning used' rest) :
    Taken seam (opened + opened') (first.andThen next) meaning (used ++ used') rest where
  opened := by rw [openBlocks_append, taken.opened, taken'.opened]
  whole := seam.whole_append taken.whole taken'.whole
  steady eof' rest' exchange := by
    have exchange' := seam.exchange_append taken.whole exchange
    have goes : ahead (used' ++ rest') = ahead (used' ++ rest) ∨ Free (used' ++ rest') := by
      cases used' with
      | nil => exact seam.exchange_nil exchange'
      | cons => exact .inl rfl
    rw [List.append_assoc, Reading.andThen_of_ok (taken.steady eof' _ goes)]
    exact taken'.steady eof' rest' exchange'

/-- What the first reader blames is to blame: once that reader is completed, the second may start. -/
theorem Blamed.andThen (blamed : Blamed .inner budget first eof found expected front left)
    (starts : 0 < budget → ∀ meaning, Starts seam (next meaning)) :
    Blamed seam budget (first.andThen next) eof found expected front left where
  next := blamed.next
  opened := blamed.opened
  firm eof' left' same := Reading.andThen_of_error (blamed.firm eof' left' same)
  completes within := by
    obtain ⟨more, middle, unended, completed⟩ := blamed.completes within
    obtain ⟨more', meaning, unended', reads⟩ :=
      starts (Int.lt_of_le_of_lt blamed.opened within) middle
    refine ⟨more ++ more', meaning, fun token among => ?_, fun eof' rest' ends => ?_⟩
    · exact (List.mem_append.mp among).elim (unended token) (unended' token)
    · rw [List.append_assoc more]
      rw [Reading.andThen_of_ok (completed eof' _ (reads rest' ends).1)]
      exact (reads rest' ends).2 eof'

/-- What the second reader blames is to blame after what the first one takes. -/
theorem Blamed.after (nonneg : 0 ≤ opened)
    (blamed : Blamed seam (budget - opened) (next middle) eof found expected front left)
    (taken : Taken .inner opened first middle used (front ++ left))
    (starts : 0 < budget → Starts seam (next middle)) :
    Blamed seam budget (first.andThen next) eof found expected (used ++ front) left := by
  have passed : openBlocks (used ++ front) = opened + openBlocks front := by
    rw [openBlocks_append, taken.opened]
  have notBefore := blamed.opened
  refine ⟨blamed.next, by omega, fun eof' left' same => ?_, fun within => ?_⟩
  · rw [List.append_assoc, Reading.andThen_of_ok
      (taken.steady eof' _ (.inl (same.ahead_append front)))]
    exact blamed.firm eof' left' same
  · cases front with
    | nil =>
      -- Nothing of the second part is read yet, so it may start with any tokens that start it.
      obtain ⟨more, meaning, unended, reads⟩ := starts (by omega)
      refine ⟨more, meaning, unended, fun eof' rest' ends => ?_⟩
      rw [List.append_nil, Reading.andThen_of_ok
        (taken.steady eof' _ (.inr (reads rest' ends).1))]
      exact (reads rest' ends).2 eof'
    | cons token front =>
      obtain ⟨more, meaning, unended, completed⟩ := blamed.completes (by omega)
      refine ⟨more, meaning, unended, fun eof' rest' ends => ?_⟩
      have passes := taken.steady eof' (token :: front ++ (more ++ rest')) (.inl rfl)
      rw [List.append_assoc, Reading.andThen_of_ok passes]
      exact completed eof' rest' ends

end AndThen

namespace Predictive

variable {seam : Seam} {budget opened opened' : Int} {reader inner : Reading α} {eof : Token}
  {tokens rest : List Token}

/-- Where nothing is read and no token refused, there is nothing to know. -/
theorem of_silent (failed : ∀ meaning rest, reader eof tokens ≠ .ok (meaning, rest))
    (unblamed : ∀ found expected, reader eof tokens ≠ .error (.unexpectedToken found expected)) :
    Predictive seam budget opened reader eof tokens where
  taken _ _ read := absurd read (failed _ _)
  blamed _ _ refused := absurd refused (unblamed _ _)

/-- Nothing is taken, be it before these tokens or where every phrase ends. -/
theorem stays {meaning : α} (reads : ∀ eof' tokens', ahead tokens' = ahead tokens ∨ Free tokens' →
      reader eof' tokens' = .ok (meaning, tokens')) :
    Predictive .inner budget 0 reader eof tokens where
  taken := by
    intro meaning' rest read
    rw [reads eof tokens (.inl rfl)] at read
    obtain ⟨rfl, rfl⟩ := Prod.mk.inj (Except.ok.inj read)
    exact ⟨[], rfl, rfl, not_endsLine_nil, reads⟩
  blamed := by
    intro found expected refused
    rw [reads eof tokens (.inl rfl)] at refused
    cases refused

/-- The next token is refused. -/
theorem refused (expected : Expectation)
    (refuses : ∀ eof' tokens', SameNext eof tokens eof' tokens' →
      reader eof' tokens' = unexpected eof' expected tokens')
    (starts : 0 < budget → Completes seam reader []) :
    Predictive seam budget opened reader eof tokens where
  taken := by
    intro meaning rest read
    rw [refuses eof tokens ⟨rfl, rfl⟩] at read
    simp at read
  blamed := by
    intro found expected' refused
    rw [refuses eof tokens ⟨rfl, rfl⟩] at refused
    obtain ⟨rfl, rfl⟩ := PlanError.unexpectedToken.inj (Except.error.inj refused)
    refine ⟨[], tokens, rfl, rfl, Int.le_refl 0, ?_, starts⟩
    intro eof' left' same
    rw [List.nil_append, refuses eof' left' same, unexpected, same.peek]

/-- The input ends too early. -/
theorem refused_nil (expected : Expectation)
    (refuses : ∀ eof', reader eof' [] = unexpected eof' expected [])
    (starts : 0 < budget → Completes seam reader []) :
    Predictive seam budget opened reader eof [] := by
  refine refused expected (fun eof' tokens' same => ?_) starts
  obtain rfl := List.head?_eq_none_iff.mp same.head
  exact refuses eof'

/-- Refused for its next token alone, whatever follows that. -/
theorem refused_cons (expected : Expectation) {token : Token}
    (refuses : ∀ eof' rest', reader eof' (token :: rest') = unexpected eof' expected (token :: rest'))
    (starts : 0 < budget → Completes seam reader []) :
    Predictive seam budget opened reader eof (token :: rest) := by
  refine refused expected (fun eof' tokens' same => ?_) starts
  obtain ⟨rest', rfl⟩ := List.head?_eq_some_iff.mp same.head
  exact refuses eof' rest'

/-- The reader goes on as another one after certain tokens. -/
theorem after (front : List Token) (reads : ∀ eof' rest', reader eof' (front ++ rest') =
      inner eof' rest')
    (balanced : openBlocks front = 0) (inside : ¬ EndsLine front)
    (predictive : Predictive seam budget opened inner eof rest) :
    Predictive seam budget opened reader eof (front ++ rest) where
  taken := by
    intro meaning last read
    rw [reads] at read
    obtain ⟨used, rfl, taken⟩ := predictive.taken read
    refine ⟨front ++ used, (List.append_assoc ..).symm, ?_, seam.whole_append inside taken.whole, ?_⟩
    · rw [openBlocks_append, balanced, taken.opened, Int.zero_add]
    · intro eof' rest' exchange
      rw [List.append_assoc, reads]
      exact taken.steady eof' rest' (seam.exchange_append inside exchange)
  blamed := by
    intro found expected refused
    rw [reads] at refused
    obtain ⟨before, left, rfl, blamed⟩ := predictive.blamed refused
    refine ⟨front ++ before, left, (List.append_assoc ..).symm, blamed.next, ?_, ?_, ?_⟩
    · rw [openBlocks_append, balanced, Int.zero_add]
      exact blamed.opened
    · intro eof' left' same
      rw [List.append_assoc, reads]
      exact blamed.firm eof' left' same
    · intro within
      rw [openBlocks_append, balanced, Int.zero_add] at within
      obtain ⟨more, meaning, unended, completed⟩ := blamed.completes within
      refine ⟨more, meaning, unended, fun eof' rest' ends => ?_⟩
      rw [List.append_assoc, reads]
      exact completed eof' rest' ends

theorem map {f : α → β} (predictive : Predictive seam budget opened reader eof tokens) :
    Predictive seam budget opened (reader.map f) eof tokens where
  taken := by
    intro meaning rest read
    obtain ⟨first, readFirst, made⟩ := bind_eq_ok.mp read
    obtain ⟨rfl, rfl⟩ := Prod.mk.inj (pure_eq_ok.mp made)
    obtain ⟨used, rfl, taken⟩ := predictive.taken readFirst
    exact ⟨used, rfl, taken.opened, taken.whole,
      fun eof' rest' exchange => Reading.map_of_ok (taken.steady eof' rest' exchange)⟩
  blamed := by
    intro found expected refused
    obtain ⟨front, left, rfl, blamed⟩ := predictive.blamed (Reading.error_of_map refused)
    refine ⟨front, left, rfl, blamed.next, blamed.opened,
      fun eof' left' same => Reading.map_of_error (blamed.firm eof' left' same), ?_⟩
    intro within
    obtain ⟨more, meaning, unended, completed⟩ := blamed.completes within
    exact ⟨more, f meaning, unended,
      fun eof' rest' ends => Reading.map_of_ok (completed eof' rest' ends)⟩

/-- The reader goes on as another one after a token. -/
theorem after_cons {token : Token} (reads : ∀ eof' rest', reader eof' (token :: rest') =
      inner eof' rest')
    (flat : braces token = 0) (inside : token.kind ≠ .newline)
    (predictive : Predictive seam budget opened inner eof rest) :
    Predictive seam budget opened reader eof (token :: rest) :=
  after [token] reads (by simpa using flat) (by simpa [EndsLine] using inside) predictive

/-- One token is read. -/
theorem one {token : Token} {meaning : α} (opens : braces token = opened)
    (whole : seam.Whole [token])
    (reads : ∀ eof' rest', reader eof' (token :: rest') = .ok (meaning, rest')) :
    Predictive seam budget opened reader eof (token :: rest) where
  taken := by
    intro meaning' last read
    rw [reads] at read
    obtain ⟨rfl, rfl⟩ := Prod.mk.inj (Except.ok.inj read)
    exact ⟨[token], rfl, by simpa using opens, whole, fun eof' rest' _ => reads eof' rest'⟩
  blamed := by
    intro found expected refused
    rw [reads] at refused
    cases refused

/-- One token that is read whatever comes after it. -/
theorem token {token : Token} {meaning : α}
    (reads : ∀ eof' rest', reader eof' (token :: rest') = .ok (meaning, rest'))
    (flat : braces token = 0) (inside : token.kind ≠ .newline) :
    Predictive .inner budget 0 reader eof (token :: rest) :=
  one flat (by simpa [Seam.inner, EndsLine] using inside) reads

/-- What is read after something else goes on where that ends. -/
theorem andThen_opened {first : Reading α} {next : α → Reading β} (nonneg : 0 ≤ opened)
    (predictive : Predictive .inner budget opened first eof tokens)
    (later : ∀ meaning rest, first eof tokens = .ok (meaning, rest) →
      Predictive seam (budget - opened) opened' (next meaning) eof rest)
    (starts : 0 < budget → ∀ meaning, Starts seam (next meaning)) :
    Predictive seam budget (opened + opened') (first.andThen next) eof tokens where
  taken := by
    intro meaning rest read
    obtain ⟨⟨middle, between⟩, readFirst, readNext⟩ := bind_eq_ok.mp read
    obtain ⟨used, rfl, taken⟩ := predictive.taken readFirst
    obtain ⟨used', rfl, taken'⟩ := (later _ _ readFirst).taken readNext
    exact ⟨used ++ used', (List.append_assoc ..).symm, taken.andThen taken'⟩
  blamed := by
    intro found expected refused
    cases readFirst : first eof tokens with
    | error fault =>
      rw [Reading.andThen_of_error readFirst] at refused
      obtain rfl := Except.error.inj refused
      obtain ⟨front, left, rfl, blamed⟩ := predictive.blamed readFirst
      exact ⟨front, left, rfl, blamed.andThen starts⟩
    | ok read =>
      obtain ⟨middle, between⟩ := read
      rw [Reading.andThen_of_ok readFirst] at refused
      obtain ⟨used, rfl, taken⟩ := predictive.taken readFirst
      obtain ⟨front, left, rfl, blamed⟩ := (later _ _ readFirst).blamed refused
      exact ⟨used ++ front, left, (List.append_assoc ..).symm,
        blamed.after nonneg taken fun room => starts room middle⟩

/-- Two predictive readers in a row are predictive. If the first blames a token, the second
completes what the first one lacks; if the second does, what the first one took stays taken. -/
theorem andThen {first : Reading α} {next : α → Reading β}
    (predictive : Predictive .inner budget 0 first eof tokens)
    (later : ∀ meaning rest, first eof tokens = .ok (meaning, rest) →
      Predictive seam budget opened (next meaning) eof rest)
    (starts : 0 < budget → ∀ meaning, Starts seam (next meaning)) :
    Predictive seam budget opened (first.andThen next) eof tokens := by
  rw [← Int.sub_zero budget] at later
  rw [← Int.zero_add opened]
  exact andThen_opened (Int.le_refl 0) predictive later starts

end Predictive

/-! ### What can be read after anything -/

namespace Starts

variable {seam : Seam} {reader first : Reading α} {next : α → Reading β}

theorem map {f : α → β} (starts : Starts seam reader) : Starts seam (reader.map f) := by
  obtain ⟨more, meaning, unended, reads⟩ := starts
  exact ⟨more, f meaning, unended, fun rest ends =>
    ⟨(reads rest ends).1, fun eof => Reading.map_of_ok ((reads rest ends).2 eof)⟩⟩

/-- What can be read after any phrase, and more after it. -/
theorem andThen (starts : Starts .inner first) (later : ∀ meaning, Starts seam (next meaning)) :
    Starts seam (first.andThen next) := by
  obtain ⟨more, middle, unended, reads⟩ := starts
  obtain ⟨more', meaning, unended', reads'⟩ := later middle
  refine ⟨more ++ more', meaning, fun token among => ?_, fun rest ends => ?_⟩
  · exact (List.mem_append.mp among).elim (unended token) (unended' token)
  · obtain ⟨free, readsNext⟩ := reads' rest ends
    obtain ⟨free', readsFirst⟩ := reads _ free
    rw [List.append_assoc]
    refine ⟨free', fun eof => ?_⟩
    rw [Reading.andThen_of_ok (readsFirst eof)]
    exact readsNext eof

end Starts

/-! ### One token -/

def sample (kind : TokenKind) : Token := ⟨kind, "", .start⟩

theorem expect_sample (eof : Token) (kind : TokenKind) (expected : Expectation)
    (rest : List Token) :
    expect eof kind expected (sample kind :: rest) = .ok (sample kind, rest) :=
  expect_eq_ok.mpr ⟨_, _, rfl, rfl⟩

theorem expect_of_ahead_ne {eof : Token} {kind : TokenKind} {expected : Expectation}
    {tokens : List Token} (other : ahead tokens ≠ some kind) :
    expect eof kind expected tokens = unexpected eof expected tokens := by
  cases tokens with
  | nil => rfl
  | cons token rest =>
    have differ : token.kind ≠ kind := fun same => other (congrArg some same)
    rw [expect, if_neg differ]

theorem SameNext.ahead_eq {eof eof' : Token} {tokens tokens' : List Token}
    (same : SameNext eof tokens eof' tokens') : ahead tokens' = ahead tokens :=
  same.ahead_append []

/-- An expected token can stand after any phrase if its kind continues none. -/
theorem expect_starts {kind : TokenKind} {expected : Expectation} (unended : kind ≠ .eof)
    (other : kind ∉ continuing) : Starts .inner (expect · kind expected) := by
  refine ⟨[sample kind], sample kind, by simpa [sample] using unended, fun rest _ => ⟨?_, ?_⟩⟩
  · exact free_cons other
  · exact fun eof => expect_sample eof kind expected rest

/-- An expected token is the one to take, and any other is to blame. -/
theorem expect_predictive {kind : TokenKind} {expected : Expectation} {opened : Int}
    (opens : braces (sample kind) = opened) (unended : kind ≠ .eof) (inside : kind ≠ .newline)
    (budget : Int) (eof : Token) (tokens : List Token) :
    Predictive .inner budget opened (expect · kind expected) eof tokens := by
  by_cases found : ahead tokens = some kind
  · cases tokens with
    | nil => simp at found
    | cons token rest =>
      obtain rfl := Option.some.inj found
      exact .one opens (by simpa [Seam.inner, EndsLine] using inside) fun _ _ => by
        rw [expect, if_pos rfl]
  · have refuses : ∀ eof' tokens', SameNext eof tokens eof' tokens' →
        expect eof' kind expected tokens' = unexpected eof' expected tokens' :=
      fun eof' tokens' same => expect_of_ahead_ne (same.ahead_eq ▸ found)
    exact .refused expected refuses fun _ => ⟨[sample kind], sample kind, by simpa [sample] using unended,
      fun eof' rest' _ => expect_sample eof' kind expected rest'⟩

/-! ### Skipped tokens -/

/-- The kinds of tokens that are skipped somewhere. -/
def skipped : List TokenKind := [.newline, .comma, .colon]

/-- The next token is skipped nowhere. -/
def Solid (tokens : List Token) : Prop :=
  ∀ kind ∈ skipped, ahead tokens ≠ some kind

/-- A kind that is never skipped is solid. -/
theorem solid_cons {token : Token} {rest : List Token} (other : token.kind ∉ skipped) :
    Solid (token :: rest) := by
  intro kind among same
  exact other (Option.some.inj same ▸ among)

/-- A function drops tokens from the front up to one that it does not drop. -/
def Drops (drop : List Token → List Token) : Prop :=
  ∀ tokens, ∃ front, tokens = front ++ drop tokens ∧ openBlocks front = 0 ∧
    ∀ rest', ahead rest' = ahead (drop tokens) ∨ Solid rest' → drop (front ++ rest') = rest'

theorem Drops.length_le {drop : List Token → List Token} (drops : Drops drop) (tokens : List Token) :
    (drop tokens).length ≤ tokens.length := by
  obtain ⟨front, split, -⟩ := drops tokens
  rw [congrArg List.length split, List.length_append]
  exact Nat.le_add_left _ _

/-- Where no token is dropped, all are left. -/
theorem Drops.of_solid {drop : List Token → List Token} (drops : Drops drop) {tokens : List Token}
    (solid : Solid tokens) : drop tokens = tokens := by
  obtain ⟨front, split, -, again⟩ := drops []
  obtain rfl : front = [] := (List.append_eq_nil_iff.mp split.symm).1
  exact again tokens (.inr solid)

/-- The tokens skipped before others are skipped before any. -/
theorem many_append {kind : TokenKind} {tokens rest : List Token}
    (many : Derives.Many kind tokens rest) :
    ∃ front, tokens = front ++ rest ∧ (∀ token ∈ front, token.kind = kind) ∧
      ∀ rest', Derives.Many kind (front ++ rest') rest' := by
  induction many with
  | none => exact ⟨[], rfl, nofun, fun _ => .none⟩
  | more _ ih =>
    obtain ⟨front, rfl, all, again⟩ := ih
    exact ⟨_ :: front, rfl, List.forall_mem_cons.mpr ⟨rfl, all⟩, fun rest' => .more (again rest')⟩

theorem openBlocks_of_kind {kind : TokenKind} (flat : braces (sample kind) = 0) {tokens : List Token}
    (all : ∀ token ∈ tokens, token.kind = kind) : openBlocks tokens = 0 := by
  induction tokens with
  | nil => rfl
  | cons token tokens ih =>
    obtain ⟨first, others⟩ := List.forall_mem_cons.mp all
    have same : braces token = braces (sample kind) := by simp [braces, sample, first]
    rw [openBlocks_cons, ih others, same, flat, Int.add_zero]

/-- Skipped kinds open no block, so the count of open blocks is that of the tokens behind them. -/
theorem drops_skip {kind : TokenKind} (among : kind ∈ skipped) (flat : braces (sample kind) = 0) :
    Drops (skip kind) := by
  intro tokens
  obtain ⟨front, split, all, again⟩ := many_append (many_skip kind tokens)
  refine ⟨front, split, openBlocks_of_kind flat all, fun rest' goes => ?_⟩
  refine skip_eq_of_many (again rest') ?_
  rcases goes with same | solid
  · exact same ▸ ahead_skip_ne kind tokens
  · exact solid kind among

theorem drops_skipComma : Drops skipComma := by
  intro tokens
  by_cases found : ahead tokens = some .comma
  · cases tokens with
    | nil => cases found
    | cons token rest =>
      obtain ⟨kind, text, place⟩ := token
      obtain rfl : kind = .comma := Option.some.inj found
      exact ⟨[⟨.comma, text, place⟩], rfl, rfl, fun _ _ => rfl⟩
  · refine ⟨[], by rw [skipComma_of_ahead_ne found]; rfl, rfl, fun rest' goes => ?_⟩
    rw [skipComma_of_ahead_ne found] at goes
    refine skipComma_of_ahead_ne ?_
    rcases goes with same | solid
    · exact same ▸ found
    · exact solid _ (by simp [skipped])

/-- Tokens may be dropped in several steps. -/
theorem Drops.comp {first second : List Token → List Token} (drops : Drops first)
    (drops' : Drops second) : Drops fun tokens => second (first tokens) := by
  intro tokens
  obtain ⟨front, split, flat, again⟩ := drops tokens
  obtain ⟨front', split', flat', again'⟩ := drops' (first tokens)
  refine ⟨front ++ front', ?_, by simp [flat, flat'], fun rest' goes => ?_⟩
  · rw [List.append_assoc, ← split', ← split]
  · have next : ahead (front' ++ rest') = ahead (first tokens) ∨ Solid (front' ++ rest') := by
      cases front' with
      | nil => exact goes.imp_left fun same => same.trans (congrArg ahead split').symm
      | cons => exact .inl (congrArg ahead split').symm
    simp only [List.append_assoc, again _ next]
    exact again' rest' goes

namespace Predictive

variable {seam : Seam} {budget opened : Int} {reader inner : Reading α} {eof : Token}
  {tokens rest : List Token}

/-- The reader goes on as another one wherever the next token is of this kind. -/
theorem of_ahead (agrees : ∀ eof' tokens', ahead tokens' = ahead tokens →
      reader eof' tokens' = inner eof' tokens')
    (predictive : Predictive seam budget opened inner eof tokens)
    (takes : ∀ {meaning rest}, inner eof tokens = .ok (meaning, rest) →
      rest.length < tokens.length)
    (starts : 0 < budget → Completes seam reader []) :
    Predictive seam budget opened reader eof tokens where
  taken := by
    intro meaning rest read
    rw [agrees eof tokens rfl] at read
    have shorter := takes read
    obtain ⟨used, rfl, taken⟩ := predictive.taken read
    refine ⟨used, rfl, taken.opened, taken.whole, fun eof' rest' exchange => ?_⟩
    rw [agrees]
    · exact taken.steady eof' rest' exchange
    · cases used with
      | nil => exact absurd shorter (Nat.lt_irrefl _)
      | cons => rfl
  blamed := by
    intro found expected refused
    rw [agrees eof tokens rfl] at refused
    obtain ⟨front, left, rfl, blamed⟩ := predictive.blamed refused
    refine ⟨front, left, rfl, blamed.next, blamed.opened, fun eof' left' same => ?_, fun within => ?_⟩
    · rw [agrees eof' _ (same.ahead_append front)]
      exact blamed.firm eof' left' same
    · cases front with
      | nil => exact starts within
      | cons token front =>
        obtain ⟨more, meaning, unended, completed⟩ := blamed.completes within
        refine ⟨more, meaning, unended, fun eof' rest' ends => ?_⟩
        rw [agrees eof' (token :: front ++ (more ++ rest')) rfl]
        exact completed eof' rest' ends

/-- Something is read past tokens that are dropped. -/
theorem past {drop : List Token → List Token} (drops : Drops drop)
    (predictive : Predictive .inner budget opened inner eof (drop tokens))
    (takes : ∀ {meaning rest}, inner eof (drop tokens) = .ok (meaning, rest) →
      rest.length < (drop tokens).length)
    (starts : 0 < budget → ∃ token more meaning, token.kind ∉ skipped ∧
      (∀ other ∈ token :: more, other.kind ≠ .eof) ∧
      ∀ eof' rest', Free rest' → inner eof' (token :: (more ++ rest')) = .ok (meaning, rest')) :
    Predictive .inner budget opened (fun eof tokens => inner eof (drop tokens)) eof tokens := by
  obtain ⟨front, split, flat, again⟩ := drops tokens
  constructor
  · intro meaning last read
    have shorter := takes read
    obtain ⟨used, rest, taken⟩ := predictive.taken read
    have nonempty : used ≠ [] := by
      rintro rfl
      rw [rest, List.nil_append] at shorter
      exact Nat.lt_irrefl _ shorter
    refine ⟨front ++ used, by rw [List.append_assoc, ← rest, ← split], ?_, ?_, ?_⟩
    · rw [openBlocks_append, flat, Int.zero_add, taken.opened]
    · exact fun line => taken.whole ((endsLine_append nonempty).mp line)
    · intro eof' rest' exchange
      have same : ahead (used ++ rest') = ahead (drop tokens) := by
        rw [rest]
        cases used with
        | nil => exact absurd rfl nonempty
        | cons => rfl
      simp only [List.append_assoc, again _ (.inl same)]
      exact taken.steady eof' rest' exchange
  · intro found expected refused
    obtain ⟨before, left, rest, blamed⟩ := predictive.blamed refused
    refine ⟨front ++ before, left, by rw [List.append_assoc, ← rest, ← split], blamed.next, ?_, ?_, ?_⟩
    · rw [openBlocks_append, flat, Int.zero_add]
      exact blamed.opened
    · intro eof' left' same
      have next : ahead (before ++ left') = ahead (drop tokens) := rest ▸ same.ahead_append before
      simp only [List.append_assoc, again _ (.inl next)]
      exact blamed.firm eof' left' same
    · intro within
      rw [openBlocks_append, flat, Int.zero_add] at within
      cases before with
      | nil =>
        -- What completes nothing must not be dropped itself.
        obtain ⟨token, more, meaning, solid, unended, reads⟩ := starts within
        refine ⟨token :: more, meaning, unended, fun eof' rest' ends => ?_⟩
        simp only [List.append_nil, List.cons_append, again _ (.inr (solid_cons solid))]
        exact reads eof' rest' ends
      | cons token before =>
        obtain ⟨more, meaning, unended, completed⟩ := blamed.completes within
        refine ⟨more, meaning, unended, fun eof' rest' ends => ?_⟩
        have next : ahead (token :: before ++ (more ++ rest')) = ahead (drop tokens) := by
          rw [rest]
          rfl
        simp only [List.append_assoc, again _ (.inl next)]
        exact completed eof' rest' ends

end Predictive

/-! ### Tokens that have to be taken -/

/-- The reader runs out of tokens in these. -/
def Exhausts (reader : Reading α) (front : List Token) : Prop :=
  ∀ eof, ∃ expected, reader eof front = .error (.unexpectedToken eof expected)

namespace Exhausts

variable {budget opened : Int} {reader : Reading α} {eof : Token} {front tokens rest : List Token}

/-- Nothing is read of less. -/
theorem prefix_taken (exhausts : Exhausts reader front) {meaning : α} {used : List Token}
    (taken : Taken .inner opened reader meaning used rest) (start : front <+: used ++ rest) :
    front <+: used := by
  rcases List.prefix_or_prefix_of_prefix start (List.prefix_append used rest) with within | beyond
  · exact within
  · obtain ⟨more, rfl⟩ := beyond
    cases more with
    | nil => simp
    | cons token more =>
      have next : ahead (token :: more) = ahead rest := by
        obtain ⟨_, rfl⟩ := (List.prefix_append_right_inj used).mp start
        rfl
      obtain ⟨expected, ran⟩ := exhausts (sample .eof)
      rw [taken.steady _ _ (.inl next)] at ran
      cases ran

/-- None of these tokens is refused. -/
theorem prefix_blamed (exhausts : Exhausts reader front) {seam : Seam} {found : Token}
    {expected : Expectation} {before left : List Token}
    (blamed : Blamed seam budget reader eof found expected before left)
    (start : front <+: before ++ left) : front <+: before := by
  rcases List.prefix_or_prefix_of_prefix start (List.prefix_append before left) with within | beyond
  · exact within
  · obtain ⟨more, rfl⟩ := beyond
    cases more with
    | nil => simp
    | cons token more =>
      obtain ⟨_, rfl⟩ := (List.prefix_append_right_inj before).mp start
      -- Whatever the end of the input is, it would have to be the token that is refused.
      have every : ∀ eof', eof' = found := by
        intro eof'
        obtain ⟨expected', ran⟩ := exhausts eof'
        rw [blamed.firm eof' (token :: more) ⟨rfl, rfl⟩] at ran
        exact (PlanError.unexpectedToken.inj (Except.error.inj ran)).1.symm
      have differ : sample .eof ≠ sample .newline := by decide
      exact absurd ((every _).trans (every _).symm) differ

end Exhausts

/-- A reader that goes on as another one after tokens that have to be taken. -/
theorem Predictive.of_exhausts {budget opened : Int} {reader inner : Reading α} {eof : Token}
    {front rest : List Token} (exhausts : Exhausts inner front)
    (agrees : ∀ eof' rest', reader eof' (front ++ rest') = inner eof' (front ++ rest'))
    (predictive : Predictive .inner budget opened inner eof (front ++ rest)) :
    Predictive .inner budget opened reader eof (front ++ rest) where
  taken := by
    intro meaning last read
    rw [agrees] at read
    obtain ⟨used, split, taken⟩ := predictive.taken read
    refine ⟨used, split, taken.opened, taken.whole, fun eof' rest' exchange => ?_⟩
    obtain ⟨more, rfl⟩ := exhausts.prefix_taken taken (split ▸ List.prefix_append front rest)
    rw [List.append_assoc, agrees, ← List.append_assoc]
    exact taken.steady eof' rest' exchange
  blamed := by
    intro found expected refused
    rw [agrees] at refused
    obtain ⟨before, left, split, blamed⟩ := predictive.blamed refused
    obtain ⟨more, rfl⟩ := exhausts.prefix_blamed blamed (split ▸ List.prefix_append front rest)
    refine ⟨front ++ more, left, split, blamed.next, blamed.opened, ?_, ?_⟩
    · intro eof' left' same
      rw [List.append_assoc, agrees, ← List.append_assoc]
      exact blamed.firm eof' left' same
    · intro within
      obtain ⟨others, meaning, unended, completed⟩ := blamed.completes within
      refine ⟨others, meaning, unended, fun eof' rest' ends => ?_⟩
      rw [List.append_assoc, agrees, ← List.append_assoc]
      exact completed eof' rest' ends

end ToolPlan.Grammar
