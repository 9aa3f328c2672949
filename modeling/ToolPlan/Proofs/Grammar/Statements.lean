import ToolPlan.Proofs.Grammar.Expressions

/-!
The readers of statements and blocks know where they stand, as those of values and conditions do, but
statements end in other ways: with a line, or before the end of a block or of the input, and a
conditional looks for an `ELSE` on later lines before it ends.
-/

namespace ToolPlan.Grammar

open Derives (ahead cons_of_ahead)

variable {α β : Type}

/-! ### Parts of statements -/

/-- A loose name is a name or a bare word; anything else in its place is to blame. -/
theorem looseName_predictive (expected : Expectation) (budget : Int) (eof : Token)
    (tokens : List Token) : Predictive .inner budget 0 (looseName · expected) eof tokens := by
  have starts : 0 < budget → Completes .inner (looseName · expected) [] := fun _ =>
    ⟨[sample .bare], "", by simp [sample], fun _ _ _ => rfl⟩
  cases tokens with
  | nil => exact .refused_nil expected (fun _ => rfl) starts
  | cons token rest =>
    obtain ⟨kind, text, place⟩ := token
    by_cases name : kind = .name
    · subst name
      exact .token (fun _ _ => rfl) rfl (by simp)
    · by_cases bare : kind = .bare
      · subst bare
        exact .token (fun _ _ => rfl) rfl (by simp)
      · exact .refused_cons expected (fun _ _ => by simp [looseName, name, bare]) starts

section Arguments

variable {value : Reading Expr}

theorem arguments_stop (eof : Token) (value : TokenReader Expr) (fuel : Nat) {tokens : List Token}
    (other : ahead tokens ≠ some .name) : arguments eof value fuel tokens = .ok ([], tokens) := by
  unfold arguments
  split
  · exact absurd rfl other
  · rfl

theorem arguments_fuel {eof : Token} {value : TokenReader Expr}
    (shorter : ∀ {tokens meaning rest}, value tokens = .ok (meaning, rest) →
      rest.length < tokens.length) {fuel fuel' : Nat} {tokens : List Token}
    (enough : tokens.length ≤ fuel) (enough' : tokens.length ≤ fuel') :
    arguments eof value fuel tokens = arguments eof value fuel' tokens := by
  induction fuel generalizing fuel' tokens with
  | zero =>
    obtain rfl := List.length_eq_zero_iff.mp (Nat.le_zero.mp enough)
    rw [arguments_stop eof value 0 (by simp), arguments_stop eof value fuel' (by simp)]
  | succ fuel ih =>
    by_cases named : ahead tokens = some .name
    · obtain ⟨key, place, rest, rfl⟩ := cons_of_ahead named
      simp only [List.length_cons] at enough enough'
      obtain ⟨fuel', rfl⟩ : ∃ n, fuel' = n + 1 := ⟨fuel' - 1, by omega⟩
      rw [arguments, arguments]
      cases sign : expect eof .assign .argumentAssign rest with
      | error fault => rfl
      | ok assigned =>
        obtain ⟨-, -, -, split⟩ := expect_eq_ok.mp sign
        cases read : value assigned.2 with
        | error fault => simp only [ok_bind, read]; rfl
        | ok first =>
          have shortened := shorter read
          have := congrArg List.length split
          rw [List.length_cons] at this
          have others : arguments eof value fuel first.2 = arguments eof value fuel' first.2 :=
            ih (by omega) (by omega)
          simp only [ok_bind, read, others]
    · rw [arguments_stop eof value _ named, arguments_stop eof value _ named]

def argumentsOf (value : Reading Expr) : Reading (List (String × Expr)) := fun eof tokens =>
  arguments eof (value eof) tokens.length tokens

def argument (value : Reading Expr) : Reading Expr :=
  Reading.andThen (expect · .assign .argumentAssign) fun _ => value

theorem argumentsOf_name (shortens : Shortening value) (eof : Token) (key : String)
    (place : Position) (rest : List Token) :
    argumentsOf value eof (⟨.name, key, place⟩ :: rest) =
      ((argument value).andThen fun first => Reading.map ((key, first) :: ·) (argumentsOf value))
        eof rest := by
  rw [argumentsOf, List.length_cons, arguments, argument, Reading.andThen, Reading.andThen]
  cases sign : expect eof .assign .argumentAssign rest with
  | error fault => rfl
  | ok assigned =>
    obtain ⟨-, -, -, split⟩ := expect_eq_ok.mp sign
    simp only [ok_bind]
    cases read : value eof assigned.2 with
    | error fault => rfl
    | ok first =>
      have shortened := shortens read
      have := congrArg List.length split
      rw [List.length_cons] at this
      have others : arguments eof (value eof) rest.length first.2 = argumentsOf value eof first.2 :=
        arguments_fuel (@shortens eof) (by omega) (Nat.le_refl _)
      simp only [ok_bind, others, Reading.map]

/-- There need be no arguments, and then nothing is taken. -/
theorem argumentsOf_starts (value : Reading Expr) : Starts .inner (argumentsOf value) :=
  ⟨[], [], nofun, fun _ free => ⟨free, fun eof =>
    arguments_stop eof (value eof) _ (free .name (by simp [continuing]))⟩⟩

/-- By induction on the length of the tokens, an argument at a time. -/
theorem argumentsOf_predictive (foretells : Foretells value) (budget : Int) (eof : Token)
    (tokens : List Token) : Predictive .inner budget 0 (argumentsOf value) eof tokens := by
  induction n : tokens.length using Nat.strongRecOn generalizing tokens with
  | ind n ih =>
    by_cases named : ahead tokens = some .name
    · obtain ⟨key, place, rest, rfl⟩ := cons_of_ahead named
      have assigned : Predictive .inner budget 0 (argument value) eof rest :=
        (expect_predictive (by rfl) (by simp) (by simp) budget eof rest).andThen
          (fun _ after _ => foretells.predictive budget eof after) fun _ _ => foretells.starts
      refine .after_cons (fun eof' rest' => argumentsOf_name foretells.shortens eof' key place rest')
        rfl (by simp) ?_
      refine assigned.andThen (fun first after readFirst => ?_) fun _ _ =>
        (argumentsOf_starts value).map
      obtain ⟨⟨sign, inside⟩, readSign, readValue⟩ := bind_eq_ok.mp readFirst
      obtain ⟨-, -, -, rfl⟩ := expect_eq_ok.mp readSign
      have shortened := foretells.shortens readValue
      exact (ih after.length (by simp at n shortened; omega) after rfl).map
    · refine .stays fun eof' tokens' same => arguments_stop eof' _ _ ?_
      rcases same with same | free
      · exact same ▸ named
      · exact free .name (by simp [continuing])

end Arguments

theorem capture_stop (eof : Token) {tokens : List Token} (other : ahead tokens ≠ some .arrow) :
    capture eof tokens = .ok (none, tokens) := by
  unfold capture
  split
  · exact absurd rfl other
  · rfl

theorem capture_starts : Starts .inner capture :=
  ⟨[], none, nofun, fun _ free => ⟨free, fun eof =>
    capture_stop eof (free .arrow (by simp [continuing]))⟩⟩

/-- A capture is an arrow and a name; behind the arrow only the name can be missing. -/
theorem capture_predictive (budget : Int) (eof : Token) (tokens : List Token) :
    Predictive .inner budget 0 capture eof tokens := by
  by_cases arrow : ahead tokens = some .arrow
  · obtain ⟨text, place, rest, rfl⟩ := cons_of_ahead arrow
    have captured : Predictive .inner budget 0 (Reading.map some (looseName · .captureName)) eof rest :=
      (looseName_predictive .captureName budget eof rest).map
    exact .after_cons (fun _ _ => rfl) rfl (by simp) captured
  · refine .stays fun eof' tokens' same => capture_stop eof' ?_
    rcases same with same | free
    · exact same ▸ arrow
    · exact free .arrow (by simp [continuing])

/-! ### Ends of statements -/

/-- Line ends do not hide another branch. -/
theorem noElse_newline {text : String} {place : Position} {rest : List Token} :
    NoElse (⟨.newline, text, place⟩ :: rest) ↔ NoElse rest := by
  simp [NoElse, skip]

/-- Where no line ends, the next token tells whether an `ELSE` follows. -/
theorem noElse_congr {tokens tokens' : List Token} (same : ahead tokens' = ahead tokens)
    (notNewline : ahead tokens ≠ some .newline) (noElse : NoElse tokens) : NoElse tokens' := by
  refine noElse_of_ahead (same ▸ notNewline) ?_
  rw [NoElse, skip_of_ahead_ne notNewline] at noElse
  exact same ▸ noElse

/-- Before a closing brace or the end of the input a statement is closed by nothing. -/
theorem endOfStatement_closing (eof : Token) {tokens : List Token} (closing : Closing tokens) :
    endOfStatement eof tokens = .ok ((), tokens) := by
  rcases closing with ended | brace
  · cases tokens with
    | nil => rfl
    | cons => simp at ended
  · obtain ⟨text, place, rest, rfl⟩ := cons_of_ahead brace
    rfl

/-- What neither ends the line nor closes the block is to blame. -/
theorem endOfStatement_refuses (eof : Token) {tokens : List Token}
    (notNewline : ahead tokens ≠ some .newline) (notClosing : ¬ Closing tokens) :
    endOfStatement eof tokens = .error (.unexpectedToken (peek eof tokens) .endOfStatement) := by
  unfold endOfStatement
  split
  · exact absurd (.inl rfl) notClosing
  · exact absurd rfl notNewline
  · exact absurd (.inr rfl) notClosing
  · rfl

/-- A line end closes a statement, and no phrase goes on with one. -/
theorem endOfStatement_starts : Starts .line endOfStatement :=
  ⟨[sample .newline], (), by simp [sample],
    fun _ _ => ⟨free_cons (by decide), fun _ => rfl⟩⟩

/-- A reader that ends a statement, at least where no `ELSE` follows. -/
theorem Predictive.ends {reader : Reading α} {meaning : α} {tokens : List Token}
    (agrees : ∀ eof' tokens', (NoElse tokens → NoElse tokens') →
      reader eof' tokens' = Reading.map (fun _ => meaning) endOfStatement eof' tokens')
    (budget : Int) (eof : Token) : Predictive .line budget 0 reader eof tokens := by
  by_cases newline : ahead tokens = some .newline
  · obtain ⟨text, place, rest, rfl⟩ := cons_of_ahead newline
    have reads : ∀ eof' rest', (NoElse rest → NoElse rest') →
        reader eof' (⟨.newline, text, place⟩ :: rest') = .ok (meaning, rest') := by
      intro eof' rest' noElse
      rw [agrees eof' _ fun before => noElse_newline.mpr (noElse (noElse_newline.mp before))]
      rfl
    constructor
    · intro meaning' last read
      rw [reads eof rest id] at read
      obtain ⟨rfl, rfl⟩ := Prod.mk.inj (Except.ok.inj read)
      exact ⟨[⟨.newline, text, place⟩], rfl, rfl, trivial,
        fun eof' rest' exchange => reads eof' rest' exchange.2⟩
    · intro found expected refused
      rw [reads eof rest id] at refused
      cases refused
  · by_cases closing : Closing tokens
    · -- Nothing is taken here, so what may follow has to be closing as well.
      have reads : ∀ eof' tokens', Closing tokens' → reader eof' tokens' = .ok (meaning, tokens') := by
        intro eof' tokens' closing'
        rw [agrees eof' tokens' fun _ => closing'.noElse]
        exact Reading.map_of_ok (endOfStatement_closing eof' closing')
      constructor
      · intro meaning' last read
        rw [reads eof tokens closing] at read
        obtain ⟨rfl, rfl⟩ := Prod.mk.inj (Except.ok.inj read)
        refine ⟨[], rfl, rfl, trivial, fun eof' rest' exchange => reads eof' rest' ?_⟩
        rcases exchange.1.resolve_left not_endsLine_nil with closing' | same
        · exact closing'
        · exact closing.congr same
      · intro found expected refused
        rw [reads eof tokens closing] at refused
        cases refused
    · refine .refused .endOfStatement (fun eof' tokens' same => ?_) fun _ => ?_
      · rw [agrees eof' tokens' (noElse_congr same.ahead_eq newline)]
        exact Reading.map_of_error (endOfStatement_refuses eof' (same.ahead_eq ▸ newline)
          fun closing' => closing (closing'.congr same.ahead_eq.symm))
      · refine ⟨[sample .newline], meaning, by simp [sample], fun eof' rest' ends => ?_⟩
        exact agrees eof' (sample .newline :: rest') fun _ => noElse_newline.mpr ends

/-! ### Bodies -/

/-- What follows line ends settles whether `ELSE` follows; after other tokens it does not matter. -/
theorem noElse_append_congr {front tokens tokens' : List Token}
    (same : (∀ token ∈ front, token.kind = .newline) → NoElse tokens → NoElse tokens')
    (noElse : NoElse (front ++ tokens)) : NoElse (front ++ tokens') := by
  induction front with
  | nil => exact same nofun noElse
  | cons token front ih =>
    obtain ⟨kind, text, place⟩ := token
    by_cases newline : kind = .newline
    · subst newline
      exact noElse_newline.mpr
        (ih (fun lines => same (List.forall_mem_cons.mpr ⟨rfl, lines⟩)) (noElse_newline.mp noElse))
    · have first : ahead (⟨kind, text, place⟩ :: front ++ tokens) = some kind := rfl
      exact noElse_congr (rfl.trans first.symm) (by simpa [first] using newline) noElse

/-- Statements up to where a body ends. -/
structure Body (seam : Seam) (opened : Int) (body : Reading (List Statement)) : Prop where
  /-- No body opens with `ELSE`. -/
  noElse : ∀ {eof tokens meaning rest}, body eof tokens = .ok (meaning, rest) → NoElse tokens
  /-- Where only line ends are left, none of them is refused. -/
  lines : ∀ {lines found expected}, (∀ token ∈ lines, token.kind = .newline) →
    body (sample .eof) lines = .error (.unexpectedToken found expected) → found = sample .eof
  /-- A body may end at once. -/
  starts : ∃ more meaning, (∀ token ∈ more, token.kind ≠ .eof) ∧ ∀ rest, seam.Ends rest →
    Closing (more ++ rest) ∧ ∀ eof, body eof (more ++ rest) = .ok (meaning, rest)
  whole_append : ∀ {front used}, openBlocks used = opened → seam.Whole used →
    seam.Whole (front ++ used)
  /-- What may be exchanged after a body leaves the next token of the body as it is. -/
  settled : ∀ {front used rest rest'}, openBlocks used = opened →
    seam.Exchange (front ++ used) rest rest' →
    seam.Exchange used rest rest' ∧ ahead (used ++ rest') = ahead (used ++ rest)

/-- The token a body refuses is not a line end after line ends. -/
theorem Body.notNewline {seam : Seam} {budget opened : Int} {body : Reading (List Statement)}
    (isBody : Body seam opened body) {eof found : Token} {expected : Expectation}
    {front left : List Token} (blamed : Blamed seam budget body eof found expected front left)
    (lines : ∀ token ∈ front, token.kind = .newline) : ahead left ≠ some .newline := by
  intro newline
  obtain ⟨text, place, rest, rfl⟩ := cons_of_ahead newline
  have refused := blamed.firm (sample .eof) [⟨.newline, text, place⟩] ⟨rfl, rfl⟩
  have onlyLines : ∀ token ∈ front ++ [⟨.newline, text, place⟩], token.kind = .newline := by
    intro token among
    rcases List.mem_append.mp among with before | last
    · exact lines token before
    · rw [List.mem_singleton.mp last]
  obtain rfl := isBody.lines onlyLines refused
  exact absurd blamed.next (by simp [peek, sample])

/-- Whether `ELSE` follows is settled before the token that a body refuses, or by that token. -/
theorem Body.noElse_of_blamed {seam : Seam} {budget opened : Int} {body : Reading (List Statement)}
    (isBody : Body seam opened body) {eof eof' found : Token} {expected : Expectation}
    {front left left' : List Token} (blamed : Blamed seam budget body eof found expected front left)
    (same : SameNext eof left eof' left') (noElse : NoElse (front ++ left)) :
    NoElse (front ++ left') := by
  exact noElse_append_congr
    (fun lines => noElse_congr same.ahead_eq (isBody.notNewline blamed lines)) noElse

section More

variable {seam : Seam} {budget opened : Int} {body : Reading (List Statement)}
  {statement : Reading Statement} {eof found : Token} {expected : Expectation}
  {used used' front left rest : List Token} {first : Statement} {others : List Statement}

/-- What a body takes stays taken after a statement. -/
theorem Body.taken_more (isBody : Body seam opened body)
    (taken : Taken .line 0 statement first used (used' ++ rest))
    (taken' : Taken seam opened body others used' rest) :
    Taken seam opened (statement.cons body) (first :: others) (used ++ used') rest where
  opened := by rw [openBlocks_append, taken.opened, taken'.opened, Int.zero_add]
  whole := isBody.whole_append taken'.opened taken'.whole
  steady eof' rest' exchange := by
    obtain ⟨exchange', same⟩ := isBody.settled taken'.opened exchange
    have readBody := taken'.steady eof' rest' exchange'
    have passes := taken.steady eof' (used' ++ rest')
      ⟨.inr (.inr same), fun _ => isBody.noElse readBody⟩
    rw [List.append_assoc]
    exact Reading.cons_of_ok passes readBody

/-- What the first statement of a body blames is to blame. -/
theorem Body.blamed_first (isBody : Body seam opened body)
    (blamed : Blamed .line budget statement eof found expected front left) :
    Blamed seam budget (statement.cons body) eof found expected front left where
  next := blamed.next
  opened := blamed.opened
  firm eof' left' same := Reading.andThen_of_error (blamed.firm eof' left' same)
  completes within := by
    obtain ⟨more, first, unended, completed⟩ := blamed.completes within
    obtain ⟨more', others, unended', reads⟩ := isBody.starts
    refine ⟨more ++ more', first :: others, fun token among => ?_, fun eof' rest' ends => ?_⟩
    · exact (List.mem_append.mp among).elim (unended token) (unended' token)
    · -- The statement is completed, and after it the body ends as soon as it may.
      obtain ⟨closing, readBody⟩ := reads rest' ends
      rw [List.append_assoc more]
      exact Reading.cons_of_ok (completed eof' _ closing.noElse) (readBody eof')

/-- What a body blames is to blame after a statement. -/
theorem Body.blamed_more (isBody : Body seam opened body)
    (taken : Taken .line 0 statement first used (front ++ left))
    (blamed : Blamed seam budget body eof found expected front left) :
    Blamed seam budget (statement.cons body) eof found expected (used ++ front) left := by
  have flat : openBlocks (used ++ front) = openBlocks front := by
    rw [openBlocks_append, taken.opened, Int.zero_add]
  refine ⟨blamed.next, flat ▸ blamed.opened, fun eof' left' same => ?_, fun within => ?_⟩
  · have passes := taken.steady eof' (front ++ left')
      ⟨.inr (.inr (same.ahead_append front)), isBody.noElse_of_blamed blamed same⟩
    rw [List.append_assoc, Reading.cons, Reading.andThen_of_ok passes]
    exact Reading.map_of_error (blamed.firm eof' left' same)
  · rw [flat] at within
    cases front with
    | nil =>
      -- The body has taken nothing, so another next token may come right after the statement.
      obtain ⟨more, others, unended, reads⟩ := isBody.starts
      refine ⟨more, first :: others, unended, fun eof' rest' ends => ?_⟩
      obtain ⟨closing, readBody⟩ := reads rest' ends
      have passes :=
        taken.steady eof' (more ++ rest') ⟨.inr (.inl closing), fun _ => closing.noElse⟩
      rw [List.append_nil]
      exact Reading.cons_of_ok passes (readBody eof')
    | cons token front =>
      obtain ⟨more, others, unended, completed⟩ := blamed.completes within
      refine ⟨more, first :: others, unended, fun eof' rest' ends => ?_⟩
      have readBody := completed eof' rest' ends
      have passes := taken.steady eof' (token :: front ++ (more ++ rest'))
        ⟨.inr (.inr rfl), fun _ => isBody.noElse readBody⟩
      rw [List.append_assoc]
      exact Reading.cons_of_ok passes readBody

/-- A statement, and then the others of a body. -/
theorem Body.more {tokens : List Token} (isBody : Body seam opened body)
    (predictive : Predictive .line budget 0 statement eof tokens)
    (later : ∀ first rest, statement eof tokens = .ok (first, rest) →
      Predictive seam budget opened body eof rest) :
    Predictive seam budget opened (statement.cons body) eof tokens := by
  constructor
  · intro statements last read
    obtain ⟨first, rest, others, readFirst, readOthers, rfl⟩ := Reading.cons_eq_ok read
    obtain ⟨used, rfl, taken⟩ := predictive.taken readFirst
    obtain ⟨used', rfl, taken'⟩ := (later first rest readFirst).taken readOthers
    exact ⟨used ++ used', (List.append_assoc ..).symm, isBody.taken_more taken taken'⟩
  · intro found expected refused
    cases readFirst : statement eof tokens with
    | error fault =>
      rw [Reading.cons, Reading.andThen_of_error readFirst] at refused
      obtain rfl := Except.error.inj refused
      obtain ⟨front, left, rfl, blamed⟩ := predictive.blamed readFirst
      exact ⟨front, left, rfl, isBody.blamed_first blamed⟩
    | ok read =>
      obtain ⟨first, rest⟩ := read
      have refusedBody := Reading.error_of_cons readFirst refused
      obtain ⟨used, rfl, taken⟩ := predictive.taken readFirst
      obtain ⟨front, left, rfl, blamed⟩ := (later first rest readFirst).blamed refusedBody
      exact ⟨used ++ front, left, (List.append_assoc ..).symm, isBody.blamed_more taken blamed⟩

end More

/-- A body that stops before certain tokens and reads a statement before all others. -/
theorem Body.predictive {seam : Seam} {budget opened : Int} {body : Reading (List Statement)}
    (isBody : Body seam opened body) {statement : Reading Statement} {Stop : List Token → Prop}
    (shortens : Shortening statement)
    (congr : ∀ {tokens tokens'}, ahead tokens' = ahead tokens → Stop tokens' → Stop tokens)
    (goes : ∀ eof tokens, ¬ Stop tokens →
      body eof tokens = statement.cons body eof tokens)
    (stops : ∀ eof tokens, Stop tokens → Predictive seam budget opened body eof tokens)
    (predictive : ∀ eof tokens, Predictive .line budget 0 statement eof tokens) (eof : Token)
    (tokens : List Token) : Predictive seam budget opened body eof tokens := by
  induction n : tokens.length using Nat.strongRecOn generalizing tokens with
  | ind n ih =>
    by_cases stop : Stop tokens
    · exact stops eof tokens stop
    · have later : ∀ first rest, statement eof tokens = .ok (first, rest) →
          Predictive seam budget opened body eof rest := by
        intro first rest read
        have shortened := shortens read
        exact ih rest.length (by omega) rest rfl
      refine .of_ahead (fun eof' tokens' same => goes eof' tokens' (stop ∘ congr same))
        (isBody.more (predictive eof tokens) later) ?_ fun _ => ?_
      · intro statements last read
        obtain ⟨first, rest, others, readFirst, readOthers, -⟩ := Reading.cons_eq_ok read
        have shortened := shortens readFirst
        obtain ⟨used, rfl, -⟩ := (later first rest readFirst).taken readOthers
        rw [List.length_append] at shortened
        exact Nat.lt_of_le_of_lt (Nat.le_add_left _ _) shortened
      · obtain ⟨more, meaning, unended, reads⟩ := isBody.starts
        exact ⟨more, meaning, unended, fun eof' rest' ends => (reads rest' ends).2 eof'⟩

/-- A body whose statements read a line end as a blank line refuses no line end. -/
theorem lines_of_goes {body : Reading (List Statement)} {statement : Reading Statement}
    (blank : ∀ eof text place rest,
      statement eof (⟨.newline, text, place⟩ :: rest) = .ok (.blank, rest))
    (goes : ∀ eof text place rest, body eof (⟨.newline, text, place⟩ :: rest) =
      statement.cons body eof (⟨.newline, text, place⟩ :: rest))
    (ends : ∀ {eof found expected}, body eof [] = .error (.unexpectedToken found expected) →
      found = eof)
    {lines : List Token} (allLines : ∀ token ∈ lines, token.kind = .newline) {eof found : Token}
    {expected : Expectation} (refused : body eof lines = .error (.unexpectedToken found expected)) :
    found = eof := by
  induction lines with
  | nil => exact ends refused
  | cons token lines ih =>
    obtain ⟨first, others⟩ := List.forall_mem_cons.mp allLines
    obtain ⟨kind, text, place⟩ := token
    obtain rfl : kind = .newline := first
    rw [goes] at refused
    exact ih others (Reading.error_of_cons (blank eof text place lines) refused)

/-- An empty line is a statement of its own. -/
theorem statement_blank (levels : Nat) (eof : Token) (text : String) (place : Position)
    (rest : List Token) :
    statement eof levels (⟨.newline, text, place⟩ :: rest) = .ok (.blank, rest) := by
  cases levels <;> rfl

theorem statement_shortens (levels : Nat) : Shortening (statement · levels) :=
  Sound.shortening (statement_sound · levels) (Derives.Statement.shortens levels)

/-! ### Blocks -/

section Blocks

variable {levels : Nat}

/-- The statements of a block, in as many rounds as there can be. -/
def blockBody (levels : Nat) : Reading (List Statement) := fun eof tokens =>
  blockStatements eof (statement eof levels) (tokens.length + 1) tokens

theorem blockStatements_fuel {eof : Token} {statement : TokenReader Statement}
    (shorter : ∀ {tokens meaning rest}, statement tokens = .ok (meaning, rest) →
      rest.length < tokens.length) {fuel fuel' : Nat} {tokens : List Token}
    (enough : tokens.length < fuel) (enough' : tokens.length < fuel') :
    blockStatements eof statement fuel tokens = blockStatements eof statement fuel' tokens := by
  induction fuel generalizing fuel' tokens with
  | zero => exact absurd enough (Nat.not_lt_zero _)
  | succ fuel ih =>
    obtain ⟨fuel', rfl⟩ : ∃ n, fuel' = n + 1 := ⟨fuel' - 1, by omega⟩
    cases tokens with
    | nil => rfl
    | cons token rest =>
      rw [blockStatements, blockStatements]
      split
      · rfl
      · cases read : statement (token :: rest) with
        | error fault => rfl
        | ok first =>
          have shortened := shorter read
          have others : blockStatements eof statement fuel first.2 =
              blockStatements eof statement fuel' first.2 := ih (by omega) (by omega)
          simp only [ok_bind, others]

theorem blockBody_more (eof : Token) (tokens : List Token)
    (unclosed : ¬ Closing tokens) :
    blockBody levels eof tokens =
      Reading.cons (statement · levels) (blockBody levels) eof tokens := by
  cases tokens with
  | nil => exact absurd (.inl rfl) unclosed
  | cons token rest =>
    have notBrace : token.kind ≠ .rightBrace := fun same => unclosed (.inr (congrArg some same))
    rw [blockBody, blockStatements, if_neg notBrace, Reading.cons, Reading.andThen]
    cases read : statement eof levels (token :: rest) with
    | error fault => rfl
    | ok first =>
      have shortened := statement_shortens levels read
      have others : blockStatements eof (statement eof levels) (token :: rest).length first.2 =
          blockBody levels eof first.2 :=
        blockStatements_fuel (@statement_shortens levels eof) shortened (Nat.lt_succ_self _)
      simp only [ok_bind, others, Reading.map]

/-- The body of a block closes it, so one block less is open behind it. -/
theorem blockBody_isBody (levels : Nat) : Body .inner (-1) (blockBody levels) where
  noElse := by
    intro eof tokens statements rest read
    obtain ⟨text, place, derived⟩ := blockStatements_sound (statement_sound eof levels) read
    exact noElse_statements derived (noElse_of_ahead (by simp) (by simp))
  lines := by
    intro lines found expected allLines refused
    refine lines_of_goes (statement_blank levels) (fun eof text place rest =>
      blockBody_more eof _ (by simp [Closing])) (fun refused => ?_) allLines refused
    exact (PlanError.unexpectedToken.inj (Except.error.inj refused)).1.symm
  starts := ⟨[sample .rightBrace], [], by simp [sample], fun _ _ => ⟨.inr rfl, fun _ => rfl⟩⟩
  whole_append := by
    intro front used opened whole
    have nonempty : used ≠ [] := by
      rintro rfl
      simp at opened
    exact fun line => whole ((endsLine_append nonempty).mp line)
  settled := by
    intro front used rest rest' opened exchange
    cases used with
    | nil => simp at opened
    | cons => exact ⟨exchange, rfl⟩

/-- What a block blames is blamed by one of its statements, or stands where its
closing brace could. -/
theorem blockBody_predictive {budget : Int}
    (predictive : ∀ eof tokens, Predictive .line budget 0 (statement · levels) eof tokens)
    (eof : Token) (tokens : List Token) :
    Predictive .inner budget (-1) (blockBody levels) eof tokens := by
  refine (blockBody_isBody levels).predictive (statement_shortens levels)
    (fun same => Closing.congr same.symm) blockBody_more (fun eof tokens stop => ?_) predictive eof
    tokens
  rcases stop with none | brace
  · cases tokens with
    | nil =>
      exact .refused_nil .closeBrace (fun _ => rfl) fun _ =>
        ⟨[sample .rightBrace], [], by simp [sample], fun _ _ _ => rfl⟩
    | cons => simp at none
  · obtain ⟨text, place, rest, rfl⟩ := cons_of_ahead brace
    exact .one rfl (by simp [Seam.inner, EndsLine]) fun _ _ => rfl

/-- A block, if there is a level for its statements. -/
def blockOf (inner : Option Nat) : Reading (List Statement) := fun eof =>
  descend eof ((inner.map (statement eof)).map (block eof))

/-- What may stand before the brace of a block. -/
def beforeBrace (tokens : List Token) : List Token :=
  skip .newline (skip .colon tokens)

/-- Colons and line ends before a brace are dropped, first the colons. -/
theorem drops_beforeBrace : Drops beforeBrace :=
  (drops_skip (by simp [skipped]) (by rfl)).comp (drops_skip (by simp [skipped]) (by rfl))

def braced (levels : Nat) : Reading (List Statement) :=
  Reading.andThen (expect · .leftBrace .openBrace) fun _ => blockBody levels

/-- The brace opens a block and the body closes it, so the count is as before. -/
theorem braced_predictive
    (predictive : ∀ eof tokens, Predictive .line levels 0 (statement · levels) eof tokens)
    (eof : Token) (tokens : List Token) :
    Predictive .inner (levels + 1 : Nat) 0 (braced levels) eof tokens := by
  have opens : Predictive .inner (levels + 1 : Nat) 1 (expect · .leftBrace .openBrace) eof tokens :=
    expect_predictive (by rfl) (by simp) (by simp) _ eof tokens
  have closed : (1 : Int) + -1 = 0 := rfl
  rw [← closed]
  refine opens.andThen_opened (by decide) (fun _ rest _ => ?_) fun _ _ => ?_
  · rw [Int.natCast_add, Int.natCast_one, Int.add_sub_cancel]
    exact blockBody_predictive predictive eof rest
  · exact ⟨[sample .rightBrace], [], by simp [sample],
      fun _ _ => ⟨free_cons (by decide), fun _ => rfl⟩⟩

theorem braced_shortens : Shortening (braced levels) := by
  intro eof tokens statements rest read
  obtain ⟨⟨brace, inside⟩, readBrace, readBody⟩ := bind_eq_ok.mp read
  obtain ⟨_, _, -, rfl⟩ := expect_eq_ok.mp readBrace
  obtain ⟨_, _, derived⟩ := blockStatements_sound (statement_sound eof levels) readBody
  have shortened := derived.length_le (Derives.Statement.shortens levels)
  simp only [List.length_cons] at *
  omega

/-- A block takes a level, so there is one where blocks may be open at all. -/
theorem blockOf_predictive {inner : Option Nat} {budget : Nat}
    (deeper : ∀ levels, inner = some levels → budget = levels + 1 ∧
      ∀ eof tokens, Predictive .line levels 0 (statement · levels) eof tokens)
    (eof : Token) (tokens : List Token) : Predictive .inner budget 0 (blockOf inner) eof tokens := by
  cases inner with
  | none => exact .of_silent (by simp [blockOf, descend]) (by simp [blockOf, descend])
  | some levels =>
    obtain ⟨rfl, predictive⟩ := deeper levels rfl
    have past : Predictive .inner (levels + 1 : Nat) 0
        (fun eof tokens => braced levels eof (beforeBrace tokens)) eof tokens := by
      refine .past drops_beforeBrace (braced_predictive predictive eof _)
        (fun read => braced_shortens read) fun _ => ?_
      exact ⟨sample .leftBrace, [sample .rightBrace], [], by simp [sample, skipped],
        by simp [sample], fun _ _ _ => rfl⟩
    exact past

/-- An empty block can stand after any phrase. -/
theorem blockOf_starts (levels : Nat) : Starts .inner (blockOf (some levels)) :=
  ⟨[sample .leftBrace, sample .rightBrace], [], by simp [sample],
    fun _ _ => ⟨free_cons (by decide), fun _ => rfl⟩⟩

/-! ### Statements -/

/-- The end of a conditional, with the other branch. -/
def ending (inner : Option Nat) : Reading (Option (List Statement)) := fun eof tokens => do
  let (no, rest) ← otherwise (blockOf inner eof) tokens
  let (_, rest) ← endOfStatement eof rest
  return (no, rest)

/-- The end of a conditional after the word of the other branch. -/
def otherBranch (inner : Option Nat) : Reading (Option (List Statement)) :=
  (blockOf inner).andThen fun no => Reading.map (fun _ => some no) endOfStatement

/-- Line ends before the word of another branch are skipped with it. -/
theorem ending_lines {inner : Option Nat} {lines : List Token}
    (again : ∀ rest, Derives.Many .newline (lines ++ rest) rest) (eof : Token) (text : String)
    (place : Position) (rest : List Token) :
    ending inner eof (lines ++ [⟨.elseWord, text, place⟩] ++ rest) = otherBranch inner eof rest := by
  have skips : skip .newline (lines ++ (⟨.elseWord, text, place⟩ :: rest)) =
      ⟨.elseWord, text, place⟩ :: rest := skip_eq_of_many (again _) (by simp)
  rw [List.append_assoc, List.singleton_append, ending, otherwise, skips, otherBranch, Reading.andThen]
  simp only [bind_assoc, Reading.map, pure_bind]

theorem ending_noElse {inner : Option Nat} (eof : Token) {tokens : List Token}
    (noElse : NoElse tokens) :
    ending inner eof tokens = Reading.map (fun _ => none) endOfStatement eof tokens := by
  have nothing : otherwise (blockOf inner eof) tokens = .ok (none, tokens) := by
    unfold otherwise
    split
    · next found => exact absurd (congrArg ahead found) noElse
    · rfl
  rw [ending, nothing, Reading.map]
  rfl

/-- The end of a conditional depends on the first token behind the line ends: the word of another
branch is taken, and before any other token the lines are put back. -/
theorem ending_predictive {inner : Option Nat} {budget : Nat}
    (deeper : ∀ levels, inner = some levels → budget = levels + 1 ∧
      ∀ eof tokens, Predictive .line levels 0 (statement · levels) eof tokens)
    (eof : Token) (tokens : List Token) : Predictive .line budget 0 (ending inner) eof tokens := by
  by_cases found : ahead (skip .newline tokens) = some .elseWord
  · obtain ⟨text, place, rest, inside⟩ := cons_of_ahead found
    obtain ⟨lines, split, allLines, again⟩ := many_append (many_skip .newline tokens)
    have flat : openBlocks (lines ++ [⟨.elseWord, text, place⟩]) = 0 := by
      rw [openBlocks_append, openBlocks_of_kind (by rfl) allLines]
      rfl
    have front : tokens = lines ++ [⟨.elseWord, text, place⟩] ++ rest := by
      rw [List.append_assoc, List.singleton_append, ← inside, ← split]
    rw [front]
    refine .after _ (fun eof' rest' => ending_lines again eof' text place rest') flat
      (by simp [EndsLine]) ?_
    exact (blockOf_predictive deeper eof rest).andThen
      (fun no after _ => .ends (fun _ _ _ => rfl) budget eof)
      fun _ _ => endOfStatement_starts.map
  · exact .ends (fun eof' tokens' noElse => ending_noElse eof' (noElse found)) budget eof

def assignment (levels : Nat) : Reading Statement :=
  Reading.andThen (expect · .name .variableName) fun name =>
  Reading.andThen (expect · .assign .assignSign) fun _ =>
  Reading.andThen (value · levels) fun value =>
  Reading.map (fun _ => .assign name.text value) endOfStatement

/-- A call after its word, which stands at the given place. -/
def called (levels : Nat) (place : Position) : Reading Statement :=
  Reading.andThen (looseName · .toolName) fun name =>
  Reading.andThen (argumentsOf (value · levels)) fun args =>
  Reading.andThen capture fun capture =>
  Reading.map (fun _ => .call ⟨name, Entries.ofList args, capture, place⟩) endOfStatement

def conditional (levels : Nat) (inner : Option Nat) : Reading Statement :=
  Reading.andThen (condition · levels) fun condition =>
  Reading.andThen (blockOf inner) fun yes =>
  Reading.map (.branch condition yes) (ending inner)

def looped (levels : Nat) (inner : Option Nat) : Reading Statement :=
  Reading.andThen (expect · .name .loopVariable) fun var =>
  Reading.andThen (expect · .inWord .inWord) fun _ =>
  Reading.andThen (value · levels) fun iterable =>
  Reading.andThen (blockOf inner) fun body =>
  Reading.map (fun _ => .loop var.text iterable body) endOfStatement

def finished (levels : Nat) : Reading Statement :=
  Reading.andThen (value · levels) fun value =>
  Reading.map (fun _ => .finish value) endOfStatement

section Words

variable (levels : Nat) (inner : Option Nat) (eof : Token) (text : String) (place : Position)
  (rest : List Token)

theorem statementWith_let :
    statementWith eof levels (inner.map (statement eof)) (⟨.letWord, text, place⟩ :: rest) =
      assignment levels eof rest := rfl

theorem statementWith_call :
    statementWith eof levels (inner.map (statement eof)) (⟨.callWord, text, place⟩ :: rest) =
      called levels place eof rest := rfl

/-- The readers of a branch and of its close are put together as the conditional. -/
theorem statementWith_if :
    statementWith eof levels (inner.map (statement eof)) (⟨.ifWord, text, place⟩ :: rest) =
      conditional levels inner eof rest := by
  simp only [statementWith, conditional, Reading.andThen, Reading.map, ending, bind_assoc, pure_bind,
    blockOf]

theorem statementWith_for :
    statementWith eof levels (inner.map (statement eof)) (⟨.forWord, text, place⟩ :: rest) =
      looped levels inner eof rest := rfl

theorem statementWith_return :
    statementWith eof levels (inner.map (statement eof)) (⟨.returnWord, text, place⟩ :: rest) =
      finished levels eof rest := rfl

end Words

section Kinds

variable {inner : Option Nat}

/-- An assignment blames its name, its sign, a token of its value or what stands after that. -/
theorem assignment_predictive (levels : Nat) (budget : Int) (eof : Token) (tokens : List Token) :
    Predictive .line budget 0 (assignment levels) eof tokens := by
  have value := value_foretells levels
  have ends : ∀ name : Token, Starts .line
      (Reading.andThen (ToolPlan.Grammar.value · levels) fun value =>
        Reading.map (fun _ => Statement.assign name.text value) endOfStatement) :=
    fun name => value.starts.andThen fun _ => endOfStatement_starts.map
  refine .andThen (expect_predictive (by rfl) (by simp) (by simp) budget eof tokens) ?_ fun _ name =>
    (expect_starts (by simp) (by simp [continuing])).andThen fun _ => ends name
  intro name rest _
  refine .andThen (expect_predictive (by rfl) (by simp) (by simp) budget eof rest) ?_
    fun _ _ => ends name
  intro _ rest _
  exact (value.predictive budget eof rest).andThen
    (fun _ _ _ => .ends (fun _ _ _ => rfl) budget eof) fun _ _ => endOfStatement_starts.map

/-- A call blames a token of its name, its arguments, its capture or its close. -/
theorem called_predictive (levels : Nat) (place : Position) (budget : Int) (eof : Token)
    (tokens : List Token) : Predictive .line budget 0 (called levels place) eof tokens := by
  have ends : ∀ (name : String) args, Starts .line
      (Reading.andThen capture fun capture =>
        Reading.map (fun _ => Statement.call ⟨name, Entries.ofList args, capture, place⟩)
          endOfStatement) :=
    fun name args => capture_starts.andThen fun _ => endOfStatement_starts.map
  refine .andThen (looseName_predictive .toolName budget eof tokens) ?_ fun _ name =>
    (argumentsOf_starts _).andThen fun args => ends name args
  intro name rest _
  refine .andThen (argumentsOf_predictive (value_foretells levels) budget eof rest) ?_ fun _ args =>
    ends name args
  intro args rest _
  exact (capture_predictive budget eof rest).andThen
    (fun _ _ _ => .ends (fun _ _ _ => rfl) budget eof) fun _ _ => endOfStatement_starts.map

theorem finished_predictive (levels : Nat) (budget : Int) (eof : Token) (tokens : List Token) :
    Predictive .line budget 0 (finished levels) eof tokens :=
  ((value_foretells levels).predictive budget eof tokens).andThen
    (fun _ _ _ => .ends (fun _ _ _ => rfl) budget eof) fun _ _ => endOfStatement_starts.map

variable {budget : Nat}
  (deeper : ∀ levels, inner = some levels → budget = levels + 1 ∧
    ∀ eof tokens, Predictive .line levels 0 (statement · levels) eof tokens)
  (available : 0 < (budget : Int) → Starts .inner (blockOf inner))

include deeper available

/-- A conditional opens its block behind its condition, where one level less is left. -/
theorem conditional_predictive (levels : Nat) (eof : Token) (tokens : List Token) :
    Predictive .line budget 0 (conditional levels inner) eof tokens := by
  have ends : Starts .line (ending inner) :=
    ⟨[sample .newline], none, by simp [sample], fun rest noElse => ⟨free_cons (by decide), fun eof =>
      ending_noElse eof (noElse_newline.mpr noElse)⟩⟩
  refine .andThen ((condition_foretells levels).predictive budget eof tokens) ?_ fun positive _ =>
    (available positive).andThen fun _ => ends.map
  intro _ rest _
  exact (blockOf_predictive deeper eof rest).andThen
    (fun _ after _ => (ending_predictive deeper eof after).map) fun _ _ => ends.map

/-- A loop blames the tokens of its head, of its value or of its block. -/
theorem looped_predictive (levels : Nat) (eof : Token) (tokens : List Token) :
    Predictive .line budget 0 (looped levels inner) eof tokens := by
  have value := value_foretells levels
  have ends : 0 < (budget : Int) → ∀ (var : Token) (iterable : Expr), Starts .line
      (Reading.andThen (blockOf inner) fun body =>
        Reading.map (fun _ => Statement.loop var.text iterable body) endOfStatement) :=
    fun positive _ _ => (available positive).andThen fun _ => endOfStatement_starts.map
  refine .andThen (expect_predictive (by rfl) (by simp) (by simp) budget eof tokens) ?_
    fun positive var => (expect_starts (by simp) (by simp [continuing])).andThen fun _ =>
      value.starts.andThen fun iterable => ends positive var iterable
  intro var rest _
  refine .andThen (expect_predictive (by rfl) (by simp) (by simp) budget eof rest) ?_
    fun positive _ => value.starts.andThen fun iterable => ends positive var iterable
  intro _ rest _
  refine .andThen (value.predictive budget eof rest) ?_ fun positive iterable =>
    ends positive var iterable
  intro _ rest _
  exact (blockOf_predictive deeper eof rest).andThen
    (fun _ _ _ => .ends (fun _ _ _ => rfl) budget eof) fun _ _ => endOfStatement_starts.map

/-- One case for each word that opens a statement; any other token is refused at once. -/
theorem statementWith_predictive (eof : Token) (tokens : List Token) :
    Predictive .line budget 0
      (fun eof => statementWith eof budget (inner.map (statement eof))) eof tokens := by
  have starts : 0 < (budget : Int) → Completes .line
      (fun eof => statementWith eof budget (inner.map (statement eof))) [] := fun _ =>
    ⟨[sample .newline], .blank, by simp [sample], fun _ _ _ => rfl⟩
  cases tokens with
  | nil => exact .refused_nil .statement (fun _ => rfl) starts
  | cons token rest =>
    obtain ⟨kind, text, place⟩ := token
    cases kind
    case newline => exact .one rfl trivial fun _ _ => rfl
    case letWord =>
      exact .after_cons (fun eof' rest' => statementWith_let budget inner eof' text place rest') rfl
        (by simp) (assignment_predictive budget budget eof rest)
    case callWord =>
      exact .after_cons (fun eof' rest' => statementWith_call budget inner eof' text place rest') rfl
        (by simp) (called_predictive budget place budget eof rest)
    case ifWord =>
      exact .after_cons (fun eof' rest' => statementWith_if budget inner eof' text place rest') rfl
        (by simp) (conditional_predictive deeper available budget eof rest)
    case forWord =>
      exact .after_cons (fun eof' rest' => statementWith_for budget inner eof' text place rest') rfl
        (by simp) (looped_predictive deeper available budget eof rest)
    case returnWord =>
      exact .after_cons (fun eof' rest' => statementWith_return budget inner eof' text place rest') rfl
        (by simp) (finished_predictive budget budget eof rest)
    all_goals exact .refused_cons .statement (fun _ _ => rfl) starts

end Kinds

/-- At most as many blocks may be open as there are levels, and a completion needs one more. -/
theorem statement_predictive (levels : Nat) (eof : Token) (tokens : List Token) :
    Predictive .line levels 0 (statement · levels) eof tokens := by
  induction levels generalizing eof tokens with
  | zero =>
    have deeper : ∀ levels : Nat, none = some levels → 0 = levels + 1 ∧
        ∀ eof tokens, Predictive .line levels 0 (statement · levels) eof tokens := by simp
    exact statementWith_predictive deeper (by simp) eof tokens
  | succ levels ih =>
    have deeper : ∀ levels' : Nat, some levels = some levels' → levels + 1 = levels' + 1 ∧
        ∀ eof tokens, Predictive .line levels' 0 (statement · levels') eof tokens := by
      rintro _ ⟨⟩
      exact ⟨rfl, ih⟩
    exact statementWith_predictive deeper (fun _ => blockOf_starts levels) eof tokens

end Blocks

end ToolPlan.Grammar
