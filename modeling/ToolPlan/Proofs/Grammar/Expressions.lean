import ToolPlan.Proofs.Grammar.Prediction

/-!
The readers of values and conditions know where they stand (`Foretells`). Their loops are bounded by
the number of tokens left; any greater bound reads the same, so a loop is the composition of one
round with itself.
-/

namespace ToolPlan.Grammar

open Derives (ahead cons_of_ahead Phrase Shortens)

variable {α β : Type}

/-- Whatever is read takes a token. -/
def Shortening (reader : Reading α) : Prop :=
  ∀ ⦃eof tokens meaning rest⦄, reader eof tokens = .ok (meaning, rest) →
    rest.length < tokens.length

/-- A reader that is predictive at all tokens, takes at least one, and can stand after any phrase. -/
structure Foretells (reader : Reading α) : Prop where
  predictive : ∀ budget eof tokens, Predictive .inner budget 0 reader eof tokens
  starts : Starts .inner reader
  shortens : Shortening reader

/-- A sound reader takes tokens because its phrases do. -/
theorem Sound.shortening {reader : Reading α} {phrase : Phrase α}
    (sound : ∀ eof, Sound (reader eof) phrase) (shorter : Shortens phrase) : Shortening reader :=
  fun eof _ _ _ read => shorter (sound eof read)

/-! ### Paths -/

/-- What stands in the brackets of a path. -/
def index : Reading IndexStep := fun eof tokens =>
  match tokens with
  | ⟨.number, text, place⟩ :: rest =>
    match (Decimal.int? text.toList).filter Number.isWord with
    | none => unexpected eof .integerIndex (⟨.number, text, place⟩ :: rest)
    | some index => .ok (.position index, rest)
  | ⟨.string, text, _⟩ :: rest => .ok (.key text, rest)
  | _ => unexpected eof .indexOrKey tokens

theorem path_bracket (eof : Token) (text : String) (place : Position) (tokens : List Token) :
    path eof (⟨.leftBracket, text, place⟩ :: tokens) =
      (index.andThen fun step => Reading.andThen (expect · .rightBracket .closeBracket) fun _ =>
        Reading.map (step :: ·) path) eof tokens := by
  cases tokens with
  | nil => rfl
  | cons token rest =>
    obtain ⟨kind, text', place'⟩ := token
    by_cases number : kind = .number
    · subst number
      cases whole : (Decimal.int? text'.toList).filter Number.isWord with
      | none => simp [path, whole, index, Reading.andThen, unexpected, bind, Except.bind]
      | some index =>
        cases rest with
        | nil =>
          simp [path, whole, Grammar.index, Reading.andThen, expect, unexpected, bind, Except.bind]
        | cons token others =>
          obtain ⟨kind, text'', place''⟩ := token
          by_cases closed : kind = .rightBracket
          · subst closed
            simp [path, whole, Grammar.index, Reading.andThen, Reading.map, expect]
          · simp [path, whole, Grammar.index, Reading.andThen, expect, unexpected, closed, bind,
              Except.bind]
    · by_cases string : kind = .string
      · subst string
        cases rest with
        | nil => simp [path, index, Reading.andThen, expect, unexpected, bind, Except.bind]
        | cons token others =>
          obtain ⟨kind, text'', place''⟩ := token
          by_cases closed : kind = .rightBracket
          · subst closed
            simp [path, index, Reading.andThen, Reading.map, expect]
          · simp [path, index, Reading.andThen, expect, unexpected, closed, bind, Except.bind]
      · simp [path, index, number, string, Reading.andThen, unexpected, bind, Except.bind]

theorem path_stop (eof : Token) {tokens : List Token} (other : ahead tokens ≠ some .leftBracket) :
    path eof tokens = .ok ([], tokens) :=
  path_complete eof (.done other)

/-- An index blames its token only where one of the others could stand: nothing it takes opens a
block. -/
theorem index_predictive (budget : Int) (eof : Token) (tokens : List Token) :
    Predictive .inner budget 0 index eof tokens := by
  have starts : 0 < budget → Completes .inner index [] := fun _ =>
    ⟨[sample .string], .key "", by simp [sample], fun _ _ _ => rfl⟩
  cases tokens with
  | nil => exact .refused_nil .indexOrKey (fun _ => rfl) starts
  | cons token rest =>
    obtain ⟨kind, text, place⟩ := token
    by_cases number : kind = .number
    · subst number
      cases whole : (Decimal.int? text.toList).filter Number.isWord with
      | none => exact .refused_cons .integerIndex (fun _ _ => by simp [index, whole]) starts
      | some value => exact .token (fun _ _ => by simp [index, whole]; rfl) rfl (by simp)
    · by_cases string : kind = .string
      · subst string
        exact .token (fun _ _ => rfl) rfl (by simp)
      · exact .refused_cons .indexOrKey (fun _ _ => by simp [index, number, string]) starts

/-- The empty path takes nothing, so it can stand after any phrase. -/
theorem path_starts : Starts .inner path :=
  ⟨[], [], nofun, fun _ free => ⟨free, fun eof => path_stop eof (free _ (by simp [continuing]))⟩⟩

/-- By induction on the length of the tokens, one bracket at a time. -/
theorem path_predictive (budget : Int) (eof : Token) (tokens : List Token) :
    Predictive .inner budget 0 path eof tokens := by
  induction n : tokens.length using Nat.strongRecOn generalizing tokens with
  | ind n ih =>
    by_cases opened : ahead tokens = some .leftBracket
    · cases tokens with
      | nil => cases opened
      | cons token rest =>
        obtain ⟨kind, text, place⟩ := token
        obtain rfl : kind = .leftBracket := Option.some.inj opened
        refine .after_cons (fun eof' rest' => path_bracket eof' text place rest') rfl (by simp) ?_
        refine .andThen (index_predictive budget eof rest) (fun step after readStep => ?_) fun _ step =>
          (expect_starts (by simp) (by simp [continuing])).andThen fun _ => path_starts.map
        refine .andThen (expect_predictive (by rfl) (by simp) (by simp) budget eof after)
          (fun bracket others readBracket => ?_) fun _ _ => path_starts.map
        obtain ⟨used, rfl, -⟩ := (index_predictive budget eof rest).taken readStep
        obtain ⟨text', place', rfl, rfl⟩ := expect_eq_ok.mp readBracket
        exact (ih others.length (by simp at n; omega) others rfl).map
    · refine .stays fun eof' tokens' same => path_stop eof' ?_
      rcases same with same | free
      · exact same ▸ opened
      · exact free _ (by simp [continuing])

/-! ### Arrays and maps -/

/-- More rounds than tokens change nothing. -/
theorem listing_fuel {eof : Token} {close : TokenKind} {expected : Expectation}
    {entry : TokenReader α}
    (shorter : ∀ {tokens meaning rest}, entry tokens = .ok (meaning, rest) →
      rest.length < tokens.length) {fuel fuel' : Nat} {tokens : List Token}
    (enough : tokens.length < fuel) (enough' : tokens.length < fuel') :
    listing eof close expected entry fuel tokens = listing eof close expected entry fuel' tokens := by
  induction fuel generalizing fuel' tokens with
  | zero => exact absurd enough (Nat.not_lt_zero _)
  | succ fuel ih =>
    obtain ⟨fuel', rfl⟩ : ∃ n, fuel' = n + 1 := ⟨fuel' - 1, by omega⟩
    rw [listing, listing]
    split
    · rfl
    · cases read : entry (skip .newline tokens) with
      | error fault => rfl
      | ok first =>
        have shortened := shorter read
        have skipped := (many_skip .newline tokens).length_le
        have between := (many_skip .newline first.2).length_le
        have comma := (comma_skipComma (skip .newline first.2)).length_le
        have others : listing eof close expected entry fuel (skipComma (skip .newline first.2)) =
            listing eof close expected entry fuel' (skipComma (skip .newline first.2)) :=
          ih (by omega) (by omega)
        simp only [ok_bind, others]

/-- Line ends before an entry are skipped, so a listing reads the same without them. -/
theorem listing_skip (eof : Token) (close : TokenKind) (expected : Expectation)
    (entry : TokenReader α) (fuel : Nat) (tokens : List Token) :
    listing eof close expected entry (fuel + 1) tokens =
      listing eof close expected entry (fuel + 1) (skip .newline tokens) := by
  rw [listing, listing, skip_skip]

/-- Line ends and a comma between two entries. -/
def separator (tokens : List Token) : List Token :=
  skip .newline (skipComma (skip .newline tokens))

theorem drops_separator : Drops separator :=
  ((drops_skip (by simp [skipped]) (by rfl)).comp drops_skipComma).comp
    (drops_skip (by simp [skipped]) (by rfl))

/-- Entries up to a closing token, in as many rounds as there can be. -/
def items (close : TokenKind) (expected : Expectation) (entry : Reading α) : Reading (List α) :=
  fun eof tokens => listing eof close expected (entry eof) (tokens.length + 1) tokens

section Items

variable {close : TokenKind} {expected : Expectation} {entry : Reading α}

theorem items_close (solid : close ∉ skipped) (eof : Token) (text : String) (place : Position)
    (rest : List Token) :
    items close expected entry eof (⟨close, text, place⟩ :: rest) = .ok ([], rest) := by
  have apart : close ≠ .newline := fun same => solid (by simp [same, skipped])
  have inside : skip .newline (⟨close, text, place⟩ :: rest) = ⟨close, text, place⟩ :: rest :=
    skip_of_ahead_ne (by simpa using apart)
  simp [items, listing, inside]

/-- Where no entry ends the listing, one is read, and the others after it. -/
theorem items_more (shortens : Shortening entry) {tokens : List Token}
    (apart : ahead tokens ≠ some .newline) (unclosed : ahead tokens ≠ some close) (eof : Token) :
    items close expected entry eof tokens =
      entry.cons (fun eof after => items close expected entry eof (separator after)) eof tokens := by
  rw [items, listing, skip_of_ahead_ne apart, if_neg unclosed, Reading.cons, Reading.andThen]
  cases read : entry eof tokens with
  | error fault => rfl
  | ok first =>
    have shortened := shortens read
    have skipped := (many_skip .newline first.2).length_le
    have comma := (comma_skipComma (skip .newline first.2)).length_le
    have skipped' := (many_skip .newline (skipComma (skip .newline first.2))).length_le
    obtain ⟨fuel, enough⟩ : ∃ n, tokens.length = n + 1 := ⟨tokens.length - 1, by omega⟩
    -- The line ends after the comma may belong to the next round or to the separator.
    have others : listing eof close expected (entry eof) tokens.length
          (skipComma (skip .newline first.2)) =
        items close expected entry eof (separator first.2) := by
      rw [enough, listing_skip]
      exact listing_fuel (@shortens eof) (Nat.lt_of_le_of_lt skipped' (by omega)) (Nat.lt_succ_self _)
    simp only [ok_bind, others, Reading.map]

theorem items_skip (shortens : Shortening entry) (eof : Token) (tokens : List Token) :
    items close expected entry eof tokens =
      items close expected entry eof (skip .newline tokens) := by
  rw [items, listing_skip]
  exact listing_fuel (@shortens eof) (Nat.lt_succ_of_le (many_skip .newline tokens).length_le)
    (Nat.lt_succ_self _)

/-- A listing takes at least its close. -/
theorem items_shortens (shortens : Shortening entry) (solid : close ∉ skipped) :
    Shortening (items close expected entry) := by
  intro eof tokens meaning rest read
  induction n : tokens.length using Nat.strongRecOn generalizing tokens meaning with
  | ind n ih =>
    have skips := (many_skip .newline tokens).length_le
    rw [items_skip shortens] at read
    by_cases closed : ahead (skip .newline tokens) = some close
    · obtain ⟨text, place, others, inside⟩ := cons_of_ahead closed
      rw [inside, items_close solid] at read
      obtain ⟨-, rfl⟩ := Prod.mk.inj (Except.ok.inj read)
      rw [inside, List.length_cons] at skips
      omega
    · rw [items_more shortens (ahead_skip_ne _ _) closed] at read
      obtain ⟨first, after, others, readFirst, readOthers, -⟩ := Reading.cons_eq_ok read
      have shortened := shortens readFirst
      have between := drops_separator.length_le after
      have := ih (separator after).length (by omega) readOthers rfl
      omega

/-- What stands behind an entry may be the close, with which no phrase goes on. -/
theorem items_starts (solid : close ∉ skipped) (unended : close ≠ .eof) (other : close ∉ continuing) :
    Starts .inner fun eof after => items close expected entry eof (separator after) := by
  refine ⟨[sample close], [], by simpa [sample] using unended, fun rest _ => ⟨free_cons other, ?_⟩⟩
  intro eof
  have first : Solid (sample close :: rest) := solid_cons solid
  simp only [List.singleton_append, drops_separator.of_solid first]
  exact items_close solid eof "" .start rest

/-- The items of a listing, from its first token that is no line end. -/
theorem items_predictive
    (predictive : ∀ budget eof tokens, Predictive .inner budget 0 entry eof tokens)
    (shortens : Shortening entry) (solid : close ∉ skipped)
    (flat : braces (sample close) = 0) (unended : close ≠ .eof) (other : close ∉ continuing)
    (budget : Int) (eof : Token) {tokens : List Token} (apart : ahead tokens ≠ some .newline) :
    Predictive .inner budget 0 (items close expected entry) eof tokens := by
  have closes : ∀ eof' rest', items close expected entry eof' (sample close :: rest') =
      .ok ([], rest') := fun eof' rest' => items_close solid eof' "" .start rest'
  induction n : tokens.length using Nat.strongRecOn generalizing tokens with
  | ind n ih =>
    by_cases closed : ahead tokens = some close
    · obtain ⟨text, place, rest, rfl⟩ := cons_of_ahead closed
      have notLine : close ≠ .newline := fun same => solid (by simp [same, skipped])
      exact .token (fun eof' rest' => items_close solid eof' text place rest')
        (by simpa [braces, sample] using flat) notLine
    · have agrees : ∀ eof' tokens', ahead tokens' = ahead tokens →
          items close expected entry eof' tokens' =
            entry.cons (fun eof after => items close expected entry eof (separator after)) eof'
              tokens' :=
        fun eof' tokens' same => items_more shortens (same ▸ apart) (same ▸ closed) eof'
      refine .of_ahead agrees ?_ ?_ fun _ => ?_
      · refine .andThen (predictive budget eof tokens) (fun first after readFirst => ?_)
          fun _ _ => (items_starts solid unended other).map
        have shortened := shortens readFirst
        have between := drops_separator.length_le after
        refine (Predictive.past drops_separator ?_ ?_ fun _ => ?_).map
        · exact ih _ (by omega) (ahead_skip_ne _ _) rfl
        · exact fun read => items_shortens shortens solid read
        · exact ⟨sample close, [], [], solid, by simpa [sample] using unended,
            fun eof' rest' _ => closes eof' rest'⟩
      · intro meaning rest read
        rw [← agrees eof tokens rfl] at read
        exact items_shortens shortens solid read
      · exact ⟨[sample close], [], by simpa [sample] using unended, fun eof' rest' _ =>
          closes eof' rest'⟩

end Items

def dollared : Reading Expr :=
  Reading.andThen (expect · .name .nameAfterDollar) fun name =>
    Reading.map (.var name.text) path

theorem valueWith_dollar (inner : Option (TokenReader Expr)) (eof : Token) (text : String)
    (place : Position) (rest : List Token) :
    valueWith eof inner (⟨.dollar, text, place⟩ :: rest) = dollared eof rest := rfl

section Containers

variable {item : Reading Expr}

def field (item : Reading Expr) : Reading (String × Expr) :=
  fun eof => mapField eof (item eof)

def arrayOf (item : Reading Expr) : Reading Expr :=
  Reading.map .array fun eof tokens => items .rightBracket .value item eof (skip .newline tokens)

def mapOf (item : Reading Expr) : Reading Expr :=
  Reading.map (fun fields => .map (Entries.ofList fields)) fun eof tokens =>
    items .rightParen .mapKey (field item) eof (skip .newline tokens)

theorem field_shortens (shortens : Shortening item) : Shortening (field item) := by
  intro eof tokens meaning rest read
  obtain ⟨⟨key, after⟩, readKey, readValue⟩ := bind_eq_ok.mp read
  obtain ⟨⟨value, last⟩, readItem, made⟩ := bind_eq_ok.mp readValue
  obtain ⟨-, rfl⟩ := Prod.mk.inj (pure_eq_ok.mp made)
  obtain ⟨text, place, derived⟩ := mapKey_sound readKey
  have keyed := Derives.Key.shortens derived
  have shortened := shortens readItem
  simp only [List.length_cons] at *
  omega

theorem valueWith_bracket (shortens : Shortening item) (eof : Token) (text : String)
    (place : Position) (rest : List Token) :
    valueWith eof (some (item eof)) (⟨.leftBracket, text, place⟩ :: rest) =
      arrayOf item eof rest := by
  simp only [valueWith, opened, descend, Option.map_some, List.drop_succ_cons, List.drop_zero, array,
    arrayItems_eq, arrayOf, Reading.map, ← items_skip shortens]
  rfl

theorem valueWith_paren (shortens : Shortening item) (eof : Token) (text : String)
    (place : Position) (rest : List Token) :
    valueWith eof (some (item eof)) (⟨.leftParen, text, place⟩ :: rest) = mapOf item eof rest := by
  simp only [valueWith, opened, descend, Option.map_some, List.drop_succ_cons, List.drop_zero, map,
    mapEntries_eq, mapOf, Reading.map, ← items_skip (field_shortens shortens)]
  rfl

/-- Items from the opening token on, past line ends. -/
theorem items_past {entry : Reading α} {close : TokenKind} {expected : Expectation}
    (predictive : ∀ budget eof tokens, Predictive .inner budget 0 entry eof tokens)
    (shortens : Shortening entry) (solid : close ∉ skipped)
    (flat : braces (sample close) = 0) (unended : close ≠ .eof) (other : close ∉ continuing)
    (budget : Int) (eof : Token) (tokens : List Token) :
    Predictive .inner budget 0
      (fun eof tokens => items close expected entry eof (skip .newline tokens)) eof tokens := by
  refine .past (drops_skip (by simp [skipped]) (by rfl)) ?_ ?_ fun _ => ?_
  · exact items_predictive predictive shortens solid flat unended other budget eof
      (ahead_skip_ne _ _)
  · exact fun read => items_shortens shortens solid read
  · exact ⟨sample close, [], [], solid, by simpa [sample] using unended,
      fun eof' rest' _ => items_close solid eof' "" .start rest'⟩

theorem mapKey_predictive (budget : Int) (eof : Token) (tokens : List Token) :
    Predictive .inner budget 0 mapKey eof tokens := by
  have starts : 0 < budget → Completes .inner mapKey [] := fun _ =>
    ⟨[sample .string, sample .assign], "", by simp [sample], fun _ _ _ => rfl⟩
  have assigned : ∀ (key : String) rest, Predictive .inner budget 0
      (Reading.map (fun _ => key) (expect · .assign .mapAssign)) eof rest :=
    fun key rest => (expect_predictive (by rfl) (by simp) (by simp) budget eof rest).map
  cases tokens with
  | nil => exact .refused_nil .mapKey (fun _ => rfl) starts
  | cons token rest =>
    obtain ⟨kind, text, place⟩ := token
    by_cases name : kind = .name
    · subst name
      exact .after_cons (fun _ _ => rfl) rfl (by simp) (assigned text rest)
    · by_cases string : kind = .string
      · subst string
        exact .after_cons (fun _ _ => rfl) rfl (by simp) (assigned text rest)
      · exact .refused_cons .mapKey (fun _ _ => by simp [mapKey, name, string]) starts

/-- A field blames a token of its key, the assignment after it, or a token of its value. -/
theorem field_predictive (foretells : Foretells item) (budget : Int) (eof : Token)
    (tokens : List Token) : Predictive .inner budget 0 (field item) eof tokens :=
  (mapKey_predictive budget eof tokens).andThen
    (fun _ rest _ => (foretells.predictive budget eof rest).map) fun _ _ => foretells.starts.map

/-- A value whose inside is read by the given reader, if there is one. -/
theorem valueWith_predictive {inner : Option (Reading Expr)}
    (deeper : ∀ item, inner = some item → Foretells item) (budget : Int) (eof : Token)
    (tokens : List Token) :
    Predictive .inner budget 0 (fun eof => valueWith eof (inner.map (· eof))) eof tokens := by
  have starts : 0 < budget → Completes .inner (fun eof => valueWith eof (inner.map (· eof))) [] :=
    fun _ => ⟨[sample .nullWord], .null, by simp [sample], fun _ _ _ => rfl⟩
  cases tokens with
  | nil => exact .refused_nil .value (fun _ => rfl) starts
  | cons token rest =>
    obtain ⟨kind, text, place⟩ := token
    cases kind
    case dollar =>
      refine .after_cons (fun eof' rest' => valueWith_dollar _ eof' text place rest') rfl (by simp) ?_
      exact (expect_predictive (by rfl) (by simp) (by simp) budget eof rest).andThen
        (fun _ after _ => (path_predictive budget eof after).map) fun _ _ => path_starts.map
    case number =>
      cases known : Number.ofText? text with
      | none =>
        exact .of_silent (by simp [valueWith, known]) (by simp [valueWith, known])
      | some value => exact .token (fun _ _ => by simp [valueWith, known]; rfl) rfl (by simp)
    case trueWord => exact .token (fun _ _ => rfl) rfl (by simp)
    case falseWord => exact .token (fun _ _ => rfl) rfl (by simp)
    case nullWord => exact .token (fun _ _ => rfl) rfl (by simp)
    case string => exact .token (fun _ _ => rfl) rfl (by simp)
    case name => exact .token (fun _ _ => rfl) rfl (by simp)
    case bare => exact .token (fun _ _ => rfl) rfl (by simp)
    case leftBracket =>
      cases inner with
      | none =>
        exact .of_silent (by simp [valueWith, opened, descend])
          (by simp [valueWith, opened, descend])
      | some item =>
        have foretells := deeper item rfl
        refine .after_cons
          (fun eof' rest' => valueWith_bracket foretells.shortens eof' text place rest')
          rfl (by simp) (Predictive.map ?_)
        exact items_past foretells.predictive foretells.shortens (by simp [skipped]) rfl (by simp)
          (by simp [continuing]) budget eof rest
    case leftParen =>
      cases inner with
      | none =>
        exact .of_silent (by simp [valueWith, opened, descend])
          (by simp [valueWith, opened, descend])
      | some item =>
        have foretells := deeper item rfl
        refine .after_cons (fun eof' rest' => valueWith_paren foretells.shortens eof' text place rest')
          rfl (by simp) (Predictive.map ?_)
        exact items_past (field_predictive foretells) (field_shortens foretells.shortens)
          (by simp [skipped]) rfl (by simp) (by simp [continuing]) budget eof rest
    all_goals exact .refused_cons .value (fun _ _ => rfl) starts

/-- By induction on the levels. Where none is left, a container is an error of depth, which blames
no token. -/
theorem value_foretells (levels : Nat) : Foretells (value · levels) := by
  have starts : ∀ levels, Starts .inner (value · levels) := by
    intro levels
    refine ⟨[sample .nullWord], .null, by simp [sample], fun rest _ => ⟨free_cons (by decide), ?_⟩⟩
    intro eof
    cases levels <;> rfl
  induction levels with
  | zero =>
    have deeper : ∀ item : Reading Expr, none = some item → Foretells item := by simp
    exact ⟨valueWith_predictive deeper, starts 0,
      Sound.shortening (value_sound · 0) (Derives.Value.shortens 0)⟩
  | succ levels ih =>
    have deeper : ∀ item, some (value · levels) = some item → Foretells item := by
      rintro _ ⟨⟩
      exact ih
    exact ⟨valueWith_predictive deeper, starts (levels + 1),
      Sound.shortening (value_sound · (levels + 1)) (Derives.Value.shortens (levels + 1))⟩

end Containers

/-! ### Comparisons and chains -/

def sign : Reading Comparison := fun eof tokens => do
  let (token, rest) ← expect eof .comparison .comparison tokens
  match Comparison.ofSymbol? token.text with
  | none => .error (.unexpectedToken token .comparison)
  | some op => return (op, rest)

def compared (operand : Reading Expr) : Reading Condition :=
  operand.andThen fun left => sign.andThen fun op => Reading.map (.compare op left) operand

theorem comparison_eq (operand : Reading Expr) (eof : Token) (tokens : List Token) :
    comparison eof (operand eof) tokens = compared operand eof tokens := by
  rw [comparison, compared, Reading.andThen]
  cases operand eof tokens with
  | error fault => rfl
  | ok left =>
    simp only [ok_bind, Reading.andThen, sign]
    cases expect eof .comparison .comparison left.2 with
    | error fault => rfl
    | ok read =>
      simp only [ok_bind]
      cases Comparison.ofSymbol? read.1.text <;> rfl

theorem sign_starts : Starts .inner sign :=
  ⟨[⟨.comparison, "==", .start⟩], .eq, by simp, fun _ _ => ⟨free_cons (by decide), fun _ => rfl⟩⟩

theorem sign_predictive (budget : Int) (eof : Token) (tokens : List Token) :
    Predictive .inner budget 0 sign eof tokens := by
  have starts : 0 < budget → Completes .inner sign [] := fun _ => sign_starts.completes
  cases tokens with
  | nil => exact .refused_nil .comparison (fun _ => rfl) starts
  | cons token rest =>
    obtain ⟨kind, text, place⟩ := token
    by_cases comparison : kind = .comparison
    · subst comparison
      cases known : Comparison.ofSymbol? text with
      | none =>
        exact .refused_cons .comparison (fun _ _ => by simp [sign, expect, known, unexpected, peek])
          starts
      | some op => exact .token (fun _ _ => by simp [sign, expect, known]; rfl) rfl (by simp)
    · exact .refused_cons .comparison
        (fun _ _ => by simp [sign, expect, comparison, unexpected, bind, Except.bind]) starts

/-- One reader after another foretells if the first does and what follows it may start where it
stops. -/
theorem Foretells.andThen {first : Reading α} {next : α → Reading β} (foretells : Foretells first)
    (later : ∀ meaning budget eof tokens, Predictive .inner budget 0 (next meaning) eof tokens)
    (starts : ∀ meaning, Starts .inner (next meaning)) : Foretells (first.andThen next) where
  predictive budget eof tokens :=
    (foretells.predictive budget eof tokens).andThen
      (fun meaning rest _ => later meaning budget eof rest)
      fun _ => starts
  starts := foretells.starts.andThen starts
  shortens := by
    intro eof tokens meaning rest read
    obtain ⟨⟨middle, after⟩, readFirst, readNext⟩ := bind_eq_ok.mp read
    have shortened := foretells.shortens readFirst
    obtain ⟨used, split, -⟩ := (later middle 0 eof after).taken readNext
    have := congrArg List.length split
    rw [List.length_append] at this
    omega

theorem compared_foretells {operand : Reading Expr} (foretells : Foretells operand) :
    Foretells (compared operand) :=
  foretells.andThen
    (fun _ budget eof tokens => (sign_predictive budget eof tokens).andThen
      (fun _ rest _ => (foretells.predictive budget eof rest).map) fun _ _ => foretells.starts.map)
    fun _ => sign_starts.andThen fun _ => foretells.starts.map

section Chains

variable {word : TokenKind} {join : Condition → Condition → Condition} {operand : Reading Condition}

theorem chain_fuel {operand : TokenReader Condition}
    (shorter : ∀ {tokens meaning rest}, operand tokens = .ok (meaning, rest) →
      rest.length < tokens.length) {fuel fuel' : Nat} {left : Condition} {tokens : List Token}
    (enough : tokens.length ≤ fuel) (enough' : tokens.length ≤ fuel') :
    chain word join operand fuel left tokens = chain word join operand fuel' left tokens := by
  induction fuel generalizing fuel' left tokens with
  | zero =>
    obtain rfl := List.length_eq_zero_iff.mp (Nat.le_zero.mp enough)
    cases fuel' <;> rfl
  | succ fuel ih =>
    cases tokens with
    | nil => cases fuel' <;> rfl
    | cons token rest =>
      simp only [List.length_cons] at enough enough'
      obtain ⟨fuel', rfl⟩ : ∃ n, fuel' = n + 1 := ⟨fuel' - 1, by omega⟩
      rw [chain, chain]
      split
      · cases read : operand rest with
        | error fault => rfl
        | ok right =>
          have shortened := shorter read
          have others : chain word join operand fuel (join left right.1) right.2 =
              chain word join operand fuel' (join left right.1) right.2 := ih (by omega) (by omega)
          simp only [ok_bind, others]
      · rfl

/-- More operands, in as many rounds as there can be. -/
def joined (word : TokenKind) (join : Condition → Condition → Condition)
    (operand : Reading Condition) (left : Condition) : Reading Condition := fun eof tokens =>
  chain word join (operand eof) tokens.length left tokens

theorem joined_word (shortens : Shortening operand) (left : Condition) (eof : Token) (text : String)
    (place : Position) (rest : List Token) :
    joined word join operand left eof (⟨word, text, place⟩ :: rest) =
      (operand.andThen fun right => joined word join operand (join left right)) eof rest := by
  rw [joined, List.length_cons, chain, if_pos rfl, Reading.andThen]
  cases read : operand eof rest with
  | error fault => rfl
  | ok right => exact chain_fuel (@shortens eof) (Nat.le_of_lt (shortens read)) (Nat.le_refl _)

/-- There need be no further operand, and then nothing is taken. -/
theorem joined_starts (among : word ∈ continuing) (left : Condition) :
    Starts .inner (joined word join operand left) :=
  ⟨[], left, nofun, fun _ free => ⟨free, fun _ => chain_stop (free word among) _ left⟩⟩

/-- By induction on the length of the tokens: a chain goes on with its word, or it has ended. -/
theorem joined_predictive (foretells : Foretells operand) (among : word ∈ continuing)
    (flat : braces (sample word) = 0) (inside : word ≠ .newline) (left : Condition) (budget : Int)
    (eof : Token) (tokens : List Token) :
    Predictive .inner budget 0 (joined word join operand left) eof tokens := by
  induction n : tokens.length using Nat.strongRecOn generalizing left tokens with
  | ind n ih =>
    by_cases goes : ahead tokens = some word
    · obtain ⟨text, place, rest, rfl⟩ := cons_of_ahead goes
      refine .after_cons (fun eof' rest' => joined_word foretells.shortens left eof' text place rest')
        (by simpa [braces, sample] using flat) inside ?_
      refine (foretells.predictive budget eof rest).andThen (fun right after readRight => ?_)
        fun _ right => joined_starts among (join left right)
      have shortened := foretells.shortens readRight
      exact ih after.length (by simp at n; omega) (join left right) after rfl
    · refine .stays fun eof' tokens' same => chain_stop ?_ _ left
      rcases same with same | free
      · exact same ▸ goes
      · exact free word among

/-- A first operand foretells, and the chain behind it is predictive. -/
theorem chained_foretells (foretells : Foretells operand) (among : word ∈ continuing)
    (flat : braces (sample word) = 0) (inside : word ≠ .newline) :
    Foretells fun eof => chained word join (operand eof) :=
  foretells.andThen (joined_predictive foretells among flat inside) (joined_starts among)

theorem disjunction_foretells (foretells : Foretells operand) :
    Foretells fun eof => disjunction (operand eof) :=
  chained_foretells (chained_foretells foretells (by simp [continuing]) rfl (by simp))
    (by simp [continuing]) rfl (by simp)

end Chains

/-! ### Operands -/

def grouped (operand : Reading Condition) : Reading Condition :=
  Reading.andThen (fun eof => disjunction (operand eof)) fun condition =>
    Reading.map (fun _ => condition) (expect · .rightParen .closeParen)

theorem grouped_predictive {operand : Reading Condition} (foretells : Foretells operand)
    (budget : Int) (eof : Token) (tokens : List Token) :
    Predictive .inner budget 0 (grouped operand) eof tokens :=
  ((disjunction_foretells foretells).predictive budget eof tokens).andThen
    (fun _ rest _ => (expect_predictive (by rfl) (by simp) (by simp) budget eof rest).map)
    fun _ _ => (expect_starts (by simp) (by simp [continuing])).map

/-- What is read as a group does not begin as a map. -/
theorem not_startsMap_of_grouped {levels : Nat} {eof : Token} {tokens rest : List Token}
    {condition : Condition} (read : grouped (operand · levels) eof tokens = .ok (condition, rest)) :
    startsMap tokens = false := by
  obtain ⟨⟨inside, after⟩, readInside, -⟩ := bind_eq_ok.mp read
  have derived := disjunction_sound (operand_sound eof levels) readInside
  exact Bool.eq_false_iff.mpr fun starts => derived.not_opensMap (startsMap_iff.mp starts)

/-- Two tokens tell whether a map begins. -/
theorem startsMap_take (tokens : List Token) : startsMap (tokens.take 2) = startsMap tokens := by
  match tokens with
  | [] => rfl
  | [_] => rfl
  | ⟨first, _, _⟩ :: ⟨second, _, _⟩ :: _ =>
    cases first <;> first | rfl | (cases second <;> rfl)

/-- One key behind the parenthesis is all of a group so far, so the sign after it is missing. -/
theorem grouped_exhausts {kind : TokenKind} (loose : kind = .name ∨ kind = .string) (levels : Nat)
    (text : String) (place : Position) :
    Exhausts (grouped (operand · levels)) [⟨kind, text, place⟩] := by
  intro eof
  refine ⟨.comparison, ?_⟩
  rcases loose with rfl | rfl <;> cases levels <;> rfl

/-- A refused token is not the key of a map, so whether a map begins is settled before it. -/
theorem startsMap_of_blamed {levels : Nat} {budget : Int} {eof eof' found : Token}
    {expected : Expectation} {front left left' : List Token}
    (blamed : Blamed .inner budget (grouped (operand · levels)) eof found expected front left)
    (notMap : startsMap (front ++ left) = false) (same : SameNext eof left eof' left') :
    startsMap (front ++ left') = false := by
  rw [← startsMap_take] at notMap ⊢
  match front with
  | [] =>
    cases left' with
    | nil => rfl
    | cons token rest' =>
      obtain ⟨rest, rfl⟩ := List.head?_eq_some_iff.mp same.head.symm
      obtain ⟨kind, text, place⟩ := token
      have notLoose : ¬ (kind = .name ∨ kind = .string) := by
        intro loose
        have start := (grouped_exhausts loose levels text place).prefix_blamed blamed
          (List.prefix_append [_] rest)
        simp at start
      rw [startsMap_take] at notMap ⊢
      cases kind <;> first | rfl | cases notMap | simp at notLoose
  | [token] =>
    have next : left'.take 1 = left.take 1 := by
      rw [List.take_one, List.take_one, same.head]
    simpa [next] using notMap
  | _ :: _ :: _ => exact notMap

/-- A parenthesis that does not begin a map groups a condition. -/
theorem operandWith_group {levels : Nat} {compared : Token → TokenReader Condition}
    (deeper : Foretells (operand · levels)) (budget : Int) (eof : Token)
    (text : String) (place : Position) {rest : List Token} (notMap : startsMap rest = false) :
    Predictive .inner budget 0
      (fun eof => operandWith eof (compared eof) (some (operand eof levels))) eof
      (⟨.leftParen, text, place⟩ :: rest) := by
  have groups : ∀ eof' tokens, startsMap tokens = false →
      operandWith eof' (compared eof') (some (operand eof' levels))
        (⟨.leftParen, text, place⟩ :: tokens) = grouped (operand · levels) eof' tokens := by
    intro eof' tokens notMap
    simp only [operandWith, notMap, Bool.false_eq_true, if_false, Option.map_some, descend]
    rfl
  have predictive := grouped_predictive deeper budget eof rest
  constructor
  · intro condition last read
    rw [groups eof rest notMap] at read
    obtain ⟨used, rfl, taken⟩ := predictive.taken read
    refine ⟨⟨.leftParen, text, place⟩ :: used, rfl, ?_, ?_, fun eof' rest' exchange => ?_⟩
    · rw [openBlocks_cons, taken.opened]
      rfl
    · have paren : ¬ EndsLine [(⟨.leftParen, text, place⟩ : Token)] := by simp [EndsLine]
      exact not_endsLine_append paren taken.whole
    · have readAgain := taken.steady eof' rest' exchange
      exact (groups eof' _ (not_startsMap_of_grouped readAgain)).trans readAgain
  · intro found expected refused
    rw [groups eof rest notMap] at refused
    obtain ⟨front, left, rfl, blamed⟩ := predictive.blamed refused
    refine ⟨⟨.leftParen, text, place⟩ :: front, left, rfl, blamed.next, ?_, fun eof' left' same => ?_,
      fun within => ?_⟩
    · simpa [braces] using blamed.opened
    · exact (groups eof' _ (startsMap_of_blamed blamed notMap same)).trans (blamed.firm eof' left' same)
    · obtain ⟨more, condition, unended, completed⟩ := blamed.completes (by simpa [braces] using within)
      refine ⟨more, condition, unended, fun eof' rest' ends => ?_⟩
      have readAgain := completed eof' rest' ends
      exact (groups eof' _ (not_startsMap_of_grouped readAgain)).trans readAgain

/-- A parenthesis that begins a map belongs to a comparison, and its first tokens have to be taken. -/
theorem operandWith_map {levels : Nat} {inner : Option (Reading Condition)} (budget : Int)
    (eof : Token) (text : String) (place : Position) {rest : List Token}
    (starts : startsMap rest = true) :
    Predictive .inner budget 0
      (fun eof => operandWith eof (comparison eof (value eof levels)) (inner.map (· eof))) eof
      (⟨.leftParen, text, place⟩ :: rest) := by
  have compares : ∀ eof' tokens, startsMap tokens = true →
      operandWith eof' (comparison eof' (value eof' levels)) (inner.map (· eof'))
        (⟨.leftParen, text, place⟩ :: tokens) =
      compared (value · levels) eof' (⟨.leftParen, text, place⟩ :: tokens) := by
    intro eof' tokens starts
    rw [← comparison_eq]
    simp only [operandWith, starts, if_true]
  cases levels with
  | zero =>
    have deep : operandWith eof (comparison eof (value eof 0)) (inner.map (· eof))
        (⟨.leftParen, text, place⟩ :: rest) = .error (.nestingTooDeep place) := by
      rw [compares eof rest starts]
      rfl
    exact .of_silent (by simp [deep]) (by simp [deep])
  | succ levels =>
    have predictive := (compared_foretells (value_foretells (levels + 1))).predictive budget eof
      (⟨.leftParen, text, place⟩ :: rest)
    -- The lookahead sees two or three tokens, and these have to be taken before any is blamed.
    cases startsMap_iff.mp starts with
    | @close t p others =>
      have exhausts : Exhausts (compared (value · (levels + 1)))
          [⟨.leftParen, text, place⟩, ⟨.rightParen, t, p⟩] :=
        fun _ => ⟨.comparison, rfl⟩
      exact .of_exhausts exhausts (fun eof' rest' => compares eof' _ rfl) predictive
    | @key _ key t p others derived =>
      cases derived with
      | @name _ q =>
        have exhausts : Exhausts (compared (value · (levels + 1)))
            [⟨.leftParen, text, place⟩, ⟨.name, key, q⟩, ⟨.assign, t, p⟩] :=
          fun _ => ⟨.value, by cases levels <;> rfl⟩
        exact .of_exhausts exhausts (fun eof' rest' => compares eof' _ rfl) predictive
      | @string _ q =>
        have exhausts : Exhausts (compared (value · (levels + 1)))
            [⟨.leftParen, text, place⟩, ⟨.string, key, q⟩, ⟨.assign, t, p⟩] :=
          fun _ => ⟨.value, by cases levels <;> rfl⟩
        exact .of_exhausts exhausts (fun eof' rest' => compares eof' _ rfl) predictive

/-- Neither a negation nor a parenthesis comes next, so it is a comparison. -/
theorem operandWith_compared {levels : Nat} {inner : Option (Reading Condition)} (budget : Int)
    (eof : Token) {tokens : List Token} (notNot : ahead tokens ≠ some .notWord)
    (notParen : ahead tokens ≠ some .leftParen) :
    Predictive .inner budget 0
      (fun eof => operandWith eof (comparison eof (value eof levels)) (inner.map (· eof))) eof
      tokens := by
  have compares : ∀ eof' tokens', ahead tokens' = ahead tokens →
      operandWith eof' (comparison eof' (value eof' levels)) (inner.map (· eof')) tokens' =
        compared (value · levels) eof' tokens' := by
    intro eof' tokens' same
    rw [← comparison_eq]
    unfold operandWith
    split
    · exact absurd same.symm notNot
    · exact absurd same.symm notParen
    · rfl
  have foretells := compared_foretells (value_foretells levels)
  refine .of_ahead compares (foretells.predictive budget eof tokens)
    (fun read => foretells.shortens read) fun _ => ?_
  refine ⟨[sample .nullWord, ⟨.comparison, "==", .start⟩, sample .nullWord],
    .compare .eq .null .null, by simp [sample], fun _ _ _ => ?_⟩
  cases levels <;> rfl

/-- An operand is negated, a group or a comparison. Its first token decides, and after a parenthesis
the lookahead for a map does. -/
theorem operandWith_predictive {levels : Nat} {inner : Option (Reading Condition)}
    (deeper : ∀ reader, inner = some reader → ∃ levels', reader = (operand · levels') ∧
      Foretells reader) (budget : Int) (eof : Token) (tokens : List Token) :
    Predictive .inner budget 0
      (fun eof => operandWith eof (comparison eof (value eof levels)) (inner.map (· eof))) eof
      tokens := by
  by_cases negated : ahead tokens = some .notWord
  · obtain ⟨text, place, rest, rfl⟩ := cons_of_ahead negated
    cases inner with
    | none =>
      have deep : operandWith eof (comparison eof (value eof levels)) none
          (⟨.notWord, text, place⟩ :: rest) = .error (.nestingTooDeep (peek eof rest).place) := rfl
      exact .of_silent (by simp [deep]) (by simp [deep])
    | some reader =>
      obtain ⟨-, -, foretells⟩ := deeper reader rfl
      exact .after_cons (fun _ _ => rfl) rfl (by simp) (foretells.predictive budget eof rest).map
  · by_cases paren : ahead tokens = some .leftParen
    · obtain ⟨text, place, rest, rfl⟩ := cons_of_ahead paren
      cases starts : startsMap rest with
      | true => exact operandWith_map budget eof text place starts
      | false =>
        cases inner with
        | none =>
          have deep : operandWith eof (comparison eof (value eof levels)) none
              (⟨.leftParen, text, place⟩ :: rest) =
              .error (.nestingTooDeep (peek eof rest).place) := by
            simp only [operandWith, starts, Bool.false_eq_true, if_false, Option.map_none]
            rfl
          exact .of_silent (by simp [deep]) (by simp [deep])
        | some reader =>
          obtain ⟨levels', rfl, foretells⟩ := deeper reader rfl
          exact operandWith_group foretells budget eof text place starts
    · exact operandWith_compared budget eof negated paren

/-- Each level of a group or a negation is predictive if the level below is. -/
theorem operand_foretells (levels : Nat) : Foretells (operand · levels) := by
  have starts : ∀ levels, Starts .inner (operand · levels) := by
    intro levels
    refine ⟨[sample .nullWord, ⟨.comparison, "==", .start⟩, sample .nullWord],
      .compare .eq .null .null, by simp [sample], fun rest _ => ⟨free_cons (by decide), ?_⟩⟩
    intro eof
    cases levels <;> rfl
  have shortens : ∀ levels, Shortening (operand · levels) := fun levels =>
    Sound.shortening (operand_sound · levels) (Derives.Operand.shortens levels)
  induction levels with
  | zero =>
    have deeper : ∀ reader : Reading Condition, none = some reader →
        ∃ levels', reader = (operand · levels') ∧ Foretells reader := by simp
    exact ⟨operandWith_predictive deeper, starts 0, shortens 0⟩
  | succ levels ih =>
    have deeper : ∀ reader, some (operand · levels) = some reader →
        ∃ levels', reader = (operand · levels') ∧ Foretells reader := by
      rintro _ ⟨⟩
      exact ⟨levels, rfl, ih⟩
    exact ⟨operandWith_predictive deeper, starts (levels + 1), shortens (levels + 1)⟩

theorem condition_foretells (levels : Nat) : Foretells (condition · levels) :=
  disjunction_foretells (operand_foretells levels)

end ToolPlan.Grammar
