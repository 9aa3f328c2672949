import ToolPlan.Plan.Grammar
import ToolPlan.Proofs.Grammar.Rules

/-!
Arrays and maps are listings: entries up to a closing token, with line ends anywhere between them and
an optional comma after each. An entry of an array is a value, an entry of a map is a key with a value.
The rules and the readers of arrays and of maps are brought to the same form here, once as a phrase
(`Listed`) and once as a loop (`listing`), so that whatever holds of the loop is proved once.
-/

namespace ToolPlan

/-! ### Phrases -/

namespace Derives

variable {α : Type}

/-- Entries and a closing token. -/
inductive Listed (close : TokenKind) (entry : Phrase α) : Phrase (List α) where
  | close {tokens t p rest} :
      Many .newline tokens (⟨close, t, p⟩ :: rest) → Listed close entry tokens [] rest
  | more {tokens inside after spaced next first others rest} :
      Many .newline tokens inside → entry inside first after →
      Many .newline after spaced → Comma spaced next → Listed close entry next others rest →
      Listed close entry tokens (first :: others) rest

/-- A key, its equals sign and a value. -/
inductive Field (item : Phrase Expr) : Phrase (String × Expr) where
  | assign {tokens key t p assigned value rest} :
      Key tokens key (⟨.assign, t, p⟩ :: assigned) → item assigned value rest →
      Field item tokens (key, value) rest

theorem cons_of_ahead {kind : TokenKind} {tokens : List Token} (next : ahead tokens = some kind) :
    ∃ text place rest, tokens = ⟨kind, text, place⟩ :: rest := by
  cases tokens with
  | nil => cases next
  | cons token rest =>
    obtain rfl := Option.some.inj next
    exact ⟨token.text, token.place, rest, rfl⟩

variable {item : Phrase Expr} {tokens rest : List Token}

/-- The items of an array are a listing up to its bracket. -/
theorem items_iff {items : List Expr} :
    Items item tokens items rest ↔ Listed .rightBracket item tokens items rest := by
  constructor
  · intro derived
    induction derived with
    | close many => exact .close many
    | more before first between comma _ ih => exact .more before first between comma ih
  · intro listed
    induction listed with
    | close many => exact .close many
    | more before first between comma _ ih => exact .more before first between comma ih

/-- The entries of a map are a listing of fields up to its parenthesis. -/
theorem fields_iff {fields : List (String × Expr)} :
    Fields item tokens fields rest ↔ Listed .rightParen (Field item) tokens fields rest := by
  constructor
  · intro derived
    induction derived with
    | close many => exact .close many
    | more before key value between comma _ ih =>
      exact .more before (.assign key value) between comma ih
  · intro listed
    induction listed with
    | close many => exact .close many
    | more before field between comma _ ih =>
      obtain ⟨key, value⟩ := field
      exact .more before key value between comma ih

end Derives

/-! ### Readers -/

namespace Grammar

open Derives (ahead cons_of_ahead)

variable {α : Type}

/-- Entries up to a closing token, as those of arrays and of maps are read. -/
def listing (eof : Token) (close : TokenKind) (expected : Expectation) (entry : TokenReader α) :
    Nat → TokenReader (List α)
  | 0, tokens => unexpected eof expected tokens
  | fuel + 1, tokens =>
    if ahead (skip .newline tokens) = some close then .ok ([], (skip .newline tokens).tail)
    else do
      let (first, after) ← entry (skip .newline tokens)
      let (others, rest) ← listing eof close expected entry fuel (skipComma (skip .newline after))
      return (first :: others, rest)

def mapField (eof : Token) (item : TokenReader Expr) : TokenReader (String × Expr) := fun tokens => do
  let (key, afterKey) ← mapKey eof tokens
  let (value, rest) ← item afterKey
  return ((key, value), rest)

theorem ahead_ne_of_not_cons {kind : TokenKind} {tokens : List Token}
    (other : ∀ text place rest, tokens = ⟨kind, text, place⟩ :: rest → False) :
    ahead tokens ≠ some kind := by
  intro next
  obtain ⟨text, place, rest, same⟩ := cons_of_ahead next
  exact other text place rest same

/-- The loop that reads the items of an array is that of a listing. -/
theorem arrayItems_eq (eof : Token) (item : TokenReader Expr) (fuel : Nat) :
    arrayItems eof item fuel = listing eof .rightBracket .value item fuel := by
  induction fuel with
  | zero => rfl
  | succ fuel ih =>
    funext tokens
    rw [arrayItems, listing]
    split
    · next found => simp [found]
    · next other => simp only [if_neg (ahead_ne_of_not_cons other), ih]

/-- The loop that reads the entries of a map is that of a listing of fields. -/
theorem mapEntries_eq (eof : Token) (item : TokenReader Expr) (fuel : Nat) :
    mapEntries eof item fuel = listing eof .rightParen .mapKey (mapField eof item) fuel := by
  induction fuel with
  | zero => rfl
  | succ fuel ih =>
    funext tokens
    rw [mapEntries, listing]
    split
    · next found => simp [found]
    · next other =>
      simp only [if_neg (ahead_ne_of_not_cons other), ih, mapField, bind_assoc, pure_bind]

end Grammar

end ToolPlan
