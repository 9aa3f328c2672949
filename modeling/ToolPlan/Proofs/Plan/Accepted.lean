import ToolPlan.Proofs.Plan.Printer
import ToolPlan.Proofs.Run.Steps
import ToolPlan.Proofs.Grammar.Sound
import ToolPlan.Proofs.Token.Words
import ToolPlan.Proofs.Value.Equality

/-!
What every plan that is read looks like. Its variables and arguments are named by identifiers, its
tools, captures and bare texts are loose words, no arguments and no map have a key twice, and its
numbers are signed words or finite; this holds of every statement at any depth and of every value in
them (`Statement.Proper`, `Expr.Proper`). No path from the plan down passes more than `maxNesting`
blocks, arrays, maps and negations. As data the plan itself is marked as a script and every block in
it as a block.

The names come from the tokens, so a phrase is followed from tokens that are words as scanned
(`Derives.Yields`); the levels that a phrase has left bound how deep it nests. `parse_accepted` puts
the two together.
-/

namespace ToolPlan

open Word (Identifier Loose)

/-! ### Values -/

namespace Entries

variable {α : Type}

theorem mem_of_mem_insert {entries : Entries α} {name : String} {value : α} {entry : String × α}
    (among : entry ∈ insert entries name value) : entry ∈ entries ∨ entry = (name, value) := by
  induction entries with
  | nil => exact .inr (List.mem_singleton.mp among)
  | cons first rest ih =>
    obtain ⟨key, old⟩ := first
    rw [insert] at among
    split at among
    · next same =>
      rcases List.mem_cons.mp among with rfl | later
      · exact .inr (by rw [same])
      · exact .inl (List.mem_cons_of_mem _ later)
    · rcases List.mem_cons.mp among with rfl | later
      · exact .inl (List.mem_cons_self ..)
      · exact (ih later).imp_left (List.mem_cons_of_mem _)

/-- Inserting entries one after the other brings in no other entry, and no key twice. -/
theorem ofList_spec (fields : List (String × α)) :
    (∀ entry ∈ ofList fields, entry ∈ fields) ∧ (keys (ofList fields)).Nodup := by
  have inserted : ∀ (fields : List (String × α)) (entries : Entries α), (keys entries).Nodup →
      (∀ entry ∈ fields.foldl (fun entries pair => insert entries pair.1 pair.2) entries,
        entry ∈ entries ∨ entry ∈ fields) ∧
      (keys (fields.foldl (fun entries pair => insert entries pair.1 pair.2) entries)).Nodup := by
    intro fields
    induction fields with
    | nil => exact fun entries distinct => ⟨fun entry among => .inl among, distinct⟩
    | cons field fields ih =>
      intro entries distinct
      obtain ⟨within, unique⟩ := ih _ (nodup_keys_insert distinct field.1 field.2)
      refine ⟨?_, unique⟩
      intro entry among
      rcases within entry among with early | late
      · rcases mem_of_mem_insert early with earlier | rfl
        · exact .inl earlier
        · exact .inr (List.mem_cons_self ..)
      · exact .inr (List.mem_cons_of_mem _ late)
  obtain ⟨within, unique⟩ := inserted fields [] .nil
  exact ⟨fun entry among => (within entry among).resolve_left List.not_mem_nil, unique⟩

end Entries

namespace Expr

mutual

/-- A value and all values within it. -/
def parts : Expr → List Expr
  | .array items => .array items :: partsOfItems items
  | .map entries => .map entries :: partsOfEntries entries
  | .number value => [.number value]
  | .bool value => [.bool value]
  | .null => [.null]
  | .string text => [.string text]
  | .bare text => [.bare text]
  | .var name path => [.var name path]

def partsOfItems : List Expr → List Expr
  | [] => []
  | item :: items => item.parts ++ partsOfItems items

def partsOfEntries : List (String × Expr) → List Expr
  | [] => []
  | (_, value) :: entries => value.parts ++ partsOfEntries entries

end

theorem mem_partsOfItems {part : Expr} {items : List Expr} :
    part ∈ partsOfItems items ↔ ∃ item ∈ items, part ∈ item.parts := by
  induction items with
  | nil => simp [partsOfItems]
  | cons item items ih => simp [partsOfItems, ih]

theorem mem_partsOfEntries {part : Expr} {entries : List (String × Expr)} :
    part ∈ partsOfEntries entries ↔ ∃ entry ∈ entries, part ∈ entry.2.parts := by
  induction entries with
  | nil => simp [partsOfEntries]
  | cons entry entries ih => simp [partsOfEntries, ih]

theorem nestingOfItems_le {items : List Expr} {bound : Nat}
    (bounded : ∀ item ∈ items, item.nesting ≤ bound) : nestingOfItems items ≤ bound := by
  induction items with
  | nil => exact Nat.zero_le _
  | cons item items ih =>
    obtain ⟨first, others⟩ := List.forall_mem_cons.mp bounded
    rw [nestingOfItems]
    exact Nat.max_le.mpr ⟨first, ih others⟩

theorem nestingOfEntries_le {entries : List (String × Expr)} {bound : Nat}
    (bounded : ∀ entry ∈ entries, entry.2.nesting ≤ bound) : nestingOfEntries entries ≤ bound := by
  induction entries with
  | nil => exact Nat.zero_le _
  | cons entry entries ih =>
    obtain ⟨first, others⟩ := List.forall_mem_cons.mp bounded
    rw [nestingOfEntries]
    exact Nat.max_le.mpr ⟨first, ih others⟩

/-- What a value itself must be, whatever it holds. -/
def Proper : Expr → Prop
  | .number value => value.WellFormed
  | .bare text => Loose text
  | .map entries => (Entries.keys entries).Nodup
  | .var name path => Identifier name ∧ ∀ step ∈ path, StepWellFormed step
  | .bool _ => True
  | .null => True
  | .string _ => True
  | .array _ => True

/-- The value nests no deeper than the levels allow, and all that it holds is as it must be. -/
structure Fits (levels : Nat) (value : Expr) : Prop where
  nesting : value.nesting ≤ levels
  proper : ∀ part ∈ value.parts, part.Proper

namespace Fits

variable {levels : Nat}

/-- An array nests one level deeper than its items. -/
theorem array {items : List Expr} (fits : ∀ item ∈ items, item.Fits levels) :
    (Expr.array items).Fits (levels + 1) where
  nesting := by
    rw [Expr.nesting]
    exact Nat.succ_le_succ (nestingOfItems_le fun item among => (fits item among).nesting)
  proper := by
    rw [parts, List.forall_mem_cons]
    refine ⟨trivial, ?_⟩
    intro part among
    obtain ⟨item, within, inside⟩ := mem_partsOfItems.mp among
    exact (fits item within).proper part inside

/-- So does a map. Keys that come twice leave fewer entries, and these still fit. -/
theorem map {fields : List (String × Expr)} (fits : ∀ field ∈ fields, field.2.Fits levels) :
    (Expr.map (Entries.ofList fields)).Fits (levels + 1) := by
  obtain ⟨within, distinct⟩ := Entries.ofList_spec fields
  constructor
  · rw [Expr.nesting]
    exact Nat.succ_le_succ
      (nestingOfEntries_le fun entry among => (fits entry (within entry among)).nesting)
  · rw [parts, List.forall_mem_cons]
    refine ⟨distinct, ?_⟩
    intro part among
    obtain ⟨entry, standing, inside⟩ := mem_partsOfEntries.mp among
    exact (fits entry (within entry standing)).proper part inside

end Fits

end Expr

/-! ### Conditions and statements -/

namespace Condition

def values : Condition → List Expr
  | .not inner => inner.values
  | .and left right => left.values ++ right.values
  | .or left right => left.values ++ right.values
  | .compare _ left right => [left, right]

/-- The most negations, arrays and maps that one path from a condition down passes. -/
def depth : Condition → Nat
  | .not inner => inner.depth + 1
  | .and left right => max left.depth right.depth
  | .or left right => max left.depth right.depth
  | .compare _ left right => max left.nesting right.nesting

/-- The condition nests no deeper than the levels allow, and its values are as they must be. -/
structure Fits (levels : Nat) (condition : Condition) : Prop where
  depth : condition.depth ≤ levels
  proper : ∀ part ∈ condition.values.flatMap Expr.parts, part.Proper

/-- A join takes no level. -/
theorem Fits.join {levels : Nat} {join : Condition → Condition → Condition}
    (depth : ∀ left right, (join left right).depth = max left.depth right.depth)
    (values : ∀ left right, (join left right).values = left.values ++ right.values)
    {left right : Condition} (first : left.Fits levels) (other : right.Fits levels) :
    (join left right).Fits levels where
  depth := by
    rw [depth]
    exact Nat.max_le.mpr ⟨first.depth, other.depth⟩
  proper := by
    rw [values, List.flatMap_append, List.forall_mem_append]
    exact ⟨first.proper, other.proper⟩

end Condition

namespace Statement

/-- The values that a statement itself holds, and all values within them. -/
def values : Statement → List Expr
  | .assign _ value => value.parts
  | .call request => Expr.partsOfEntries request.args
  | .branch condition _ _ => condition.values.flatMap Expr.parts
  | .loop _ iterable _ => iterable.parts
  | .finish value => value.parts
  | .blank => []

mutual

/-- The most blocks, negations, arrays and maps that one path from a statement down passes. -/
def depth : Statement → Nat
  | .assign _ value => value.nesting
  | .call request => Expr.nestingOfEntries request.args
  | .branch condition yes no => max condition.depth (max (depthOf yes + 1) (depthOfOtherwise no))
  | .loop _ iterable body => max iterable.nesting (depthOf body + 1)
  | .finish value => value.nesting
  | .blank => 0

def depthOf : List Statement → Nat
  | [] => 0
  | statement :: rest => max statement.depth (depthOf rest)

def depthOfOtherwise : Option (List Statement) → Nat
  | none => 0
  | some statements => depthOf statements + 1

end

/-- What a statement itself must be, whatever it holds. -/
def Proper : Statement → Prop
  | .assign name _ => Identifier name
  | .call request => Loose request.name ∧ (∀ name ∈ request.capture, Loose name) ∧
      (∀ key ∈ Entries.keys request.args, Identifier key) ∧ (Entries.keys request.args).Nodup
  | .loop var _ _ => Identifier var
  | .branch _ _ _ => True
  | .finish _ => True
  | .blank => True

/-- The statement and its values are as they must be. -/
def ProperThroughout (statement : Statement) : Prop :=
  statement.Proper ∧ ∀ value ∈ statement.values, value.Proper

/-- The statement nests no deeper than the levels allow, and all that it holds is as it must be. -/
structure Fits (levels : Nat) (statement : Statement) : Prop where
  depth : statement.depth ≤ levels
  proper : ∀ part ∈ statement.parts, part.ProperThroughout

structure AllFit (levels : Nat) (statements : List Statement) : Prop where
  depth : depthOf statements ≤ levels
  proper : ∀ part ∈ partsOf statements, part.ProperThroughout

structure OtherwiseFits (levels : Nat) (no : Option (List Statement)) : Prop where
  depth : depthOfOtherwise no ≤ levels + 1
  proper : ∀ part ∈ partsOfBranch no, part.ProperThroughout

end Statement

/-! ### What phrases yield -/

namespace Derives

variable {α : Type} {levels : Nat}

/-- The tokens look as scanned tokens do. -/
def Scanned (tokens : List Token) : Prop :=
  ∀ token ∈ tokens, Lexeme.Lexical token.kind token.text

/-- From scanned tokens the phrase has a good meaning, and leaves scanned tokens. -/
def Yields (phrase : Phrase α) (good : α → Prop) : Prop :=
  ∀ ⦃tokens meaning rest⦄, phrase tokens meaning rest → Scanned tokens → good meaning ∧ Scanned rest

theorem Scanned.tail {token : Token} {tokens : List Token} (scanned : Scanned (token :: tokens)) :
    Scanned tokens :=
  (List.forall_mem_cons.mp scanned).2

/-- A name among scanned tokens is an identifier. -/
theorem Scanned.identifier {text : String} {place : Position} {tokens : List Token}
    (scanned : Scanned (⟨.name, text, place⟩ :: tokens)) : Identifier text :=
  (List.forall_mem_cons.mp scanned).1.identifier rfl

theorem Many.scanned {kind : TokenKind} {tokens rest : List Token} (many : Many kind tokens rest)
    (scanned : Scanned tokens) : Scanned rest := by
  induction many with
  | none => exact scanned
  | more _ ih => exact ih scanned.tail

theorem Comma.scanned {tokens rest : List Token} (comma : Comma tokens rest)
    (scanned : Scanned tokens) : Scanned rest := by
  cases comma with
  | absent => exact scanned
  | present => exact scanned.tail

theorem Close.scanned {tokens rest : List Token} (close : Close tokens rest)
    (scanned : Scanned tokens) : Scanned rest := by
  cases close with
  | newline => exact scanned.tail
  | brace => exact scanned
  | finished => exact scanned

/-- The integers of a path are signed words, and its keys are strings. -/
theorem Path.yields : Yields Path fun steps => ∀ step ∈ steps, Expr.StepWellFormed step := by
  intro tokens steps rest derived scanned
  induction derived with
  | done _ => exact ⟨nofun, scanned⟩
  | position word _ ih =>
    obtain ⟨others, left⟩ := ih scanned.tail.tail.tail
    exact ⟨List.forall_mem_cons.mpr ⟨(Option.filter_eq_some_iff.mp word).2, others⟩, left⟩
  | key _ ih =>
    obtain ⟨others, left⟩ := ih scanned.tail.tail.tail
    exact ⟨List.forall_mem_cons.mpr ⟨trivial, others⟩, left⟩

/-- The name of a tool or of a capture is a loose word. -/
theorem LooseName.yields : Yields LooseName Loose := by
  intro tokens name rest derived scanned
  cases derived with
  | name => exact ⟨(List.forall_mem_cons.mp scanned).1.loose (.inl rfl), scanned.tail⟩
  | bare => exact ⟨(List.forall_mem_cons.mp scanned).1.loose (.inr rfl), scanned.tail⟩

/-! #### Values -/

/-- A value without parts fits at any level. -/
theorem Scalar.yields (levels : Nat) : Yields Scalar (Expr.Fits levels) := by
  have leaf : ∀ {value : Expr}, value.nesting = 0 → value.parts = [value] → value.Proper →
      value.Fits levels := by
    intro value flat itself proper
    refine ⟨by rw [flat]; exact Nat.zero_le _, ?_⟩
    rw [itself, List.forall_mem_singleton]
    exact proper
  intro tokens value rest derived scanned
  cases derived with
  | var path =>
    obtain ⟨steps, left⟩ := Path.yields path scanned.tail.tail
    exact ⟨leaf rfl rfl ⟨scanned.tail.identifier, steps⟩, left⟩
  | number read =>
    exact ⟨leaf rfl rfl (Number.wellFormed_of_ofText? read), scanned.tail⟩
  | trueWord => exact ⟨leaf rfl rfl trivial, scanned.tail⟩
  | falseWord => exact ⟨leaf rfl rfl trivial, scanned.tail⟩
  | nullWord => exact ⟨leaf rfl rfl trivial, scanned.tail⟩
  | string => exact ⟨leaf rfl rfl trivial, scanned.tail⟩
  | name =>
    have loose := (List.forall_mem_cons.mp scanned).1.loose (.inl rfl)
    exact ⟨leaf rfl rfl loose, scanned.tail⟩
  | bare =>
    have loose := (List.forall_mem_cons.mp scanned).1.loose (.inr rfl)
    exact ⟨leaf rfl rfl loose, scanned.tail⟩

/-- The items of an array are all good if the values at that place are. -/
theorem Items.yields {item : Phrase Expr} {good : Expr → Prop} (yields : Yields item good) :
    Yields (Items item) fun items => ∀ value ∈ items, good value := by
  intro tokens items rest derived scanned
  induction derived with
  | close many => exact ⟨nofun, (many.scanned scanned).tail⟩
  | more before first after comma _ ih =>
    obtain ⟨fits, left⟩ := yields first (before.scanned scanned)
    obtain ⟨others, last⟩ := ih (comma.scanned (after.scanned left))
    exact ⟨List.forall_mem_cons.mpr ⟨fits, others⟩, last⟩

theorem Key.scanned {tokens rest : List Token} {key : String} (derived : Key tokens key rest)
    (scanned : Scanned tokens) : Scanned rest := by
  cases derived with
  | name => exact scanned.tail
  | string => exact scanned.tail

/-- The same holds for the values of a map; which of them stay is decided later. -/
theorem Fields.yields {item : Phrase Expr} {good : Expr → Prop} (yields : Yields item good) :
    Yields (Fields item) fun fields => ∀ field ∈ fields, good field.2 := by
  intro tokens fields rest derived scanned
  induction derived with
  | close many => exact ⟨nofun, (many.scanned scanned).tail⟩
  | more before key value after comma _ ih =>
    obtain ⟨fits, left⟩ := yields value (key.scanned (before.scanned scanned)).tail
    obtain ⟨others, last⟩ := ih (comma.scanned (after.scanned left))
    exact ⟨List.forall_mem_cons.mpr ⟨fits, others⟩, last⟩

/-- An array or a map takes one of the levels. -/
theorem Value.yields (levels : Nat) : Yields (Value levels) (Expr.Fits levels) := by
  induction levels with
  | zero => exact Scalar.yields 0
  | succ levels ih =>
    rintro tokens value rest (scalar | container) scanned
    · exact Scalar.yields (levels + 1) scalar scanned
    · cases container with
      | array items =>
        obtain ⟨fits, left⟩ := Items.yields ih items scanned.tail
        exact ⟨.array fits, left⟩
      | map fields =>
        obtain ⟨fits, left⟩ := Fields.yields ih fields scanned.tail
        exact ⟨.map fits, left⟩

/-! #### Conditions -/

theorem Compared.yields : Yields (Compared (Value levels)) (Condition.Fits levels) := by
  intro tokens condition rest derived scanned
  cases derived with
  | compare _ left _ right =>
    obtain ⟨first, after⟩ := Value.yields levels left scanned
    obtain ⟨second, last⟩ := Value.yields levels right after.tail
    refine ⟨⟨Nat.max_le.mpr ⟨first.nesting, second.nesting⟩, ?_⟩, last⟩
    intro part among
    rw [Condition.values, List.flatMap_cons, List.flatMap_singleton, List.mem_append] at among
    exact among.elim (first.proper part) (second.proper part)

/-- Joining goes no deeper, so operands that fit make conditions that fit. -/
theorem Joined.yields {word : TokenKind} {join : Condition → Condition → Condition}
    (joined : ∀ {left right : Condition}, left.Fits levels → right.Fits levels →
      (join left right).Fits levels)
    {operand : Phrase Condition} (yields : Yields operand (Condition.Fits levels)) :
    Yields (Joined word join operand) (Condition.Fits levels) := by
  intro tokens condition rest derived scanned
  induction derived with
  | single first => exact yields first scanned
  | more _ right ih =>
    obtain ⟨first, after⟩ := ih scanned
    obtain ⟨second, last⟩ := yields right after.tail
    exact ⟨joined first second, last⟩

theorem Disjunction.yields {operand : Phrase Condition}
    (yields : Yields operand (Condition.Fits levels)) :
    Yields (Disjunction operand) (Condition.Fits levels) :=
  Joined.yields (.join (fun _ _ => rfl) (fun _ _ => rfl))
    (Joined.yields (.join (fun _ _ => rfl) (fun _ _ => rfl)) yields)

/-- A negation takes one of the levels, and so do parentheses, which leave no trace. -/
theorem Operand.yields (levels : Nat) : Yields (Operand levels) (Condition.Fits levels) := by
  induction levels with
  | zero => exact Compared.yields
  | succ levels ih =>
    rintro tokens condition rest (compared | wrapped) scanned
    · exact Compared.yields compared scanned
    · cases wrapped with
      | not negated =>
        obtain ⟨fits, left⟩ := ih negated scanned.tail
        exact ⟨⟨Nat.succ_le_succ fits.depth, fits.proper⟩, left⟩
      | group grouped =>
        obtain ⟨fits, left⟩ := Disjunction.yields ih grouped scanned.tail
        exact ⟨⟨Nat.le_succ_of_le fits.depth, fits.proper⟩, left.tail⟩

/-! #### Statements -/

/-- The names of arguments are identifiers, and come once each after they are collected. -/
theorem Arguments.yields : Yields (Arguments (Value levels)) fun args =>
    ∀ arg ∈ args, Identifier arg.1 ∧ arg.2.Fits levels := by
  intro tokens args rest derived scanned
  induction derived with
  | none => exact ⟨nofun, scanned⟩
  | more value _ ih =>
    obtain ⟨fits, left⟩ := Value.yields levels value scanned.tail.tail
    obtain ⟨others, last⟩ := ih left
    exact ⟨List.forall_mem_cons.mpr ⟨⟨scanned.identifier, fits⟩, others⟩, last⟩

/-- A captured name is a loose word, whatever kind of token it was. -/
theorem Capture.yields : Yields Capture fun capture => ∀ name ∈ capture, Loose name := by
  intro tokens capture rest derived scanned
  cases derived with
  | none => exact ⟨nofun, scanned⟩
  | arrow name =>
    obtain ⟨loose, left⟩ := LooseName.yields name scanned.tail
    refine ⟨?_, left⟩
    rintro _ ⟨⟩
    exact loose

/-- A simple statement fits where its values do. Its names are those of scanned tokens. -/
theorem Simple.yields : Yields (Simple (Value levels)) (ToolPlan.Statement.Fits levels) := by
  intro tokens statement rest derived scanned
  cases derived with
  | blank =>
    refine ⟨⟨Nat.zero_le _, ?_⟩, scanned.tail⟩
    rw [ToolPlan.Statement.parts, List.forall_mem_singleton]
    exact ⟨trivial, nofun⟩
  | assign value close =>
    obtain ⟨fits, left⟩ := Value.yields levels value scanned.tail.tail.tail
    refine ⟨⟨fits.nesting, ?_⟩, close.scanned left⟩
    rw [ToolPlan.Statement.parts, List.forall_mem_singleton]
    exact ⟨scanned.tail.identifier, fits.proper⟩
  | call name args capture close =>
    obtain ⟨loose, afterName⟩ := LooseName.yields name scanned.tail
    obtain ⟨arguments, afterArgs⟩ := Arguments.yields args afterName
    obtain ⟨captured, left⟩ := Capture.yields capture afterArgs
    obtain ⟨within, distinct⟩ := Entries.ofList_spec _
    refine ⟨⟨?_, ?_⟩, close.scanned left⟩
    · exact Expr.nestingOfEntries_le fun entry among =>
        (arguments entry (within entry among)).2.nesting
    · rw [ToolPlan.Statement.parts, List.forall_mem_singleton]
      refine ⟨⟨loose, captured, ?_, distinct⟩, ?_⟩
      · intro key standing
        obtain ⟨entry, among, rfl⟩ := List.mem_map.mp standing
        exact (arguments entry (within entry among)).1
      · intro part among
        obtain ⟨entry, standing, inside⟩ := Expr.mem_partsOfEntries.mp among
        exact (arguments entry (within entry standing)).2.proper part inside
  | finish value close =>
    obtain ⟨fits, left⟩ := Value.yields levels value scanned.tail
    refine ⟨⟨fits.nesting, ?_⟩, close.scanned left⟩
    rw [ToolPlan.Statement.parts, List.forall_mem_singleton]
    exact ⟨trivial, fits.proper⟩

theorem Statements.yields {statement : Phrase ToolPlan.Statement}
    (yields : Yields statement (ToolPlan.Statement.Fits levels)) :
    Yields (Statements statement) (ToolPlan.Statement.AllFit levels) := by
  intro tokens statements rest derived scanned
  induction derived with
  | none => exact ⟨⟨Nat.zero_le _, nofun⟩, scanned⟩
  | more first _ ih =>
    obtain ⟨fits, left⟩ := yields first scanned
    obtain ⟨others, last⟩ := ih left
    refine ⟨⟨Nat.max_le.mpr ⟨fits.depth, others.depth⟩, ?_⟩, last⟩
    rw [ToolPlan.Statement.partsOf, List.forall_mem_append]
    exact ⟨fits.proper, others.proper⟩

/-- A block is a list of statements one level further in. -/
theorem Block.yields {statement : Phrase ToolPlan.Statement}
    (yields : Yields statement (ToolPlan.Statement.Fits levels)) :
    Yields (Block statement) (ToolPlan.Statement.AllFit levels) := by
  rintro tokens statements rest ⟨colons, newlines, inside⟩ scanned
  obtain ⟨fits, left⟩ :=
    Statements.yields yields inside (newlines.scanned (colons.scanned scanned)).tail
  exact ⟨fits, left.tail⟩

theorem Otherwise.yields {statement : Phrase ToolPlan.Statement}
    (yields : Yields statement (ToolPlan.Statement.Fits levels)) :
    Yields (Otherwise statement) (ToolPlan.Statement.OtherwiseFits levels) := by
  intro tokens no rest derived scanned
  cases derived with
  | none => exact ⟨⟨Nat.zero_le _, nofun⟩, scanned⟩
  | block newlines inside =>
    obtain ⟨fits, left⟩ := Block.yields yields inside (newlines.scanned scanned).tail
    exact ⟨⟨Nat.succ_le_succ fits.depth, fits.proper⟩, left⟩

/-- A compound statement is one level deeper than its blocks. -/
theorem Compound.yields {inner : Phrase ToolPlan.Statement}
    (yields : Yields inner (ToolPlan.Statement.Fits levels)) :
    Yields (Compound (levels + 1) inner) (ToolPlan.Statement.Fits (levels + 1)) := by
  intro tokens statement rest derived scanned
  cases derived with
  | branch test yes no close =>
    obtain ⟨condition, afterTest⟩ :=
      Disjunction.yields (Operand.yields (levels + 1)) test scanned.tail
    obtain ⟨first, afterYes⟩ := Block.yields yields yes afterTest
    obtain ⟨other, left⟩ := Otherwise.yields yields no afterYes
    refine ⟨⟨?_, ?_⟩, close.scanned left⟩
    · rw [ToolPlan.Statement.depth]
      exact Nat.max_le.mpr
        ⟨condition.depth, Nat.max_le.mpr ⟨Nat.succ_le_succ first.depth, other.depth⟩⟩
    · rw [ToolPlan.Statement.parts, List.forall_mem_cons, List.forall_mem_append]
      exact ⟨⟨trivial, condition.proper⟩, first.proper, other.proper⟩
  | loop iterable body close =>
    obtain ⟨values, afterValue⟩ := Value.yields (levels + 1) iterable scanned.tail.tail.tail
    obtain ⟨inside, left⟩ := Block.yields yields body afterValue
    refine ⟨⟨?_, ?_⟩, close.scanned left⟩
    · rw [ToolPlan.Statement.depth]
      exact Nat.max_le.mpr ⟨values.nesting, Nat.succ_le_succ inside.depth⟩
    · rw [ToolPlan.Statement.parts, List.forall_mem_cons]
      exact ⟨⟨scanned.tail.identifier, values.proper⟩, inside.proper⟩

/-- A block takes one of the levels. -/
theorem Statement.yields (levels : Nat) :
    Yields (Statement levels) (ToolPlan.Statement.Fits levels) := by
  induction levels with
  | zero => exact Simple.yields
  | succ levels ih =>
    rintro tokens statement rest (simple | compound) scanned
    · exact Simple.yields simple scanned
    · exact Compound.yields ih compound scanned

end Derives

/-! ### Plans as data -/

namespace Value

/-- The kind that a node of a plan is marked with. -/
def kind? (value : Value) : Option String :=
  match value.field? "kind" with
  | some (.string kind) => some kind
  | _ => none

/-- Whether a value is a node: it holds a list of statements. -/
def isNode (value : Value) : Bool :=
  match value.field? "statements" with
  | some (.array _) => true
  | _ => false

/-- All nodes in the value, and only these, are marked, and they are marked as blocks. -/
def Blocks (value : Value) : Prop :=
  ∀ part ∈ value.parts, part.kind? = if part.isNode then some "block" else none

/-- An array is no node, so only its items can hold one. -/
theorem blocks_array {items : List Value} (inside : ∀ item ∈ items, item.Blocks) :
    (array items).Blocks := by
  rw [Blocks, parts, List.forall_mem_cons]
  refine ⟨rfl, ?_⟩
  intro part among
  obtain ⟨item, within, further⟩ := mem_partsOfItems.mp among
  exact inside item within part further

/-- A map that is a node has to be marked as a block. -/
theorem blocks_map {entries : List (String × Value)}
    (itself : (map entries).kind? = if (map entries).isNode then some "block" else none)
    (inside : ∀ entry ∈ entries, entry.2.Blocks) : (map entries).Blocks := by
  rw [Blocks, parts, List.forall_mem_cons]
  refine ⟨itself, ?_⟩
  intro part among
  obtain ⟨entry, within, further⟩ := mem_partsOfEntries.mp among
  exact inside entry within part further

@[simp] theorem blocks_string (text : String) : (string text).Blocks := by
  rw [Blocks, parts, List.forall_mem_singleton]
  rfl

@[simp] theorem blocks_number (value : Number) : (number value).Blocks := by
  rw [Blocks, parts, List.forall_mem_singleton]
  rfl

@[simp] theorem blocks_bool (value : Bool) : (bool value).Blocks := by
  rw [Blocks, parts, List.forall_mem_singleton]
  rfl

@[simp] theorem blocks_null : null.Blocks := by
  rw [Blocks, parts, List.forall_mem_singleton]
  rfl

@[simp] theorem blocks_ofText? (text : Option String) : (ofText? text).Blocks := by
  cases text with
  | none => exact blocks_null
  | some text => exact blocks_string text

end Value

namespace Expr

open Value (blocks_map blocks_array)

/-- Every value becomes a map. -/
theorem toValue_eq_map (value : Expr) : ∃ fields, value.toValue = .map fields := by
  cases value <;> exact ⟨_, by rw [toValue]⟩

/-- Writing the values of entries as data keeps them under their keys. -/
theorem get?_entriesToValue (entries : List (String × Expr)) (key : String) :
    Entries.get? (entriesToValue entries) key = (Entries.get? entries key).map toValue := by
  induction entries with
  | nil => rw [entriesToValue, Entries.get?, Entries.get?, Option.map_none]
  | cons entry entries ih =>
    obtain ⟨name, value⟩ := entry
    rw [entriesToValue, Entries.get?, Entries.get?, ih]
    split <;> rfl

/-- Entries are no node, whatever their keys are: their values are maps. -/
theorem unmarked_entries (entries : List (String × Expr)) :
    (Value.map (entriesToValue entries)).kind? =
      if (Value.map (entriesToValue entries)).isNode then some "block" else none := by
  have held : ∀ key, (Value.map (entriesToValue entries)).field? key = none ∨
      ∃ fields, (Value.map (entriesToValue entries)).field? key = some (.map fields) := by
    intro key
    rw [Value.field?, Value.fields, get?_entriesToValue]
    cases Entries.get? entries key with
    | none => exact .inl rfl
    | some value =>
      obtain ⟨fields, same⟩ := value.toValue_eq_map
      exact .inr ⟨fields, by rw [Option.map_some, same]⟩
  have notMarked : (Value.map (entriesToValue entries)).kind? = none := by
    rcases held "kind" with absent | ⟨fields, found⟩
    · rw [Value.kind?, absent]
    · rw [Value.kind?, found]
  have notNode : (Value.map (entriesToValue entries)).isNode = false := by
    rcases held "statements" with absent | ⟨fields, found⟩
    · rw [Value.isNode, absent]
    · rw [Value.isNode, found]
  rw [notMarked, notNode]
  rfl

mutual

/-- No value of a plan is a node, so no block is marked within one. -/
theorem blocks_toValue : ∀ (value : Expr), value.toValue.Blocks
  | .number value => by
    rw [toValue]
    exact blocks_map rfl (by simp)
  | .bool value => by
    rw [toValue]
    exact blocks_map rfl (by simp)
  | .null => by
    rw [toValue]
    exact blocks_map rfl (by simp)
  | .string text => by
    rw [toValue]
    exact blocks_map rfl (by simp)
  | .bare text => by
    rw [toValue]
    exact blocks_map rfl (by simp)
  | .array items => by
    have inside := blocks_array (blocks_itemsToValue items)
    rw [toValue]
    exact blocks_map rfl (by simpa using inside)
  | .map entries => by
    have inside := blocks_map (unmarked_entries entries) (blocks_entriesToValue entries)
    rw [toValue]
    exact blocks_map rfl (by simpa using inside)
  | .var name path => by
    have steps : ∀ item ∈ path.map IndexStep.toValue, item.Blocks := by
      rw [List.forall_mem_map]
      intro step _
      cases step with
      | position index => exact Value.blocks_number _
      | key name => exact Value.blocks_string name
    have inside := blocks_array steps
    have reference : (Value.map [("name", .string name),
        ("path", .array (path.map IndexStep.toValue))]).Blocks :=
      blocks_map rfl (by simpa using inside)
    rw [toValue]
    exact blocks_map rfl (by simpa using reference)

theorem blocks_itemsToValue : ∀ (items : List Expr), ∀ item ∈ itemsToValue items, item.Blocks
  | [] => by
    rw [itemsToValue]
    exact List.forall_mem_nil _
  | item :: items => by
    rw [itemsToValue, List.forall_mem_cons]
    exact ⟨blocks_toValue item, blocks_itemsToValue items⟩

theorem blocks_entriesToValue : ∀ (entries : List (String × Expr)),
    ∀ entry ∈ entriesToValue entries, entry.2.Blocks
  | [] => by
    rw [entriesToValue]
    exact List.forall_mem_nil _
  | (key, value) :: entries => by
    rw [entriesToValue, List.forall_mem_cons]
    exact ⟨blocks_toValue value, blocks_entriesToValue entries⟩

end

end Expr

theorem Condition.blocks_toValue (condition : Condition) : condition.toValue.Blocks := by
  induction condition with
  | not inner ih => exact Value.blocks_map rfl (by simpa using ih)
  | and left right first second => exact Value.blocks_map rfl (by simpa using ⟨first, second⟩)
  | or left right first second => exact Value.blocks_map rfl (by simpa using ⟨first, second⟩)
  | compare op left right =>
    exact Value.blocks_map rfl (by simpa using ⟨left.blocks_toValue, right.blocks_toValue⟩)

namespace Statement

open Value (blocks_map blocks_array)

/-- A list of statements that is marked as a block is a node with a mark. -/
theorem blocks_node {statements : List Value} (inside : ∀ item ∈ statements, item.Blocks) :
    (Plan.node "block" statements).Blocks :=
  blocks_map rfl (by simpa using blocks_array inside)

mutual

/-- Statements hold nodes as their branches and bodies, and each of these is marked. -/
theorem blocks_toValue : ∀ (statement : Statement), statement.toValue.Blocks
  | .assign name value => by
    rw [toValue]
    exact blocks_map rfl (by simpa using value.blocks_toValue)
  | .call request => by
    have args := blocks_map (Expr.unmarked_entries request.args)
      (Expr.blocks_entriesToValue request.args)
    have place : request.place.toValue.Blocks := blocks_map rfl (by simp [Value.int])
    rw [toValue]
    exact blocks_map rfl (by simpa [Call.fields] using ⟨args, place⟩)
  | .branch condition yes no => by
    have inside := blocks_node (blocks_listToValue yes)
    rw [toValue]
    exact blocks_map rfl
      (by simpa using ⟨condition.blocks_toValue, inside, blocks_branchToValue no⟩)
  | .loop var iterable body => by
    have inside := blocks_node (blocks_listToValue body)
    rw [toValue]
    exact blocks_map rfl (by simpa using ⟨iterable.blocks_toValue, inside⟩)
  | .finish value => by
    rw [toValue]
    exact blocks_map rfl (by simpa using value.blocks_toValue)
  | .blank => by
    rw [toValue]
    exact blocks_map rfl (by simp)

theorem blocks_listToValue : ∀ (statements : List Statement),
    ∀ item ∈ listToValue statements, item.Blocks
  | [] => by
    rw [listToValue]
    exact List.forall_mem_nil _
  | statement :: rest => by
    rw [listToValue, List.forall_mem_cons]
    exact ⟨blocks_toValue statement, blocks_listToValue rest⟩

theorem blocks_branchToValue : ∀ (no : Option (List Statement)), (branchToValue no).Blocks
  | none => by
    rw [branchToValue]
    exact Value.blocks_null
  | some statements => by
    rw [branchToValue]
    exact blocks_node (blocks_listToValue statements)

end

end Statement

namespace Plan

/-- The marks of a plan as data: the whole is a script, and every node inside it is a block. -/
theorem toValue_marks (plan : Plan) : ∃ inside, plan.toValue.parts = plan.toValue :: inside ∧
    plan.toValue.kind? = some "script" ∧
    ∀ part ∈ inside, part.kind? = if part.isNode then some "block" else none := by
  refine ⟨_, by rw [toValue, node, Value.parts], rfl, ?_⟩
  intro part among
  obtain ⟨entry, within, further⟩ := Value.mem_partsOfEntries.mp among
  have inside : ∀ entry ∈ [("kind", Value.string "script"),
      ("statements", .array (Statement.listToValue plan))], entry.2.Blocks := by
    simpa using Value.blocks_array (Statement.blocks_listToValue plan)
  exact inside entry within part further

/-- Every plan that is read is as it must be. Each of its statements, at any depth, is named as it
must be, and so is every value in it, at any depth: names of variables and arguments are identifiers,
names of tools, captures and bare texts are loose words, no arguments and no map have a key twice, and
every number is a signed word or finite. No path down the plan passes more than `maxNesting` blocks,
negations, arrays and maps. As data, the plan is a script and everything with statements inside it is
a block. -/
theorem parse_accepted {text : String} {plan : Plan} (read : parse text = .ok plan) :
    (∀ statement ∈ plan.parts, statement.Proper ∧ ∀ value ∈ statement.values, value.Proper) ∧
      Statement.depthOf plan ≤ maxNesting ∧
      ∃ inside, plan.toValue.parts = plan.toValue :: inside ∧
        plan.toValue.kind? = some "script" ∧
        ∀ part ∈ inside, part.kind? = if part.isNode then some "block" else none := by
  rw [parse, parseChars] at read
  split at read
  · cases read
  · next tokens scanned =>
    have words : Derives.Scanned (body tokens) := fun token among =>
      Token.lexical_of_scan scanned token ((List.takeWhile_prefix _).subset among)
    obtain ⟨fits, -⟩ :=
      Derives.Statements.yields (Derives.Statement.yields maxNesting) (script_of_ofTokens read) words
    exact ⟨fits.proper, fits.depth, toValue_marks plan⟩

/-- A call in a loop in a branch, with a repeated key, a bare word that begins as a number, and an
array in a map. -/
def nestedCall : String :=
  "\n".intercalate
    ["IF NOT $set == [] ".push '{',
     "FOR _i IN $set ".push '{',
     "CALL load.v2 key=(a=$_i a=[3rd]) -> last-one",
     '}'.toString,
     '}'.toString]

/-- A call two blocks deep has a loose name, one value for a key that was written twice, and a
captured name that is no identifier. -/
theorem parse_accepted_nestedCall : ∃ (plan : Plan) (call : Call), parse nestedCall = .ok plan ∧
    plan.calls = [call] ∧ Loose call.name ∧ (Entries.keys call.args).Nodup ∧
    call.name = "load.v2" ∧ call.capture = some "last-one" ∧ Statement.depthOf plan = 4 ∧
    Statement.depthOf plan ≤ maxNesting ∧ plan.toValue.kind? = some "script" := by
  have measured : (parse nestedCall).toOption.map (fun plan =>
      ((calls plan).map (fun call => (call.name, call.capture)), Statement.depthOf plan)) =
        some ([("load.v2", some "last-one")], 4) := by decide +kernel
  cases read : parse nestedCall with
  | error fault =>
    rw [read] at measured
    cases measured
  | ok plan =>
    rw [read] at measured
    obtain ⟨called, deep⟩ := Prod.mk.inj (Option.some.inj measured)
    obtain ⟨call, only, named⟩ := List.map_eq_singleton_iff.mp called
    obtain ⟨name, capture⟩ := Prod.mk.inj named
    obtain ⟨proper, bounded, _, -, script, -⟩ := parse_accepted read
    have among : .call call ∈ plan.parts := by
      have listed : call ∈ plan.calls := by
        rw [only]
        exact List.mem_singleton_self call
      exact Statement.mem_callsOf.mp listed
    obtain ⟨⟨loose, -, -, distinct⟩, -⟩ := proper _ among
    exact ⟨plan, call, rfl, only, loose, distinct, name, capture, deep, bounded, script⟩

end Plan

end ToolPlan
