import ToolPlan.Plan
import ToolPlan.Proofs.Token.Standalone

/-!
Plans as text. Every statement is written on its own, with a line end after it; a block stands in
braces, items and entries have a comma after each, keys of maps are strings. Conditions get
parentheses only where they would be read apart otherwise: `AND` binds closer than `OR`, and both
join to the left.

A plan is well formed when its names can be written at all. Every word of such a plan stands alone
(`Statement.alone_wordsOf`), so its text is scanned to the words it was written with.
-/

namespace ToolPlan

open Word (fixed Alone)

/-! ### Values -/

namespace Expr

/-- A word that may be a name or a bare word. -/
def looseWord (text : String) : Word :=
  ((Word.looseKind? text).getD .bare, text)

/-- A step into a value, in brackets. -/
def stepWords : IndexStep → List Word
  | .position index =>
    [fixed .leftBracket, (.number, Number.renderInt index), fixed .rightBracket]
  | .key name => [fixed .leftBracket, (.string, name), fixed .rightBracket]

mutual

def words : Expr → List Word
  | .number value => [(.number, value.literal)]
  | .bool true => [fixed .trueWord]
  | .bool false => [fixed .falseWord]
  | .null => [fixed .nullWord]
  | .string text => [(.string, text)]
  | .bare text => [looseWord text]
  | .array items => fixed .leftBracket :: (wordsOfItems items ++ [fixed .rightBracket])
  | .map entries => fixed .leftParen :: (wordsOfEntries entries ++ [fixed .rightParen])
  | .var name path => fixed .dollar :: (.name, name) :: path.flatMap stepWords

/-- The words of items, with a comma after each. -/
def wordsOfItems : List Expr → List Word
  | [] => []
  | item :: items => item.words ++ fixed .comma :: wordsOfItems items

/-- The words of entries, with a comma after each. -/
def wordsOfEntries : List (String × Expr) → List Word
  | [] => []
  | (key, value) :: entries =>
    (.string, key) :: fixed .assign :: (value.words ++ fixed .comma :: wordsOfEntries entries)

end

mutual

/-- How many arrays and maps lie within each other. -/
def nesting : Expr → Nat
  | .array items => nestingOfItems items + 1
  | .map entries => nestingOfEntries entries + 1
  | .number _ => 0
  | .bool _ => 0
  | .null => 0
  | .string _ => 0
  | .bare _ => 0
  | .var _ _ => 0

def nestingOfItems : List Expr → Nat
  | [] => 0
  | item :: items => max item.nesting (nestingOfItems items)

def nestingOfEntries : List (String × Expr) → Nat
  | [] => 0
  | (_, value) :: entries => max value.nesting (nestingOfEntries entries)

end

/-- Positions are signed words; keys are any texts. -/
def StepWellFormed : IndexStep → Prop
  | .position index => Number.isWord index = true
  | .key _ => True

mutual

/-- A value that can be written: numbers are those of some text, bare texts are scanned to one word,
variables are identifiers, and no map has a key twice. -/
def WellFormed : Expr → Prop
  | .number value => ∃ text, Number.ofText? text = some value
  | .bool _ => True
  | .null => True
  | .string _ => True
  | .bare text => (Word.looseKind? text).isSome = true
  | .array items => WellFormedItems items
  | .map entries => (Entries.keys entries).Nodup ∧ WellFormedEntries entries
  | .var name path => Word.isIdentifier name = true ∧ ∀ step ∈ path, StepWellFormed step

def WellFormedItems : List Expr → Prop
  | [] => True
  | item :: items => item.WellFormed ∧ WellFormedItems items

def WellFormedEntries : List (String × Expr) → Prop
  | [] => True
  | (_, value) :: entries => value.WellFormed ∧ WellFormedEntries entries

end

/-- A word that is a name or a bare word is scanned to itself. -/
theorem standalone_looseWord {text : String} (loose : (Word.looseKind? text).isSome = true) :
    (looseWord text).Standalone := by
  obtain ⟨kind, found⟩ := Option.isSome_iff_exists.mp loose
  rw [looseWord, found]
  exact (Word.standalone_loose found).2

/-- A position is written as a number and a key as a string, so each of them stands alone. -/
theorem alone_stepWords (step : IndexStep) : Alone (stepWords step) := by
  cases step with
  | position index =>
    have position := Word.standalone_number (Number.numeral_renderInt index)
    exact .fixed _ (by decide) (.cons position (.fixed _ (by decide) .nil))
  | key name =>
    exact .fixed _ (by decide) (.cons (Word.standalone_string name) (.fixed _ (by decide) .nil))

theorem alone_pathWords (path : List IndexStep) : Alone (path.flatMap stepWords) :=
  List.forall_mem_flatMap.mpr fun step _ => alone_stepWords step

mutual

/-- The words of a value that can be written stand alone. -/
theorem alone_words : ∀ (value : Expr), value.WellFormed → Alone value.words
  | .number value, _ => by
    rw [words]
    exact .cons (Word.standalone_number value.numeral_literal) .nil
  | .bool true, _ => by
    rw [words]
    exact .fixed _ (by decide) .nil
  | .bool false, _ => by
    rw [words]
    exact .fixed _ (by decide) .nil
  | .null, _ => by
    rw [words]
    exact .fixed _ (by decide) .nil
  | .string text, _ => by
    rw [words]
    exact .cons (Word.standalone_string text) .nil
  | .bare text, wellFormed => by
    rw [WellFormed] at wellFormed
    rw [words]
    exact .cons (standalone_looseWord wellFormed) .nil
  | .array items, wellFormed => by
    rw [WellFormed] at wellFormed
    rw [words]
    exact .fixed _ (by decide) ((alone_wordsOfItems items wellFormed).append
      (.fixed _ (by decide) .nil))
  | .map entries, wellFormed => by
    rw [WellFormed] at wellFormed
    rw [words]
    exact .fixed _ (by decide) ((alone_wordsOfEntries entries wellFormed.2).append
      (.fixed _ (by decide) .nil))
  | .var name path, wellFormed => by
    rw [WellFormed] at wellFormed
    rw [words]
    exact .fixed _ (by decide) (.cons (Word.standalone_name wellFormed.1) (alone_pathWords path))

theorem alone_wordsOfItems : ∀ (items : List Expr), WellFormedItems items →
    Alone (wordsOfItems items)
  | [], _ => by
    rw [wordsOfItems]
    exact .nil
  | item :: items, wellFormed => by
    rw [WellFormedItems] at wellFormed
    rw [wordsOfItems]
    exact (alone_words item wellFormed.1).append
      (.fixed _ (by decide) (alone_wordsOfItems items wellFormed.2))

theorem alone_wordsOfEntries : ∀ (entries : List (String × Expr)), WellFormedEntries entries →
    Alone (wordsOfEntries entries)
  | [], _ => by
    rw [wordsOfEntries]
    exact .nil
  | (key, value) :: entries, wellFormed => by
    rw [WellFormedEntries] at wellFormed
    rw [wordsOfEntries]
    exact .cons (Word.standalone_string key) (.fixed _ (by decide)
      ((alone_words value wellFormed.1).append
        (.fixed _ (by decide) (alone_wordsOfEntries entries wellFormed.2))))

end

end Expr

/-! ### Conditions -/

namespace Condition

/-- What a condition is part of: nothing or the left side of `OR`, the right side of `OR` or the
left side of `AND`, the right side of `AND` or a negation. -/
inductive Slot where
  | disjunction | conjunction | operand
  deriving DecidableEq, Repr

def enclose (needed : Bool) (words : List Word) : List Word :=
  if needed then fixed .leftParen :: (words ++ [fixed .rightParen]) else words

def words : Slot → Condition → List Word
  | _, .not inner => fixed .notWord :: inner.words .operand
  | slot, .and left right => enclose (slot = .operand)
    (left.words .conjunction ++ fixed .andWord :: right.words .operand)
  | slot, .or left right => enclose (slot ≠ .disjunction)
    (left.words .disjunction ++ fixed .orWord :: right.words .conjunction)
  | _, .compare op left right => left.words ++ (.comparison, op.symbol) :: right.words

/-- How many negations and parentheses, and arrays and maps in their values, lie within each
other. -/
def nesting : Slot → Condition → Nat
  | _, .not inner => inner.nesting .operand + 1
  | slot, .and left right =>
    max (left.nesting .conjunction) (right.nesting .operand) + (slot = .operand : Bool).toNat
  | slot, .or left right =>
    max (left.nesting .disjunction) (right.nesting .conjunction) + (slot ≠ .disjunction : Bool).toNat
  | _, .compare _ left right => max left.nesting right.nesting

def WellFormed : Condition → Prop
  | .not inner => inner.WellFormed
  | .and left right => left.WellFormed ∧ right.WellFormed
  | .or left right => left.WellFormed ∧ right.WellFormed
  | .compare _ left right => left.WellFormed ∧ right.WellFormed

theorem alone_enclose (needed : Bool) {words : List Word} (alone : Alone words) :
    Alone (enclose needed words) := by
  unfold enclose
  split
  · exact .fixed _ (by decide) (alone.append (.fixed _ (by decide) .nil))
  · exact alone

/-- The words of a condition stand alone in every slot, with and without parentheses. -/
theorem alone_words (slot : Slot) {condition : Condition} (wellFormed : condition.WellFormed) :
    Alone (condition.words slot) := by
  induction condition generalizing slot with
  | not inner ih => exact .fixed _ (by decide) (ih .operand wellFormed)
  | and left right ihLeft ihRight =>
    exact alone_enclose _ ((ihLeft .conjunction wellFormed.1).append
      (.fixed _ (by decide) (ihRight .operand wellFormed.2)))
  | or left right ihLeft ihRight =>
    exact alone_enclose _ ((ihLeft .disjunction wellFormed.1).append
      (.fixed _ (by decide) (ihRight .conjunction wellFormed.2)))
  | compare op left right =>
    exact (left.alone_words wellFormed.1).append
      (.cons (Word.standalone_comparison op) (right.alone_words wellFormed.2))

end Condition

/-! ### Statements -/

namespace Call

def wordsOfArgs (args : Entries Expr) : List Word :=
  args.flatMap fun arg => (.name, arg.1) :: fixed .assign :: arg.2.words

/-- An arrow and a name, or nothing. -/
def wordsOfCapture : Option String → List Word
  | none => []
  | some name => [fixed .arrow, Expr.looseWord name]

def words (call : Call) : List Word :=
  fixed .callWord :: Expr.looseWord call.name ::
    (wordsOfArgs call.args ++ wordsOfCapture call.capture)

/-- A call that can be written: its name and its capture are scanned to one word each, and its
arguments have different identifiers. -/
structure WellFormed (call : Call) : Prop where
  name : (Word.looseKind? call.name).isSome = true
  identifiers : ∀ key ∈ Entries.keys call.args, Word.isIdentifier key = true
  distinct : (Entries.keys call.args).Nodup
  values : Expr.WellFormedEntries call.args
  capture : ∀ name ∈ call.capture, (Word.looseKind? name).isSome = true

/-- Keys are identifiers and stand alone as names. -/
theorem alone_wordsOfArgs {args : Entries Expr}
    (identifiers : ∀ key ∈ Entries.keys args, Word.isIdentifier key = true)
    (values : Expr.WellFormedEntries args) : Alone (wordsOfArgs args) := by
  induction args with
  | nil => exact .nil
  | cons arg args ih =>
    obtain ⟨key, value⟩ := arg
    rw [Expr.WellFormedEntries] at values
    have first : Word.isIdentifier key = true := identifiers key (List.mem_cons_self ..)
    have rest := ih (fun key among => identifiers key (List.mem_cons_of_mem _ among)) values.2
    exact .cons (Word.standalone_name first)
      (.fixed _ (by decide) ((value.alone_words values.1).append rest))

theorem alone_words {call : Call} (wellFormed : call.WellFormed) : Alone call.words := by
  have capture : Alone (wordsOfCapture call.capture) := by
    cases found : call.capture with
    | none => exact .nil
    | some name =>
      exact .fixed _ (by decide)
        (.cons (Expr.standalone_looseWord (wellFormed.capture name found)) .nil)
  exact .fixed _ (by decide) (.cons (Expr.standalone_looseWord wellFormed.name)
    ((alone_wordsOfArgs wellFormed.identifiers wellFormed.values).append capture))

end Call

namespace Statement

mutual

def words : Statement → List Word
  | .assign name value =>
    fixed .letWord :: (.name, name) :: fixed .assign :: (value.words ++ [fixed .newline])
  | .call request => request.words ++ [fixed .newline]
  | .branch condition yes no =>
    fixed .ifWord :: (condition.words .disjunction ++ fixed .leftBrace :: (wordsOf yes ++
      fixed .rightBrace :: (wordsOfOtherwise no ++ [fixed .newline])))
  | .loop var iterable body =>
    fixed .forWord :: (.name, var) :: fixed .inWord :: (iterable.words ++
      fixed .leftBrace :: (wordsOf body ++ [fixed .rightBrace, fixed .newline]))
  | .finish value => fixed .returnWord :: (value.words ++ [fixed .newline])
  | .blank => [fixed .newline]

def wordsOf : List Statement → List Word
  | [] => []
  | statement :: rest => statement.words ++ wordsOf rest

def wordsOfOtherwise : Option (List Statement) → List Word
  | none => []
  | some statements =>
    fixed .elseWord :: fixed .leftBrace :: (wordsOf statements ++ [fixed .rightBrace])

end

mutual

/-- How many blocks, and what nests in their conditions and values, lie within each other. -/
def nesting : Statement → Nat
  | .assign _ value => value.nesting
  | .call request => Expr.nestingOfEntries request.args
  | .branch condition yes no =>
    max (condition.nesting .disjunction) (max (nestingOf yes) (nestingOfOtherwise no) + 1)
  | .loop _ iterable body => max iterable.nesting (nestingOf body + 1)
  | .finish value => value.nesting
  | .blank => 0

def nestingOf : List Statement → Nat
  | [] => 0
  | statement :: rest => max statement.nesting (nestingOf rest)

def nestingOfOtherwise : Option (List Statement) → Nat
  | none => 0
  | some statements => nestingOf statements

end

mutual

def WellFormed : Statement → Prop
  | .assign name value => Word.isIdentifier name = true ∧ value.WellFormed
  | .call request => request.WellFormed
  | .branch condition yes no =>
    condition.WellFormed ∧ WellFormedAll yes ∧ WellFormedOtherwise no
  | .loop var iterable body =>
    Word.isIdentifier var = true ∧ iterable.WellFormed ∧ WellFormedAll body
  | .finish value => value.WellFormed
  | .blank => True

def WellFormedAll : List Statement → Prop
  | [] => True
  | statement :: rest => statement.WellFormed ∧ WellFormedAll rest

def WellFormedOtherwise : Option (List Statement) → Prop
  | none => True
  | some statements => WellFormedAll statements

end

mutual

/-- A statement with its calls at one place. -/
def unplaced : Statement → Statement
  | .call request => .call { request with place := .start }
  | .branch condition yes no => .branch condition (unplacedAll yes) (unplacedOtherwise no)
  | .loop var iterable body => .loop var iterable (unplacedAll body)
  | .assign name value => .assign name value
  | .finish value => .finish value
  | .blank => .blank

def unplacedAll : List Statement → List Statement
  | [] => []
  | statement :: rest => statement.unplaced :: unplacedAll rest

def unplacedOtherwise : Option (List Statement) → Option (List Statement)
  | none => none
  | some statements => some (unplacedAll statements)

end

mutual

/-- The words of a statement that can be written stand alone. -/
theorem alone_words : ∀ (statement : Statement), statement.WellFormed → Alone statement.words
  | .assign name value, wellFormed => by
    rw [WellFormed] at wellFormed
    rw [words]
    exact .fixed _ (by decide) (.cons (Word.standalone_name wellFormed.1) (.fixed _ (by decide)
      ((value.alone_words wellFormed.2).append (.fixed _ (by decide) .nil))))
  | .call request, wellFormed => by
    rw [WellFormed] at wellFormed
    rw [words]
    exact (Call.alone_words wellFormed).append (.fixed _ (by decide) .nil)
  | .branch condition yes no, wellFormed => by
    rw [WellFormed] at wellFormed
    obtain ⟨test, first, other⟩ := wellFormed
    rw [words]
    exact .fixed _ (by decide) ((Condition.alone_words _ test).append (.fixed _ (by decide)
      ((alone_wordsOf yes first).append (.fixed _ (by decide)
        ((alone_wordsOfOtherwise no other).append (.fixed _ (by decide) .nil))))))
  | .loop var iterable body, wellFormed => by
    rw [WellFormed] at wellFormed
    obtain ⟨identifier, values, inside⟩ := wellFormed
    rw [words]
    exact .fixed _ (by decide) (.cons (Word.standalone_name identifier) (.fixed _ (by decide)
      ((iterable.alone_words values).append (.fixed _ (by decide)
        ((alone_wordsOf body inside).append
          (.fixed _ (by decide) (.fixed _ (by decide) .nil)))))))
  | .finish value, wellFormed => by
    rw [WellFormed] at wellFormed
    rw [words]
    exact .fixed _ (by decide) ((value.alone_words wellFormed).append (.fixed _ (by decide) .nil))
  | .blank, _ => by
    rw [words]
    exact .fixed _ (by decide) .nil

theorem alone_wordsOf : ∀ (statements : List Statement), WellFormedAll statements →
    Alone (wordsOf statements)
  | [], _ => by
    rw [wordsOf]
    exact .nil
  | statement :: rest, wellFormed => by
    rw [WellFormedAll] at wellFormed
    rw [wordsOf]
    exact (alone_words statement wellFormed.1).append (alone_wordsOf rest wellFormed.2)

theorem alone_wordsOfOtherwise : ∀ (no : Option (List Statement)), WellFormedOtherwise no →
    Alone (wordsOfOtherwise no)
  | none, _ => by
    rw [wordsOfOtherwise]
    exact .nil
  | some statements, wellFormed => by
    rw [WellFormedOtherwise] at wellFormed
    rw [wordsOfOtherwise]
    exact .fixed _ (by decide) (.fixed _ (by decide)
      ((alone_wordsOf statements wellFormed).append (.fixed _ (by decide) .nil)))

end

end Statement

namespace Plan

def print (plan : Plan) : String :=
  String.ofList (Word.writeAll (Statement.wordsOf plan))

end Plan

end ToolPlan
