import ToolPlan.Proofs.Plan.Concatenation
import ToolPlan.Proofs.Plan.RoundTrip
import ToolPlan.Proofs.Run.Limits

/-!
Values as literals. A value has a text in the language of plans: strings and keys in double quotes,
arrays in brackets, maps in parentheses. Where the text ends, or a dividing character
follows, it is read as a literal (`Value.reads_source`), and under all variables the literal stands
for the value itself (`Value.resolve_literal`), whatever its strings look like. So a plan of one
statement returns any value that is written into it (`execute_source`).
-/

namespace ToolPlan

open Derives (Phrase)

/-! ### Texts before other texts -/

namespace Lexeme

/-- A text that is empty or begins with a dividing character. -/
def Parted (more : List Char) : Prop :=
  ∀ d ∈ more.head?, Divides d

theorem parted_nil : Parted [] := nofun

/-- A dividing character parts what comes before it. -/
theorem parted_cons {d : Char} (divides : Divides d) (more : List Char) : Parted (d :: more) :=
  fun _ first => Option.some.inj first ▸ divides

/-- The characters that end an item of an array or an entry of a map. -/
theorem divides_closing {d : Char} (closing : d ∈ [',', ']', ')']) : Divides d := by
  rw [List.mem_cons, List.mem_cons, List.mem_singleton] at closing
  rcases closing with rfl | rfl | rfl
  all_goals exact ⟨by decide, by decide, by decide, by decide⟩

/-- So do commas and closing brackets and parentheses, although they are tokens. -/
theorem parted_closing (d : Char) (closing : d ∈ [',', ']', ')']) (more : List Char) :
    Parted (d :: more) :=
  parted_cons (divides_closing closing) more

/-- An equals sign that no other follows. -/
theorem read_equals {rest : List Char} (single : rest.head? ≠ some '=') :
    Lexeme.read '=' rest = .ok (.token .assign "=" 1) := by
  cases rest with
  | nil => rfl
  | cons c rest =>
    have other : c ≠ '=' := fun same => single (congrArg some same)
    have sign : sign? '=' (c :: rest) = some (.assign, "=") := by
      unfold sign?
      split <;> simp_all
    rw [Lexeme.read, if_neg (by decide), if_neg (by simp), sign]
    rfl

end Lexeme

namespace Token

/-- Before `more`, the characters are scanned to the tokens in front. -/
def Leads (place : Position) (chars more : List Char) (front : List Token) : Prop :=
  ∀ ⦃tokens : List Token⦄, Scans (place.after chars) more tokens →
    Scans place (chars ++ more) (front ++ tokens)

namespace Leads

variable {place : Position} {more : List Char}

theorem append {first second : List Char} {front others : List Token}
    (leads : Leads place first (second ++ more) front)
    (leadsOn : Leads (place.after first) second more others) :
    Leads place (first ++ second) more (front ++ others) := by
  intro tokens scans
  rw [Position.after_append] at scans
  rw [List.append_assoc, List.append_assoc]
  exact leads (leadsOn scans)

/-- What is read before `more` up to its last character is one token. -/
theorem token {c : Char} {rest : List Char} {kind : TokenKind} {text : String}
    (read : Lexeme.read c (rest ++ more) = .ok (.token kind text (c :: rest).length)) :
    Leads place (c :: rest) more [⟨kind, text, place⟩] := by
  intro tokens scans
  exact .piece read (List.cons_append ..).symm rfl scans

theorem sign {c : Char} {rest : List Char} {kind : TokenKind} {text : String} {front : List Token}
    (read : Lexeme.read c (rest ++ more) = .ok (.token kind text 1))
    (leads : Leads (place.after [c]) rest more front) :
    Leads place (c :: rest) more (⟨kind, text, place⟩ :: front) := by
  have first : Leads place [c] (rest ++ more) [⟨kind, text, place⟩] := token read
  exact first.append leads

theorem blank {rest : List Char} {front : List Token}
    (leads : Leads (place.after [' ']) rest more front) : Leads place (' ' :: rest) more front := by
  intro tokens scans
  have gap : Lexeme.read ' ' (rest ++ more) = .ok (.gap 1) := rfl
  exact .piece gap (List.singleton_append ..).symm rfl (leads scans)

/-- A word that is read where a text ends is read before a text that is parted from it. -/
theorem word {word : Word} {piece : List Char} (read : word.ReadFrom piece)
    (parted : Lexeme.Parted more) : Leads place piece more [⟨word.1, word.2, place⟩] := by
  obtain ⟨c, rest, rfl, read⟩ := read
  refine token ?_
  cases more with
  | nil => rwa [List.append_nil]
  | cons d more => exact Lexeme.read_before_divider (parted d rfl) read more

/-- A string ends with its mark, whatever follows. -/
theorem string (text : String) :
    Leads place (Quote.double.write text.toList) more [⟨.string, text, place⟩] := by
  obtain ⟨c, rest, written, read⟩ := Word.readFrom_write .double text
  obtain ⟨rfl, rfl⟩ := List.cons.inj written
  exact token (Lexeme.read_mark_append read more)

end Leads

/-- Before `more`, the characters are a phrase of that meaning, whatever tokens come after it. -/
def Reads {α : Type} (phrase : Phrase α) (place : Position) (chars more : List Char) (meaning : α) :
    Prop :=
  ∃ front, Leads place chars more front ∧ ∀ rest, phrase (front ++ rest) meaning rest

end Token

open Token (Leads Reads)

namespace Value

/-! ### Texts and literals -/

mutual

/-- The text of a value in a plan. -/
def source : Value → List Char
  | null => ['n', 'u', 'l', 'l']
  | bool true => ['t', 'r', 'u', 'e']
  | bool false => ['f', 'a', 'l', 's', 'e']
  | number value => value.literal.toList
  | string text => Quote.double.write text.toList
  | array items => '[' :: ([','].intercalate (sourcesOfItems items) ++ [']'])
  | map entries => '(' :: ([','].intercalate (sourcesOfEntries entries) ++ [')'])

def sourcesOfItems : List Value → List (List Char)
  | [] => []
  | item :: items => item.source :: sourcesOfItems items

/-- The texts of entries: the key in quotes, an equals sign and the value. -/
def sourcesOfEntries : List (String × Value) → List (List Char)
  | [] => []
  | (key, value) :: entries =>
    (Quote.double.write key.toList ++ '=' :: value.source) :: sourcesOfEntries entries

end

mutual

/-- How many arrays and maps lie within each other. -/
def nesting : Value → Nat
  | null => 0
  | bool _ => 0
  | number _ => 0
  | string _ => 0
  | array items => nestingOfItems items + 1
  | map entries => nestingOfEntries entries + 1

def nestingOfItems : List Value → Nat
  | [] => 0
  | item :: items => max item.nesting (nestingOfItems items)

def nestingOfEntries : List (String × Value) → Nat
  | [] => 0
  | (_, value) :: entries => max value.nesting (nestingOfEntries entries)

end

mutual

/-- Whole numbers are signed words, binary numbers are canonical, and no map has a key twice. -/
def WellFormed : Value → Prop
  | null => True
  | bool _ => True
  | number value => value.WellFormed
  | string _ => True
  | array items => WellFormedItems items
  | map entries => (Entries.keys entries).Nodup ∧ WellFormedEntries entries

def WellFormedItems : List Value → Prop
  | [] => True
  | item :: items => item.WellFormed ∧ WellFormedItems items

def WellFormedEntries : List (String × Value) → Prop
  | [] => True
  | (_, value) :: entries => value.WellFormed ∧ WellFormedEntries entries

end

mutual

/-- The expression that stands for a value without any variable. -/
def literal : Value → Expr
  | null => .null
  | bool value => .bool value
  | number value => .number value
  | string text => .string text
  | array items => .array (literalsOfItems items)
  | map entries => .map (literalsOfEntries entries)

def literalsOfItems : List Value → List Expr
  | [] => []
  | item :: items => item.literal :: literalsOfItems items

/-- The literals of the values of entries, under the same keys. -/
def literalsOfEntries : List (String × Value) → List (String × Expr)
  | [] => []
  | (key, value) :: entries => (key, value.literal) :: literalsOfEntries entries

end

/-- The entries of a literal have the keys of the map. -/
theorem keys_literalsOfEntries (entries : List (String × Value)) :
    Entries.keys (literalsOfEntries entries) = Entries.keys entries := by
  induction entries with
  | nil => rw [literalsOfEntries]; rfl
  | cons entry entries ih =>
    rw [literalsOfEntries]
    exact congrArg (entry.1 :: ·) ih

mutual

/-- A literal stands for its value, whatever the variables are. -/
theorem resolve_literal (vars : Bindings) : ∀ (value : Value), value.literal.resolve vars = value
  | null => by rw [literal, Expr.resolve]
  | bool _ => by rw [literal, Expr.resolve]
  | number _ => by rw [literal, Expr.resolve]
  | string _ => by rw [literal, Expr.resolve]
  | array items => by rw [literal, Expr.resolve, resolveItems_literals vars items]
  | map entries => by rw [literal, Expr.resolve, resolveEntries_literals vars entries]

/-- A literal has no variables, so it resolves to its value under any. -/
theorem resolveItems_literals (vars : Bindings) : ∀ (items : List Value),
    Expr.resolveItems vars (literalsOfItems items) = items
  | [] => by rw [literalsOfItems, Expr.resolveItems]
  | item :: items => by
    rw [literalsOfItems, Expr.resolveItems, resolve_literal vars item,
      resolveItems_literals vars items]

theorem resolveEntries_literals (vars : Bindings) : ∀ (entries : List (String × Value)),
    Expr.resolveEntries vars (literalsOfEntries entries) = entries
  | [] => by rw [literalsOfEntries, Expr.resolveEntries]
  | (key, value) :: entries => by
    rw [literalsOfEntries, Expr.resolveEntries, resolve_literal vars value,
      resolveEntries_literals vars entries]

end

/-! ### Reading a text back -/

/-- No text of a value begins with an equals sign, which would make a comparison of the one before
it. -/
theorem head?_source (value : Value) (more : List Char) :
    (value.source ++ more).head? ≠ some '=' := by
  cases value with
  | number value =>
    obtain ⟨c, rest, written, read⟩ := Word.standalone_number value.numeral_literal
    have source : (number value).source = c :: rest := by
      rw [Value.source, ← written]
      rfl
    rw [source]
    -- A text that begins with an equals sign has a sign there and no number.
    rintro ⟨⟩
    by_cases single : rest.head? = some '='
    · cases rest with
      | nil => cases single
      | cons d rest =>
        obtain rfl := Option.some.inj single
        cases read
    · rw [Lexeme.read_equals single] at read
      cases read
  | bool value => cases value <;> simp [source]
  | null | string | array | map => simp [source, Quote.write, Quote.mark]

variable {levels : Nat} {place : Position} {more : List Char}

/-- A word that is a scalar by itself. -/
theorem reads_word {word : Word} {piece : List Char} {value : Expr} (read : word.ReadFrom piece)
    (scalar : ∀ rest, Derives.Scalar (⟨word.1, word.2, place⟩ :: rest) value rest)
    (parted : Lexeme.Parted more) : Reads (Derives.Value levels) place piece more value :=
  ⟨_, .word read parted, fun rest => Expr.derives_scalar (scalar rest)⟩

/-- An entry is a string, an equals sign and what its value is scanned to. -/
theorem leads_entry (key : String) {value : Value} {front : List Token}
    (leads : Leads ((place.after (Quote.double.write key.toList)).after ['=']) value.source more
      front) :
    Leads place (Quote.double.write key.toList ++ '=' :: value.source) more
      (⟨.string, key, place⟩ :: ⟨.assign, "=", place.after (Quote.double.write key.toList)⟩ ::
        front) :=
  .append (.string key) (.sign (Lexeme.read_equals (value.head?_source more)) leads)

mutual

/-- A value that is well formed is read from its text, where the levels left are enough. -/
theorem reads_source : ∀ (value : Value) (levels : Nat), value.WellFormed →
    value.nesting ≤ levels → ∀ {place : Position} {more : List Char}, Lexeme.Parted more →
    Reads (Derives.Value levels) place value.source more value.literal
  | null, levels, _, _, place, more, parted => by
    rw [source, literal]
    exact reads_word (Word.standalone_fixed (by decide : TokenKind.nullWord.spelling ≠ ""))
      (fun _ => .nullWord) parted
  | bool true, levels, _, _, place, more, parted => by
    rw [source, literal]
    exact reads_word (Word.standalone_fixed (by decide : TokenKind.trueWord.spelling ≠ ""))
      (fun _ => .trueWord) parted
  | bool false, levels, _, _, place, more, parted => by
    rw [source, literal]
    exact reads_word (Word.standalone_fixed (by decide : TokenKind.falseWord.spelling ≠ ""))
      (fun _ => .falseWord) parted
  | number value, levels, wellFormed, _, place, more, parted => by
    rw [WellFormed] at wellFormed
    rw [source, literal]
    exact reads_word (Word.standalone_number value.numeral_literal)
      (fun _ => .number (Number.ofText?_literal wellFormed)) parted
  | string text, levels, _, _, place, more, parted => by
    rw [source, literal]
    exact reads_word (Word.readFrom_write .double text) (fun _ => .string) parted
  | array items, levels, wellFormed, fits, place, more, parted => by
    rw [WellFormed] at wellFormed
    rw [nesting] at fits
    rw [source, literal]
    obtain ⟨levels, rfl⟩ : ∃ n, levels = n + 1 := ⟨levels - 1, by omega⟩
    obtain ⟨front, leads, derives⟩ := reads_items items levels wellFormed (by omega)
    exact ⟨_, .sign rfl leads, fun rest => .inr (.array (derives rest))⟩
  | map entries, levels, wellFormed, fits, place, more, parted => by
    rw [WellFormed] at wellFormed
    rw [nesting] at fits
    rw [source, literal]
    obtain ⟨levels, rfl⟩ : ∃ n, levels = n + 1 := ⟨levels - 1, by omega⟩
    obtain ⟨front, leads, derives⟩ := reads_entries entries levels wellFormed.2 (by omega)
    refine ⟨_, .sign rfl leads, fun rest => .inr ?_⟩
    have distinct : (Entries.keys (literalsOfEntries entries)).Nodup := by
      rw [keys_literalsOfEntries]
      exact wellFormed.1
    rw [← Entries.ofList_of_nodup distinct]
    exact .map (derives rest)

/-- The items of an array are read up to its closing bracket. -/
theorem reads_items : ∀ (items : List Value) (levels : Nat), WellFormedItems items →
    nestingOfItems items ≤ levels → ∀ {place : Position} {more : List Char},
    Reads (Derives.Items (Derives.Value levels)) place
      ([','].intercalate (sourcesOfItems items) ++ [']']) more (literalsOfItems items)
  | [], levels, _, _, place, more => by
    rw [sourcesOfItems, literalsOfItems, List.intercalate_nil]
    exact ⟨_, .token rfl, fun _ => .close .none⟩
  | [item], levels, wellFormed, fits, place, more => by
    -- No comma stands after the last item, which the bracket parts from the rest.
    rw [WellFormedItems] at wellFormed
    rw [nestingOfItems] at fits
    simp only [sourcesOfItems, literalsOfItems, List.intercalate_singleton]
    obtain ⟨front, leads, derives⟩ := reads_source item levels wellFormed.1 (by omega)
      (Lexeme.parted_closing ']' (by decide) more)
    refine ⟨_, .append leads (.token rfl), fun rest => ?_⟩
    rw [List.append_assoc]
    exact .more .none (derives _) .none .absent (.close .none)
  | item :: next :: items, levels, wellFormed, fits, place, more => by
    rw [WellFormedItems] at wellFormed
    rw [nestingOfItems] at fits
    rw [sourcesOfItems, literalsOfItems, sourcesOfItems, List.intercalate_cons_cons, ← sourcesOfItems,
      List.append_assoc, List.append_assoc, List.singleton_append]
    obtain ⟨front, leads, derives⟩ := reads_source item levels wellFormed.1 (by omega)
      (Lexeme.parted_closing ',' (by decide) _)
    obtain ⟨others, leadsOn, derivesOn⟩ :=
      reads_items (next :: items) levels wellFormed.2 (by omega)
    refine ⟨_, .append leads (.sign rfl leadsOn), fun rest => ?_⟩
    rw [List.append_assoc]
    exact .more .none (derives _) .none .present (derivesOn rest)

/-- The entries of a map are read up to its closing parenthesis. -/
theorem reads_entries : ∀ (entries : List (String × Value)) (levels : Nat),
    WellFormedEntries entries → nestingOfEntries entries ≤ levels →
    ∀ {place : Position} {more : List Char},
    Reads (Derives.Fields (Derives.Value levels)) place
      ([','].intercalate (sourcesOfEntries entries) ++ [')']) more (literalsOfEntries entries)
  | [], levels, _, _, place, more => by
    rw [sourcesOfEntries, literalsOfEntries, List.intercalate_nil]
    exact ⟨_, .token rfl, fun _ => .close .none⟩
  | [(key, value)], levels, wellFormed, fits, place, more => by
    rw [WellFormedEntries] at wellFormed
    rw [nestingOfEntries] at fits
    simp only [sourcesOfEntries, literalsOfEntries, List.intercalate_singleton]
    obtain ⟨front, leads, derives⟩ := reads_source value levels wellFormed.1 (by omega)
      (Lexeme.parted_closing ')' (by decide) more)
    refine ⟨_, .append (leads_entry key leads) (.token rfl), fun rest => ?_⟩
    rw [List.append_assoc]
    exact .more .none .string (derives _) .none .absent (.close .none)
  | (key, value) :: (nextKey, next) :: entries, levels, wellFormed, fits, place, more => by
    rw [WellFormedEntries] at wellFormed
    rw [nestingOfEntries] at fits
    rw [sourcesOfEntries, literalsOfEntries, sourcesOfEntries, List.intercalate_cons_cons,
      ← sourcesOfEntries, List.append_assoc, List.append_assoc, List.singleton_append]
    obtain ⟨front, leads, derives⟩ := reads_source value levels wellFormed.1 (by omega)
      (Lexeme.parted_closing ',' (by decide) _)
    obtain ⟨others, leadsOn, derivesOn⟩ :=
      reads_entries ((nextKey, next) :: entries) levels wellFormed.2 (by omega)
    refine ⟨_, .append (leads_entry key leads) (.sign rfl leadsOn), fun rest => ?_⟩
    rw [List.append_assoc]
    exact .more .none .string (derives _) .none .present (derivesOn rest)

end

end Value

namespace Plan

/-! ### Plans that return a literal -/

/-- The text of a value behind `RETURN` is a plan that ends with its literal. -/
theorem parse_source {value : Value} (wellFormed : value.WellFormed)
    (fits : value.nesting ≤ maxNesting) :
    parse ("RETURN " ++ String.ofList value.source) = .ok [.finish value.literal] := by
  obtain ⟨front, leads, derives⟩ :=
    value.reads_source maxNesting wellFormed fits Lexeme.parted_nil
  have returns : Word.ReadFrom (Word.fixed .returnWord) "RETURN".toList :=
    Word.standalone_fixed (by decide)
  have whole : Leads .start ("RETURN".toList ++ ' ' :: value.source) []
      ([⟨.returnWord, "RETURN", .start⟩] ++ front) :=
    .append (.word returns (Lexeme.parted_cons Lexeme.divides_blank _)) (.blank leads)
  have scans : Token.Scans .start ("RETURN " ++ String.ofList value.source).toList
      (⟨.returnWord, "RETURN", .start⟩ :: (front ++ [])) := by
    have scans := whole .done
    rw [List.append_nil] at scans
    have text : ("RETURN " ++ String.ofList value.source).toList =
        "RETURN".toList ++ ' ' :: value.source := by simp
    rw [text]
    exact scans
  have finish : Derives.Simple (Derives.Value maxNesting)
      (⟨.returnWord, "RETURN", .start⟩ :: (front ++ [])) (.finish value.literal) [] :=
    .finish (derives []) .finished
  exact parse_eq_ok_iff.mpr ⟨_, scans, .more (Statement.derives_simple finish) .none⟩

/-- A statement that returns a value takes one step, if that many are allowed. -/
theorem run_finish {σ : Type} (value : Expr) (registry : Registry σ) {options : Options}
    (clock : Clock) (memories : Memories σ) (allowed : 1 ≤ options.maxSteps)
    (untimed : options.deadlineMs = none) :
    run [.finish value] registry options clock memories =
      (⟨.returned (value.resolve []), [], [.step, .traced (.returned (value.resolve []))], 1⟩,
        memories) := by
  let setting : Setting σ := ⟨registry, options.dryRun, clock⟩
  let counted : Machine σ := ((Machine.start options memories).checkpoint setting).2
  have passed : Action.check (Machine.checkpoint setting) (Machine.start options memories) =
      (.next, counted) := by
    rw [Machine.checkpoint_untimed setting untimed]
    exact if_neg (Nat.not_lt.mpr allowed)
  have returned : Machine.runStatement setting (.finish value) counted =
      (.returned (value.resolve []), counted.note (.traced (.returned (value.resolve [])))) := by
    rw [Machine.runStatement]
    rfl
  have stops : Flow.returned (value.resolve []) ≠ .next := by rintro ⟨⟩
  have ran : Machine.runBlock setting [.finish value] (Machine.start options memories) =
      (.returned (value.resolve []), counted.note (.traced (.returned (value.resolve [])))) := by
    rw [Machine.runBlock_cons]
    refine Action.andThen_stop (Action.andThen_stop ?_ stops) stops
    rw [Action.andThen_next passed, returned]
  exact congrArg Report.ofOutcome ran

end Plan

/-- Every value can be embedded in a plan. A plan that returns the text of a well-formed value, with
at most `maxNesting` arrays and maps within each other, is accepted and returns exactly that value, in
one step and without a variable or a call, for all tools and all options without a deadline that allow
a step. -/
theorem execute_source {σ : Type} (value : Value) (registry : Registry σ) (options : Options)
    (clock : Clock) (memories : Memories σ) (wellFormed : value.WellFormed)
    (fits : value.nesting ≤ maxNesting) (allowed : 1 ≤ options.maxSteps)
    (untimed : options.deadlineMs = none) :
    ∃ report, execute ("RETURN " ++ String.ofList value.source) registry options clock memories =
        .ok (report, memories) ∧
      report.ok = true ∧ report.returned? = some value ∧ report.halt? = none ∧ report.vars = [] ∧
      report.steps = 1 ∧ report.trace = [.returned value] ∧ report.invocations = [] := by
  have valid : options.validate = .ok () := if_neg (Nat.ne_of_gt allowed)
  have ran := Plan.run_finish value.literal registry clock memories allowed untimed
  rw [value.resolve_literal] at ran
  have executed : execute ("RETURN " ++ String.ofList value.source) registry options clock memories =
      .ok (⟨.returned value, [], [.step, .traced (.returned value)], 1⟩, memories) := by
    rw [execute, valid, Plan.parse_source wellFormed fits]
    exact congrArg Except.ok ran
  exact ⟨_, executed, rfl, rfl, rfl, rfl, rfl, rfl, rfl⟩

/-- The least whole number, and strings that look like a number, a literal word, a variable, a
comment, an arrow or the end of a string. -/
def Value.deceptive : Value :=
  .map [("say \"=\"", .array [.int (-9223372036854775808), .string "12", .string "null",
      .string "$x // ->\n", .string "\\n\"", .map [], .bool true]),
    ("", .array [.array [], .null])]

/-- Strings that look like other things are quoted, and the least word is written with its sign. -/
theorem execute_source_deceptive : Value.deceptive.WellFormed ∧
    Value.deceptive.nesting ≤ maxNesting ∧
    String.ofList Value.deceptive.source =
      "(\"say \\\"=\\\"\"=[-9223372036854775808,\"12\",\"null\",\"$x // ->\n\"," ++
        "\"\\\\n\\\"\",(),true],\"\"=[[],null])" ∧
    ∃ report, execute ("RETURN " ++ String.ofList Value.deceptive.source) Plan.ticking
        ⟨1, none, false⟩ Clock.ticking ⟨0, []⟩ = .ok (report, ⟨0, []⟩) ∧
      report.returned? = some Value.deceptive ∧ report.steps = 1 ∧ report.invocations = [] := by
  have wellFormed : Value.deceptive.WellFormed := by
    simp [Value.deceptive, Value.WellFormed, Value.WellFormedItems, Value.WellFormedEntries,
      Value.int, Number.WellFormed, Number.isWord, Entries.keys]
  have fits : Value.deceptive.nesting ≤ maxNesting := by decide
  obtain ⟨report, executed, -, returned, -, -, steps, -, uncalled⟩ := execute_source Value.deceptive
    Plan.ticking ⟨1, none, false⟩ Clock.ticking ⟨0, []⟩ wellFormed fits (by decide) rfl
  exact ⟨wellFormed, fits, by decide +kernel, report, executed, returned, steps, uncalled⟩

end ToolPlan
