import ToolPlan.Proofs.Grammar.Calls
import ToolPlan.Proofs.Grammar.Places
import ToolPlan.Proofs.Grammar.Statements
import ToolPlan.Proofs.Token.Lines

/-!
Plans one after the other. A statement that was read up to the end of whole lines is read in the same
way before more statements: it ends with its own line, and no statement opens with the `ELSE` that a
conditional looks for (`Grammar.statement_append`). So the text of a plan may stand in front of that of
another one, and gives the statements of both (`Plan.parse_append`).
-/

namespace ToolPlan

namespace Grammar

open Derives (ahead)

/-! ### Statements before more tokens -/

/-- Line ends at the end of a text hide no other branch of the next one. -/
theorem noElse_append {tokens more : List Token} (noElse : NoElse tokens) (later : NoElse more) :
    NoElse (tokens ++ more) :=
  noElse_append_congr (fun _ _ => later) (by rwa [List.append_nil])

variable {levels : Nat} {tokens rest more : List Token} {first : Statement}

/-- A statement of whole lines leaves whole lines, and it stays a statement before tokens that do not
open with `ELSE`. -/
theorem statement_append (derived : Derives.Statement levels tokens first rest)
    (noElse : NoElse rest) (lines : EndsLine tokens) (later : NoElse more) :
    (rest = [] ∨ EndsLine rest) ∧
      Derives.Statement levels (tokens ++ more) first (rest ++ more) := by
  have read := statement_complete (Token.endOfInput .start) levels derived noElse
  obtain ⟨used, rfl, taken⟩ := (statement_predictive levels _ tokens).taken read
  have ends : EndsLine used ∨ Closing (rest ++ more) ∨ ahead (rest ++ more) = ahead rest := by
    cases rest with
    | nil => exact .inl (List.append_nil used ▸ lines)
    | cons => exact .inr (.inr rfl)
  have again := taken.steady (Token.endOfInput .start) (rest ++ more)
    ⟨ends, fun noElse => noElse_append noElse later⟩
  rw [← List.append_assoc] at again
  refine ⟨?_, statement_sound _ levels again⟩
  cases rest with
  | nil => exact .inl rfl
  | cons => exact .inr ((endsLine_append (List.cons_ne_nil _ _)).mp lines)

/-- Statements of two texts are those of the one and of the other, if the first text ends its line. -/
theorem statements_append {before after : List Statement}
    (derived : Derives.Statements (Derives.Statement levels) tokens before [])
    (lines : tokens = [] ∨ EndsLine tokens)
    (later : Derives.Statements (Derives.Statement levels) more after []) :
    Derives.Statements (Derives.Statement levels) (tokens ++ more) (before ++ after) [] := by
  have nothing : NoElse [] := noElse_of_ahead (by simp) (by simp)
  generalize ending : ([] : List Token) = left at derived
  induction derived with
  | none =>
    subst ending
    exact later
  | @more tokens first middle others left derivedFirst derivedOthers ih =>
    subst ending
    have ended : EndsLine tokens := by
      refine lines.resolve_left ?_
      rintro rfl
      exact absurd (Derives.Statement.shortens levels derivedFirst) (Nat.not_lt_zero _)
    obtain ⟨left, again⟩ := statement_append derivedFirst (noElse_statements derivedOthers nothing)
      ended (noElse_statements later nothing)
    exact .more again (ih left rfl)

end Grammar

namespace Plan

/-! ### Texts one after the other -/

/-- A text is a plan if its tokens are a script. -/
theorem parse_eq_ok_iff {text : String} {plan : Plan} : parse text = .ok plan ↔
    ∃ tokens, Token.Scans .start text.toList tokens ∧ Derives.Script tokens plan := by
  unfold parse parseChars
  constructor
  · intro accepted
    cases scanned : Token.scanChars text.toList with
    | error fault =>
      rw [scanned] at accepted
      cases accepted
    | ok tokens =>
      obtain ⟨front, scans, rfl⟩ := Token.scanChars_eq_ok_iff.mp scanned
      rw [scanned] at accepted
      have script := script_of_ofTokens accepted
      rw [body_concat scans.kind_ne_eof] at script
      exact ⟨front, scans, script⟩
  · rintro ⟨front, scans, script⟩
    rw [Token.scanChars_eq_ok_iff.mpr ⟨front, scans, rfl⟩]
    apply ofTokens_of_script
    rwa [body_concat scans.kind_ne_eof]

/-- The text of a plan may stand in front of another one if it is empty or ends with a line end: the
whole is a plan of the statements of the first text and then those of the second. Calls stand where
they stood, but those of the second text as many lines further down as the first one has line ends. -/
theorem parse_append {first second : String} {before after : Plan}
    (lines : first = "" ∨ ∃ text, first = text ++ "\n")
    (readFirst : parse first = .ok before) (readSecond : parse second = .ok after) :
    parse (first ++ second) =
      .ok (before ++ Statement.relocateAll (.down (first.toList.count '\n')) after) := by
  have whole : WholeLines first.toList := by
    rcases lines with rfl | ⟨text, rfl⟩
    · exact nofun
    · rw [String.toList_append]
      exact wholeLines_concat.mpr rfl
  obtain ⟨tokens, scans, script⟩ := parse_eq_ok_iff.mp readFirst
  obtain ⟨more, later, scriptLater⟩ := parse_eq_ok_iff.mp readSecond
  have ends : tokens = [] ∨ Grammar.EndsLine tokens := by
    rcases scans.endsLine whole with none | line
    · rw [none] at scans
      cases scans
      exact .inl rfl
    · exact .inr line
  have moved := later.down (first.toList.count '\n')
  rw [← Position.after_wholeLines whole] at moved
  refine parse_eq_ok_iff.mpr ⟨_, ?_, Grammar.statements_append script ends scriptLater.relocate⟩
  rw [String.toList_append]
  exact scans.append whole moved

/-- A string over two lines, a comment, and a conditional that ends before a blank line. -/
def opening : String :=
  "\n".intercalate
    ["CALL find q='a", "b' -> hits // all", "IF $hits == null ".push '{', '}'.toString, ""] ++ "\n"

/-- A loop after a blank line, with a call in it and no line end behind it. -/
def following : String :=
  "\nFOR hit IN $hits ".push '{' ++ "\n  CALL show id=$hit ".push '}'

/-- Five lines come before the second text. Its call moves down by so many and keeps its column. -/
theorem parse_append_following : (∃ text, opening = text ++ "\n") ∧
    ∃ before after, parse opening = .ok before ∧ parse following = .ok after ∧
    parse (opening ++ following) = .ok (before ++ Statement.relocateAll (.down 5) after) ∧
    before.calls.map Call.place = [⟨1, 1⟩] ∧ after.calls.map Call.place = [⟨3, 3⟩] ∧
    (Plan.calls (Statement.relocateAll (.down 5) after)).map Call.place = [⟨8, 3⟩] := by
  have first : (parse opening).toOption.map (fun plan => plan.calls.map Call.place) =
      some [⟨1, 1⟩] := by decide +kernel
  have second : (parse following).toOption.map (fun plan : Plan => (plan.calls.map Call.place,
      (Plan.calls (Statement.relocateAll (.down 5) plan)).map Call.place)) =
        some ([⟨3, 3⟩], [⟨8, 3⟩]) := by decide +kernel
  have lines : ∃ text, opening = text ++ "\n" := ⟨_, rfl⟩
  have count : opening.toList.count '\n' = 5 := by decide +kernel
  cases readFirst : parse opening with
  | error fault =>
    rw [readFirst] at first
    cases first
  | ok before =>
    cases readSecond : parse following with
    | error fault =>
      rw [readSecond] at second
      cases second
    | ok after =>
      rw [readFirst] at first
      rw [readSecond] at second
      obtain ⟨places, moved⟩ := Prod.mk.inj (Option.some.inj second)
      have whole := parse_append (.inr lines) readFirst readSecond
      rw [count] at whole
      exact ⟨lines, before, after, rfl, rfl, whole, Option.some.inj first, places, moved⟩

end Plan

end ToolPlan
