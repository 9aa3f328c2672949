import ToolPlan.Value

/-!
Tools: what a plan may call. A tool answers by its own memory and its argument, and the answer takes
time. The memory lies in a slot, so that a tool known under several names, or to several runs, keeps
one memory.
-/

namespace ToolPlan

inductive ToolError where
  | failed (reason : String)
  | invalidArguments (reason : String)
  deriving DecidableEq, Repr

def ToolError.message : ToolError → String
  | failed reason => reason
  | invalidArguments reason => "invalid arguments: " ++ reason

/-- The answer of a tool, and the nanoseconds it took. -/
structure Reply where
  outcome : Except ToolError Value
  duration : Nat := 0

/-- A tool with memory of type `σ`. -/
structure Tool (σ : Type) where
  slot : Nat
  act : σ → Value → Reply × σ

/-- The memories of all tools: what was written to a slot, and the same beginning for all others. -/
structure Memories (σ : Type) where
  initial : σ
  written : List (Nat × σ) := []

namespace Memories

variable {σ : Type}

def get (memories : Memories σ) (slot : Nat) : σ :=
  (memories.written.lookup slot).getD memories.initial

def set (memories : Memories σ) (slot : Nat) (memory : σ) : Memories σ :=
  { memories with written := (slot, memory) :: memories.written.filter (·.1 ≠ slot) }

@[simp] theorem get_set_self (memories : Memories σ) (slot : Nat) (memory : σ) :
    (memories.set slot memory).get slot = memory := by
  simp [get, set]

/-- What was written to one slot does not hide what was written to another. -/
theorem lookup_filter_of_ne {slot other : Nat} (differ : other ≠ slot) (written : List (Nat × σ)) :
    (written.filter (·.1 ≠ slot)).lookup other = written.lookup other := by
  induction written with
  | nil => rfl
  | cons entry rest ih =>
    obtain ⟨key, memory⟩ := entry
    by_cases same : key = slot
    · subst same
      have unlike : (other == key) = false := by simp [differ]
      rw [List.filter_cons_of_neg (by simp), ih, List.lookup_cons, unlike]
    · rw [List.filter_cons_of_pos (by simp [same]), List.lookup_cons, List.lookup_cons, ih]

/-- Writing one slot leaves the others as they were. -/
theorem get_set_of_ne (memories : Memories σ) {slot other : Nat} (memory : σ)
    (differ : other ≠ slot) : (memories.set slot memory).get other = memories.get other := by
  have unlike : (other == slot) = false := by simp [differ]
  simp only [get, set, List.lookup_cons, unlike]
  rw [lookup_filter_of_ne differ]

end Memories

namespace Tool

variable {σ : Type}

/-- A tool that gives the same value to every call. -/
def fixture (value : Value) : Tool σ where
  slot := 0
  act memory _ := (⟨.ok value, 0⟩, memory)

/-- Calls a tool: its reply, and the memories after it. -/
def invoke (tool : Tool σ) (args : Value) (memories : Memories σ) : Reply × Memories σ :=
  let (reply, memory) := tool.act (memories.get tool.slot) args
  (reply, memories.set tool.slot memory)

end Tool

end ToolPlan
