import Mathlib.Data.List.Induction
import ToolPlan.Run.Environment

/-!
The variables of a run as a finite map with a known order. They come about by definitions and removals
of names (`Update`). A definition keeps the places of all names that stand already, a removal moves the
last one only, and the value of a name is that of its last definition, unless a removal came after it.
-/

namespace ToolPlan

/-! ### Single operations -/

namespace Entries

variable {α : Type} {entries : Entries α} {name : String} {value : α}

/-- Takes the value of a name out. The last entry moves into its place. -/
def take : Entries α → String → Option α × Entries α
  | [], _ => (none, [])
  | (key, value) :: rest, name =>
    if key = name then
      match rest.getLast? with
      | none => (some value, [])
      | some last => (some value, last :: rest.dropLast)
    else
      let (taken, others) := take rest name
      (taken, (key, value) :: others)

/-- Taking gives what a lookup finds, and leaves what a removal leaves. -/
theorem take_eq (entries : Entries α) (name : String) :
    take entries name = (get? entries name, remove entries name) := by
  induction entries with
  | nil => rfl
  | cons entry rest ih =>
    obtain ⟨key, value⟩ := entry
    rw [take, get?, remove]
    split
    · cases rest.getLast? <;> rfl
    · rw [ih]

theorem not_mem_keys_iff : name ∉ keys entries ↔ get? entries name = none := by
  rw [mem_keys_iff, not_exists, Option.eq_none_iff_forall_ne_some]

/-- What is found stands at some place, and no name before it is the same. -/
theorem split_of_get? (found : get? entries name = some value) :
    ∃ front back, entries = front ++ (name, value) :: back ∧ name ∉ keys front := by
  induction entries with
  | nil => cases found
  | cons entry rest ih =>
    obtain ⟨key, first⟩ := entry
    rw [get?] at found
    split at found
    · next same =>
      obtain rfl := Option.some.inj found
      exact ⟨[], rest, by rw [same]; rfl, List.not_mem_nil⟩
    · next differ =>
      obtain ⟨front, back, rfl, fresh⟩ := ih found
      exact ⟨(key, first) :: front, back, rfl,
        List.not_mem_cons_of_ne_of_not_mem (Ne.symm differ) fresh⟩

/-- An insertion passes the entries whose keys are others. -/
theorem insert_append {front : Entries α} (fresh : name ∉ keys front) (others : Entries α)
    (value : α) : insert (front ++ others) name value = front ++ insert others name value := by
  induction front with
  | nil => rfl
  | cons entry front ih =>
    obtain ⟨key, first⟩ := entry
    have differ : key ≠ name := Ne.symm (List.ne_of_not_mem_cons fresh)
    rw [List.cons_append, insert, if_neg differ, ih (List.not_mem_of_not_mem_cons fresh)]
    rfl

theorem remove_append {front : Entries α} (fresh : name ∉ keys front) (others : Entries α) :
    remove (front ++ others) name = front ++ remove others name := by
  induction front with
  | nil => rfl
  | cons entry front ih =>
    obtain ⟨key, first⟩ := entry
    have differ : key ≠ name := Ne.symm (List.ne_of_not_mem_cons fresh)
    rw [List.cons_append, remove, if_neg differ, ih (List.not_mem_of_not_mem_cons fresh)]
    rfl

theorem remove_of_not_mem (fresh : name ∉ keys entries) : remove entries name = entries := by
  have kept : remove (entries ++ []) name = entries ++ [] := remove_append fresh []
  rwa [List.append_nil] at kept

/-- Where a name is bound, a definition changes the value in its place. -/
theorem insert_of_get? (found : get? entries name = some value) (given : α) :
    ∃ front back, entries = front ++ (name, value) :: back ∧
      insert entries name given = front ++ (name, given) :: back := by
  obtain ⟨front, back, rfl, fresh⟩ := split_of_get? found
  refine ⟨front, back, rfl, ?_⟩
  rw [insert_append fresh, insert, if_pos rfl]

/-- What a removal takes from a bound name is its value. Behind the name, only the last entry moves. -/
theorem take_of_get? (found : get? entries name = some value) :
    ∃ front back others, entries = front ++ (name, value) :: back ∧
      take entries name = (some value, front ++ others) ∧
      (back = [] ∧ others = [] ∨
        ∃ middle last, back = middle ++ [last] ∧ others = last :: middle) := by
  obtain ⟨front, back, split, fresh⟩ := split_of_get? found
  have taken : take entries name = (some value, front ++ remove ((name, value) :: back) name) := by
    rw [take_eq, found, split, remove_append fresh]
  refine ⟨front, back, _, split, taken, ?_⟩
  rw [remove, if_pos rfl]
  rcases List.eq_nil_or_concat back with rfl | ⟨middle, last, rfl⟩
  · exact .inl ⟨rfl, rfl⟩
  · rw [List.concat_eq_append, List.getLast?_concat, List.dropLast_concat]
    exact .inr ⟨middle, last, rfl, rfl⟩

end Entries

/-! ### Sequences of operations -/

namespace Environment

inductive Update where
  | define (name : String) (value : Value)
  | remove (name : String)

def Update.apply (env : Environment) : Update → Environment
  | define name value => env.define name value
  | remove name => env.remove name

/-- The variables after a sequence of operations, where there were none before. -/
def after (updates : List Update) : Environment :=
  updates.foldl Update.apply .empty

abbrev bindings (updates : List Update) : Bindings :=
  (after updates).vars

/-- Among the operations, the last definition of the name gives it this value, and no removal of the
name comes after it. -/
def LastDefined (updates : List Update) (name : String) (value : Value) : Prop :=
  ∃ before after, updates = before ++ .define name value :: after ∧
    (∀ other, .define name other ∉ after) ∧ .remove name ∉ after

variable {updates : List Update} {name : String} {value : Value}

theorem bindings_concat (updates : List Update) (update : Update) :
    bindings (updates ++ [update]) = (update.apply (after updates)).vars := by
  rw [bindings, after, List.foldl_append]
  rfl

/-- A last definition is the last operation, or was one before an operation that is not on the name. -/
theorem lastDefined_concat {update : Update} :
    LastDefined (updates ++ [update]) name value ↔
      update = .define name value ∨
        LastDefined updates name value ∧ (∀ other, update ≠ .define name other) ∧
          update ≠ .remove name := by
  constructor
  · rintro ⟨before, after, split, defined, removed⟩
    rcases List.eq_nil_or_concat after with rfl | ⟨middle, last, rfl⟩
    · obtain ⟨-, last⟩ := List.append_inj' split rfl
      exact .inl (List.singleton_inj.mp last)
    · rw [List.concat_eq_append] at *
      rw [← List.cons_append, ← List.append_assoc] at split
      obtain ⟨rfl, same⟩ := List.append_inj' split rfl
      obtain rfl := List.singleton_inj.mp same
      simp only [List.mem_append, List.mem_singleton, not_or] at defined removed
      exact .inr ⟨⟨before, middle, rfl, fun other => (defined other).1, removed.1⟩,
        fun other same => (defined other).2 same.symm, fun same => removed.2 same.symm⟩
  · rintro (rfl | ⟨⟨before, after, rfl, defined, removed⟩, notDefined, notRemoved⟩)
    · exact ⟨updates, [], rfl, nofun, nofun⟩
    · refine ⟨before, after ++ [update], by rw [List.append_assoc, List.cons_append], ?_, ?_⟩
      · intro other among
        rcases List.mem_append.mp among with earlier | last
        · exact defined other earlier
        · exact notDefined other (List.mem_singleton.mp last).symm
      · intro among
        rcases List.mem_append.mp among with earlier | last
        · exact removed earlier
        · exact notRemoved (List.mem_singleton.mp last).symm

/-- What one operation does to the value of a name. -/
theorem get?_apply_iff (env : Environment) (update : Update) :
    (update.apply env).vars.get? name = some value ↔
      update = .define name value ∨
        env.vars.get? name = some value ∧ (∀ other, update ≠ .define name other) ∧
          update ≠ .remove name := by
  cases update with
  | define other given =>
    rw [Update.apply]
    by_cases same : other = name
    · subst same
      rw [vars_define, Entries.get?_insert_self]
      simp
    · rw [vars_define, Entries.get?_insert_of_ne _ _ (Ne.symm same)]
      simp [same]
  | remove other =>
    rw [Update.apply]
    by_cases same : other = name
    · subst same
      rw [get?_remove_self]
      simp
    · rw [get?_remove_of_ne _ (Ne.symm same)]
      simp [same]

/-- The value of a name is that of its last definition, unless the name was removed after it. -/
theorem get?_bindings_iff (updates : List Update) :
    (bindings updates).get? name = some value ↔ LastDefined updates name value := by
  induction updates using List.reverseRecOn with
  | nil =>
    refine iff_of_false nofun ?_
    rintro ⟨before, after, split, -⟩
    simp at split
  | append_singleton updates update ih =>
    rw [bindings_concat, get?_apply_iff, lastDefined_concat, ih]

/-- The variables are a finite map with a known order, whatever definitions and removals they come
from. No name stands twice, and the value of a name is that of its last definition, if no removal of it
comes after that. Defining a bound name changes the value in its place and nothing else, and a name that
is not bound goes last. Removing a bound name gives its value, and the last of the variables behind it
moves into its place; removing another name changes nothing. -/
theorem bindings_finite_map (updates : List Update) :
    (Entries.keys (bindings updates)).Nodup ∧
    (∀ name value, (bindings updates).get? name = some value ↔ LastDefined updates name value) ∧
    (∀ name, (bindings updates).get? name = none ↔ ∀ value, ¬ LastDefined updates name value) ∧
    (∀ name old value, (bindings updates).get? name = some old →
      ∃ front back, bindings updates = front ++ (name, old) :: back ∧
        bindings (updates ++ [.define name value]) = front ++ (name, value) :: back) ∧
    (∀ name value, (bindings updates).get? name = none →
      bindings (updates ++ [.define name value]) = bindings updates ++ [(name, value)]) ∧
    (∀ name value, (bindings updates).get? name = some value →
      ∃ front back others, bindings updates = front ++ (name, value) :: back ∧
        (bindings updates).take name = (some value, front ++ others) ∧
        bindings (updates ++ [.remove name]) = front ++ others ∧
        (back = [] ∧ others = [] ∨
          ∃ middle last, back = middle ++ [last] ∧ others = last :: middle)) ∧
    ∀ name, (bindings updates).get? name = none →
      (bindings updates).take name = (none, bindings updates) ∧
        bindings (updates ++ [.remove name]) = bindings updates := by
  have removed : ∀ name, bindings (updates ++ [.remove name]) = ((bindings updates).take name).2 := by
    intro name
    rw [bindings_concat, Update.apply, vars_remove, Entries.take_eq]
  refine ⟨(after updates).distinct, fun _ _ => get?_bindings_iff updates, fun name => ?_,
    fun name old value bound => ?_, fun name value unbound => ?_, fun name value bound => ?_,
    fun name unbound => ?_⟩
  · rw [Option.eq_none_iff_forall_ne_some]
    exact forall_congr' fun value => not_congr (get?_bindings_iff updates)
  · rw [bindings_concat]
    exact Entries.insert_of_get? bound value
  · rw [bindings_concat]
    exact Entries.insert_of_not_mem (Entries.not_mem_keys_iff.mpr unbound) value
  · obtain ⟨front, back, others, split, taken, moved⟩ := Entries.take_of_get? bound
    exact ⟨front, back, others, split, taken, by rw [removed, taken], moved⟩
  · have kept : (bindings updates).take name = (none, bindings updates) := by
      rw [Entries.take_eq, unbound, Entries.remove_of_not_mem (Entries.not_mem_keys_iff.mpr unbound)]
    exact ⟨kept, by rw [removed, kept]⟩

def threeNames : List Update :=
  [.define "a" .null, .define "b" .null, .define "c" .null, .define "a" (.bool true), .remove "d"]

/-- A name that is defined again keeps its place, and a removal moves the last name forward. -/
theorem bindings_finite_map_threeNames :
    (bindings threeNames).get? "a" = some (.bool true) ∧ (bindings threeNames).get? "d" = none ∧
    LastDefined threeNames "a" (.bool true) ∧
    (∃ front back others, bindings threeNames = front ++ ("a", .bool true) :: back ∧
      (bindings threeNames).take "a" = (some (.bool true), front ++ others) ∧
      bindings (threeNames ++ [.remove "a"]) = front ++ others ∧
      (back = [] ∧ others = [] ∨ ∃ middle last, back = middle ++ [last] ∧ others = last :: middle)) ∧
    bindings (threeNames ++ [.define "d" .null]) = bindings threeNames ++ [("d", .null)] := by
  have bound : (bindings threeNames).get? "a" = some (.bool true) := rfl
  have unbound : (bindings threeNames).get? "d" = none := rfl
  obtain ⟨-, value, -, -, defined, removed, -⟩ := bindings_finite_map threeNames
  exact ⟨bound, unbound, (value _ _).mp bound, removed _ _ bound, defined _ _ unbound⟩

end Environment

end ToolPlan
