/-!
Named entries in a fixed order: the fields of a map, the arguments of a call, the variables of a
run. Written and removed one by one, they never have a name twice; the place of a name is the place
of its first insertion, but a removal moves the last entry. The fields of a map can be maps again,
and a type that is nested in this way cannot carry a proof about its entries. So different names are
a hypothesis here, which the variables of a run have as part of their type.
-/

namespace ToolPlan

/-- Values under names, in order. -/
abbrev Entries (α : Type) := List (String × α)

namespace Entries

variable {α : Type}

def get? : Entries α → String → Option α
  | [], _ => none
  | (key, value) :: rest, name => if key = name then some value else get? rest name

def contains (entries : Entries α) (name : String) : Bool :=
  (get? entries name).isSome

def keys (entries : Entries α) : List String :=
  entries.map (·.1)

/-- A name that stands already keeps its place and takes the new value; a new name goes last. -/
def insert : Entries α → String → α → Entries α
  | [], name, value => [(name, value)]
  | (key, old) :: rest, name, value =>
    if key = name then (key, value) :: rest else (key, old) :: insert rest name value

/-- The last entry moves into the place of the removed one. -/
def remove : Entries α → String → Entries α
  | [], _ => []
  | (key, value) :: rest, name =>
    if key = name then
      match rest.getLast? with
      | none => []
      | some last => last :: rest.dropLast
    else (key, value) :: remove rest name

/-- Entries inserted one after the other, so the last value of a repeated name wins. -/
def ofList (pairs : List (String × α)) : Entries α :=
  pairs.foldl (fun entries pair => insert entries pair.1 pair.2) []

/-! ### Finding -/

variable {entries : Entries α} {name : String} {value : α}

theorem mem_keys_of_mem (among : (name, value) ∈ entries) : name ∈ keys entries :=
  List.mem_map.mpr ⟨_, among, rfl⟩

theorem mem_of_get? (found : get? entries name = some value) : (name, value) ∈ entries := by
  induction entries with
  | nil => cases found
  | cons entry entries ih =>
    obtain ⟨key, first⟩ := entry
    rw [get?] at found
    split at found
    · next same =>
      obtain rfl := Option.some.inj found
      rw [same]
      exact List.mem_cons_self ..
    · exact List.mem_cons_of_mem _ (ih found)

/-- Under different names, what stands there is found. -/
theorem get?_eq_some_iff (distinct : (keys entries).Nodup) :
    get? entries name = some value ↔ (name, value) ∈ entries := by
  refine ⟨mem_of_get?, ?_⟩
  intro among
  induction entries with
  | nil => cases among
  | cons entry entries ih =>
    obtain ⟨key, first⟩ := entry
    obtain ⟨fresh, others⟩ := List.nodup_cons.mp distinct
    rcases List.mem_cons.mp among with ⟨rfl, rfl⟩ | later
    · rw [get?, if_pos rfl]
    · have differ : key ≠ name := by
        rintro rfl
        exact fresh (mem_keys_of_mem later)
      rw [get?, if_neg differ, ih others later]

/-- The keys are the names that have a value, whether or not keys are unique. -/
theorem mem_keys_iff : name ∈ keys entries ↔ ∃ value, get? entries name = some value := by
  induction entries with
  | nil => simp [keys, get?]
  | cons entry entries ih =>
    obtain ⟨key, first⟩ := entry
    by_cases same : key = name
    · simp [keys, get?, same]
    · simpa [keys, get?, same, Ne.symm same] using ih

/-! ### Writing -/

/-- Reading the name just written gives the value written. -/
@[simp] theorem get?_insert_self (entries : Entries α) (name : String) (value : α) :
    get? (insert entries name value) name = some value := by
  induction entries with
  | nil => simp [insert, get?]
  | cons entry rest ih =>
    obtain ⟨key, old⟩ := entry
    by_cases same : key = name <;> simp [insert, get?, same, ih]

/-- Writing one name leaves the others as they were. -/
theorem get?_insert_of_ne (entries : Entries α) {name other : String} (value : α)
    (differ : other ≠ name) : get? (insert entries name value) other = get? entries other := by
  induction entries with
  | nil => simp [insert, get?, Ne.symm differ]
  | cons entry rest ih =>
    obtain ⟨key, old⟩ := entry
    by_cases same : key = name
    · simp [insert, get?, same, Ne.symm differ]
    · by_cases found : key = other <;> simp [insert, get?, same, found, ih, differ]

theorem keys_insert_of_mem (among : name ∈ keys entries) (value : α) :
    keys (insert entries name value) = keys entries := by
  induction entries with
  | nil => cases among
  | cons entry entries ih =>
    obtain ⟨key, old⟩ := entry
    by_cases same : key = name
    · rw [insert, if_pos same]
      rfl
    · have later : name ∈ keys entries := List.mem_of_ne_of_mem (Ne.symm same) among
      rw [insert, if_neg same]
      exact congrArg (key :: ·) (ih later)

/-- A new key goes to the end, so entries stand in the order of their first insertion. -/
theorem insert_of_not_mem (fresh : name ∉ keys entries)
    (value : α) : insert entries name value = entries ++ [(name, value)] := by
  induction entries with
  | nil => rfl
  | cons entry entries ih =>
    obtain ⟨key, old⟩ := entry
    have differ : name ≠ key := List.ne_of_not_mem_cons fresh
    rw [insert, if_neg (Ne.symm differ), ih (List.not_mem_of_not_mem_cons fresh), List.cons_append]

/-- Inserting entries one by one gives them back as they stand, if no key comes twice. -/
theorem foldl_insert_of_nodup {first others : Entries α}
    (distinct : (keys (first ++ others)).Nodup) :
    others.foldl (fun entries pair => insert entries pair.1 pair.2) first = first ++ others := by
  induction others generalizing first with
  | nil => rw [List.foldl_nil, List.append_nil]
  | cons entry others ih =>
    obtain ⟨key, value⟩ := entry
    have split : first ++ (key, value) :: others = first ++ [(key, value)] ++ others := by
      rw [List.append_assoc, List.singleton_append]
    have fresh : key ∉ keys first := by
      rw [keys, List.map_append, List.map_cons] at distinct
      intro among
      exact (List.nodup_append.mp distinct).2.2 key among key (List.mem_cons_self ..) rfl
    rw [List.foldl_cons, insert_of_not_mem fresh, split]
    rw [split] at distinct
    exact ih distinct

/-- Entries with different keys are as they were inserted. -/
theorem ofList_of_nodup (distinct : (keys entries).Nodup) :
    ofList entries = entries :=
  @foldl_insert_of_nodup α [] entries distinct

theorem nodup_keys_insert (distinct : (keys entries).Nodup) (name : String) (value : α) :
    (keys (insert entries name value)).Nodup := by
  by_cases among : name ∈ keys entries
  · rw [keys_insert_of_mem among]
    exact distinct
  · rw [insert_of_not_mem among, keys, List.map_append]
    refine List.nodup_append.mpr ⟨distinct, List.nodup_cons.mpr ⟨nofun, .nil⟩, ?_⟩
    rintro key standing _ last rfl
    obtain rfl := List.mem_singleton.mp last
    exact among standing

/-! ### Removing -/

/-- A removal leaves the entries under the other names, though not in their order. -/
theorem remove_perm (distinct : (keys entries).Nodup) (name : String) :
    (remove entries name).Perm (entries.filter (·.1 ≠ name)) := by
  induction entries with
  | nil => exact .refl _
  | cons entry rest ih =>
    obtain ⟨key, value⟩ := entry
    obtain ⟨fresh, others⟩ := List.nodup_cons.mp distinct
    by_cases same : key = name
    · subst same
      have kept : rest.filter (·.1 ≠ key) = rest := by
        refine List.filter_eq_self.mpr ?_
        intro entry among
        have differ : entry.1 ≠ key := by
          rintro rfl
          exact fresh (mem_keys_of_mem among)
        exact decide_eq_true differ
      rw [remove, if_pos rfl, List.filter_cons_of_neg (by simp), kept]
      rcases List.eq_nil_or_concat rest with rfl | ⟨front, last, rfl⟩
      · exact .refl _
      · rw [List.concat_eq_append, List.getLast?_concat, List.dropLast_concat]
        exact (List.perm_append_singleton last front).symm
    · rw [remove, if_neg same, List.filter_cons_of_pos (by simpa using same)]
      exact (ih others).cons _

/-- The moved entry takes the place of the one that goes, so no key comes twice. -/
theorem nodup_keys_remove (distinct : (keys entries).Nodup) (name : String) :
    (keys (remove entries name)).Nodup := by
  have moved : (keys (remove entries name)).Perm (keys (entries.filter (·.1 ≠ name))) :=
    (remove_perm distinct name).map _
  exact moved.nodup_iff.mpr (distinct.sublist (List.filter_sublist.map _))

/-- What a removal does to the order of the names: nothing, if the name does not stand there or stands
last; and else the last name takes its place. -/
theorem keys_remove (entries : Entries α) (name : String) :
    keys (remove entries name) = keys entries ∨
      keys entries = keys (remove entries name) ++ [name] ∨
      ∃ front middle last, keys entries = front ++ name :: (middle ++ [last]) ∧
        keys (remove entries name) = front ++ last :: middle := by
  induction entries with
  | nil => exact .inl rfl
  | cons entry rest ih =>
    obtain ⟨key, value⟩ := entry
    by_cases same : key = name
    · subst same
      rw [remove, if_pos rfl]
      rcases List.eq_nil_or_concat rest with rfl | ⟨front, last, rfl⟩
      · exact .inr (.inl rfl)
      · rw [List.concat_eq_append, List.getLast?_concat, List.dropLast_concat]
        refine .inr (.inr ⟨[], keys front, last.1, ?_, rfl⟩)
        simp [keys]
    · rw [remove, if_neg same]
      have first : ∀ others : Entries α, keys ((key, value) :: others) = key :: keys others :=
        fun _ => rfl
      rw [first, first]
      rcases ih with kept | last | ⟨front, middle, last, before, after⟩
      · exact .inl (congrArg (key :: ·) kept)
      · exact .inr (.inl (congrArg (key :: ·) last))
      · exact .inr (.inr ⟨key :: front, middle, last, congrArg (key :: ·) before,
          congrArg (key :: ·) after⟩)

/-- A removed name has no value. -/
theorem get?_remove_self (distinct : (keys entries).Nodup) (name : String) :
    get? (remove entries name) name = none := by
  apply Option.eq_none_iff_forall_ne_some.mpr
  intro value found
  rw [get?_eq_some_iff (nodup_keys_remove distinct name), (remove_perm distinct name).mem_iff,
    List.mem_filter] at found
  exact of_decide_eq_true found.2 rfl

/-- Removing one name leaves the others as they were. -/
theorem get?_remove_of_ne (distinct : (keys entries).Nodup) {other : String}
    (differ : other ≠ name) : get? (remove entries name) other = get? entries other := by
  apply Option.ext
  intro value
  rw [get?_eq_some_iff (nodup_keys_remove distinct name), (remove_perm distinct name).mem_iff,
    List.mem_filter, get?_eq_some_iff distinct]
  exact and_iff_left (decide_eq_true differ)

end Entries

end ToolPlan
