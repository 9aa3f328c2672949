import Mathlib.Data.List.Perm.Subperm
import Mathlib.Data.List.Forall2
import ToolPlan.Entries
import ToolPlan.Proofs.Number.Order
import ToolPlan.Value

/-!
Equality by content. The entries of a map are looked up one by one in the other map, and that the
converse holds as well is left to the lengths: where no key stands twice, as many keys on either
side are the same keys (`keys_perm`). So equality is reflexive and symmetric, and the order of
entries does not matter to it at any depth. It is transitive where rounding changes none of the
numbers, as it changes no whole number of up to 53 bits (`Value.equal_structural`).
-/

namespace ToolPlan

namespace Entries

variable {α β : Type} {entries others : Entries α}

theorem length_keys (entries : Entries α) : (keys entries).length = entries.length :=
  List.length_map _

/-- As many different keys as in the other entries, all of them found there, are the same keys. -/
theorem keys_perm {entries : Entries α} {others : Entries β} (distinct : (keys entries).Nodup)
    (within : keys entries ⊆ keys others) (length : entries.length = others.length) :
    (keys entries).Perm (keys others) := by
  refine (List.subperm_of_subset distinct within).perm_of_length_le ?_
  rw [length_keys, length_keys, length]

end Entries

namespace Value

/-! ### Values within values -/

/-- To show something of every value, it may be taken as known of the items of an array and of the
values in a map. -/
@[elab_as_elim]
theorem inductionOn {motive : Value → Prop} (value : Value) (null : motive null)
    (bool : ∀ value, motive (bool value)) (number : ∀ value, motive (number value))
    (string : ∀ text, motive (string text))
    (array : ∀ items, (∀ item ∈ items, motive item) → motive (array items))
    (map : ∀ entries, (∀ entry ∈ entries, motive entry.2) → motive (map entries)) : motive value :=
  match value with
  | .null => null
  | .bool value => bool value
  | .number value => number value
  | .string text => string text
  | .array items => array items fun item _ => inductionOn item null bool number string array map
  | .map entries => map entries fun entry among =>
    have smaller : sizeOf entry.2 < sizeOf entries := by
      have whole := List.sizeOf_lt_of_mem among
      rw [Prod.mk.sizeOf_spec] at whole
      omega
    inductionOn entry.2 null bool number string array map
termination_by sizeOf value

mutual

/-- A value and all values within it. -/
def parts : Value → List Value
  | null => [null]
  | bool value => [bool value]
  | number value => [number value]
  | string text => [string text]
  | array items => array items :: partsOfItems items
  | map entries => map entries :: partsOfEntries entries

def partsOfItems : List Value → List Value
  | [] => []
  | item :: items => item.parts ++ partsOfItems items

def partsOfEntries : List (String × Value) → List Value
  | [] => []
  | (_, value) :: entries => value.parts ++ partsOfEntries entries

end

theorem mem_partsOfItems {part : Value} {items : List Value} :
    part ∈ partsOfItems items ↔ ∃ item ∈ items, part ∈ item.parts := by
  induction items with
  | nil => simp [partsOfItems]
  | cons item items ih => simp [partsOfItems, ih]

/-- Keys are no parts, only values are. -/
theorem mem_partsOfEntries {part : Value} {entries : List (String × Value)} :
    part ∈ partsOfEntries entries ↔ ∃ entry ∈ entries, part ∈ entry.2.parts := by
  induction entries with
  | nil => simp [partsOfEntries]
  | cons entry entries ih => simp [partsOfEntries, ih]

theorem parts_subset_array {item : Value} {items : List Value} (among : item ∈ items) :
    item.parts ⊆ (array items).parts := by
  intro part inside
  exact List.mem_cons_of_mem _ (mem_partsOfItems.mpr ⟨item, among, inside⟩)

theorem parts_subset_map {entry : String × Value} {entries : List (String × Value)}
    (among : entry ∈ entries) : entry.2.parts ⊆ (map entries).parts := by
  intro part inside
  exact List.mem_cons_of_mem _ (mem_partsOfEntries.mpr ⟨entry, among, inside⟩)

/-- No map has a key twice, at any depth. -/
def UniqueKeys (value : Value) : Prop :=
  ∀ entries, map entries ∈ value.parts → (Entries.keys entries).Nodup

/-- Only maps have keys, so the items of an array are on their own. -/
theorem uniqueKeys_array {items : List Value} :
    (array items).UniqueKeys ↔ ∀ item ∈ items, item.UniqueKeys := by
  constructor
  · intro unique item among entries inside
    exact unique entries (parts_subset_array among inside)
  · intro unique entries inside
    rcases List.mem_cons.mp inside with itself | later
    · cases itself
    · obtain ⟨item, among, inside⟩ := mem_partsOfItems.mp later
      exact unique item among entries inside

theorem uniqueKeys_map {entries : List (String × Value)} : (map entries).UniqueKeys ↔
    (Entries.keys entries).Nodup ∧ ∀ entry ∈ entries, entry.2.UniqueKeys := by
  constructor
  · intro unique
    refine ⟨unique entries (List.mem_cons_self ..), ?_⟩
    intro entry among inner inside
    exact unique inner (parts_subset_map among inside)
  · rintro ⟨distinct, unique⟩ inner inside
    rcases List.mem_cons.mp inside with itself | later
    · obtain rfl := Value.map.inj itself
      exact distinct
    · obtain ⟨entry, among, inside⟩ := mem_partsOfEntries.mp later
      exact unique entry among inner inside

/-! ### What a value equals -/

theorem equal_null_iff {value : Value} : null.equal value = true ↔ null = value := by
  cases value <;> simp [equal]

theorem equal_bool_iff {flag : Bool} {value : Value} :
    (bool flag).equal value = true ↔ bool flag = value := by
  cases value <;> simp [equal]

theorem equal_string_iff {text : String} {value : Value} :
    (string text).equal value = true ↔ string text = value := by
  cases value <;> simp [equal]

/-- Arrays are equal item by item. -/
theorem equal_array_iff {xs ys : List Value} : (array xs).equal (array ys) = true ↔
    List.Forall₂ (fun x y => x.equal y = true) xs ys := by
  induction xs generalizing ys with
  | nil => cases ys <;> simp [equal, equalItems]
  | cons x xs ih =>
    cases ys with
    | nil => simp [equal]
    | cons y ys =>
      rw [List.forall₂_cons, ← ih]
      simp only [equal, equalItems, List.length_cons, Bool.and_eq_true, beq_iff_eq,
        Nat.add_right_cancel_iff]
      exact and_left_comm

/-- The other entries have an equal value under each key. -/
def Matched (xs ys : List (String × Value)) : Prop :=
  ∀ entry ∈ xs, ∃ y, Entries.get? ys entry.1 = some y ∧ entry.2.equal y = true

/-- Entries match if every key of the ones has an equal value among the others. -/
theorem equalEntries_iff {xs ys : List (String × Value)} :
    equalEntries xs ys = true ↔ Matched xs ys := by
  induction xs with
  | nil => simp [equalEntries, Matched]
  | cons entry xs ih =>
    obtain ⟨key, x⟩ := entry
    rw [equalEntries, Bool.and_eq_true, ih, Matched, Matched, List.forall_mem_cons]
    refine and_congr_left fun _ => ?_
    cases Entries.get? ys key <;> simp

/-- Maps are equal if they match and are of the same size. The sizes make up for the one direction. -/
theorem equal_map_iff {xs ys : List (String × Value)} :
    (map xs).equal (map ys) = true ↔ xs.length = ys.length ∧ Matched xs ys := by
  rw [equal, Bool.and_eq_true, beq_iff_eq, equalEntries_iff]

/-- What matches has its keys among those of the other. -/
theorem Matched.keys_subset {xs ys : List (String × Value)} (matched : Matched xs ys) :
    Entries.keys xs ⊆ Entries.keys ys := by
  intro key among
  obtain ⟨entry, standing, rfl⟩ := List.mem_map.mp among
  obtain ⟨y, found, -⟩ := matched entry standing
  exact Entries.mem_keys_iff.mpr ⟨y, found⟩

/-! ### Reflexivity and symmetry -/

/-- Equality is reflexive where keys are unique: a lookup then finds the entry itself. -/
theorem equal_self {value : Value} (unique : value.UniqueKeys) : value.equal value = true := by
  induction value using inductionOn with
  | null => exact equal_null_iff.mpr rfl
  | bool flag => exact equal_bool_iff.mpr rfl
  | number value => rw [equal, Number.order_self, beq_self_eq_true]
  | string text => exact equal_string_iff.mpr rfl
  | array items ih =>
    rw [equal_array_iff, List.forall₂_same]
    intro item among
    exact ih item among (uniqueKeys_array.mp unique item among)
  | map entries ih =>
    obtain ⟨distinct, unique⟩ := uniqueKeys_map.mp unique
    refine equal_map_iff.mpr ⟨rfl, ?_⟩
    intro entry among
    exact ⟨entry.2, (Entries.get?_eq_some_iff distinct).mpr among, ih entry among (unique entry among)⟩

/-- Entries that are matched by as many others match them. -/
theorem Matched.symm {xs ys : List (String × Value)} (matched : Matched xs ys)
    (length : xs.length = ys.length) (distinctX : (Entries.keys xs).Nodup)
    (distinctY : (Entries.keys ys).Nodup)
    (converse : ∀ x ∈ xs, ∀ y ∈ ys, x.2.equal y.2 = true → y.2.equal x.2 = true) :
    Matched ys xs := by
  rintro ⟨key, y⟩ among
  have known : key ∈ Entries.keys xs :=
    (Entries.keys_perm distinctX matched.keys_subset length).mem_iff.mpr
      (Entries.mem_keys_of_mem among)
  obtain ⟨x, found⟩ := Entries.mem_keys_iff.mp known
  have here : (key, x) ∈ xs := Entries.mem_of_get? found
  obtain ⟨other, foundY, same⟩ := matched (key, x) here
  obtain rfl : other = y := by
    rw [(Entries.get?_eq_some_iff distinctY).mpr among] at foundY
    exact (Option.some.inj foundY).symm
  exact ⟨x, found, converse (key, x) here (key, other) among same⟩

/-- Equality is symmetric where keys are unique. Entries that match one way and are as many match
the other way, too. -/
theorem equal_symm {a b : Value} (uniqueA : a.UniqueKeys) (uniqueB : b.UniqueKeys)
    (same : a.equal b = true) : b.equal a = true := by
  induction a using inductionOn generalizing b with
  | null =>
    obtain rfl := equal_null_iff.mp same
    exact same
  | bool flag =>
    obtain rfl := equal_bool_iff.mp same
    exact same
  | string text =>
    obtain rfl := equal_string_iff.mp same
    exact same
  | number x =>
    cases b with
    | number y =>
      rw [equal, beq_iff_eq] at same ⊢
      rw [Number.order_swap, same]
      rfl
    | null | bool | string | array | map => simp [equal] at same
  | array xs ih =>
    cases b with
    | array ys =>
      rw [equal_array_iff] at same ⊢
      obtain ⟨length, paired⟩ := List.forall₂_iff_zip.mp same
      refine List.Forall₂.flip (List.forall₂_iff_zip.mpr ⟨length, ?_⟩)
      intro x y pair
      obtain ⟨amongX, amongY⟩ := List.of_mem_zip pair
      exact ih x amongX (uniqueKeys_array.mp uniqueA x amongX)
        (uniqueKeys_array.mp uniqueB y amongY) (paired pair)
    | null | bool | number | string | map => simp [equal] at same
  | map xs ih =>
    cases b with
    | map ys =>
      obtain ⟨distinctX, innerX⟩ := uniqueKeys_map.mp uniqueA
      obtain ⟨distinctY, innerY⟩ := uniqueKeys_map.mp uniqueB
      -- As many entries, all of them matched: so each entry of the other map matches one of these.
      obtain ⟨length, matched⟩ := equal_map_iff.mp same
      refine equal_map_iff.mpr ⟨length.symm, matched.symm length distinctX distinctY ?_⟩
      intro x amongX y amongY same
      exact ih x amongX (innerX x amongX) (innerY y amongY) same
    | null | bool | number | string | array => simp [equal] at same

/-- So the two sides of a comparison may be exchanged. -/
theorem equal_comm {a b : Value} (uniqueA : a.UniqueKeys) (uniqueB : b.UniqueKeys) :
    a.equal b = b.equal a :=
  Bool.eq_iff_iff.mpr ⟨equal_symm uniqueA uniqueB, equal_symm uniqueB uniqueA⟩

/-! ### Entries in another order -/

/-- The entries of maps are put in another order, at any depth and any number of times. -/
inductive Rearranged : Value → Value → Prop where
  | refl (value : Value) : Rearranged value value
  | entries {xs ys : List (String × Value)} : xs.Perm ys → Rearranged (map xs) (map ys)
  | item {before after : List Value} {x y : Value} : Rearranged x y →
      Rearranged (array (before ++ x :: after)) (array (before ++ y :: after))
  | field {before after : List (String × Value)} {key : String} {x y : Value} : Rearranged x y →
      Rearranged (map (before ++ (key, x) :: after)) (map (before ++ (key, y) :: after))
  | trans {x y z : Value} : Rearranged x y → Rearranged y z → Rearranged x z

/-- Rearranging moves entries and makes no new ones. -/
theorem Rearranged.uniqueKeys {a b : Value} (rearranged : Rearranged a b) (unique : a.UniqueKeys) :
    b.UniqueKeys := by
  induction rearranged with
  | refl => exact unique
  | entries moved =>
    rw [uniqueKeys_map] at unique ⊢
    refine ⟨(moved.map _).nodup_iff.mp unique.1, ?_⟩
    intro entry among
    exact unique.2 entry (moved.mem_iff.mpr among)
  | item _ ih =>
    rw [uniqueKeys_array, List.forall_mem_append, List.forall_mem_cons] at unique ⊢
    exact ⟨unique.1, ih unique.2.1, unique.2.2⟩
  | field _ ih =>
    rw [uniqueKeys_map, List.forall_mem_append, List.forall_mem_cons, Entries.keys, List.map_append,
      List.map_cons] at unique ⊢
    exact ⟨unique.1, unique.2.1, ih unique.2.2.1, unique.2.2.2⟩
  | trans _ _ ihFirst ihSecond => exact ihSecond (ihFirst unique)

/-- Items that equal the same values may stand for each other in an array. -/
theorem equal_array_congr {x y : Value} (alike : ∀ b, y.equal b = x.equal b)
    (before after zs : List Value) : (array (before ++ y :: after)).equal (array zs) =
      (array (before ++ x :: after)).equal (array zs) := by
  apply Bool.eq_iff_iff.mpr
  rw [equal_array_iff, equal_array_iff]
  induction before generalizing zs with
  | nil => cases zs <;> simp [alike]
  | cons first before ih => cases zs <;> simp [ih]

/-- Rearranging a value does not change what it equals. -/
theorem Rearranged.equal_left {a a' : Value} (rearranged : Rearranged a a') (b : Value) :
    a'.equal b = a.equal b := by
  induction rearranged generalizing b with
  | refl => rfl
  | entries moved =>
    cases b with
    | map zs =>
      apply Bool.eq_iff_iff.mpr
      simp only [equal_map_iff, Matched, moved.length_eq, moved.mem_iff]
    | null | bool | number | string | array => simp only [equal]
  | @item before after x y _ ih =>
    cases b with
    | array zs => exact equal_array_congr ih before after zs
    | null | bool | number | string | map => simp only [equal]
  | field _ ih =>
    cases b with
    | map zs =>
      apply Bool.eq_iff_iff.mpr
      simp only [equal_map_iff, Matched, List.length_append, List.length_cons,
        List.forall_mem_append, List.forall_mem_cons, ih]
    | null | bool | number | string | array => simp only [equal]
  | trans _ _ ihFirst ihSecond => exact (ihSecond b).trans (ihFirst b)

/-! ### Transitivity -/

/-- Rounding changes no number within the value. -/
def ExactNumbers (value : Value) : Prop :=
  ∀ x, number x ∈ value.parts → x.Exact

theorem forall₂_trans {R : Value → Value → Prop} {xs ys zs : List Value}
    (trans : ∀ x ∈ xs, ∀ y ∈ ys, ∀ z ∈ zs, R x y → R y z → R x z) (first : List.Forall₂ R xs ys)
    (second : List.Forall₂ R ys zs) : List.Forall₂ R xs zs := by
  induction first generalizing zs with
  | nil =>
    cases second
    exact .nil
  | cons head _ ih =>
    cases second with
    | cons head' tail' =>
      refine .cons (trans _ (List.mem_cons_self ..) _ (List.mem_cons_self ..) _
        (List.mem_cons_self ..) head head') (ih ?_ tail')
      intro x amongX y amongY z amongZ
      exact trans x (List.mem_cons_of_mem _ amongX) y (List.mem_cons_of_mem _ amongY) z
        (List.mem_cons_of_mem _ amongZ)

/-- Equality is transitive among exact numbers. Rounding breaks it otherwise, since two numbers can
both be close to a third one. -/
theorem equal_trans {a b c : Value} (exactA : a.ExactNumbers) (exactB : b.ExactNumbers)
    (exactC : c.ExactNumbers) (first : a.equal b = true) (second : b.equal c = true) :
    a.equal c = true := by
  induction a using inductionOn generalizing b c with
  | null =>
    obtain rfl := equal_null_iff.mp first
    exact second
  | bool flag =>
    obtain rfl := equal_bool_iff.mp first
    exact second
  | string text =>
    obtain rfl := equal_string_iff.mp first
    exact second
  | number x =>
    cases b with
    | number y =>
      cases c with
      | number z =>
        -- Exact numbers are compared by value, so equality of values carries over.
        have exactX := exactA x (List.mem_singleton.mpr rfl)
        have exactY := exactB y (List.mem_singleton.mpr rfl)
        have exactZ := exactC z (List.mem_singleton.mpr rfl)
        rw [equal, beq_iff_eq, Number.order_of_exact exactX exactY, compare_eq_iff_eq] at first
        rw [equal, beq_iff_eq, Number.order_of_exact exactY exactZ, compare_eq_iff_eq] at second
        rw [equal, beq_iff_eq, Number.order_of_exact exactX exactZ, compare_eq_iff_eq]
        exact first.trans second
      | null | bool | string | array | map => simp [equal] at second
    | null | bool | string | array | map => simp [equal] at first
  | array xs ih =>
    cases b with
    | array ys =>
      cases c with
      | array zs =>
        rw [equal_array_iff] at first second ⊢
        refine forall₂_trans ?_ first second
        intro x amongX y amongY z amongZ
        exact ih x amongX (fun n inside => exactA n (parts_subset_array amongX inside))
          (fun n inside => exactB n (parts_subset_array amongY inside))
          (fun n inside => exactC n (parts_subset_array amongZ inside))
      | null | bool | number | string | map => simp [equal] at second
    | null | bool | number | string | map => simp [equal] at first
  | map xs ih =>
    cases b with
    | map ys =>
      cases c with
      | map zs =>
        rw [equal_map_iff] at first second ⊢
        refine ⟨first.1.trans second.1, ?_⟩
        intro x amongX
        obtain ⟨y, foundY, sameY⟩ := first.2 x amongX
        have amongY : (x.1, y) ∈ ys := Entries.mem_of_get? foundY
        obtain ⟨z, foundZ, sameZ⟩ := second.2 (x.1, y) amongY
        have amongZ : (x.1, z) ∈ zs := Entries.mem_of_get? foundZ
        exact ⟨z, foundZ, ih x amongX (fun n inside => exactA n (parts_subset_map amongX inside))
          (fun n inside => exactB n (parts_subset_map amongY inside))
          (fun n inside => exactC n (parts_subset_map amongZ inside)) sameY sameZ⟩
      | null | bool | number | string | array => simp [equal] at second
    | null | bool | number | string | array => simp [equal] at first

/-- No whole number within the value has a magnitude above `2 ^ 53`. -/
def SmallIntegers (value : Value) : Prop :=
  ∀ n, int n ∈ value.parts → n.natAbs ≤ 2 ^ 53

theorem SmallIntegers.exactNumbers {value : Value} (small : value.SmallIntegers) :
    value.ExactNumbers := by
  intro x inside
  cases x with
  | int n => exact Number.exact_int (small n inside)
  | float x => exact Number.exact_float x

/-- Equality by content is what its name says. Where no map has a key twice, every value equals
itself, two values equal each other or neither equals the other, and the order of the entries of maps
does not matter, at any depth. Equality is passed on along values whose whole numbers are no greater
than `2 ^ 53`. -/
theorem equal_structural {a b : Value} (uniqueA : a.UniqueKeys) (uniqueB : b.UniqueKeys) :
    a.equal a = true ∧ a.equal b = b.equal a ∧
      (∀ a' b', a.Rearranged a' → b.Rearranged b' → a'.equal b' = a.equal b) ∧
      ∀ c : Value, a.SmallIntegers → b.SmallIntegers → c.SmallIntegers → a.equal b = true →
        b.equal c = true → a.equal c = true := by
  refine ⟨equal_self uniqueA, equal_comm uniqueA uniqueB, ?_, ?_⟩
  · intro a' b' movedA movedB
    calc a'.equal b' = a.equal b' := movedA.equal_left b'
      _ = b'.equal a := equal_comm uniqueA (movedB.uniqueKeys uniqueB)
      _ = b.equal a := movedB.equal_left a
      _ = a.equal b := equal_comm uniqueB uniqueA
  · intro c smallA smallB smallC first second
    exact equal_trans smallA.exactNumbers smallB.exactNumbers smallC.exactNumbers first second

/-- A record with a list of settings. -/
def record (id : Number) : Value :=
  map [("id", number id), ("settings", array [map [("on", bool true), ("off", null)]])]

def turned (id : Number) : Value :=
  map [("settings", array [map [("off", null), ("on", bool true)]]), ("id", number id)]

def binaryTwo : Number :=
  .float ⟨false, 4503599627370496, 1023⟩

/-- The record and the turned one differ in the order of entries only, at two depths. -/
theorem rearranged_turned (id : Number) : (record id).Rearranged (turned id) := by
  have settings : Rearranged (array [map [("on", bool true), ("off", null)]])
      (array [map [("off", null), ("on", bool true)]]) :=
    @Rearranged.item [] [] _ _ (.entries (.swap ..))
  exact .trans (@Rearranged.field [("id", number id)] [] "settings" _ _ settings)
    (.entries (.swap ..))

/-- Turning the record and writing its number as a binary one changes nothing about its equalities. -/
theorem equal_structural_turned :
    (record (.int 2)).UniqueKeys ∧ (turned binaryTwo).UniqueKeys ∧
      (record (.int 2)).Rearranged (turned (.int 2)) ∧
      (record (.int 2)).equal (turned binaryTwo) = true ∧
      (record (.int 2)).equal (record (.int 2)) = true ∧
      (turned binaryTwo).equal (record (.int 2)) = true ∧
      (turned (.int 2)).equal (turned binaryTwo) = true ∧
      (record (.int 2)).equal (turned (.int 2)) = true := by
  have uniqueA : (record (.int 2)).UniqueKeys := by
    simp [UniqueKeys, record, parts, partsOfItems, partsOfEntries, Entries.keys]
  have uniqueB : (turned binaryTwo).UniqueKeys := by
    simp [UniqueKeys, turned, parts, partsOfItems, partsOfEntries, Entries.keys]
  have smallA : (record (.int 2)).SmallIntegers := by
    simp [SmallIntegers, record, parts, partsOfItems, partsOfEntries, int]
  have smallB : (turned binaryTwo).SmallIntegers := by
    simp [SmallIntegers, turned, parts, partsOfItems, partsOfEntries, int, binaryTwo]
  have smallC : (turned (.int 2)).SmallIntegers := by
    simp [SmallIntegers, turned, parts, partsOfItems, partsOfEntries, int]
  have first : (record (.int 2)).equal (turned binaryTwo) = true := by decide +kernel
  have second : (turned binaryTwo).equal (turned (.int 2)) = true := by decide +kernel
  have moved := rearranged_turned (.int 2)
  obtain ⟨self, symm, rearranged, trans⟩ := equal_structural uniqueA uniqueB
  exact ⟨uniqueA, uniqueB, moved, first, self, symm.symm.trans first,
    (rearranged _ _ moved (.refl _)).trans first, trans _ smallA smallB smallC first second⟩

end Value

end ToolPlan
