import ToolPlan.Resolve

/-!
The names that values and conditions depend on. An expression looks up its variables and its bare
words, and nothing else: under variables that agree on these names it has the same value
(`Expr.resolve_congr`), and a condition is as true (`Condition.holds_congr`).
-/

namespace ToolPlan

mutual

def Expr.names : Expr → List String
  | .bare word => [word]
  | .var name _ => [name]
  | .array items => namesOfItems items
  | .map entries => namesOfEntries entries
  | .number _ => []
  | .bool _ => []
  | .null => []
  | .string _ => []

def Expr.namesOfItems : List Expr → List String
  | [] => []
  | item :: items => item.names ++ namesOfItems items

def Expr.namesOfEntries : List (String × Expr) → List String
  | [] => []
  | (_, value) :: entries => value.names ++ namesOfEntries entries

end

def Condition.names : Condition → List String
  | .not inner => inner.names
  | .and left right => left.names ++ right.names
  | .or left right => left.names ++ right.names
  | .compare _ left right => left.names ++ right.names

variable {vars others : Bindings}

namespace Expr

mutual

/-- A value resolves to the same under variables that agree on the names it mentions. -/
theorem resolve_congr : ∀ {value : Expr},
    (∀ name ∈ value.names, Entries.get? vars name = Entries.get? others name) →
    value.resolve vars = value.resolve others
  | .bare word, same => by
    rw [names, List.forall_mem_singleton] at same
    rw [resolve, resolve]
    unfold Bindings.resolveBare
    rw [same]
  | .var name path, same => by
    rw [names, List.forall_mem_singleton] at same
    rw [resolve, resolve, Bindings.resolveVar, Bindings.resolveVar, same]
  | .array items, same => by
    rw [names] at same
    rw [resolve, resolve, resolveItems_congr same]
  | .map entries, same => by
    rw [names] at same
    rw [resolve, resolve, resolveEntries_congr same]
  | .number _, _ => by rw [resolve, resolve]
  | .bool _, _ => by rw [resolve, resolve]
  | .null, _ => by rw [resolve, resolve]
  | .string _, _ => by rw [resolve, resolve]

theorem resolveItems_congr : ∀ {items : List Expr},
    (∀ name ∈ namesOfItems items, Entries.get? vars name = Entries.get? others name) →
    resolveItems vars items = resolveItems others items
  | [], _ => by rw [resolveItems, resolveItems]
  | item :: items, same => by
    rw [namesOfItems, List.forall_mem_append] at same
    rw [resolveItems, resolveItems, resolve_congr same.1, resolveItems_congr same.2]

theorem resolveEntries_congr : ∀ {entries : List (String × Expr)},
    (∀ name ∈ namesOfEntries entries, Entries.get? vars name = Entries.get? others name) →
    resolveEntries vars entries = resolveEntries others entries
  | [], _ => by rw [resolveEntries, resolveEntries]
  | (key, value) :: entries, same => by
    rw [namesOfEntries, List.forall_mem_append] at same
    rw [resolveEntries, resolveEntries, resolve_congr same.1, resolveEntries_congr same.2]

end

end Expr

/-- A condition holds under the same variables, as it resolves its values and nothing else. -/
theorem Condition.holds_congr {condition : Condition}
    (same : ∀ name ∈ condition.names, Entries.get? vars name = Entries.get? others name) :
    condition.holds vars = condition.holds others := by
  induction condition with
  | not inner ih => rw [holds, holds, ih same]
  | and left right ihLeft ihRight =>
    obtain ⟨sameLeft, sameRight⟩ := List.forall_mem_append.mp same
    rw [holds, holds, ihLeft sameLeft, ihRight sameRight]
  | or left right ihLeft ihRight =>
    obtain ⟨sameLeft, sameRight⟩ := List.forall_mem_append.mp same
    rw [holds, holds, ihLeft sameLeft, ihRight sameRight]
  | compare op left right =>
    obtain ⟨sameLeft, sameRight⟩ := List.forall_mem_append.mp same
    rw [holds, holds, Expr.resolve_congr sameLeft, Expr.resolve_congr sameRight]

end ToolPlan
