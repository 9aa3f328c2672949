import ToolPlan.Entries
import ToolPlan.Toml

/-!
Tables put together from the lines of a document. A key is given once, a table is defined once, and
what is closed takes no more entries: values in braces never, a table with a header none by dotted
keys from outside.
-/

namespace ToolPlan.Toml

/-- The entries of a table while it is put together. -/
abbrev Fields := Entries Toml

/-- Whether a table may be entered on the way to a deeper one. A dotted key goes only through tables
that have no header of their own. -/
def mayEnter (dotted : Bool) : TableOrigin → Bool
  | .inline => false
  | .header => !dotted
  | .implied => true
  | .dotted => true

/-- The last item of a list changed by a function. -/
def changeLast (change : Toml → Option Toml) : List Toml → Option (List Toml)
  | [] => none
  | [item] => (change item).map ([·])
  | item :: items => (changeLast change items).map (item :: ·)

/-- Changes the table at the end of a path, which starts in the given table. Tables on the way are
made as needed; the way into a list of tables leads to its last one. -/
def changeAt (dotted : Bool) (change : TableOrigin → Fields → Option Fields) :
    List String → TableOrigin → Fields → Option Fields
  | [], origin, fields => change origin fields
  | key :: path, _, fields =>
    let enter : Toml → Option Toml
      | .table origin inside => (changeAt dotted change path origin inside).map (.table origin)
      | _ => none
    match fields.get? key with
    | none =>
      let made := if dotted then TableOrigin.dotted else .implied
      (enter (.table made [])).map (fields.insert key)
    | some (.table origin inside) =>
      if mayEnter dotted origin then (enter (.table origin inside)).map (fields.insert key) else none
    | some (.tables items) =>
      (changeLast enter items).map fun changed => fields.insert key (.tables changed)
    | some _ => none

/-- Adds a key that is not there yet. A key with dots adds to a table made by such keys, and a plain
key to any other. -/
def addKey (plain : Bool) (key : String) (value : Toml) (origin : TableOrigin) (fields : Fields) :
    Option Fields :=
  if (origin == .dotted) == plain || fields.contains key then none
  else some (fields.insert key value)

/-- Adds the value of a key with dots, or of one without. -/
def addValue (path : List String) (value : Toml) (origin : TableOrigin) (fields : Fields) :
    Option Fields :=
  match path.getLast? with
  | none => none
  | some key => changeAt true (addKey (path.length = 1) key value) path.dropLast origin fields

/-! ### Documents -/

/-- The table that lines add to: where it belongs, whether as an item of a list, and its entries. -/
structure Current where
  path : List String := []
  isItem : Bool := false
  fields : Fields := []

/-- A document while it is read: its finished part, and the table that is open. -/
structure Draft where
  root : Fields := []
  current : Current := {}

namespace Draft

/-- Puts the open table where it belongs. The first one is the document itself. -/
def close (draft : Draft) : Option Fields :=
  let table := Toml.table .header draft.current.fields
  match draft.current.path.getLast? with
  | none => some draft.current.fields
  | some key =>
    let put : TableOrigin → Fields → Option Fields := fun _ fields =>
      match fields.get? key with
      | none =>
        some (fields.insert key (if draft.current.isItem then .tables [table] else table))
      | some (.tables items) =>
        if draft.current.isItem then some (fields.insert key (.tables (items ++ [table]))) else none
      | some _ => none
    changeAt false put draft.current.path.dropLast .header draft.root

/-- The entries without those of a table that was only implied, which its own header takes over.
Anything else under the key forbids the header. -/
def withoutImplied (key : String) (fields : Fields) : Option Fields :=
  match fields.get? key with
  | none => some fields
  | some (.table .implied _) => some (fields.filter (·.1 ≠ key))
  | some _ => none

/-- The table at the end of a path that headers lead along, if all of it is there. -/
def lookup : List String → Fields → Option Fields
  | [], fields => some fields
  | key :: path, fields =>
    match fields.get? key with
    | some (.table _ inside) => lookup path inside
    | some (.tables items) =>
      match items.getLast? with
      | some (.table _ inside) => lookup path inside
      | _ => none
    | _ => none

/-- Opens the table of a header, with the entries it has by implication. -/
def openTable (path : List String) (root : Fields) : Option Draft := do
  let key ← path.getLast?
  let inherited := (lookup path root).getD []
  let root ← changeAt false (fun _ => withoutImplied key) path.dropLast .header root
  return { root, current := { path, fields := inherited } }

def openItem (path : List String) (root : Fields) : Option Draft := do
  let key ← path.getLast?
  let admits : TableOrigin → Fields → Option Fields := fun _ fields =>
    match fields.get? key with
    | none => some fields
    | some (.tables _) => some fields
    | some _ => none
  let root ← changeAt false admits path.dropLast .header root
  return { root, current := { path, isItem := true } }

def addLine (draft : Draft) : Line → Option Draft
  | .keyValue path value => do
    let fields ← addValue path value .header draft.current.fields
    return { draft with current := { draft.current with fields } }
  | .header path => draft.close >>= openTable path
  | .arrayHeader path => draft.close >>= openItem path

end Draft

/-- The table that the lines of a document make. -/
def ofLines (lines : List Line) : Option Fields := do
  let draft ← lines.foldlM Draft.addLine {}
  draft.close

end ToolPlan.Toml
