import ToolPlan.Run.Budget
import ToolPlan.Toml.Document

/-!
Options from a file. They stand at the top of the document, or under the key `execution`, which then
counts alone; but what stands at the top has to be of the right type even so. Unknown keys are
passed over.
-/

namespace ToolPlan.Options

/-- The default of every field. -/
def default : Options := {}

/-- A number of steps: a whole number of 32 bits. -/
def steps? : Toml → Option Nat
  | .integer value => if 0 ≤ value && value ≤ 0xffffffff then some value.toNat else none
  | _ => none

/-- A number of milliseconds: a whole number that is not negative. -/
def millis? : Toml → Option Nat
  | .integer value => if 0 ≤ value then some value.toNat else none
  | _ => none

def flag? : Toml → Option Bool
  | .boolean value => some value
  | _ => none

/-- A field read by its type, or its default where it is left out. -/
def fieldOr {α : Type} (read : Toml → Option α) (fallback : α) : Option Toml → Option α
  | none => some fallback
  | some value => read value

/-- Options from their three fields, each of which may be left out. -/
def ofFields (steps millis dry : Option Toml) : Option Options := do
  let maxSteps ← fieldOr steps? default.maxSteps steps
  let deadlineMs ← fieldOr (fun value => (millis? value).map some) default.deadlineMs millis
  let dryRun ← fieldOr flag? default.dryRun dry
  return { maxSteps, deadlineMs, dryRun }

def ofTable (fields : Toml.Fields) : Option Options :=
  ofFields (fields.get? "max_steps") (fields.get? "deadline_ms") (fields.get? "dry_run")

/-- The fields by their place in a list; more items do not matter. -/
def ofItems (items : List Toml) : Option Options :=
  ofFields items[0]? items[1]? items[2]?

/-- What may stand under the key `execution`: a table, or a list of the fields in order. A date has
parts but none of these fields. -/
def ofValue : Toml → Option Options
  | .table _ entries => ofTable entries
  | .array items => ofItems items
  | .tables items => ofItems items
  | .datetime => some default
  | _ => none

def ofDocument (fields : Toml.Fields) : Option Options := do
  let top ← ofTable fields
  match fields.get? "execution" with
  | none => return top
  | some nested => ofValue nested

/-- The options of a text. Options that allow no step are refused. -/
def parse (text : String) : Except OptionsError Options :=
  match (Toml.parse? text).bind ofDocument with
  | none => .error .malformed
  | some options => options.validate.map fun _ => options

end ToolPlan.Options
