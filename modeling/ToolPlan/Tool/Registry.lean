import ToolPlan.Text.Quoted
import ToolPlan.Tool

/-!
Registries: the tools a run may use, by name. Names are listed in the order of their code points.
-/

namespace ToolPlan

abbrev Registry (σ : Type) := Entries (Tool σ)

namespace Registry

variable {σ : Type}

/-- One tool for each name, which always gives the same value. -/
def ofFixtures (fixtures : Entries Value) : Registry σ :=
  fixtures.map fun (name, value) => (name, Tool.fixture value)

def names (registry : Registry σ) : List String :=
  (Entries.keys registry).mergeSort fun a b => !(b < a)

/-- Those of the given names that have no tool, in the given order. -/
def missing (registry : Registry σ) (required : List String) : List String :=
  required.filter fun name => !Entries.contains registry name

/-- A registry in one line, by its names. -/
def describe (registry : Registry σ) : String :=
  "CapabilityRegistry ".push '{' ++ " capabilities: ["
    ++ ", ".intercalate (registry.names.map Text.quoted) ++ "] ".push '}'

end Registry

end ToolPlan
