/-!
Texts for a terminal. A control character that starts or is a command to a terminal is spelled out,
so a text that comes from a plan cannot act on the terminal of its reader; everything else, line ends
and tabs among it, stays.
-/

namespace ToolPlan.Text

/-- The ASCII characters that a terminal acts on: bell, backspace, form feed, escape and delete. -/
def terminalControls : List Nat := [0x07, 0x08, 0x0C, 0x1B, 0x7F]

def hexPair (code : Nat) : List Char :=
  [Nat.digitChar (code / 16), Nat.digitChar (code % 16)]

/-- One character as a terminal may have it. The controls from 0x80 to 0x9F are written with braces. -/
def spellControl (c : Char) : String :=
  if terminalControls.contains c.toNat then "\\x" ++ String.ofList (hexPair c.toNat)
  else if 0x80 ≤ c.toNat && c.toNat ≤ 0x9F then
    ("\\u".push '{' ++ String.ofList (hexPair c.toNat)).push '}'
  else c.toString

/-- A printable ASCII character stays. -/
theorem spellControl_printable {c : Char} (low : 32 ≤ c.toNat) (high : c.toNat < 127) :
    spellControl c = c.toString := by
  have plain : c.toNat ∉ terminalControls := by simp only [terminalControls]; grind
  have ascii : ¬ 0x80 ≤ c.toNat := by omega
  simp [spellControl, plain, ascii]

def spellControls (text : String) : String :=
  String.join (text.toList.map spellControl)

end ToolPlan.Text
