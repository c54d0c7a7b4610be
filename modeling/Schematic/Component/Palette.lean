import Schematic.Text.Blank
import Schematic.Text.Case
import Schematic.Value
/-!
The colours in which a named node may tint its net.
-/

namespace Schematic.Palette

def colors : List String :=
  ["#1d1d1f", "#808080", "#4d8bff", "#0043ce", "#104b22", "#24a148", "#007d79", "#139c9c",
    "#f1c21b", "#ff832b", "#8f4b00", "#da1e28", "#8a151b", "#ff7eb6", "#8a3ffc", "#5722a1"]

/-- The palette colour that a value names, in any case and with blanks around it. -/
def color? : Value → Option String
  | .text s =>
    let c := Text.lower (Text.trim s)
    if c ∈ colors then some c else none
  | _ => none

theorem color?_mem {v : Value} {c : String} (h : color? v = some c) : c ∈ colors := by
  cases v <;> simp [color?] at h
  obtain ⟨hm, rfl⟩ := h
  exact hm

end Schematic.Palette
