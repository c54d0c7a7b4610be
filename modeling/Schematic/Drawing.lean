import Schematic.Component.Basic
import Schematic.Wire
import Schematic.Entries
/-!
Drawings: the components and the wires of one schematic, in the order in which they were added.
-/

namespace Schematic

structure Drawing where
  components : List Component
  wires : List Wire
  deriving Inhabited

namespace Drawing

def empty : Drawing := ⟨[], []⟩

def addComponent (d : Drawing) (c : Component) : Except Fault Drawing :=
  return { d with components := d.components ++ [← c.tidy] }

def addWire (d : Drawing) (w : Wire) : Except Fault Drawing :=
  return { d with wires := d.wires ++ [← w.tidy] }

def removeComponent (d : Drawing) (id : Value) : Drawing :=
  { d with components := d.components.filter fun c => !c.id.same id }

def removeWire (d : Drawing) (id : Value) : Drawing :=
  { d with wires := d.wires.filter fun w => !w.id.same id }

def component? (d : Drawing) (id : Value) : Option Component :=
  d.components.find? (·.id.same id)

/-- Ids serve as keys; a list or a record cannot. -/
def checkIds (d : Drawing) : Except Fault Unit :=
  if d.components.all (·.id.isKey) then .ok () else .error .wrongKind

/-- Components by id; a later one of the same id shadows an earlier one. -/
def roster (d : Drawing) : Except Fault (Entries Value Component) := do
  d.checkIds
  return d.components.foldl (fun es c => Entries.put es c.id c) []

/-- The component that an id text refers to: the last one of that id. -/
def named? (d : Drawing) (id : String) : Option Component :=
  d.components.reverse.find? (·.id.same (.text id))

def toValue (d : Drawing) : Except Fault Value := do
  return .record [("components", .list (d.components.map Component.toValue)),
    ("wires", .list (← d.wires.mapM Wire.toValue))]

def ofValue (v : Value) : Except Fault Drawing := do
  let components ← (← v.fieldOr "components" (.list [])).items
  let d ← components.foldlM (fun d v => do d.addComponent (← Component.ofValue v)) empty
  let wires ← (← v.fieldOr "wires" (.list [])).items
  wires.foldlM (fun d v => do d.addWire (← Wire.ofValue v)) d

end Drawing

end Schematic
