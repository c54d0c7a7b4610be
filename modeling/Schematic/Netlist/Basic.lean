import Schematic.Netlist.Element
import Schematic.Text.Lines
/-!
Netlists: a header, the elements of the components in drawing order, and an end line. A map of the
lines says what each stands for.
-/

namespace Schematic

namespace Netlist

inductive Line
  | directive (text : String)
  | element (component : Value) (type : String) (e : Element)

def Line.text : Line → String
  | directive text => text
  | element _ _ e => e.text

/-- The first element of a component, with the tag of the component. -/
structure Primary where
  type : String
  element : Element

def header (title : String) : Line :=
  .directive ("* " ++ if title = "" then "schematic" else title)

def footer : Line :=
  .directive ".end"

end Netlist

/-- The lines of a netlist, and the map of them, which numbers each as it is pushed. -/
structure Netlist where
  lines : List Netlist.Line
  lineMap : List (Nat × Netlist.Line)
  primaries : Entries Value Netlist.Primary
  errors : List ElementError
  ids : Allocator
  numbered : lineMap = lines.mapIdx fun i l => (i + 1, l)

namespace Netlist

def empty : Netlist := ⟨[], [], [], [], .empty, rfl⟩

def push (n : Netlist) (l : Line) : Netlist :=
  { n with
    lines := n.lines ++ [l]
    lineMap := n.lineMap ++ [(n.lines.length + 1, l)]
    numbered := by rw [n.numbered, List.mapIdx_concat] }

@[simp] theorem lines_push (n : Netlist) (l : Line) : (n.push l).lines = n.lines ++ [l] := rfl

@[simp] theorem lineMap_push (n : Netlist) (l : Line) :
    (n.push l).lineMap = n.lineMap ++ [(n.lines.length + 1, l)] := rfl

def addElement (n : Netlist) (c : Component) (primary : Bool) (e : Element) : Netlist :=
  let (id, ids) := n.ids.allocate (.text e.id)
  let e := { e with id }
  { n.push (.element c.id c.tag e) with
    ids
    primaries := if primary then n.primaries.put c.id ⟨c.tag, e⟩ else n.primaries }

def addElements (n : Netlist) (c : Component) : List Element → Netlist
  | [] => n
  | e :: es => es.foldl (fun n e => n.addElement c false e) (n.addElement c true e)

def addComponent (nets : PinNets) (read : SwitchReader) (n : Netlist) (c : Component) :
    Except Fault Netlist := do
  match ← c.elements nets read with
  | .ok es => return n.addElements c es
  | .error e => return { n with errors := n.errors ++ [e] }

def extend (nets : PinNets) (read : SwitchReader) (components : List Component) (title : String)
    (n : Netlist) : Except Fault Netlist :=
  return (← components.foldlM (addComponent nets read) (n.push (header title))).push footer

def ofComponents (nets : PinNets) (read : SwitchReader) (components : List Component)
    (title : String) : Except Fault Netlist :=
  extend nets read components title empty

def text (n : Netlist) : String :=
  Text.joinLines (n.lines.map Line.text)

def errorMessages (n : Netlist) : List String :=
  n.errors.map ElementError.message

end Netlist

end Schematic
