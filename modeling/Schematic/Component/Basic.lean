import Schematic.Component.Kind
import Schematic.Component.Palette
import Schematic.Point
/-!
Components and their pins.

A field holds whatever its document gave. `Component.tidy` gives the form in which an edited
drawing keeps a component: texts for the names, rounded numbers for the places.
-/

namespace Schematic

structure Pin where
  id : Value
  name : Value
  x : Value
  y : Value
  deriving Inhabited

namespace Pin

/-- A pin; one without a name goes by its id. -/
def named (id name x y : Value) : Pin :=
  ⟨id, name.orElse id, x, y⟩

def ofValue (v : Value) : Except Fault Pin := do
  let id := (← v.fieldOr "id" (.text "")).shown
  let name := ((← v.field "name").orElse (.text id)).shown
  return named (.text id) (.text name) (← v.fieldOr "x" (.float .zero)) (← v.fieldOr "y" (.float .zero))

def toValue (p : Pin) : Value :=
  .record [("id", p.id), ("name", p.name), ("x", p.x), ("y", p.y)]

def place (p : Pin) : Except Fault (Option Point) :=
  Point.ofCoordinates p.x p.y

def title (p : Pin) : String :=
  ((p.name.orElse p.id).orElse (.text "")).shown

/-- A pin with rounded coordinates; one that lies nowhere is put at the origin. -/
def tidy (p : Pin) : Except Fault Pin := do
  let place := (← p.place).getD .origin
  return named (.text p.id.content) (.text p.title) (.float place.x) (.float place.y)

end Pin

structure Component where
  id : Value
  type : Value
  value : Value
  pins : List Pin
  /-- Null stands for "goes by its id". -/
  name : Value
  netColor : Value
  deriving Inhabited

namespace Component

def kind? (c : Component) : Option Kind :=
  Kind.ofValue? c.type

def tag (c : Component) : String :=
  normalTag c.type

def isElectrical (c : Component) : Bool :=
  isElectricalTag c.type

/-- The label of a named node: its name, or its id when it has none, without outer blanks. -/
def label (c : Component) : String :=
  Text.trim (match c.name with
    | .null => c.id.content
    | name => name.content)

def pin? (c : Component) (id : Value) : Option Pin :=
  c.pins.find? (·.id.same id)

def ofValue (v : Value) : Except Fault Component := do
  let id := (← v.fieldOr "id" (.text "")).shown
  let type := (← v.fieldOr "type" (.text "")).shown
  let value := ((← v.field "value").orElse (.text "")).shown
  let pins ← (← ((← v.field "pins").orElse (.list [])).items).mapM Pin.ofValue
  let name := match ← v.field "name" with
    | .null => .null
    | name => .text name.shown
  let netColor ← v.fieldOr "netColor" (← v.field "net_color")
  return ⟨.text id, .text type, .text value, pins, name, netColor⟩

def toValue (c : Component) : Value :=
  .record ([("id", c.id), ("type", c.type), ("value", c.value),
      ("pins", .list (c.pins.map Pin.toValue))]
    ++ (match c.name with
      | .null => []
      | name => [("name", name)])
    ++ (if c.netColor.given then [("netColor", c.netColor)] else []))

/-- The form in which a drawing keeps a component. A colour that is not in the palette is dropped. -/
def tidy (c : Component) : Except Fault Component := do
  let pins ← c.pins.mapM Pin.tidy
  return {
    id := .text c.id.content
    type := .text c.type.content
    value := .text (if c.value.given then c.value.shown else "")
    pins
    name := match c.name with
      | .null => .null
      | name => .text name.shown
    netColor := match Palette.color? c.netColor with
      | some color => .text color
      | none => .null }

def summary (c : Component) : String :=
  "ComponentData(id=" ++ c.id.literal ++ ", type=" ++ c.type.literal ++ ", value="
    ++ c.value.literal ++ ", pins=" ++ Value.intText c.pins.length ++ ")"

end Component

/-- A coordinate moved by a whole number: integers stay integers. -/
def Value.moved (v : Value) (d : Int) : Except Fault Value :=
  match v with
  | .bool b => .ok (.int ((if b then 1 else 0) + d))
  | .int n => .ok (.int (n + d))
  | .float x => return .float (x + (← (Value.int d).arithmetic))
  | _ => .error .wrongKind

/-- The pins of a new component at an origin. A tag of no known kind has two pins in a row. -/
def defaultPins (type origin : Value) : Except Fault (List Pin) := do
  let layout := ((Kind.ofValue? type).getD .resistor).layout
  let (x, y) ← origin.pair
  layout.mapM fun (id, dx, dy) => return Pin.named (.text id) (.text id) (← x.moved dx) (← y.moved dy)

end Schematic
