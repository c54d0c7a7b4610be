import Schematic.Point
/-!
Wires: polylines without terminals of their own.
-/

namespace Schematic

/-- A wire. Its points are whatever its document gave; a tidied wire has rounded points only. -/
structure Wire where
  id : Value
  points : List Value
  deriving Inhabited

namespace Wire

/-- The two coordinates that a document gives for a point, `none` for anything but a record or a
list of two. -/
def pointOfValue? : Value → Option Value
  | .record fields =>
    some (.list [(fields.lookup "x").getD .null, (fields.lookup "y").getD .null])
  | .list [x, y] => some (.list [x, y])
  | _ => none

def ofValue (v : Value) : Except Fault Wire := do
  let points ← ((← v.field "points").orElse (.list [])).items
  return ⟨.text (← v.fieldOr "id" (.text "")).shown, points.filterMap pointOfValue?⟩

def toValue (w : Wire) : Except Fault Value := do
  let points ← w.points.mapM fun p => do
    let (x, y) ← p.pair
    return Value.record [("x", x), ("y", y)]
  return .record [("id", w.id), ("points", .list points)]

def segments (w : Wire) : List (Value × Value) :=
  w.points.zip w.points.tail

/-- The places of the points, in order; `none` stands for a point that lies nowhere. -/
def trace (w : Wire) : Except Fault (List (Option Point)) :=
  w.points.mapM Point.ofValue

/-- The form in which a drawing keeps a wire: points that lie nowhere are dropped. -/
def tidy (w : Wire) : Except Fault Wire := do
  let places ← w.trace
  return ⟨.text w.id.content, places.filterMap fun place => place.map Point.toValue⟩

def summary (w : Wire) : String :=
  "WireData(" ++ w.id.literal ++ ", points=" ++ Value.intText w.points.length ++ ")"

end Wire

end Schematic
