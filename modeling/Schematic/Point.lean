import Schematic.Value
import Schematic.Number.Reading
/-!
Points of a drawing, rounded to a fixed grid so that two ends drawn at one place are equal.
-/

namespace Schematic

namespace Binary64

def gridSteps : Binary64 := lit 1 6

def half : Binary64 := lit 5 (-1)

/-- Rounds to the grid, a half going up. -/
def roundCoord (x : Binary64) : Except Fault Binary64 :=
  (x * gridSteps + half).floor?.elim (.error (if x.isNaN then .floorOfNaN else .overflow))
    fun steps => (ofInt? steps).elim (.error .overflow) fun n => .ok (n / gridSteps)

end Binary64

/-- The finite number that a value gives as a coordinate; texts are read as numbers. -/
def Value.coordinate : Value → Except Fault (Option Binary64)
  | .text s =>
    match Text.number? s with
    | some x => .ok (if x.isFinite then some x else none)
    | none => .ok none
  | .float x => .ok (if x.isFinite then some x else none)
  | .bool b => .ok (some (if b then .lit 1 0 else .zero))
  | .int n => (Binary64.ofInt? n).elim (.error .overflow) fun x => .ok (some x)
  | _ => .ok none

structure Point where
  x : Binary64
  y : Binary64
  deriving DecidableEq, Inhabited

namespace Point

def origin : Point := ⟨.zero, .zero⟩

def rounded (x y : Binary64) : Except Fault Point :=
  return ⟨← x.roundCoord, ← y.roundCoord⟩

/-- The point at two given coordinates, `none` when one of them is missing or not finite. -/
def ofCoordinates (x y : Value) : Except Fault (Option Point) := do
  let x ← x.coordinate
  let y ← y.coordinate
  match x, y with
  | some x, some y => return some (← rounded x y)
  | _, _ => return none

/-- The point that a value describes: the fields `x` and `y` of a record, or the first two elements
of a list or a text. -/
def ofValue : Value → Except Fault (Option Point)
  | .record fields => ofCoordinates ((fields.lookup "x").getD .null) ((fields.lookup "y").getD .null)
  | .list (x :: y :: _) => ofCoordinates x y
  | .text s =>
    match s.toList with
    | x :: y :: _ => ofCoordinates (.text (String.singleton x)) (.text (String.singleton y))
    | _ => .ok none
  | _ => .ok none

/-- The form in which points are looked up; it has no negative zero. -/
def key (p : Point) : Point :=
  ⟨p.x + .zero, p.y + .zero⟩

def coincides (p q : Point) : Bool :=
  p.x.equal q.x && p.y.equal q.y

/-- Drawing order: `y` before `x`. -/
def le (p q : Point) : Bool :=
  if p.y.equal q.y then p.x.le q.x else p.y.le q.y

def keyOfValue (v : Value) : Except Fault Point := do
  match ← v.items with
  | [] => throw .badIndex
  | x :: rest =>
    let x ← x.arithmetic
    match rest with
    | [] => throw .badIndex
    | y :: _ => return key ⟨x, ← y.arithmetic⟩

def toValue (p : Point) : Value :=
  .list [.float p.x, .float p.y]

end Point

end Schematic
