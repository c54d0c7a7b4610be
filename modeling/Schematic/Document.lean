import Schematic.Drawing
/-!
The structure that a schematic document must have before it is loaded.
-/

namespace Schematic.Document

/-- What is wrong with a document. Components, pins, wires and points count from one. -/
inductive Error
  | notAnObject
  | noComponents
  | noWires
  | componentNotAnObject (component : Nat)
  | missingField (component : Nat) (field : String)
  | pinsNotAList (component : Value)
  | pinWithoutId (pin : Nat) (component : Value)
  | pinNotPlaced (pin component : Value)
  | wireNotAnObject (wire : Nat)
  | pointsNotAList (wire : Nat)
  | badPoint (point wire : Nat)

def count (n : Nat) : String :=
  Value.intText n

def Error.message : Error → String
  | notAnObject => "File does not contain a valid schematic object."
  | noComponents => "Missing or invalid 'components' list."
  | noWires => "Missing or invalid 'wires' list."
  | componentNotAnObject i => s!"Component #{count i} is not an object."
  | missingField i field => s!"Component #{count i} is missing required field '{field}'."
  | pinsNotAList id => s!"Component '{id.shown}' has an invalid 'pins' list."
  | pinWithoutId j id => s!"Pin #{count j} of component '{id.shown}' is missing its 'id'."
  | pinNotPlaced pin id => s!"Pin '{pin.shown}' of component '{id.shown}' must have numeric x and y."
  | wireNotAnObject i => s!"Wire #{count i} is not an object."
  | pointsNotAList i => s!"Wire #{count i} has an invalid 'points' list."
  | badPoint j i =>
    s!"Point #{count j} of wire #{count i} must be an \x7bx, y\x7d object or an [x, y] pair."

def isNumber : Option Value → Bool
  | some (.bool _) | some (.int _) | some (.float _) => true
  | _ => false

def checkEach (check : Nat → Value → Except Error Unit) (start : Nat) :
    List Value → Except Error Unit
  | [] => .ok ()
  | v :: vs => do
    check start v
    checkEach check (start + 1) vs

def checkPin (component : Value) (j : Nat) : Value → Except Error Unit
  | .record fields =>
    match fields.lookup "id" with
    | none => .error (.pinWithoutId j component)
    | some id =>
      if isNumber (fields.lookup "x") && isNumber (fields.lookup "y") then .ok ()
      else .error (.pinNotPlaced id component)
  | _ => .error (.pinWithoutId j component)

def checkComponent (i : Nat) : Value → Except Error Unit
  | .record fields =>
    match fields.lookup "id", fields.lookup "type" with
    | none, _ => .error (.missingField i "id")
    | some _, none => .error (.missingField i "type")
    | some id, some _ =>
      match fields.lookup "pins" with
      | none => .ok ()
      | some (.list pins) => checkEach (checkPin id) 1 pins
      | some _ => .error (.pinsNotAList id)
  | _ => .error (.componentNotAnObject i)

def isPoint : Value → Bool
  | .record fields => (fields.lookup "x").isSome && (fields.lookup "y").isSome
  | .list [_, _] => true
  | _ => false

def checkWire (i : Nat) : Value → Except Error Unit
  | .record fields =>
    match fields.lookup "points" with
    | none => .ok ()
    | some (.list points) =>
      checkEach (fun j p => if isPoint p then .ok () else .error (.badPoint j i)) 1 points
    | some _ => .error (.pointsNotAList i)
  | _ => .error (.wireNotAnObject i)

/-- Checks the structure of a document, reporting the first thing that is wrong. -/
def check : Value → Except Error Unit
  | .record fields =>
    match fields.lookup "components", fields.lookup "wires" with
    | some (.list components), some (.list wires) => do
      checkEach checkComponent 1 components
      checkEach checkWire 1 wires
    | some (.list _), _ => .error .noWires
    | _, _ => .error .noComponents
  | _ => .error .notAnObject

end Schematic.Document
