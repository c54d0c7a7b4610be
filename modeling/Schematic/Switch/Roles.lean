import Schematic.Component.Basic
import Schematic.Entries
/-!
The roles of a switch's pins: the common pin `C` and the two throws.

A pin whose id or name is a role's letter takes that role. What is left over is handed out in order.
-/

namespace Schematic

inductive Role
  | c
  | a
  | b
  deriving DecidableEq, Repr

namespace Role

def all : List Role := [c, a, b]

def letter : Role → String
  | c => "C"
  | a => "A"
  | b => "B"

/-- Whether a pin is labelled with a role: by its id or by its name, in any case. -/
def labels (r : Role) (p : Pin) : Bool :=
  normalTag p.id == r.letter || normalTag p.name == r.letter

end Role

/-- The positions of the pins that have taken a role. -/
abbrev Casting := Entries Role Nat

namespace Casting

def isTaken (casting : Casting) (i : Nat) : Bool :=
  casting.any (·.2 == i)

/-- Gives a role the first free pin that fits, unless it has one. -/
def fill (fits : Pin → Bool) (pins : List Pin) (casting : Casting) (r : Role) : Casting :=
  if (casting.get? r).isSome then casting
  else
    match pins.zipIdx.find? fun (p, i) => !casting.isTaken i && fits p with
    | some (_, i) => casting.put r i
    | none => casting

/-- Labelled pins first, then the pins in order. -/
def ofPins (pins : List Pin) : Casting :=
  let labelled := Role.all.foldl (fun casting r => fill r.labels pins casting r) []
  Role.all.foldl (fill (fun _ => true) pins) labelled

end Casting

structure Roles where
  c : Pin
  a : Pin
  b : Pin

namespace Roles

def pin (r : Roles) : Role → Pin
  | .c => r.c
  | .a => r.a
  | .b => r.b

/-- The roles of a list of pins, which must have a pin for each of them. -/
def ofPins? (pins : List Pin) : Option Roles := do
  if pins.length < Role.all.length then none
  let casting := Casting.ofPins pins
  let pinOf := fun r => (casting.get? r).bind fun i => pins[i]?
  return ⟨← pinOf .c, ← pinOf .a, ← pinOf .b⟩

end Roles

end Schematic
