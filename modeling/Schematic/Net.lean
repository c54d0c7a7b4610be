import Schematic.Point
import Schematic.Sorting
/-!
Nets: junctions and pins at one potential.
-/

namespace Schematic

structure Terminal where
  component : String
  pin : String
  name : String
  place : Point
  deriving DecidableEq, Inhabited

namespace Terminal

def key (t : Terminal) : String × String :=
  (t.component, t.pin)

def title (t : Terminal) : String :=
  if t.name = "" then t.pin else t.name

end Terminal

structure Net (ν : Type) where
  id : String
  nodes : List ν
  terminals : List Terminal
  deriving Inhabited

namespace Net

variable {ν : Type}

/-- The first node of a net; a net without nodes lies at the given origin. -/
def anchor (origin : ν) (n : Net ν) : ν :=
  n.nodes.headD origin

def componentIds (n : Net ν) : List String :=
  n.terminals.foldl (fun ids t => if t.component ∈ ids then ids else ids ++ [t.component]) []

def isEmpty (n : Net ν) : Bool :=
  n.terminals.isEmpty

def summary (n : Net ν) : String :=
  "NetData(" ++ n.id ++ ", nodes=" ++ Value.intText n.nodes.length ++ ", pins="
    ++ Value.intText n.terminals.length ++ ")"

/-- Nets in drawing order of their anchors; nets of one anchor keep their order. -/
def sorted (nets : List (Net Point)) : List (Net Point) :=
  nets.mergeSort fun a b => (a.anchor .origin).le (b.anchor .origin)

def sortKey (n : Net Value) : Except Fault (List Value) := do
  match ← (n.anchor Point.origin.toValue).items with
  | x :: y :: _ => return [y, x]
  | _ => throw .badIndex

/-- Drawing order for nets whose nodes may not be comparable, or not be ordered. -/
def sortedValues (nets : List (Net Value)) : Except Fault (List (Net Value)) := do
  let keyed ← nets.mapM fun n => return (Value.list (← n.sortKey), n)
  return (← Sorting.sort (fun a b => a.1.lt b.1) keyed).map (·.2)

end Net

end Schematic
