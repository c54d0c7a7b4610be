import Schematic.Naming
/-!
Colours of wires and named nodes.

Nets that carry a label in common are one group. The first palette colour given to a named node of
a group tints all its wires and named nodes.
-/

namespace Schematic

structure Colouring where
  wires : Entries Value String
  nodes : Entries String String

namespace Colouring

variable {ν : Type}

/-- The position of the net at each point; a later net shadows an earlier one. -/
def pointIndex (places : List (List (Option Point))) : List (Point × Nat) :=
  (places.mapIdx fun i ps => ps.filterMap fun p => p.map fun p => (p.key, i)).flatten.reverse

def netAt? (index : List (Point × Nat)) (p : Point) : Option Nat :=
  (index.find? fun e => e.1.coincides p.key).map (·.2)

def labelKeys (d : Drawing) (n : Net ν) : List String :=
  (Label.distinct (d.labels n)).map (·.key)

def joinKey (position : Nat) (state : DisjointSets × Entries String Nat) (key : String) :
    DisjointSets × Entries String Nat :=
  match state.2.get? key with
  | none => (state.1, state.2.put key position)
  | some owner => ((state.1.union position owner).2, state.2)

def groups (d : Drawing) (nets : List (Net ν)) : DisjointSets :=
  ((nets.mapIdx fun i n => (i, labelKeys d n)).foldl
    (fun state e => e.2.foldl (joinKey e.1) state) (DisjointSets.ofSize nets.length, [])).1

def given? (index : List (Point × Nat)) (c : Component) : Except Fault (Option (Nat × String)) :=
  if c.kind? != some .net then return none
  else
    match Palette.color? c.netColor, c.pins with
    | some color, p :: _ => do
      match ← p.place with
      | some place => return (netAt? index place).map fun i => (i, color)
      | none => return none
    | _, _ => return none

/-- The colours by representative; the first one given stays. -/
def byGroup (groups : DisjointSets) (given : List (Nat × String)) : Entries Nat String :=
  given.foldl (fun es e => Entries.putNew es (groups.find e.1).1 e.2) []

def colorOf? (groups : DisjointSets) (colors : Entries Nat String) (position : Nat) :
    Option String :=
  colors.get? (groups.find position).1

/-- The colour of the first point of a wire that lies on a coloured net. -/
def wireColor? (color? : Point → Option String) : List Value → Except Fault (Option String)
  | [] => return none
  | v :: vs => do
    match (← Point.ofValue v).bind color? with
    | some color => return some color
    | none => wireColor? color? vs

def isNamedNode (d : Drawing) (t : Terminal) : Bool :=
  match d.named? t.component with
  | some c => c.kind? == some .net
  | none => false

def ofNets (d : Drawing) (nets : List (Net ν)) (places : List (List (Option Point))) :
    Except Fault Colouring := do
  let index := pointIndex places
  let groups := groups d nets
  let given ← d.components.mapM (given? index)
  let colors := byGroup groups (given.filterMap fun g => g)
  let nodes := (nets.mapIdx fun i n => (colorOf? groups colors i, n)).foldl (fun es e =>
    match e.1 with
    | some color =>
      (e.2.terminals.filter (isNamedNode d)).foldl (fun es t => Entries.put es t.component color) es
    | none => es) []
  let wires ← d.wires.foldlM (fun es w => do
    match ← wireColor? (fun p => (netAt? index p).bind (colorOf? groups colors)) w.points with
    | some color => if w.id.isKey then return Entries.put es w.id color else throw .wrongKind
    | none => return es) []
  return ⟨wires, nodes⟩

end Colouring

/-- Colours a drawing by nets whose nodes are points. Their nodes are rounded anew. -/
def Drawing.colouring (d : Drawing) (nets : List (Net Point)) : Except Fault Colouring := do
  if nets.isEmpty then return ⟨[], []⟩
  d.checkIds
  let places ← nets.mapM fun n => n.nodes.mapM fun p => return some (← Point.rounded p.x p.y)
  Colouring.ofNets d nets places

def Drawing.colouringOfValues (d : Drawing) (nets : List (Net Value)) : Except Fault Colouring := do
  if nets.isEmpty then return ⟨[], []⟩
  d.checkIds
  let places ← nets.mapM fun n => n.nodes.mapM Point.ofValue
  Colouring.ofNets d nets places

end Schematic
