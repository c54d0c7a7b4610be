import Schematic.Drawing
import Schematic.Net
import Schematic.Position
/-!
The junction graph of a drawing, and its nets.

Every wire point and every pin of an electrical component is a node, found by its place.
Consecutive wire points are joined. A connected component with at least one pin is a net.
-/

namespace Schematic

/-- The places of points up to the first fault. -/
def Point.trace : List Value → List (Option Point) × Option Fault
  | [] => ([], none)
  | v :: vs =>
    match Point.ofValue v with
    | .error fault => ([], some fault)
    | .ok place => let (places, fault) := trace vs; (place :: places, fault)

def Pin.terminal (component : Value) (p : Pin) : Except Fault (Option Terminal) :=
  return (← p.place).map fun place => ⟨component.content, p.id.content, p.title, place⟩

/-- Where a drawing lies: the points of each wire, where `none` breaks the polyline, and the
terminals of the electrical components. -/
structure Placement where
  traces : List (List (Option Point))
  terminals : List Terminal
  deriving Inhabited

/-- The terminals of a component; annotations and probes have none. -/
def Component.terminals (c : Component) : Except Fault (List Terminal) :=
  if c.isElectrical then return (← c.pins.mapM (Pin.terminal c.id)).filterMap (·) else return []

def Drawing.placement (d : Drawing) : Except Fault Placement := do
  let traces ← d.wires.mapM Wire.trace
  let terminals ← d.components.mapM Component.terminals
  return ⟨traces, terminals.flatten⟩

structure Junction where
  point : Point
  terminals : List Terminal
  deriving Inhabited

/-- An undirected graph of junctions. `index` finds a node by its point, and `edges` holds the
smaller end of every edge before the larger. Neighbours are kept by index, and a negative one counts
from the last of the nodes that there are when it is followed. -/
structure Graph where
  nodes : List Junction
  adjacency : List (List Int)
  index : List (Point × Nat)
  edges : List (Int × Int)
  deriving Inhabited

namespace Graph

def empty : Graph := ⟨[], [], [], []⟩

def size (g : Graph) : Nat :=
  g.nodes.length

def neighbours (g : Graph) (i : Nat) : List Nat :=
  (g.adjacency.getD i []).filterMap (position? g.size)

def find? (g : Graph) (p : Point) : Option Nat :=
  (g.index.find? fun e => e.1.coincides p.key).map (·.2)

def ensure (g : Graph) (p : Point) : Nat × Graph :=
  match g.find? p with
  | some i => (i, g)
  | none =>
    (g.size, { g with
      nodes := g.nodes ++ [⟨p.key, []⟩]
      adjacency := g.adjacency ++ [[]]
      index := g.index ++ [(p.key, g.size)] })

def edge (a b : Int) : Int × Int :=
  if a ≤ b then (a, b) else (b, a)

theorem edge_comm (a b : Int) : edge a b = edge b a := by
  grind [edge]

def connect (g : Graph) (a b : Nat) : Graph :=
  if edge a b ∈ g.edges then g
  else
    let adjacency := g.adjacency.modify a (· ++ [(b : Int)])
    { g with
      adjacency := if a = b then adjacency else adjacency.modify b (· ++ [(a : Int)])
      edges := edge a b :: g.edges }

@[simp] theorem nodes_connect (g : Graph) (a b : Nat) : (g.connect a b).nodes = g.nodes := by
  rw [connect]
  split <;> rfl

def addTraceFrom (g : Graph) (previous : Option Nat) : List (Option Point) → Graph
  | [] => g
  | none :: places => g.addTraceFrom none places
  | some p :: places =>
    let (i, g) := g.ensure p
    let g := match previous with
      | some j => g.connect j i
      | none => g
    g.addTraceFrom (some i) places

def addTrace (g : Graph) (places : List (Option Point)) : Graph :=
  g.addTraceFrom none places

def attach (g : Graph) (t : Terminal) : Graph :=
  let (i, g) := g.ensure t.place
  { g with nodes := g.nodes.modify i fun j => { j with terminals := j.terminals ++ [t] } }

def ofPlacement (p : Placement) : Graph :=
  p.terminals.foldl attach (p.traces.foldl addTrace empty)

/-- Marks the nodes that are not seen yet, and puts each on top of the stack. -/
def push (state : List Nat × List Nat) (i : Nat) : List Nat × List Nat :=
  if i ∈ state.2 then state else (i :: state.1, i :: state.2)

/-- Visits what the stack reaches: the nodes in the order of their visits, and all that are seen
then. No node is visited twice, so that their number bounds the visits. -/
def explore (g : Graph) : Nat → List Nat → List Nat → List Nat × List Nat
  | 0, _, seen => ([], seen)
  | _, [], seen => ([], seen)
  | fuel + 1, i :: stack, seen =>
    let (stack, seen) := (g.neighbours i).foldl push (stack, seen)
    let (order, seen) := g.explore fuel stack seen
    (i :: order, seen)

/-- The connected components, each in the order of its visits, by first node. -/
def classes (g : Graph) : List (List Nat) :=
  ((List.range g.size).foldl (fun (classes, seen) i =>
    if i ∈ seen then (classes, seen)
    else
      let (order, seen) := g.explore g.size [i] (i :: seen)
      (classes ++ [order], seen)) (([] : List (List Nat)), ([] : List Nat))).1

def netOf (g : Graph) (number : Nat) (order : List Nat) : Net Point :=
  let junctions := order.filterMap fun i => g.nodes[i]?
  ⟨"N" ++ Value.intText number, junctions.map (·.point), junctions.flatMap (·.terminals)⟩

def hasTerminal (g : Graph) (order : List Nat) : Bool :=
  order.any fun i => match g.nodes[i]? with
    | some j => !j.terminals.isEmpty
    | none => false

def nets (g : Graph) : List (Net Point) :=
  (g.classes.filter g.hasTerminal).mapIdx fun k order => g.netOf (k + 1) order

/-- Joins two nodes by index. If an index is bad, what was done before it was met stands. -/
def connect? (g : Graph) (a b : Int) : Graph × Option Fault :=
  if edge a b ∈ g.edges then (g, none)
  else
    let edges := edge a b :: g.edges
    match position? g.size a with
    | none => ({ g with edges }, some .badIndex)
    | some i =>
      let adjacency := g.adjacency.modify i (· ++ [b])
      if a = b then ({ g with adjacency, edges }, none)
      else
        match position? g.size b with
        | none => ({ g with adjacency, edges }, some .badIndex)
        | some j => ({ g with adjacency := adjacency.modify j (· ++ [a]), edges }, none)

theorem connect?_of_lt {g : Graph} {a b : Nat} (ha : a < g.size) (hb : b < g.size) :
    g.connect? a b = (g.connect a b, none) := by
  simp only [connect?, connect, position?_natCast ha, position?_natCast hb, Int.natCast_inj]
  split
  · rfl
  · split <;> rfl

def nets? (g : Graph) : Except Fault (List (Net Point)) :=
  if g.adjacency.all (·.all fun i => (position? g.size i).isSome) then .ok g.nets
  else .error .badIndex

end Graph

def Drawing.graph (d : Drawing) : Except Fault Graph :=
  return .ofPlacement (← d.placement)

def Drawing.nets (d : Drawing) : Except Fault (List (Net Point)) :=
  return (← d.graph).nets

end Schematic
