import Schematic.Junction
import Schematic.Netlist.Basic
/-!
Compiling a drawing: its nets, their names, and the netlist.
-/

namespace Schematic

structure Compilation where
  graph : Graph
  nets : List (Net Point)
  naming : Naming
  pinNets : PinNets
  netlist : Netlist

namespace Compilation

def missingGround : String :=
  "No ground reference found; add a GND symbol."

def warnings (c : Compilation) : List String :=
  c.naming.warnings ++ if c.naming.hasGround then [] else [missingGround]

/-- The errors in names come before those in elements. -/
def errors (c : Compilation) : List String :=
  c.naming.errorMessages ++ c.netlist.errorMessages

def success (c : Compilation) : Bool :=
  c.errors.isEmpty

def text (c : Compilation) : String :=
  c.netlist.text

def signals (c : Compilation) : List String :=
  c.naming.signals

def notes (c : Compilation) : List String :=
  let count := fun (n : Nat) => Value.intText n
  [s!"Built {count c.nets.length} nets from {count c.graph.size} junctions",
    s!"Named {count c.naming.names.length} nets ({count c.naming.labelled} labeled, "
      ++ s!"{count c.naming.errors.length} errors)",
    s!"Generated {count c.netlist.lines.length} netlist lines",
    s!"Compiled {count c.nets.length} nets into {count c.netlist.lines.length} lines "
      ++ s!"({count c.errors.length} errors, {count c.warnings.length} warnings)"]

end Compilation

def Drawing.compile (d : Drawing) (title : String) (read : SwitchReader := .standard) :
    Except Fault Compilation := do
  let graph ← d.graph
  let nets := graph.nets
  let naming ← d.naming nets
  let pinNets := PinNets.ofNets naming.names nets
  return ⟨graph, nets, naming, pinNets, ← Netlist.ofComponents pinNets read d.components title⟩

/-- A part of the compiler that a caller may replace by a function. -/
inductive Collaborator
  | netBuilder
  | switchParser
  deriving DecidableEq, Repr

namespace Collaborator

def name : Collaborator → String
  | netBuilder => "net_builder"
  | switchParser => "switch_parser"

def all : List Collaborator := [netBuilder, switchParser]

def rejection (c : Collaborator) (v : Value) : String :=
  "NetlistCompiler requires a callable " ++ c.name ++ ", got " ++ v.literal

def unknownName (name : String) : String :=
  "NetlistCompiler.__init__() got an unexpected keyword argument '" ++ name ++ "'"

/-- Checks the values that are given for parts, by name. No value is a function, so that a part can
only be left alone. -/
def check (given : List (String × Value)) : Except String Unit :=
  match given.find? fun g => all.all (·.name != g.1) with
  | some (name, _) => .error (unknownName name)
  | none =>
    match all.findSome? fun c => (given.lookup c.name).map c.rejection with
    | some message => .error message
    | none => .ok ()

end Collaborator

end Schematic
