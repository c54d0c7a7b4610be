import Schematic.Naming
/-!
The electrical rule check.
-/

namespace Schematic

inductive Issue
  | emptyCircuit
  | missingGround
  | unconnectedPin (component pin : String)
  deriving DecidableEq

namespace Issue

def code : Issue → String
  | emptyCircuit => "erc:empty-circuit"
  | missingGround => "erc:missing-ground"
  | unconnectedPin .. => "erc:unconnected-pin"

def message : Issue → String
  | emptyCircuit => "Circuit has no components. Add at least one component to simulate."
  | missingGround => "Missing ground reference."
  | unconnectedPin .. => "Unconnected pin."

def pin? : Issue → Option (String × String)
  | unconnectedPin component pin => some (component, pin)
  | _ => none

/-- The message with the pin, where both its ids are there. -/
def text (i : Issue) : String :=
  match i.pin? with
  | some (component, pin) =>
    if component = "" || pin = "" then i.message else s!"{i.message} ({component}:{pin})"
  | none => i.message

end Issue

structure RuleCheck where
  errors : List Issue
  warnings : List Issue

namespace RuleCheck

def isValid (r : RuleCheck) : Bool :=
  r.errors.isEmpty

/-- Whether a component is there to be simulated: electrical, and neither a ground symbol nor a
named node. -/
def isSimulated (c : Component) : Bool :=
  c.isElectrical && c.kind? != some .ground && c.kind? != some .net

def dangling? {ν : Type} (d : Drawing) (n : Net ν) : Option Issue :=
  match n.terminals with
  | [t] => if d.groundsTerminal t then none else some (.unconnectedPin t.component t.pin)
  | _ => none

def ofNets {ν : Type} (d : Drawing) (nets : List (Net ν)) : RuleCheck where
  errors :=
    (if d.components.any isSimulated then [] else [.emptyCircuit])
      ++ (if nets.any d.grounds then [] else [.missingGround])
  warnings := nets.filterMap (dangling? d)

end RuleCheck

def Drawing.check {ν : Type} (d : Drawing) (nets : List (Net ν)) : Except Fault RuleCheck := do
  d.checkIds
  return .ofNets d nets

end Schematic
