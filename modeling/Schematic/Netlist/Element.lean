import Schematic.Netlist.Identifier
import Schematic.Switch.Roles
import Schematic.Switch
import Schematic.Naming
/-!
The elements that a component contributes to a netlist: resistors, capacitors, inductors and
sources between two named nets.
-/

namespace Schematic

/-- A trailing `M` is written `Meg`, since simulators take a bare `M` for milli. -/
def simulatorText (s : String) : String :=
  match s.toList.getLast? with
  | some 'M' => String.ofList s.toList.dropLast ++ "Meg"
  | _ => s

def simulatorValue : Value → Value
  | .text s => .text (simulatorText s)
  | v => v

/-- The name of the net of each pin, by component and pin id. -/
abbrev PinNets := Entries (Value × Value) String

namespace PinNets

variable {ν : Type}

/-- Maps the terminals of named nets. A later terminal of the same ids takes over. -/
def ofNets (names : Entries String String) (nets : List (Net ν)) : PinNets :=
  nets.foldl (fun es n =>
    match names.get? n.id with
    | some name =>
      if name = "" then es
      else n.terminals.foldl
        (fun es t => Entries.put es (.text t.component, .text t.pin) name) es
    | none => es) []

def find? (nets : PinNets) (component pin : Value) : Option String :=
  nets.get? (component, pin)

/-- The net of a pin, if it has a name. Ids that cannot be keys cannot be looked up. -/
def net? (nets : PinNets) (component pin : Value) : Except Fault (Option String) :=
  if component.isKey && pin.isKey then .ok ((nets.find? component pin).filter (· != ""))
  else .error .wrongKind

end PinNets

structure Element where
  id : String
  netA : String
  netB : String
  value : String
  deriving DecidableEq, Repr

def Element.text (e : Element) : String :=
  e.id ++ " " ++ e.netA ++ " " ++ e.netB ++ " " ++ e.value

inductive ElementError
  | missingPins (component : Value)
  | badSwitch (component : Value) (reason : String)

def ElementError.message : ElementError → String
  | missingPins component => "Switch '" ++ component.shown ++ "' is missing C/A/B pins."
  | badSwitch component reason =>
    "Switch '" ++ component.shown ++ "' value parse error: " ++ reason

/-- Reads the value of a switch, or says what is wrong with it. -/
abbrev SwitchReader := Value → Except String Switch

def SwitchReader.standard : SwitchReader :=
  fun v => (Switch.parse v).mapError Switch.Error.message

namespace Component

def valueText (c : Component) : Except Fault String :=
  if c.value.given then return Text.trim (← c.value.asText) else return ""

/-- The element between the first two pins, if both their nets have names. A component without id
is named after its first net. -/
def terminalElement (nets : PinNets) (c : Component) (letter fallback : String) :
    Except Fault (List Element) := do
  match c.pins with
  | p :: q :: _ =>
    let netA ← nets.net? c.id p.id
    let netB ← nets.net? c.id q.id
    match netA, netB with
    | some netA, some netB =>
      let stored ← c.valueText
      let base := identifier c.id
      return [{
        id := lettered letter (.text (if base = "" then letter ++ netA else base))
        netA
        netB
        value := if stored = "" then fallback else simulatorText stored }]
    | _, _ => return []
  | _ => return []

/-- The resistor of one throw of a switch, between its common pin and that throw. -/
def throwElement (c : Component) (t : Throw) (common throw : Option String) (value : String) :
    List Element :=
  match common, throw with
  | some netA, some netB =>
    if value = "" then []
    else [{
      id := lettered "R" (.text (identifier c.id ++ t.letter))
      netA
      netB
      value := simulatorText value }]
  | _, _ => []

def throwRole : Throw → Role
  | .a => .a
  | .b => .b

/-- The resistors of a switch: that of the closed throw, and that of the open throw if it has a
resistance. -/
def switchElements (nets : PinNets) (read : SwitchReader) (c : Component) :
    Except Fault (Except ElementError (List Element)) := do
  match Roles.ofPins? c.pins with
  | none => return .error (.missingPins c.id)
  | some roles =>
    match read c.value with
    | .error reason => return .error (.badSwitch c.id reason)
    | .ok setting =>
      let netOf := fun r => nets.net? c.id (roles.pin r).id
      let common ← netOf .c
      let active ← netOf (throwRole setting.active)
      let inactive ← netOf (throwRole setting.active.other)
      let closed := c.throwElement setting.active common active setting.ron
      let opened := match setting.roff with
        | some roff => c.throwElement setting.active.other common inactive roff
        | none => []
      return .ok (closed ++ opened)

/-- The elements of a component. A voltmeter is a resistor if it has a value, and an ammeter
without value is a source of zero volts. -/
def elements (nets : PinNets) (read : SwitchReader) (c : Component) :
    Except Fault (Except ElementError (List Element)) := do
  match c.kind? with
  | some .resistor => return .ok (← c.terminalElement nets "R" "1k")
  | some .capacitor => return .ok (← c.terminalElement nets "C" "1u")
  | some .inductor => return .ok (← c.terminalElement nets "L" "1m")
  | some .voltageSource => return .ok (← c.terminalElement nets "V" "1")
  | some .currentSource => return .ok (← c.terminalElement nets "I" "1")
  | some .voltmeter =>
    if (← c.valueText) = "" then return .ok []
    else return .ok (← c.terminalElement nets "R" "1M")
  | some .ammeter =>
    let letter := if (← c.valueText) = "" then "V" else "R"
    return .ok (← c.terminalElement nets letter "0")
  | some .switch => c.switchElements nets read
  | _ => return .ok []

end Component

end Schematic
