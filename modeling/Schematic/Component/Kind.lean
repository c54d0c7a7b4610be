import Schematic.Text.Blank
import Schematic.Text.Case
import Schematic.Value
/-!
The kinds of component, their tags, and the default placement of their pins.
-/

namespace Schematic

inductive Kind
  | resistor
  | capacitor
  | inductor
  | voltageSource
  | currentSource
  | voltmeter
  | ammeter
  | switch
  | voltageProbe
  | currentProbe
  | differentialProbe
  | powerProbe
  | ground
  | net
  | text
  deriving DecidableEq, Repr

def normalTag (v : Value) : String :=
  Text.upper (Text.trim v.content)

namespace Kind

def all : List Kind :=
  [resistor, capacitor, inductor, voltageSource, currentSource, voltmeter, ammeter, switch,
    voltageProbe, currentProbe, differentialProbe, powerProbe, ground, net, text]

def tag : Kind → String
  | resistor => "R"
  | capacitor => "C"
  | inductor => "L"
  | voltageSource => "V"
  | currentSource => "I"
  | voltmeter => "VM"
  | ammeter => "AM"
  | switch => "SW"
  | voltageProbe => "PV"
  | currentProbe => "PI"
  | differentialProbe => "PD"
  | powerProbe => "PP"
  | ground => "GND"
  | net => "NET"
  | text => "TEXT"

def ofTag? (tag : String) : Option Kind :=
  all.find? (·.tag == tag)

def ofValue? (v : Value) : Option Kind :=
  ofTag? (normalTag v)

def isProbe : Kind → Bool
  | voltageProbe | currentProbe | differentialProbe | powerProbe => true
  | _ => false

/-- Annotations and probes take no part in connectivity. -/
def isElectrical (k : Kind) : Bool :=
  k != text && !k.isProbe

def unit : Kind → String
  | resistor | voltmeter | ammeter => "Ω"
  | capacitor => "F"
  | inductor => "H"
  | voltageSource => "V"
  | currentSource => "A"
  | _ => ""

def layout : Kind → List (String × Int × Int)
  | resistor | capacitor | inductor | voltmeter | ammeter => [("1", -20, 0), ("2", 20, 0)]
  | voltageSource | currentSource => [("+", 0, -20), ("-", 0, 20)]
  | switch => [("C", -20, 0), ("A", 20, -10), ("B", 20, 10)]
  | voltageProbe | currentProbe | powerProbe => [("P", 0, 0)]
  | differentialProbe => [("P+", 0, 0), ("P-", 20, 0)]
  | ground => [("0", 0, 0)]
  | net => [("1", 0, 0)]
  | text => [("A", 0, 0)]

end Kind

/-- Whether a tag stands for a kind that takes part in connectivity; a tag of no known kind does. -/
def isElectricalTag (v : Value) : Bool :=
  match Kind.ofValue? v with
  | some k => k.isElectrical
  | none => true

def isProbeTag (v : Value) : Bool :=
  match Kind.ofValue? v with
  | some k => k.isProbe
  | none => false

end Schematic
