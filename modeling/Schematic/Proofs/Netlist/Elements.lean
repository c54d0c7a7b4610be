import Schematic.Netlist.Element
import Schematic.Proofs.Fault
/-!
What the elements of a component are wired to.
-/

namespace Schematic

/-- The kinds with one element, between the first two pins. -/
def Kind.isTwoTerminal : Kind → Bool
  | .resistor | .capacitor | .inductor | .voltageSource | .currentSource | .voltmeter
  | .ammeter => true
  | _ => false

/-- The letter of the elements of a kind. A voltmeter and a switch have resistors; so has an ammeter
with a value, and one without is a source. -/
def Kind.elementLetter? (valued : Bool) : Kind → Option String
  | .resistor | .voltmeter | .switch => some "R"
  | .capacitor => some "C"
  | .inductor => some "L"
  | .voltageSource => some "V"
  | .currentSource => some "I"
  | .ammeter => some (if valued then "R" else "V")
  | _ => none

def Kind.fallback : Kind → String
  | .capacitor => "1u"
  | .inductor => "1m"
  | .voltmeter => "1M"
  | .ammeter => "0"
  | .voltageSource | .currentSource => "1"
  | _ => "1k"

def Switch.resistance? (s : Switch) (t : Throw) : Option String :=
  if t = s.active then some s.ron else s.roff

namespace PinNets

theorem net?_eq_some {nets : PinNets} {component pin : Value} {name : String}
    (found : nets.net? component pin = .ok (some name)) :
    nets.find? component pin = some name := by
  unfold net? at found
  split at found
  · have kept := Except.ok.inj found
    rw [Option.filter_eq_some_iff] at kept
    exact kept.1
  · cases found

theorem net?_of_find? {nets : PinNets} {component pin name : String}
    (found : nets.find? (.text component) (.text pin) = some name) (given : name ≠ "") :
    nets.net? (.text component) (.text pin) = .ok (some name) := by
  change Except.ok ((nets.find? (.text component) (.text pin)).filter (· != "")) = _
  rw [found, Option.filter_some, if_pos (bne_iff_ne.2 given)]

end PinNets

namespace Component

variable {c : Component} {nets : PinNets} {read : SwitchReader} {es : List Element} {e : Element}

theorem isElectrical_of_kind? {k : Kind} (kind : c.kind? = some k) :
    c.isElectrical = k.isElectrical := by
  unfold isElectrical isElectricalTag
  unfold kind? at kind
  rw [kind]

theorem isElectrical_of_twoTerminal {k : Kind} (kind : c.kind? = some k)
    (two : k.isTwoTerminal = true) : c.isElectrical = true := by
  rw [isElectrical_of_kind? kind]
  cases k with
  | resistor | capacitor | inductor | voltageSource | currentSource | voltmeter | ammeter => rfl
  | _ => cases two

structure Joins (c : Component) (nets : PinNets) (p q : Pin) (e : Element) : Prop where
  netA : nets.find? c.id p.id = some e.netA
  netB : nets.find? c.id q.id = some e.netB

theorem joins_of_mem_terminalElement {letter fallback : String}
    (made : c.terminalElement nets letter fallback = .ok es) (member : e ∈ es) :
    ∃ p q rest, c.pins = p :: q :: rest ∧ c.Joins nets p q e := by
  unfold terminalElement at made
  split at made
  next p q rest pins =>
    simp only [Fault.bind_eq_ok] at made
    obtain ⟨a, netA, b, netB, made⟩ := made
    split at made
    next a b =>
      obtain ⟨stored, _, made⟩ := Fault.bind_eq_ok.1 made
      obtain rfl := Fault.pure_eq_ok.1 made
      obtain rfl := List.mem_singleton.1 member
      exact ⟨p, q, rest, pins, PinNets.net?_eq_some netA, PinNets.net?_eq_some netB⟩
    next =>
      obtain rfl := Fault.pure_eq_ok.1 made
      cases member
  next =>
    obtain rfl := Fault.pure_eq_ok.1 made
    cases member

theorem terminalElement_of_fewPins (few : c.pins.length < 2) (letter fallback : String) :
    c.terminalElement nets letter fallback = .ok [] := by
  unfold terminalElement
  split
  next p q rest pins =>
    rw [pins, List.length_cons, List.length_cons] at few
    omega
  next => rfl

theorem terminalElement_eq {p q : Pin} {rest : List Pin} (pins : c.pins = p :: q :: rest)
    {a b stored : String} (netA : nets.net? c.id p.id = .ok (some a))
    (netB : nets.net? c.id q.id = .ok (some b)) (value : c.valueText = .ok stored)
    (letter fallback : String) :
    c.terminalElement nets letter fallback = .ok [⟨lettered letter
      (.text (if identifier c.id = "" then letter ++ a else identifier c.id)), a, b,
      if stored = "" then fallback else simulatorText stored⟩] := by
  unfold terminalElement
  rw [pins]
  simp only [netA, netB, value]
  rfl

theorem elements_of_twoTerminal (nets : PinNets) (read : SwitchReader) {k : Kind}
    (kind : c.kind? = some k) (two : k.isTwoTerminal = true) {stored : String}
    (value : c.valueText = .ok stored) (given : k = .voltmeter → stored ≠ "") :
    ∃ letter, k.elementLetter? (stored != "") = some letter ∧
      c.elements nets read = do return .ok (← c.terminalElement nets letter k.fallback) := by
  unfold elements
  rw [kind]
  cases k with
  | resistor | capacitor | inductor | voltageSource | currentSource => exact ⟨_, rfl, rfl⟩
  | voltmeter =>
      refine ⟨_, rfl, ?_⟩
      rw [value]
      change (if stored = "" then _ else _) = _
      rw [if_neg (given rfl)]
      rfl
  | ammeter =>
      refine ⟨if stored = "" then "V" else "R", ?_, by rw [value]; rfl⟩
      by_cases blank : stored = "" <;> simp [blank, Kind.elementLetter?]
  | _ => cases two

theorem joins_of_twoTerminal (made : c.elements nets read = .ok (.ok es)) {k : Kind}
    (kind : c.kind? = some k) (two : k.isTwoTerminal = true) (member : e ∈ es) :
    ∃ p q rest, c.pins = p :: q :: rest ∧ c.Joins nets p q e := by
  have plain : ∀ {letter fallback : String},
      (do return .ok (← c.terminalElement nets letter fallback) :
        Except Fault (Except ElementError (List Element))) = .ok (.ok es) →
      ∃ p q rest, c.pins = p :: q :: rest ∧ c.Joins nets p q e := by
    intro letter fallback made
    obtain ⟨es', inner, same⟩ := Fault.bind_eq_ok.1 made
    obtain rfl := Except.ok.inj (Fault.pure_eq_ok.1 same)
    exact joins_of_mem_terminalElement inner member
  unfold elements at made
  rw [kind] at made
  cases k with
  | resistor | capacitor | inductor | voltageSource | currentSource => exact plain made
  | voltmeter =>
      obtain ⟨text, _, made⟩ := Fault.bind_eq_ok.1 made
      split at made
      · obtain rfl := Except.ok.inj (Fault.pure_eq_ok.1 made)
        cases member
      · exact plain made
  | ammeter =>
      obtain ⟨text, _, made⟩ := Fault.bind_eq_ok.1 made
      exact plain made
  | _ => cases two

theorem exists_element {k : Kind} (kind : c.kind? = some k) (two : k.isTwoTerminal = true)
    {p q : Pin} {rest : List Pin} (pins : c.pins = p :: q :: rest) {a b stored : String}
    (netA : nets.net? c.id p.id = .ok (some a)) (netB : nets.net? c.id q.id = .ok (some b))
    (value : c.valueText = .ok stored) (given : k = .voltmeter → stored ≠ "") :
    ∃ e, c.elements nets read = .ok (.ok [e]) := by
  obtain ⟨letter, _, made⟩ := elements_of_twoTerminal nets read kind two value given
  exact ⟨_, by rw [made, terminalElement_eq pins netA netB value]; rfl⟩

/-- Whether an element is the resistor of a throw of a switch: between the common pin and the pin of
the throw, named after the throw, with its resistance. -/
structure IsThrow (c : Component) (nets : PinNets) (roles : Roles) (s : Switch) (t : Throw)
    (e : Element) : Prop where
  joins : c.Joins nets roles.c (roles.pin (throwRole t)) e
  id : e.id = lettered "R" (.text (identifier c.id ++ t.letter))
  value : ∃ r, s.resistance? t = some r ∧ e.value = simulatorText r

theorem isThrow_of_mem_throwElement {roles : Roles} {s : Switch} {t : Throw} {r : String}
    {a b : Option String} (netA : nets.net? c.id roles.c.id = .ok a)
    (netB : nets.net? c.id (roles.pin (throwRole t)).id = .ok b)
    (resistance : s.resistance? t = some r) (member : e ∈ c.throwElement t a b r) :
    c.IsThrow nets roles s t e := by
  unfold throwElement at member
  split at member
  next a b =>
    split at member
    · cases member
    · obtain rfl := List.mem_singleton.1 member
      refine ⟨⟨PinNets.net?_eq_some netA, PinNets.net?_eq_some netB⟩, ?_, r, resistance, ?_⟩
      · dsimp only
      · dsimp only
  next => cases member

theorem throw_of_switch (made : c.elements nets read = .ok (.ok es))
    (kind : c.kind? = some .switch) (member : e ∈ es) :
    ∃ roles s t, Roles.ofPins? c.pins = some roles ∧ read c.value = .ok s ∧
      c.IsThrow nets roles s t e := by
  unfold elements at made
  rw [kind] at made
  change c.switchElements nets read = _ at made
  unfold switchElements at made
  split at made
  · cases made
  next roles cast =>
    split at made
    · cases made
    next s setting =>
      simp only [Fault.bind_eq_ok, Fault.pure_eq_ok, Except.ok.injEq] at made
      obtain ⟨common, netC, active, netActive, inactive, netInactive, rfl⟩ := made
      rcases List.mem_append.1 member with closed | opened
      · refine ⟨roles, s, s.active, cast, setting, ?_⟩
        exact isThrow_of_mem_throwElement netC netActive (if_pos rfl) closed
      · split at opened
        next roff given =>
          have other : s.active.other ≠ s.active := by cases s.active <;> decide
          refine ⟨roles, s, s.active.other, cast, setting, ?_⟩
          exact isThrow_of_mem_throwElement netC netInactive ((if_neg other).trans given) opened
        next => cases opened

theorem kind_of_mem_elements (made : c.elements nets read = .ok (.ok es)) (member : e ∈ es) :
    ∃ k, c.kind? = some k ∧ (k.isTwoTerminal = true ∨ k = .switch) := by
  unfold elements at made
  cases kind : c.kind? with
  | none =>
      rw [kind] at made
      cases made
      cases member
  | some k =>
      rw [kind] at made
      refine ⟨k, rfl, ?_⟩
      cases k with
      | switch => exact .inr rfl
      | voltageProbe | currentProbe | differentialProbe | powerProbe | ground | net | text =>
          cases made
          cases member
      | _ => exact .inl rfl

end Component

end Schematic
