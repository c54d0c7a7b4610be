import Schematic.Proofs.Compile
import Schematic.Proofs.Switch
/-!
What a component contributes to a netlist: its elements, or what is wrong with it.
-/

namespace Schematic

namespace Component

variable {c : Component} {nets : PinNets} {read : SwitchReader}

def HasLetter (c : Component) (letter : String) : Prop :=
  ∃ k stored, c.kind? = some k ∧ c.valueText = .ok stored ∧
    k.elementLetter? (stored != "") = some letter

structure IsTerminal (c : Component) (nets : PinNets) (e : Element) : Prop where
  pins : ∃ p q rest, c.pins = p :: q :: rest ∧ c.Joins nets p q e
  id : ∃ letter, c.HasLetter letter ∧ e.id = lettered letter
    (.text (if identifier c.id = "" then letter ++ e.netA else identifier c.id))
  value : ∃ k stored, c.kind? = some k ∧ c.valueText = .ok stored ∧
    e.value = if stored = "" then k.fallback else simulatorText stored

/-- What a component contributes, by its kind, its pins and its value. -/
inductive Emits (c : Component) (nets : PinNets) : Except ElementError (List Element) → Prop
  | terminal {k : Kind} {e : Element} (kind : c.kind? = some k) (two : k.isTwoTerminal = true)
      (pins : 2 ≤ c.pins.length) (given : k = .voltmeter → c.valueText ≠ .ok "")
      (isTerminal : c.IsTerminal nets e) : Emits c nets (.ok [e])
  | fewPins {k : Kind} (kind : c.kind? = some k) (two : k.isTwoTerminal = true)
      (pins : c.pins.length < 2) : Emits c nets (.ok [])
  | blankVoltmeter (kind : c.kind? = some .voltmeter) (blank : c.valueText = .ok "") :
      Emits c nets (.ok [])
  | openSwitch {roles : Roles} {s : Switch} {e : Element} (kind : c.kind? = some .switch)
      (pins : 3 ≤ c.pins.length) (cast : Roles.ofPins? c.pins = some roles)
      (setting : Switch.parse c.value = .ok s) (roff : s.roff = none)
      (active : c.IsThrow nets roles s s.active e) : Emits c nets (.ok [e])
  | closedSwitch {roles : Roles} {s : Switch} {e e' : Element} (kind : c.kind? = some .switch)
      (pins : 3 ≤ c.pins.length) (cast : Roles.ofPins? c.pins = some roles)
      (setting : Switch.parse c.value = .ok s) (roff : s.roff ≠ none)
      (active : c.IsThrow nets roles s s.active e)
      (inactive : c.IsThrow nets roles s s.active.other e') : Emits c nets (.ok [e, e'])
  | missingPins (kind : c.kind? = some .switch) (pins : c.pins.length < 3) :
      Emits c nets (.error (.missingPins c.id))
  | badValue {err : Switch.Error} (kind : c.kind? = some .switch) (pins : 3 ≤ c.pins.length)
      (bad : Switch.parse c.value = .error err) :
      Emits c nets (.error (.badSwitch c.id err.message))
  | silent (other : ∀ k, c.kind? = some k → k.isTwoTerminal = false ∧ k ≠ .switch) :
      Emits c nets (.ok [])

/-- Whether all pins of a component are on nets with names. -/
def IsNetted (c : Component) (nets : PinNets) : Prop :=
  ∀ p ∈ c.pins, ∃ name, nets.net? c.id p.id = .ok (some name)

theorem IsNetted.exists_terminalElement (netted : c.IsNetted nets) (enough : 2 ≤ c.pins.length)
    {stored : String} (value : c.valueText = .ok stored) (letter fallback : String) :
    ∃ e, c.terminalElement nets letter fallback = .ok [e] ∧
      (∃ p q rest, c.pins = p :: q :: rest ∧ c.Joins nets p q e) ∧
      e.id = lettered letter
        (.text (if identifier c.id = "" then letter ++ e.netA else identifier c.id)) ∧
      e.value = if stored = "" then fallback else simulatorText stored := by
  obtain ⟨p, q, rest, pins⟩ : ∃ p q rest, c.pins = p :: q :: rest := by
    match h : c.pins, enough with
    | p :: q :: rest, _ => exact ⟨p, q, rest, rfl⟩
  obtain ⟨a, netA⟩ := netted p (by simp [pins])
  obtain ⟨b, netB⟩ := netted q (by simp [pins])
  exact ⟨_, terminalElement_eq pins netA netB value letter fallback,
    ⟨p, q, rest, pins, PinNets.net?_eq_some netA, PinNets.net?_eq_some netB⟩, rfl, rfl⟩

theorem IsNetted.emits_of_twoTerminal (netted : c.IsNetted nets) {k : Kind}
    (kind : c.kind? = some k) (two : k.isTwoTerminal = true) {stored : String}
    (value : c.valueText = .ok stored) :
    ∃ r, c.elements nets read = .ok r ∧ c.Emits nets r := by
  by_cases blank : k = .voltmeter ∧ stored = ""
  · obtain ⟨rfl, rfl⟩ := blank
    refine ⟨.ok [], ?_, .blankVoltmeter kind value⟩
    unfold elements
    rw [kind, value]
    rfl
  · obtain ⟨letter, isLetter, made⟩ := elements_of_twoTerminal nets read kind two value
      fun isVoltmeter isBlank => blank ⟨isVoltmeter, isBlank⟩
    by_cases enough : 2 ≤ c.pins.length
    · obtain ⟨e, inner, pins, id, shown⟩ :=
        netted.exists_terminalElement enough value letter k.fallback
      refine ⟨.ok [e], by rw [made, inner]; rfl, .terminal kind two enough ?_ ?_⟩
      · intro isVoltmeter isBlank
        exact blank ⟨isVoltmeter, Except.ok.inj (value.symm.trans isBlank)⟩
      · exact ⟨pins, ⟨letter, ⟨k, stored, kind, value, isLetter⟩, id⟩, k, stored, kind, value,
          shown⟩
    · have few := Nat.lt_of_not_le enough
      refine ⟨.ok [], ?_, .fewPins kind two few⟩
      rw [made, terminalElement_of_fewPins few]
      rfl

theorem throwElement_eq {a b r : String} (given : r ≠ "") (t : Throw) :
    c.throwElement t (some a) (some b) r =
      [⟨lettered "R" (.text (identifier c.id ++ t.letter)), a, b, simulatorText r⟩] :=
  if_neg given

theorem IsNetted.emits_of_switch (netted : c.IsNetted nets) (kind : c.kind? = some .switch) :
    ∃ r, c.elements nets .standard = .ok r ∧ c.Emits nets r := by
  unfold elements
  rw [kind]
  change ∃ r, c.switchElements nets .standard = .ok r ∧ _
  unfold switchElements
  by_cases enough : 3 ≤ c.pins.length
  · obtain ⟨roles, cast⟩ := Roles.exists_ofPins? enough
    rw [cast]
    cases setting : Switch.parse c.value with
    | error err =>
        refine ⟨.error (.badSwitch c.id err.message), ?_, .badValue kind enough setting⟩
        simp only [SwitchReader.standard, setting]
        rfl
    | ok s =>
        have read : SwitchReader.standard c.value = .ok s := by
          rw [SwitchReader.standard, setting]
          rfl
        have writable := Switch.isWritable_of_parse setting
        have netOf := fun r => netted (roles.pin r) (mem_of_ofPins? cast r)
        obtain ⟨common, netC⟩ := netOf .c
        obtain ⟨active, netActive⟩ := netOf (throwRole s.active)
        obtain ⟨inactive, netInactive⟩ := netOf (throwRole s.active.other)
        simp only [read, netC, netActive, netInactive]
        have isActive : c.IsThrow nets roles s s.active _ :=
          isThrow_of_mem_throwElement netC netActive (if_pos rfl)
            (by rw [throwElement_eq writable.ron]; exact List.mem_singleton_self _)
        cases roff : s.roff with
        | none =>
            refine ⟨.ok [_], ?_, .openSwitch kind enough cast setting roff isActive⟩
            rw [← throwElement_eq writable.ron, ← List.append_nil (throwElement _ _ _ _ _)]
            rfl
        | some r =>
            have other : s.active.other ≠ s.active := by cases s.active <;> decide
            have isInactive : c.IsThrow nets roles s s.active.other _ :=
              isThrow_of_mem_throwElement netC netInactive ((if_neg other).trans roff)
                (by rw [throwElement_eq (writable.roff r roff)]; exact List.mem_singleton_self _)
            refine ⟨.ok [_, _], ?_, .closedSwitch kind enough cast setting (by simp [roff]) isActive
              isInactive⟩
            rw [← List.singleton_append, ← throwElement_eq writable.ron,
              ← throwElement_eq (writable.roff r roff)]
            rfl
  · have few := Nat.lt_of_not_le enough
    refine ⟨.error (.missingPins c.id), ?_, .missingPins kind few⟩
    rw [Roles.ofPins?_eq_none few]
    rfl

theorem IsTidy.exists_emits (tidy : c.IsTidy)
    (netted : c.isElectrical = true → c.IsNetted nets) :
    ∃ r, c.elements nets .standard = .ok r ∧ c.Emits nets r := by
  by_cases emitting : ∃ k, c.kind? = some k ∧ (k.isTwoTerminal = true ∨ k = .switch)
  · obtain ⟨k, kind, emits⟩ := emitting
    rcases emits with two | rfl
    · obtain ⟨stored, value⟩ := tidy.exists_valueText
      exact (netted (isElectrical_of_twoTerminal kind two)).emits_of_twoTerminal kind two value
    · exact (netted (isElectrical_of_kind? kind)).emits_of_switch kind
  · have other : ∀ k, c.kind? = some k → k.isTwoTerminal = false ∧ k ≠ .switch := by
      intro k kind
      push Not at emitting
      exact ⟨Bool.eq_false_iff.2 (emitting k kind).1, (emitting k kind).2⟩
    refine ⟨.ok [], ?_, .silent other⟩
    unfold elements
    cases kind : c.kind? with
    | none => rfl
    | some k =>
        obtain ⟨plain, noSwitch⟩ := other k kind
        cases k with
        | voltageProbe | currentProbe | differentialProbe | powerProbe | ground | net | text => rfl
        | switch => exact absurd rfl noSwitch
        | _ => cases plain

theorem Emits.exists_lettered {es : List Element} (tidy : c.IsTidy) (emits : c.Emits nets (.ok es))
    {e : Element} (member : e ∈ es) :
    ∃ letter v, c.HasLetter letter ∧ e.id = lettered letter (.text v) := by
  have throw : ∀ {roles s t} {e : Element}, c.kind? = some .switch → c.IsThrow nets roles s t e →
      ∃ letter v, c.HasLetter letter ∧ e.id = lettered letter (.text v) := by
    intro roles s t e kind isThrow
    obtain ⟨stored, value⟩ := tidy.exists_valueText
    exact ⟨"R", _, ⟨.switch, stored, kind, value, rfl⟩, isThrow.id⟩
  cases emits with
  | terminal kind two pins given isTerminal =>
      obtain rfl := List.mem_singleton.1 member
      obtain ⟨letter, isLetter, id⟩ := isTerminal.id
      exact ⟨letter, _, isLetter, id⟩
  | openSwitch kind pins cast setting roff active =>
      obtain rfl := List.mem_singleton.1 member
      exact throw kind active
  | closedSwitch kind pins cast setting roff active inactive =>
      rcases List.mem_pair.1 member with rfl | rfl
      · exact throw kind active
      · exact throw kind inactive
  | fewPins | blankVoltmeter | silent => cases member

end Component

end Schematic
