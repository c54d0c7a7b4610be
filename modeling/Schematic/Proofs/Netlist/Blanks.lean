import Schematic.Proofs.Switch.Tokens
import Schematic.Proofs.Text.Collapse
import Schematic.Proofs.Traceability
/-!
Where the blanks in a line of a netlist come from: from the id and the value of its component, and
from the labels of named nodes. Letters, numbers and suffixes bring none.
-/

namespace Schematic

section

variable {ch : Char} (blank : Text.isBlank ch = true)

include blank

theorem Allocator.blank_mem_allocate_iff (a : Allocator) (wanted : Value) :
    ch ∈ (a.allocate wanted).1.toList ↔ ch ∈ (identifier wanted).toList := by
  have base : ch ∈ (if identifier wanted = "" then "X" else identifier wanted).toList ↔
      ch ∈ (identifier wanted).toList := by
    split
    next none =>
      rw [none]
      exact iff_of_false (Text.IsUnbroken.not_mem (by decide) blank) List.not_mem_nil
    next => exact Iff.rfl
  unfold allocate
  generalize (if identifier wanted = "" then "X" else identifier wanted) = stem at base
  dsimp only
  split
  · rw [suffixed, String.append_assoc, String.toList_append, List.mem_append, base]
    exact or_iff_left fun member => (mem_suffix member).2.2 blank
  · exact base

theorem blank_mem_lettered_iff {letter : String} (unbroken : Text.IsUnbroken letter) (v : Value) :
    ch ∈ (lettered letter v).toList ↔ ch ∈ (identifier v).toList := by
  unfold lettered
  dsimp only
  split
  · exact Iff.rfl
  · rw [String.toList_append, List.mem_append]
    exact or_iff_right (unbroken.not_mem blank)

theorem blank_mem_simulatorText_iff (s : String) :
    ch ∈ (simulatorText s).toList ↔ ch ∈ s.toList := by
  unfold simulatorText
  split
  next mega =>
    obtain ⟨cs, whole⟩ := List.getLast?_eq_some_iff.1 mega
    have notM : ch ≠ 'M' := by
      rintro rfl
      exact absurd blank (by decide)
    rw [whole, String.toList_append, String.toList_ofList, List.dropLast_concat, List.mem_append,
      List.mem_append, List.mem_singleton, or_iff_left notM]
    exact or_iff_left (Text.IsUnbroken.not_mem (by decide) blank)
  next => exact Iff.rfl

theorem Kind.blank_not_mem_fallback (k : Kind) : ch ∉ k.fallback.toList := by
  have unbroken : Text.IsUnbroken k.fallback := by cases k <;> decide
  exact unbroken.not_mem blank

end

namespace Switch

theorem isUnbroken_of_mem_tokens {v : Value} {token : String} (member : token ∈ tokens v) :
    Text.IsUnbroken token := by
  obtain ⟨r, run, rfl⟩ := List.mem_map.1 member
  intro c inRun
  rw [String.toList_ofList] at inRun
  have kept := (Text.mem_runs run).2 c inRun
  simp only [isSeparator, Bool.or_eq_false_iff] at kept
  exact kept.1.1

theorem isUnbroken_of_parse {v : Value} {s : Switch} (read : parse v = .ok s) :
    s.Gives Text.IsUnbroken := by
  refine gives_of_parse (by decide) (fun token member name value divided _ c inValue => ?_) read
  exact isUnbroken_of_mem_tokens member c (subset_of_assignment? divided inValue)

theorem Gives.of_resistance? {p : String → Prop} {s : Switch} (gives : s.Gives p) {t : Throw}
    {r : String} (found : s.resistance? t = some r) : p r := by
  unfold resistance? at found
  split at found
  · exact Option.some.inj found ▸ gives.ron
  · exact gives.roff r found

end Switch

namespace Component

variable {c : Component} {nets : PinNets} {es : List Element} {e : Element}

theorem HasLetter.isUnbroken {letter : String} (has : c.HasLetter letter) :
    Text.IsUnbroken letter := by
  obtain ⟨k, stored, _, _, found⟩ := has
  cases k <;> cases given : stored != "" <;> rw [given] at found <;> cases found <;> decide

theorem Emits.exists_joins (emits : c.Emits nets (.ok es)) (member : e ∈ es) :
    ∃ p ∈ c.pins, ∃ q ∈ c.pins, c.Joins nets p q e := by
  have throw : ∀ {roles s t} {e : Element}, Roles.ofPins? c.pins = some roles →
      c.IsThrow nets roles s t e → ∃ p ∈ c.pins, ∃ q ∈ c.pins, c.Joins nets p q e :=
    fun cast isThrow =>
      ⟨_, mem_of_ofPins? cast .c, _, mem_of_ofPins? cast (throwRole _), isThrow.joins⟩
  cases emits with
  | terminal kind two pins given isTerminal =>
      obtain rfl := List.mem_singleton.1 member
      obtain ⟨p, q, rest, pins, joins⟩ := isTerminal.pins
      exact ⟨p, by simp [pins], q, by simp [pins], joins⟩
  | openSwitch kind pins cast setting roff active =>
      obtain rfl := List.mem_singleton.1 member
      exact throw cast active
  | closedSwitch kind pins cast setting roff active inactive =>
      rcases List.mem_pair.1 member with rfl | rfl
      · exact throw cast active
      · exact throw cast inactive
  | fewPins | blankVoltmeter | silent => cases member

variable {ch : Char} (blank : Text.isBlank ch = true)

include blank

theorem IsTerminal.blank_mem_id_iff (isTerminal : c.IsTerminal nets e)
    (plain : ch ∉ e.netA.toList) : ch ∈ e.id.toList ↔ ch ∈ (identifier c.id).toList := by
  obtain ⟨letter, has, id⟩ := isTerminal.id
  rw [id, blank_mem_lettered_iff blank has.isUnbroken]
  split
  next none =>
    rw [none]
    refine iff_of_false (fun member => ?_) List.not_mem_nil
    have inside := Text.mem_of_mem_trim member
    rw [Value.content_text, String.toList_append, List.mem_append] at inside
    exact inside.elim (has.isUnbroken.not_mem blank) plain
  next =>
    change ch ∈ (Text.trim (identifier c.id)).toList ↔ _
    rw [trim_identifier]

theorem IsThrow.blank_mem_id_iff {roles : Roles} {s : Switch} {t : Throw}
    (isThrow : c.IsThrow nets roles s t e) :
    ch ∈ e.id.toList ↔ ch ∈ (identifier c.id).toList := by
  have letter : Text.IsUnbroken t.letter := by cases t <;> decide
  have trimmed : Text.trim (identifier c.id ++ t.letter) = identifier c.id ++ t.letter := by
    by_cases none : identifier c.id = ""
    · rw [none, String.empty_append, letter.trim_eq]
    · exact Text.trim_append (trim_identifier c.id) letter.trim_eq none (by cases t <;> decide)
  rw [isThrow.id, blank_mem_lettered_iff blank (by decide)]
  change ch ∈ (Text.trim (identifier c.id ++ t.letter)).toList ↔ _
  rw [trimmed, String.toList_append, List.mem_append]
  exact or_iff_left (letter.not_mem blank)

/-- The name of an element has the blanks of the id of its component, and those of its first net if
it is named after that. -/
theorem Emits.blank_mem_id_iff (emits : c.Emits nets (.ok es)) (member : e ∈ es)
    (plain : ch ∉ e.netA.toList) : ch ∈ e.id.toList ↔ ch ∈ (identifier c.id).toList := by
  cases emits with
  | terminal kind two pins given isTerminal =>
      obtain rfl := List.mem_singleton.1 member
      exact isTerminal.blank_mem_id_iff blank plain
  | openSwitch kind pins cast setting roff active =>
      obtain rfl := List.mem_singleton.1 member
      exact active.blank_mem_id_iff blank
  | closedSwitch kind pins cast setting roff active inactive =>
      rcases List.mem_pair.1 member with rfl | rfl
      · exact active.blank_mem_id_iff blank
      · exact inactive.blank_mem_id_iff blank
  | fewPins | blankVoltmeter | silent => cases member

theorem IsThrow.blank_not_mem_value {roles : Roles} {s : Switch} {t : Throw}
    (setting : Switch.parse c.value = .ok s) (isThrow : c.IsThrow nets roles s t e) :
    ch ∉ e.value.toList := by
  obtain ⟨r, resistance, value⟩ := isThrow.value
  rw [value, blank_mem_simulatorText_iff blank]
  exact ((Switch.isUnbroken_of_parse setting).of_resistance? resistance).not_mem blank

theorem Emits.blank_mem_value_iff (emits : c.Emits nets (.ok es)) (member : e ∈ es) :
    ch ∈ e.value.toList ↔
      c.kind? ≠ some .switch ∧ ∃ stored, c.valueText = .ok stored ∧ ch ∈ stored.toList := by
  have throw : ∀ {roles s t} {e : Element}, c.kind? = some .switch → Switch.parse c.value = .ok s →
      c.IsThrow nets roles s t e → (ch ∈ e.value.toList ↔
        c.kind? ≠ some .switch ∧ ∃ stored, c.valueText = .ok stored ∧ ch ∈ stored.toList) :=
    fun kind setting isThrow =>
      iff_of_false (isThrow.blank_not_mem_value blank setting) fun other => other.1 kind
  cases emits with
  | terminal kind two pins given isTerminal =>
      obtain rfl := List.mem_singleton.1 member
      obtain ⟨k, stored, _, valued, shown⟩ := isTerminal.value
      have other : c.kind? ≠ some .switch := by
        rw [kind]
        rintro ⟨⟩
        cases two
      have unique : (∃ t, c.valueText = .ok t ∧ ch ∈ t.toList) ↔ ch ∈ stored.toList := by
        simp [valued]
      rw [and_iff_right other, unique, shown]
      split
      next none =>
        rw [none]
        exact iff_of_false (k.blank_not_mem_fallback blank) List.not_mem_nil
      next => exact blank_mem_simulatorText_iff blank stored
  | openSwitch kind pins cast setting roff active =>
      obtain rfl := List.mem_singleton.1 member
      exact throw kind setting active
  | closedSwitch kind pins cast setting roff active inactive =>
      rcases List.mem_pair.1 member with rfl | rfl
      · exact throw kind setting active
      · exact throw kind setting inactive
  | fewPins | blankVoltmeter | silent => cases member

end Component

namespace Naming

variable {ν : Type} {d : Drawing} {ordered : List (Net ν)}

theorem isUnbroken_defaultName (k : Nat) : Text.IsUnbroken (defaultName k) := by
  intro c member
  rw [defaultName, String.toList_append, Value.toList_intText] at member
  rcases List.mem_append.1 member with letter | digit
  · exact (by decide : Text.IsUnbroken "N") c letter
  · exact Bool.eq_false_iff.2 (Decimal.not_isBlank_of_mem_natDigits digit)

theorem Origin.exists_label {i : Nat} {n : Net ν} {name : String}
    (origin : Origin d ordered i n name) (broken : ¬ Text.IsUnbroken name) :
    ∃ x ∈ d.components, x.kind? = some .net ∧ x.label = name := by
  cases origin with
  | ground => exact absurd (by decide) broken
  | number => exact absurd (isUnbroken_defaultName _) broken
  | label _ leads =>
      obtain ⟨member, _⟩ := mem_of_leader? leads
      obtain ⟨m, _, _, labelled⟩ := mem_claims.1 member
      obtain ⟨_, head, _⟩ := Drawing.verdict_eq_labelled_iff.1 labelled
      obtain ⟨t, _, found⟩ := List.mem_filterMap.1 (List.mem_of_head? head)
      obtain ⟨x, listed, kind, _, same⟩ := Drawing.exists_of_label? found
      exact ⟨x, listed, kind, by rw [same]; rfl⟩

end Naming

theorem Component.IsTidy.valueText_eq {x : Component} (tidy : x.IsTidy) :
    x.valueText = .ok (Text.trim x.value.content) := by
  obtain ⟨s, value⟩ := tidy.value
  unfold valueText
  rw [value]
  split
  next => rfl
  next blank =>
    have none : s = "" := by simpa using blank
    rw [none]
    rfl

/-- Where the texts of an element come from: nothing is missing, and its blanks are those of the id
and the value of its component and of the labels of named nodes. -/
structure Element.DrawsOn (e : Element) (d : Drawing) (x : Component) : Prop where
  given : e.id ≠ "" ∧ e.netA ≠ "" ∧ e.netB ≠ ""
  id : ∀ ch, Text.isBlank ch = true → ch ∉ e.netA.toList →
    (ch ∈ e.id.toList ↔ ch ∈ (identifier x.id).toList)
  value : ∀ ch, Text.isBlank ch = true →
    (ch ∈ e.value.toList ↔ x.kind? ≠ some .switch ∧ ch ∈ (Text.trim x.value.content).toList)
  nets : ∀ name ∈ [e.netA, e.netB], ¬ Text.IsUnbroken name →
    ∃ y ∈ d.components, y.kind? = some .net ∧ y.label = name

namespace Drawing

variable {d : Drawing} {title : String} {c : Compilation}

theorem CompilesTo.exists_origin_of_find? (compiles : d.CompilesTo title c)
    {component pin name : String}
    (found : c.pinNets.find? (.text component) (.text pin) = some name) :
    ∃ i n, Naming.Origin d (Net.sorted c.nets) i n name := by
  rw [compiles.find?_pinNets, Option.bind_eq_some_iff] at found
  obtain ⟨n, last, named⟩ := found
  have listed := List.mem_reverse.1 (List.mem_of_find?_eq_some last)
  obtain ⟨i, a, _, named', origin⟩ := exists_origin_of_naming compiles.nets compiles.naming listed
  obtain rfl := Option.some.inj (named.symm.trans named')
  exact ⟨i, n, origin⟩

theorem CompilesTo.exists_origins_of_joins (compiles : d.CompilesTo title c) {x : Component}
    (tidy : x.IsTidy) {p q : Pin} (inP : p ∈ x.pins) (inQ : q ∈ x.pins) {e : Element}
    (joins : x.Joins c.pinNets p q e) :
    ∀ name ∈ [e.netA, e.netB], ∃ i n, Naming.Origin d (Net.sorted c.nets) i n name := by
  obtain ⟨s, id⟩ := tidy.id
  obtain ⟨t, pinP⟩ := (tidy.pins p inP).id
  obtain ⟨u, pinQ⟩ := (tidy.pins q inQ).id
  have netA := joins.netA
  have netB := joins.netB
  rw [id, pinP] at netA
  rw [id, pinQ] at netB
  intro name member
  rcases List.mem_pair.1 member with rfl | rfl
  · exact compiles.exists_origin_of_find? netA
  · exact compiles.exists_origin_of_find? netB

theorem Built.exists_compile_drawsOn (built : d.Built) (title : String) :
    ∃ c shares, d.compile title = .ok c ∧ d.CompilesBy title c shares ∧
      ∀ s ∈ shares, ∀ line ∈ s.lines, ∃ e,
        line = .element s.component.id s.component.tag e ∧ e.DrawsOn d s.component := by
  obtain ⟨c, compiled⟩ := built.exists_compile built.isPlaced title
  have compiles := compilesTo_of_compile compiled
  obtain ⟨m, shares, grows, parts⟩ := compiles.exists_growsBy built
  refine ⟨c, shares, compiled, parts, fun s member line inS => ?_⟩
  obtain ⟨e, id, paired, rfl⟩ := Netlist.Share.mem_lines_iff.1 inS
  have listed : s.component ∈ d.components := by
    rw [← parts.components]
    exact List.mem_map_of_mem member
  have tidy := built.component_isTidy _ listed
  obtain ⟨es, result, inEs⟩ := Netlist.Share.mem_elements_iff.1 (List.of_mem_zip paired).1
  have emits := parts.emits s member
  rw [result] at emits
  obtain ⟨p, inP, q, inQ, joins⟩ := emits.exists_joins inEs
  have origins := compiles.exists_origins_of_joins tidy inP inQ joins
  have named : ∀ name ∈ [e.netA, e.netB], name ≠ "" := by
    intro name member
    obtain ⟨i, n, origin⟩ := origins name member
    exact origin.ne_empty
  refine ⟨{ e with id }, rfl, ?_, fun ch blank plain => ?_, fun ch blank => ?_, ?_⟩
  · exact ⟨(grows.answers member paired).stem.given, named _ (by simp), named _ (by simp)⟩
  · obtain ⟨letter, v, has, asked⟩ := emits.exists_lettered tidy inEs
    have wanted : identifier (.text e.id) = e.id := by
      rw [asked]
      exact (has.isLetter.isStem_lettered (.text v)).trimmed
    have handed : ch ∈ id.toList ↔ ch ∈ (identifier (.text e.id)).toList :=
      grows.rel_of_paired (r := fun v id => ch ∈ id.toList ↔ ch ∈ (identifier v).toList)
        (Allocator.blank_mem_allocate_iff blank) member paired
    rw [wanted] at handed
    exact handed.trans (emits.blank_mem_id_iff blank inEs plain)
  · rw [emits.blank_mem_value_iff blank inEs, tidy.valueText_eq]
    simp
  · intro name member broken
    obtain ⟨i, n, origin⟩ := origins name member
    exact origin.exists_label broken

end Drawing

end Schematic
