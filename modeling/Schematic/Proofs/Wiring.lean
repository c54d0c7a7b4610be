import Schematic.Proofs.Compile
/-!
The nets on the line of a component, and the nets that its pins lie on.
-/

namespace Schematic

namespace Compilation

def NamesPlace (c : Compilation) (q : Point) (name : String) : Prop :=
  ∃ n ∈ c.nets, q.key ∈ n.nodes ∧ c.naming.names.get? n.id = some name

def NamesPin (c : Compilation) (p : Pin) (name : String) : Prop :=
  ∃ q, p.place = .ok (some q) ∧ c.NamesPlace q name

/-- Whether the last net that lists the ids of a pin has the name of the net that the pin lies on. -/
def Resolves (c : Compilation) (x : Component) (p : Pin) : Prop :=
  ∃ m name, PinNets.lastNet? c.nets x.id.content p.id.content = some m ∧
    c.naming.names.get? m.id = some name ∧ c.NamesPin p name

end Compilation

namespace Drawing

variable {d : Drawing} {title : String} {c : Compilation}

theorem exists_hasPinAt_of_twoTerminal (built : d.Built) (placed : d.IsPlaced) {x : Component}
    (listed : x ∈ d.components) {k : Kind} (kind : x.kind? = some k) (two : k.isTwoTerminal = true)
    {p : Pin} (member : p ∈ x.pins) : ∃ q, d.HasPinAt x p q :=
  built.exists_hasPinAt placed listed (Component.isElectrical_of_twoTerminal kind two) member

namespace CompilesTo

variable (compiles : d.CompilesTo title c)

include compiles

theorem namesPlace_unique {q : Point} {a b : String} (namedA : c.NamesPlace q a)
    (namedB : c.NamesPlace q b) : a = b := by
  obtain ⟨m, netM, inM, nameM⟩ := namedA
  obtain ⟨n, netN, inN, nameN⟩ := namedB
  obtain rfl := compiles.hasNets.eq_of_mem_nodes netM netN inM inN
  exact Option.some.inj (nameM.symm.trans nameN)

theorem namesPin_unique {p : Pin} {a b : String} (namedA : c.NamesPin p a)
    (namedB : c.NamesPin p b) : a = b := by
  obtain ⟨q, placeA, namedA⟩ := namedA
  obtain ⟨q', placeB, namedB⟩ := namedB
  obtain rfl := Option.some.inj (Except.ok.inj (placeA.symm.trans placeB))
  exact compiles.namesPlace_unique namedA namedB

/-- The name that a pin is looked up by is that of its net just when the last net of its ids has
that name. -/
theorem namesPin_iff_resolves (built : d.Built) {x : Component} {p : Pin} {q : Point}
    (pinned : d.HasPinAt x p q) {name : String} (found : c.pinNets.find? x.id p.id = some name) :
    c.NamesPin p name ↔ c.Resolves x p := by
  rw [compiles.find?_of_hasPinAt built pinned, Option.bind_eq_some_iff] at found
  obtain ⟨m, last, named⟩ := found
  constructor
  · exact fun names => ⟨m, name, last, named, names⟩
  · rintro ⟨m', name', last', named', names⟩
    obtain rfl := Option.some.inj (last.symm.trans last')
    obtain rfl := Option.some.inj (named.symm.trans named')
    exact names

theorem exists_find?_pinNets (built : d.Built) {x : Component} {p : Pin} {q : Point}
    (pinned : d.HasPinAt x p q) :
    ∃ name, c.pinNets.find? x.id p.id = some name ∧ c.pinNets.net? x.id p.id = .ok (some name) := by
  obtain ⟨n, ⟨netN, inN⟩, _⟩ := compiles.hasNets.existsUnique_net pinned.mem_terminals
  obtain ⟨m, netM, _, last⟩ := PinNets.exists_lastNet? netN ⟨_, inN, rfl⟩
  obtain ⟨name, named, given⟩ := compiles.exists_name netM
  have found : c.pinNets.find? x.id p.id = some name := by
    rw [compiles.find?_of_hasPinAt built pinned]
    exact Option.bind_eq_some_iff.2 ⟨m, last, named⟩
  have tidy := built.component_isTidy x pinned.listed
  obtain ⟨s, id⟩ := tidy.id
  obtain ⟨t, pinId⟩ := (tidy.pins p pinned.member).id
  rw [id, pinId] at found ⊢
  exact ⟨name, found, PinNets.net?_of_find? found given⟩

end CompilesTo

theorem exists_line (built : d.Built) (compiles : d.CompilesTo title c)
    {before after : List Component} {x : Component} (split : d.components = before ++ x :: after)
    {k : Kind} (kind : x.kind? = some k) (two : k.isTwoTerminal = true) {p q : Pin}
    {rest : List Pin} (pins : x.pins = p :: q :: rest)
    (given : k = .voltmeter → x.valueText ≠ .ok "") :
    ∃ pre e post, Netlist.Adds c.pinNets .standard title before x [.element x.id x.tag e] ∧
      c.netlist.lines = pre ++ [.element x.id x.tag e] ++ post ∧ x.Joins c.pinNets p q e := by
  have listed : x ∈ d.components := by simp [split]
  have pinned := fun (p : Pin) (member : p ∈ x.pins) =>
    exists_hasPinAt_of_twoTerminal built compiles.isPlaced listed kind two member
  obtain ⟨u, pinnedP⟩ := pinned p (by simp [pins])
  obtain ⟨v, pinnedQ⟩ := pinned q (by simp [pins])
  obtain ⟨a, _, netA⟩ := compiles.exists_find?_pinNets built pinnedP
  obtain ⟨b, _, netB⟩ := compiles.exists_find?_pinNets built pinnedQ
  obtain ⟨stored, value⟩ := (built.component_isTidy x listed).exists_valueText
  obtain ⟨e, made⟩ : ∃ e, x.elements c.pinNets .standard = .ok (.ok [e]) :=
    Component.exists_element kind two pins netA netB value
      fun isVoltmeter blank => given isVoltmeter (blank ▸ value)
  have netlist := compiles.netlist
  rw [split] at netlist
  obtain ⟨pre, block, post, adds, lines⟩ := Netlist.exists_adds netlist
  obtain ⟨line, rfl⟩ := adds.eq_singleton made
  obtain ⟨p', q', rest', pins', joins⟩ :=
    Component.joins_of_twoTerminal made kind two (List.mem_singleton_self e)
  obtain ⟨rfl, rfl, rfl⟩ : p = p' ∧ q = q' ∧ rest = rest' := by
    rw [pins] at pins'
    simpa using pins'
  exact ⟨pre, { e with id := line }, post, adds, lines, joins.netA, joins.netB⟩

/-- The line of a component between two pins names the nets that its own two pins lie on just when
for each of them the last net that lists its ids has the name of its net. -/
theorem line_names_own_pins_iff (built : d.Built) (compiled : d.compile title = .ok c)
    {before after : List Component} {x : Component} (split : d.components = before ++ x :: after)
    {k : Kind} (kind : x.kind? = some k) (two : k.isTwoTerminal = true) {p q : Pin}
    {rest : List Pin} (pins : x.pins = p :: q :: rest)
    (given : k = .voltmeter → x.valueText ≠ .ok "") :
    ∃ pre e post, Netlist.Adds c.pinNets .standard title before x [.element x.id x.tag e] ∧
      c.netlist.lines = pre ++ [.element x.id x.tag e] ++ post ∧
      ((c.NamesPin p e.netA ∧ c.NamesPin q e.netB) ↔ (c.Resolves x p ∧ c.Resolves x q)) := by
  have compiles := compilesTo_of_compile compiled
  have listed : x ∈ d.components := by simp [split]
  have pinned := fun (p : Pin) (member : p ∈ x.pins) =>
    exists_hasPinAt_of_twoTerminal built compiles.isPlaced listed kind two member
  obtain ⟨u, pinnedP⟩ := pinned p (by simp [pins])
  obtain ⟨v, pinnedQ⟩ := pinned q (by simp [pins])
  obtain ⟨pre, e, post, adds, lines, joins⟩ :=
    exists_line built compiles split kind two pins given
  refine ⟨pre, e, post, adds, lines, ?_⟩
  exact and_congr (compiles.namesPin_iff_resolves built pinnedP joins.netA)
    (compiles.namesPin_iff_resolves built pinnedQ joins.netB)

def twins : Drawing :=
  let resistor := fun y : Nat =>
    let pin := fun (id : String) (x : Nat) => Pin.at id ⟨.lit x 0, .lit y 0⟩
    (⟨.text "R1", .text "R", .text "1k", [pin "1" 0, pin "2" 20], .null, .null⟩ : Component)
  { components := [resistor 0, resistor 100], wires := [] }

theorem built_twins : twins.Built := by
  refine .of_tidy (fun c member => ?_) (by simp)
  rcases List.mem_pair.1 member with rfl | rfl
  all_goals
    refine Component.tidy_of_pins fun p member => ?_
    rcases List.mem_pair.1 member with rfl | rfl
    all_goals exact Pin.tidy_at (by decide) (by decide +kernel)

theorem line_names_own_pins_iff_twins :
    ∃ c x after p q, twins.compile "schematic" = .ok c ∧ twins.components = x :: after ∧
      x.kind? = some .resistor ∧ x.pins = [p, q] ∧
      ∃ pre e post, Netlist.Adds c.pinNets .standard "schematic" [] x [.element x.id x.tag e] ∧
        c.netlist.lines = pre ++ [.element x.id x.tag e] ++ post ∧
        ((c.NamesPin p e.netA ∧ c.NamesPin q e.netB) ↔ (c.Resolves x p ∧ c.Resolves x q)) := by
  obtain ⟨c, compiled⟩ := built_twins.exists_compile (by decide +kernel) "schematic"
  have kind : Kind.ofValue? (.text "R") = some .resistor := by decide +kernel
  have split : twins.components = [] ++ _ :: _ := rfl
  exact ⟨c, _, _, _, _, compiled, rfl, kind, rfl,
    line_names_own_pins_iff built_twins compiled split kind rfl rfl nofun⟩

/-- The line of the first of the two names the nets of the second. -/
theorem line_of_first_twin :
    twins.Built ∧ ∃ c x after p q, twins.compile "schematic" = .ok c ∧
      twins.components = x :: after ∧ x.kind? = some .resistor ∧ x.pins = [p, q] ∧
      ∃ e, Netlist.Adds c.pinNets .standard "schematic" [] x [.element x.id x.tag e] ∧
        e.netA = "N3" ∧ c.NamesPin p "N1" ∧ ¬ c.NamesPin p e.netA ∧
        e.netB = "N4" ∧ c.NamesPin q "N2" ∧ ¬ c.NamesPin q e.netB := by
  obtain ⟨c, compiled⟩ := built_twins.exists_compile (by decide +kernel) "schematic"
  have compiles := compilesTo_of_compile compiled
  have kind : Kind.ofValue? (.text "R") = some .resistor := by decide +kernel
  have split : twins.components = [] ++ _ :: _ := rfl
  obtain ⟨pre, e, post, adds, _, joins⟩ :=
    exists_line built_twins compiles split kind rfl rfl nofun
  have nets := (nets_eq_ok.1 compiles.nets).2
  have sorted : Net.sorted c.nets = c.nets := by
    rw [nets]
    exact List.mergeSort_of_pairwise (by decide +kernel)
  have names : c.naming.names = [("N1", "N1"), ("N2", "N2"), ("N3", "N3"), ("N4", "N4")] := by
    rw [(naming_eq_ok.1 compiles.naming).2, sorted, nets]
    decide +kernel
  have netA : c.pinNets.find? (.text "R1") (.text "1") = some "N3" := by
    rw [compiles.pinNets, names, nets]
    decide +kernel
  have netB : c.pinNets.find? (.text "R1") (.text "2") = some "N4" := by
    rw [compiles.pinNets, names, nets]
    decide +kernel
  have isA : e.netA = "N3" := Option.some.inj (joins.netA.symm.trans netA)
  have isB : e.netB = "N4" := Option.some.inj (joins.netB.symm.trans netB)
  have namesFirst : c.NamesPin (.at "1" ⟨.lit 0 0, .lit 0 0⟩) "N1" := by
    refine ⟨_, Point.IsStable.ofCoordinates (by decide +kernel), ?_⟩
    rw [Compilation.NamesPlace, names, nets]
    decide +kernel
  have namesSecond : c.NamesPin (.at "2" ⟨.lit 20 0, .lit 0 0⟩) "N2" := by
    refine ⟨_, Point.IsStable.ofCoordinates (by decide +kernel), ?_⟩
    rw [Compilation.NamesPlace, names, nets]
    decide +kernel
  refine ⟨built_twins, c, _, _, _, _, compiled, rfl, kind, rfl, e, adds, isA, namesFirst, ?_, isB,
    namesSecond, ?_⟩
  · intro names
    exact absurd (isA.symm.trans (compiles.namesPin_unique names namesFirst)) (by decide)
  · intro names
    exact absurd (isB.symm.trans (compiles.namesPin_unique names namesSecond)) (by decide)

end Drawing

end Schematic
