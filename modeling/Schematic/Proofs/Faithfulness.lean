import Schematic.Proofs.DistinctIds
import Schematic.Proofs.Naming.Sharing
import Schematic.Proofs.Wiring
/-!
A netlist without complaints has the connections of its drawing: pins share a name just when they
are connected, by wires, by ground or by a label, and every line lies between pins of its component.
-/

namespace Schematic

/-- Whether a line lies between the nets of pins of its component: of the first two, or of the common
pin of a switch and of the throw that the line stands for. -/
inductive Netlist.Line.IsWired (d : Drawing) (nets : PinNets) (line : Line) : Prop
  | pins {x : Component} {k : Kind} {p q : Pin} {rest : List Pin} {e : Element}
      (listed : x ∈ d.components) (shows : line.Shows x e) (kind : x.kind? = some k)
      (two : k.isTwoTerminal = true) (pins : x.pins = p :: q :: rest) (joins : x.Joins nets p q e)
  | throw {x : Component} {roles : Roles} {s : Switch} {t : Throw} {e : Element}
      (listed : x ∈ d.components) (shows : line.Shows x e) (kind : x.kind? = some .switch)
      (cast : Roles.ofPins? x.pins = some roles) (setting : SwitchReader.standard x.value = .ok s)
      (isThrow : x.IsThrow nets roles s t e)

namespace Drawing

variable {d : Drawing} {title : String} {c : Compilation}

theorem CompilesTo.isWired_of_mem_lines (compiles : d.CompilesTo title c) {line : Netlist.Line}
    (member : line ∈ c.netlist.lines) :
    line = Netlist.header title ∨ line = Netlist.footer ∨ line.IsWired d c.pinNets := by
  rcases Netlist.shows_of_mem_lines compiles.netlist member with
    first | last | ⟨x, listed, es, made, e, inEs, shows⟩
  · exact .inl first
  · exact .inr (.inl last)
  · refine .inr (.inr ?_)
    obtain ⟨k, kind, two | rfl⟩ := Component.kind_of_mem_elements made inEs
    · obtain ⟨p, q, rest, pins, joins⟩ := Component.joins_of_twoTerminal made kind two inEs
      exact .pins listed shows kind two pins joins
    · obtain ⟨roles, s, t, cast, setting, isThrow⟩ := Component.throw_of_switch made kind inEs
      exact .throw listed shows kind cast setting isThrow

theorem CompilesTo.exists_own_net (compiles : d.CompilesTo title c) (built : d.Built)
    (distinct : d.HasDistinctIds) {x : Component} {p : Pin} {q : Point}
    (pinned : d.HasPinAt x p q) :
    ∃ n ∈ c.nets, p.terminalAt x.id q ∈ n.terminals ∧
      ∃ a, c.naming.names.get? n.id = some a ∧ c.pinNets.find? x.id p.id = some a := by
  obtain ⟨n, ⟨netN, inN⟩, _⟩ := compiles.hasNets.existsUnique_net pinned.mem_terminals
  obtain ⟨a, named, _⟩ := compiles.exists_name netN
  refine ⟨n, netN, inN, a, named, ?_⟩
  rw [compiles.find?_of_hasPinAt built pinned]
  exact Option.bind_eq_some_iff.2
    ⟨n, lastNet?_of_mem built distinct compiles.hasNets netN inN, named⟩

/-- Pins share a name just when they are connected, or both grounded, or both labelled alike. -/
theorem CompilesTo.same_name_of_pins_iff (compiles : d.CompilesTo title c) (built : d.Built)
    (distinct : d.HasDistinctIds) (noErrors : c.errors = [])
    (apart : ∀ l, Naming.clashWarning l ∉ c.warnings) {x y : Component} {p q : Pin} {u v : Point}
    (pinnedP : d.HasPinAt x p u) (pinnedQ : d.HasPinAt y q v) :
    ∃ a b, c.pinNets.find? x.id p.id = some a ∧ c.pinNets.find? y.id q.id = some b ∧
      (Text.lower a = Text.lower b ↔ d.Joined u v) := by
  have hasNets := compiles.hasNets
  obtain ⟨m, netM, inM, a, namedM, foundP⟩ := compiles.exists_own_net built distinct pinnedP
  obtain ⟨n, netN, inN, b, namedN, foundQ⟩ := compiles.exists_own_net built distinct pinnedQ
  refine ⟨a, b, foundP, foundQ, ?_⟩
  rw [same_name_iff compiles.nets compiles.naming (Compilation.naming_errors_eq_nil noErrors)
    (Compilation.naming_clashes_eq_nil apart) netM netN namedM namedN]
  have connected : m = n ↔ d.layout.Connected u v := by
    refine Iff.trans ?_ (hasNets.mem_net_iff netM inM pinnedQ.mem_terminals)
    constructor
    · rintro rfl
      exact inN
    · intro here
      exact hasNets.eq_of_mem_terminals netM netN here inN
  have groundsM := grounds_iff built.id_isText distinct.components hasNets netM inM
  have groundsN := grounds_iff built.id_isText distinct.components hasNets netN inN
  have labelsM := labels_iff built.id_isText distinct.components hasNets netM inM
  have labelsN := labels_iff built.id_isText distinct.components hasNets netN inN
  simp only [← Bool.not_eq_true, connected, groundsM, groundsN, labelsM, labelsN]
  rfl

/-- Compiling a drawing without repeated ids, on the grid, and without complaints keeps its
connections. -/
theorem compile_keeps_connections (built : d.Built) (distinct : d.HasDistinctIds)
    (onGrid : d.OnGrid) (title : String) :
    ∃ c, d.compile title = .ok c ∧
      (c.errors = [] → (∀ l, Naming.clashWarning l ∉ c.warnings) →
        (∀ x ∈ d.components, x.isElectrical = true → ∀ p ∈ x.pins, ∃ u, d.HasPinAt x p u) ∧
        (∀ x p u y q v, d.HasPinAt x p u → d.HasPinAt y q v →
          ∃ a b, c.pinNets.find? x.id p.id = some a ∧ c.pinNets.find? y.id q.id = some b ∧
            (Text.lower a = Text.lower b ↔ d.Joined u v)) ∧
        ∀ line ∈ c.netlist.lines, line = Netlist.header title ∨ line = Netlist.footer ∨
          line.IsWired d c.pinNets) := by
  obtain ⟨c, compiled⟩ := built.exists_compile onGrid.isPlaced title
  have compiles := compilesTo_of_compile compiled
  refine ⟨c, compiled, fun noErrors apart => ⟨?_, ?_, ?_⟩⟩
  · intro x listed electrical p member
    exact built.exists_hasPinAt onGrid.isPlaced listed electrical member
  · intro x p u y q v pinnedP pinnedQ
    exact compiles.same_name_of_pins_iff built distinct noErrors apart pinnedP pinnedQ
  · exact fun line member => compiles.isWired_of_mem_lines member

/-- A grounded resistor and a switch, joined by the labels `out` and `OUT`. -/
def labelledSwitch : Drawing :=
  let place := fun x y : Nat => (⟨.lit x 0, .lit y 0⟩ : Point)
  let part := fun id type value pins =>
    (⟨.text id, .text type, .text value, pins, .null, .null⟩ : Component)
  { components := [
      part "R1" "R" "1k" [.at "1" (place 0 0), .at "2" (place 20 0)],
      part "G1" "GND" "" [.at "0" (place 0 40)],
      part "out" "NET" "" [.at "1" (place 20 0)],
      part "OUT" "NET" "" [.at "1" (place 40 0)],
      part "S1" "SW" "A" [.at "C" (place 40 0), .at "A" (place 60 0), .at "B" (place 80 0)]]
    wires := [⟨.text "W1", [place 0 0, place 0 40].map Point.toValue⟩] }

theorem pins_labelledSwitch : ∀ c ∈ labelledSwitch.components, ∀ p ∈ c.pins,
    ∃ id q, id ≠ "" ∧ Point.IsStable q ∧ p = .at id q := by
  have pin : ∀ {id : String} {q : Point}, id ≠ "" → q.IsStable →
      ∃ id' q', id' ≠ "" ∧ Point.IsStable q' ∧ Pin.at id q = .at id' q' :=
    fun given stable => ⟨_, _, given, stable, rfl⟩
  simp only [labelledSwitch, List.forall_mem_cons, List.not_mem_nil, false_implies, implies_true,
    and_true]
  refine ⟨⟨?_, ?_⟩, ?_, ?_, ?_, ?_, ?_, ?_⟩
  all_goals exact pin (by decide) (by decide +kernel)

theorem points_labelledSwitch : ∀ w ∈ labelledSwitch.wires, ∃ id, ∃ qs : List Point,
    (∀ q ∈ qs, q.IsStable) ∧ w = ⟨.text id, qs.map Point.toValue⟩ := by
  intro w member
  obtain rfl := List.mem_singleton.1 member
  exact ⟨_, _, by decide +kernel, rfl⟩

theorem built_labelledSwitch : labelledSwitch.Built := by
  refine .of_tidy (fun c member => ?_) fun w member => ?_
  · have tidy : ∀ p ∈ c.pins, p.tidy = .ok p := by
      intro p inC
      obtain ⟨id, q, given, stable, rfl⟩ := pins_labelledSwitch c member p inC
      exact Pin.tidy_at given stable
    simp only [List.mem_cons, List.not_mem_nil, or_false] at member
    rcases member with rfl | rfl | rfl | rfl | rfl
    all_goals exact Component.tidy_of_pins tidy
  · obtain ⟨id, qs, stable, rfl⟩ := points_labelledSwitch w member
    exact Wire.tidy_of_points stable

theorem onGrid_labelledSwitch : labelledSwitch.OnGrid where
  pins := by
    intro c member p inC
    obtain ⟨id, q, _, stable, rfl⟩ := pins_labelledSwitch c member p inC
    exact stable.onGrid
  points := by
    intro w member v inW
    obtain ⟨id, qs, stable, rfl⟩ := points_labelledSwitch w member
    obtain ⟨q, inQs, rfl⟩ := List.mem_map.1 inW
    exact ⟨.float q.x, .float q.y, rfl, (stable q inQs).onGrid⟩

theorem hasDistinctIds_labelledSwitch : labelledSwitch.HasDistinctIds where
  components := by simp [labelledSwitch]
  pins := by simp [labelledSwitch, Pin.at, Pin.named]

theorem no_complaints_labelledSwitch {c : Compilation}
    (compiles : labelledSwitch.CompilesTo "schematic" c) : c.errors = [] ∧ c.warnings = [] := by
  have ordered : (Graph.ofPlacement labelledSwitch.layout).nets.Pairwise
      fun a b => (a.anchor .origin).le (b.anchor .origin) = true := by
    decide +kernel
  constructor
  · have messages : (Netlist.ofComponents
        (.ofNets
          (Naming.ofOrdered labelledSwitch (Graph.ofPlacement labelledSwitch.layout).nets).names
          (Graph.ofPlacement labelledSwitch.layout).nets)
        .standard labelledSwitch.components "schematic").toOption.map (·.errorMessages) =
          some [] := by
      decide +kernel
    rw [compiles.errors_eq ordered messages]
    decide +kernel
  · rw [Compilation.warnings, compiles.naming_eq ordered]
    decide +kernel

theorem compile_keeps_connections_labelledSwitch :
    labelledSwitch.Built ∧ labelledSwitch.HasDistinctIds ∧ labelledSwitch.OnGrid ∧
      ∃ c, labelledSwitch.compile "schematic" = .ok c ∧ c.errors = [] ∧ c.warnings = [] ∧
        (∀ x p u y q v, labelledSwitch.HasPinAt x p u → labelledSwitch.HasPinAt y q v →
          ∃ a b, c.pinNets.find? x.id p.id = some a ∧ c.pinNets.find? y.id q.id = some b ∧
            (Text.lower a = Text.lower b ↔ labelledSwitch.Joined u v)) ∧
        ∀ line ∈ c.netlist.lines, line = Netlist.header "schematic" ∨ line = Netlist.footer ∨
          line.IsWired labelledSwitch c.pinNets := by
  refine ⟨built_labelledSwitch, hasDistinctIds_labelledSwitch, onGrid_labelledSwitch, ?_⟩
  obtain ⟨c, compiled, kept⟩ := compile_keeps_connections built_labelledSwitch
    hasDistinctIds_labelledSwitch onGrid_labelledSwitch "schematic"
  have compiles := compilesTo_of_compile compiled
  obtain ⟨noErrors, noWarnings⟩ := no_complaints_labelledSwitch compiles
  obtain ⟨_, pins, lines⟩ := kept noErrors (by simp [noWarnings])
  exact ⟨c, compiled, noErrors, noWarnings, pins, lines⟩

end Drawing

end Schematic
