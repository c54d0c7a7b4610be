import Schematic.Proofs.Fault
import Schematic.Proofs.Junction.Components
import Schematic.Proofs.Text
import Mathlib.Algebra.BigOperators.Group.List.Basic
/-!
The nets of a drawing are the connected components of its points: of the places at which it has
pins, and of those that its wires lead through.
-/

namespace Schematic

def Value.point? (v : Value) : Option Point :=
  (Point.ofValue v).toOption.join

def Pin.point? (p : Pin) : Option Point :=
  p.place.toOption.join

def Pin.terminalAt (component : Value) (p : Pin) (place : Point) : Terminal :=
  ⟨component.content, p.id.content, p.title, place⟩

namespace Drawing

def traces (d : Drawing) : List (List (Option Point)) :=
  d.wires.map fun w => w.points.map Value.point?

def terminals (d : Drawing) : List Terminal :=
  d.components.flatMap fun c =>
    if c.isElectrical then c.pins.filterMap fun p => p.point?.map (p.terminalAt c.id) else []

def layout (d : Drawing) : Placement :=
  ⟨d.traces, d.terminals⟩

/-- Whether all points can be rounded. -/
structure IsPlaced (d : Drawing) : Prop where
  wires : ∀ w ∈ d.wires, ∀ v ∈ w.points, ∃ place, Point.ofValue v = .ok place
  pins : ∀ c ∈ d.components, c.isElectrical = true → ∀ p ∈ c.pins, ∃ place, p.place = .ok place

end Drawing

theorem Value.ofValue_eq_point? {v : Value} (placed : ∃ place, Point.ofValue v = .ok place) :
    Point.ofValue v = .ok v.point? := by
  obtain ⟨place, found⟩ := placed
  rw [point?, found]
  rfl

theorem Pin.place_eq_point? {p : Pin} (placed : ∃ place, p.place = .ok place) :
    p.place = .ok p.point? := by
  obtain ⟨place, found⟩ := placed
  rw [point?, found]
  rfl

theorem Value.ofValue_of_point? {v : Value} {q : Point} (found : v.point? = some q) :
    Point.ofValue v = .ok (some q) := by
  unfold point? at found
  cases read : Point.ofValue v with
  | error fault => rw [read] at found; cases found
  | ok place => rw [read] at found; exact congrArg Except.ok found

theorem Value.point?_of_ofValue {v : Value} {q : Point} (place : Point.ofValue v = .ok (some q)) :
    v.point? = some q := by
  rw [point?, place]
  rfl

theorem Pin.place_of_point? {p : Pin} {q : Point} (found : p.point? = some q) :
    p.place = .ok (some q) := by
  unfold point? at found
  cases read : p.place with
  | error fault => rw [read] at found; cases found
  | ok place => rw [read] at found; exact congrArg Except.ok found

theorem Pin.point?_of_place {p : Pin} {q : Point} (place : p.place = .ok (some q)) :
    p.point? = some q := by
  rw [point?, place]
  rfl

theorem Pin.terminal_eq_ok {p : Pin} {component : Value} {t : Option Terminal} :
    p.terminal component = .ok t ↔
      ∃ place, p.place = .ok place ∧ place.map (p.terminalAt component) = t := by
  simp only [terminal, Fault.bind_eq_ok, Fault.pure_eq_ok]
  rfl

namespace Component

variable {c : Component}

theorem kind_of_isElectrical (electrical : c.isElectrical = true) {k : Kind}
    (isKind : c.kind? = some k) : k ≠ .text ∧ k.isProbe = false := by
  unfold isElectrical isElectricalTag at electrical
  unfold kind? at isKind
  simpa [isKind, Kind.isElectrical] using electrical

theorem terminals_of_placed
    (placed : c.isElectrical = true → ∀ p ∈ c.pins, ∃ place, p.place = .ok place) :
    c.terminals = .ok
      (if c.isElectrical then c.pins.filterMap fun p => p.point?.map (p.terminalAt c.id)
        else []) := by
  unfold terminals
  split
  next electrical =>
    have each : ∀ p ∈ c.pins,
        p.terminal c.id = .ok (p.point?.map (p.terminalAt c.id)) := by
      intro p member
      exact Pin.terminal_eq_ok.2
        ⟨p.point?, Pin.place_eq_point? (placed electrical p member), rfl⟩
    rw [Fault.mapM_eq_ok_map each]
    change Except.ok _ = _
    rw [List.filterMap_map]
    rfl
  · rfl

theorem placed_of_terminals {ts : List Terminal} (found : c.terminals = .ok ts)
    (electrical : c.isElectrical = true) : ∀ p ∈ c.pins, ∃ place, p.place = .ok place := by
  rw [terminals, if_pos electrical, Fault.bind_eq_ok] at found
  obtain ⟨rows, each, _⟩ := found
  intro p member
  obtain ⟨t, _, read⟩ := Fault.exists_of_mapM_eq_ok each member
  obtain ⟨place, here, _⟩ := Pin.terminal_eq_ok.1 read
  exact ⟨place, here⟩

end Component

namespace Drawing

variable {d : Drawing}

theorem placement_of_placed (placed : d.IsPlaced) : d.placement = .ok d.layout := by
  have traces : d.wires.mapM Wire.trace = .ok d.traces := by
    refine Fault.mapM_eq_ok_map fun w member => Fault.mapM_eq_ok_map fun v inWire => ?_
    exact Value.ofValue_eq_point? (placed.wires w member v inWire)
  have terminals := Fault.mapM_eq_ok_map fun c member =>
    Component.terminals_of_placed (placed.pins c member)
  unfold placement
  rw [traces, terminals]
  change Except.ok _ = _
  rw [← List.flatMap_def]
  rfl

theorem placement_eq_ok {p : Placement} :
    d.placement = .ok p ↔ d.IsPlaced ∧ p = d.layout := by
  constructor
  · intro found
    have placed : d.IsPlaced := by
      unfold placement at found
      simp only [Fault.bind_eq_ok] at found
      obtain ⟨traces, wires, rows, pins, _⟩ := found
      constructor
      · intro w member v inWire
        obtain ⟨trace, _, read⟩ := Fault.exists_of_mapM_eq_ok wires member
        obtain ⟨place, _, here⟩ := Fault.exists_of_mapM_eq_ok read inWire
        exact ⟨place, here⟩
      · intro c member electrical
        obtain ⟨ts, _, read⟩ := Fault.exists_of_mapM_eq_ok pins member
        exact Component.placed_of_terminals read electrical
    rw [placement_of_placed placed] at found
    exact ⟨placed, (Except.ok.inj found).symm⟩
  · rintro ⟨placed, rfl⟩
    exact placement_of_placed placed

theorem isPlaced_iff : d.IsPlaced ↔ d.placement.isOk = true := by
  constructor
  · intro placed
    rw [placement_of_placed placed]
    rfl
  · intro isOk
    cases found : d.placement with
    | error fault => rw [found] at isOk; cases isOk
    | ok p => exact (placement_eq_ok.1 found).1

instance (d : Drawing) : Decidable d.IsPlaced :=
  decidable_of_iff _ isPlaced_iff.symm

theorem graph_of_placed (placed : d.IsPlaced) : d.graph = .ok (.ofPlacement d.layout) := by
  rw [graph, placement_of_placed placed]
  rfl

theorem nets_eq_ok {nets : List (Net Point)} :
    d.nets = .ok nets ↔ d.IsPlaced ∧ nets = (Graph.ofPlacement d.layout).nets := by
  unfold Drawing.nets graph
  simp only [Fault.bind_eq_ok, placement_eq_ok, Fault.pure_eq_ok]
  constructor
  · rintro ⟨_, ⟨_, ⟨placed, rfl⟩, rfl⟩, rfl⟩
    exact ⟨placed, rfl⟩
  · rintro ⟨placed, rfl⟩
    exact ⟨_, ⟨_, ⟨placed, rfl⟩, rfl⟩, rfl⟩

theorem nets_of_placed (placed : d.IsPlaced) :
    d.nets = .ok (Graph.ofPlacement d.layout).nets :=
  nets_eq_ok.2 ⟨placed, rfl⟩

theorem mem_terminals {t : Terminal} :
    t ∈ d.terminals ↔ ∃ c ∈ d.components, c.isElectrical = true ∧
      ∃ p ∈ c.pins, ∃ place, p.point? = some place ∧ p.terminalAt c.id place = t := by
  simp only [terminals, List.mem_flatMap]
  refine exists_congr fun c => and_congr_right fun _ => ?_
  by_cases electrical : c.isElectrical = true
  · simp only [electrical, if_true, true_and, List.mem_filterMap,
      Option.map_eq_some_iff]
  · simp [electrical]

theorem isRounded_of_mem_places {q : Point} (member : q ∈ d.layout.places) : q.IsRounded := by
  rcases List.mem_append.1 member with traced | pinned
  · obtain ⟨trace, inTraces, inTrace⟩ := List.mem_flatten.1 (List.reduceOption_mem_iff.1 traced)
    obtain ⟨w, _, rfl⟩ := List.mem_map.1 inTraces
    obtain ⟨v, _, found⟩ := List.mem_map.1 inTrace
    exact Point.isRounded_of_ofValue (Value.ofValue_of_point? found)
  · obtain ⟨t, placed, rfl⟩ := List.mem_map.1 pinned
    obtain ⟨c, _, _, p, _, place, found, rfl⟩ := mem_terminals.1 placed
    exact Point.isRounded_of_ofCoordinates (Pin.place_of_point? found)

theorem isNumeric_layout (d : Drawing) : d.layout.IsNumeric where
  trace := by
    intro trace member q inTrace
    have listed := List.mem_flatten.2 ⟨trace, member, inTrace⟩
    exact (isRounded_of_mem_places
      (List.mem_append_left _ (List.reduceOption_mem_iff.2 listed))).isNumeric
  terminal := by
    intro t member
    exact (isRounded_of_mem_places
      (List.mem_append_right _ (List.mem_map_of_mem member))).isNumeric

end Drawing

namespace Placement.HasNets

variable {p : Placement} {nets : List (Net Point)}

theorem eq_of_mem_nodes (hasNets : p.HasNets nets) {m n : Net Point} (mNet : m ∈ nets)
    (nNet : n ∈ nets) {a : Point} (inM : a ∈ m.nodes) (inN : a ∈ n.nodes) : m = n := by
  by_contra other
  have symmetric : Std.Symm fun m n : Net Point => m.nodes.Disjoint n.nodes :=
    ⟨fun _ _ disjoint _ inN inM => disjoint inM inN⟩
  exact hasNets.disjoint.forall mNet nNet other inM inN

theorem eq_of_mem_terminals (hasNets : p.HasNets nets) {m n : Net Point} (mNet : m ∈ nets)
    (nNet : n ∈ nets) {t : Terminal} (inM : t ∈ m.terminals) (inN : t ∈ n.terminals) : m = n :=
  hasNets.eq_of_mem_nodes mNet nNet (hasNets.key_mem_nodes m mNet t inM)
    (hasNets.key_mem_nodes n nNet t inN)

theorem nodup_ids (hasNets : p.HasNets nets) : (nets.map (·.id)).Nodup := by
  rw [hasNets.ids]
  refine List.nodup_range.map fun i j same => ?_
  have numbers := Value.intText_injective ((String.append_right_inj "N").1 same)
  exact Nat.succ.inj numbers

theorem nodup (hasNets : p.HasNets nets) : nets.Nodup :=
  hasNets.nodup_ids.of_map

theorem existsUnique_net (hasNets : p.HasNets nets) {t : Terminal} (placed : t ∈ p.terminals) :
    ∃! n, n ∈ nets ∧ t ∈ n.terminals := by
  obtain ⟨n, nNet, inN⟩ := List.mem_flatMap.1 (hasNets.terminals_perm.mem_iff.2 placed)
  refine ⟨n, ⟨nNet, inN⟩, ?_⟩
  rintro m ⟨mNet, inM⟩
  exact hasNets.eq_of_mem_terminals mNet nNet inM inN

theorem mem_terminals (hasNets : p.HasNets nets) {n : Net Point} (nNet : n ∈ nets)
    {t : Terminal} (inN : t ∈ n.terminals) : t ∈ p.terminals :=
  hasNets.terminals_perm.mem_iff.1 (List.mem_flatMap.2 ⟨n, nNet, inN⟩)

theorem count_terminals (hasNets : p.HasNets nets) {n : Net Point} (netN : n ∈ nets) {t : Terminal}
    (inN : t ∈ n.terminals) : n.terminals.count t = p.terminals.count t := by
  classical
  have others : ∀ m, m ≠ n → m ∈ nets → m.terminals.count t = 0 := by
    intro m other netM
    refine List.count_eq_zero.2 fun inM => other ?_
    exact hasNets.eq_of_mem_terminals netM netN inM inN
  rw [← hasNets.terminals_perm.count_eq, List.count_flatMap]
  change _ = (nets.map fun n => n.terminals.count t).sum
  rw [List.sum_map_eq_nsmul_single n _ others, List.count_eq_one_of_mem hasNets.nodup netN,
    one_nsmul]

theorem key_mem_keys {t : Terminal} (placed : t ∈ p.terminals) : t.place.key ∈ p.keys :=
  mem_keysOf.2 ⟨t.place, List.mem_append_right _ (List.mem_map_of_mem placed), rfl⟩

theorem mem_nodes_iff_connected (hasNets : p.HasNets nets) {n : Net Point} (nNet : n ∈ nets)
    {t : Terminal} (inN : t ∈ n.terminals) (b : Point) :
    b ∈ n.nodes ↔ b ∈ p.keys ∧ p.Connected t.place b := by
  have here := hasNets.key_mem_nodes n nNet t inN
  rw [hasNets.mem_nodes_iff n nNet _ here b]
  refine and_congr_right fun _ => ?_
  exact ⟨(connected_key t.place).trans, (connected_key t.place).symm.trans⟩

theorem same_net_iff (hasNets : p.HasNets nets) {t u : Terminal} (placedT : t ∈ p.terminals)
    (placedU : u ∈ p.terminals) :
    (∃ n ∈ nets, t ∈ n.terminals ∧ u ∈ n.terminals) ↔ p.Connected t.place u.place := by
  constructor
  · rintro ⟨n, nNet, hasT, hasU⟩
    have here := hasNets.key_mem_nodes n nNet u hasU
    have connected := ((hasNets.mem_nodes_iff_connected nNet hasT _).1 here).2
    exact connected.trans (connected_key u.place).symm
  · intro connected
    obtain ⟨n, ⟨nNet, hasT⟩, _⟩ := hasNets.existsUnique_net placedT
    obtain ⟨m, ⟨mNet, hasU⟩, _⟩ := hasNets.existsUnique_net placedU
    have inN : u.place.key ∈ n.nodes :=
      (hasNets.mem_nodes_iff_connected nNet hasT _).2
        ⟨key_mem_keys placedU, connected.trans (connected_key u.place)⟩
    obtain rfl := hasNets.eq_of_mem_nodes mNet nNet (hasNets.key_mem_nodes m mNet u hasU) inN
    exact ⟨m, mNet, hasT, hasU⟩

theorem mem_net_iff (hasNets : p.HasNets nets) {n : Net Point} (nNet : n ∈ nets) {t u : Terminal}
    (inN : t ∈ n.terminals) (placed : u ∈ p.terminals) :
    u ∈ n.terminals ↔ p.Connected t.place u.place := by
  rw [← hasNets.same_net_iff (hasNets.mem_terminals nNet inN) placed]
  constructor
  · exact fun here => ⟨n, nNet, inN, here⟩
  · rintro ⟨m, mNet, inM, here⟩
    obtain rfl := hasNets.eq_of_mem_terminals mNet nNet inM inN
    exact here

theorem in_net_iff (hasNets : p.HasNets nets) {q : Point} (known : q ∈ p.places) :
    (∃ n ∈ nets, q.key ∈ n.nodes) ↔ ∃ t ∈ p.terminals, p.Connected t.place q := by
  constructor
  · rintro ⟨n, nNet, inN⟩
    obtain ⟨t, hasT⟩ := List.exists_mem_of_ne_nil _ (hasNets.terminals_ne_nil n nNet)
    have connected := ((hasNets.mem_nodes_iff_connected nNet hasT _).1 inN).2
    exact ⟨t, hasNets.mem_terminals nNet hasT, connected.trans (connected_key q).symm⟩
  · rintro ⟨t, placed, connected⟩
    obtain ⟨n, ⟨nNet, hasT⟩, _⟩ := hasNets.existsUnique_net placed
    refine ⟨n, nNet, (hasNets.mem_nodes_iff_connected nNet hasT _).2 ⟨?_, ?_⟩⟩
    · exact mem_keysOf.2 ⟨q, known, rfl⟩
    · exact connected.trans (connected_key q)

theorem key_mem_nodes_of_connected (hasNets : p.HasNets nets) {n : Net Point} (netN : n ∈ nets)
    {a b : Point} (inN : a.key ∈ n.nodes) (known : b ∈ p.places) (connected : p.Connected a b) :
    b.key ∈ n.nodes := by
  refine (hasNets.mem_nodes_iff n netN a.key inN b.key).2 ⟨mem_keysOf.2 ⟨b, known, rfl⟩, ?_⟩
  exact (connected_key a).symm.trans (connected.trans (connected_key b))

end Placement.HasNets

namespace Drawing

theorem hasNets_layout (d : Drawing) : d.layout.HasNets (Graph.ofPlacement d.layout).nets :=
  Placement.hasNets d.isNumeric_layout

theorem hasNets_of_nets {d : Drawing} {nets : List (Net Point)} (built : d.nets = .ok nets) :
    d.layout.HasNets nets :=
  (nets_eq_ok.1 built).2 ▸ d.hasNets_layout

/-- The nets of a drawing are its connected components: every pin of an electrical component that
lies somewhere is in one net, two pins are in one net when their places are connected, and what is
connected to no pin is in no net. -/
theorem nets_are_components {d : Drawing} (placed : d.IsPlaced) :
    ∃ nets, d.nets = .ok nets ∧ d.layout.HasNets nets ∧
      (∀ t ∈ d.terminals, ∃! n, n ∈ nets ∧ t ∈ n.terminals) ∧
      (∀ n ∈ nets, ∀ t ∈ n.terminals, ∃ c ∈ d.components,
        (∀ k, c.kind? = some k → k ≠ .text ∧ k.isProbe = false) ∧
        ∃ p ∈ c.pins, p.place = .ok (some t.place) ∧ t = p.terminalAt c.id t.place) ∧
      (∀ t ∈ d.terminals, ∀ u ∈ d.terminals,
        (∃ n ∈ nets, t ∈ n.terminals ∧ u ∈ n.terminals) ↔
          d.layout.Connected t.place u.place) ∧
      (∀ q ∈ d.layout.places,
        (∃ n ∈ nets, q.key ∈ n.nodes) ↔ ∃ t ∈ d.terminals, d.layout.Connected t.place q) := by
  have hasNets := d.hasNets_layout
  refine ⟨_, nets_of_placed placed, hasNets, ?_, ?_, ?_, ?_⟩
  · exact fun t => hasNets.existsUnique_net
  · intro n nNet t inN
    obtain ⟨c, listed, electrical, p, pin, place, found, rfl⟩ :=
      Drawing.mem_terminals.1 (hasNets.mem_terminals nNet inN)
    exact ⟨c, listed, fun k isKind => Component.kind_of_isElectrical electrical isKind, p, pin,
      Pin.place_of_point? found, rfl⟩
  · exact fun t placedT u placedU => hasNets.same_net_iff placedT placedU
  · exact fun q known => hasNets.in_net_iff known

/-- A resistor with one end at a corner of a wire, and a ground symbol at the end of the wire. -/
def groundedResistor : Drawing :=
  let corner := fun x y : Nat => Value.list [.float (.lit x 0), .float (.lit y 0)]
  let pin := fun (id : String) (x y : Nat) =>
    Pin.named (.text id) (.text id) (.float (.lit x 0)) (.float (.lit y 0))
  { components := [
      ⟨.text "R1", .text "R", .text "1k", [pin "1" 0 0, pin "2" 20 0], .null, .null⟩,
      ⟨.text "G1", .text "GND", .text "", [pin "0" 20 40], .null, .null⟩]
    wires := [⟨.text "W1", [corner 20 0, corner 20 40]⟩] }

theorem nets_are_components_groundedResistor :
    groundedResistor.IsPlaced ∧ ∃ nets, groundedResistor.nets = .ok nets ∧
      groundedResistor.layout.HasNets nets := by
  have placed : groundedResistor.IsPlaced := by decide +kernel
  obtain ⟨nets, found, hasNets, _⟩ := nets_are_components placed
  exact ⟨placed, nets, found, hasNets⟩

end Drawing

end Schematic
