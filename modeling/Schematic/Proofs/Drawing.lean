import Schematic.Proofs.Connectivity
import Schematic.Proofs.Grid
import Schematic.Proofs.PinNets
import Mathlib.Data.List.Induction
/-!
Drawings that are made by editing: what every component and every wire of such a drawing looks like,
and when all of it can be placed.
-/

namespace Schematic

/-! Editing. -/

/-- A drawing that components and wires were added to, starting from the empty one. -/
inductive Drawing.Built : Drawing → Prop
  | empty : Built .empty
  | addComponent {d d' : Drawing} {c : Component} (built : Built d)
      (added : d.addComponent c = .ok d') : Built d'
  | addWire {d d' : Drawing} {w : Wire} (built : Built d)
      (added : d.addWire w = .ok d') : Built d'

/-! Tidy parts. -/

structure Pin.IsTidy (p : Pin) : Prop where
  id : ∃ s, p.id = .text s
  place : ∃ q : Point, p.x = .float q.x ∧ p.y = .float q.y ∧
    q.x.isFinite = true ∧ q.y.isFinite = true

structure Component.IsTidy (c : Component) : Prop where
  id : ∃ s, c.id = .text s
  value : ∃ s, c.value = .text s
  pins : ∀ p ∈ c.pins, p.IsTidy

theorem Pin.isTidy_of_tidy {p p' : Pin} (tidied : p.tidy = .ok p') : p'.IsTidy := by
  unfold tidy at tidied
  obtain ⟨place, found, rest⟩ := Fault.bind_eq_ok.1 tidied
  obtain rfl := Fault.pure_eq_ok.1 rest
  have finite : (place.getD .origin).x.isFinite = true ∧ (place.getD .origin).y.isFinite = true := by
    cases place with
    | none => exact ⟨rfl, rfl⟩
    | some q => exact (Point.isRounded_of_ofCoordinates found).isFinite
  exact ⟨⟨_, rfl⟩, _, rfl, rfl, finite⟩

theorem Component.isTidy_of_tidy {c c' : Component} (tidied : c.tidy = .ok c') : c'.IsTidy := by
  unfold tidy at tidied
  obtain ⟨pins, each, rest⟩ := Fault.bind_eq_ok.1 tidied
  obtain rfl := Fault.pure_eq_ok.1 rest
  refine ⟨⟨_, rfl⟩, ⟨_, rfl⟩, fun p' member => ?_⟩
  obtain ⟨p, _, made⟩ := Fault.exists_of_mem_mapM each member
  exact Pin.isTidy_of_tidy made

namespace Drawing

variable {d d' : Drawing}

theorem Built.forall_components (built : d.Built) {p : Component → Prop}
    (each : ∀ c c' : Component, c.tidy = .ok c' → p c') : ∀ c ∈ d.components, p c := by
  induction built with
  | empty => exact fun c member => absurd member List.not_mem_nil
  | addComponent built added ih =>
      obtain ⟨c', tidied, rest⟩ := Fault.bind_eq_ok.1 added
      obtain rfl := Fault.pure_eq_ok.1 rest
      exact List.forall_mem_append.2 ⟨ih, List.forall_mem_singleton.2 (each _ c' tidied)⟩
  | addWire built added ih =>
      obtain ⟨w', tidied, rest⟩ := Fault.bind_eq_ok.1 added
      obtain rfl := Fault.pure_eq_ok.1 rest
      exact ih

theorem Built.forall_wires (built : d.Built) {p : Wire → Prop}
    (each : ∀ w w' : Wire, w.tidy = .ok w' → p w') : ∀ w ∈ d.wires, p w := by
  induction built with
  | empty => exact fun w member => absurd member List.not_mem_nil
  | addComponent built added ih =>
      obtain ⟨c', tidied, rest⟩ := Fault.bind_eq_ok.1 added
      obtain rfl := Fault.pure_eq_ok.1 rest
      exact ih
  | addWire built added ih =>
      obtain ⟨w', tidied, rest⟩ := Fault.bind_eq_ok.1 added
      obtain rfl := Fault.pure_eq_ok.1 rest
      exact List.forall_mem_append.2 ⟨ih, List.forall_mem_singleton.2 (each _ w' tidied)⟩

theorem foldlM_addComponentFrom {α : Type} (make : α → Except Fault Component) (d : Drawing)
    (xs : List α) :
    xs.foldlM (fun d x => do d.addComponent (← make x)) d = do
      return { d with components := d.components ++ (← xs.mapM fun x => do (← make x).tidy) } := by
  refine Fault.foldlM_eq_mapM (fun d cs => { d with components := d.components ++ cs })
    (fun d => by rw [List.append_nil])
    (fun d c cs => by rw [List.append_assoc, List.singleton_append]) (fun d x => ?_) xs d
  cases make x <;> rfl

theorem foldlM_addWireFrom {α : Type} (make : α → Except Fault Wire) (d : Drawing) (xs : List α) :
    xs.foldlM (fun d x => do d.addWire (← make x)) d = do
      return { d with wires := d.wires ++ (← xs.mapM fun x => do (← make x).tidy) } := by
  refine Fault.foldlM_eq_mapM (fun d ws => { d with wires := d.wires ++ ws })
    (fun d => by rw [List.append_nil])
    (fun d w ws => by rw [List.append_assoc, List.singleton_append]) (fun d x => ?_) xs d
  cases make x <;> rfl

theorem foldlM_addComponent (d : Drawing) (cs : List Component) :
    cs.foldlM addComponent d =
      do return { d with components := d.components ++ (← cs.mapM Component.tidy) } :=
  foldlM_addComponentFrom pure d cs

theorem foldlM_addWire (d : Drawing) (ws : List Wire) :
    ws.foldlM addWire d = do return { d with wires := d.wires ++ (← ws.mapM Wire.tidy) } :=
  foldlM_addWireFrom pure d ws

theorem Built.component_isTidy (built : d.Built) : ∀ c ∈ d.components, c.IsTidy :=
  built.forall_components fun _ _ => Component.isTidy_of_tidy

theorem Built.exists_wire_id (built : d.Built) : ∀ w ∈ d.wires, ∃ s, w.id = .text s := by
  refine built.forall_wires fun w w' tidied => ?_
  obtain ⟨places, _, rest⟩ := Fault.bind_eq_ok.1 tidied
  obtain rfl := Fault.pure_eq_ok.1 rest
  exact ⟨_, rfl⟩

theorem checkIds_of_isTidy (tidy : ∀ c ∈ d.components, c.IsTidy) : d.checkIds = .ok () := by
  refine if_pos (List.all_eq_true.2 fun c member => ?_)
  obtain ⟨s, id⟩ := (tidy c member).id
  rw [id]
  rfl

theorem Built.checkIds (built : d.Built) : d.checkIds = .ok () :=
  checkIds_of_isTidy built.component_isTidy

end Drawing

/-! Places. -/

theorem Value.coordinate_float {x : Binary64} (finite : x.isFinite = true) :
    (Value.float x).coordinate = .ok (some x) := by
  change Except.ok (if x.isFinite = true then some x else none) = _
  rw [if_pos finite]

theorem Point.ofCoordinates_float {x y : Binary64} (finiteX : x.isFinite = true)
    (finiteY : y.isFinite = true) :
    ofCoordinates (.float x) (.float y) = (rounded x y).map some := by
  rw [ofCoordinates, Value.coordinate_float finiteX, Value.coordinate_float finiteY]
  simp only [bind, Except.bind]
  generalize rounded x y = place
  cases place <;> rfl

theorem Pin.IsTidy.exists_point? {p : Pin} (tidy : p.IsTidy)
    (placed : ∃ place, p.place = .ok place) : ∃ q, p.point? = some q := by
  obtain ⟨q, x, y, finiteX, finiteY⟩ := tidy.place
  obtain ⟨place, read⟩ := placed
  have made := read
  rw [Pin.place, x, y, Point.ofCoordinates_float finiteX finiteY] at made
  cases rounded : Point.rounded q.x q.y with
  | error fault => rw [rounded] at made; cases made
  | ok q' =>
      rw [rounded] at made
      cases made
      exact ⟨q', by rw [Pin.point?, read]; rfl⟩

namespace Binary64

def OnGrid (x : Binary64) : Prop :=
  ∃ y, x.roundCoord = .ok y ∧ x.equal y = true

end Binary64

def Value.OnGrid (v : Value) : Prop :=
  ∃ x, v = .float x ∧ x.OnGrid

/-- Whether rounding leaves all stored coordinates as they are. -/
structure Drawing.OnGrid (d : Drawing) : Prop where
  pins : ∀ c ∈ d.components, ∀ p ∈ c.pins, p.x.OnGrid ∧ p.y.OnGrid
  points : ∀ w ∈ d.wires, ∀ v ∈ w.points, ∃ x y, v = .list [x, y] ∧ x.OnGrid ∧ y.OnGrid

theorem Point.exists_ofCoordinates {x y : Value} (onGridX : x.OnGrid) (onGridY : y.OnGrid) :
    ∃ place, ofCoordinates x y = .ok place := by
  obtain ⟨x, rfl, x', roundX, _⟩ := onGridX
  obtain ⟨y, rfl, y', roundY, _⟩ := onGridY
  have finiteX := Binary64.isFinite_of_roundCoord_eq_ok roundX
  have finiteY := Binary64.isFinite_of_roundCoord_eq_ok roundY
  have made : rounded x y = .ok ⟨x', y'⟩ := rounded_eq_ok.2 ⟨roundX, roundY⟩
  exact ⟨_, by rw [ofCoordinates_float finiteX finiteY, made]; rfl⟩

theorem Drawing.OnGrid.isPlaced {d : Drawing} (onGrid : d.OnGrid) : d.IsPlaced where
  wires := by
    intro w listed v member
    obtain ⟨x, y, rfl, onGridX, onGridY⟩ := onGrid.points w listed v member
    exact Point.exists_ofCoordinates onGridX onGridY
  pins := by
    intro c listed _ p member
    obtain ⟨onGridX, onGridY⟩ := onGrid.pins c listed p member
    exact Point.exists_ofCoordinates onGridX onGridY

/-! Pins of electrical components. -/

namespace Drawing

structure HasPinAt (d : Drawing) (x : Component) (p : Pin) (q : Point) : Prop where
  listed : x ∈ d.components
  electrical : x.isElectrical = true
  member : p ∈ x.pins
  place : p.place = .ok (some q)

variable {d : Drawing} {x : Component} {p : Pin} {q : Point}

theorem HasPinAt.mem_terminals (pinned : d.HasPinAt x p q) : p.terminalAt x.id q ∈ d.terminals := by
  exact Drawing.mem_terminals.2 ⟨x, pinned.listed, pinned.electrical, p, pinned.member, q,
    Pin.point?_of_place pinned.place, rfl⟩

theorem exists_hasPinAt_of_mem_terminals {t : Terminal} (placed : t ∈ d.terminals) :
    ∃ x p, d.HasPinAt x p t.place ∧ p.terminalAt x.id t.place = t := by
  obtain ⟨x, listed, electrical, p, member, q, found, rfl⟩ := Drawing.mem_terminals.1 placed
  exact ⟨x, p, ⟨listed, electrical, member, Pin.place_of_point? found⟩, rfl⟩

theorem Built.exists_hasPinAt (built : d.Built) (placed : d.IsPlaced) (listed : x ∈ d.components)
    (electrical : x.isElectrical = true) (member : p ∈ x.pins) : ∃ q, d.HasPinAt x p q := by
  have tidy := (built.component_isTidy x listed).pins p member
  obtain ⟨q, found⟩ := tidy.exists_point? (placed.pins x listed electrical p member)
  exact ⟨q, listed, electrical, member, Pin.place_of_point? found⟩

end Drawing

/-! Whatever editing puts into a drawing can be placed. -/

theorem Point.isRounded_origin : Point.origin.IsRounded :=
  ⟨.zero, .zero, by decide +kernel⟩

theorem Point.IsRounded.exists_ofCoordinates {q : Point} (h : q.IsRounded) :
    ∃ r, ofCoordinates (.float q.x) (.float q.y) = .ok (some r) := by
  obtain ⟨finiteX, finiteY⟩ := h.isFinite
  obtain ⟨x, y, rounded⟩ := h
  obtain ⟨roundX, roundY⟩ := rounded_eq_ok.1 rounded
  obtain ⟨u, againX⟩ := Binary64.exists_roundCoord_of_roundCoord roundX
  obtain ⟨v, againY⟩ := Binary64.exists_roundCoord_of_roundCoord roundY
  have made : Point.rounded q.x q.y = .ok ⟨u, v⟩ := rounded_eq_ok.2 ⟨againX, againY⟩
  exact ⟨⟨u, v⟩, by rw [ofCoordinates_float finiteX finiteY, made]; rfl⟩

theorem Pin.exists_place_of_tidy {p p' : Pin} (tidied : p.tidy = .ok p') :
    ∃ q, p'.place = .ok (some q) := by
  unfold tidy at tidied
  obtain ⟨place, found, rest⟩ := Fault.bind_eq_ok.1 tidied
  obtain rfl := Fault.pure_eq_ok.1 rest
  cases place with
  | none => exact Point.isRounded_origin.exists_ofCoordinates
  | some q => exact (Point.isRounded_of_ofCoordinates found).exists_ofCoordinates

theorem Wire.exists_ofValue_of_tidy {w w' : Wire} (tidied : w.tidy = .ok w') :
    ∀ v ∈ w'.points, ∃ q, Point.ofValue v = .ok (some q) := by
  unfold tidy trace at tidied
  obtain ⟨places, traced, rest⟩ := Fault.bind_eq_ok.1 tidied
  obtain rfl := Fault.pure_eq_ok.1 rest
  intro v member
  obtain ⟨place, inPlaces, made⟩ := List.mem_filterMap.1 member
  obtain ⟨q, rfl, rfl⟩ := Option.map_eq_some_iff.1 made
  obtain ⟨u, _, found⟩ := Fault.exists_of_mem_mapM traced inPlaces
  exact (Point.isRounded_of_ofValue found).exists_ofCoordinates

namespace Drawing

variable {d : Drawing}

theorem Built.exists_place (built : d.Built) :
    ∀ c ∈ d.components, ∀ p ∈ c.pins, ∃ q, p.place = .ok (some q) := by
  refine built.forall_components fun c c' tidied p inC => ?_
  unfold Component.tidy at tidied
  obtain ⟨pins, each, rest⟩ := Fault.bind_eq_ok.1 tidied
  obtain rfl := Fault.pure_eq_ok.1 rest
  obtain ⟨_, _, made⟩ := Fault.exists_of_mem_mapM each inC
  exact Pin.exists_place_of_tidy made

theorem Built.exists_ofValue (built : d.Built) :
    ∀ w ∈ d.wires, ∀ v ∈ w.points, ∃ q, Point.ofValue v = .ok (some q) :=
  built.forall_wires fun _ _ => Wire.exists_ofValue_of_tidy

theorem Built.isPlaced (built : d.Built) : d.IsPlaced where
  wires := by
    intro w listed v member
    obtain ⟨q, found⟩ := built.exists_ofValue w listed v member
    exact ⟨some q, found⟩
  pins := by
    intro c listed _ p member
    obtain ⟨q, found⟩ := built.exists_place c listed p member
    exact ⟨some q, found⟩

end Drawing

/-! Parts that editing keeps as they are. -/

def Point.IsStable (q : Point) : Prop :=
  rounded q.x q.y = .ok q

instance (q : Point) : Decidable q.IsStable :=
  inferInstanceAs (Decidable (Point.rounded q.x q.y = .ok q))

theorem Point.IsStable.ofCoordinates {q : Point} (stable : q.IsStable) :
    Point.ofCoordinates (.float q.x) (.float q.y) = .ok (some q) := by
  obtain ⟨roundX, roundY⟩ := rounded_eq_ok.1 stable
  rw [ofCoordinates_float (Binary64.isFinite_of_roundCoord_eq_ok roundX)
    (Binary64.isFinite_of_roundCoord_eq_ok roundY), stable]
  rfl

theorem Point.IsStable.onGrid {q : Point} (stable : q.IsStable) :
    (Value.float q.x).OnGrid ∧ (Value.float q.y).OnGrid := by
  have onGrid : ∀ {x : Binary64}, x.roundCoord = .ok x → (Value.float x).OnGrid := by
    intro x round
    have number := Binary64.isNaN_of_isFinite (Binary64.isFinite_of_roundCoord_eq_ok round)
    exact ⟨x, rfl, x, round, Binary64.equal_self number⟩
  obtain ⟨roundX, roundY⟩ := rounded_eq_ok.1 stable
  exact ⟨onGrid roundX, onGrid roundY⟩

def Pin.at (id : String) (q : Point) : Pin :=
  named (.text id) (.text id) (.float q.x) (.float q.y)

theorem Pin.tidy_at {id : String} (given : id ≠ "") {q : Point} (stable : q.IsStable) :
    (Pin.at id q).tidy = .ok (Pin.at id q) := by
  have known : (Value.text id).given = true := bne_iff_ne.2 given
  have same : Pin.at id q = ⟨.text id, .text id, .float q.x, .float q.y⟩ := by
    rw [Pin.at, named, Value.orElse, if_pos known]
  have titled : (Pin.at id q).title = id := by
    simp only [same, title, Value.orElse, if_pos known]
    rfl
  have place : (Pin.at id q).place = .ok (some q) := stable.ofCoordinates
  rw [tidy, place]
  change Except.ok (named (.text id) (.text _) (.float q.x) (.float q.y)) = _
  rw [titled]
  rfl

theorem Component.tidy_of_pins {id type value : String} {pins : List Pin}
    (each : ∀ p ∈ pins, p.tidy = .ok p) :
    (⟨.text id, .text type, .text value, pins, .null, .null⟩ : Component).tidy =
      .ok ⟨.text id, .text type, .text value, pins, .null, .null⟩ := by
  have tidyPins : pins.mapM Pin.tidy = .ok pins := by
    rw [Fault.mapM_eq_ok]
    exact List.map_congr_left each
  have kept : (if (Value.text value).given then (Value.text value).shown else "") = value := by
    by_cases given : value = ""
    · rw [given]
      rfl
    · have known : (Value.text value).given = true := bne_iff_ne.2 given
      rw [if_pos known]
      rfl
  rw [tidy, tidyPins]
  change Except.ok (⟨_, _, .text _, _, _, _⟩ : Component) = _
  rw [kept]
  rfl

theorem Wire.tidy_of_points {id : String} {points : List Point}
    (each : ∀ q ∈ points, q.IsStable) :
    (⟨.text id, points.map Point.toValue⟩ : Wire).tidy =
      .ok ⟨.text id, points.map Point.toValue⟩ := by
  have places : (points.map Point.toValue).mapM Point.ofValue = .ok (points.map some) := by
    rw [Fault.mapM_eq_ok, List.map_map, List.map_map]
    exact List.map_congr_left fun q member => (each q member).ofCoordinates
  rw [tidy, trace, places]
  change Except.ok (⟨_, (points.map some).filterMap _⟩ : Wire) = _
  rw [List.filterMap_map]
  change Except.ok (⟨_, points.filterMap (some ∘ Point.toValue)⟩ : Wire) = _
  rw [List.filterMap_eq_map]
  rfl

theorem Drawing.Built.of_tidied {components : List Component} {wires : List Wire}
    (tidiedComponents : ∀ c ∈ components, ∃ c₀ : Component, c₀.tidy = .ok c)
    (tidiedWires : ∀ w ∈ wires, ∃ w₀ : Wire, w₀.tidy = .ok w) :
    Drawing.Built ⟨components, wires⟩ := by
  have bare : Drawing.Built ⟨components, []⟩ := by
    induction components using List.reverseRecOn with
    | nil => exact .empty
    | append_singleton components c ih =>
        have before := ih fun c' member => tidiedComponents c' (List.mem_append_left _ member)
        obtain ⟨c₀, tidied⟩ := tidiedComponents c (by simp)
        refine before.addComponent (c := c₀) ?_
        rw [Drawing.addComponent, tidied]
        rfl
  induction wires using List.reverseRecOn with
  | nil => exact bare
  | append_singleton wires w ih =>
      have before := ih fun w' member => tidiedWires w' (List.mem_append_left _ member)
      obtain ⟨w₀, tidied⟩ := tidiedWires w (by simp)
      refine before.addWire (w := w₀) ?_
      rw [Drawing.addWire, tidied]
      rfl

theorem Drawing.Built.of_tidy {components : List Component} {wires : List Wire}
    (tidyComponents : ∀ c ∈ components, c.tidy = .ok c)
    (tidyWires : ∀ w ∈ wires, w.tidy = .ok w) : Drawing.Built ⟨components, wires⟩ :=
  .of_tidied (fun c member => ⟨c, tidyComponents c member⟩)
    fun w member => ⟨w, tidyWires w member⟩

/-- A component as it is drawn: its pins by their ids and places. -/
structure Part where
  id : String
  type : String
  value : String
  pins : List (String × Point)

def Part.component (p : Part) : Component :=
  ⟨.text p.id, .text p.type, .text p.value, p.pins.map fun e => .at e.1 e.2, .null, .null⟩

def Drawing.ofParts (parts : List Part) (wires : List (String × List Point)) : Drawing :=
  ⟨parts.map Part.component, wires.map fun w => ⟨.text w.1, w.2.map Point.toValue⟩⟩

theorem Drawing.built_ofParts {parts : List Part} {wires : List (String × List Point)}
    (pins : ∀ p ∈ parts, ∀ e ∈ p.pins, e.1 ≠ "" ∧ e.2.IsStable)
    (points : ∀ w ∈ wires, ∀ q ∈ w.2, q.IsStable) : (ofParts parts wires).Built := by
  refine .of_tidy (fun c member => ?_) fun w member => ?_
  · obtain ⟨p, inParts, rfl⟩ := List.mem_map.1 member
    refine Component.tidy_of_pins fun pin inC => ?_
    obtain ⟨e, inP, rfl⟩ := List.mem_map.1 inC
    obtain ⟨given, stable⟩ := pins p inParts e inP
    exact Pin.tidy_at given stable
  · obtain ⟨w, inWires, rfl⟩ := List.mem_map.1 member
    exact Wire.tidy_of_points (points w inWires)

end Schematic
