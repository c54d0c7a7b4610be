import Schematic.Proofs.Drawing
/-!
Drawings as they are kept: what editing leaves of a drawing whose coordinates are on the grid.
-/

namespace Schematic

theorem Point.IsRounded.isStable {q : Point} (isRounded : q.IsRounded)
    (onGridX : (Value.float q.x).OnGrid) (onGridY : (Value.float q.y).OnGrid) : q.IsStable := by
  have stays : ∀ {x x₀ : Binary64}, x₀.roundCoord = .ok x → (Value.float x).OnGrid →
      x.roundCoord = .ok x := by
    intro x x₀ made onGrid
    obtain ⟨_, same, y, rounded, equal⟩ := onGrid
    obtain rfl := Value.float.inj same
    exact Binary64.roundCoord_eq_self rounded equal (Binary64.add_zero_of_roundCoord made)
  obtain ⟨x, y, rounded⟩ := isRounded
  obtain ⟨roundX, roundY⟩ := rounded_eq_ok.1 rounded
  exact rounded_eq_ok.2 ⟨stays roundX onGridX, stays roundY onGridY⟩

theorem Point.IsRounded.key_eq {q : Point} (isRounded : q.IsRounded) : q.key = q := by
  obtain ⟨x, y, rounded⟩ := isRounded
  obtain ⟨roundX, roundY⟩ := rounded_eq_ok.1 rounded
  rw [key, Binary64.add_zero_of_roundCoord roundX, Binary64.add_zero_of_roundCoord roundY]

theorem Point.IsStable.isRounded {q : Point} (stable : q.IsStable) : q.IsRounded :=
  ⟨q.x, q.y, stable⟩

namespace Pin

/-- Whether a pin is as it is kept in a drawing on the grid. -/
def IsKept (p : Pin) : Prop :=
  ∃ (id name : String) (q : Point), p = ⟨.text id, .text name, .float q.x, .float q.y⟩ ∧
    (name = "" → id = "") ∧ q.IsStable

/-- Whether a pin is as it is kept in a drawing, on the grid or not. -/
def IsStored (p : Pin) : Prop :=
  ∃ (id name : String) (q : Point), p = ⟨.text id, .text name, .float q.x, .float q.y⟩ ∧
    (name = "" → id = "")

theorem IsKept.isStored {p : Pin} (kept : p.IsKept) : p.IsStored := by
  obtain ⟨id, name, q, same, names, _⟩ := kept
  exact ⟨id, name, q, same, names⟩

/-- A tidy pin lies where the pin that it was made from lies, and at the origin if that lies
nowhere. -/
theorem exists_of_tidy {p p' : Pin} (tidied : p.tidy = .ok p') :
    ∃ place, p.place = .ok place ∧ ∃ id name : String,
      p' = ⟨.text id, .text name, .float (place.getD .origin).x, .float (place.getD .origin).y⟩ ∧
        (name = "" → id = "") := by
  unfold tidy at tidied
  obtain ⟨place, found, rest⟩ := Fault.bind_eq_ok.1 tidied
  obtain rfl := Fault.pure_eq_ok.1 rest
  refine ⟨place, found, p.id.content, ?_⟩
  by_cases untitled : p.title = ""
  · refine ⟨p.id.content, ?_, fun same => same⟩
    rw [named, untitled, Value.orElse_text, if_pos rfl]
  · refine ⟨p.title, ?_, fun same => absurd same untitled⟩
    rw [named, Value.orElse_text, if_neg untitled]

theorem isStored_of_tidy {p p' : Pin} (tidied : p.tidy = .ok p') : p'.IsStored := by
  obtain ⟨place, _, id, name, same, names⟩ := exists_of_tidy tidied
  exact ⟨id, name, _, same, names⟩

theorem isKept_of_tidy {p p' : Pin} (tidied : p.tidy = .ok p') (onGridX : p'.x.OnGrid)
    (onGridY : p'.y.OnGrid) : p'.IsKept := by
  obtain ⟨place, found, id, name, rfl, names⟩ := exists_of_tidy tidied
  have isRounded : (place.getD .origin).IsRounded := by
    cases place with
    | none => exact Point.isRounded_origin
    | some q => exact Point.isRounded_of_ofCoordinates found
  exact ⟨id, name, _, rfl, names, isRounded.isStable onGridX onGridY⟩

theorem named_of_text {id name : String} (kept : name = "" → id = "") (x y : Value) :
    named (.text id) (.text name) x y = ⟨.text id, .text name, x, y⟩ := by
  rw [named, Value.orElse_text]
  split
  next unnamed => rw [unnamed, kept unnamed]
  next => rfl

theorem isKept_at (id : String) {q : Point} (stable : q.IsStable) : (Pin.at id q).IsKept :=
  ⟨id, id, q, named_of_text (fun same => same) _ _, fun same => same, stable⟩

theorem IsKept.tidy {p : Pin} (kept : p.IsKept) : p.tidy = .ok p := by
  obtain ⟨id, name, q, rfl, names, stable⟩ := kept
  have titled : title ⟨.text id, .text name, .float q.x, .float q.y⟩ = name := by
    rw [title, Value.orElse_text]
    split
    next unnamed => rw [unnamed, names unnamed]; rfl
    next named => rw [Value.orElse_text, if_neg named, Value.shown_text]
  have place : place ⟨.text id, .text name, .float q.x, .float q.y⟩ = .ok (some q) :=
    stable.ofCoordinates
  rw [Pin.tidy, place, titled]
  exact congrArg Except.ok (named_of_text names _ _)

end Pin

namespace Component

/-- Whether a component is as it is kept in a drawing on the grid. -/
structure IsKept (c : Component) : Prop where
  id : ∃ s, c.id = .text s
  type : ∃ s, c.type = .text s
  value : ∃ s, c.value = .text s
  pins : ∀ p ∈ c.pins, p.IsKept
  name : c.name = .null ∨ ∃ s, c.name = .text s
  netColor : c.netColor = .null ∨ ∃ s ∈ Palette.colors, c.netColor = .text s

/-- Whether a component is as it is kept in a drawing, on the grid or not. -/
structure IsStored (c : Component) : Prop where
  id : ∃ s, c.id = .text s
  type : ∃ s, c.type = .text s
  value : ∃ s, c.value = .text s
  pins : ∀ p ∈ c.pins, p.IsStored
  name : c.name = .null ∨ ∃ s, c.name = .text s
  netColor : c.netColor = .null ∨ ∃ s ∈ Palette.colors, c.netColor = .text s

theorem IsKept.isStored {c : Component} (kept : c.IsKept) : c.IsStored :=
  { kept with pins := fun p member => (kept.pins p member).isStored }

theorem isStored_of_tidy {c c' : Component} (tidied : c.tidy = .ok c') : c'.IsStored := by
  unfold tidy at tidied
  obtain ⟨pins, each, rest⟩ := Fault.bind_eq_ok.1 tidied
  obtain rfl := Fault.pure_eq_ok.1 rest
  refine ⟨⟨_, rfl⟩, ⟨_, rfl⟩, ⟨_, rfl⟩, fun p' member => ?_, ?_, ?_⟩
  · obtain ⟨p, _, made⟩ := Fault.exists_of_mem_mapM each member
    exact Pin.isStored_of_tidy made
  · dsimp only
    split
    next => exact .inl rfl
    next => exact .inr ⟨_, rfl⟩
  · dsimp only
    split
    next color chosen => exact .inr ⟨color, Palette.color?_mem chosen, rfl⟩
    next => exact .inl rfl

theorem isKept_of_tidy {c c' : Component} (tidied : c.tidy = .ok c')
    (onGrid : ∀ p ∈ c'.pins, p.x.OnGrid ∧ p.y.OnGrid) : c'.IsKept := by
  refine { isStored_of_tidy tidied with pins := fun p' member => ?_ }
  obtain ⟨pins, each, rest⟩ := Fault.bind_eq_ok.1 tidied
  obtain rfl := Fault.pure_eq_ok.1 rest
  obtain ⟨p, _, made⟩ := Fault.exists_of_mem_mapM each member
  exact Pin.isKept_of_tidy made (onGrid p' member).1 (onGrid p' member).2

theorem color?_of_mem {s : String} (listed : s ∈ Palette.colors) :
    Palette.color? (.text s) = some s := by
  have same : ∀ s ∈ Palette.colors, Text.lower (Text.trim s) = s := by decide +kernel
  rw [Palette.color?, same s listed]
  exact if_pos listed

theorem IsKept.tidy {c : Component} (kept : c.IsKept) : c.tidy = .ok c := by
  obtain ⟨id, type, value, pins, name, netColor⟩ := c
  obtain ⟨⟨id, rfl⟩, ⟨type, rfl⟩, ⟨value, rfl⟩, pinsKept, named, coloured⟩ := kept
  have tidyPins : pins.mapM Pin.tidy = .ok pins := by
    rw [Fault.mapM_eq_ok]
    exact List.map_congr_left fun p member => (pinsKept p member).tidy
  have sameValue : (if (Value.text value).given then (Value.text value).shown else "") = value := by
    by_cases given : value = "" <;> simp [given]
  rw [Component.tidy, tidyPins]
  dsimp only at named coloured ⊢
  rw [sameValue]
  obtain rfl | ⟨name, rfl⟩ := named <;> obtain rfl | ⟨color, listed, rfl⟩ := coloured
  · rfl
  · rw [color?_of_mem listed]
    rfl
  · rfl
  · rw [color?_of_mem listed]
    rfl

end Component

namespace Wire

/-- Whether a wire is as it is kept in a drawing on the grid. -/
def IsKept (w : Wire) : Prop :=
  ∃ (id : String) (points : List Point), w = ⟨.text id, points.map Point.toValue⟩ ∧
    ∀ q ∈ points, q.IsStable

/-- Whether a wire is as it is kept in a drawing, on the grid or not. -/
def IsStored (w : Wire) : Prop :=
  ∃ (id : String) (points : List Point), w = ⟨.text id, points.map Point.toValue⟩

theorem IsKept.isStored {w : Wire} (kept : w.IsKept) : w.IsStored := by
  obtain ⟨id, points, same, _⟩ := kept
  exact ⟨id, points, same⟩

theorem exists_of_tidy {w w' : Wire} (tidied : w.tidy = .ok w') :
    ∃ places, w.trace = .ok places ∧
      w' = ⟨.text w.id.content, (places.filterMap fun place => place).map Point.toValue⟩ := by
  unfold tidy at tidied
  obtain ⟨places, traced, rest⟩ := Fault.bind_eq_ok.1 tidied
  obtain rfl := Fault.pure_eq_ok.1 rest
  exact ⟨places, traced, by rw [List.map_filterMap]⟩

theorem isStored_of_tidy {w w' : Wire} (tidied : w.tidy = .ok w') : w'.IsStored := by
  obtain ⟨places, _, same⟩ := exists_of_tidy tidied
  exact ⟨_, _, same⟩

theorem isKept_of_tidy {w w' : Wire} (tidied : w.tidy = .ok w')
    (onGrid : ∀ v ∈ w'.points, ∃ x y, v = .list [x, y] ∧ x.OnGrid ∧ y.OnGrid) : w'.IsKept := by
  obtain ⟨places, traced, rfl⟩ := exists_of_tidy tidied
  refine ⟨_, _, rfl, fun q member => ?_⟩
  obtain ⟨place, inPlaces, rfl⟩ := List.mem_filterMap.1 member
  obtain ⟨v, _, found⟩ := Fault.exists_of_mem_mapM traced inPlaces
  obtain ⟨x, y, pair, onGridX, onGridY⟩ := onGrid q.toValue (List.mem_map_of_mem member)
  obtain ⟨rfl, rfl⟩ : x = .float q.x ∧ y = .float q.y := by
    simpa [Point.toValue, eq_comm] using pair
  exact (Point.isRounded_of_ofValue found).isStable onGridX onGridY

theorem IsKept.tidy {w : Wire} (kept : w.IsKept) : w.tidy = .ok w := by
  obtain ⟨id, points, rfl, stable⟩ := kept
  exact tidy_of_points stable

end Wire

namespace Drawing

variable {d : Drawing}

structure IsKept (d : Drawing) : Prop where
  components : ∀ c ∈ d.components, c.IsKept
  wires : ∀ w ∈ d.wires, w.IsKept

/-- Whether a drawing is as editing leaves it, on the grid or not. -/
structure IsStored (d : Drawing) : Prop where
  components : ∀ c ∈ d.components, c.IsStored
  wires : ∀ w ∈ d.wires, w.IsStored

theorem IsKept.isStored (kept : d.IsKept) : d.IsStored where
  components := fun c listed => (kept.components c listed).isStored
  wires := fun w listed => (kept.wires w listed).isStored

theorem Built.isStored (built : d.Built) : d.IsStored where
  components := built.forall_components fun _ _ => Component.isStored_of_tidy
  wires := built.forall_wires fun _ _ => Wire.isStored_of_tidy

theorem Built.exists_component (built : d.Built) :
    ∀ c ∈ d.components, ∃ c₀ : Component, c₀.tidy = .ok c :=
  built.forall_components fun c₀ _ tidied => ⟨c₀, tidied⟩

theorem Built.exists_wire (built : d.Built) : ∀ w ∈ d.wires, ∃ w₀ : Wire, w₀.tidy = .ok w :=
  built.forall_wires fun w₀ _ tidied => ⟨w₀, tidied⟩

theorem Built.isKept (built : d.Built) (onGrid : d.OnGrid) : d.IsKept where
  components := by
    intro c listed
    obtain ⟨c₀, tidied⟩ := built.exists_component c listed
    exact Component.isKept_of_tidy tidied (onGrid.pins c listed)
  wires := by
    intro w listed
    obtain ⟨w₀, tidied⟩ := built.exists_wire w listed
    exact Wire.isKept_of_tidy tidied (onGrid.points w listed)

theorem IsKept.built (kept : d.IsKept) : d.Built :=
  .of_tidy (fun c listed => (kept.components c listed).tidy)
    fun w listed => (kept.wires w listed).tidy

theorem IsKept.onGrid (kept : d.IsKept) : d.OnGrid where
  pins := by
    intro c listed p member
    obtain ⟨id, name, q, rfl, _, stable⟩ := (kept.components c listed).pins p member
    exact stable.onGrid
  points := by
    intro w listed v member
    obtain ⟨id, points, rfl, stable⟩ := kept.wires w listed
    obtain ⟨q, inPoints, rfl⟩ := List.mem_map.1 member
    exact ⟨.float q.x, .float q.y, rfl, (stable q inPoints).onGrid⟩

def retidied (d : Drawing) : Except Fault Drawing := do
  return ⟨← d.components.mapM Component.tidy, ← d.wires.mapM Wire.tidy⟩

theorem IsKept.retidied (kept : d.IsKept) : d.retidied = .ok d := by
  have components : d.components.mapM Component.tidy = .ok d.components := by
    rw [Fault.mapM_eq_ok]
    exact List.map_congr_left fun c listed => (kept.components c listed).tidy
  have wires : d.wires.mapM Wire.tidy = .ok d.wires := by
    rw [Fault.mapM_eq_ok]
    exact List.map_congr_left fun w listed => (kept.wires w listed).tidy
  exact Fault.bind_eq_ok.2 ⟨_, components, Fault.bind_eq_ok.2 ⟨_, wires, rfl⟩⟩

end Drawing

end Schematic
