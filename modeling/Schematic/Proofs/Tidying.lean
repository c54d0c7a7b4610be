import Schematic.Proofs.Drawing
/-!
What adding components and wires one by one makes of the connections of a drawing. Pins keep their
places, and one that lies nowhere goes to the origin; a wire leads past its points that lie nowhere,
where it was broken before.
-/

namespace Schematic

/-! Pins by position. -/

def Component.outline (c : Component) : Bool × List (Option Point) :=
  (c.isElectrical, c.pins.map Pin.point?)

namespace Drawing

def terminalAt? (d : Drawing) (s : Nat × Nat) : Option Terminal :=
  d.components[s.1]?.bind fun c =>
    if c.isElectrical then c.pins[s.2]?.bind fun p => p.point?.map (p.terminalAt c.id) else none

def pinPlace? (d : Drawing) (s : Nat × Nat) : Option Point :=
  (d.terminalAt? s).map (·.place)

def outline (d : Drawing) : List (Bool × List (Option Point)) :=
  d.components.map Component.outline

/-- Whether a net lists two pins. A pin that some net lists is in one net with itself. -/
def InOneNet (d : Drawing) (nets : List (Net Point)) (s t : Nat × Nat) : Prop :=
  ∃ n ∈ nets, ∃ a ∈ n.terminals, ∃ b ∈ n.terminals,
    d.terminalAt? s = some a ∧ d.terminalAt? t = some b

instance (d : Drawing) (nets : List (Net Point)) (s t : Nat × Nat) :
    Decidable (d.InOneNet nets s t) :=
  inferInstanceAs (Decidable (∃ n ∈ nets, _))

variable {d : Drawing} {nets : List (Net Point)} {s t : Nat × Nat}

theorem pinPlace?_eq (d : Drawing) (s : Nat × Nat) :
    d.pinPlace? s = d.outline[s.1]?.bind fun o => if o.1 then o.2[s.2]?.join else none := by
  rw [pinPlace?, terminalAt?, outline, List.getElem?_map]
  cases d.components[s.1]? with
  | none => rfl
  | some c =>
      simp only [Option.bind_some, Option.map_some, Component.outline, List.getElem?_map]
      cases c.isElectrical with
      | false => rfl
      | true =>
          cases c.pins[s.2]? with
          | none => rfl
          | some p =>
              change (p.point?.map (p.terminalAt c.id)).map (·.place) = p.point?
              cases p.point? <;> rfl

theorem mem_terminals_of_terminalAt? {a : Terminal} (found : d.terminalAt? s = some a) :
    a ∈ d.terminals := by
  obtain ⟨c, listed, rest⟩ := Option.bind_eq_some_iff.1 found
  split at rest
  next electrical =>
    obtain ⟨p, member, place⟩ := Option.bind_eq_some_iff.1 rest
    obtain ⟨q, point, rfl⟩ := Option.map_eq_some_iff.1 place
    exact Drawing.mem_terminals.2
      ⟨c, List.mem_of_getElem? listed, electrical, p, List.mem_of_getElem? member, q, point, rfl⟩
  next => cases rest

theorem inOneNet_iff (found : d.nets = .ok nets) :
    d.InOneNet nets s t ↔
      ∃ q r, d.pinPlace? s = some q ∧ d.pinPlace? t = some r ∧ d.layout.Connected q r := by
  have hasNets := hasNets_of_nets found
  constructor
  · rintro ⟨n, netN, a, inA, b, inB, atS, atT⟩
    refine ⟨a.place, b.place, Option.map_eq_some_iff.2 ⟨a, atS, rfl⟩,
      Option.map_eq_some_iff.2 ⟨b, atT, rfl⟩, ?_⟩
    exact (hasNets.same_net_iff (mem_terminals_of_terminalAt? atS)
      (mem_terminals_of_terminalAt? atT)).1 ⟨n, netN, inA, inB⟩
  · rintro ⟨q, r, placeS, placeT, connected⟩
    obtain ⟨a, atS, rfl⟩ := Option.map_eq_some_iff.1 placeS
    obtain ⟨b, atT, rfl⟩ := Option.map_eq_some_iff.1 placeT
    obtain ⟨n, netN, inA, inB⟩ := (hasNets.same_net_iff (mem_terminals_of_terminalAt? atS)
      (mem_terminals_of_terminalAt? atT)).2 connected
    exact ⟨n, netN, a, inA, b, inB, atS, atT⟩

end Drawing

/-! Bridged polylines. -/

/-- A polyline without its breaks. -/
def bridge (trace : List (Option Point)) : List (Option Point) :=
  trace.reduceOption.map some

namespace Placement

variable {p p' : Placement} {a b : Point}

theorem pair_bridge {trace : List (Option Point)} (next : [some a, some b] <:+: trace) :
    [some a, some b] <:+: bridge trace :=
  (List.IsInfix.filterMap id next).map some

theorem Connected.mono (links : ∀ a b, p.Linked a b → p'.Linked a b) (connected : p.Connected a b) :
    p'.Connected a b :=
  Relation.ReflTransGen.mono links _ _ connected

theorem linked_of_bridge (bridged : p'.traces = p.traces.map bridge) (linked : p.Linked a b) :
    p'.Linked a b := by
  rcases linked with same | ⟨trace, member, next⟩
  · exact .inl same
  · refine .inr ⟨bridge trace, ?_, next.imp pair_bridge pair_bridge⟩
    rw [bridged]
    exact List.mem_map_of_mem member

theorem linked_of_unbroken (bridged : p'.traces = p.traces.map bridge)
    (unbroken : ∀ trace ∈ p.traces, bridge trace <:+: trace) (linked : p'.Linked a b) :
    p.Linked a b := by
  rcases linked with same | ⟨trace, member, next⟩
  · exact .inl same
  · rw [bridged] at member
    obtain ⟨trace, original, rfl⟩ := List.mem_map.1 member
    have inner := unbroken trace original
    exact .inr ⟨trace, original, next.imp (·.trans inner) (·.trans inner)⟩

end Placement

/-- Whether the points of a wire that lie anywhere come without a gap. -/
def Wire.IsUnbroken (w : Wire) : Prop :=
  ∃ before middle after, w.points = before ++ middle ++ after ∧
    (∀ v ∈ before, v.point? = none) ∧ (∀ v ∈ middle, v.point? ≠ none) ∧ ∀ v ∈ after, v.point? = none

theorem Wire.IsUnbroken.isInfix_bridge {w : Wire} (unbroken : w.IsUnbroken) :
    bridge (w.points.map Value.point?) <:+: w.points.map Value.point? := by
  obtain ⟨before, middle, after, points, front, inner, back⟩ := unbroken
  have nowhere : ∀ {vs : List Value}, (∀ v ∈ vs, v.point? = none) →
      (vs.map Value.point?).reduceOption = [] := by
    intro vs all
    rw [List.reduceOption, List.filterMap_map]
    exact List.filterMap_eq_nil_iff.2 all
  have somewhere : ∀ {vs : List Value}, (∀ v ∈ vs, v.point? ≠ none) →
      bridge (vs.map Value.point?) = vs.map Value.point? := by
    intro vs all
    induction vs with
    | nil => rfl
    | cons v vs ih =>
        obtain ⟨first, rest⟩ := List.forall_mem_cons.1 all
        obtain ⟨q, point⟩ := Option.ne_none_iff_exists'.1 first
        rw [List.map_cons, point, bridge, List.reduceOption_cons_of_some, List.map_cons]
        exact congrArg _ (ih rest)
  rw [bridge, points, List.map_append, List.map_append, List.reduceOption_append,
    List.reduceOption_append, nowhere front, nowhere back, List.nil_append, List.append_nil]
  change bridge (middle.map Value.point?) <:+: _
  rw [somewhere inner]
  exact List.infix_append _ _ _

def anchor (place : Option Point) : Option Point :=
  some (place.getD .origin)

def anchorPins (outline : Bool × List (Option Point)) : Bool × List (Option Point) :=
  (outline.1, outline.2.map anchor)

/-! Tidied parts. -/

/-- Whether a place could be read, and rounding leaves it as it is. -/
def Point.IsSettled : Except Fault (Option Point) → Prop
  | .ok none => True
  | .ok (some q) => q.IsStable
  | .error _ => False

instance : (place : Except Fault (Option Point)) → Decidable (Point.IsSettled place)
  | .ok none => .isTrue trivial
  | .ok (some q) => inferInstanceAs (Decidable q.IsStable)
  | .error _ => .isFalse id

theorem Point.IsSettled.exists_eq_ok {place : Except Fault (Option Point)}
    (settled : IsSettled place) :
    ∃ found : Option Point, place = .ok found ∧ ∀ q, found = some q → q.IsStable := by
  match place, settled with
  | .ok none, _ => exact ⟨none, rfl, fun _ absent => nomatch absent⟩
  | .ok (some q), stable => exact ⟨some q, rfl, fun _ same => Option.some.inj same ▸ stable⟩

theorem Point.isStable_origin : Point.origin.IsStable := by
  decide +kernel

theorem Pin.exists_tidy {p : Pin} (settled : Point.IsSettled p.place) :
    ∃ p', p.tidy = .ok p' ∧ p'.point? = anchor p.point? := by
  obtain ⟨place, found, stable⟩ := settled.exists_eq_ok
  have kept : (place.getD .origin).IsStable := by
    cases place with
    | none => exact Point.isStable_origin
    | some q => exact stable q rfl
  have same : p.point? = place := by rw [point?, found]; rfl
  unfold tidy
  refine ⟨_, Fault.bind_eq_ok.2 ⟨place, found, rfl⟩, ?_⟩
  rw [same, anchor]
  generalize place.getD .origin = q at kept
  change (Point.ofCoordinates (.float q.x) (.float q.y)).toOption.join = some q
  rw [kept.ofCoordinates]
  rfl

theorem isElectricalTag_text (v : Value) :
    isElectricalTag (.text v.content) = isElectricalTag v := by
  have tag : normalTag (.text v.content) = normalTag v := rfl
  rw [isElectricalTag, isElectricalTag, Kind.ofValue?, Kind.ofValue?, tag]

theorem Component.exists_tidy {c : Component} (settled : ∀ p ∈ c.pins, Point.IsSettled p.place) :
    ∃ c', c.tidy = .ok c' ∧ c'.outline = anchorPins c.outline := by
  obtain ⟨ps, tidied, places⟩ := Fault.exists_map_eq_of_mapM fun p member =>
    Pin.exists_tidy (settled p member)
  have made : ∃ c', c.tidy = .ok c' ∧ c'.type = .text c.type.content ∧ c'.pins = ps := by
    unfold tidy
    exact ⟨_, Fault.bind_eq_ok.2 ⟨ps, tidied, rfl⟩, rfl, rfl⟩
  obtain ⟨c', made, type, pins⟩ := made
  refine ⟨c', made, ?_⟩
  rw [outline, isElectrical, type, isElectricalTag_text, pins, places]
  simp only [anchorPins, outline, isElectrical, List.map_map, Function.comp_def]

theorem Wire.exists_tidy {w : Wire} (settled : ∀ v ∈ w.points, Point.IsSettled (Point.ofValue v)) :
    ∃ w', w.tidy = .ok w' ∧ w'.points.map Value.point? = bridge (w.points.map Value.point?) := by
  have placed : w.trace = .ok (w.points.map Value.point?) := by
    refine Fault.mapM_eq_ok_map fun v member => Value.ofValue_eq_point? ?_
    obtain ⟨place, found, _⟩ := (settled v member).exists_eq_ok
    exact ⟨place, found⟩
  unfold tidy
  refine ⟨_, Fault.bind_eq_ok.2 ⟨_, placed, rfl⟩, ?_⟩
  rw [bridge, List.reduceOption, List.map_filterMap, List.map_filterMap]
  refine List.filterMap_congr fun place member => ?_
  obtain ⟨v, inWire, rfl⟩ := List.mem_map.1 member
  obtain ⟨place, found, stable⟩ := (settled v inWire).exists_eq_ok
  have same : v.point? = place := by rw [Value.point?, found]; rfl
  rw [same]
  cases place with
  | none => rfl
  | some q =>
      have again : Point.ofValue q.toValue = .ok (some q) := (stable q rfl).ofCoordinates
      change some (Point.ofValue q.toValue).toOption.join = some (some q)
      rw [again]
      rfl

/-! Whole drawings. -/

def Pin.anchored (p : Pin) : Pin :=
  match p.point? with
  | some _ => p
  | none => { p with x := .float .zero, y := .float .zero }

def Wire.bridged (w : Wire) : Wire :=
  { w with points := w.points.filter fun v => v.point?.isSome }

theorem Pin.point?_anchored (p : Pin) : p.anchored.point? = anchor p.point? := by
  unfold anchored
  cases found : p.point? with
  | some q => exact found
  | none =>
      change (Point.ofCoordinates (.float Point.origin.x) (.float Point.origin.y)).toOption.join = _
      rw [Point.isStable_origin.ofCoordinates]
      rfl

theorem Wire.map_point?_bridged (w : Wire) :
    w.bridged.points.map Value.point? = bridge (w.points.map Value.point?) := by
  change (w.points.filter fun v => v.point?.isSome).map Value.point? = _
  induction w.points with
  | nil => rfl
  | cons v vs ih =>
      cases found : v.point? with
      | none =>
          rw [List.filter_cons_of_neg (by simp [found]), ih, List.map_cons, found]
          rfl
      | some q =>
          rw [List.filter_cons_of_pos (by simp [found]), List.map_cons, ih, List.map_cons, found]
          rfl

namespace Drawing

/-- Adds the components and the wires of a drawing, in their order, to the empty one. -/
def entered (raw : Drawing) : Except Fault Drawing := do
  let d ← raw.components.foldlM addComponent empty
  raw.wires.foldlM addWire d

/-- The drawing with pins that lie nowhere put at the origin and such points of wires left out. -/
def bridged (raw : Drawing) : Drawing :=
  ⟨raw.components.map fun c => { c with pins := c.pins.map Pin.anchored },
    raw.wires.map Wire.bridged⟩

/-- Whether all places can be read, and rounding leaves them as they are. -/
structure IsSettled (raw : Drawing) : Prop where
  pins : ∀ c ∈ raw.components, ∀ p ∈ c.pins, Point.IsSettled p.place
  points : ∀ w ∈ raw.wires, ∀ v ∈ w.points, Point.IsSettled (Point.ofValue v)

instance (raw : Drawing) : Decidable raw.IsSettled :=
  decidable_of_iff _ ⟨fun h => ⟨h.1, h.2⟩, fun h => And.intro h.pins h.points⟩

/-- Whether a drawing has the outline of another one, anchored, and its polylines, bridged. -/
structure Bridges (raw d : Drawing) : Prop where
  outline : d.outline = raw.outline.map anchorPins
  traces : d.traces = raw.traces.map bridge

variable {raw d : Drawing} {rawNets nets : List (Net Point)} {s t : Nat × Nat}

theorem bridges_bridged (raw : Drawing) : raw.Bridges raw.bridged where
  outline := by
    rw [outline, outline, bridged, List.map_map, List.map_map]
    refine List.map_congr_left fun c _ => ?_
    simp only [Function.comp_apply, Component.outline, Component.isElectrical, anchorPins,
      List.map_map]
    exact congrArg _ (List.map_congr_left fun p _ => p.point?_anchored)
  traces := by
    rw [traces, traces, bridged, List.map_map, List.map_map]
    exact List.map_congr_left fun w _ => w.map_point?_bridged

theorem IsSettled.exists_entered (settled : raw.IsSettled) :
    ∃ d, raw.entered = .ok d ∧ raw.Bridges d := by
  obtain ⟨cs, tidyCs, outline⟩ := Fault.exists_map_eq_of_mapM fun c member =>
    Component.exists_tidy (settled.pins c member)
  obtain ⟨ws, tidyWs, traces⟩ := Fault.exists_map_eq_of_mapM fun w member =>
    Wire.exists_tidy (settled.points w member)
  -- Tidying a part does not depend on the drawing so far, so all parts can be tidied beforehand.
  have components : raw.components.foldlM addComponent empty = .ok ⟨cs, []⟩ := by
    rw [foldlM_addComponent, tidyCs]
    rfl
  have wires : raw.wires.foldlM addWire ⟨cs, []⟩ = .ok ⟨cs, ws⟩ := by
    rw [foldlM_addWire, tidyWs]
    rfl
  refine ⟨_, Fault.bind_eq_ok.2 ⟨_, components, wires⟩, ?_, ?_⟩
  · change cs.map Component.outline = (raw.components.map Component.outline).map _
    rw [outline, List.map_map]
    rfl
  · change ws.map _ = (raw.wires.map _).map _
    rw [traces, List.map_map]
    rfl

theorem Bridges.isPlaced (bridges : raw.Bridges d) : d.IsPlaced where
  wires := by
    intro w listed v member
    have inTraces : w.points.map Value.point? ∈ raw.traces.map bridge :=
      bridges.traces ▸ List.mem_map_of_mem listed
    obtain ⟨trace, _, same⟩ := List.mem_map.1 inTraces
    have inBridge : v.point? ∈ bridge trace := same ▸ List.mem_map_of_mem member
    obtain ⟨q, _, found⟩ := List.mem_map.1 inBridge
    exact ⟨some q, Value.ofValue_of_point? found.symm⟩
  pins := by
    intro c listed _ p member
    have inOutline : c.outline ∈ raw.outline.map anchorPins :=
      bridges.outline ▸ List.mem_map_of_mem listed
    obtain ⟨o, _, same⟩ := List.mem_map.1 inOutline
    have pins : o.2.map anchor = c.pins.map Pin.point? := congrArg Prod.snd same
    have inAnchored : p.point? ∈ o.2.map anchor := pins ▸ List.mem_map_of_mem member
    obtain ⟨q, _, found⟩ := List.mem_map.1 inAnchored
    exact ⟨some (q.getD .origin), Pin.place_of_point? found.symm⟩

theorem IsSettled.isPlaced (settled : raw.IsSettled) : raw.IsPlaced where
  wires := by
    intro w listed v member
    obtain ⟨place, found, _⟩ := (settled.points w listed v member).exists_eq_ok
    exact ⟨place, found⟩
  pins := by
    intro c listed _ p member
    obtain ⟨place, found, _⟩ := (settled.pins c listed p member).exists_eq_ok
    exact ⟨place, found⟩

/-! Connections. -/

theorem Bridges.pinPlace?_eq (bridges : raw.Bridges d) (s : Nat × Nat) :
    d.pinPlace? s = raw.outline[s.1]?.bind fun o =>
      if o.1 then o.2[s.2]?.map fun place => place.getD .origin else none := by
  rw [Drawing.pinPlace?_eq, bridges.outline, List.getElem?_map]
  cases raw.outline[s.1]? with
  | none => rfl
  | some o =>
      simp only [Option.map_some, Option.bind_some, anchorPins, List.getElem?_map]
      cases o.2[s.2]? <;> rfl

theorem Bridges.pinPlace?_of_some (bridges : raw.Bridges d) {q : Point}
    (found : raw.pinPlace? s = some q) : d.pinPlace? s = some q := by
  rw [bridges.pinPlace?_eq]
  rw [Drawing.pinPlace?_eq] at found
  obtain ⟨o, listed, inner⟩ := Option.bind_eq_some_iff.1 found
  rw [listed, Option.bind_some]
  split at inner
  next electrical =>
    rw [if_pos electrical, Option.join_eq_some_iff.1 inner]
    rfl
  next => cases inner

theorem Bridges.layout_traces (bridges : raw.Bridges d) :
    d.layout.traces = raw.layout.traces.map bridge :=
  bridges.traces

theorem Bridges.inOneNet (bridges : raw.Bridges d) (foundRaw : raw.nets = .ok rawNets)
    (found : d.nets = .ok nets) (together : raw.InOneNet rawNets s t) : d.InOneNet nets s t := by
  obtain ⟨q, r, placeS, placeT, connected⟩ := (inOneNet_iff foundRaw).1 together
  exact (inOneNet_iff found).2 ⟨q, r, bridges.pinPlace?_of_some placeS,
    bridges.pinPlace?_of_some placeT,
    connected.mono fun a b => Placement.linked_of_bridge bridges.layout_traces⟩

theorem Bridges.inOneNet_iff_of_unbroken (bridges : raw.Bridges d)
    (foundRaw : raw.nets = .ok rawNets) (found : d.nets = .ok nets)
    (unbroken : ∀ w ∈ raw.wires, w.IsUnbroken) (placeS : d.pinPlace? s = raw.pinPlace? s)
    (placeT : d.pinPlace? t = raw.pinPlace? t) :
    d.InOneNet nets s t ↔ raw.InOneNet rawNets s t := by
  have inner : ∀ trace ∈ raw.layout.traces, bridge trace <:+: trace := by
    intro trace member
    obtain ⟨w, listed, rfl⟩ := List.mem_map.1 member
    exact (unbroken w listed).isInfix_bridge
  -- The bridged polylines lead along no way that was not there before.
  refine ⟨fun together => ?_, bridges.inOneNet foundRaw found⟩
  obtain ⟨q, r, atS, atT, connected⟩ := (inOneNet_iff found).1 together
  exact (inOneNet_iff foundRaw).2 ⟨q, r, placeS ▸ atS, placeT ▸ atT,
    connected.mono fun a b => Placement.linked_of_unbroken bridges.layout_traces inner⟩

theorem Bridges.inOneNet_congr {d' : Drawing} {nets' : List (Net Point)} (bridges : raw.Bridges d)
    (bridges' : raw.Bridges d') (found : d.nets = .ok nets) (found' : d'.nets = .ok nets') :
    d.InOneNet nets s t ↔ d'.InOneNet nets' s t := by
  have links : ∀ {a b : Point}, d.layout.Linked a b ↔ d'.layout.Linked a b := by
    intro a b
    rw [Placement.Linked, Placement.Linked, bridges.layout_traces, bridges'.layout_traces]
  rw [inOneNet_iff found, inOneNet_iff found', bridges.pinPlace?_eq, bridges.pinPlace?_eq,
    bridges'.pinPlace?_eq, bridges'.pinPlace?_eq]
  constructor
  · rintro ⟨q, r, atS, atT, connected⟩
    exact ⟨q, r, atS, atT, connected.mono fun a b => links.1⟩
  · rintro ⟨q, r, atS, atT, connected⟩
    exact ⟨q, r, atS, atT, connected.mono fun a b => links.2⟩

theorem Bridges.pinPlace?_of_ne_none (bridges : raw.Bridges d) (placed : raw.pinPlace? s ≠ none) :
    d.pinPlace? s = raw.pinPlace? s := by
  obtain ⟨q, found⟩ := Option.ne_none_iff_exists'.1 placed
  rw [found, bridges.pinPlace?_of_some found]

theorem Bridges.pinPlace?_of_pins (bridges : raw.Bridges d)
    (placed : ∀ c ∈ raw.components, c.isElectrical = true → ∀ p ∈ c.pins, p.point? ≠ none) :
    d.pinPlace? s = raw.pinPlace? s := by
  rw [bridges.pinPlace?_eq, Drawing.pinPlace?_eq, Drawing.outline, List.getElem?_map]
  cases listed : raw.components[s.1]? with
  | none => rfl
  | some c =>
      simp only [Option.map_some, Option.bind_some, Component.outline, List.getElem?_map]
      split
      next electrical =>
        cases member : c.pins[s.2]? with
        | none => rfl
        | some p =>
            obtain ⟨q, found⟩ := Option.ne_none_iff_exists'.1
              (placed c (List.mem_of_getElem? listed) electrical p (List.mem_of_getElem? member))
            rw [Option.map_some, found]
            rfl
      next => rfl

/-- Adding the parts of a drawing one by one keeps all pins together that were together, and what
comes of it is connected like the drawing with its polylines bridged. Nothing else is connected as
long as no polyline was broken, except at pins that lay nowhere. -/
theorem entered_keeps_nets (settled : raw.IsSettled) :
    ∃ d rawNets nets bridgedNets, raw.entered = .ok d ∧ raw.nets = .ok rawNets ∧
      d.nets = .ok nets ∧ raw.bridged.nets = .ok bridgedNets ∧
      (∀ s t, raw.InOneNet rawNets s t → d.InOneNet nets s t) ∧
      (∀ s t, d.InOneNet nets s t ↔ raw.bridged.InOneNet bridgedNets s t) ∧
      ((∀ w ∈ raw.wires, w.IsUnbroken) →
        (∀ s t, raw.pinPlace? s ≠ none → raw.pinPlace? t ≠ none →
          (d.InOneNet nets s t ↔ raw.InOneNet rawNets s t)) ∧
        ((∀ c ∈ raw.components, c.isElectrical = true → ∀ p ∈ c.pins, p.place ≠ .ok none) →
          ∀ s t, d.InOneNet nets s t ↔ raw.InOneNet rawNets s t)) := by
  obtain ⟨d, entered, bridges⟩ := settled.exists_entered
  have foundRaw := nets_of_placed settled.isPlaced
  have found := nets_of_placed bridges.isPlaced
  have foundBridged := nets_of_placed raw.bridges_bridged.isPlaced
  refine ⟨d, _, _, _, entered, foundRaw, found, foundBridged,
    fun s t => bridges.inOneNet foundRaw found,
    fun s t => bridges.inOneNet_congr raw.bridges_bridged found foundBridged,
    fun unbroken => ⟨fun s t placedS placedT => ?_, fun placed s t => ?_⟩⟩
  · exact bridges.inOneNet_iff_of_unbroken foundRaw found unbroken
      (bridges.pinPlace?_of_ne_none placedS) (bridges.pinPlace?_of_ne_none placedT)
  · have somewhere : ∀ c ∈ raw.components, c.isElectrical = true → ∀ p ∈ c.pins,
        p.point? ≠ none := by
      intro c listed electrical p member nowhere
      have place := p.place_eq_point? (settled.isPlaced.pins c listed electrical p member)
      exact placed c listed electrical p member (nowhere ▸ place)
    exact bridges.inOneNet_iff_of_unbroken foundRaw found unbroken
      (bridges.pinPlace?_of_pins somewhere) (bridges.pinPlace?_of_pins somewhere)

def inRow (points : List Value) (last : Value) : Drawing :=
  let pin := fun (id : String) (x : Value) => Pin.named (.text id) (.text id) x (.int 0)
  let resistor := fun (id : String) (pins : List Pin) =>
    (⟨.text id, .text "R", .text "1k", pins, .null, .null⟩ : Component)
  { components := [
      resistor "R1" [pin "1" (.int 0), pin "2" (.int 20)],
      resistor "R2" [pin "1" (.int 20), pin "2" last]]
    wires := [⟨.text "W1", points⟩] }

def frayedRow : Drawing :=
  inRow [.list [.int 0, .int 0], .list [.int 20, .int 0], .null] (.int 40)

theorem entered_keeps_nets_frayedRow :
    frayedRow.IsSettled ∧ (∀ w ∈ frayedRow.wires, w.IsUnbroken) ∧
      ∃ d rawNets nets, frayedRow.entered = .ok d ∧ frayedRow.nets = .ok rawNets ∧
        d.nets = .ok nets ∧ ∀ s t, d.InOneNet nets s t ↔ frayedRow.InOneNet rawNets s t := by
  have settled : frayedRow.IsSettled := by decide +kernel
  have unbroken : ∀ w ∈ frayedRow.wires, w.IsUnbroken := by
    intro w member
    obtain rfl := List.mem_singleton.1 member
    exact ⟨[], [.list [.int 0, .int 0], .list [.int 20, .int 0]], [.null], rfl,
      by decide +kernel, by decide +kernel, by decide +kernel⟩
  have placed : ∀ c ∈ frayedRow.components, c.isElectrical = true → ∀ p ∈ c.pins,
      p.place ≠ .ok none := by decide +kernel
  obtain ⟨d, rawNets, nets, _, entered, foundRaw, found, _, _, _, kept⟩ :=
    entered_keeps_nets settled
  exact ⟨settled, unbroken, d, rawNets, nets, entered, foundRaw, found,
    (kept unbroken).2 placed⟩

def brokenRow : Drawing :=
  inRow [.list [.int 0, .int 0], .null, .list [.int 20, .int 0]] .null

theorem entered_joins_brokenRow :
    brokenRow.IsSettled ∧ ∃ d rawNets nets, brokenRow.entered = .ok d ∧
      brokenRow.nets = .ok rawNets ∧ d.nets = .ok nets ∧
      (d.InOneNet nets (0, 0) (0, 1) ∧ ¬ brokenRow.InOneNet rawNets (0, 0) (0, 1)) ∧
      (d.InOneNet nets (1, 1) (1, 1) ∧ ¬ brokenRow.InOneNet rawNets (1, 1) (1, 1)) := by
  have settled : brokenRow.IsSettled := by decide +kernel
  obtain ⟨d, entered, bridges⟩ := settled.exists_entered
  have foundRaw := nets_of_placed settled.isPlaced
  have found := nets_of_placed bridges.isPlaced
  have bridgesSelf := brokenRow.bridges_bridged
  have foundBridged := nets_of_placed bridgesSelf.isPlaced
  refine ⟨settled, d, _, _, entered, foundRaw, found, ⟨?_, by decide +kernel⟩,
    ⟨?_, by decide +kernel⟩⟩
  all_goals
    rw [bridges.inOneNet_congr bridgesSelf found foundBridged]
    decide +kernel

end Drawing

end Schematic
