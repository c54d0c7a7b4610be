import Schematic.Proofs.Colouring.Classes
/-!
How colours spread: a wire has the colour of the class of its net, and a named node that of the class
that all its pins are in.
-/

namespace Schematic

theorem findSome?_eq_of_forall {α β : Type} {f : α → Option β} {xs : List α} {b : Option β}
    (some : ∃ x, x ∈ xs) (each : ∀ x ∈ xs, f x = b) : xs.findSome? f = b := by
  cases b with
  | none => exact List.findSome?_eq_none_iff.2 each
  | some b =>
      obtain ⟨x, member⟩ := some
      cases xs with
      | nil => cases member
      | cons y ys => rw [List.findSome?_cons, each y List.mem_cons_self]

/-- Whether a colouring gives every wire the colour of the class of its net, and every named node
that of the class of all its pins, and nothing else a colour. -/
structure Colouring.Follows (col : Colouring) (d : Drawing) (nets : List (Net Point)) : Prop where
  wire : ∀ w ∈ d.wires, ∀ n ∈ nets, (∃ v ∈ w.points, n.Meets (Point.ofValue v)) →
    (∀ v ∈ w.points, n.Meets (Point.ofValue v)) ∧ col.wires.get? w.id = d.classColor nets n
  loose : ∀ w ∈ d.wires, (∀ n ∈ nets, ∀ v ∈ w.points, ¬ n.Meets (Point.ofValue v)) →
    col.wires.get? w.id = none
  node : ∀ x ∈ d.components, x.kind? = some .net → x.pins ≠ [] → ∀ n ∈ nets,
    (∀ p ∈ x.pins, ∃ m ∈ nets, m.Meets p.place ∧ d.SameClass nets m n) →
      col.nodes.get? x.id.content = d.classColor nets n
  bare : ∀ x ∈ d.components, x.kind? = some .net → x.pins = [] →
    col.nodes.get? x.id.content = none
  ofWires : ∀ e ∈ col.wires, ∃ w ∈ d.wires, w.id = e.1
  ofNodes : ∀ e ∈ col.nodes, ∃ x ∈ d.components, x.kind? = some .net ∧ x.id.content = e.1

namespace Drawing

variable {d : Drawing} {nets : List (Net Point)}

noncomputable def pointColor (d : Drawing) (nets : List (Net Point)) (q : Point) : Option String :=
  (nets.find? (q.key ∈ ·.nodes)).bind (d.classColor nets)

noncomputable def tints (d : Drawing) (nets : List (Net Point)) : Entries String String :=
  nets.flatMap fun n => match d.classColor nets n with
    | some color => (n.terminals.filter (Colouring.isNamedNode d)).map fun t => (t.component, color)
    | none => []

noncomputable def shades (d : Drawing) (nets : List (Net Point)) : Entries Value String :=
  d.wires.filterMap fun w =>
    (w.points.findSome? fun v => v.point?.bind (d.pointColor nets)).map fun color => (w.id, color)

theorem pointColor_of_mem (hasNets : d.layout.HasNets nets) {n : Net Point} (netN : n ∈ nets)
    {q : Point} (inN : q.key ∈ n.nodes) : d.pointColor nets q = d.classColor nets n := by
  obtain ⟨m, found⟩ := Option.isSome_iff_exists.1
    (List.find?_isSome (p := fun n : Net Point => decide (q.key ∈ n.nodes)).2
      ⟨n, netN, decide_eq_true inN⟩)
  have inM := List.find?_some (p := fun n : Net Point => decide (q.key ∈ n.nodes)) found
  obtain rfl := hasNets.eq_of_mem_nodes (List.mem_of_find?_eq_some found) netN
    (of_decide_eq_true inM) inN
  rw [pointColor, found, Option.bind_some]

theorem pointColor_of_forall_not_mem {q : Point} (off : ∀ n ∈ nets, q.key ∉ n.nodes) :
    d.pointColor nets q = none := by
  have none : nets.find? (q.key ∈ ·.nodes) = none := by
    simpa using off
  rw [pointColor, none, Option.bind_none]

end Drawing

namespace Colouring

variable {d : Drawing} {nets : List (Net Point)}

/-! Wires and named nodes. -/

theorem wireColor?_eq (color? : Point → Option String) {vs : List Value}
    (placed : ∀ v ∈ vs, ∃ q, Point.ofValue v = .ok (some q)) :
    wireColor? color? vs = .ok (vs.findSome? fun v => v.point?.bind color?) := by
  induction vs with
  | nil => rfl
  | cons v vs ih =>
      obtain ⟨⟨q, place⟩, rest⟩ := List.forall_mem_cons.1 placed
      rw [wireColor?, place, ih rest, List.findSome?_cons, Value.point?_of_ofValue place,
        Option.bind_some]
      change (match color? q with | some color => pure (some color) | none => Except.ok _) = _
      cases color? q with
      | none => rfl
      | some color => rfl

theorem foldlM_wires (color? : Point → Option String) {ws : List Wire}
    (placed : ∀ w ∈ ws, ∀ v ∈ w.points, ∃ q, Point.ofValue v = .ok (some q))
    (texts : ∀ w ∈ ws, ∃ s, w.id = .text s) (es : Entries Value String) :
    (ws.foldlM (fun es w => do
      match ← wireColor? color? w.points with
      | some color => if w.id.isKey then return Entries.put es w.id color else throw .wrongKind
      | none => return es) es : Except Fault _) =
    .ok ((ws.filterMap fun w => (w.points.findSome? fun v => v.point?.bind color?).map
      fun color => (w.id, color)).foldl (fun es e => Entries.put es e.1 e.2) es) := by
  induction ws generalizing es with
  | nil => rfl
  | cons w ws ih =>
      obtain ⟨first, rest⟩ := List.forall_mem_cons.1 placed
      obtain ⟨⟨s, id⟩, texts⟩ := List.forall_mem_cons.1 texts
      rw [List.foldlM_cons, wireColor?_eq color? first, List.filterMap_cons]
      cases w.points.findSome? fun v => v.point?.bind color? with
      | none => exact ih rest texts es
      | some color =>
          have isKey : w.id.isKey = true := by rw [id]; rfl
          dsimp only [bind, Except.bind]
          rw [if_pos isKey]
          exact ih rest texts _

theorem foldl_nodes {color : Nat → Option String}
    (colors : ∀ i n, nets[i]? = some n → color i = d.classColor nets n) :
    (nets.mapIdx fun i n => (color i, n)).foldl (fun es e =>
      match e.1 with
      | some color =>
        (e.2.terminals.filter (isNamedNode d)).foldl
          (fun es t => Entries.put es t.component color) es
      | none => es) [] =
    (d.tints nets).foldl (fun es e => Entries.put es e.1 e.2) [] := by
  have tinted : (nets.mapIdx fun i n => (color i, n)) = nets.map fun n => (d.classColor nets n, n) := by
    refine List.ext_getElem (by simp) fun i below _ => ?_
    rw [List.getElem_mapIdx, List.getElem_map, colors i _ (List.getElem?_eq_getElem _)]
  rw [tinted, List.foldl_map, Drawing.tints, List.foldl_flatMap]
  congr 1
  funext es n
  cases d.classColor nets n with
  | none => rfl
  | some color => rw [List.foldl_map]

theorem pointColor_eq (hasNets : d.layout.HasNets nets)
    (rounded : ∀ n ∈ nets, ∀ a ∈ n.nodes, a.IsRounded) {color : Nat → Option String}
    (colors : ∀ i n, nets[i]? = some n → color i = d.classColor nets n) :
    (fun q => (netAt? (pointIndex (nodePlaces nets)) q).bind color) = d.pointColor nets := by
  funext q
  cases found : netAt? (pointIndex (nodePlaces nets)) q with
  | none =>
      refine (Drawing.pointColor_of_forall_not_mem fun n netN inN => ?_).symm
      obtain ⟨i, atN⟩ := List.getElem?_of_mem netN
      rw [(netAt?_eq_some_iff rounded hasNets).2 ⟨n, atN, inN⟩] at found
      cases found
  | some i =>
      obtain ⟨n, atN, inN⟩ := (netAt?_eq_some_iff rounded hasNets).1 found
      rw [Option.bind_some, colors i n atN,
        Drawing.pointColor_of_mem hasNets (List.mem_of_getElem? atN) inN]

theorem ofNets_eq (built : d.Built) (distinct : (d.components.map (·.id)).Nodup)
    (hasNets : d.layout.HasNets nets) (rounded : ∀ n ∈ nets, ∀ a ∈ n.nodes, a.IsRounded) :
    ofNets d nets (nodePlaces nets) = .ok
      ⟨(d.shades nets).foldl (fun es e => Entries.put es e.1 e.2) [],
        (d.tints nets).foldl (fun es e => Entries.put es e.1 e.2) []⟩ := by
  obtain ⟨given, made, colors⟩ := exists_colors built distinct hasNets rounded
  refine Fault.bind_eq_ok.2 ⟨given, made, Fault.bind_eq_ok.2
    ⟨(d.shades nets).foldl (fun es e => Entries.put es e.1 e.2) [], ?_, ?_⟩⟩
  · rw [pointColor_eq hasNets rounded colors]
    exact foldlM_wires (d.pointColor nets) built.exists_ofValue built.exists_wire_id []
  · exact congrArg (fun nodes => (.ok ⟨_, nodes⟩ : Except Fault Colouring)) (foldl_nodes colors)

end Colouring

namespace Drawing

variable {d : Drawing} {nets : List (Net Point)}

theorem colouring_eq (built : d.Built) (onGrid : d.OnGrid)
    (distinct : (d.components.map (·.id)).Nodup) (hasNets : d.layout.HasNets nets) :
    d.colouring nets = .ok
      ⟨(d.shades nets).foldl (fun es e => Entries.put es e.1 e.2) [],
        (d.tints nets).foldl (fun es e => Entries.put es e.1 e.2) []⟩ := by
  have stable : ∀ n ∈ nets, ∀ a ∈ n.nodes, a.IsStable :=
    fun n netN a => isStable_of_mem_nodes built onGrid hasNets netN
  have places : (nets.mapM fun n => n.nodes.mapM fun p =>
      return some (← Point.rounded p.x p.y)) = .ok (Colouring.nodePlaces nets) := by
    refine Fault.mapM_eq_ok_map fun n netN => ?_
    have each := Fault.mapM_eq_ok_map (f := fun p => return some (← Point.rounded p.x p.y))
      (h := some) fun a inN => by rw [(stable n netN a inN : Point.rounded a.x a.y = .ok a)]; rfl
    exact each
  rw [colouring, built.checkIds, places]
  split
  next none =>
    obtain rfl := List.isEmpty_iff.1 none
    have shades : d.shades [] = [] := by
      refine List.filterMap_eq_nil_iff.2 fun w _ => ?_
      rw [Option.map_eq_none_iff, List.findSome?_eq_none_iff]
      exact fun v _ => Option.bind_fun_none _
    rw [shades]
    rfl
  next =>
    exact Colouring.ofNets_eq built distinct hasNets
      fun n netN a inN => (stable n netN a inN).isRounded

/-! Look-up. -/

variable {m n : Net Point} {x : Component} {w : Wire}

theorem eq_of_meets (hasNets : d.layout.HasNets nets) (netM : m ∈ nets) (netN : n ∈ nets)
    {place : Except Fault (Option Point)} (meetsM : m.Meets place) (meetsN : n.Meets place) :
    m = n := by
  obtain ⟨q, found, inM⟩ := meetsM
  obtain ⟨q', found', inN⟩ := meetsN
  obtain rfl := Option.some.inj (Except.ok.inj (found.symm.trans found'))
  exact hasNets.eq_of_mem_nodes netM netN inM inN

theorem isNamedNode_iff {t : Terminal} :
    Colouring.isNamedNode d t = true ↔ ∃ x, d.named? t.component = some x ∧ x.kind? = some .net := by
  unfold Colouring.isNamedNode
  cases d.named? t.component with
  | none => simp
  | some x => simp

theorem mem_tints {id color : String} :
    (id, color) ∈ d.tints nets ↔ ∃ n ∈ nets, d.classColor nets n = some color ∧
      ∃ t ∈ n.terminals, Colouring.isNamedNode d t = true ∧ t.component = id := by
  rw [tints, List.mem_flatMap]
  refine exists_congr fun n => and_congr_right fun _ => ?_
  cases d.classColor nets n with
  | none => simp
  | some tint =>
      simp only [List.mem_map, List.mem_filter, Prod.mk.injEq, Option.some.injEq]
      constructor
      · rintro ⟨t, ⟨inN, named⟩, rfl, rfl⟩
        exact ⟨rfl, t, inN, named, rfl⟩
      · rintro ⟨rfl, t, inN, named, rfl⟩
        exact ⟨t, ⟨inN, named⟩, rfl, rfl⟩

theorem exists_component_of_mem_tints :
    ∀ e ∈ d.tints nets, ∃ x ∈ d.components, x.kind? = some .net ∧ x.id.content = e.1 := by
  intro e member
  obtain ⟨n, _, _, t, _, named, same⟩ := mem_tints.1 member
  obtain ⟨x, known, kind⟩ := isNamedNode_iff.1 named
  obtain ⟨listed, sameId⟩ := mem_of_named? known
  exact ⟨x, listed, kind, sameId.trans same⟩

section

variable (texts : ∀ x ∈ d.components, ∃ s, x.id = .text s)
  (distinct : (d.components.map (·.id)).Nodup) (hasNets : d.layout.HasNets nets)

include texts distinct hasNets

theorem exists_pin_of_mem_terminals (listed : x ∈ d.components) (netN : n ∈ nets) {t : Terminal}
    (inN : t ∈ n.terminals) (same : t.component = x.id.content) :
    ∃ p ∈ x.pins, n.Meets p.place := by
  obtain ⟨y, p, pinned, isT⟩ := exists_hasPinAt_of_mem_terminals (hasNets.mem_terminals netN inN)
  rw [← isT] at same
  obtain rfl := component_eq_of_content_eq texts distinct pinned.listed listed same
  exact ⟨p, pinned.member, t.place, pinned.place, hasNets.key_mem_nodes n netN t inN⟩

theorem mem_tints_iff_of_class (listed : x ∈ d.components) (kind : x.kind? = some .net)
    (given : x.pins ≠ [])
    (inClass : ∀ p ∈ x.pins, ∃ m ∈ nets, m.Meets p.place ∧ d.SameClass nets m n) (color : String) :
    (x.id.content, color) ∈ d.tints nets ↔ d.classColor nets n = some color := by
  rw [mem_tints]
  constructor
  · rintro ⟨m, netM, tinted, t, inM, _, same⟩
    obtain ⟨p, member, meets⟩ :=
      exists_pin_of_mem_terminals texts distinct hasNets listed netM inM same
    obtain ⟨l, netL, meets', chain⟩ := inClass p member
    obtain rfl := eq_of_meets hasNets netM netL meets meets'
    rw [← classColor_congr chain, tinted]
  · intro tinted
    obtain ⟨p, member⟩ := List.exists_mem_of_ne_nil _ given
    obtain ⟨m, netM, ⟨q, place, inM⟩, chain⟩ := inClass p member
    have pinned : d.HasPinAt x p q :=
      ⟨listed, Component.isElectrical_of_kind? kind, member, place⟩
    obtain ⟨l, ⟨netL, inL⟩, _⟩ := hasNets.existsUnique_net pinned.mem_terminals
    obtain rfl := hasNets.eq_of_mem_nodes netL netM (hasNets.key_mem_nodes l netL _ inL) inM
    exact ⟨l, netL, (classColor_congr chain).trans tinted, _, inL,
      isNamedNode_iff.2 ⟨x, named?_of_mem texts distinct listed, kind⟩, rfl⟩

end

/-- A wire lies on one net as a whole. -/
theorem meets_of_meets (built : d.Built) (onGrid : d.OnGrid) (hasNets : d.layout.HasNets nets)
    (listed : w ∈ d.wires) (netN : n ∈ nets) {u v : Value} (inU : u ∈ w.points) (inV : v ∈ w.points)
    (meets : n.Meets (Point.ofValue u)) : n.Meets (Point.ofValue v) := by
  obtain ⟨id, qs, rfl, stable⟩ := (built.isKept onGrid).wires w listed
  have place : ∀ q ∈ qs, Point.ofValue q.toValue = .ok (some q) :=
    fun q member => (stable q member).ofCoordinates
  have traced : qs.map some ∈ d.layout.traces := by
    refine List.mem_map.2 ⟨_, listed, ?_⟩
    rw [List.map_map]
    refine List.map_congr_left fun q member => ?_
    exact Value.point?_of_ofValue (place q member)
  obtain ⟨a, inA, rfl⟩ := List.mem_map.1 inU
  obtain ⟨b, inB, rfl⟩ := List.mem_map.1 inV
  obtain ⟨q, found, inN⟩ := meets
  obtain rfl := Option.some.inj (Except.ok.inj ((place a inA).symm.trans found))
  refine ⟨b, place b inB, hasNets.key_mem_nodes_of_connected netN inN ?_
    (Placement.connected_of_mem_trace traced inA inB)⟩
  exact List.mem_append_left _
    (List.reduceOption_mem_iff.2 (List.mem_flatten.2 ⟨_, traced, List.mem_map_of_mem inB⟩))

theorem mem_shades_iff (distinct : (d.wires.map (·.id)).Nodup) (listed : w ∈ d.wires)
    (color : String) :
    (w.id, color) ∈ d.shades nets ↔
      (w.points.findSome? fun v => v.point?.bind (d.pointColor nets)) = some color := by
  rw [shades, List.mem_filterMap]
  constructor
  · rintro ⟨w', listed', made⟩
    obtain ⟨_, found, same⟩ := Option.map_eq_some_iff.1 made
    obtain ⟨sameId, rfl⟩ := Prod.mk.inj same
    rwa [← List.inj_on_of_nodup_map distinct listed' listed sameId]
  · intro found
    exact ⟨w, listed, Option.map_eq_some_iff.2 ⟨color, found, rfl⟩⟩

theorem get?_shades (built : d.Built) (distinct : (d.wires.map (·.id)).Nodup)
    (listed : w ∈ d.wires) :
    ((d.shades nets).foldl (fun es e => Entries.put es e.1 e.2) []).get? w.id =
      w.points.findSome? fun v => v.point?.bind (d.pointColor nets) := by
  obtain ⟨s, id⟩ := built.exists_wire_id w listed
  have only : Entries.IsExact w.id := id ▸ Value.isExact_text s
  exact Entries.get?_foldl_put_nil only (mem_shades_iff distinct listed)

theorem exists_wire_of_mem_shades : ∀ e ∈ d.shades nets, ∃ w ∈ d.wires, w.id = e.1 := by
  intro e member
  obtain ⟨w, listed, made⟩ := List.mem_filterMap.1 member
  obtain ⟨_, _, rfl⟩ := Option.map_eq_some_iff.1 made
  exact ⟨w, listed, rfl⟩

/-- Colours spread over the classes of nets: a wire has the colour of the class of the net that it
lies on, and a named node that of the class that all its pins are in. -/
theorem colouring_follows_classes (built : d.Built) (onGrid : d.OnGrid)
    (distinct : (d.components.map (·.id)).Nodup) (distinctWires : (d.wires.map (·.id)).Nodup) :
    ∃ nets col, d.nets = .ok nets ∧ d.colouring nets = .ok col ∧ col.Follows d nets := by
  have hasNets := d.hasNets_layout
  refine ⟨_, _, nets_of_placed built.isPlaced, colouring_eq built onGrid distinct hasNets, ?_⟩
  generalize (Graph.ofPlacement d.layout).nets = nets at hasNets ⊢
  have texts := built.id_isText
  constructor
  case wire =>
    rintro w listed n netN ⟨u, inU, meetsU⟩
    have meets : ∀ v ∈ w.points, n.Meets (Point.ofValue v) :=
      fun v inV => meets_of_meets built onGrid hasNets listed netN inU inV meetsU
    refine ⟨meets, (get?_shades built distinctWires listed).trans (findSome?_eq_of_forall ⟨u, inU⟩ fun v inV => ?_)⟩
    obtain ⟨q, place, inN⟩ := meets v inV
    rw [Value.point?_of_ofValue place, Option.bind_some, pointColor_of_mem hasNets netN inN]
  case loose =>
    intro w listed off
    refine (get?_shades built distinctWires listed).trans (List.findSome?_eq_none_iff.2 fun v inV => ?_)
    obtain ⟨q, place⟩ := built.exists_ofValue w listed v inV
    rw [Value.point?_of_ofValue place, Option.bind_some, pointColor_of_forall_not_mem]
    exact fun n netN inN => off n netN v inV ⟨q, place, inN⟩
  case node =>
    intro x listed kind given n _ inClass
    exact Entries.get?_foldl_put_nil (Entries.isExact _)
      (mem_tints_iff_of_class texts distinct hasNets listed kind given inClass)
  case bare =>
    intro x listed kind none
    refine Entries.get?_foldl_put_nil (Entries.isExact _) fun color => iff_of_false ?_ nofun
    rw [mem_tints]
    rintro ⟨n, netN, _, t, inN, _, same⟩
    obtain ⟨p, member, _⟩ := exists_pin_of_mem_terminals texts distinct hasNets listed netN inN same
    rw [none] at member
    cases member
  case ofWires =>
    exact Entries.forall_key_foldl_put (p := fun v => ∃ w ∈ d.wires, w.id = v)
      (List.forall_mem_nil _) exists_wire_of_mem_shades
  case ofNodes =>
    exact Entries.forall_key_foldl_put
      (p := fun id => ∃ x ∈ d.components, x.kind? = some .net ∧ x.id.content = id)
      (List.forall_mem_nil _) exists_component_of_mem_tints

def namedNode (id name : String) (color : Value) (x y : Nat) : Component :=
  ⟨.text id, .text "NET", .text "", [.at "1" ⟨.lit x 0, .lit y 0⟩], .text name, color⟩

/-- Three wires and four named nodes, of which only the first has a colour. The second wire has the
label of the first and that of the third. -/
def labelChain : Drawing :=
  let wire := fun (id : String) (y : Nat) =>
    (⟨.text id, [⟨.lit 0 0, .lit y 0⟩, ⟨.lit 20 0, .lit y 0⟩].map Point.toValue⟩ : Wire)
  { components := [namedNode "A" "bus" (.text "#da1e28") 0 0, namedNode "B" "Bus" .null 0 40,
      namedNode "C" "out" .null 20 40, namedNode "D" "OUT" .null 0 80]
    wires := [wire "W1" 0, wire "W2" 40, wire "W3" 80] }

theorem isKept_namedNode {id name : String} {color : Value} {x y : Nat}
    (coloured : color = .null ∨ ∃ s ∈ Palette.colors, color = .text s)
    (stable : (⟨.lit x 0, .lit y 0⟩ : Point).IsStable) : (namedNode id name color x y).IsKept where
  id := ⟨id, rfl⟩
  type := ⟨"NET", rfl⟩
  value := ⟨"", rfl⟩
  pins := List.forall_mem_singleton.2 (Pin.isKept_at "1" stable)
  name := .inr ⟨name, rfl⟩
  netColor := coloured

theorem isKept_labelChain : labelChain.IsKept where
  components := by
    simp only [labelChain, List.forall_mem_cons, List.not_mem_nil, false_implies, implies_true,
      and_true]
    refine ⟨isKept_namedNode (.inr ⟨_, by decide, rfl⟩) (by decide +kernel), ?_, ?_, ?_⟩
    all_goals exact isKept_namedNode (.inl rfl) (by decide +kernel)
  wires := by
    simp only [labelChain, List.forall_mem_cons, List.not_mem_nil, false_implies, implies_true,
      and_true]
    refine ⟨⟨"W1", _, rfl, ?_⟩, ⟨"W2", _, rfl, ?_⟩, ⟨"W3", _, rfl, ?_⟩⟩
    all_goals decide +kernel

theorem colouring_follows_classes_labelChain :
    labelChain.Built ∧ labelChain.OnGrid ∧ (labelChain.components.map (·.id)).Nodup ∧
      (labelChain.wires.map (·.id)).Nodup ∧
      ∃ nets col, labelChain.nets = .ok nets ∧ labelChain.colouring nets = .ok col ∧
        col.Follows labelChain nets ∧ col.wires.get? (.text "W3") = some "#da1e28" ∧
        col.nodes.get? "D" = some "#da1e28" := by
  have kept := isKept_labelChain
  have distinct : (labelChain.components.map (·.id)).Nodup := by simp [labelChain, namedNode]
  have distinctWires : (labelChain.wires.map (·.id)).Nodup := by simp [labelChain]
  refine ⟨kept.built, kept.onGrid, distinct, distinctWires, ?_⟩
  obtain ⟨nets, col, found, coloured, follows⟩ :=
    colouring_follows_classes kept.built kept.onGrid distinct distinctWires
  have tints : (labelChain.colouring nets).toOption.map (fun col =>
      (col.wires.get? (.text "W3"), col.nodes.get? "D")) =
        some (some "#da1e28", some "#da1e28") := by
    rw [(nets_eq_ok.1 found).2]
    decide +kernel
  rw [coloured] at tints
  obtain ⟨wire, node⟩ := Prod.mk.inj (Option.some.inj tints)
  exact ⟨nets, col, found, coloured, follows, wire, node⟩

end Drawing

end Schematic
