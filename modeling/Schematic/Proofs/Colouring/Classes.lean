import Schematic.Proofs.Colouring.Groups
import Schematic.Proofs.DistinctIds
import Schematic.Proofs.Kept
/-!
Classes of nets for colouring, and the colour of each of them: that of the first coloured node with
its first pin on a net of the class.
-/

namespace Schematic

def Net.Meets (n : Net Point) (place : Except Fault (Option Point)) : Prop :=
  ∃ q, place = .ok (some q) ∧ q.key ∈ n.nodes

namespace Drawing

/-- Whether two of the nets carry a label of one key. -/
structure SharesLabel (d : Drawing) (nets : List (Net Point)) (m n : Net Point) : Prop where
  left : m ∈ nets
  right : n ∈ nets
  label : ∃ k, k ≠ "" ∧ (∃ x, d.Bears m x k) ∧ ∃ y, d.Bears n y k

/-- Whether a chain of nets, each with a label in common with the next, leads from one net to the
other. -/
def SameClass (d : Drawing) (nets : List (Net Point)) : Net Point → Net Point → Prop :=
  Relation.EqvGen (d.SharesLabel nets)

def Leads (d : Drawing) (nets : List (Net Point)) (n : Net Point) (x : Component) : Prop :=
  x.kind? = some .net ∧
    ∃ p rest, x.pins = p :: rest ∧ ∃ m ∈ nets, m.Meets p.place ∧ d.SameClass nets m n

open Classical in
/-- The colour of the class of a net: the first palette colour of a named node that leads to it. -/
noncomputable def classColor (d : Drawing) (nets : List (Net Point)) (n : Net Point) :
    Option String :=
  d.components.findSome? fun x => if d.Leads nets n x then Palette.color? x.netColor else none

variable {d : Drawing} {nets : List (Net Point)} {m n : Net Point} {i j : Nat}

theorem classColor_congr (same : d.SameClass nets m n) :
    d.classColor nets m = d.classColor nets n := by
  have leads : d.Leads nets m = d.Leads nets n := by
    funext x
    refine propext (and_congr_right fun _ => exists_congr fun p => exists_congr fun rest =>
      and_congr_right fun _ => exists_congr fun l => and_congr_right fun _ =>
        and_congr_right fun _ => ?_)
    exact ⟨fun chain => chain.trans _ _ _ same, fun chain => chain.trans _ _ _ same.symm⟩
  rw [classColor, leads, classColor]

section

variable (texts : ∀ x ∈ d.components, ∃ s, x.id = .text s)
  (distinct : (d.components.map (·.id)).Nodup)

include texts distinct

theorem exists_bears_iff {k : String} :
    (k ≠ "" ∧ ∃ x, d.Bears n x k) ↔ ∃ l ∈ d.labels n, l.key = k := by
  constructor
  · rintro ⟨given, x, bears⟩
    exact bears.exists_mem_labels texts distinct given
  · rintro ⟨l, member, rfl⟩
    exact exists_bears_of_mem_labels member

theorem shares_iff (atM : nets[i]? = some m) (atN : nets[j]? = some n) :
    Colouring.Shares (Colouring.marksOf d nets) i j ↔ d.SharesLabel nets m n := by
  simp only [Colouring.Shares, Colouring.mem_marksOf, atM, atN, Option.some.injEq, exists_eq_left',
    ← exists_bears_iff texts distinct]
  constructor
  · rintro ⟨k, ⟨given, bearsM⟩, _, bearsN⟩
    exact ⟨List.mem_of_getElem? atM, List.mem_of_getElem? atN, k, given, bearsM, bearsN⟩
  · rintro ⟨_, _, k, given, bearsM, bearsN⟩
    exact ⟨k, ⟨given, bearsM⟩, given, bearsN⟩

theorem rep_groups_eq_iff_sameClass (nodup : nets.Nodup) (atM : nets[i]? = some m)
    (atN : nets[j]? = some n) :
    (Colouring.groups d nets).rep i = (Colouring.groups d nets).rep j ↔ d.SameClass nets m n := by
  constructor
  · intro same
    -- Positions of one group hold nets of one class.
    have agrees : ∀ i j, Colouring.Shares (Colouring.marksOf d nets) i j →
        nets[i]?.map (Quot.mk (d.SharesLabel nets)) =
          nets[j]?.map (Quot.mk (d.SharesLabel nets)) := by
      intro i j shared
      obtain ⟨k, left, right⟩ := id shared
      obtain ⟨l, atL, _⟩ := Colouring.mem_marksOf.1 left
      obtain ⟨r, atR, _⟩ := Colouring.mem_marksOf.1 right
      rw [atL, atR]
      exact congrArg some (Quot.sound ((shares_iff texts distinct atL atR).1 shared))
    have classes := eq_of_eqvGen agrees ((Colouring.rep_groups_eq_iff d nets i j).1 same)
    rw [atM, atN] at classes
    exact Quot.eqvGen_exact (Option.some.inj classes)
  · intro chain
    -- The representatives of the positions of a net are one.
    let reps := fun n => {r | ∃ i, nets[i]? = some n ∧ (Colouring.groups d nets).rep i = r}
    have single : ∀ {n i}, nets[i]? = some n → reps n = {(Colouring.groups d nets).rep i} := by
      intro n i atN
      ext r
      constructor
      · rintro ⟨i', atN', rfl⟩
        have below := (List.getElem?_eq_some_iff.1 atN').1
        rw [(List.getElem?_inj below nodup).1 (atN'.trans atN.symm)]
        rfl
      · rintro rfl
        exact ⟨i, atN, rfl⟩
    have agrees : ∀ m n, d.SharesLabel nets m n → reps m = reps n := by
      intro m n shared
      obtain ⟨i, atM⟩ := List.getElem?_of_mem shared.left
      obtain ⟨j, atN⟩ := List.getElem?_of_mem shared.right
      rw [single atM, single atN, (Colouring.rep_groups_eq_iff d nets i j).2
        (.rel i j ((shares_iff texts distinct atM atN).2 shared))]
    have classes := eq_of_eqvGen agrees chain
    rwa [single atM, single atN, Set.singleton_eq_singleton_iff] at classes

end

theorem isStable_of_mem_places (built : d.Built) (onGrid : d.OnGrid) {q : Point}
    (member : q ∈ d.layout.places) : q.IsStable := by
  have kept := built.isKept onGrid
  have stays : ∀ {r : Point}, r.IsStable →
      Point.ofCoordinates (.float r.x) (.float r.y) = .ok (some q) → q.IsStable := by
    intro r stable found
    obtain rfl := Option.some.inj (Except.ok.inj (stable.ofCoordinates.symm.trans found))
    exact stable
  rcases List.mem_append.1 member with traced | pinned
  · obtain ⟨trace, inTraces, inTrace⟩ := List.mem_flatten.1 (List.reduceOption_mem_iff.1 traced)
    obtain ⟨w, listed, rfl⟩ := List.mem_map.1 inTraces
    obtain ⟨id, points, rfl, stable⟩ := kept.wires w listed
    obtain ⟨v, inWire, found⟩ := List.mem_map.1 inTrace
    obtain ⟨r, inPoints, rfl⟩ := List.mem_map.1 inWire
    exact stays (stable r inPoints) (Value.ofValue_of_point? found)
  · obtain ⟨t, placed, rfl⟩ := List.mem_map.1 pinned
    obtain ⟨c, listed, _, p, inC, place, found, rfl⟩ := mem_terminals.1 placed
    obtain ⟨id, name, r, rfl, _, stable⟩ := (kept.components c listed).pins p inC
    exact stays stable (Pin.place_of_point? found)

theorem isStable_of_mem_nodes (built : d.Built) (onGrid : d.OnGrid)
    (hasNets : d.layout.HasNets nets) (netN : n ∈ nets) {a : Point} (inN : a ∈ n.nodes) :
    a.IsStable := by
  obtain ⟨q, placed, rfl⟩ := mem_keysOf.1 ((hasNets.mem_nodes_iff n netN a inN a).1 inN).1
  have stable := isStable_of_mem_places built onGrid placed
  rwa [stable.isRounded.key_eq]

end Drawing

namespace Colouring

theorem mem_pointIndex {places : List (List (Option Point))} {a : Point} {i : Nat} :
    (a, i) ∈ pointIndex places ↔
      ∃ ps, places[i]? = some ps ∧ ∃ p, some p ∈ ps ∧ p.key = a := by
  simp only [pointIndex, List.mem_reverse, List.mem_flatten, List.mem_mapIdx]
  constructor
  · rintro ⟨_, ⟨j, below, rfl⟩, member⟩
    obtain ⟨_, inPs, made⟩ := List.mem_filterMap.1 member
    obtain ⟨p, rfl, same⟩ := Option.map_eq_some_iff.1 made
    obtain ⟨rfl, rfl⟩ := Prod.mk.inj same
    exact ⟨_, List.getElem?_eq_getElem below, p, inPs, rfl⟩
  · rintro ⟨ps, found, p, inPs, rfl⟩
    obtain ⟨below, rfl⟩ := List.getElem?_eq_some_iff.1 found
    exact ⟨_, ⟨i, below, rfl⟩, List.mem_filterMap.2 ⟨some p, inPs, rfl⟩⟩

def nodePlaces (nets : List (Net Point)) : List (List (Option Point)) :=
  nets.map fun n => n.nodes.map some

section

variable {nets : List (Net Point)} (rounded : ∀ n ∈ nets, ∀ a ∈ n.nodes, a.IsRounded)

include rounded

theorem mem_pointIndex_nodePlaces {a : Point} {i : Nat} :
    (a, i) ∈ pointIndex (nodePlaces nets) ↔ ∃ n, nets[i]? = some n ∧ a ∈ n.nodes := by
  simp only [mem_pointIndex, nodePlaces, List.getElem?_map, Option.map_eq_some_iff]
  constructor
  · rintro ⟨_, ⟨n, atN, rfl⟩, b, member, rfl⟩
    have inN : b ∈ n.nodes := by simpa using member
    rw [(rounded n (List.mem_of_getElem? atN) b inN).key_eq]
    exact ⟨n, atN, inN⟩
  · rintro ⟨n, atN, inN⟩
    exact ⟨_, ⟨n, atN, rfl⟩, a, List.mem_map_of_mem inN,
      (rounded n (List.mem_of_getElem? atN) a inN).key_eq⟩

theorem coincides_iff_of_mem_pointIndex {e : Point × Nat}
    (member : e ∈ pointIndex (nodePlaces nets)) (q : Point) :
    e.1.coincides q.key = true ↔ e.1 = q.key := by
  obtain ⟨n, atN, inN⟩ := (mem_pointIndex_nodePlaces rounded).1 member
  have isRounded := rounded n (List.mem_of_getElem? atN) e.1 inN
  have same := Point.coincides_key_iff (q := q) isRounded.isNumeric
  rwa [isRounded.key_eq] at same

theorem netAt?_eq_some_iff {p : Placement} (hasNets : p.HasNets nets) {q : Point} {i : Nat} :
    netAt? (pointIndex (nodePlaces nets)) q = some i ↔ ∃ n, nets[i]? = some n ∧ q.key ∈ n.nodes := by
  have sound : ∀ {i}, netAt? (pointIndex (nodePlaces nets)) q = some i →
      ∃ n, nets[i]? = some n ∧ q.key ∈ n.nodes := by
    intro i found
    obtain ⟨e, first, rfl⟩ := Option.map_eq_some_iff.1 found
    have member := List.mem_of_find?_eq_some first
    have here := List.find?_some (p := fun e : Point × Nat => e.1.coincides q.key) first
    rw [← (coincides_iff_of_mem_pointIndex rounded member q).1 here]
    exact (mem_pointIndex_nodePlaces rounded).1 member
  refine ⟨sound, ?_⟩
  rintro ⟨n, atN, inN⟩
  have member := (mem_pointIndex_nodePlaces rounded).2 ⟨n, atN, inN⟩
  obtain ⟨e, first⟩ := Option.isSome_iff_exists.1
    (List.find?_isSome (p := fun e : Point × Nat => e.1.coincides q.key).2
      ⟨_, member, (coincides_iff_of_mem_pointIndex rounded member q).2 rfl⟩)
  have found : netAt? (pointIndex (nodePlaces nets)) q = some e.2 := by rw [netAt?, first]; rfl
  -- No other net has the point.
  obtain ⟨m, atM, inM⟩ := sound found
  obtain rfl := hasNets.eq_of_mem_nodes (List.mem_of_getElem? atM) (List.mem_of_getElem? atN) inM inN
  have below := (List.getElem?_eq_some_iff.1 atM).1
  rw [found, (List.getElem?_inj below hasNets.nodup).1 (atM.trans atN.symm)]

end

theorem get?_byGroup (g : DisjointSets) (given : List (Nat × String)) (r : Nat) :
    (byGroup g given).get? r =
      given.findSome? fun e => if g.rep e.1 = r then some e.2 else none := by
  -- From the end, where a colour counts only if there is none for its group.
  induction given using List.reverseRecOn with
  | nil => rfl
  | append_singleton given e ih =>
      have step : byGroup g (given ++ [e]) = (byGroup g given).putNew (g.rep e.1) e.2 := by
        rw [byGroup, List.foldl_append]
        rfl
      rw [step, Entries.get?_putNew (Entries.isExact r), ih, List.findSome?_append]
      simp only [List.findSome?_singleton, beq_iff_eq]

theorem exists_given?_iff (index : List (Point × Nat)) {x : Component}
    (placed : ∀ p ∈ x.pins, ∃ q, p.place = .ok (some q)) :
    ∃ g, given? index x = .ok g ∧ ∀ i color, g = some (i, color) ↔
      x.kind? = some .net ∧ Palette.color? x.netColor = some color ∧
        ∃ p rest q, x.pins = p :: rest ∧ p.place = .ok (some q) ∧ netAt? index q = some i := by
  unfold given?
  by_cases kind : x.kind? = some .net
  · rw [if_neg (by simp [kind])]
    cases tinted : Palette.color? x.netColor with
    | none => exact ⟨none, rfl, by simp⟩
    | some tint =>
        cases pins : x.pins with
        | nil => exact ⟨none, rfl, by simp⟩
        | cons p rest =>
            obtain ⟨q, place⟩ := placed p (by simp [pins])
            refine ⟨(netAt? index q).map fun i => (i, tint), ?_, fun i color => ?_⟩
            · dsimp only
              rw [place]
              rfl
            · simp only [Option.map_eq_some_iff, Prod.mk.injEq, kind, true_and, Option.some.injEq,
                List.cons.injEq]
              constructor
              · rintro ⟨_, found, rfl, rfl⟩
                exact ⟨rfl, p, rest, q, ⟨rfl, rfl⟩, place, found⟩
              · rintro ⟨rfl, _, _, q', ⟨rfl, rfl⟩, place', found⟩
                obtain rfl := Option.some.inj (Except.ok.inj (place.symm.trans place'))
                exact ⟨i, found, rfl, rfl⟩
  · rw [if_pos (by simpa using kind)]
    exact ⟨none, rfl, by simp [kind]⟩

section

variable {d : Drawing} (built : d.Built) (distinct : (d.components.map (·.id)).Nodup)
  {nets : List (Net Point)} (hasNets : d.layout.HasNets nets)
  (rounded : ∀ n ∈ nets, ∀ a ∈ n.nodes, a.IsRounded)

include built distinct hasNets rounded

theorem leads_iff {i : Nat} {n : Net Point} (atN : nets[i]? = some n) {x : Component} :
    d.Leads nets n x ↔ x.kind? = some .net ∧
      ∃ p rest q k, x.pins = p :: rest ∧ p.place = .ok (some q) ∧
        netAt? (pointIndex (nodePlaces nets)) q = some k ∧
        (groups d nets).rep k = (groups d nets).rep i := by
  have same := fun {k m} (atM : nets[k]? = some m) =>
    Drawing.rep_groups_eq_iff_sameClass built.id_isText distinct hasNets.nodup atM atN
  refine and_congr_right fun _ => exists_congr fun p => exists_congr fun rest => ?_
  constructor
  · rintro ⟨pins, m, netM, ⟨q, place, inM⟩, chain⟩
    obtain ⟨k, atM⟩ := List.getElem?_of_mem netM
    exact ⟨q, k, pins, place, (netAt?_eq_some_iff rounded hasNets).2 ⟨m, atM, inM⟩,
      (same atM).2 chain⟩
  · rintro ⟨q, k, pins, place, found, one⟩
    obtain ⟨m, atM, inM⟩ := (netAt?_eq_some_iff rounded hasNets).1 found
    exact ⟨pins, m, List.mem_of_getElem? atM, ⟨q, place, inM⟩, (same atM).1 one⟩

open Classical in
theorem given_eq_tint {i : Nat} {n : Net Point} (atN : nets[i]? = some n) {x : Component}
    (listed : x ∈ d.components) {g : Option (Nat × String)}
    (found : given? (pointIndex (nodePlaces nets)) x = .ok g) :
    (g.bind fun e => if (groups d nets).rep e.1 = (groups d nets).rep i then some e.2 else none) =
      if d.Leads nets n x then Palette.color? x.netColor else none := by
  obtain ⟨g', found', gives⟩ :=
    exists_given?_iff (pointIndex (nodePlaces nets)) (built.exists_place x listed)
  obtain rfl := Except.ok.inj (found.symm.trans found')
  ext color
  rw [Option.bind_eq_some_iff, Option.ite_none_right_eq_some,
    leads_iff built distinct hasNets rounded atN]
  constructor
  · rintro ⟨⟨k, color'⟩, given, tint⟩
    obtain ⟨one, ⟨⟩⟩ := Option.ite_none_right_eq_some.1 tint
    obtain ⟨kind, tinted, p, rest, q, pins, place, found⟩ := (gives k color').1 given
    exact ⟨⟨kind, p, rest, q, k, pins, place, found, one⟩, tinted⟩
  · rintro ⟨⟨kind, p, rest, q, k, pins, place, found, one⟩, tinted⟩
    exact ⟨(k, color), (gives k color).2 ⟨kind, tinted, p, rest, q, pins, place, found⟩, if_pos one⟩

theorem exists_colors :
    ∃ given, d.components.mapM (given? (pointIndex (nodePlaces nets))) = .ok given ∧
      ∀ i n, nets[i]? = some n →
        colorOf? (groups d nets) (byGroup (groups d nets) (given.filterMap fun g => g)) i =
          d.classColor nets n := by
  obtain ⟨given, made⟩ := Fault.exists_mapM fun x listed =>
    (exists_given?_iff (pointIndex (nodePlaces nets)) (built.exists_place x listed)).imp
      fun _ => And.left
  refine ⟨given, made, fun i n atN => ?_⟩
  let tint := fun g : Option (Nat × String) => g.bind fun e =>
    if (groups d nets).rep e.1 = (groups d nets).rep i then some e.2 else none
  calc
    _ = (given.filterMap fun g => g).findSome? _ := get?_byGroup _ _ _
    _ = given.findSome? tint := by
      rw [← List.head?_filterMap, List.filterMap_filterMap, List.head?_filterMap]
      rfl
    _ = (given.map tint).findSome? id := by rw [List.findSome?_map]; rfl
    _ = d.classColor nets n := by
      rw [Fault.map_eq_of_mapM made fun x listed g found =>
        given_eq_tint built distinct hasNets rounded atN listed found, List.findSome?_map]
      rfl

end

end Colouring

end Schematic
