import Schematic.Proofs.Grid.Rerounding
import Schematic.Proofs.RoundTrip
import Schematic.Proofs.Saving
import Mathlib.Logic.Relation
/-!
Drawings that are saved and loaded again and again. Each time all coordinates are rounded once more,
so that a pin or a point of a wire keeps its node just when rounding leaves its coordinates as they
are.
-/

namespace Schematic

def Binary64.IsSteady (x : Binary64) : Prop :=
  x.roundCoord = .ok x

namespace Point

theorem isStable_iff {p : Point} : p.IsStable ↔ p.x.IsSteady ∧ p.y.IsSteady :=
  rounded_eq_ok

def Rounds (p q : Point) : Prop :=
  rounded p.x p.y = .ok q

theorem IsRounded.exists_rounds {p : Point} (isRounded : p.IsRounded) :
    ∃ q, ofCoordinates (.float p.x) (.float p.y) = .ok (some q) ∧ Rounds p.key q.key := by
  obtain ⟨q, placed⟩ := isRounded.exists_ofCoordinates
  obtain ⟨finiteX, finiteY⟩ := isRounded.isFinite
  refine ⟨q, placed, ?_⟩
  rw [isRounded.key_eq, (isRounded_of_ofCoordinates placed).key_eq]
  rw [ofCoordinates_float finiteX finiteY] at placed
  cases again : rounded p.x p.y with
  | error fault =>
      rw [again] at placed
      cases placed
  | ok r =>
      rw [again] at placed
      cases placed
      exact again

/-- A point that has been normalized is left as it is by normalizing it again just when its
coordinates are steady. -/
theorem ofValue_toValue_eq_self_iff {p : Point} (isRounded : p.IsRounded) :
    ofValue p.toValue = .ok (some p) ↔ p.x.IsSteady ∧ p.y.IsSteady := by
  obtain ⟨q, placed, rounds⟩ := isRounded.exists_rounds
  rw [isRounded.key_eq, (isRounded_of_ofCoordinates placed).key_eq] at rounds
  change ofCoordinates _ _ = _ ↔ _
  rw [placed, ← isStable_iff, IsStable, rounds]
  simp

end Point

def Drawing.places (d : Drawing) : List Point :=
  (d.components.flatMap fun c => c.pins.filterMap Pin.point?) ++
    d.wires.flatMap fun w => w.points.filterMap Value.point?

/-- The keys of the nodes that the pins and the points of the wires lie on. -/
def Drawing.nodeKeys (d : Drawing) : List Point :=
  d.places.map Point.key

def Point.KeyRounds (p q : Point) : Prop :=
  Rounds p.key q.key

theorem Pin.rel_point?_of_tidy {p p' : Pin} (tidied : p.tidy = .ok p')
    (placed : ∃ q, p.place = .ok (some q)) : Option.Rel Point.KeyRounds p.point? p'.point? := by
  obtain ⟨place, found, id, name, rfl, _⟩ := exists_of_tidy tidied
  obtain ⟨q, here⟩ := placed
  obtain rfl := Except.ok.inj (here.symm.trans found)
  obtain ⟨r, again, rounds⟩ := (Point.isRounded_of_ofCoordinates here).exists_rounds
  have here' : p.point? = some q := point?_of_place here
  have again' : point? ⟨.text id, .text name, .float q.x, .float q.y⟩ = some r :=
    point?_of_place again
  rw [Option.getD_some, here', again']
  exact .some rounds

theorem Component.forall₂_keyRounds {c c' : Component} (tidied : c.tidy = .ok c')
    (placed : ∀ p ∈ c.pins, ∃ q, p.place = .ok (some q)) :
    List.Forall₂ Point.KeyRounds (c.pins.filterMap Pin.point?) (c'.pins.filterMap Pin.point?) := by
  obtain ⟨pins, each, rest⟩ := Fault.bind_eq_ok.1 tidied
  obtain rfl := Fault.pure_eq_ok.1 rest
  refine List.rel_filterMap (fun p p' both => ?_) (Fault.forall₂_mem_of_mapM each)
  exact Pin.rel_point?_of_tidy both.2 (placed p both.1)

theorem Wire.forall₂_keyRounds {w w' : Wire} (tidied : w.tidy = .ok w')
    (placed : ∀ v ∈ w.points, ∃ q, Point.ofValue v = .ok (some q)) :
    List.Forall₂ Point.KeyRounds (w.points.filterMap Value.point?)
      (w'.points.filterMap Value.point?) := by
  obtain ⟨places, traced, rfl⟩ := exists_of_tidy tidied
  have same : ((places.filterMap fun place => place).map Point.toValue).filterMap Value.point? =
      places.filterMap fun place => place.bind fun q => q.toValue.point? := by
    rw [List.filterMap_map, List.filterMap_filterMap]
    rfl
  rw [same]
  refine List.rel_filterMap (fun v place both => ?_) (Fault.forall₂_mem_of_mapM traced)
  obtain ⟨member, found⟩ := both
  obtain ⟨q, here⟩ := placed v member
  obtain rfl := Except.ok.inj (here.symm.trans found)
  obtain ⟨r, again, rounds⟩ := (Point.isRounded_of_ofValue here).exists_rounds
  have again' : q.toValue.point? = some r := Value.point?_of_ofValue again
  rw [Value.point?_of_ofValue here, Option.bind_some, again']
  exact .some rounds

namespace Drawing

variable {d d' : Drawing}

theorem Built.forall₂_rounds (built : d.Built) (again : d.retidied = .ok d') :
    List.Forall₂ Point.Rounds d.nodeKeys d'.nodeKeys := by
  obtain ⟨cs, components, rest⟩ := Fault.bind_eq_ok.1 again
  obtain ⟨ws, wires, rest⟩ := Fault.bind_eq_ok.1 rest
  obtain rfl := Fault.pure_eq_ok.1 rest
  rw [nodeKeys, nodeKeys, List.forall₂_map_left_iff, List.forall₂_map_right_iff]
  refine List.rel_append ?_ ?_
  · refine List.rel_flatMap (Fault.forall₂_mem_of_mapM components) fun c c' both => ?_
    exact Component.forall₂_keyRounds both.2 (built.exists_place c both.1)
  · refine List.rel_flatMap (Fault.forall₂_mem_of_mapM wires) fun w w' both => ?_
    exact Wire.forall₂_keyRounds both.2 (built.exists_ofValue w both.1)

theorem built_of_retidied (again : d.retidied = .ok d') : d'.Built := by
  obtain ⟨cs, components, rest⟩ := Fault.bind_eq_ok.1 again
  obtain ⟨ws, wires, rest⟩ := Fault.bind_eq_ok.1 rest
  obtain rfl := Fault.pure_eq_ok.1 rest
  refine .of_tidied (fun c member => ?_) fun w member => ?_
  · obtain ⟨c₀, _, tidied⟩ := Fault.exists_of_mem_mapM components member
    exact ⟨c₀, tidied⟩
  · obtain ⟨w₀, _, tidied⟩ := Fault.exists_of_mem_mapM wires member
    exact ⟨w₀, tidied⟩

theorem Built.exists_retidied (built : d.Built) : ∃ d', d.retidied = .ok d' := by
  have components : ∃ cs, d.components.mapM Component.tidy = .ok cs := by
    refine Fault.exists_mapM fun c listed => Fault.exists_bind (Fault.exists_mapM ?_) ?_
    · intro p member
      obtain ⟨q, place⟩ := built.exists_place c listed p member
      exact Fault.exists_bind ⟨_, place⟩ fun _ => ⟨_, rfl⟩
    · exact fun _ => ⟨_, rfl⟩
  have wires : ∃ ws, d.wires.mapM Wire.tidy = .ok ws := by
    refine Fault.exists_mapM fun w listed => Fault.exists_bind (Fault.exists_mapM ?_) ?_
    · intro v member
      obtain ⟨q, place⟩ := built.exists_ofValue w listed v member
      exact ⟨_, place⟩
    · exact fun _ => ⟨_, rfl⟩
  exact Fault.exists_bind components fun _ => Fault.exists_bind wires fun _ => ⟨_, rfl⟩

end Drawing

theorem Session.exists_of_save {s s' : Session} {fs saved : Files} {path : String}
    (saves : s.save fs path = (.ok s', saved)) :
    ∃ v, s.drawing.toValue = .ok v ∧ fs.write path (Json.write v) = .ok saved := by
  have left := s.saves_attemptSave fs path
  rw [attemptSave_eq_save, saves] at left
  cases left with
  | whole _ made written => exact ⟨_, made, written⟩

namespace Drawing

variable {d d' : Drawing}

/-- Whether one drawing is read from what another one was saved to: its document, or a file. -/
inductive Reopens : Drawing → Drawing → Prop
  | document {d d' : Drawing} {v : Value} (made : d.toValue = .ok v) (read : ofValue v = .ok d') :
      Reopens d d'
  | file [Json.Limits] {s s' t t' : Session} {fs saved : Files} {path : String}
      (saves : s.save fs path = (.ok s', saved)) (holds : fs.Holds path)
      (reads : ∀ v, s.drawing.toValue = .ok v → Json.ReadsBack v)
      (loads : t.load saved path = .ok t') : Reopens s.drawing t'.drawing

theorem Built.retidied_of_reopens (reopens : d.Reopens d') (built : d.Built) :
    d.retidied = .ok d' := by
  obtain ⟨v, made, _, again⟩ := built.isStored.exists_toValue
  cases reopens with
  | document made' read =>
      obtain rfl := Except.ok.inj (made.symm.trans made')
      exact again.symm.trans read
  | file saves holds reads loads =>
      obtain ⟨v', made', written⟩ := Session.exists_of_save saves
      obtain rfl := Except.ok.inj (made.symm.trans made')
      obtain ⟨content, d', found, read, rfl⟩ := Session.load_eq_ok.1 loads
      obtain rfl := Except.ok.inj ((Files.read_write written holds).symm.trans found)
      obtain ⟨v', same, _, read⟩ := Session.drawingOfText_eq_ok.1 read
      obtain rfl := Except.ok.inj ((reads v made).symm.trans same)
      exact again.symm.trans read

theorem Built.exists_reopens (built : d.Built) : ∃ d', d.Reopens d' := by
  obtain ⟨v, made, _, again⟩ := built.isStored.exists_toValue
  obtain ⟨d', retidied⟩ := built.exists_retidied
  exact ⟨d', .document made (again.trans retidied)⟩

theorem Built.of_reopened (built : d.Built) (reopened : Relation.ReflTransGen Reopens d d') :
    d'.Built := by
  induction reopened with
  | refl => exact built
  | tail _ last ih => exact built_of_retidied (ih.retidied_of_reopens last)

theorem Built.nodeKeys_iff (built : d.Built) {i : Nat} {p : Point}
    (found : d.nodeKeys[i]? = some p) :
    (∀ d', Relation.ReflTransGen Reopens d d' → d'.nodeKeys[i]? = some p) ↔ p.IsStable := by
  have next : ∀ {d d' : Drawing}, d.Built → d.Reopens d' → d.nodeKeys[i]? = some p →
      ∃ q, d'.nodeKeys[i]? = some q ∧ p.Rounds q := by
    intro d d' built reopens found
    have paired := built.forall₂_rounds (built.retidied_of_reopens reopens)
    obtain ⟨inside, rfl⟩ := List.getElem?_eq_some_iff.1 found
    have inside' : i < d'.nodeKeys.length := paired.length_eq ▸ inside
    exact ⟨_, List.getElem?_eq_getElem inside', paired.get inside inside'⟩
  constructor
  · intro keeps
    obtain ⟨d', reopens⟩ := built.exists_reopens
    obtain ⟨q, found', rounds⟩ := next built reopens found
    obtain rfl := Option.some.inj (found'.symm.trans (keeps d' (.single reopens)))
    exact rounds
  · intro stable d' reopened
    induction reopened with
    | refl => exact found
    | tail before last ih =>
        obtain ⟨q, found', rounds⟩ := next (built.of_reopened before) last ih
        obtain rfl : p = q := Except.ok.inj (stable.symm.trans rounds)
        exact found'

end Drawing

/-- What has been rounded can be rounded again, and is left as it is just where the half that is
added to its steps does not carry it to the next one. A point that has been normalized, and a node
that is saved and loaded any number of times, stay where they are just when both coordinates do. -/
theorem rerounding_keeps_iff (x : Binary64) (v : Value) (d : Drawing) :
    (∀ y, x.roundCoord = .ok y →
      (∃ z, y.roundCoord = .ok z) ∧ (y.IsCalm → y.IsSteady) ∧
        ∃ k, (x * .gridSteps + .half).floor? = some k ∧
          (y.IsSteady ↔ 2 ^ 53 ≤ k.natAbs ∨ y.StaysBelow k)) ∧
    (∀ p, Point.ofValue v = .ok (some p) →
      (∃ q, Point.ofValue p.toValue = .ok (some q)) ∧
        (Point.ofValue p.toValue = .ok (some p) ↔ p.x.IsSteady ∧ p.y.IsSteady)) ∧
    (d.Built →
      (∀ c ∈ d.components, ∀ p ∈ c.pins, ∃ q, p.point? = some q) ∧
      (∀ w ∈ d.wires, ∀ v ∈ w.points, ∃ q, v.point? = some q) ∧
      (∀ d', Relation.ReflTransGen Drawing.Reopens d d' → ∃ d'', d'.Reopens d'') ∧
      ∀ (i : Nat) (p : Point), d.nodeKeys[i]? = some p →
        ((∀ d', Relation.ReflTransGen Drawing.Reopens d d' → d'.nodeKeys[i]? = some p) ↔
          p.x.IsSteady ∧ p.y.IsSteady)) := by
  refine ⟨fun y rounded => ?_, fun p normalized => ?_, fun built => ?_⟩
  · obtain ⟨k, _, counted, _⟩ := Binary64.roundCoord_eq_ok rounded
    exact ⟨Binary64.exists_roundCoord_of_roundCoord rounded,
      Binary64.roundCoord_eq_self_of_isCalm rounded counted, k, counted,
      Binary64.roundCoord_eq_self_iff rounded counted⟩
  · have isRounded := Point.isRounded_of_ofValue normalized
    exact ⟨isRounded.exists_ofCoordinates, Point.ofValue_toValue_eq_self_iff isRounded⟩
  · refine ⟨fun c listed p member => ?_, fun w listed v member => ?_, fun d' reopened => ?_,
      fun i p found => ?_⟩
    · obtain ⟨q, place⟩ := built.exists_place c listed p member
      exact ⟨q, Pin.point?_of_place place⟩
    · obtain ⟨q, place⟩ := built.exists_ofValue w listed v member
      exact ⟨q, Value.point?_of_ofValue place⟩
    · exact (built.of_reopened reopened).exists_reopens
    · exact (built.nodeKeys_iff found).trans Point.isStable_iff

namespace Drawing

theorem rerounding_keeps_iff_tintedNode :
    (Binary64.lit 5 (-1)).roundCoord = .ok (.lit 5 (-1)) ∧ (Binary64.lit 5 (-1)).IsCalm ∧
      (∃ p, Point.ofValue (.list [.int 0, .text "0.5"]) = .ok (some p) ∧
        Point.ofValue p.toValue = .ok (some p)) ∧
      tintedNode.Built ∧ ∀ d', Relation.ReflTransGen Reopens tintedNode d' →
        ∀ (i : Nat) (p : Point), tintedNode.nodeKeys[i]? = some p → d'.nodeKeys[i]? = some p := by
  have rounded : (Binary64.lit 5 (-1)).roundCoord = .ok (.lit 5 (-1)) := by decide +kernel
  have calm : (Binary64.lit 5 (-1)).IsCalm := .inl (by decide +kernel)
  obtain ⟨p, normalized, steadyX, y⟩ : ∃ p : Point,
      Point.ofValue (.list [.int 0, .text "0.5"]) = .ok (some p) ∧
        p.x.roundCoord = .ok p.x ∧ p.y = .lit 5 (-1) :=
    ⟨⟨.zero, .lit 5 (-1)⟩, by decide +kernel, by decide +kernel, by decide +kernel⟩
  have built : tintedNode.Built := isKept_tintedNode.built
  have stable : ∀ q ∈ tintedNode.nodeKeys, q.IsStable := by decide +kernel
  obtain ⟨numbers, points, drawings⟩ :=
    rerounding_keeps_iff (.lit 5 (-1)) (.list [.int 0, .text "0.5"]) tintedNode
  have steadyY : p.y.IsSteady := by
    rw [y]
    exact (numbers _ rounded).2.1 calm
  obtain ⟨_, _, _, nodes⟩ := drawings built
  refine ⟨rounded, calm, ⟨p, normalized, (points p normalized).2.2 ⟨steadyX, steadyY⟩⟩, built,
    fun d' reopened i q found => ?_⟩
  have steady := Point.isStable_iff.1 (stable q (List.mem_of_getElem? found))
  exact (nodes i q found).2 steady d' reopened

def groundAt (x : Binary64) : Drawing :=
  ⟨[⟨.text "G1", .text "GND", .text "", [.at "0" ⟨x, .zero⟩], .null, .null⟩], []⟩

theorem retidied_groundAt {x y : Binary64} (rounded : x.roundCoord = .ok y) :
    (groundAt x).retidied = .ok (groundAt y) := by
  have origin : Binary64.zero.roundCoord = .ok .zero := by decide +kernel
  have place : (Pin.at "0" ⟨x, .zero⟩).place = .ok (some ⟨y, .zero⟩) := by
    change Point.ofCoordinates (.float x) (.float .zero) = _
    rw [Point.ofCoordinates_float (Binary64.isFinite_of_roundCoord_eq_ok rounded) rfl,
      (Point.rounded_eq_ok (p := ⟨y, .zero⟩)).2 ⟨rounded, origin⟩]
    rfl
  have pin : (Pin.at "0" ⟨x, .zero⟩).tidy = .ok (.at "0" ⟨y, .zero⟩) := by
    rw [Pin.tidy, place]
    rfl
  simp only [retidied, groundAt, List.mapM_cons, List.mapM_nil, Component.tidy, pin]
  rfl

/-- Far from the origin, a ground that is saved and loaded goes on to the next step. -/
theorem groundAt_moves :
    (Binary64.lit 42949672960000105 (-7)).roundCoord = .ok (.lit 4294967296000011 (-6)) ∧
      (Binary64.lit 4294967296000011 (-6)).roundCoord = .ok (.lit 4294967296000012 (-6)) ∧
      Binary64.lit 4294967296000011 (-6) ≠ .lit 4294967296000012 (-6) ∧
      (groundAt (.lit 4294967296000011 (-6))).Built ∧
      (groundAt (.lit 4294967296000011 (-6))).Reopens (groundAt (.lit 4294967296000012 (-6))) ∧
      (groundAt (.lit 4294967296000011 (-6))).nodeKeys = [⟨.lit 4294967296000012 (-6), .zero⟩] ∧
      (groundAt (.lit 4294967296000012 (-6))).nodeKeys = [⟨.lit 4294967296000013 (-6), .zero⟩] := by
  have once : (Binary64.lit 42949672960000105 (-7)).roundCoord = .ok (.lit 4294967296000011 (-6)) :=
    by decide +kernel
  have twice : (Binary64.lit 4294967296000011 (-6)).roundCoord = .ok (.lit 4294967296000012 (-6)) :=
    by decide +kernel
  have built : (groundAt (.lit 4294967296000011 (-6))).Built :=
    built_of_retidied (retidied_groundAt once)
  obtain ⟨v, made, _, again⟩ := built.isStored.exists_toValue
  exact ⟨once, twice, by decide +kernel, built,
    .document made (again.trans (retidied_groundAt twice)), by decide +kernel, by decide +kernel⟩

end Drawing

end Schematic
