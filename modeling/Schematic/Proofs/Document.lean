import Schematic.Document
import Schematic.Proofs.Pipeline
/-!
Documents that are accepted become drawings just when their coordinates are in range.
-/

namespace Schematic

open Fault (SucceedsIff)

/-! Coordinates. -/

/-- Only an integer can be too large to be read as a coordinate. -/
def Value.InRange (v : Value) : Prop :=
  ∀ n, v = .int n → (Binary64.ofInt? n).isSome = true

theorem Value.coordinate_int (n : Int) :
    (Value.int n).coordinate =
      (Binary64.ofInt? n).elim (.error .overflow) fun x => .ok (some x) :=
  rfl

theorem Value.coordinate_bool (b : Bool) :
    (Value.bool b).coordinate = .ok (some (if b then .lit 1 0 else .zero)) :=
  rfl

theorem Value.isFinite_ofBool (b : Bool) :
    (if b then Binary64.lit 1 0 else .zero).isFinite = true := by
  revert b
  decide +kernel

theorem Value.exists_coordinate {v : Value} (other : ∀ n, v ≠ .int n) :
    ∃ place, v.coordinate = .ok place ∧ ∀ x, place = some x → x.isFinite = true := by
  have absent : ∀ x : Binary64, none = some x → x.isFinite = true := fun x same =>
    absurd same (Option.some_ne_none x).symm
  have kept : ∀ y x : Binary64, (if y.isFinite then some y else none) = some x →
      x.isFinite = true := by
    intro y x same
    split at same
    next finite => exact Option.some.inj same ▸ finite
    next => exact absent x same
  cases v with
  | int n => exact absurd rfl (other n)
  | float y => exact ⟨_, rfl, kept y⟩
  | bool b =>
      refine ⟨_, coordinate_bool b, fun x same => ?_⟩
      rw [← Option.some.inj same]
      exact isFinite_ofBool b
  | text s =>
      cases read : Text.number? s with
      | none => exact ⟨none, by simp only [coordinate, read], absent⟩
      | some y => exact ⟨_, by simp only [coordinate, read], kept y⟩
  | null | list | record => exact ⟨none, rfl, absent⟩

theorem Value.coordinate_succeedsIff (v : Value) : SucceedsIff v.coordinate .overflow v.InRange := by
  by_cases isInt : ∃ n, v = .int n
  · obtain ⟨n, rfl⟩ := isInt
    have inside : (Value.int n).InRange ↔ (Binary64.ofInt? n).isSome = true :=
      ⟨fun range => range n rfl, fun found _ same => int.inj same ▸ found⟩
    rw [coordinate_int]
    refine SucceedsIff.congr ?_ inside.symm
    cases Binary64.ofInt? n with
    | some x => exact ⟨fun _ => ⟨_, rfl⟩, fun beyond => absurd rfl beyond⟩
    | none => exact ⟨nofun, fun _ => rfl⟩
  · obtain ⟨place, found, _⟩ := exists_coordinate fun n same => isInt ⟨n, same⟩
    exact (SucceedsIff.of_ok found).congr
      (iff_of_true trivial fun n same => absurd ⟨n, same⟩ isInt)

theorem Value.isFinite_of_coordinate {v : Value} {x : Binary64}
    (found : v.coordinate = .ok (some x)) : x.isFinite = true := by
  by_cases isInt : ∃ n, v = .int n
  · obtain ⟨n, rfl⟩ := isInt
    rw [coordinate_int] at found
    cases whole : Binary64.ofInt? n with
    | some y =>
        rw [whole] at found
        obtain rfl := Option.some.inj (Except.ok.inj found)
        exact Binary64.isFinite_of_finite? whole
    | none =>
        rw [whole] at found
        cases found
  · obtain ⟨place, same, finite⟩ := exists_coordinate fun n same => isInt ⟨n, same⟩
    exact finite x (Except.ok.inj (same.symm.trans found))

theorem Binary64.roundCoord_succeedsIff {x : Binary64} (finite : x.isFinite = true) :
    SucceedsIff x.roundCoord .overflow x.InReach := by
  refine ⟨fun reach => reach.roundCoord.imp fun _ => And.left, fun beyond => ?_⟩
  -- The other fault is met by NaN alone, which is not finite.
  have outside : ∀ y, x.roundCoord ≠ .ok y := fun y rounded =>
    beyond (inReach_of_roundCoord_eq_ok rounded)
  unfold roundCoord at outside ⊢
  cases floored : (x * gridSteps + half).floor? with
  | none => rw [isNaN_of_isFinite finite]; rfl
  | some steps =>
      rw [floored] at outside
      cases whole : ofInt? steps with
      | none => rw [Option.elim_some, whole]; rfl
      | some n => exact absurd (by rw [Option.elim_some, whole]; rfl) (outside (n / gridSteps))

/-- Whether two coordinates can be read, and rounded if both are there. -/
structure Value.PairInRange (x y : Value) : Prop where
  first : x.InRange
  second : y.InRange
  reach : ∀ a b, x.coordinate = .ok (some a) → y.coordinate = .ok (some b) →
    a.InReach ∧ b.InReach

namespace Point

theorem rounded_succeedsIff {x y : Binary64} (finiteX : x.isFinite = true)
    (finiteY : y.isFinite = true) :
    SucceedsIff (rounded x y) .overflow (x.InReach ∧ y.InReach) :=
  (Binary64.roundCoord_succeedsIff finiteX).bind fun u _ =>
    (Binary64.roundCoord_succeedsIff finiteY).map fun v => (⟨u, v⟩ : Point)

theorem ofCoordinates_succeedsIff (x y : Value) :
    SucceedsIff (ofCoordinates x y) .overflow (x.PairInRange y) := by
  have pair : SucceedsIff (ofCoordinates x y) .overflow (x.InRange ∧ y.InRange ∧ ∀ a b,
      x.coordinate = .ok (some a) → y.coordinate = .ok (some b) → a.InReach ∧ b.InReach) := by
    refine (Value.coordinate_succeedsIff x).bind fun a foundX =>
      (Value.coordinate_succeedsIff y).bind fun b foundY => ?_
    rw [foundX, foundY]
    split
    next a b =>
      refine ((rounded_succeedsIff (Value.isFinite_of_coordinate foundX)
        (Value.isFinite_of_coordinate foundY)).map some).congr ⟨fun reach => ?_, fun reach => ?_⟩
      · rintro _ _ ⟨⟩ ⟨⟩
        exact reach
      · exact reach a b rfl rfl
    next other =>
      -- Nothing is rounded when one of the two is missing.
      refine (SucceedsIff.of_ok rfl).congr (iff_of_true trivial ?_)
      rintro a b ⟨⟩ ⟨⟩
      exact absurd rfl (other a b rfl)
  exact pair.congr ⟨fun ⟨x, y, reach⟩ => ⟨x, y, reach⟩, fun ⟨x, y, reach⟩ => ⟨x, y, reach⟩⟩

end Point

/-! Lists of a document. -/

namespace Document

def listed (v : Value) (name : String) : List Value :=
  match v with
  | .record fields =>
    match fields.lookup name with
    | some (.list vs) => vs
    | _ => []
  | _ => []

def PlaceInRange (p : Value) : Prop :=
  ∀ x y, Wire.pointOfValue? p = some (.list [x, y]) → x.PairInRange y

/-- Whether the coordinates of all pins and of all points of wires are in range. -/
structure InRange (v : Value) : Prop where
  pins : ∀ c ∈ listed v "components", ∀ p ∈ listed c "pins", PlaceInRange p
  points : ∀ w ∈ listed v "wires", ∀ p ∈ listed w "points", PlaceInRange p

variable {fields : List (String × Value)} {name : String}

theorem listed_of_lookup {vs : List Value} (found : fields.lookup name = some (.list vs)) :
    listed (.record fields) name = vs := by
  rw [listed, found]

theorem listed_of_absent (absent : fields.lookup name = none) :
    listed (.record fields) name = [] := by
  rw [listed, absent]

def HoldsList (fields : List (String × Value)) (name : String) : Prop :=
  ∀ w, fields.lookup name = some w → ∃ vs, w = .list vs

theorem holdsList_of_absent (absent : fields.lookup name = none) : HoldsList fields name :=
  fun w same => absurd (same.symm.trans absent) (Option.some_ne_none w)

theorem holdsList_of_lookup {vs : List Value} (found : fields.lookup name = some (.list vs)) :
    HoldsList fields name :=
  fun _ same => ⟨vs, Option.some.inj (same.symm.trans found)⟩

theorem HoldsList.items (holds : HoldsList fields name) :
    (((fields.lookup name).getD .null).orElse (.list [])).items =
      .ok (listed (.record fields) name) := by
  rw [listed]
  cases found : fields.lookup name with
  | none => rfl
  | some w =>
      obtain ⟨vs, rfl⟩ := holds w found
      cases vs <;> rfl

theorem placeInRange_record {x y : Value} (foundX : fields.lookup "x" = some x)
    (foundY : fields.lookup "y" = some y) : PlaceInRange (.record fields) ↔ x.PairInRange y := by
  rw [PlaceInRange, Wire.pointOfValue?, foundX, foundY]
  constructor
  · exact fun range => range x y rfl
  · rintro range _ _ ⟨⟩
    exact range

/-! What is accepted. -/

theorem exists_of_checkEach {check : Nat → Value → Except Error Unit} {start : Nat} {vs : List Value}
    (passed : checkEach check start vs = .ok ()) : ∀ v ∈ vs, ∃ i, check i v = .ok () := by
  induction vs generalizing start with
  | nil => exact fun v member => absurd member List.not_mem_nil
  | cons v vs ih =>
      rw [checkEach] at passed
      cases here : check start v with
      | error e =>
          rw [here] at passed
          cases passed
      | ok _ =>
          rw [here] at passed
          exact List.forall_mem_cons.2 ⟨⟨start, here⟩, ih passed⟩

theorem exists_of_checkPin {component : Value} {j : Nat} {p : Value}
    (passed : checkPin component j p = .ok ()) :
    ∃ fields x y, p = .record fields ∧ fields.lookup "x" = some x ∧ fields.lookup "y" = some y := by
  have exists_number : ∀ {v : Option Value}, isNumber v = true → ∃ w, v = some w := by
    intro v number
    cases v with
    | none => cases number
    | some w => exact ⟨w, rfl⟩
  unfold checkPin at passed
  split at passed
  next fields =>
    split at passed
    next => cases passed
    next =>
      split at passed
      next numbers =>
        obtain ⟨numberX, numberY⟩ := (Bool.and_eq_true _ _).mp numbers
        obtain ⟨x, foundX⟩ := exists_number numberX
        obtain ⟨y, foundY⟩ := exists_number numberY
        exact ⟨fields, x, y, rfl, foundX, foundY⟩
      next => cases passed
  next => cases passed

theorem exists_of_checkComponent {i : Nat} {c : Value} (passed : checkComponent i c = .ok ()) :
    ∃ fields, c = .record fields ∧ HoldsList fields "pins" ∧
      ∀ p ∈ listed c "pins", ∃ id j, checkPin id j p = .ok () := by
  unfold checkComponent at passed
  split at passed
  next fields =>
    refine ⟨fields, rfl, ?_⟩
    split at passed
    next => cases passed
    next => cases passed
    next id _ _ _ =>
      split at passed
      next absent =>
        refine ⟨holdsList_of_absent absent, fun p member => ?_⟩
        rw [listed_of_absent absent] at member
        exact absurd member List.not_mem_nil
      next pins found =>
        refine ⟨holdsList_of_lookup found, fun p member => ?_⟩
        rw [listed_of_lookup found] at member
        obtain ⟨j, here⟩ := exists_of_checkEach passed p member
        exact ⟨id, j, here⟩
      next => cases passed
  next => cases passed

theorem exists_of_checkWire {i : Nat} {w : Value} (passed : checkWire i w = .ok ()) :
    ∃ fields, w = .record fields ∧ HoldsList fields "points" := by
  unfold checkWire at passed
  split at passed
  next fields =>
    refine ⟨fields, rfl, ?_⟩
    split at passed
    next absent => exact holdsList_of_absent absent
    next points found => exact holdsList_of_lookup found
    next => cases passed
  next => cases passed

structure Lists (v : Value) (components wires : List Value) : Prop where
  fields : ∃ fields, v = .record fields ∧ fields.lookup "components" = some (.list components) ∧
    fields.lookup "wires" = some (.list wires)
  components : ∀ c ∈ components, ∃ i, checkComponent i c = .ok ()
  wires : ∀ w ∈ wires, ∃ i, checkWire i w = .ok ()

theorem exists_lists {v : Value} (accepted : check v = .ok ()) :
    Lists v (listed v "components") (listed v "wires") := by
  unfold check at accepted
  split at accepted
  next fields =>
    split at accepted
    next components wires foundComponents foundWires =>
      rw [listed_of_lookup foundComponents, listed_of_lookup foundWires]
      cases each : checkEach checkComponent 1 components with
      | error e =>
          rw [each] at accepted
          cases accepted
      | ok _ =>
          rw [each] at accepted
          exact ⟨⟨fields, rfl, foundComponents, foundWires⟩, exists_of_checkEach each,
            exists_of_checkEach accepted⟩
    next => cases accepted
    next => cases accepted
  next => cases accepted

end Document

/-! Making the parts of a drawing. -/

open Document

namespace Pin

theorem tidy_succeedsIff (p : Pin) : SucceedsIff p.tidy .overflow (p.x.PairInRange p.y) :=
  (Point.ofCoordinates_succeedsIff p.x p.y).map fun place =>
    named (.text p.id.content) (.text p.title) (.float (place.getD .origin).x)
      (.float (place.getD .origin).y)

theorem exists_ofValue {fields : List (String × Value)} {x y : Value}
    (foundX : fields.lookup "x" = some x) (foundY : fields.lookup "y" = some y) :
    ∃ p, ofValue (.record fields) = .ok p ∧ p.x = x ∧ p.y = y := by
  refine ⟨_, rfl, ?_, ?_⟩
  · change (fields.lookup "x").getD _ = x
    rw [foundX, Option.getD_some]
  · change (fields.lookup "y").getD _ = y
    rw [foundY, Option.getD_some]

end Pin

namespace Component

theorem tidy_succeedsIff (c : Component) :
    SucceedsIff c.tidy .overflow (∀ p ∈ c.pins, p.x.PairInRange p.y) :=
  (SucceedsIff.mapM fun p _ => Pin.tidy_succeedsIff p).map _

theorem exists_ofValue {fields : List (String × Value)} (holds : HoldsList fields "pins")
    {pins : List Pin} (made : (listed (.record fields) "pins").mapM Pin.ofValue = .ok pins) :
    ∃ c, ofValue (.record fields) = .ok c ∧ c.pins = pins := by
  have read : ∀ {next : List Pin → Except Fault Component} {c : Component}, next pins = .ok c →
      ((((fields.lookup "pins").getD .null).orElse (.list [])).items >>= fun vs =>
        vs.mapM Pin.ofValue >>= next) = .ok c := fun rest =>
    Fault.bind_eq_ok.2 ⟨_, holds.items, Fault.bind_eq_ok.2 ⟨_, made, rest⟩⟩
  exact ⟨_, read rfl, rfl⟩

end Component

namespace Wire

theorem tidy_succeedsIff {w : Wire} (pairs : ∀ v ∈ w.points, ∃ x y, v = .list [x, y]) :
    SucceedsIff w.tidy .overflow (∀ v ∈ w.points, ∀ x y, v = .list [x, y] → x.PairInRange y) := by
  refine (SucceedsIff.mapM fun v member => ?_).map _
  obtain ⟨x, y, rfl⟩ := pairs v member
  refine (Point.ofCoordinates_succeedsIff x y).congr ⟨?_, fun range => range x y rfl⟩
  rintro range _ _ ⟨⟩
  exact range

theorem exists_ofValue {fields : List (String × Value)} (holds : HoldsList fields "points") :
    ∃ w, ofValue (.record fields) = .ok w ∧
      w.points = (listed (.record fields) "points").filterMap pointOfValue? :=
  ⟨_, Fault.bind_eq_ok.2 ⟨_, rfl, Fault.bind_eq_ok.2 ⟨_, holds.items, rfl⟩⟩, rfl⟩

end Wire

/-! Loading. -/

namespace Document

def component (c : Value) : Except Fault Component := do
  (← Component.ofValue c).tidy

def wire (w : Value) : Except Fault Wire := do
  (← Wire.ofValue w).tidy

/-- Whether a drawing holds what a document lists, one by one. -/
structure IsLoaded (v : Value) (d : Drawing) : Prop where
  built : d.Built
  components : List.Forall₂ (fun c made => component c = .ok made) (listed v "components") d.components
  wires : List.Forall₂ (fun w made => wire w = .ok made) (listed v "wires") d.wires

theorem component_succeedsIff {i : Nat} {c : Value} (passed : checkComponent i c = .ok ()) :
    SucceedsIff (component c) .overflow (∀ p ∈ listed c "pins", PlaceInRange p) := by
  obtain ⟨fields, rfl, holds, each⟩ := exists_of_checkComponent passed
  -- All pins are read before the first of them is tidied, and reading an accepted one succeeds.
  have found : ∀ p ∈ listed (.record fields) "pins", ∃ q x y, Pin.ofValue p = .ok q ∧
      q.x = x ∧ q.y = y ∧ (PlaceInRange p ↔ x.PairInRange y) := by
    intro p member
    obtain ⟨id, j, here⟩ := each p member
    obtain ⟨fields, x, y, rfl, foundX, foundY⟩ := exists_of_checkPin here
    obtain ⟨q, made, isX, isY⟩ := Pin.exists_ofValue foundX foundY
    exact ⟨q, x, y, made, isX, isY, placeInRange_record foundX foundY⟩
  obtain ⟨pins, made⟩ := Fault.exists_mapM fun p member =>
    (found p member).imp fun q ⟨_, _, made, _⟩ => made
  obtain ⟨c, read, rfl⟩ := Component.exists_ofValue holds made
  rw [component, read]
  refine (Component.tidy_succeedsIff c).congr
    (Fault.forall_of_mapM_iff made fun p member q read => ?_)
  obtain ⟨q', x, y, made, rfl, rfl, same⟩ := found p member
  obtain rfl := Except.ok.inj (made.symm.trans read)
  exact same.symm

theorem wire_succeedsIff {i : Nat} {w : Value} (passed : checkWire i w = .ok ()) :
    SucceedsIff (wire w) .overflow (∀ p ∈ listed w "points", PlaceInRange p) := by
  obtain ⟨fields, rfl, holds⟩ := exists_of_checkWire passed
  obtain ⟨w, read, points⟩ := Wire.exists_ofValue holds
  have pairs : ∀ v ∈ w.points, ∃ x y, v = .list [x, y] := by
    rw [points]
    intro v member
    obtain ⟨p, _, found⟩ := List.mem_filterMap.1 member
    unfold Wire.pointOfValue? at found
    split at found
    next => exact ⟨_, _, (Option.some.inj found).symm⟩
    next => exact ⟨_, _, (Option.some.inj found).symm⟩
    next => cases found
  rw [wire, read]
  refine (Wire.tidy_succeedsIff pairs).congr ?_
  rw [points]
  constructor
  · intro range p member x y found
    exact range _ (List.mem_filterMap.2 ⟨p, member, found⟩) x y rfl
  · rintro range v member x y rfl
    obtain ⟨p, member, found⟩ := List.mem_filterMap.1 member
    exact range p member x y found

end Document

namespace Drawing

def addComponentOf (d : Drawing) (c : Value) : Except Fault Drawing := do
  d.addComponent (← Component.ofValue c)

def addWireOf (d : Drawing) (w : Value) : Except Fault Drawing := do
  d.addWire (← Wire.ofValue w)

variable {v : Value} {components wires : List Value} {d : Drawing}

theorem ofValue_eq_foldlM (lists : Lists v components wires) :
    ofValue v = components.foldlM addComponentOf empty >>= wires.foldlM addWireOf := by
  obtain ⟨fields, rfl, foundComponents, foundWires⟩ := lists.fields
  change (do
    let components ← ((fields.lookup "components").getD (.list [])).items
    let d ← components.foldlM addComponentOf empty
    let wires ← ((fields.lookup "wires").getD (.list [])).items
    wires.foldlM addWireOf d) = _
  rw [foundComponents, foundWires]
  rfl

theorem ofValue_eq_mapM (lists : Lists v components wires) :
    ofValue v = do return ⟨← components.mapM component, ← wires.mapM wire⟩ := by
  have first : components.foldlM addComponentOf empty =
      do return ⟨← components.mapM component, []⟩ :=
    foldlM_addComponentFrom Component.ofValue empty components
  rw [ofValue_eq_foldlM lists, first]
  cases components.mapM component with
  | error fault => rfl
  | ok cs => exact foldlM_addWireFrom Wire.ofValue ⟨cs, []⟩ wires

theorem built_of_ofValue (lists : Lists v components wires) (made : ofValue v = .ok d) :
    d.Built := by
  rw [ofValue_eq_foldlM lists] at made
  obtain ⟨d', first, rest⟩ := Fault.bind_eq_ok.1 made
  have built : d'.Built := by
    refine Fault.of_foldlM (fun d c d' built added => ?_) .empty first
    obtain ⟨c, _, added⟩ := Fault.bind_eq_ok.1 added
    exact built.addComponent added
  refine Fault.of_foldlM (fun d w d' built added => ?_) built rest
  obtain ⟨w, _, added⟩ := Fault.bind_eq_ok.1 added
  exact built.addWire added

theorem isLoaded_of_ofValue (accepted : Document.check v = .ok ()) (made : ofValue v = .ok d) :
    IsLoaded v d := by
  have lists := exists_lists accepted
  have built := built_of_ofValue lists made
  rw [ofValue_eq_mapM lists] at made
  obtain ⟨cs, madeComponents, rest⟩ := Fault.bind_eq_ok.1 made
  obtain ⟨ws, madeWires, rest⟩ := Fault.bind_eq_ok.1 rest
  obtain rfl := Fault.pure_eq_ok.1 rest
  exact ⟨built, Fault.forall₂_of_mapM madeComponents, Fault.forall₂_of_mapM madeWires⟩

theorem ofValue_succeedsIff (accepted : Document.check v = .ok ()) :
    SucceedsIff (ofValue v) .overflow (InRange v) := by
  have lists := exists_lists accepted
  rw [ofValue_eq_mapM lists]
  have made := (SucceedsIff.mapM fun c member => (lists.components c member).elim fun _ =>
    component_succeedsIff).bind fun cs _ => (SucceedsIff.mapM fun w member =>
      (lists.wires w member).elim fun _ => wire_succeedsIff).map (Drawing.mk cs)
  exact made.congr ⟨fun ⟨pins, points⟩ => ⟨pins, points⟩, fun ⟨pins, points⟩ => ⟨pins, points⟩⟩

end Drawing

end Schematic
