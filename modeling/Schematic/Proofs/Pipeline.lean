import Schematic.Colouring
import Schematic.Proofs.Compile
import Schematic.Request
import Schematic.RuleCheck
/-!
Nothing that is done with an edited drawing meets a fault.
-/

namespace Schematic

theorem Point.IsRounded.exists_rounded_key {q : Point} (isRounded : q.IsRounded) :
    ∃ r, Point.rounded q.key.x q.key.y = .ok r := by
  obtain ⟨x, y, made⟩ := isRounded
  obtain ⟨roundX, roundY⟩ := rounded_eq_ok.1 made
  obtain ⟨u, againX, _⟩ := (Binary64.inReach_of_roundCoord roundX).add_zero.roundCoord
  obtain ⟨v, againY, _⟩ := (Binary64.inReach_of_roundCoord roundY).add_zero.roundCoord
  exact ⟨⟨u, v⟩, rounded_eq_ok.2 ⟨againX, againY⟩⟩

theorem Drawing.exists_rounded_node {d : Drawing} {nets : List (Net Point)}
    (hasNets : d.layout.HasNets nets) {n : Net Point} (listed : n ∈ nets) {p : Point}
    (member : p ∈ n.nodes) : ∃ q, Point.rounded p.x p.y = .ok q := by
  obtain ⟨isKey, _⟩ := (hasNets.mem_nodes_iff n listed p member p).1 member
  obtain ⟨q, placed, rfl⟩ := mem_keysOf.1 isKey
  exact (isRounded_of_mem_places placed).exists_rounded_key

namespace Colouring

variable {ν : Type}

theorem exists_wireColor? (color? : Point → Option String) {points : List Value}
    (placed : ∀ v ∈ points, ∃ place, Point.ofValue v = .ok place) :
    ∃ color, wireColor? color? points = .ok color := by
  induction points with
  | nil => exact ⟨none, rfl⟩
  | cons v points ih =>
      obtain ⟨here, later⟩ := List.forall_mem_cons.1 placed
      refine Fault.exists_bind here fun place => ?_
      split
      · exact ⟨_, rfl⟩
      · exact ih later

theorem exists_given? (index : List (Point × Nat)) {c : Component}
    (placed : ∀ p ∈ c.pins, ∃ place, p.place = .ok place) :
    ∃ colour, given? index c = .ok colour := by
  unfold given?
  split
  · exact ⟨_, rfl⟩
  · split
    next color p rest _ pins =>
      refine Fault.exists_bind (placed p (by simp [pins])) fun place => ?_
      split <;> exact ⟨_, rfl⟩
    next => exact ⟨_, rfl⟩

theorem exists_ofNets {d : Drawing} (built : d.Built) (nets : List (Net ν))
    (places : List (List (Option Point))) : ∃ colouring, ofNets d nets places = .ok colouring := by
  unfold ofNets
  refine Fault.exists_bind (Fault.exists_mapM fun c listed => exists_given? _ fun p member => ?_)
    fun given => Fault.exists_bind (Fault.exists_foldlM (fun es w listed => ?_) _) fun _ => ⟨_, rfl⟩
  · obtain ⟨q, placed⟩ := built.exists_place c listed p member
    exact ⟨some q, placed⟩
  · have placed : ∀ v ∈ w.points, ∃ place, Point.ofValue v = .ok place := by
      intro v member
      obtain ⟨q, found⟩ := built.exists_ofValue w listed v member
      exact ⟨some q, found⟩
    obtain ⟨id, isText⟩ := built.exists_wire_id w listed
    refine Fault.exists_bind (exists_wireColor? _ placed) fun color => ?_
    cases color with
    | none => exact ⟨_, rfl⟩
    | some color =>
        rw [isText]
        exact ⟨_, rfl⟩

end Colouring

namespace Drawing

variable {d : Drawing}

theorem Built.exists_colouring (built : d.Built) {nets : List (Net Point)}
    (hasNets : d.layout.HasNets nets) : ∃ colouring, d.colouring nets = .ok colouring := by
  unfold Drawing.colouring
  split
  · exact ⟨_, rfl⟩
  · refine Fault.exists_bind ⟨(), built.checkIds⟩ fun _ => ?_
    refine Fault.exists_bind (Fault.exists_mapM fun n listed => ?_) fun places =>
      Colouring.exists_ofNets built nets places
    refine Fault.exists_mapM fun p member => ?_
    exact Fault.exists_bind (exists_rounded_node hasNets listed member) fun q => ⟨_, rfl⟩

/-- Whether all that is done with a drawing succeeds: its nets are found, coloured and checked, it
is compiled, and requests are prepared from it. -/
structure IsProcessed (d : Drawing) : Prop where
  nets : ∃ nets, d.nets = .ok nets ∧ (∃ colouring, d.colouring nets = .ok colouring) ∧
    ∃ check, d.check nets = .ok check
  compile : ∀ title, ∃ c, d.compile title = .ok c
  prepare : ∀ kind config title, ∃ r, d.prepare kind config title = .ok r

theorem Built.isProcessed (built : d.Built) : d.IsProcessed where
  nets := by
    have hasNets := d.hasNets_layout
    refine ⟨_, nets_of_placed built.isPlaced, built.exists_colouring hasNets, ?_⟩
    exact Fault.exists_bind ⟨(), built.checkIds⟩ fun _ => ⟨_, rfl⟩
  compile := built.exists_compile built.isPlaced
  prepare kind config title :=
    Fault.exists_bind (built.exists_compile built.isPlaced title) fun _ => ⟨_, rfl⟩

end Drawing

end Schematic
