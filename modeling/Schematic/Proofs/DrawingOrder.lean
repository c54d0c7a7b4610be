import Schematic.Proofs.Connectivity
import Mathlib.Data.Prod.Lex
/-!
Drawing order: nets by the place of their first node, `y` before `x`, and nets of one place in the
order that they had.
-/

namespace Schematic

namespace Binary64

theorem place?_eq_some {x : Binary64} (number : x.isNaN = false) :
    x.place? = some (x.place?.getD 0) := by
  cases x with
  | nan => cases number
  | infinite s => rfl
  | finite s n fits => rfl

end Binary64

namespace Point

def rank (p : Point) : Int ×ₗ Int :=
  toLex (p.y.place?.getD 0, p.x.place?.getD 0)

theorem le_iff {p q : Point} (numericP : p.IsNumeric) (numericQ : q.IsNumeric) :
    p.le q = true ↔ p.rank ≤ q.rank := by
  rw [le, Binary64.equal, Binary64.le, Binary64.le, Binary64.place?_eq_some numericP.x,
    Binary64.place?_eq_some numericP.y, Binary64.place?_eq_some numericQ.x,
    Binary64.place?_eq_some numericQ.y, rank, rank, Prod.Lex.toLex_le_toLex]
  dsimp only [Option.getD_some]
  split
  next same =>
    have same := of_decide_eq_true same
    rw [decide_eq_true_eq, same, and_iff_right rfl]
    exact (or_iff_right (Int.lt_irrefl _)).symm
  next other =>
    have other : ¬ p.y.place?.getD 0 = q.y.place?.getD 0 := by simpa using other
    rw [decide_eq_true_eq, Int.le_iff_lt_or_eq]
    simp only [other, or_false, false_and]

end Point

namespace Net

/-- Whether a list has the nets of another in drawing order. The order is stable: nets stay in place
unless one has to come before the other. -/
structure InDrawingOrder (nets ordered : List (Net Point)) : Prop where
  perm : ordered.Perm nets
  ascending : ordered.Pairwise fun m n => (m.anchor .origin).le (n.anchor .origin) = true
  stable : ∀ m n, [m, n].Sublist nets → (m.anchor .origin).le (n.anchor .origin) = true →
    [m, n].Sublist ordered

def rankLe (m n : Net Point) : Bool :=
  (m.anchor .origin).rank ≤ (n.anchor .origin).rank

theorem rankLe_trans (l m n : Net Point) (first : rankLe l m = true) (second : rankLe m n = true) :
    rankLe l n = true :=
  decide_eq_true ((of_decide_eq_true first).trans (of_decide_eq_true second))

theorem rankLe_total (m n : Net Point) : (rankLe m n || rankLe n m) = true := by
  rw [rankLe, rankLe, Bool.or_eq_true, decide_eq_true_eq, decide_eq_true_eq]
  exact le_total _ _

variable {nets : List (Net Point)}

theorem le_iff_rankLe (numeric : ∀ n ∈ nets, (n.anchor .origin).IsNumeric) {m n : Net Point}
    (netM : m ∈ nets) (netN : n ∈ nets) :
    (m.anchor .origin).le (n.anchor .origin) = true ↔ rankLe m n = true := by
  rw [Point.le_iff (numeric m netM) (numeric n netN), rankLe, decide_eq_true_eq]

theorem sorted_eq (numeric : ∀ n ∈ nets, (n.anchor .origin).IsNumeric) :
    sorted nets = nets.mergeSort rankLe := by
  have mapped := List.map_mergeSort (f := fun n : Net Point => n) (s := rankLe)
    fun m netM n netN => Bool.eq_iff_iff.2 (le_iff_rankLe numeric netM netN)
  rwa [List.map_id', List.map_id'] at mapped

theorem inDrawingOrder_sorted (numeric : ∀ n ∈ nets, (n.anchor .origin).IsNumeric) :
    InDrawingOrder nets (sorted nets) := by
  have perm : (sorted nets).Perm nets := List.mergeSort_perm nets _
  refine ⟨perm, ?_, fun m n pair le => ?_⟩
  · have ranked := List.pairwise_mergeSort rankLe_trans rankLe_total nets
    rw [← sorted_eq numeric] at ranked
    refine ranked.imp_of_mem fun memberM memberN le => ?_
    exact (le_iff_rankLe numeric (perm.mem_iff.1 memberM) (perm.mem_iff.1 memberN)).2 le
  · have netM : m ∈ nets := pair.subset List.mem_cons_self
    have netN : n ∈ nets := pair.subset (List.mem_cons_of_mem m List.mem_cons_self)
    rw [sorted_eq numeric]
    exact List.pair_sublist_mergeSort rankLe_trans rankLe_total
      ((le_iff_rankLe numeric netM netN).1 le) pair

end Net

namespace Drawing

variable {d : Drawing} {nets : List (Net Point)}

theorem isNumeric_anchor (built : d.nets = .ok nets) {n : Net Point} (listed : n ∈ nets) :
    (n.anchor .origin).IsNumeric := by
  have hasNets := hasNets_of_nets built
  obtain ⟨a, head, _⟩ := hasNets.first n listed
  have member := List.mem_of_head? head
  obtain ⟨q, placed, rfl⟩ := mem_keysOf.1 ((hasNets.mem_nodes_iff n listed a member a).1 member).1
  rw [Net.anchor, List.headD_eq_head?_getD, head, Option.getD_some]
  exact (isRounded_of_mem_places placed).isNumeric.key

theorem inDrawingOrder_of_nets (built : d.nets = .ok nets) :
    Net.InDrawingOrder nets (Net.sorted nets) :=
  Net.inDrawingOrder_sorted fun _ listed => isNumeric_anchor built listed

end Drawing

end Schematic
