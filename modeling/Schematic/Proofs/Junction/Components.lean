import Schematic.Proofs.Junction.Depiction
import Schematic.Proofs.Junction.Search
import Mathlib.Data.List.Chain
import Mathlib.Data.List.Pairwise
/-!
The nets of a placement are the connected components of its places, as far as they have terminals.
-/

namespace Schematic

namespace Placement

def keys (p : Placement) : List Point :=
  keysOf p.places

/-- Points at one place, or next to each other on a wire. -/
def Linked (p : Placement) (a b : Point) : Prop :=
  a.key = b.key ∨ ∃ trace ∈ p.traces,
    [some a, some b] <:+: trace ∨ [some b, some a] <:+: trace

def Connected (p : Placement) : Point → Point → Prop :=
  Relation.ReflTransGen p.Linked

variable {p : Placement}

theorem Linked.symm {a b : Point} (linked : p.Linked a b) : p.Linked b a := by
  rcases linked with same | ⟨trace, member, joined⟩
  · exact .inl same.symm
  · exact .inr ⟨trace, member, joined.symm⟩

theorem Connected.symm {a b : Point} (connected : p.Connected a b) : p.Connected b a := by
  induction connected with
  | refl => exact .refl
  | tail _ linked ih => exact .head linked.symm ih

theorem connected_of_key_eq {a b : Point} (same : a.key = b.key) : p.Connected a b :=
  Relation.ReflTransGen.single (.inl same)

theorem connected_key (a : Point) : p.Connected a a.key :=
  connected_of_key_eq (Point.key_key a).symm

theorem connected_of_joins {trace : List (Option Point)} (member : trace ∈ p.traces)
    {a b : Point} (joined : Joins trace a b) : p.Connected a b := by
  obtain ⟨q, r, next, ⟨rfl, rfl⟩ | ⟨rfl, rfl⟩⟩ := joined
  · have step : p.Linked q r := .inr ⟨trace, member, .inl next⟩
    exact (connected_key q).symm.trans (.head step (connected_key r))
  · have step : p.Linked r q := .inr ⟨trace, member, .inr next⟩
    exact (connected_key r).symm.trans (.head step (connected_key q))

theorem connected_of_mem_trace {qs : List Point} (member : qs.map some ∈ p.traces) {a b : Point}
    (inA : a ∈ qs) (inB : b ∈ qs) : p.Connected a b := by
  have trans : Trans p.Connected p.Connected p.Connected := ⟨Relation.ReflTransGen.trans⟩
  have symm : Std.Symm p.Connected := ⟨fun _ _ => Connected.symm⟩
  have chain : qs.IsChain p.Connected := by
    refine List.isChain_iff_forall_rel_of_append_cons_cons.2 fun a b front back same => ?_
    refine .single (.inr ⟨_, member, .inl ⟨front.map some, back.map some, ?_⟩⟩)
    rw [same]
    simp
  exact List.Pairwise.forall_of_forall (fun _ _ => .refl) (List.isChain_iff_pairwise.1 chain)
    inA inB

theorem joins_of_linked {a b : Point} (linked : p.Linked a b) :
    a.key = b.key ∨ ∃ trace ∈ p.traces, Joins trace a.key b.key := by
  rcases linked with same | ⟨trace, member, next | next⟩
  · exact .inl same
  · exact .inr ⟨trace, member, a, b, next, .inl ⟨rfl, rfl⟩⟩
  · exact .inr ⟨trace, member, b, a, next, .inr ⟨rfl, rfl⟩⟩

end Placement

namespace Graph

variable {g : Graph}

/-! Neighbours and reachability. -/

theorem Consistent.mem_neighbours_iff (consistent : g.Consistent) {i j : Nat} :
    j ∈ g.neighbours i ↔ (j : Int) ∈ g.row i := by
  unfold neighbours
  rw [List.mem_filterMap]
  constructor
  · rintro ⟨k, member, found⟩
    obtain ⟨j', inRange, rfl⟩ := consistent.row_bounded i k member
    rw [position?_natCast inRange] at found
    cases found
    exact member
  · intro member
    obtain ⟨j', inRange, same⟩ := consistent.row_bounded i j member
    obtain rfl : j = j' := Int.natCast_inj.1 same
    exact ⟨j, member, position?_natCast inRange⟩

theorem Consistent.isUndirected (consistent : g.Consistent) : g.IsUndirected := by
  intro i j neighbour
  rw [consistent.mem_neighbours_iff] at neighbour ⊢
  exact consistent.linked.mem_row_symm neighbour

theorem exists_point {i : Nat} (inRange : i < g.size) : ∃ a, g.points[i]? = some a :=
  ⟨_, List.getElem?_eq_getElem (by rw [length_points]; exact inRange)⟩

variable {p : Placement}

abbrev DepictsPlacement (g : Graph) (p : Placement) : Prop :=
  g.Depicts p.places (fun a b => ∃ trace ∈ p.traces, Joins trace a b) p.terminals

theorem Depicts.connected_of_reaches (depicts : g.DepictsPlacement p) {i j : Nat}
    {a b : Point} (hi : g.points[i]? = some a) (hj : g.points[j]? = some b)
    (reaches : g.Reaches i j) : p.Connected a b := by
  induction reaches generalizing b with
  | refl =>
      obtain rfl : a = b := Option.some.inj (hi.symm.trans hj)
      exact .refl
  | @tail k j _ neighbour ih =>
      rw [depicts.consistent.mem_neighbours_iff] at neighbour
      obtain ⟨c, hk⟩ := exists_point (depicts.consistent.linked.lt_of_mem_row neighbour)
      obtain ⟨trace, member, joined⟩ :=
        (depicts.adjacent_iff c b).1 ⟨k, j, hk, hj, neighbour⟩
      exact (ih hk).trans (Placement.connected_of_joins member joined)

theorem Depicts.reaches_of_connected (depicts : g.DepictsPlacement p) {i : Nat}
    {a b : Point} (hi : g.points[i]? = some a.key) (connected : p.Connected a b) :
    ∃ j, g.points[j]? = some b.key ∧ g.Reaches i j := by
  induction connected with
  | refl => exact ⟨i, hi, .refl⟩
  | @tail b c _ linked ih =>
      obtain ⟨j, hj, reaches⟩ := ih
      rcases Placement.joins_of_linked linked with same | joined
      · exact ⟨j, same ▸ hj, reaches⟩
      · obtain ⟨j', k, hj', hk, member⟩ := (depicts.adjacent_iff b.key c.key).2 joined
        obtain rfl := depicts.consistent.index_unique hj hj'
        exact ⟨k, hk, reaches.tail (depicts.consistent.mem_neighbours_iff.2 member)⟩

/-! The nets. -/

theorem nodes_netOf (g : Graph) (k : Nat) (order : List Nat) :
    (g.netOf k order).nodes = order.filterMap (g.points[·]?) := by
  simp [netOf, points, List.map_filterMap]

theorem terminals_netOf (g : Graph) (k : Nat) (order : List Nat) :
    (g.netOf k order).terminals = order.flatMap g.terminalsAt := by
  simp only [netOf]
  induction order with
  | nil => rfl
  | cons i order ih =>
      rw [List.flatMap_cons, ← ih, terminalsAt]
      cases found : g.nodes[i]? with
      | none => simp [found]
      | some j => simp [found]

theorem hasTerminal_iff (g : Graph) (order : List Nat) :
    g.hasTerminal order = true ↔ order.flatMap g.terminalsAt ≠ [] := by
  simp only [hasTerminal, List.any_eq_true, ne_eq, List.flatMap_eq_nil_iff, not_forall,
    exists_prop, terminalsAt]
  refine exists_congr fun i => and_congr_right fun _ => ?_
  cases g.nodes[i]? with
  | none => simp
  | some j => simp

def kept (g : Graph) : List (List Nat) :=
  g.classes.filter g.hasTerminal

theorem nets_eq_mapIdx (g : Graph) :
    g.nets = g.kept.mapIdx fun k order => g.netOf (k + 1) order :=
  rfl

theorem map_id_nets (g : Graph) :
    g.nets.map (·.id) =
      (List.range g.nets.length).map fun k => "N" ++ Value.intText ((k + 1 : Nat) : Int) := by
  apply List.ext_getElem
  · simp
  · intro k _ _
    simp [nets_eq_mapIdx, netOf]

theorem mem_nets {n : Net Point} (member : n ∈ g.nets) :
    ∃ order ∈ g.kept, n.nodes = order.filterMap (g.points[·]?) ∧
      n.terminals = order.flatMap g.terminalsAt := by
  rw [nets_eq_mapIdx] at member
  obtain ⟨k, inRange, rfl⟩ := List.mem_mapIdx.1 member
  exact ⟨g.kept[k], List.getElem_mem inRange, g.nodes_netOf _ _, g.terminals_netOf _ _⟩

theorem pairwise_nets (g : Graph) (relation : List Point → List Point → Prop)
    (pairwise : g.kept.Pairwise fun b c =>
      relation (b.filterMap (g.points[·]?)) (c.filterMap (g.points[·]?))) :
    g.nets.Pairwise fun m n => relation m.nodes n.nodes := by
  rw [List.pairwise_iff_getElem] at pairwise ⊢
  intro i j hi hj below
  simp only [nets_eq_mapIdx, List.getElem_mapIdx, nodes_netOf, List.length_mapIdx] at hi hj ⊢
  exact pairwise i j hi hj below

theorem flatMap_terminals_nets (g : Graph) :
    g.nets.flatMap (·.terminals) = g.classes.flatten.flatMap g.terminalsAt := by
  have nets : g.nets.map (·.terminals) = g.kept.map (·.flatMap g.terminalsAt) := by
    apply List.ext_getElem
    · simp [nets_eq_mapIdx]
    · intro k _ _
      simp [nets_eq_mapIdx, terminals_netOf]
  rw [List.flatMap_def, nets, ← List.flatMap_def, kept]
  -- What is left out has no terminals.
  induction g.classes with
  | nil => rfl
  | cons order classes ih =>
      rw [List.flatten_cons, List.flatMap_append, ← ih, List.filter_cons]
      split
      · rw [List.flatMap_cons]
      next dropped =>
        have bare : order.flatMap g.terminalsAt = [] := by
          by_contra present
          exact dropped ((g.hasTerminal_iff order).2 present)
        rw [bare, List.nil_append]

end Graph

theorem flatMap_filter_perm {α β : Type} [BEq β] [LawfulBEq β] (f : α → β) {values : List β}
    (nodup : values.Nodup) {xs : List α} (covered : ∀ x ∈ xs, f x ∈ values) :
    (values.flatMap fun v => xs.filter (f · == v)).Perm xs := by
  induction values generalizing xs with
  | nil =>
      cases xs with
      | nil => exact .nil
      | cons x xs => exact absurd (covered x List.mem_cons_self) (by simp)
  | cons v values ih =>
      obtain ⟨absent, nodup⟩ := List.nodup_cons.1 nodup
      have others : ∀ x ∈ xs.filter (!f · == v), f x ∈ values := by
        intro x member
        obtain ⟨member, other⟩ := List.mem_filter.1 member
        rcases List.mem_cons.1 (covered x member) with same | later
        · simp [same] at other
        · exact later
      have rest : (values.flatMap fun w => xs.filter (f · == w)) =
          values.flatMap fun w => (xs.filter (!f · == v)).filter (f · == w) := by
        refine List.flatMap_congr fun w member => ?_
        rw [List.filter_filter]
        refine List.filter_congr fun x _ => ?_
        by_cases same : f x = w
        · have other : w ≠ v := fun h => absent (h ▸ member)
          simp [same, other]
        · simp [same]
      rw [List.flatMap_cons, rest]
      exact ((ih nodup others).append_left _).trans (List.filter_append_perm _ xs)

namespace Placement

/-- The nets of a placement: its connected components, as far as they have terminals, with every
terminal once, numbered in the order of their first nodes. -/
structure HasNets (p : Placement) (nets : List (Net Point)) : Prop where
  terminals_perm : (nets.flatMap (·.terminals)).Perm p.terminals
  key_mem_nodes : ∀ n ∈ nets, ∀ t ∈ n.terminals, t.place.key ∈ n.nodes
  terminals_ne_nil : ∀ n ∈ nets, n.terminals ≠ []
  nodup_nodes : ∀ n ∈ nets, n.nodes.Nodup
  mem_nodes_iff : ∀ n ∈ nets, ∀ a ∈ n.nodes, ∀ b,
    b ∈ n.nodes ↔ b ∈ p.keys ∧ p.Connected a b
  disjoint : nets.Pairwise fun m n => m.nodes.Disjoint n.nodes
  ids : nets.map (·.id) =
    (List.range nets.length).map fun k => "N" ++ Value.intText ((k + 1 : Nat) : Int)
  first : ∀ n ∈ nets, ∃ a, n.nodes.head? = some a ∧
    ∀ b ∈ n.nodes, p.keys.idxOf a ≤ p.keys.idxOf b
  ordered : nets.Pairwise fun m n =>
    ∀ a ∈ m.nodes.head?, ∀ b ∈ n.nodes.head?, p.keys.idxOf a < p.keys.idxOf b

end Placement

namespace Graph

variable {g : Graph} {p : Placement}

theorem IsClass.reaches {i : Nat} {order : List Nat} (isClass : g.IsClass i order) {j : Nat}
    (member : j ∈ order) : g.Reaches i j :=
  (isClass.mem_iff j).1 member

theorem Depicts.idxOf_key (depicts : g.DepictsPlacement p) {i : Nat} {a : Point}
    (found : g.points[i]? = some a) : p.keys.idxOf a = i := by
  have eq : g.points = p.keys := depicts.points_eq
  have nodup := depicts.consistent.nodup_points
  rw [eq] at found nodup
  obtain ⟨inRange, rfl⟩ := List.getElem?_eq_some_iff.1 found
  exact nodup.idxOf_getElem i inRange

section

variable {i : Nat} {order : List Nat} (depicts : g.DepictsPlacement p)
  (isClass : g.IsClass i order)

include depicts isClass

theorem Depicts.mem_nodes_of_isClass (inRange : i < g.size) {a : Point}
    (member : a ∈ order.filterMap (g.points[·]?)) (b : Point) :
    b ∈ order.filterMap (g.points[·]?) ↔ b ∈ p.keys ∧ p.Connected a b := by
  obtain ⟨start, hi⟩ := exists_point inRange
  have isKey := depicts.consistent.isKey
  have points : g.points = p.keys := depicts.points_eq
  obtain ⟨j, inOrder, hj⟩ := List.mem_filterMap.1 member
  have toA := depicts.connected_of_reaches hi hj (isClass.reaches inOrder)
  rw [List.mem_filterMap]
  constructor
  · rintro ⟨k, inOrder', hk⟩
    have toB := depicts.connected_of_reaches hi hk (isClass.reaches inOrder')
    exact ⟨points ▸ List.mem_of_getElem? hk, toA.symm.trans toB⟩
  · rintro ⟨known, connected⟩
    have start_key : g.points[i]? = some start.key := by
      rw [isKey start (List.mem_of_getElem? hi)]
      exact hi
    obtain ⟨k, hk, reaches⟩ :=
      depicts.reaches_of_connected start_key (toA.trans connected)
    rw [isKey b (points ▸ known)] at hk
    exact ⟨k, (isClass.mem_iff k).2 reaches, hk⟩

theorem Depicts.head?_of_isClass (inRange : i < g.size) :
    ∃ a, (order.filterMap (g.points[·]?)).head? = some a ∧ p.keys.idxOf a = i ∧
      ∀ b ∈ order.filterMap (g.points[·]?), i ≤ p.keys.idxOf b := by
  obtain ⟨a, hi⟩ := exists_point inRange
  refine ⟨a, ?_, depicts.idxOf_key hi, ?_⟩
  · obtain ⟨rest, rfl⟩ := List.head?_eq_some_iff.1 isClass.first
    rw [List.filterMap_cons_some hi]
    rfl
  · intro b member
    obtain ⟨j, inOrder, hj⟩ := List.mem_filterMap.1 member
    rw [depicts.idxOf_key hj]
    exact isClass.least j inOrder

end

theorem Consistent.disjoint_keys (consistent : g.Consistent) {b c : List Nat}
    (disjoint : b.Disjoint c) :
    (b.filterMap (g.points[·]?)).Disjoint (c.filterMap (g.points[·]?)) := by
  intro a inB inC
  obtain ⟨i, hb, hi⟩ := List.mem_filterMap.1 inB
  obtain ⟨j, hc, hj⟩ := List.mem_filterMap.1 inC
  exact disjoint hb (consistent.index_unique hj hi ▸ hc)

theorem Consistent.nodup_keys (consistent : g.Consistent) {order : List Nat}
    (nodup : order.Nodup) : (order.filterMap (g.points[·]?)).Nodup :=
  nodup.filterMap fun _ _ _ hi hj => consistent.index_unique hi hj

theorem Depicts.terminals_perm (depicts : g.DepictsPlacement p) {seen : List Nat}
    (divided : g.Divided g.size g.classes seen) :
    (g.nets.flatMap (·.terminals)).Perm p.terminals := by
  have consistent := depicts.consistent
  have all : g.classes.flatten.Perm (List.range g.size) := by
    refine (List.perm_ext_iff_of_nodup (divided.perm.nodup divided.nodup)
      List.nodup_range).2 fun i => ?_
    rw [← divided.perm.mem_iff, List.mem_range]
    exact ⟨divided.bounded i, divided.covered i⟩
  have rows : (List.range g.size).map g.terminalsAt =
      g.points.map fun a => p.terminals.filter (·.place.key == a) := by
    apply List.ext_getElem
    · simp
    · intro i inRange _
      rw [List.getElem_map, List.getElem_map, List.getElem_range]
      exact depicts.terminalsAt_eq i _ (List.getElem?_eq_getElem _)
  have covered : ∀ t ∈ p.terminals, t.place.key ∈ g.points := by
    intro t member
    rw [depicts.points_eq, mem_keysOf]
    exact ⟨t.place, depicts.placed t member, rfl⟩
  rw [flatMap_terminals_nets]
  refine (all.flatMap_right _).trans ?_
  rw [List.flatMap_def, rows, ← List.flatMap_def]
  exact flatMap_filter_perm _ consistent.nodup_points covered

theorem Depicts.hasNets (depicts : g.DepictsPlacement p) : p.HasNets g.nets := by
  have consistent := depicts.consistent
  obtain ⟨seen, divided⟩ := g.classes_divided consistent.isUndirected
  have flatNodup : g.classes.flatten.Nodup := divided.perm.nodup divided.nodup
  obtain ⟨classNodup, classDisjoint⟩ := List.nodup_flatten.1 flatNodup
  have inRange : ∀ order ∈ g.classes, ∀ i ∈ order, i < g.size := by
    intro order member i inOrder
    exact divided.bounded i
      (divided.perm.mem_iff.2 (List.mem_flatten.2 ⟨order, member, inOrder⟩))
  have isKept : ∀ order ∈ g.kept, order ∈ g.classes ∧ g.hasTerminal order = true :=
    fun order => List.mem_filter.1
  refine ⟨depicts.terminals_perm divided, ?_, ?_, ?_, ?_, ?_, g.map_id_nets, ?_, ?_⟩
  · intro n member t inNet
    obtain ⟨order, kept, nodes, terminals⟩ := mem_nets member
    rw [terminals, List.mem_flatMap] at inNet
    obtain ⟨i, inOrder, here⟩ := inNet
    obtain ⟨a, hi⟩ := exists_point (inRange order (isKept order kept).1 i inOrder)
    rw [depicts.terminalsAt_eq i a hi, List.mem_filter, beq_iff_eq] at here
    rw [nodes, here.2]
    exact List.mem_filterMap.2 ⟨i, inOrder, hi⟩
  · intro n member
    obtain ⟨order, kept, _, terminals⟩ := mem_nets member
    rw [terminals]
    exact (g.hasTerminal_iff order).1 (isKept order kept).2
  · intro n member
    obtain ⟨order, kept, nodes, _⟩ := mem_nets member
    rw [nodes]
    exact consistent.nodup_keys (classNodup order (isKept order kept).1)
  · intro n member
    obtain ⟨order, kept, nodes, _⟩ := mem_nets member
    obtain ⟨i, below, isClass⟩ := divided.isClass order (isKept order kept).1
    rw [nodes]
    exact fun a => depicts.mem_nodes_of_isClass isClass below
  · exact g.pairwise_nets _ ((classDisjoint.sublist List.filter_sublist).imp
      fun apart => consistent.disjoint_keys apart)
  · intro n member
    obtain ⟨order, kept, nodes, _⟩ := mem_nets member
    obtain ⟨i, below, isClass⟩ := divided.isClass order (isKept order kept).1
    obtain ⟨a, head, index, least⟩ := depicts.head?_of_isClass isClass below
    rw [nodes]
    exact ⟨a, head, index ▸ least⟩
  · refine g.pairwise_nets (fun l m => ∀ a ∈ l.head?, ∀ b ∈ m.head?,
      p.keys.idxOf a < p.keys.idxOf b) ?_
    refine (divided.ordered.sublist List.filter_sublist).imp_of_mem ?_
    intro b c keptB keptC before
    obtain ⟨i, belowI, isClassB⟩ := divided.isClass b (isKept b keptB).1
    obtain ⟨j, belowJ, isClassC⟩ := divided.isClass c (isKept c keptC).1
    obtain ⟨a, headA, indexA, _⟩ := depicts.head?_of_isClass isClassB belowI
    obtain ⟨a', headC, indexC, _⟩ := depicts.head?_of_isClass isClassC belowJ
    intro x isHead y isHead'
    obtain rfl : a = x := Option.some.inj (headA.symm.trans isHead)
    obtain rfl : a' = y := Option.some.inj (headC.symm.trans isHead')
    rw [indexA, indexC]
    exact before i isClassB.first j isClassC.first

end Graph

theorem Placement.hasNets {p : Placement} (numeric : p.IsNumeric) :
    p.HasNets (Graph.ofPlacement p).nets :=
  (p.depicts numeric).hasNets

end Schematic
