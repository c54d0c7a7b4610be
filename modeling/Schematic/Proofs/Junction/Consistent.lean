import Schematic.Proofs.PointKey
import Schematic.Junction
/-!
The representation of a junction graph. Its index lists the nodes by their points, neighbour lists
and edges say the same, and every operation keeps it so.
-/

namespace Schematic.Graph

def points (g : Graph) : List Point :=
  g.nodes.map (·.point)

def row (g : Graph) (i : Nat) : List Int :=
  g.adjacency.getD i []

def terminalsAt (g : Graph) (i : Nat) : List Terminal :=
  (g.nodes[i]?.map (·.terminals)).getD []

/-- The index lists the nodes by their points, of which no two are at one place. -/
structure Indexed (g : Graph) : Prop where
  index_eq : g.index = g.points.zipIdx
  apart : g.points.Pairwise fun p q => p.coincides q = false
  isKey : ∀ p ∈ g.points, p.key = p

/-- Neighbour lists and edges say the same about the nodes that there are. -/
structure Linked (g : Graph) : Prop where
  length_adjacency : g.adjacency.length = g.size
  row_bounded : ∀ i, ∀ k ∈ g.row i, ∃ j : Nat, j < g.size ∧ k = j
  nodup_row : ∀ i, (g.row i).Nodup
  mem_row_iff : ∀ i j : Nat, i < g.size → j < g.size →
    ((j : Int) ∈ g.row i ↔ edge i j ∈ g.edges)
  edges_bounded : ∀ e ∈ g.edges, ∃ i j : Nat, i < g.size ∧ j < g.size ∧ e = edge i j

/-- A graph that is indexed and linked and of which every node is at a place. -/
structure Consistent (g : Graph) : Prop where
  index_eq : g.index = g.points.zipIdx
  nodup_points : g.points.Nodup
  isNumeric : ∀ p ∈ g.points, p.IsNumeric
  isKey : ∀ p ∈ g.points, p.key = p
  length_adjacency : g.adjacency.length = g.size
  row_bounded : ∀ i, ∀ k ∈ g.row i, ∃ j : Nat, j < g.size ∧ k = j
  nodup_row : ∀ i, (g.row i).Nodup
  mem_row_iff : ∀ i j : Nat, i < g.size → j < g.size →
    ((j : Int) ∈ g.row i ↔ edge i j ∈ g.edges)
  edges_bounded : ∀ e ∈ g.edges, ∃ i j : Nat, i < g.size ∧ j < g.size ∧ e = edge i j

variable {g : Graph}

@[simp] theorem length_points (g : Graph) : g.points.length = g.size := by
  simp [points, size]

theorem indexed_empty : empty.Indexed where
  index_eq := rfl
  apart := List.Pairwise.nil
  isKey := by simp [points, empty]

theorem linked_empty : empty.Linked where
  length_adjacency := rfl
  row_bounded := by simp [row, empty]
  nodup_row := by simp [row, empty]
  mem_row_iff := by simp [size, empty]
  edges_bounded := by simp [empty]

theorem Consistent.indexed (consistent : g.Consistent) : g.Indexed where
  index_eq := consistent.index_eq
  apart := by
    refine consistent.nodup_points.imp_of_mem fun {p q} inP inQ other => ?_
    refine Bool.eq_false_iff.2 fun same => other ?_
    rw [← consistent.isKey p inP, ← consistent.isKey q inQ]
    exact Point.key_eq_of_coincides same
  isKey := consistent.isKey

theorem Consistent.linked (consistent : g.Consistent) : g.Linked :=
  ⟨consistent.length_adjacency, consistent.row_bounded, consistent.nodup_row,
    consistent.mem_row_iff, consistent.edges_bounded⟩

theorem Indexed.consistent (indexed : g.Indexed) (linked : g.Linked)
    (numeric : ∀ p ∈ g.points, p.IsNumeric) : g.Consistent where
  index_eq := indexed.index_eq
  nodup_points := by
    refine indexed.apart.imp_of_mem fun {p q} inP _ apart same => ?_
    subst same
    have here := (Point.coincides_key_iff (numeric p inP)).2 (rfl : p.key = p.key)
    rw [indexed.isKey p inP, apart] at here
    cases here
  isNumeric := numeric
  isKey := indexed.isKey
  length_adjacency := linked.length_adjacency
  row_bounded := linked.row_bounded
  nodup_row := linked.nodup_row
  mem_row_iff := linked.mem_row_iff
  edges_bounded := linked.edges_bounded

theorem consistent_empty : empty.Consistent :=
  indexed_empty.consistent linked_empty (by simp [points, empty])

theorem edge_eq_edge_iff {a b c d : Int} :
    edge a b = edge c d ↔ (a = c ∧ b = d) ∨ (a = d ∧ b = c) := by
  unfold edge
  grind

theorem Linked.mem_row_comm (linked : g.Linked) {i j : Nat} (hi : i < g.size) (hj : j < g.size) :
    (j : Int) ∈ g.row i ↔ (i : Int) ∈ g.row j := by
  rw [linked.mem_row_iff i j hi hj, linked.mem_row_iff j i hj hi, edge_comm]

theorem Linked.lt_of_mem_row (linked : g.Linked) {i : Nat} {k : Int} (member : k ∈ g.row i) :
    i < g.size := by
  rw [← linked.length_adjacency]
  refine Nat.lt_of_not_le fun outside => ?_
  rw [row, List.getD_eq_getElem?_getD, List.getElem?_eq_none outside] at member
  cases member

theorem Linked.mem_row_symm (linked : g.Linked) {i j : Nat} (member : (j : Int) ∈ g.row i) :
    (i : Int) ∈ g.row j := by
  obtain ⟨j', inRange, same⟩ := linked.row_bounded i j member
  obtain rfl : j = j' := by omega
  exact (linked.mem_row_comm (linked.lt_of_mem_row member) inRange).1 member

/-! Look-up. -/

theorem Indexed.getElem?_of_find? (indexed : g.Indexed) {p : Point} {i : Nat}
    (found : g.find? p = some i) : g.points[i]? = some p.key := by
  obtain ⟨e, located, rfl⟩ := Option.map_eq_some_iff.1 found
  have member := List.mem_of_find?_eq_some located
  have same : e.1.key = p.key.key := Point.key_eq_of_coincides
    (List.find?_some (p := fun e : Point × Nat => e.1.coincides p.key) located)
  rw [indexed.index_eq] at member
  have atIndex := List.mem_zipIdx_iff_getElem?.1 member
  rw [indexed.isKey e.1 (List.mem_of_getElem? atIndex), Point.key_key] at same
  rw [atIndex, same]

theorem Indexed.not_coincides_of_find? (indexed : g.Indexed) {p : Point}
    (missing : g.find? p = none) : ∀ q ∈ g.points, q.coincides p.key = false := by
  intro q member
  obtain ⟨i, inRange, atIndex⟩ := List.getElem_of_mem member
  have located : (q, i) ∈ g.index := by
    rw [indexed.index_eq]
    exact List.mem_zipIdx_iff_getElem?.2 (List.getElem?_eq_some_iff.2 ⟨inRange, atIndex⟩)
  exact Bool.not_eq_true _ ▸ List.find?_eq_none.1 (Option.map_eq_none_iff.1 missing) _ located

theorem Indexed.not_mem_of_find? (indexed : g.Indexed) {p : Point} (numeric : p.IsNumeric)
    (missing : g.find? p = none) : p.key ∉ g.points := by
  intro member
  have apart := indexed.not_coincides_of_find? missing p.key member
  rw [(Point.coincides_key_iff numeric).2 rfl] at apart
  cases apart

/-! A node for a point. -/

theorem ensure_of_find? {p : Point} {i : Nat} (found : g.find? p = some i) :
    g.ensure p = (i, g) := by
  rw [ensure, found]

theorem points_ensure_of_find? {p : Point} (missing : g.find? p = none) :
    (g.ensure p).2.points = g.points ++ [p.key] := by
  simp [ensure, missing, points]

theorem points_prefix_ensure (g : Graph) (p : Point) : g.points <+: (g.ensure p).2.points := by
  cases found : g.find? p with
  | some i =>
      have same : (g.ensure p).2 = g := congrArg Prod.snd (ensure_of_find? found)
      exact same.symm ▸ List.prefix_rfl
  | none =>
      rw [points_ensure_of_find? found]
      exact List.prefix_append _ _

theorem Consistent.points_ensure (consistent : g.Consistent) {p : Point}
    (numeric : p.IsNumeric) :
    (g.ensure p).2.points = if p.key ∈ g.points then g.points else g.points ++ [p.key] := by
  cases found : g.find? p with
  | some i =>
      have member := List.mem_of_getElem? (consistent.indexed.getElem?_of_find? found)
      rw [if_pos member, ensure_of_find? found]
  | none =>
      rw [if_neg (consistent.indexed.not_mem_of_find? numeric found), points_ensure_of_find? found]

theorem Indexed.getElem?_ensure (indexed : g.Indexed) (p : Point) :
    (g.ensure p).2.points[(g.ensure p).1]? = some p.key := by
  unfold ensure
  split
  next i found => exact indexed.getElem?_of_find? found
  next missing => simp [points, size]

theorem Indexed.ensure (indexed : g.Indexed) (p : Point) : (g.ensure p).2.Indexed := by
  cases found : g.find? p with
  | some i =>
      rw [ensure_of_find? found]
      exact indexed
  | none =>
      have grown := points_ensure_of_find? found
      refine ⟨?_, ?_, ?_⟩
      · rw [grown, List.zipIdx_append, length_points, ← indexed.index_eq]
        simp [Graph.ensure, found]
      · rw [grown, List.pairwise_append]
        refine ⟨indexed.apart, List.pairwise_singleton _ _, fun q member r last => ?_⟩
        obtain rfl := List.mem_singleton.1 last
        exact indexed.not_coincides_of_find? found q member
      · rw [grown]
        intro q member
        rcases List.mem_append.1 member with old | last
        · exact indexed.isKey q old
        · obtain rfl := List.mem_singleton.1 last
          exact Point.key_key p

theorem row_ensure (g : Graph) (p : Point) (i : Nat) :
    (g.ensure p).2.row i = g.row i := by
  unfold ensure
  split
  · rfl
  · simp only [row, List.getD_eq_getElem?_getD]
    rcases Nat.lt_trichotomy i g.adjacency.length with below | rfl | above
    · rw [List.getElem?_append_left below]
    · simp
    · have outside : g.adjacency.length ≤ i := Nat.le_of_lt above
      rw [List.getElem?_eq_none (by simp; omega), List.getElem?_eq_none outside]

theorem edges_ensure (g : Graph) (p : Point) : (g.ensure p).2.edges = g.edges := by
  unfold ensure
  split <;> rfl

theorem terminalsAt_ensure (g : Graph) (p : Point) (i : Nat) :
    (g.ensure p).2.terminalsAt i = g.terminalsAt i := by
  unfold ensure
  split
  · rfl
  · simp only [terminalsAt]
    rcases Nat.lt_trichotomy i g.nodes.length with below | rfl | above
    · rw [List.getElem?_append_left below]
    · simp
    · have outside : g.nodes.length ≤ i := Nat.le_of_lt above
      rw [List.getElem?_eq_none (by simp; omega), List.getElem?_eq_none outside]

theorem Linked.ensure (linked : g.Linked) (p : Point) : (g.ensure p).2.Linked := by
  cases found : g.find? p with
  | some i =>
      rw [ensure_of_find? found]
      exact linked
  | none =>
      have larger : (g.ensure p).2.size = g.size + 1 := by
        rw [← length_points, points_ensure_of_find? found]
        simp
      have rows := row_ensure g p
      have sameEdges := edges_ensure g p
      refine ⟨?_, ?_, ?_, ?_, ?_⟩
      · have counted := linked.length_adjacency
        rw [larger]
        simp [Graph.ensure, found, counted]
      · intro i k member
        rw [rows] at member
        obtain ⟨j, inRange, same⟩ := linked.row_bounded i k member
        exact ⟨j, by omega, same⟩
      · intro i
        rw [rows]
        exact linked.nodup_row i
      · -- A node that is new has neither neighbours nor edges.
        intro i j hi hj
        rw [rows, sameEdges]
        by_cases old : i < g.size ∧ j < g.size
        · exact linked.mem_row_iff i j old.1 old.2
        · constructor
          · intro member
            have hi' := linked.lt_of_mem_row member
            obtain ⟨j', inRange, same⟩ := linked.row_bounded i j member
            exact absurd ⟨hi', by omega⟩ old
          · intro member
            obtain ⟨a, b, ha, hb, same⟩ := linked.edges_bounded _ member
            rcases edge_eq_edge_iff.1 same with ⟨rfl', rfl''⟩ | ⟨rfl', rfl''⟩
            · exact absurd ⟨by omega, by omega⟩ old
            · exact absurd ⟨by omega, by omega⟩ old
      · rw [sameEdges]
        intro e member
        obtain ⟨i, j, hi, hj, same⟩ := linked.edges_bounded e member
        exact ⟨i, j, by omega, by omega, same⟩

theorem Consistent.ensure (consistent : g.Consistent) {p : Point}
    (numeric : p.IsNumeric) : (g.ensure p).2.Consistent := by
  refine (consistent.indexed.ensure p).consistent (consistent.linked.ensure p) ?_
  rw [consistent.points_ensure numeric]
  intro q member
  split at member
  next => exact consistent.isNumeric q member
  next =>
    rcases List.mem_append.1 member with old | last
    · exact consistent.isNumeric q old
    · obtain rfl := List.mem_singleton.1 last
      exact numeric.key

/-! An edge. -/

@[simp] theorem points_connect (g : Graph) (a b : Nat) :
    (g.connect a b).points = g.points := by
  simp [points]

@[simp] theorem size_connect (g : Graph) (a b : Nat) : (g.connect a b).size = g.size := by
  simp [size]

@[simp] theorem terminalsAt_connect (g : Graph) (a b i : Nat) :
    (g.connect a b).terminalsAt i = g.terminalsAt i := by
  simp [terminalsAt]

theorem row_modify (adjacency : List (List Int)) (a i : Nat) (k : Int) :
    (adjacency.modify a (· ++ [k])).getD i [] =
      if i = a ∧ a < adjacency.length then adjacency.getD i [] ++ [k]
      else adjacency.getD i [] := by
  simp only [List.getD_eq_getElem?_getD, List.getElem?_modify]
  by_cases same : a = i
  · subst same
    by_cases inRange : a < adjacency.length
    · simp [inRange]
    · simp [inRange]
  · have other : ¬ (i = a ∧ a < adjacency.length) := fun h => same h.1.symm
    simp [same, other]

/-- What an edge adds to a row: each end to the other's, a loop once. -/
def endsAt (a b i : Nat) : List Int :=
  if i = a then [(b : Int)] else if i = b then [(a : Int)] else []

theorem mem_endsAt {a b i : Nat} {k : Int} :
    k ∈ endsAt a b i ↔ (i = a ∧ k = b) ∨ (i = b ∧ k = a) := by
  unfold endsAt
  grind

theorem nodup_endsAt (a b i : Nat) : (endsAt a b i).Nodup := by
  unfold endsAt
  split
  · simp
  · split <;> simp

theorem Linked.row_connect (linked : g.Linked) {a b : Nat}
    (ha : a < g.size) (hb : b < g.size) (fresh : edge a b ∉ g.edges) (i : Nat) :
    (g.connect a b).row i = g.row i ++ endsAt a b i := by
  have la : a < g.adjacency.length := linked.length_adjacency ▸ ha
  have lb : b < g.adjacency.length := linked.length_adjacency ▸ hb
  rw [connect, if_neg fresh]
  simp only [row, endsAt]
  by_cases loop : a = b
  · subst loop
    rw [if_pos rfl, row_modify]
    by_cases same : i = a
    · simp [same, la]
    · simp [same]
  · rw [if_neg loop, row_modify, row_modify, List.length_modify]
    by_cases first : i = a
    · subst first
      simp [loop, la]
    · by_cases second : i = b
      · subst second
        simp [first, lb]
      · simp [first, second]

theorem mem_edges_connect {a b : Nat} {e : Int × Int} :
    e ∈ (g.connect a b).edges ↔ e = edge a b ∨ e ∈ g.edges := by
  unfold connect
  split
  next known =>
    constructor
    · exact .inr
    · rintro (rfl | old)
      · exact known
      · exact old
  next => exact List.mem_cons

theorem Linked.mem_row_connect (linked : g.Linked) {a b : Nat}
    (ha : a < g.size) (hb : b < g.size) {i j : Nat} :
    (j : Int) ∈ (g.connect a b).row i ↔
      (j : Int) ∈ g.row i ∨ (i = a ∧ j = b) ∨ (i = b ∧ j = a) := by
  by_cases known : edge a b ∈ g.edges
  · have unchanged : g.connect a b = g := by rw [connect, if_pos known]
    rw [unchanged]
    constructor
    · exact .inl
    · rintro (old | ⟨rfl, rfl⟩ | ⟨rfl, rfl⟩)
      · exact old
      · exact (linked.mem_row_iff _ _ ha hb).2 known
      · rw [edge_comm] at known
        exact (linked.mem_row_iff _ _ hb ha).2 known
  · rw [linked.row_connect ha hb known, List.mem_append, mem_endsAt]
    simp only [Int.natCast_inj]

theorem Indexed.connect (indexed : g.Indexed) (a b : Nat) : (g.connect a b).Indexed := by
  refine ⟨?_, ?_, ?_⟩
  · rw [points_connect, ← indexed.index_eq, Graph.connect]
    split <;> rfl
  · simpa using indexed.apart
  · simpa using indexed.isKey

theorem Linked.connect (linked : g.Linked) {a b : Nat}
    (ha : a < g.size) (hb : b < g.size) : (g.connect a b).Linked := by
  by_cases known : edge a b ∈ g.edges
  · have unchanged : g.connect a b = g := by rw [Graph.connect, if_pos known]
    rw [unchanged]
    exact linked
  · have rows := linked.row_connect ha hb known
    have absent : (b : Int) ∉ g.row a ∧ (a : Int) ∉ g.row b := by
      rw [linked.mem_row_iff a b ha hb, linked.mem_row_iff b a hb ha, edge_comm b a]
      exact ⟨known, known⟩
    refine ⟨?_, ?_, ?_, ?_, ?_⟩
    · rw [size_connect, ← linked.length_adjacency, Graph.connect, if_neg known]
      by_cases loop : a = b <;> simp [loop]
    · intro i k member
      rw [rows i] at member
      rw [size_connect]
      rcases List.mem_append.1 member with old | new
      · exact linked.row_bounded i k old
      · rcases mem_endsAt.1 new with ⟨_, same⟩ | ⟨_, same⟩
        · exact ⟨b, hb, same⟩
        · exact ⟨a, ha, same⟩
    · intro i
      rw [rows i, List.nodup_append]
      refine ⟨linked.nodup_row i, nodup_endsAt a b i, ?_⟩
      rintro k old _ new rfl
      rcases mem_endsAt.1 new with ⟨rfl, rfl⟩ | ⟨rfl, rfl⟩
      · exact absent.1 old
      · exact absent.2 old
    · intro i j hi hj
      rw [size_connect] at hi hj
      rw [linked.mem_row_connect ha hb, mem_edges_connect,
        linked.mem_row_iff i j hi hj, edge_eq_edge_iff, or_comm]
      simp only [Int.natCast_inj]
    · intro e member
      rw [size_connect]
      rcases mem_edges_connect.1 member with rfl | old
      · exact ⟨a, b, ha, hb, rfl⟩
      · exact linked.edges_bounded e old

theorem Consistent.connect (consistent : g.Consistent) {a b : Nat}
    (ha : a < g.size) (hb : b < g.size) : (g.connect a b).Consistent :=
  (consistent.indexed.connect a b).consistent (consistent.linked.connect ha hb)
    (by simpa using consistent.isNumeric)

/-! A terminal. -/

def hang (g : Graph) (i : Nat) (t : Terminal) : Graph :=
  { g with nodes := g.nodes.modify i fun j => { j with terminals := j.terminals ++ [t] } }

theorem attach_eq_hang (g : Graph) (t : Terminal) :
    g.attach t = (g.ensure t.place).2.hang (g.ensure t.place).1 t :=
  rfl

@[simp] theorem points_hang (g : Graph) (i : Nat) (t : Terminal) :
    (g.hang i t).points = g.points := by
  apply List.ext_getElem?
  intro k
  simp only [points, hang, List.getElem?_map, List.getElem?_modify]
  cases g.nodes[k]? with
  | none => simp
  | some j => by_cases same : i = k <;> simp [same]

@[simp] theorem row_hang (g : Graph) (i k : Nat) (t : Terminal) :
    (g.hang i t).row k = g.row k :=
  rfl

theorem terminalsAt_hang (g : Graph) {i : Nat} (inRange : i < g.size) (t : Terminal)
    (k : Nat) :
    (g.hang i t).terminalsAt k =
      if k = i then g.terminalsAt k ++ [t] else g.terminalsAt k := by
  simp only [terminalsAt, hang, List.getElem?_modify]
  by_cases same : k = i
  · subst same
    have located : k < g.nodes.length := inRange
    simp [located]
  · simp [same, Ne.symm same]

@[simp] theorem size_hang (g : Graph) (i : Nat) (t : Terminal) : (g.hang i t).size = g.size := by
  rw [← length_points, points_hang, length_points]

theorem Indexed.hang (indexed : g.Indexed) (i : Nat) (t : Terminal) : (g.hang i t).Indexed := by
  refine ⟨?_, ?_, ?_⟩
  · rw [points_hang]
    exact indexed.index_eq
  · rw [points_hang]
    exact indexed.apart
  · rw [points_hang]
    exact indexed.isKey

theorem Linked.hang (linked : g.Linked) (i : Nat) (t : Terminal) : (g.hang i t).Linked := by
  refine ⟨?_, ?_, linked.nodup_row, ?_, ?_⟩
  · rw [size_hang]
    exact linked.length_adjacency
  · rw [size_hang]
    exact linked.row_bounded
  · rw [size_hang]
    exact linked.mem_row_iff
  · rw [size_hang]
    exact linked.edges_bounded

theorem Consistent.hang (consistent : g.Consistent) (i : Nat) (t : Terminal) :
    (g.hang i t).Consistent :=
  (consistent.indexed.hang i t).consistent (consistent.linked.hang i t)
    (by simpa using consistent.isNumeric)

end Schematic.Graph
