import Schematic.Proofs.Junction.Consistent
import Mathlib.Data.List.ReduceOption
import Mathlib.Data.List.Infix
import Mathlib.Data.List.Nodup
/-!
What a junction graph depicts: the places it was built from, which of them a polyline joins, and
the terminals that lie on them.
-/

namespace Schematic

def Joins (trace : List (Option Point)) (a b : Point) : Prop :=
  ∃ p q, [some p, some q] <:+: trace ∧
    ((p.key = a ∧ q.key = b) ∨ (p.key = b ∧ q.key = a))

theorem not_joins_nil (a b : Point) : ¬ Joins [] a b := by
  rintro ⟨p, q, joined, _⟩
  exact absurd joined.length_le (by simp)

theorem not_joins_singleton (x : Option Point) (a b : Point) : ¬ Joins [x] a b := by
  rintro ⟨p, q, joined, _⟩
  exact absurd joined.length_le (by simp)

theorem joins_cons_cons {x y : Option Point} {trace : List (Option Point)} {a b : Point} :
    Joins (x :: y :: trace) a b ↔
      (∃ p q, x = some p ∧ y = some q ∧
        ((p.key = a ∧ q.key = b) ∨ (p.key = b ∧ q.key = a))) ∨
      Joins (y :: trace) a b := by
  constructor
  · rintro ⟨p, q, joined, ends⟩
    rcases List.infix_cons_iff.1 joined with first | later
    · simp only [List.cons_prefix_cons] at first
      exact .inl ⟨p, q, first.1.symm, first.2.1.symm, ends⟩
    · exact .inr ⟨p, q, later, ends⟩
  · rintro (⟨p, q, rfl, rfl, ends⟩ | ⟨p, q, joined, ends⟩)
    · exact ⟨p, q, ⟨[], trace, rfl⟩, ends⟩
    · exact ⟨p, q, List.infix_cons_iff.2 (.inr joined), ends⟩

theorem joins_none_cons {trace : List (Option Point)} {a b : Point} :
    Joins (none :: trace) a b ↔ Joins trace a b := by
  cases trace with
  | nil => simp [not_joins_nil, not_joins_singleton]
  | cons y trace => simp [joins_cons_cons]

theorem joins_cons_none {x : Option Point} {trace : List (Option Point)} {a b : Point} :
    Joins (x :: none :: trace) a b ↔ Joins trace a b := by
  simp [joins_cons_cons, joins_none_cons]

def keysOf (places : List Point) : List Point :=
  (places.map Point.key).eraseDups

theorem mem_keysOf {places : List Point} {k : Point} :
    k ∈ keysOf places ↔ ∃ p ∈ places, p.key = k := by
  simp [keysOf]

theorem keysOf_append_singleton (places : List Point) (p : Point) :
    keysOf (places ++ [p]) =
      if p.key ∈ keysOf places then keysOf places else keysOf places ++ [p.key] := by
  have known : p.key ∈ keysOf places ↔ p.key ∈ places.map Point.key := by
    simp [keysOf]
  rw [keysOf, List.map_append, List.eraseDups_append]
  change keysOf places ++ _ = _
  by_cases old : p.key ∈ places.map Point.key
  · have removed : ([p].map Point.key).removeAll (places.map Point.key) = [] :=
      List.filter_eq_nil_iff.2 (by simpa using old)
    rw [if_pos (known.2 old), removed, List.eraseDups_nil, List.append_nil]
  · have kept : ([p].map Point.key).removeAll (places.map Point.key) = [p.key] :=
      List.filter_eq_self.2 (by simpa using old)
    rw [if_neg fun member => old (known.1 member), kept]
    rfl

namespace Graph

def Adjacent (g : Graph) (a b : Point) : Prop :=
  ∃ i j : Nat, g.points[i]? = some a ∧ g.points[j]? = some b ∧ (j : Int) ∈ g.row i

theorem lt_size_of_getElem? {g : Graph} {i : Nat} {a : Point}
    (found : g.points[i]? = some a) : i < g.size := by
  rw [← length_points]
  exact (List.getElem?_eq_some_iff.1 found).1

theorem Consistent.index_unique {g : Graph} (consistent : g.Consistent) {i j : Nat}
    {a : Point} (hi : g.points[i]? = some a) (hj : g.points[j]? = some a) : i = j := by
  obtain ⟨inRange, rfl⟩ := List.getElem?_eq_some_iff.1 hi
  obtain ⟨inRange', same⟩ := List.getElem?_eq_some_iff.1 hj
  exact ((consistent.nodup_points.getElem_inj_iff).1 same).symm

theorem Consistent.getElem?_ensure_of_lt {g : Graph} (consistent : g.Consistent) {p : Point}
    (numeric : p.IsNumeric) {i : Nat} (inRange : i < g.size) :
    (g.ensure p).2.points[i]? = g.points[i]? := by
  rw [consistent.points_ensure numeric]
  split
  · rfl
  · exact List.getElem?_append_left (by simpa using inRange)

theorem Consistent.adjacent_ensure {g : Graph} (consistent : g.Consistent) {p : Point}
    (numeric : p.IsNumeric) {a b : Point} :
    (g.ensure p).2.Adjacent a b ↔ g.Adjacent a b := by
  have grown := fun i => consistent.getElem?_ensure_of_lt numeric (i := i)
  constructor
  · rintro ⟨i, j, hi, hj, member⟩
    rw [row_ensure] at member
    have inRange := consistent.linked.lt_of_mem_row member
    obtain ⟨j', inRange', same⟩ := consistent.row_bounded i j member
    obtain rfl : j = j' := by omega
    exact ⟨i, j, grown i inRange ▸ hi, grown j inRange' ▸ hj, member⟩
  · rintro ⟨i, j, hi, hj, member⟩
    rw [← grown i (lt_size_of_getElem? hi)] at hi
    rw [← grown j (lt_size_of_getElem? hj)] at hj
    exact ⟨i, j, hi, hj, by rw [row_ensure]; exact member⟩

theorem Consistent.adjacent_connect {g : Graph} (consistent : g.Consistent) {i j : Nat}
    {a b : Point} (hi : g.points[i]? = some a) (hj : g.points[j]? = some b) {x y : Point} :
    (g.connect i j).Adjacent x y ↔
      g.Adjacent x y ∨ (a = x ∧ b = y) ∨ (a = y ∧ b = x) := by
  have rows := fun k l : Nat => consistent.linked.mem_row_connect
    (lt_size_of_getElem? hi) (lt_size_of_getElem? hj) (i := k) (j := l)
  simp only [Adjacent, points_connect, rows]
  constructor
  · rintro ⟨k, l, hk, hl, old | ⟨rfl, rfl⟩ | ⟨rfl, rfl⟩⟩
    · exact .inl ⟨k, l, hk, hl, old⟩
    · exact .inr (.inl ⟨Option.some.inj (hi.symm.trans hk),
        Option.some.inj (hj.symm.trans hl)⟩)
    · exact .inr (.inr ⟨Option.some.inj (hi.symm.trans hl),
        Option.some.inj (hj.symm.trans hk)⟩)
  · rintro (⟨k, l, hk, hl, old⟩ | ⟨rfl, rfl⟩ | ⟨rfl, rfl⟩)
    · exact ⟨k, l, hk, hl, .inl old⟩
    · exact ⟨i, j, hi, hj, .inr (.inl ⟨rfl, rfl⟩)⟩
    · exact ⟨j, i, hj, hi, .inr (.inr ⟨rfl, rfl⟩)⟩

/-- A graph depicts places, of which some are joined, and terminals on them. -/
structure Depicts (g : Graph) (places : List Point) (joined : Point → Point → Prop)
    (terminals : List Terminal) : Prop where
  consistent : g.Consistent
  points_eq : g.points = keysOf places
  adjacent_iff : ∀ a b, g.Adjacent a b ↔ joined a b
  placed : ∀ t ∈ terminals, t.place ∈ places
  terminalsAt_eq : ∀ i a, g.points[i]? = some a →
    g.terminalsAt i = terminals.filter (·.place.key == a)

variable {g : Graph} {places : List Point} {joined : Point → Point → Prop}
  {terminals : List Terminal}

theorem depicts_empty : empty.Depicts [] (fun _ _ => False) [] where
  consistent := consistent_empty
  points_eq := rfl
  adjacent_iff := by
    intro a b
    simp [Adjacent, points, empty]
  placed := by simp
  terminalsAt_eq := by simp [points, empty]

theorem Depicts.congr (depicts : g.Depicts places joined terminals)
    {joined' : Point → Point → Prop} (same : ∀ a b, joined a b ↔ joined' a b) :
    g.Depicts places joined' terminals :=
  ⟨depicts.consistent, depicts.points_eq,
    fun a b => (depicts.adjacent_iff a b).trans (same a b),
    depicts.placed, depicts.terminalsAt_eq⟩

theorem Depicts.ensure (depicts : g.Depicts places joined terminals) {p : Point}
    (numeric : p.IsNumeric) :
    (g.ensure p).2.Depicts (places ++ [p]) joined terminals where
  consistent := depicts.consistent.ensure numeric
  points_eq := by
    rw [depicts.consistent.points_ensure numeric, keysOf_append_singleton, depicts.points_eq]
  adjacent_iff := fun a b =>
    (depicts.consistent.adjacent_ensure numeric).trans (depicts.adjacent_iff a b)
  placed := fun t member => List.mem_append_left [p] (depicts.placed t member)
  terminalsAt_eq := by
    intro i a found
    rw [terminalsAt_ensure]
    by_cases old : i < g.size
    · rw [depicts.consistent.getElem?_ensure_of_lt numeric old] at found
      exact depicts.terminalsAt_eq i a found
    · -- The only new node is that of `p`, and no terminal lies there yet.
      have fresh : a ∉ g.points := by
        intro member
        obtain ⟨k, atKey⟩ := List.getElem?_of_mem member
        have inRange := lt_size_of_getElem? atKey
        rw [← depicts.consistent.getElem?_ensure_of_lt numeric inRange] at atKey
        exact old ((depicts.consistent.ensure numeric).index_unique atKey found ▸ inRange)
      have empty : terminals.filter (·.place.key == a) = [] := by
        refine List.filter_eq_nil_iff.2 fun t member lies => fresh ?_
        rw [depicts.points_eq, mem_keysOf]
        exact ⟨t.place, depicts.placed t member, by simpa using lies⟩
      have outside : g.nodes[i]? = none := List.getElem?_eq_none (Nat.le_of_not_lt old)
      simp [empty, terminalsAt, outside]

theorem Depicts.connect (depicts : g.Depicts places joined terminals) {i j : Nat}
    {a b : Point} (hi : g.points[i]? = some a) (hj : g.points[j]? = some b) :
    (g.connect i j).Depicts places
      (fun x y => joined x y ∨ (a = x ∧ b = y) ∨ (a = y ∧ b = x)) terminals where
  consistent := depicts.consistent.connect (lt_size_of_getElem? hi) (lt_size_of_getElem? hj)
  points_eq := by simpa using depicts.points_eq
  adjacent_iff := fun x y =>
    (depicts.consistent.adjacent_connect hi hj).trans
      (or_congr_left (depicts.adjacent_iff x y))
  placed := depicts.placed
  terminalsAt_eq := by simpa using depicts.terminalsAt_eq

theorem Depicts.attach (depicts : g.Depicts places joined terminals) {t : Terminal}
    (numeric : t.place.IsNumeric) :
    (g.attach t).Depicts (places ++ [t.place]) joined (terminals ++ [t]) := by
  have depicts' := depicts.ensure numeric
  have located := depicts.consistent.indexed.getElem?_ensure t.place
  rw [attach_eq_hang]
  generalize (g.ensure t.place).1 = n at located ⊢
  generalize (g.ensure t.place).2 = g' at depicts' located ⊢
  refine ⟨depicts'.consistent.hang n t, ?_, ?_, ?_, ?_⟩
  · rw [points_hang]
    exact depicts'.points_eq
  · intro a b
    rw [← depicts'.adjacent_iff a b]
    simp [Adjacent]
  · intro u member
    rcases List.mem_append.1 member with old | single
    · exact depicts'.placed u old
    · obtain rfl := List.mem_singleton.1 single
      simp
  · intro i a found
    rw [points_hang] at found
    rw [terminalsAt_hang g' (lt_size_of_getElem? located), List.filter_append,
      ← depicts'.terminalsAt_eq i a found]
    by_cases same : i = n
    · subst same
      obtain rfl : t.place.key = a := Option.some.inj (located.symm.trans found)
      simp
    · have other : t.place.key ≠ a := by
        rintro rfl
        exact same (depicts'.consistent.index_unique found located)
      simp [same, other]

/-- The node on which a polyline continues, and the point there. -/
def Continues (g : Graph) : Option Nat → Option Point → Prop
  | none, none => True
  | some i, some p => g.points[i]? = some p.key
  | _, _ => False

theorem Depicts.addTraceFrom {trace : List (Option Point)} {previous : Option Nat}
    {before : Option Point} (depicts : g.Depicts places joined terminals)
    (continues : g.Continues previous before)
    (numeric : ∀ p, some p ∈ trace → p.IsNumeric) :
    (g.addTraceFrom previous trace).Depicts (places ++ trace.reduceOption)
      (fun a b => joined a b ∨ Joins (before :: trace) a b) terminals := by
  -- `before` is the point at the node `previous`, from which the next point is joined.
  induction trace generalizing g places joined previous before with
  | nil =>
      simpa [Graph.addTraceFrom] using
        depicts.congr fun a b => by simp [not_joins_singleton]
  | cons x trace ih =>
      have numeric' : ∀ p, some p ∈ trace → p.IsNumeric :=
        fun p member => numeric p (List.mem_cons_of_mem x member)
      cases x with
      | none =>
          rw [List.reduceOption_cons_of_none]
          have broken : g.Continues none none := trivial
          exact (ih depicts broken numeric').congr
            fun a b => by rw [joins_cons_none, joins_none_cons]
      | some p =>
          have here := numeric p List.mem_cons_self
          have depicts' := depicts.ensure here
          have located := depicts.consistent.indexed.getElem?_ensure p
          rw [List.reduceOption_cons_of_some, List.append_cons]
          cases previous with
          | none =>
              cases before with
              | some q => exact continues.elim
              | none =>
                  have located' : (g.ensure p).2.Continues (some (g.ensure p).1) (some p) :=
                    located
                  exact (ih depicts' located' numeric').congr
                    fun a b => by rw [joins_none_cons]
          | some j =>
              cases before with
              | none => exact continues.elim
              | some q =>
                  have onward : (g.ensure p).2.points[j]? = some q.key := by
                    rw [depicts.consistent.getElem?_ensure_of_lt here
                      (lt_size_of_getElem? continues)]
                    exact continues
                  have located' :
                      ((g.ensure p).2.connect j (g.ensure p).1).Continues
                        (some (g.ensure p).1) (some p) := by
                    simpa [Continues] using located
                  refine (ih (depicts'.connect onward located)
                    located' numeric').congr fun a b => ?_
                  rw [joins_cons_cons, or_assoc]
                  simp

theorem Depicts.addTraces {traces : List (List (Option Point))}
    (depicts : g.Depicts places joined terminals)
    (numeric : ∀ trace ∈ traces, ∀ p, some p ∈ trace → p.IsNumeric) :
    (traces.foldl addTrace g).Depicts (places ++ traces.flatten.reduceOption)
      (fun a b => joined a b ∨ ∃ trace ∈ traces, Joins trace a b) terminals := by
  induction traces generalizing g places joined with
  | nil => simpa using depicts
  | cons trace traces ih =>
      have broken : g.Continues none none := trivial
      have first := (depicts.addTraceFrom broken (numeric trace List.mem_cons_self)).congr
          fun a b => or_congr_right joins_none_cons
      have rest := ih first fun other member =>
        numeric other (List.mem_cons_of_mem trace member)
      rw [List.flatten_cons, List.reduceOption_append, ← List.append_assoc]
      exact rest.congr fun a b => by simp [or_assoc]

theorem Depicts.attachAll {ts : List Terminal}
    (depicts : g.Depicts places joined terminals)
    (numeric : ∀ t ∈ ts, t.place.IsNumeric) :
    (ts.foldl Graph.attach g).Depicts (places ++ ts.map (·.place)) joined (terminals ++ ts) := by
  induction ts generalizing g places terminals with
  | nil => simpa using depicts
  | cons t ts ih =>
      have rest := ih (depicts.attach (numeric t List.mem_cons_self))
        fun u member => numeric u (List.mem_cons_of_mem t member)
      simpa using rest

end Graph

namespace Placement

def places (p : Placement) : List Point :=
  p.traces.flatten.reduceOption ++ p.terminals.map (·.place)

structure IsNumeric (p : Placement) : Prop where
  trace : ∀ trace ∈ p.traces, ∀ q, some q ∈ trace → q.IsNumeric
  terminal : ∀ t ∈ p.terminals, t.place.IsNumeric

theorem depicts (p : Placement) (numeric : p.IsNumeric) :
    (Graph.ofPlacement p).Depicts p.places
      (fun a b => ∃ trace ∈ p.traces, Joins trace a b) p.terminals := by
  have traced := Graph.depicts_empty.addTraces numeric.trace
  have attached := traced.attachAll numeric.terminal
  simpa [Graph.ofPlacement, places] using attached

end Placement

end Schematic
