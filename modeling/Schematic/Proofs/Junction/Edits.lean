import Schematic.Proofs.Junction.Depiction
/-!
Graphs under edits. Whatever the order of the edits, the index and the neighbour lists stay true, no
node is moved or loses a terminal, and two nodes are neighbours just when an edit has joined them.
-/

namespace Schematic

/-! Wires by their points. -/

/-- Whether two valid points of a wire follow each other, and no fault comes before them. -/
def Follow (points : List Value) (p q : Point) : Prop :=
  ∃ before v w after, points = before ++ v :: w :: after ∧
    (∀ u ∈ before, ∃ place, Point.ofValue u = .ok place) ∧
    Point.ofValue v = .ok (some p) ∧ Point.ofValue w = .ok (some q)

theorem Point.trace_of_ok {v : Value} {place : Option Point} (here : ofValue v = .ok place)
    (points : List Value) : (trace (v :: points)).1 = place :: (trace points).1 := by
  rw [trace, here]

theorem Point.trace_of_error {v : Value} {fault : Fault} (here : ofValue v = .error fault)
    (points : List Value) : (trace (v :: points)).1 = [] := by
  rw [trace, here]

theorem prefix_trace_iff {points : List Value} {q : Point} :
    [some q] <+: (Point.trace points).1 ↔
      ∃ w after, points = w :: after ∧ Point.ofValue w = .ok (some q) := by
  cases points with
  | nil => simp [Point.trace]
  | cons w after =>
      cases here : Point.ofValue w with
      | error fault => simp [Point.trace_of_error here, here]
      | ok place => simp [Point.trace_of_ok here, here, eq_comm]

theorem infix_trace_iff {points : List Value} {p q : Point} :
    [some p, some q] <:+: (Point.trace points).1 ↔ Follow points p q := by
  induction points with
  | nil => simp [Point.trace, Follow]
  | cons v points ih =>
      cases here : Point.ofValue v with
      | error fault =>
          rw [Point.trace_of_error here]
          refine iff_of_false (fun joined => absurd joined.length_le (by simp)) ?_
          rintro ⟨before, u, w, after, split, valid, first, _⟩
          cases before with
          | nil =>
              obtain ⟨rfl, _⟩ := List.cons.inj split
              exact nomatch here.symm.trans first
          | cons u' before =>
              obtain ⟨rfl, _⟩ := List.cons.inj split
              obtain ⟨place, valid⟩ := valid v List.mem_cons_self
              exact nomatch here.symm.trans valid
      | ok place =>
          rw [Point.trace_of_ok here, List.infix_cons_iff, List.cons_prefix_cons, prefix_trace_iff,
            ih]
          constructor
          · rintro (⟨rfl, w, after, rfl, second⟩ | ⟨before, u, w, after, rfl, valid, ends⟩)
            · exact ⟨[], v, w, after, rfl, nofun, here, second⟩
            · exact ⟨v :: before, u, w, after, rfl,
                List.forall_mem_cons.2 ⟨⟨place, here⟩, valid⟩, ends⟩
          · rintro ⟨before, u, w, after, split, valid, first, second⟩
            cases before with
            | nil =>
                obtain ⟨rfl, rfl⟩ := List.cons.inj split
                have same := Except.ok.inj (first.symm.trans here)
                exact .inl ⟨same, w, after, rfl, second⟩
            | cons u' before =>
                obtain ⟨rfl, rfl⟩ := List.cons.inj split
                exact .inr ⟨before, u, w, after, rfl, (List.forall_mem_cons.1 valid).2, first,
                  second⟩

namespace Graph

variable {g g' : Graph}

/-! Nodes that stay. -/

/-- Whether the nodes of one graph are nodes of another, with their terminals first. -/
structure Grows (g g' : Graph) : Prop where
  points : g.points <+: g'.points
  terminals : ∀ i, g.terminalsAt i <+: g'.terminalsAt i

theorem Grows.refl (g : Graph) : g.Grows g :=
  ⟨List.prefix_rfl, fun _ => List.prefix_rfl⟩

theorem Grows.trans {g'' : Graph} (first : g.Grows g') (second : g'.Grows g'') : g.Grows g'' :=
  ⟨first.points.trans second.points, fun i => (first.terminals i).trans (second.terminals i)⟩

theorem Grows.getElem? (grows : g.Grows g') {i : Nat} {a : Point} (found : g.points[i]? = some a) :
    g'.points[i]? = some a := by
  obtain ⟨rest, split⟩ := grows.points
  obtain ⟨inRange, rfl⟩ := List.getElem?_eq_some_iff.1 found
  rw [← split, List.getElem?_append_left inRange]
  exact found

theorem Indexed.getElem?_eq_iff (indexed : g.Indexed) {p : Point} (numeric : p.IsNumeric) {k : Nat}
    (located : g.points[k]? = some p.key) {i : Nat} : g.points[i]? = some p.key ↔ i = k := by
  constructor
  · intro found
    obtain ⟨inRange, atK⟩ := List.getElem?_eq_some_iff.1 located
    obtain ⟨inRange', atI⟩ := List.getElem?_eq_some_iff.1 found
    have apart := List.pairwise_iff_getElem.1 indexed.apart
    have here : p.key.coincides p.key = true := (Point.coincides_key_iff numeric).2 rfl
    rcases Nat.lt_trichotomy i k with less | same | more
    · have other := apart i k inRange' inRange less
      rw [atI, atK, here] at other
      cases other
    · exact same
    · have other := apart k i inRange inRange' more
      rw [atI, atK, here] at other
      cases other
  · intro same
    rwa [same]

theorem Indexed.find?_eq_some_iff (indexed : g.Indexed) {p : Point} (numeric : p.IsNumeric)
    {i : Nat} : g.find? p = some i ↔ g.points[i]? = some p.key := by
  refine ⟨indexed.getElem?_of_find?, fun located => ?_⟩
  cases found : g.find? p with
  | none => exact absurd (List.mem_of_getElem? located) (indexed.not_mem_of_find? numeric found)
  | some k =>
      have here := indexed.getElem?_of_find? found
      rw [(indexed.getElem?_eq_iff numeric here).1 located]

/-! What a change does. -/

/-- A change that keeps index and neighbour lists true and all nodes in place, and that joins the
nodes that it is said to, in whatever graph its points are looked up later. -/
structure Advances (g g' : Graph) (links : Graph → Nat → Nat → Prop) : Prop where
  indexed : g'.Indexed
  linked : g'.Linked
  grows : g.Grows g'
  mem_row_iff : ∀ later, later.Indexed → g'.Grows later → ∀ i j : Nat,
    ((j : Int) ∈ g'.row i ↔ (j : Int) ∈ g.row i ∨ links later i j)

theorem Advances.congr {links links' : Graph → Nat → Nat → Prop} (advances : g.Advances g' links)
    (same : ∀ later, later.Indexed → g'.Grows later → ∀ i j,
      (links later i j ↔ links' later i j)) : g.Advances g' links' where
  indexed := advances.indexed
  linked := advances.linked
  grows := advances.grows
  mem_row_iff := fun later indexed grows i j =>
    (advances.mem_row_iff later indexed grows i j).trans
      (or_congr_right (same later indexed grows i j))

theorem Advances.refl (indexed : g.Indexed) (linked : g.Linked) :
    g.Advances g fun _ _ _ => False where
  indexed := indexed
  linked := linked
  grows := .refl g
  mem_row_iff := fun _ _ _ _ _ => (or_iff_left id).symm

theorem Advances.trans {g'' : Graph} {links links' : Graph → Nat → Nat → Prop}
    (first : g.Advances g' links) (second : g'.Advances g'' links') :
    g.Advances g'' fun later i j => links later i j ∨ links' later i j where
  indexed := second.indexed
  linked := second.linked
  grows := first.grows.trans second.grows
  mem_row_iff := by
    intro later indexed grows i j
    rw [second.mem_row_iff later indexed grows,
      first.mem_row_iff later indexed (second.grows.trans grows), or_assoc]

theorem advances_ensure (indexed : g.Indexed) (linked : g.Linked) (p : Point) :
    g.Advances (g.ensure p).2 fun _ _ _ => False where
  indexed := indexed.ensure p
  linked := linked.ensure p
  grows := ⟨points_prefix_ensure g p, fun i => by rw [terminalsAt_ensure]⟩
  mem_row_iff := fun _ _ _ i j => by rw [row_ensure, or_iff_left id]

theorem advances_connect (indexed : g.Indexed) (linked : g.Linked) {a b : Nat} (ha : a < g.size)
    (hb : b < g.size) :
    g.Advances (g.connect a b) fun _ i j => (i = a ∧ j = b) ∨ (i = b ∧ j = a) where
  indexed := indexed.connect a b
  linked := linked.connect ha hb
  grows := ⟨by rw [points_connect], fun i => by rw [terminalsAt_connect]⟩
  mem_row_iff := fun _ _ _ _ _ => linked.mem_row_connect ha hb

theorem advances_hang (indexed : g.Indexed) (linked : g.Linked) {i : Nat} (inRange : i < g.size)
    (t : Terminal) : g.Advances (g.hang i t) fun _ _ _ => False where
  indexed := indexed.hang i t
  linked := linked.hang i t
  grows := by
    refine ⟨by rw [points_hang], fun k => ?_⟩
    rw [terminalsAt_hang g inRange]
    split
    · exact List.prefix_append _ _
    · exact List.prefix_rfl
  mem_row_iff := fun _ _ _ _ _ => (or_iff_left id).symm

/-- Whether a polyline leads straight from the place of one node to that of another. -/
def Bonds (trace : List (Option Point)) (g : Graph) (i j : Nat) : Prop :=
  ∃ a b, g.points[i]? = some a ∧ g.points[j]? = some b ∧ Joins trace a b

theorem bonds_cons_cons {p q : Point} {trace : List (Option Point)} {i j : Nat} :
    Bonds (some q :: some p :: trace) g i j ↔
      ((g.points[i]? = some q.key ∧ g.points[j]? = some p.key) ∨
        (g.points[i]? = some p.key ∧ g.points[j]? = some q.key)) ∨
      Bonds (some p :: trace) g i j := by
  unfold Bonds
  constructor
  · rintro ⟨a, b, atI, atJ, joins⟩
    rcases joins_cons_cons.1 joins with ⟨_, _, ⟨⟩, ⟨⟩, ⟨rfl, rfl⟩ | ⟨rfl, rfl⟩⟩ | later
    · exact .inl (.inl ⟨atI, atJ⟩)
    · exact .inl (.inr ⟨atI, atJ⟩)
    · exact .inr ⟨a, b, atI, atJ, later⟩
  · rintro ((⟨atI, atJ⟩ | ⟨atI, atJ⟩) | ⟨a, b, atI, atJ, joins⟩)
    · exact ⟨_, _, atI, atJ, joins_cons_cons.2 (.inl ⟨q, p, rfl, rfl, .inl ⟨rfl, rfl⟩⟩)⟩
    · exact ⟨_, _, atI, atJ, joins_cons_cons.2 (.inl ⟨q, p, rfl, rfl, .inr ⟨rfl, rfl⟩⟩)⟩
    · exact ⟨a, b, atI, atJ, joins_cons_cons.2 (.inr joins)⟩

theorem advances_addTraceFrom {trace : List (Option Point)} {previous : Option Nat}
    {before : Option Point} (indexed : g.Indexed) (linked : g.Linked)
    (continues : g.Continues previous before)
    (numeric : ∀ p, some p ∈ before :: trace → p.IsNumeric) :
    g.Advances (g.addTraceFrom previous trace) (Bonds (before :: trace)) := by
  induction trace generalizing g previous before with
  | nil =>
      refine (Advances.refl indexed linked).congr fun later _ _ i j => iff_of_false id ?_
      rintro ⟨a, b, _, _, joins⟩
      exact not_joins_singleton _ _ _ joins
  | cons x trace ih =>
      cases x with
      | none =>
          have broken : g.Continues none none := trivial
          have numeric' : ∀ p, some p ∈ none :: trace → p.IsNumeric :=
            fun p member => numeric p (List.mem_cons_of_mem _ member)
          refine (ih indexed linked broken numeric').congr fun later _ _ i j => ?_
          simp only [Bonds, joins_cons_none, joins_none_cons]
      | some p =>
          have numeric' : ∀ q, some q ∈ some p :: trace → q.IsNumeric :=
            fun q member => numeric q (List.mem_cons_of_mem _ member)
          have ensured := advances_ensure indexed linked p
          have located := indexed.getElem?_ensure p
          cases previous with
          | none =>
              cases before with
              | some q => exact continues.elim
              | none =>
                  have onward : (g.ensure p).2.Continues (some (g.ensure p).1) (some p) := located
                  refine (ensured.trans (ih ensured.indexed ensured.linked onward numeric')).congr
                    fun later _ _ i j => ?_
                  simp only [Bonds, joins_none_cons, false_or]
          | some k =>
              cases before with
              | none => exact continues.elim
              | some q =>
                  have here : (g.ensure p).2.points[k]? = some q.key :=
                    ensured.grows.getElem? continues
                  have joined := advances_connect ensured.indexed ensured.linked
                    (lt_size_of_getElem? here) (lt_size_of_getElem? located)
                  have onward : ((g.ensure p).2.connect k (g.ensure p).1).Continues
                      (some (g.ensure p).1) (some p) := by
                    simpa [Continues] using located
                  have rest := ih joined.indexed joined.linked onward numeric'
                  refine ((ensured.trans joined).trans rest).congr fun later indexed grows i j => ?_
                  -- Later, too, the two ends of the new edge are the only nodes at their places.
                  have grown := (joined.grows.trans rest.grows).trans grows
                  have atQ {i : Nat} :=
                    indexed.getElem?_eq_iff (i := i) (numeric q (by simp)) (grown.getElem? here)
                  have atP {i : Nat} :=
                    indexed.getElem?_eq_iff (i := i) (numeric p (by simp)) (grown.getElem? located)
                  rw [bonds_cons_cons, atQ, atP, atP, atQ, false_or]

/-! Edits. -/

inductive Edit
  | ensure (p : Point)
  | wire (points : List Value)
  | pin (component : Value) (p : Pin)
  | connect (a b : Nat)

def edited (g : Graph) : Edit → Graph
  | .ensure p => (g.ensure p).2
  | .wire points => g.addTrace (Point.trace points).1
  | .pin component p =>
    match p.terminal component with
    | .ok (some t) => g.attach t
    | _ => g
  | .connect a b => (g.connect? a b).1

/-- Whether an edit joins nodes that are there, if it joins any by index. -/
def Admits (g : Graph) : Edit → Prop
  | .connect a b => a < g.size ∧ b < g.size
  | _ => True

def AdmitsAll : Graph → List Edit → Prop
  | _, [] => True
  | g, e :: edits => g.Admits e ∧ (g.edited e).AdmitsAll edits

/-- Whether an edit joins two nodes: by their indices, or as the places of two points of a wire. -/
def Edit.Links (g : Graph) (i j : Nat) : Edit → Prop
  | connect a b => (i = a ∧ j = b) ∨ (i = b ∧ j = a)
  | wire points => ∃ p q, Follow points p q ∧
      ((g.points[i]? = some p.key ∧ g.points[j]? = some q.key) ∨
        (g.points[i]? = some q.key ∧ g.points[j]? = some p.key))
  | _ => False

theorem bonds_trace_iff {points : List Value} {i j : Nat} :
    Bonds (Point.trace points).1 g i j ↔ (Edit.wire points).Links g i j := by
  simp only [Bonds, Joins, Edit.Links, infix_trace_iff]
  constructor
  · rintro ⟨_, _, atI, atJ, p, q, follow, ⟨rfl, rfl⟩ | ⟨rfl, rfl⟩⟩
    · exact ⟨p, q, follow, .inl ⟨atI, atJ⟩⟩
    · exact ⟨p, q, follow, .inr ⟨atI, atJ⟩⟩
  · rintro ⟨p, q, follow, ⟨atI, atJ⟩ | ⟨atI, atJ⟩⟩
    · exact ⟨_, _, atI, atJ, p, q, follow, .inl ⟨rfl, rfl⟩⟩
    · exact ⟨_, _, atI, atJ, p, q, follow, .inr ⟨rfl, rfl⟩⟩

theorem isNumeric_of_mem_trace {points : List Value} {p : Point}
    (member : some p ∈ (Point.trace points).1) : p.IsNumeric := by
  induction points with
  | nil => cases member
  | cons v points ih =>
      cases here : Point.ofValue v with
      | error fault =>
          rw [Point.trace_of_error here] at member
          cases member
      | ok place =>
          rw [Point.trace_of_ok here] at member
          rcases List.mem_cons.1 member with rfl | later
          · exact (Point.isRounded_of_ofValue here).isNumeric
          · exact ih later

theorem advances_attach (indexed : g.Indexed) (linked : g.Linked) (t : Terminal) :
    g.Advances (g.attach t) fun _ _ _ => False := by
  have ensured := advances_ensure indexed linked t.place
  have inRange := lt_size_of_getElem? (indexed.getElem?_ensure t.place)
  rw [attach_eq_hang]
  exact (ensured.trans (advances_hang ensured.indexed ensured.linked inRange t)).congr
    fun _ _ _ _ _ => or_self_iff

theorem advances_edited {e : Edit} (indexed : g.Indexed) (linked : g.Linked) (admits : g.Admits e) :
    g.Advances (g.edited e) fun later i j => e.Links later i j := by
  cases e with
  | ensure p => exact advances_ensure indexed linked p
  | wire points =>
      have broken : g.Continues none none := trivial
      refine (advances_addTraceFrom indexed linked broken fun p member => ?_).congr
        fun later _ _ i j => ?_
      · refine isNumeric_of_mem_trace ((List.mem_cons.1 member).resolve_left nofun)
      · rw [← bonds_trace_iff]
        simp only [Bonds, joins_none_cons]
  | pin component p =>
      rw [edited]
      split
      next t _ => exact advances_attach indexed linked t
      next => exact .refl indexed linked
  | connect a b =>
      rw [edited, connect?_of_lt admits.1 admits.2]
      exact advances_connect indexed linked admits.1 admits.2

theorem advances_foldl_edited {edits : List Edit} (indexed : g.Indexed) (linked : g.Linked)
    (admits : g.AdmitsAll edits) :
    g.Advances (edits.foldl edited g) fun later i j => ∃ e ∈ edits, e.Links later i j := by
  induction edits generalizing g with
  | nil =>
      refine (Advances.refl indexed linked).congr fun _ _ _ _ _ => iff_of_false id ?_
      rintro ⟨e, member, _⟩
      cases member
  | cons e edits ih =>
      have first := advances_edited indexed linked admits.1
      refine (first.trans (ih first.indexed first.linked admits.2)).congr fun _ _ _ _ _ => ?_
      rw [List.exists_mem_cons_iff]

/-- A graph that has been edited from the empty one has a true index and true neighbour lists. What
it has it keeps under any further edits, and two of its nodes are neighbours just when one of the
edits has joined them. -/
theorem edits_keep_graph {edits : List Edit} (admits : empty.AdmitsAll edits) :
    (edits.foldl edited empty).Indexed ∧ (edits.foldl edited empty).Linked ∧
    (∀ p i, p.IsNumeric → ((edits.foldl edited empty).find? p = some i ↔
      (edits.foldl edited empty).points[i]? = some p.key)) ∧
    (∀ i j : Nat, (j : Int) ∈ (edits.foldl edited empty).row i ↔
      (i : Int) ∈ (edits.foldl edited empty).row j) ∧
    (∀ i j : Nat, (j : Int) ∈ (edits.foldl edited empty).row i ↔
      ∃ e ∈ edits, e.Links (edits.foldl edited empty) i j) ∧
    ∀ later, (edits.foldl edited empty).AdmitsAll later →
      (edits.foldl edited empty).Grows ((edits ++ later).foldl edited empty) := by
  have advances := advances_foldl_edited indexed_empty linked_empty admits
  generalize reached : edits.foldl edited empty = g at advances ⊢
  refine ⟨advances.indexed, advances.linked, fun p i numeric =>
    advances.indexed.find?_eq_some_iff numeric, fun i j => ?_, fun i j => ?_, fun later more => ?_⟩
  · exact ⟨advances.linked.mem_row_symm, advances.linked.mem_row_symm⟩
  · rw [advances.mem_row_iff g advances.indexed (.refl g)]
    simp [row, empty]
  · rw [List.foldl_append, reached]
    exact (advances_foldl_edited advances.indexed advances.linked more).grows

def brokenWire : List Edit :=
  [.wire [.list [.int 0, .int 0], .null, .list [.int 20, .int 0], .list [.int 40, .int 0]],
    .ensure ⟨.nan, .zero⟩, .connect 2 0, .connect 3 3]

theorem edits_keep_graph_brokenWire :
    empty.AdmitsAll brokenWire ∧ (brokenWire.foldl edited empty).Indexed ∧
      (brokenWire.foldl edited empty).Linked ∧
      (∃ e ∈ brokenWire, e.Links (brokenWire.foldl edited empty) 1 2) ∧
      ¬ ∃ e ∈ brokenWire, e.Links (brokenWire.foldl edited empty) 0 1 := by
  have admits : empty.AdmitsAll brokenWire :=
    ⟨trivial, trivial, ⟨by decide +kernel, by decide +kernel⟩,
      ⟨by decide +kernel, by decide +kernel⟩, trivial⟩
  obtain ⟨indexed, linked, _, _, joined, _⟩ := edits_keep_graph admits
  refine ⟨admits, indexed, linked, (joined 1 2).1 (by decide +kernel), fun links => ?_⟩
  exact absurd ((joined 0 1).2 links) (by decide +kernel)

end Graph

end Schematic
