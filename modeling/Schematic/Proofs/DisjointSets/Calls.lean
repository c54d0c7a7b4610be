import Schematic.Proofs.DisjointSets
import Schematic.Proofs.Entries
import Mathlib.Data.List.Lattice
/-!
Runs of calls on disjoint sets: after any of them, the classes are those of the pairs that have been
united, and every class has one representative, which it keeps until it is united behind another.
-/

namespace Schematic.DisjointSets

/-! The walk to a representative. -/

/-- From which node with which parents the walk up leads to which root, and what it makes of the
parents: every node that it stands on is pointed at its grandparent, on which it stands next. -/
inductive Walks : Array Nat → Nat → Nat → Array Nat → Prop
  | stop {parent i} (top : parent[i]? = some i) : Walks parent i i parent
  | move {parent i p g r parent'} (up : parent[i]? = some p) (below : p ≠ i)
      (further : parent[p]? = some g) (onward : Walks (parent.setIfInBounds i g) g r parent') :
      Walks parent i r parent'

variable {parent : Array Nat} {i j k r : Nat}

theorem getElem?_eq_getD (inRange : i < parent.size) : parent[i]? = some (parent.getD i i) := by
  rw [Array.getD_eq_getD_getElem?, Array.getElem?_eq_getElem inRange, Option.getD_some]

theorem walks_climb {fuel : Nat} (bounded : ∀ j < parent.size, parent.getD j j < parent.size)
    (climbs : Climbs parent k i r) (enough : k ≤ fuel) (inRange : i < parent.size) :
    Walks parent i (climb fuel parent i).1 (climb fuel parent i).2 := by
  induction fuel generalizing parent i k with
  | zero =>
      obtain rfl := Nat.le_zero.1 enough
      cases climbs with
      | root top => exact .stop ((getElem?_eq_getD inRange).trans (congrArg some top))
  | succ fuel ih =>
      rw [climb]
      cases climbs with
      | root top =>
          rw [if_pos top]
          exact .stop ((getElem?_eq_getD inRange).trans (congrArg some top))
      | @step k _ _ below onward =>
          have here : Climbs parent (k + 1) i r := .step below onward
          obtain ⟨m, le, there⟩ := onward.exists_grandparent
          obtain ⟨m', le', climbs⟩ := here.redirect there (Nat.lt_succ_of_le le) there
          have above := bounded i inRange
          have inRange' := bounded _ above
          rw [if_neg below]
          refine .move (getElem?_eq_getD inRange) below (getElem?_eq_getD above) ?_
          exact ih (bounded_setIfInBounds bounded inRange') climbs (by omega)
            (by simpa using inRange')

variable {s t u : DisjointSets}

/-- Whether looking up an element ends, with the root and the parents of the walk. -/
def Ends (s : DisjointSets) (i : Nat) : Prop :=
  Walks s.parent i (s.find i).1 (s.find i).2.parent

theorem IsForest.ends (forest : s.IsForest) (inRange : i < s.size) : s.Ends i := by
  obtain ⟨k, climbs⟩ := forest.climbs_rep i
  exact walks_climb forest.bounded climbs (climbs.lt_size forest.bounded inRange).le inRange

/-! What keeps the classes. -/

structure Keeps (s t : DisjointSets) : Prop where
  forest : t.IsForest
  size : t.size = s.size
  rep : t.rep = s.rep

theorem Keeps.refl (forest : s.IsForest) : s.Keeps s :=
  ⟨forest, rfl, rfl⟩

theorem Keeps.trans (first : s.Keeps t) (second : t.Keeps u) : s.Keeps u :=
  ⟨second.forest, second.size.trans first.size, second.rep.trans first.rep⟩

theorem keeps_find (forest : s.IsForest) (i : Nat) : s.Keeps (s.find i).2 :=
  ⟨forest.find i, size_find s i, funext fun j => forest.rep_find i j⟩

theorem keeps_foldl_find (forest : s.IsForest) (xs : List Nat) :
    s.Keeps (xs.foldl (fun s i => (s.find i).2) s) := by
  induction xs generalizing s with
  | nil => exact .refl forest
  | cons x xs ih => exact (keeps_find forest x).trans (ih (forest.find x))

theorem keeps_connected (forest : s.IsForest) (a b : Nat) : s.Keeps (s.connected a b).2 :=
  (keeps_find forest a).trans (keeps_find (forest.find a) b)

theorem IsForest.connected_iff (forest : s.IsForest) (a b : Nat) :
    (s.connected a b).1 = true ↔ s.rep a = s.rep b := by
  change (s.rep a == (s.find a).2.rep b) = true ↔ _
  rw [forest.rep_find, beq_iff_eq]

/-! The classes in order. -/

theorem foldl_gather_find (forest : s.IsForest) (xs : List Nat) (es : Entries Nat (List Nat)) :
    s.Keeps (xs.foldl (fun (es, s) i => let (root, s) := s.find i
        (Entries.put es root ((Entries.get? es root).getD [] ++ [i]), s)) (es, s)).2 ∧
      (xs.foldl (fun (es, s) i => let (root, s) := s.find i
          (Entries.put es root ((Entries.get? es root).getD [] ++ [i]), s)) (es, s)).1 =
        xs.foldl (fun es i => Entries.put es (s.rep i) ((Entries.get? es (s.rep i)).getD [] ++ [i]))
          es := by
  induction xs generalizing s es with
  | nil => exact ⟨.refl forest, rfl⟩
  | cons x xs ih =>
      have first := keeps_find forest x
      obtain ⟨later, gathered⟩ := ih first.forest
        (Entries.put es (s.rep x) ((Entries.get? es (s.rep x)).getD [] ++ [x]))
      rw [first.rep] at gathered
      exact ⟨first.trans later, gathered⟩

theorem keeps_groups (forest : s.IsForest) : s.Keeps s.groups.2 :=
  (foldl_gather_find forest _ _).1

theorem IsForest.groups_eq (forest : s.IsForest) :
    s.groups.1 = (firstsBy s.rep (List.range s.size)).map fun i =>
      (s.rep i, (List.range s.size).filter (s.rep · == s.rep i)) :=
  (foldl_gather_find forest _ _).2.trans (foldl_gather s.rep _)

/-- Lists of the indices below `n` with one representative, in order: each under that
representative, in the order of their first members. -/
structure ListsClasses (n : Nat) (rep : Nat → Nat) (classes : Entries Nat (List Nat)) : Prop where
  keys : (classes.map (·.1)).Nodup
  key_mem : ∀ e ∈ classes, e.1 ∈ e.2
  members : ∀ e ∈ classes, ∀ i, i ∈ e.2 ↔ i < n ∧ rep i = e.1
  increasing : ∀ e ∈ classes, e.2.Pairwise (· < ·)
  firsts : classes.Pairwise fun e f => ∀ i ∈ e.2.head?, ∀ j ∈ f.2.head?, i < j
  covers : (classes.flatMap (·.2)).Perm (List.range n)

theorem IsForest.rep_rep (forest : s.IsForest) (i : Nat) : s.rep (s.rep i) = s.rep i := by
  obtain ⟨k, climbs⟩ := forest.climbs_rep i
  exact forest.rep_eq (.root climbs.top)

theorem IsForest.listsClasses_groups (forest : s.IsForest) :
    ListsClasses s.size s.rep s.groups.1 := by
  have listed {e : Nat × List Nat} (member : e ∈ s.groups.1) :
      ∃ i ∈ firstsBy s.rep (List.range s.size),
        (s.rep i, (List.range s.size).filter (s.rep · == s.rep i)) = e := by
    rw [forest.groups_eq] at member
    exact List.mem_map.1 member
  have members : ∀ e ∈ s.groups.1, ∀ i, i ∈ e.2 ↔ i < s.size ∧ s.rep i = e.1 := by
    intro e member i
    obtain ⟨j, _, rfl⟩ := listed member
    rw [List.mem_filter, List.mem_range, beq_iff_eq]
  have increasing : ∀ e ∈ s.groups.1, e.2.Pairwise (· < ·) := by
    intro e member
    obtain ⟨j, _, rfl⟩ := listed member
    exact List.pairwise_lt_range.filter _
  have keys : (s.groups.1.map (·.1)).Nodup := by
    rw [forest.groups_eq, List.map_map]
    exact nodup_map_firstsBy s.rep _
  refine ⟨keys, ?_, members, increasing, ?_, ?_⟩
  · intro e member
    rw [members e member]
    obtain ⟨i, first, rfl⟩ := listed member
    have inRange := List.mem_range.1 ((firstsBy_sublist s.rep _).subset first)
    exact ⟨forest.rep_lt inRange, forest.rep_rep i⟩
  · -- The first member of a class is the one under which it was gathered.
    have head : ∀ i ∈ firstsBy s.rep (List.range s.size),
        ((List.range s.size).filter (s.rep · == s.rep i)).head? = some i := by
      intro i first
      rw [List.head?_filter]
      exact (mem_firstsBy s.rep).1 first
    have ordered : (firstsBy s.rep (List.range s.size)).Pairwise (· < ·) :=
      List.pairwise_lt_range.sublist (firstsBy_sublist s.rep _)
    rw [forest.groups_eq, List.pairwise_map]
    refine ordered.imp_of_mem fun {i j} firstI firstJ less => ?_
    rw [head i firstI, head j firstJ]
    intro i' sameI j' sameJ
    obtain rfl := Option.some.inj sameI
    obtain rfl := Option.some.inj sameJ
    exact less
  · have apart : (s.groups.1.flatMap (·.2)).Nodup := by
      refine List.nodup_flatMap.2 ⟨fun e member => (increasing e member).nodup, ?_⟩
      refine (List.pairwise_map.1 keys).imp_of_mem fun {e f} memberE memberF other i inE inF => ?_
      have keyE := ((members e memberE i).1 inE).2
      have keyF := ((members f memberF i).1 inF).2
      exact other (keyE.symm.trans keyF)
    refine (List.perm_ext_iff_of_nodup apart List.nodup_range).2 fun i => ?_
    rw [List.mem_flatMap, List.mem_range]
    constructor
    · intro ⟨e, member, within⟩
      exact ((members e member i).1 within).1
    · intro inRange
      have present : (firstsBy s.rep (List.range s.size)).any (s.rep · == s.rep i) = true := by
        rw [any_firstsBy]
        exact List.any_eq_true.2 ⟨i, List.mem_range.2 inRange, beq_self_eq_true _⟩
      obtain ⟨j, first, same⟩ := List.any_eq_true.1 present
      have member : (s.rep j, (List.range s.size).filter (s.rep · == s.rep j)) ∈ s.groups.1 := by
        rw [forest.groups_eq]
        exact List.mem_map_of_mem first
      exact ⟨_, member, (members _ member i).2 ⟨inRange, (eq_of_beq same).symm⟩⟩

/-! Calls. -/

inductive Call (n : Nat)
  | find (i : Fin n)
  | union (a b : Fin n)
  | connected (a b : Fin n)
  | groups
  deriving DecidableEq

variable {n : Nat} {calls later : List (Call n)}

def Call.act (s : DisjointSets) : Call n → DisjointSets
  | find i => (s.find i).2
  | union a b => (s.union a b).2
  | connected a b => (s.connected a b).2
  | groups => s.groups.2

def Call.Ends (s : DisjointSets) : Call n → Prop
  | find i => s.Ends i
  | union a b => s.Ends a ∧ (s.find a).2.Ends b
  | connected a b => s.Ends a ∧ (s.find a).2.Ends b
  | groups => ∀ i < n, ((List.range i).foldl (fun s j => (s.find j).2) s).Ends i

def after (calls : List (Call n)) : DisjointSets :=
  calls.foldl Call.act (ofSize n)

/-- Whether some call has united two elements. -/
def Unites (calls : List (Call n)) (i j : Nat) : Prop :=
  ∃ a b : Fin n, .union a b ∈ calls ∧ i = a ∧ j = b

/-- Whether the pairs that have been united make two elements equivalent. -/
def Related (calls : List (Call n)) : Nat → Nat → Prop :=
  Relation.EqvGen (Unites calls)

/-- What holds of the sets after a run of calls. -/
structure Serves (calls : List (Call n)) (s : DisjointSets) : Prop where
  forest : s.IsForest
  size : s.size = n
  same : ∀ i j, s.rep i = s.rep j ↔ Related calls i j

theorem serves_ofSize (n : Nat) : Serves ([] : List (Call n)) (ofSize n) where
  forest := isForest_ofSize n
  size := size_ofSize n
  same := by
    intro i j
    rw [rep_ofSize, rep_ofSize]
    constructor
    · intro same
      exact same ▸ .refl i
    · refine eq_of_eqvGen (v := id) fun i j united => ?_
      obtain ⟨a, b, called, _⟩ := united
      cases called

theorem Related.append (related : Related calls i j) (later : List (Call n)) :
    Related (calls ++ later) i j := by
  refine Relation.EqvGen.mono (fun i j united => ?_) i j related
  obtain ⟨a, b, called, first, second⟩ := united
  exact ⟨a, b, List.mem_append_left _ called, first, second⟩

theorem Serves.keeps (serves : Serves calls s) (keeps : s.Keeps t) {c : Call n}
    (no : ∀ a b, c ≠ .union a b) : Serves (calls ++ [c]) t where
  forest := keeps.forest
  size := keeps.size.trans serves.size
  same := by
    intro i j
    rw [keeps.rep, serves.same]
    refine ⟨fun related => related.append [c], ?_⟩
    refine Relation.EqvGen.mono (fun i j united => ?_) i j
    obtain ⟨a, b, called, first, second⟩ := united
    rcases List.mem_append.1 called with old | new
    · exact ⟨a, b, old, first, second⟩
    · exact absurd (List.mem_singleton.1 new).symm (no a b)

theorem Serves.union (serves : Serves calls s) (a b : Fin n) :
    Serves (calls ++ [.union a b]) (s.union a b).2 := by
  have inRangeA : (a : Nat) < s.size := serves.size.symm ▸ a.isLt
  have inRangeB : (b : Nat) < s.size := serves.size.symm ▸ b.isLt
  have united {i j : Nat} := serves.forest.rep_union_eq_iff (i := i) (j := j) inRangeA inRangeB
  have joined : Related (calls ++ [.union a b]) a b :=
    .rel _ _ ⟨a, b, List.mem_append_right _ (List.mem_singleton_self _), rfl, rfl⟩
  have kept {i j : Nat} (same : s.rep i = s.rep j) : Related (calls ++ [.union a b]) i j :=
    ((serves.same i j).1 same).append _
  refine ⟨(serves.forest.union_spec inRangeA inRangeB).1, ?_, fun i j => ⟨fun same => ?_, ?_⟩⟩
  · rw [size_union, serves.size]
  · rcases united.1 same with old | ⟨left, right⟩ | ⟨left, right⟩
    · exact kept old
    · exact (kept left).trans _ _ _ (joined.trans _ _ _ (kept right.symm))
    · exact (kept left).trans _ _ _ (joined.symm.trans _ _ _ (kept right.symm))
  · refine eq_of_eqvGen fun i j ⟨c, d, called, first, second⟩ => united.2 ?_
    subst first second
    rcases List.mem_append.1 called with old | new
    · exact .inl ((serves.same c d).2 (.rel _ _ ⟨c, d, old, rfl, rfl⟩))
    · obtain ⟨rfl, rfl⟩ := Call.union.inj (List.mem_singleton.1 new)
      exact .inr (.inl ⟨rfl, rfl⟩)

theorem Serves.act (serves : Serves calls s) (c : Call n) : Serves (calls ++ [c]) (c.act s) := by
  cases c with
  | find i => exact serves.keeps (keeps_find serves.forest i) nofun
  | union a b => exact serves.union a b
  | connected a b => exact serves.keeps (keeps_connected serves.forest a b) nofun
  | groups => exact serves.keeps (keeps_groups serves.forest) nofun

theorem after_append (calls later : List (Call n)) :
    after (calls ++ later) = later.foldl Call.act (after calls) :=
  List.foldl_append

theorem serves_after (calls : List (Call n)) : Serves calls (after calls) := by
  induction calls using List.reverseRecOn with
  | nil => exact serves_ofSize n
  | append_singleton calls c ih =>
      rw [after_append]
      exact ih.act c

theorem Serves.ends (serves : Serves calls s) (c : Call n) : c.Ends s := by
  have still {t : DisjointSets} (keeps : s.Keeps t) (i : Fin n) : t.Ends i :=
    keeps.forest.ends (keeps.size.trans serves.size ▸ i.isLt)
  have each (a b : Fin n) : s.Ends a ∧ (s.find a).2.Ends b :=
    ⟨still (.refl serves.forest) a, still (keeps_find serves.forest a) b⟩
  cases c with
  | find i => exact still (.refl serves.forest) i
  | union a b => exact each a b
  | connected a b => exact each a b
  | groups => exact fun i inRange => still (keeps_foldl_find serves.forest _) ⟨i, inRange⟩

/-! The representative of a class. -/

def Leads (calls : List (Call n)) (i : Nat) (later : List (Call n)) : Prop :=
  ∀ before (a b : Fin n) rest, later = before ++ .union a b :: rest →
    Related (calls ++ before) i b → Related (calls ++ before) i a

theorem rep_act_of_leads {c : Call n} (serves : Serves calls s) (leads : Leads calls i [c]) :
    (c.act s).rep i = s.rep i := by
  cases c with
  | find i => exact congrFun (keeps_find serves.forest i).rep _
  | connected a b => exact congrFun (keeps_connected serves.forest a b).rep _
  | groups => exact congrFun (keeps_groups serves.forest).rep _
  | union a b =>
      have inRangeA : (a : Nat) < s.size := serves.size.symm ▸ a.isLt
      have inRangeB : (b : Nat) < s.size := serves.size.symm ▸ b.isLt
      refine ((serves.forest.union_spec inRangeA inRangeB).2 i).trans ?_
      split
      next behind =>
        have related := leads [] a b [] rfl (by simpa using (serves.same i b).1 behind)
        exact ((serves.same i a).2 (by simpa using related)).symm
      next => rfl

theorem Leads.rep_after (leads : Leads calls i later) :
    (after (calls ++ later)).rep i = (after calls).rep i := by
  induction later using List.reverseRecOn with
  | nil => rw [List.append_nil]
  | append_singleton later c ih =>
      have earlier : Leads calls i later := fun before a b rest split =>
        leads before a b (rest ++ [c]) (by rw [split]; simp)
      have last : Leads (calls ++ later) i [c] := by
        intro before a b rest split
        rw [List.append_assoc]
        exact leads (later ++ before) a b rest (by rw [split]; simp)
      rw [← List.append_assoc, after_append]
      exact (rep_act_of_leads (serves_after _) last).trans (ih earlier)

/-! All calls. -/

/-- After any run of calls every further call ends, and two elements have one representative just
when the united pairs make them equivalent. A class that is united before another keeps its
representative until it is united behind one. -/
theorem calls_keep_partition (calls : List (Call n)) :
    (∀ c : Call n, c.Ends (after calls)) ∧
    (∀ a b : Fin n, ((after calls).connected a b).1 = true ↔ Related calls a b) ∧
    (∀ a b : Fin n, (((after calls).find a).1 = ((after calls).find b).1 ↔ Related calls a b) ∧
      (((after calls).find a).2.find b).1 = ((after calls).find b).1) ∧
    (∀ a b : Fin n, ((after calls).union a b).1 = ((after calls).find a).1 ∧
      ∀ later, Leads (calls ++ [.union a b]) a later → ∀ i : Fin n,
        Related (calls ++ .union a b :: later) a i →
        ((after (calls ++ .union a b :: later)).find i).1 = ((after calls).find a).1) ∧
    ListsClasses n (fun i => ((after calls).find i).1) (after calls).groups.1 := by
  have serves := serves_after calls
  have inRange (i : Fin n) : (i : Nat) < (after calls).size := serves.size.symm ▸ i.isLt
  refine ⟨serves.ends, fun a b => ?_, fun a b => ?_,
    fun a b => ⟨rfl, fun later leads i related => ?_⟩, ?_⟩
  · rw [serves.forest.connected_iff, serves.same]
  · exact ⟨serves.same a b, serves.forest.rep_find a b⟩
  · have united := (serves.forest.union_spec (inRange a) (inRange b)).2 a
    rw [ite_self] at united
    calc
      (after (calls ++ .union a b :: later)).rep i
        = (after (calls ++ .union a b :: later)).rep a :=
          (((serves_after _).same a i).2 related).symm
      _ = (after (calls ++ [.union a b])).rep a := by
          rw [List.append_cons]
          exact leads.rep_after
      _ = (after calls).rep a := by
          rw [after_append]
          exact united
  · have listed := serves.forest.listsClasses_groups
    rw [serves.size] at listed
    exact listed

theorem calls_keep_partition_threeUnions :
    Leads (n := 4) [.union 2 3, .union 0 3] 0 [.connected 1 3, .union 0 1, .groups] ∧
      Related (n := 4) [.union 2 3, .union 0 3, .connected 1 3, .union 0 1, .groups] 0 2 ∧
      ((after (n := 4) [.union 2 3, .union 0 3, .connected 1 3, .union 0 1, .groups]).find 2).1 =
        ((after (n := 4) [.union 2 3]).find 0).1 := by
  have leads : Leads (n := 4) [.union 2 3, .union 0 3] 0 [.connected 1 3, .union 0 1, .groups] := by
    intro before a b rest split _
    have called : Call.union a b ∈ [Call.connected 1 3, .union 0 1, .groups] := by
      rw [split]
      exact List.mem_append_right _ List.mem_cons_self
    obtain ⟨rfl, rfl⟩ : a = 0 ∧ b = 1 := by simpa using called
    exact .refl 0
  have related : Related (n := 4)
      [.union 2 3, .union 0 3, .connected 1 3, .union 0 1, .groups] 0 2 := by
    have first : Unites (n := 4)
        [.union 2 3, .union 0 3, .connected 1 3, .union 0 1, .groups] 2 3 :=
      ⟨2, 3, by decide, rfl, rfl⟩
    have second : Unites (n := 4)
        [.union 2 3, .union 0 3, .connected 1 3, .union 0 1, .groups] 0 3 :=
      ⟨0, 3, by decide, rfl, rfl⟩
    exact (Relation.EqvGen.rel _ _ second).trans _ _ _ (Relation.EqvGen.rel _ _ first).symm
  have leader := ((calls_keep_partition (n := 4) [.union 2 3]).2.2.2.1 0 3).2 _ leads 2 related
  exact ⟨leads, related, leader⟩

end Schematic.DisjointSets
