import Schematic.Junction
import Mathlib.Logic.Relation
import Mathlib.Data.List.Perm.Subperm
/-!
The search through a graph. Where neighbours are mutual, the classes are exactly the connected
components: every node lies in one of them, once, and each begins with its least node.
-/

namespace Schematic.Graph

def Reaches (g : Graph) : Nat → Nat → Prop :=
  Relation.ReflTransGen fun i j => j ∈ g.neighbours i

theorem lt_of_mem_neighbours {g : Graph} {i j : Nat} (member : j ∈ g.neighbours i) :
    j < g.size := by
  obtain ⟨k, _, found⟩ := List.mem_filterMap.1 member
  exact position?_lt found

theorem length_le_of_nodup {nodes : List Nat} {n : Nat} (nodup : nodes.Nodup)
    (bounded : ∀ i ∈ nodes, i < n) : nodes.length ≤ n := by
  have inside : nodes ⊆ List.range n :=
    fun i member => List.mem_range.2 (bounded i member)
  simpa using (List.subperm_of_subset nodup inside).length_le

theorem foldl_push (ns stack seen : List Nat) :
    ∃ fresh, ns.foldl push (stack, seen) = (fresh ++ stack, fresh ++ seen) ∧
      fresh.Nodup ∧ (∀ i ∈ fresh, i ∈ ns ∧ i ∉ seen) ∧ ∀ i ∈ ns, i ∈ fresh ++ seen := by
  induction ns generalizing stack seen with
  | nil => exact ⟨[], by simp⟩
  | cons n ns ih =>
      by_cases known : n ∈ seen
      · obtain ⟨fresh, result, nodup, sound, complete⟩ := ih stack seen
        refine ⟨fresh, ?_, nodup, ?_, ?_⟩
        · rw [List.foldl_cons, push, if_pos known, result]
        · intro i member
          exact ⟨List.mem_cons_of_mem n (sound i member).1, (sound i member).2⟩
        · intro i member
          rcases List.mem_cons.1 member with rfl | member
          · exact List.mem_append_right fresh known
          · exact complete i member
      · obtain ⟨fresh, result, nodup, sound, complete⟩ := ih (n :: stack) (n :: seen)
        refine ⟨fresh ++ [n], ?_, ?_, ?_, ?_⟩
        · rw [List.foldl_cons, push, if_neg known, result]
          simp
        · rw [List.nodup_append]
          refine ⟨nodup, by simp, ?_⟩
          intro i member j single same
          obtain rfl := List.mem_singleton.1 single
          exact (sound i member).2 (same ▸ List.mem_cons_self)
        · intro i member
          rcases List.mem_append.1 member with member | single
          · have outside := (sound i member).2
            exact ⟨List.mem_cons_of_mem n (sound i member).1,
              fun old => outside (List.mem_cons_of_mem n old)⟩
          · obtain rfl := List.mem_singleton.1 single
            exact ⟨List.mem_cons_self, known⟩
        · intro i member
          rw [List.append_assoc]
          rcases List.mem_cons.1 member with rfl | member
          · simp
          · simpa using complete i member

/-- What exploring from a stack yields: the visited nodes, which are the stack and what is freshly
marked. -/
structure Explores (g : Graph) (stack seen order fresh : List Nat) : Prop where
  visited : order.Perm (stack ++ fresh)
  first : order.head? = stack.head?
  nodup : (fresh ++ seen).Nodup
  bounded : ∀ i ∈ fresh, i < g.size
  reached : ∀ i ∈ fresh, ∃ s ∈ stack, g.Reaches s i
  closed : ∀ i ∈ order, ∀ j ∈ g.neighbours i, j ∈ fresh ++ seen

theorem Explores.nil {g : Graph} {seen : List Nat} (nodup : seen.Nodup) :
    g.Explores [] seen [] [] where
  visited := List.Perm.nil
  first := rfl
  nodup := nodup
  bounded := by simp
  reached := by simp
  closed := by simp

theorem Explores.visit {g : Graph} {i : Nat} {stack seen marked order fresh : List Nat}
    (markedFrom : ∀ j ∈ marked, j ∈ g.neighbours i ∧ j ∉ seen)
    (markedAll : ∀ j ∈ g.neighbours i, j ∈ marked ++ seen)
    (rest : g.Explores (marked ++ stack) (marked ++ seen) order fresh) :
    g.Explores (i :: stack) seen (i :: order) (fresh ++ marked) where
  visited := by
    have moved : (marked ++ stack ++ fresh).Perm (stack ++ (fresh ++ marked)) := by
      rw [List.append_assoc]
      exact List.perm_append_comm.trans (by simp)
    exact (rest.visited.trans moved).cons i
  first := rfl
  nodup := by simpa using rest.nodup
  bounded := by
    intro j member
    rcases List.mem_append.1 member with member | member
    · exact rest.bounded j member
    · exact lt_of_mem_neighbours (markedFrom j member).1
  reached := by
    have top : ∀ j ∈ marked, g.Reaches i j :=
      fun j member => Relation.ReflTransGen.single (markedFrom j member).1
    intro j member
    rcases List.mem_append.1 member with member | member
    · obtain ⟨s, inStack, reaches⟩ := rest.reached j member
      rcases List.mem_append.1 inStack with isMarked | inStack
      · exact ⟨i, List.mem_cons_self, (top s isMarked).trans reaches⟩
      · exact ⟨s, List.mem_cons_of_mem i inStack, reaches⟩
    · exact ⟨i, List.mem_cons_self, top j member⟩
  closed := by
    intro k member j neighbour
    rw [List.append_assoc]
    rcases List.mem_cons.1 member with rfl | member
    · exact List.mem_append_right fresh (markedAll j neighbour)
    · exact rest.closed k member j neighbour

/-- The fuel suffices when it covers the stack and everything that is not marked yet. -/
theorem explore_spec (g : Graph) (fuel : Nat) (stack seen : List Nat)
    (nodup : seen.Nodup) (bounded : ∀ i ∈ seen, i < g.size)
    (enough : stack.length + (g.size - seen.length) ≤ fuel) :
    ∃ fresh, (g.explore fuel stack seen).2 = fresh ++ seen ∧
      g.Explores stack seen (g.explore fuel stack seen).1 fresh := by
  -- A marked node moves from the unmarked ones to the stack, so that only visits use up fuel.
  induction fuel generalizing stack seen with
  | zero =>
      obtain rfl : stack = [] := List.eq_nil_of_length_eq_zero (by omega)
      exact ⟨[], rfl, .nil nodup⟩
  | succ fuel ih =>
      cases stack with
      | nil => exact ⟨[], rfl, .nil nodup⟩
      | cons i stack =>
          obtain ⟨marked, result, markedNodup, sound, complete⟩ :=
            foldl_push (g.neighbours i) stack seen
          have nodup' : (marked ++ seen).Nodup := by
            refine List.nodup_append.2 ⟨markedNodup, nodup, ?_⟩
            intro j isMarked k old same
            exact (sound j isMarked).2 (same ▸ old)
          have bounded' : ∀ j ∈ marked ++ seen, j < g.size := by
            intro j member
            rcases List.mem_append.1 member with isMarked | old
            · exact lt_of_mem_neighbours (sound j isMarked).1
            · exact bounded j old
          have room := length_le_of_nodup nodup' bounded'
          have enough' : (marked ++ stack).length +
              (g.size - (marked ++ seen).length) ≤ fuel := by
            simp only [List.length_append, List.length_cons] at enough room ⊢
            omega
          obtain ⟨fresh, seenAfter, rest⟩ :=
            ih (marked ++ stack) (marked ++ seen) nodup' bounded' enough'
          refine ⟨fresh ++ marked, ?_, ?_⟩
          · simp only [explore, result, seenAfter, List.append_assoc]
          · simp only [explore, result]
            exact .visit sound complete rest

def classStep (g : Graph) (state : List (List Nat) × List Nat) (i : Nat) :
    List (List Nat) × List Nat :=
  if i ∈ state.2 then state
  else
    (state.1 ++ [(g.explore g.size [i] (i :: state.2)).1],
      (g.explore g.size [i] (i :: state.2)).2)

theorem classes_eq_foldl (g : Graph) :
    g.classes = ((List.range g.size).foldl g.classStep ([], [])).1 := by
  unfold classes
  congr 2

structure IsClass (g : Graph) (i : Nat) (members : List Nat) : Prop where
  first : members.head? = some i
  mem_iff : ∀ j, j ∈ members ↔ g.Reaches i j
  least : ∀ j ∈ members, i ≤ j

/-- Where the division stands when the nodes below `k` have had their turn. -/
structure Divided (g : Graph) (k : Nat) (classes : List (List Nat)) (seen : List Nat) :
    Prop where
  perm : seen.Perm classes.flatten
  nodup : seen.Nodup
  bounded : ∀ i ∈ seen, i < g.size
  covered : ∀ i < k, i ∈ seen
  closed : ∀ i ∈ seen, ∀ j ∈ g.neighbours i, j ∈ seen
  isClass : ∀ c ∈ classes, ∃ i < k, g.IsClass i c
  ordered : classes.Pairwise fun b c => ∀ i ∈ b.head?, ∀ j ∈ c.head?, i < j

def IsUndirected (g : Graph) : Prop :=
  ∀ i j, j ∈ g.neighbours i → i ∈ g.neighbours j

theorem Divided.empty (g : Graph) : g.Divided 0 [] [] where
  perm := List.Perm.nil
  nodup := List.nodup_nil
  bounded := by simp
  covered := by simp
  closed := by simp
  isClass := by simp
  ordered := List.Pairwise.nil

theorem Divided.skip {g : Graph} {k : Nat} {classes : List (List Nat)} {seen : List Nat}
    (divided : g.Divided k classes seen) (known : k ∈ seen) :
    g.Divided (k + 1) classes seen where
  perm := divided.perm
  nodup := divided.nodup
  bounded := divided.bounded
  covered := by
    intro i below
    rcases Nat.lt_succ_iff_lt_or_eq.1 below with below | rfl
    · exact divided.covered i below
    · exact known
  closed := divided.closed
  isClass := by
    intro c member
    obtain ⟨i, below, isClass⟩ := divided.isClass c member
    exact ⟨i, Nat.lt_succ_of_lt below, isClass⟩
  ordered := divided.ordered

/-- A search from an unseen node finds its whole component: no neighbour of a new node is old,
because neighbours are mutual and the old nodes are closed. -/
theorem Divided.isClass_explored {g : Graph} {k : Nat} {classes : List (List Nat)}
    {seen order fresh : List Nat} (undirected : g.IsUndirected)
    (divided : g.Divided k classes seen)
    (explored : g.Explores [k] (k :: seen) order fresh) :
    g.IsClass k order := by
  have inOrder : ∀ j, j ∈ order ↔ j = k ∨ j ∈ fresh := by
    intro j
    rw [explored.visited.mem_iff]
    simp
  have outside : ∀ j ∈ order, j ∉ seen := by
    have nodup : (fresh ++ k :: seen).Nodup := explored.nodup
    have disjoint := (List.nodup_append.1 nodup).2.2
    intro j member old
    rcases (inOrder j).1 member with rfl | isFresh
    · exact (List.nodup_cons.1 (List.nodup_append.1 nodup).2.1).1 old
    · exact disjoint j isFresh j (List.mem_cons_of_mem k old) rfl
  refine ⟨explored.first, ?_, ?_⟩
  · intro j
    constructor
    · intro member
      rcases (inOrder j).1 member with rfl | isFresh
      · exact Relation.ReflTransGen.refl
      · obtain ⟨s, inStack, reaches⟩ := explored.reached j isFresh
        obtain rfl := List.mem_singleton.1 inStack
        exact reaches
    · intro reaches
      induction reaches with
      | refl => exact (inOrder k).2 (.inl rfl)
      | @tail i j _ neighbour ih =>
          have found := explored.closed i ih j neighbour
          rcases List.mem_append.1 found with isFresh | marked
          · exact (inOrder j).2 (.inr isFresh)
          · rcases List.mem_cons.1 marked with rfl | old
            · exact (inOrder j).2 (.inl rfl)
            · exact absurd (divided.closed j old i (undirected i j neighbour))
                (outside i ih)
  · intro j member
    exact Nat.le_of_not_lt fun below => outside j member (divided.covered j below)

theorem Divided.add {g : Graph} {k : Nat} {classes : List (List Nat)}
    {seen order fresh : List Nat} (undirected : g.IsUndirected) (inRange : k < g.size)
    (divided : g.Divided k classes seen)
    (explored : g.Explores [k] (k :: seen) order fresh) :
    g.Divided (k + 1) (classes ++ [order]) (fresh ++ k :: seen) where
  perm := by
    have found : (fresh ++ [k]).Perm order :=
      List.perm_append_comm.trans explored.visited.symm
    have all := (found.append divided.perm).trans List.perm_append_comm
    simpa using all
  nodup := explored.nodup
  bounded := by
    intro i member
    rcases List.mem_append.1 member with isFresh | member
    · exact explored.bounded i isFresh
    · rcases List.mem_cons.1 member with rfl | old
      · exact inRange
      · exact divided.bounded i old
  covered := by
    intro i below
    rcases Nat.lt_succ_iff_lt_or_eq.1 below with below | rfl
    · simp [divided.covered i below]
    · simp
  closed := by
    have inOrder : ∀ i, i = k ∨ i ∈ fresh → i ∈ order := by
      intro i member
      rw [explored.visited.mem_iff]
      simpa using member
    intro i member j neighbour
    rcases List.mem_append.1 member with isFresh | member
    · exact explored.closed i (inOrder i (.inr isFresh)) j neighbour
    · rcases List.mem_cons.1 member with rfl | old
      · exact explored.closed i (inOrder i (.inl rfl)) j neighbour
      · simp [divided.closed i old j neighbour]
  isClass := by
    intro c member
    rcases List.mem_append.1 member with member | single
    · obtain ⟨i, below, isClass⟩ := divided.isClass c member
      exact ⟨i, Nat.lt_succ_of_lt below, isClass⟩
    · obtain rfl := List.mem_singleton.1 single
      exact ⟨k, Nat.lt_succ_self k, divided.isClass_explored undirected explored⟩
  ordered := by
    refine List.pairwise_append.2 ⟨divided.ordered, List.pairwise_singleton _ _, ?_⟩
    intro b member c single i isFirst j isNext
    obtain rfl := List.mem_singleton.1 single
    obtain ⟨i', below, isClass⟩ := divided.isClass b member
    rw [isClass.first] at isFirst
    rw [explored.first] at isNext
    cases isFirst
    cases isNext
    exact below

theorem divided_range (g : Graph) (undirected : g.IsUndirected) (k : Nat)
    (inRange : k ≤ g.size) :
    g.Divided k ((List.range k).foldl g.classStep ([], [])).1
      ((List.range k).foldl g.classStep ([], [])).2 := by
  induction k with
  | zero => exact .empty g
  | succ k ih =>
      have divided := ih (Nat.le_of_succ_le inRange)
      rw [List.range_succ, List.foldl_append]
      generalize (List.range k).foldl g.classStep ([], []) = state at divided ⊢
      change g.Divided (k + 1) (g.classStep state k).1 (g.classStep state k).2
      by_cases known : k ∈ state.2
      · rw [classStep, if_pos known]
        exact divided.skip known
      · have nodup : (k :: state.2).Nodup := List.nodup_cons.2 ⟨known, divided.nodup⟩
        have bounded : ∀ i ∈ k :: state.2, i < g.size := by
          intro i member
          rcases List.mem_cons.1 member with rfl | old
          · exact inRange
          · exact divided.bounded i old
        have room := length_le_of_nodup nodup bounded
        obtain ⟨fresh, seenAfter, explored⟩ :=
          g.explore_spec g.size [k] (k :: state.2) nodup bounded (by
            simp only [List.length_cons, List.length_nil] at room ⊢
            omega)
        rw [classStep, if_neg known]
        simp only [seenAfter]
        exact divided.add undirected inRange explored

/-- The classes of a graph are its connected components, in the order of their least nodes. -/
theorem classes_divided (g : Graph) (undirected : g.IsUndirected) :
    ∃ seen, g.Divided g.size g.classes seen := by
  rw [classes_eq_foldl]
  exact ⟨_, g.divided_range undirected g.size (Nat.le_refl _)⟩

end Schematic.Graph
