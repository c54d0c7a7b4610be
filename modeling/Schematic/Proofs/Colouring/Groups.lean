import Schematic.Colouring
import Schematic.Proofs.DisjointSets
import Schematic.Proofs.Naming.Labels
import Mathlib.Logic.Relation
/-!
Groups of nets for colouring: two nets are in one group just when a chain of nets, each with a label
in common with the next, leads from one to the other.
-/

namespace Schematic

namespace Colouring

abbrev Mark := Nat × String

def Shares (marks : List Mark) (i j : Nat) : Prop :=
  ∃ k, (i, k) ∈ marks ∧ (j, k) ∈ marks

structure Groups (count : Nat) (marks : List Mark) (state : DisjointSets × Entries String Nat) :
    Prop where
  forest : state.1.IsForest
  size : state.1.size = count
  owner : ∀ k, state.2.get? k = (marks.find? (·.2 == k)).map (·.1)
  same : ∀ i j, state.1.rep i = state.1.rep j ↔ Relation.EqvGen (Shares marks) i j

variable {count : Nat} {marks : List Mark} {state : DisjointSets × Entries String Nat} {c : Mark}

theorem groups_nil (count : Nat) : Groups count [] (.ofSize count, []) where
  forest := DisjointSets.isForest_ofSize count
  size := DisjointSets.size_ofSize count
  owner := fun _ => rfl
  same := by
    intro i j
    rw [DisjointSets.rep_ofSize, DisjointSets.rep_ofSize]
    constructor
    · rintro rfl
      exact .refl i
    · refine eq_of_eqvGen (v := id) fun i j shared => ?_
      obtain ⟨k, inMarks, _⟩ := shared
      cases inMarks

theorem Shares.append {i j : Nat} (shared : Shares marks i j) : Shares (marks ++ [c]) i j := by
  obtain ⟨k, left, right⟩ := shared
  exact ⟨k, List.mem_append_left _ left, List.mem_append_left _ right⟩

theorem eqvGen_append {i j : Nat} (chain : Relation.EqvGen (Shares marks) i j) :
    Relation.EqvGen (Shares (marks ++ [c])) i j :=
  Relation.EqvGen.mono (fun _ _ shared => Shares.append shared) i j chain

theorem Groups.joinKey_new (groups : Groups count marks state)
    (new : state.2.get? c.2 = none) : Groups count (marks ++ [c]) (joinKey c.1 state c.2) := by
  have absent : marks.find? (·.2 == c.2) = none := by
    rw [groups.owner, Option.map_eq_none_iff] at new
    exact new
  have fresh : ∀ m ∈ marks, m.2 ≠ c.2 := by
    intro m member same
    exact List.find?_eq_none.1 absent m member (beq_iff_eq.2 same)
  have step : joinKey c.1 state c.2 = (state.1, state.2.put c.2 c.1) := by
    rw [joinKey, new]
  rw [step]
  refine ⟨groups.forest, groups.size, fun k => ?_, fun i j => ⟨fun same => ?_, ?_⟩⟩
  · rw [Entries.get?_put (Entries.isExact k), groups.owner, List.find?_append, List.find?_singleton]
    by_cases here : c.2 = k
    · subst here
      rw [absent, if_pos (beq_self_eq_true _), if_pos (beq_self_eq_true _)]
      rfl
    · rw [if_neg fun h => here (eq_of_beq h), if_neg fun h => here (eq_of_beq h), Option.or_none]
  · exact eqvGen_append ((groups.same i j).1 same)
  · refine eq_of_eqvGen fun i j shared => ?_
    obtain ⟨k, left, right⟩ := shared
    rcases List.mem_append.1 left with oldI | newI <;>
      rcases List.mem_append.1 right with oldJ | newJ
    · exact (groups.same i j).2 (.rel _ _ ⟨k, oldI, oldJ⟩)
    · exact absurd (congrArg Prod.snd (List.mem_singleton.1 newJ)) (fresh (i, k) oldI)
    · exact absurd (congrArg Prod.snd (List.mem_singleton.1 newI)) (fresh (j, k) oldJ)
    · have one := (List.mem_singleton.1 newI).trans (List.mem_singleton.1 newJ).symm
      rw [(Prod.mk.inj one).1]

theorem Groups.joinKey_known (groups : Groups count marks state)
    (bounded : ∀ m ∈ marks ++ [c], m.1 < count) {owner : Nat}
    (known : state.2.get? c.2 = some owner) :
    Groups count (marks ++ [c]) (joinKey c.1 state c.2) := by
  obtain ⟨m, found, rfl⟩ : ∃ m, marks.find? (·.2 == c.2) = some m ∧ m.1 = owner := by
    rw [groups.owner] at known
    exact Option.map_eq_some_iff.1 known
  have led := List.mem_of_find?_eq_some found
  have key : m.2 = c.2 := eq_of_beq (List.find?_some (p := fun m : Mark => m.2 == c.2) found)
  have inRangeC : c.1 < state.1.size := groups.size ▸ bounded c (by simp)
  have inRangeM : m.1 < state.1.size := groups.size ▸ bounded m (List.mem_append_left _ led)
  have step : joinKey c.1 state c.2 = ((state.1.union c.1 m.1).2, state.2) := by
    rw [joinKey, known]
  rw [step]
  refine ⟨(groups.forest.union_spec inRangeC inRangeM).1, ?_, fun k => ?_, fun i j => ?_⟩
  · rw [DisjointSets.size_union, groups.size]
  · rw [groups.owner, List.find?_append, List.find?_singleton]
    by_cases here : c.2 = k
    · rw [← here, found, Option.some_or]
    · rw [if_neg fun h => here (eq_of_beq h), Option.or_none]
  · rw [groups.forest.rep_union_eq_iff inRangeC inRangeM]
    have joined : Relation.EqvGen (Shares (marks ++ [c])) c.1 m.1 :=
      .rel _ _ ⟨c.2, List.mem_append_right _ (List.mem_singleton_self c),
        List.mem_append_left _ (key ▸ led)⟩
    have kept : ∀ {i j}, state.1.rep i = state.1.rep j →
        Relation.EqvGen (Shares (marks ++ [c])) i j :=
      fun same => eqvGen_append ((groups.same _ _).1 same)
    constructor
    · rintro (old | ⟨left, right⟩ | ⟨left, right⟩)
      · exact kept old
      · exact (kept left).trans _ _ _ (joined.trans _ _ _ (kept right.symm))
      · exact (kept left).trans _ _ _ (joined.symm.trans _ _ _ (kept right.symm))
    · rw [← groups.forest.rep_union_eq_iff inRangeC inRangeM]
      have united := fun {i j} =>
        groups.forest.rep_union_eq_iff (i := i) (j := j) inRangeC inRangeM
      -- Nets with the key of the new mark are in the group of its first net.
      have first : ∀ i, (i, c.2) ∈ marks ++ [c] →
          (state.1.union c.1 m.1).2.rep i = (state.1.union c.1 m.1).2.rep m.1 := by
        intro i member
        rw [united]
        rcases List.mem_append.1 member with old | new
        · exact .inl ((groups.same i m.1).2 (.rel _ _ ⟨c.2, old, key ▸ led⟩))
        · rw [← List.mem_singleton.1 new]
          exact .inr (.inl ⟨rfl, rfl⟩)
      refine eq_of_eqvGen fun i j shared => ?_
      obtain ⟨k, left, right⟩ := shared
      by_cases here : k = c.2
      · subst here
        exact (first i left).trans (first j right).symm
      · have old : ∀ {i}, (i, k) ∈ marks ++ [c] → (i, k) ∈ marks := by
          intro i member
          refine (List.mem_append.1 member).resolve_right fun new => here ?_
          exact congrArg Prod.snd (List.mem_singleton.1 new)
        exact united.2 (.inl ((groups.same i j).2 (.rel _ _ ⟨k, old left, old right⟩)))

theorem groups_foldl (bounded : ∀ m ∈ marks, m.1 < count) :
    Groups count marks
      (marks.foldl (fun state m => joinKey m.1 state m.2) (.ofSize count, [])) := by
  -- From the end, where a mark meets the owners of those before it.
  induction marks using List.reverseRecOn with
  | nil => exact groups_nil count
  | append_singleton marks c ih =>
      have groups := ih fun m member => bounded m (List.mem_append_left _ member)
      rw [List.foldl_append, List.foldl_cons, List.foldl_nil]
      generalize marks.foldl _ _ = state at groups ⊢
      cases known : state.2.get? c.2 with
      | none => exact groups.joinKey_new known
      | some owner => exact groups.joinKey_known bounded known

variable {ν : Type}

theorem mem_labelKeys {d : Drawing} {n : Net ν} {k : String} :
    k ∈ labelKeys d n ↔ ∃ l ∈ d.labels n, l.key = k := by
  have kept := any_firstsBy Label.key (d.labels n) k
  rw [labelKeys, Label.distinct_eq, List.mem_map]
  rw [Bool.eq_iff_iff, List.any_eq_true, List.any_eq_true] at kept
  simpa only [beq_iff_eq] using kept

def marksOf (d : Drawing) (nets : List (Net ν)) : List Mark :=
  (nets.mapIdx fun i n => (i, labelKeys d n)).flatMap fun e => e.2.map fun k => (e.1, k)

theorem mem_marksOf {d : Drawing} {nets : List (Net ν)} {i : Nat} {k : String} :
    (i, k) ∈ marksOf d nets ↔ ∃ n, nets[i]? = some n ∧ ∃ l ∈ d.labels n, l.key = k := by
  simp only [marksOf, List.mem_flatMap, List.mem_map, List.mem_mapIdx, Prod.mk.injEq]
  constructor
  · rintro ⟨_, ⟨j, below, rfl⟩, k', member, rfl, rfl⟩
    exact ⟨nets[j], List.getElem?_eq_getElem below, mem_labelKeys.1 member⟩
  · rintro ⟨n, found, labelled⟩
    obtain ⟨below, rfl⟩ := List.getElem?_eq_some_iff.1 found
    exact ⟨_, ⟨i, below, rfl⟩, k, mem_labelKeys.2 labelled, rfl, rfl⟩

theorem groups_eq (d : Drawing) (nets : List (Net ν)) :
    groups d nets = ((marksOf d nets).foldl (fun state m => joinKey m.1 state m.2)
      (.ofSize nets.length, [])).1 := by
  rw [groups, marksOf, List.foldl_flatMap]
  simp only [List.foldl_map]

theorem rep_groups_eq_iff (d : Drawing) (nets : List (Net ν)) (i j : Nat) :
    (groups d nets).rep i = (groups d nets).rep j ↔
      Relation.EqvGen (Shares (marksOf d nets)) i j := by
  rw [groups_eq]
  refine (groups_foldl fun m member => ?_).same i j
  obtain ⟨n, found, _⟩ := mem_marksOf.1 member
  exact (List.getElem?_eq_some_iff.1 found).1

end Colouring

end Schematic
