import Schematic.DisjointSets
import Mathlib.Data.Fintype.Card
import Mathlib.Logic.Relation
/-!
Representatives: which node every path leads to, and what looking up and uniting do to it.
-/

namespace Schematic

theorem eq_of_eqvGen {α β : Type*} {r : α → α → Prop} {v : α → β} (agrees : ∀ i j, r i j → v i = v j)
    {i j : α} (chain : Relation.EqvGen r i j) : v i = v j := by
  have kernel : Equivalence fun i j => v i = v j := eq_equivalence.comap v
  exact kernel.eqvGen_iff.1 (Relation.EqvGen.mono agrees i j chain)

namespace DisjointSets

/-- `k` steps lead from a node to a root. -/
inductive Climbs (parent : Array Nat) : Nat → Nat → Nat → Prop
  | root {i : Nat} (top : parent.getD i i = i) : Climbs parent 0 i i
  | step {k i r : Nat} (below : parent.getD i i ≠ i)
      (onward : Climbs parent k (parent.getD i i) r) : Climbs parent (k + 1) i r

variable {parent : Array Nat} {i r k : Nat}

theorem Climbs.unique {k' r' : Nat} (climbs : Climbs parent k i r)
    (climbs' : Climbs parent k' i r') : k = k' ∧ r = r' := by
  induction climbs generalizing k' with
  | root top =>
      cases climbs' with
      | root _ => exact ⟨rfl, rfl⟩
      | step below _ => exact absurd top below
  | step below _ ih =>
      cases climbs' with
      | root top => exact absurd top below
      | step _ onward =>
          obtain ⟨rfl, rfl⟩ := ih onward
          exact ⟨rfl, rfl⟩

theorem Climbs.top (climbs : Climbs parent k i r) : parent.getD r r = r := by
  induction climbs with
  | root top => exact top
  | step _ _ ih => exact ih

theorem Climbs.root_lt (bounded : ∀ j < parent.size, parent.getD j j < parent.size)
    (climbs : Climbs parent k i r) (inRange : i < parent.size) : r < parent.size := by
  induction climbs with
  | root _ => exact inRange
  | step _ _ ih => exact ih (bounded _ inRange)

theorem Climbs.exists_of_le (bounded : ∀ j < parent.size, parent.getD j j < parent.size)
    (climbs : Climbs parent k i r) (inRange : i < parent.size) {m : Nat} (le : m ≤ k) :
    ∃ j < parent.size, Climbs parent m j r := by
  induction climbs with
  | root top =>
      obtain rfl : m = 0 := Nat.le_zero.1 le
      exact ⟨_, inRange, .root top⟩
  | @step k i r below onward ih =>
      rcases Nat.lt_or_eq_of_le le with less | rfl
      · exact ih (bounded i inRange) (Nat.le_of_lt_succ less)
      · exact ⟨i, inRange, .step below onward⟩

/-- A path has fewer steps than there are nodes, since no two nodes on it are at one distance. -/
theorem Climbs.lt_size (bounded : ∀ j < parent.size, parent.getD j j < parent.size)
    (climbs : Climbs parent k i r) (inRange : i < parent.size) : k < parent.size := by
  have passes : ∀ m : Fin (k + 1), ∃ j : Fin parent.size, Climbs parent m j r := by
    intro m
    obtain ⟨j, below, climbs'⟩ :=
      climbs.exists_of_le bounded inRange (Nat.le_of_lt_succ m.isLt)
    exact ⟨⟨j, below⟩, climbs'⟩
  choose node climbs' using passes
  have injective : Function.Injective node := by
    intro m n same
    have there := climbs' n
    rw [← same] at there
    exact Fin.ext ((climbs' m).unique there).1
  have card := Fintype.card_le_of_injective node injective
  rw [Fintype.card_fin, Fintype.card_fin] at card
  exact card

theorem getD_setIfInBounds_self {g : Nat} (inRange : i < parent.size) :
    (parent.setIfInBounds i g).getD i i = g := by
  simp [Array.getD_eq_getD_getElem?, inRange]

theorem getD_setIfInBounds_ne (parent : Array Nat) (g : Nat) {i j : Nat} (other : j ≠ i) :
    (parent.setIfInBounds i g).getD j j = parent.getD j j := by
  simp [Array.getD_eq_getD_getElem?, Array.getElem?_setIfInBounds_ne other.symm]

theorem Climbs.lt_size_of_pos (climbs : Climbs parent k i r) (pos : 0 < k) :
    i < parent.size := by
  by_contra outside
  have top : parent.getD i i = i := by
    simp [Array.getD_eq_getD_getElem?, Nat.le_of_not_lt outside]
  have none := (climbs.unique (.root top)).1
  omega

theorem Climbs.exists_grandparent {p : Nat} (climbs : Climbs parent k p r) :
    ∃ m ≤ k, Climbs parent m (parent.getD p p) r := by
  cases climbs with
  | root top => exact ⟨0, Nat.le_refl 0, top.symm ▸ .root top⟩
  | @step k _ _ _ onward => exact ⟨k, Nat.le_succ k, onward⟩

/-- Pointing a node further up on its path lengthens no path and changes no root. -/
theorem Climbs.redirect {g m n : Nat} {top : Nat} (here : Climbs parent n i top)
    (there : Climbs parent m g top) (less : m < n) {x : Nat} (climbs : Climbs parent k x r) :
    ∃ k' ≤ k, Climbs (parent.setIfInBounds i g) k' x r := by
  have inRange := here.lt_size_of_pos (Nat.zero_lt_of_lt less)
  induction k using Nat.strong_induction_on generalizing x r with
  | _ k ih =>
      by_cases same : x = i
      · subst same
        obtain ⟨rfl, rfl⟩ := climbs.unique here
        obtain ⟨k', le, climbs'⟩ := ih m less there
        have self := getD_setIfInBounds_self (g := g) inRange
        refine ⟨k' + 1, by omega, .step ?_ (self.symm ▸ climbs')⟩
        rw [self]
        rintro rfl
        exact absurd (here.unique there).1 (Nat.ne_of_gt less)
      · have self := getD_setIfInBounds_ne parent g same
        cases climbs with
        | root top => exact ⟨0, Nat.le_refl 0, .root (self.trans top)⟩
        | @step k _ _ below onward =>
            obtain ⟨k', le, climbs'⟩ := ih k (Nat.lt_succ_self k) onward
            exact ⟨k' + 1, Nat.succ_le_succ le, .step (self.symm ▸ below) (self.symm ▸ climbs')⟩

theorem Climbs.join {a b : Nat} (topA : parent.getD a a = a) (topB : parent.getD b b = b)
    (other : a ≠ b) (inRange : b < parent.size) {x : Nat} (climbs : Climbs parent k x r) :
    ∃ k', Climbs (parent.setIfInBounds b a) k' x (if r = b then a else r) := by
  have selfA := (getD_setIfInBounds_ne parent a other).trans topA
  have selfB := getD_setIfInBounds_self (g := a) inRange
  induction climbs with
  | @root x top =>
      by_cases same : x = b
      · subst same
        rw [if_pos rfl]
        exact ⟨1, .step (selfB.symm ▸ other) (selfB.symm ▸ .root selfA)⟩
      · rw [if_neg same]
        exact ⟨0, .root ((getD_setIfInBounds_ne parent a same).trans top)⟩
  | @step k x r below onward ih =>
      have same : x ≠ b := by
        rintro rfl
        exact below topB
      obtain ⟨k', climbs'⟩ := ih
      have self := getD_setIfInBounds_ne parent a same
      exact ⟨k' + 1, .step (self.symm ▸ below) (self.symm ▸ climbs')⟩

structure IsForest (s : DisjointSets) : Prop where
  bounded : ∀ i < s.size, s.parent.getD i i < s.size
  rooted : ∀ i, ∃ k r, Climbs s.parent k i r

def rep (s : DisjointSets) (i : Nat) : Nat :=
  (s.find i).1

theorem bounded_setIfInBounds (bounded : ∀ j < parent.size, parent.getD j j < parent.size)
    {g : Nat} (inRange : g < parent.size) :
    ∀ j < (parent.setIfInBounds i g).size,
      (parent.setIfInBounds i g).getD j j < (parent.setIfInBounds i g).size := by
  intro j below
  rw [Array.size_setIfInBounds] at below ⊢
  by_cases same : j = i
  · subst same
    rw [getD_setIfInBounds_self below]
    exact inRange
  · rw [getD_setIfInBounds_ne parent g same]
    exact bounded j below

/-- Climbing finds the root, and leaves every node its root. -/
theorem climb_spec {fuel : Nat} (bounded : ∀ j < parent.size, parent.getD j j < parent.size)
    (climbs : Climbs parent k i r) (enough : k ≤ fuel) :
    (climb fuel parent i).1 = r ∧
      (∀ j < (climb fuel parent i).2.size,
        (climb fuel parent i).2.getD j j < (climb fuel parent i).2.size) ∧
      ∀ {m x q}, Climbs parent m x q → ∃ m', Climbs (climb fuel parent i).2 m' x q := by
  induction fuel generalizing parent i k with
  | zero =>
      obtain rfl := Nat.le_zero.1 enough
      cases climbs with
      | root top => exact ⟨rfl, bounded, fun climbs => ⟨_, climbs⟩⟩
  | succ fuel ih =>
      rw [climb]
      cases climbs with
      | root top =>
          rw [if_pos top]
          exact ⟨rfl, bounded, fun climbs => ⟨_, climbs⟩⟩
      | @step k _ _ below onward =>
          have here : Climbs parent (k + 1) i r := .step below onward
          have inRange := here.lt_size_of_pos (Nat.succ_pos k)
          obtain ⟨m, less, there⟩ := onward.exists_grandparent
          have bounded' := bounded_setIfInBounds (i := i) bounded
            (bounded _ (bounded i inRange))
          have redirect := fun {m x q} (climbs : Climbs parent m x q) =>
            here.redirect there (Nat.lt_succ_of_le less) climbs
          obtain ⟨m', le, climbs'⟩ := redirect there
          obtain ⟨found, bounded'', preserved⟩ := ih bounded' climbs' (by omega)
          rw [if_neg below]
          refine ⟨found, bounded'', fun climbs => ?_⟩
          obtain ⟨_, _, climbs⟩ := redirect climbs
          exact preserved climbs

variable {s : DisjointSets}

theorem IsForest.find_spec (forest : s.IsForest) {i k r : Nat} (climbs : Climbs s.parent k i r) :
    s.rep i = r ∧
      (∀ j < (s.find i).2.size, (s.find i).2.parent.getD j j < (s.find i).2.size) ∧
      ∀ {m x q}, Climbs s.parent m x q → ∃ m', Climbs (s.find i).2.parent m' x q := by
  have enough : k ≤ s.size := by
    rcases Nat.eq_zero_or_pos k with rfl | pos
    · exact Nat.zero_le _
    · exact Nat.le_of_lt (climbs.lt_size forest.bounded (climbs.lt_size_of_pos pos))
  exact climb_spec forest.bounded climbs enough

theorem IsForest.climbs_rep (forest : s.IsForest) (i : Nat) :
    ∃ k, Climbs s.parent k i (s.rep i) := by
  obtain ⟨k, r, climbs⟩ := forest.rooted i
  obtain ⟨rfl, _⟩ := forest.find_spec climbs
  exact ⟨k, climbs⟩

theorem IsForest.rep_eq (forest : s.IsForest) {i k r : Nat} (climbs : Climbs s.parent k i r) :
    s.rep i = r :=
  (forest.find_spec climbs).1

theorem IsForest.find (forest : s.IsForest) (i : Nat) : (s.find i).2.IsForest := by
  obtain ⟨k, climbs⟩ := forest.climbs_rep i
  obtain ⟨_, bounded, preserved⟩ := forest.find_spec climbs
  refine ⟨bounded, fun j => ?_⟩
  obtain ⟨m, climbs⟩ := forest.climbs_rep j
  obtain ⟨m', climbs'⟩ := preserved climbs
  exact ⟨m', _, climbs'⟩

theorem IsForest.rep_find (forest : s.IsForest) (i j : Nat) : (s.find i).2.rep j = s.rep j := by
  obtain ⟨k, climbs⟩ := forest.climbs_rep i
  obtain ⟨_, _, preserved⟩ := forest.find_spec climbs
  obtain ⟨m, climbs'⟩ := forest.climbs_rep j
  obtain ⟨m', climbs''⟩ := preserved climbs'
  exact (forest.find i).rep_eq climbs''

theorem IsForest.rep_lt (forest : s.IsForest) {i : Nat} (inRange : i < s.size) :
    s.rep i < s.size := by
  obtain ⟨k, climbs⟩ := forest.climbs_rep i
  exact climbs.root_lt forest.bounded inRange

theorem IsForest.rep_top (forest : s.IsForest) (i : Nat) :
    s.parent.getD (s.rep i) (s.rep i) = s.rep i := by
  obtain ⟨k, climbs⟩ := forest.climbs_rep i
  exact climbs.top

theorem climbs_ofSize (n i : Nat) : Climbs (ofSize n).parent 0 i i := by
  refine .root ?_
  by_cases inRange : i < n <;>
    simp [ofSize, Array.getD_eq_getD_getElem?, inRange]

theorem isForest_ofSize (n : Nat) : (ofSize n).IsForest where
  bounded := fun i inRange => (climbs_ofSize n i).top.symm ▸ inRange
  rooted := fun i => ⟨0, i, climbs_ofSize n i⟩

@[simp] theorem rep_ofSize (n i : Nat) : (ofSize n).rep i = i :=
  (isForest_ofSize n).rep_eq (climbs_ofSize n i)

theorem union_snd (s : DisjointSets) (a b : Nat) :
    (s.union a b).2 =
      if s.rep a = (s.find a).2.rep b then ((s.find a).2.find b).2
      else ⟨((s.find a).2.find b).2.parent.setIfInBounds ((s.find a).2.rep b) (s.rep a)⟩ :=
  rfl

theorem IsForest.union_spec (forest : s.IsForest) {a b : Nat} (inRangeA : a < s.size)
    (inRangeB : b < s.size) :
    (s.union a b).2.IsForest ∧
      ∀ i, (s.union a b).2.rep i = if s.rep i = s.rep b then s.rep a else s.rep i := by
  have forest' := (forest.find a).find b
  have reps : ∀ i, ((s.find a).2.find b).2.rep i = s.rep i := fun i =>
    ((forest.find a).rep_find b i).trans (forest.rep_find a i)
  have size : ((s.find a).2.find b).2.size = s.size := by simp
  rw [union_snd, forest.rep_find a b]
  generalize ((s.find a).2.find b).2 = t at forest' reps size ⊢
  by_cases same : s.rep a = s.rep b
  · rw [if_pos same]
    refine ⟨forest', fun i => ?_⟩
    rw [reps, same]
    split
    next equal => exact equal
    next => rfl
  · rw [if_neg same]
    have topA := reps a ▸ forest'.rep_top a
    have topB := reps b ▸ forest'.rep_top b
    have boundA : s.rep a < t.size := size.symm ▸ forest.rep_lt inRangeA
    have boundB : s.rep b < t.size := size.symm ▸ forest.rep_lt inRangeB
    have joined : ∀ i, ∃ k, Climbs (t.parent.setIfInBounds (s.rep b) (s.rep a)) k i
        (if s.rep i = s.rep b then s.rep a else s.rep i) := by
      intro i
      obtain ⟨k, climbs⟩ := forest'.climbs_rep i
      rw [reps i] at climbs
      exact climbs.join topA topB same boundB
    have forest'' : IsForest ⟨t.parent.setIfInBounds (s.rep b) (s.rep a)⟩ := by
      refine ⟨bounded_setIfInBounds forest'.bounded boundA, fun i => ?_⟩
      obtain ⟨k, climbs⟩ := joined i
      exact ⟨k, _, climbs⟩
    refine ⟨forest'', fun i => ?_⟩
    obtain ⟨k, climbs⟩ := joined i
    exact forest''.rep_eq climbs

theorem IsForest.rep_union_eq_iff (forest : s.IsForest) {a b : Nat}
    (inRangeA : a < s.size) (inRangeB : b < s.size) {i j : Nat} :
    (s.union a b).2.rep i = (s.union a b).2.rep j ↔
      s.rep i = s.rep j ∨ (s.rep i = s.rep a ∧ s.rep j = s.rep b) ∨
        (s.rep i = s.rep b ∧ s.rep j = s.rep a) := by
  rw [(forest.union_spec inRangeA inRangeB).2, (forest.union_spec inRangeA inRangeB).2]
  split <;> split <;> grind

end DisjointSets

end Schematic
