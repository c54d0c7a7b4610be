import Schematic.Proofs.Entries
import Schematic.Proofs.Netlist.Identifiers
import Mathlib.Logic.Relation
import Mathlib.Order.Bounds.Basic
/-!
The counters of an allocator. A counter passes over used suffixes only, so that the search which
starts at it finds the least free suffix of all.
-/

namespace Schematic.Allocator

def stemOf (wanted : Value) : String :=
  if identifier wanted = "" then "X" else identifier wanted

theorem isStem_stemOf (wanted : Value) : IsStem (stemOf wanted) := by
  unfold stemOf
  split
  next => exact ⟨by decide +kernel, by decide +kernel⟩
  next given => exact ⟨trim_identifier wanted, given⟩

/-- The identifiers that are handed out by who remembers the set of used keys and nothing else: the
one asked for while it is free, and after that the one with the least free suffix. -/
inductive Plain : Set String → List Value → List String → Prop
  | done (used : Set String) : Plain used [] []
  | unused {used : Set String} {wanted : Value} {vs : List Value} {ids : List String}
      (free : identifierKey (stemOf wanted) ∉ used)
      (rest : Plain (insert (identifierKey (stemOf wanted)) used) vs ids) :
      Plain used (wanted :: vs) (stemOf wanted :: ids)
  | used {used : Set String} {wanted : Value} {vs : List Value} {ids : List String} {k : Nat}
      (taken : identifierKey (stemOf wanted) ∈ used)
      (least : IsLeast {k | 2 ≤ k ∧ identifierKey (suffixed (stemOf wanted) k) ∉ used} k)
      (rest : Plain (insert (identifierKey (suffixed (stemOf wanted) k)) used) vs ids) :
      Plain used (wanted :: vs) (suffixed (stemOf wanted) k :: ids)

theorem Plain.unique {used : Set String} {vs : List Value} {ids ids' : List String}
    (plain : Plain used vs ids) (plain' : Plain used vs ids') : ids = ids' := by
  induction plain generalizing ids' with
  | done => cases plain'; rfl
  | unused free _ ih =>
      cases plain' with
      | unused _ rest => rw [ih rest]
      | used taken => exact absurd taken free
  | used taken least _ ih =>
      cases plain' with
      | unused free => exact absurd taken free
      | used _ least' rest =>
          obtain rfl := least.unique least'
          rw [ih rest]

/-- A turn of the search for a suffix: one whose identifier is used is passed over. -/
def Passes (used : List String) (base : String) (k j : Nat) : Prop :=
  identifierKey (suffixed base k) ∈ used ∧ j = k + 1

/-- Whether the search from `start` on ends at `k`. -/
structure Ends (used : List String) (base : String) (start k : Nat) : Prop where
  reached : Relation.ReflTransGen (Passes used base) start k
  stops : ∀ j, ¬ Passes used base k j

variable {used : List String} {base : String} {start k : Nat}

theorem reaches_freeSuffix (used : List String) (base : String) (fuel start : Nat) :
    Relation.ReflTransGen (Passes used base) start (freeSuffix used base fuel start) := by
  induction fuel generalizing start with
  | zero => exact .refl
  | succ fuel ih =>
      rw [freeSuffix]
      split
      next taken => exact .head ⟨taken, rfl⟩ (ih (start + 1))
      next => exact .refl

/-- With more turns than there are used identifiers the search comes to its end. -/
theorem IsStem.ends_freeSuffix (stem : IsStem base) {fuel : Nat} (enough : used.length < fuel)
    (start : Nat) : Ends used base start (freeSuffix used base fuel start) where
  reached := reaches_freeSuffix used base fuel start
  stops := fun _ passes => stem.key_freeSuffix_not_mem enough start passes.1

theorem used_of_reaches (reached : Relation.ReflTransGen (Passes used base) start k) :
    start ≤ k ∧ ∀ i, start ≤ i → i < k → identifierKey (suffixed base i) ∈ used := by
  induction reached with
  | refl => exact ⟨Nat.le_refl start, fun i above below => absurd above (Nat.not_le.2 below)⟩
  | tail _ passes ih =>
      obtain ⟨taken, rfl⟩ := passes
      obtain ⟨below, passed⟩ := ih
      refine ⟨Nat.le_succ_of_le below, fun i above here => ?_⟩
      rcases Nat.lt_succ_iff_lt_or_eq.1 here with before | rfl
      · exact passed i above before
      · exact taken

theorem Ends.isLeast (ends : Ends used base start k) :
    IsLeast {k | start ≤ k ∧ identifierKey (suffixed base k) ∉ used} k := by
  obtain ⟨above, passed⟩ := used_of_reaches ends.reached
  refine ⟨⟨above, fun taken => ends.stops (k + 1) ⟨taken, rfl⟩⟩, fun i free => ?_⟩
  by_contra below
  exact free.2 (passed i free.1 (Nat.not_le.1 below))

theorem IsStem.wellFounded_passes (stem : IsStem base) (used : List String) :
    WellFounded fun j k => Passes used base k j := by
  refine ⟨fun start => ?_⟩
  have ends := stem.ends_freeSuffix (Nat.lt_succ_self used.length) start
  generalize freeSuffix used base (used.length + 1) start = k at ends
  obtain ⟨reached, stops⟩ := ends
  induction reached using Relation.ReflTransGen.head_induction_on with
  | refl => exact ⟨k, fun j passes => absurd passes (stops j)⟩
  | head passes _ ih =>
      obtain ⟨_, rfl⟩ := passes
      refine ⟨_, fun j passes => ?_⟩
      obtain ⟨_, rfl⟩ := passes
      exact ih

def counter (a : Allocator) (base : String) : Nat :=
  (a.next.get? (identifierKey base)).getD firstSuffix

def nextSuffix (a : Allocator) (base : String) : Nat :=
  freeSuffix a.used base (a.used.length + 1) (a.counter base)

theorem allocate_of_unused {a : Allocator} {wanted : Value}
    (free : identifierKey (stemOf wanted) ∉ a.used) :
    a.allocate wanted = (stemOf wanted, ⟨identifierKey (stemOf wanted) :: a.used,
      a.next.putNew (identifierKey (stemOf wanted)) firstSuffix⟩) :=
  if_neg free

theorem allocate_of_used {a : Allocator} {wanted : Value}
    (taken : identifierKey (stemOf wanted) ∈ a.used) :
    a.allocate wanted = (suffixed (stemOf wanted) (a.nextSuffix (stemOf wanted)),
      ⟨identifierKey (suffixed (stemOf wanted) (a.nextSuffix (stemOf wanted))) :: a.used,
        a.next.put (identifierKey (stemOf wanted)) (a.nextSuffix (stemOf wanted) + 1)⟩) :=
  if_pos taken

/-- Whether all suffixes below the counters are used. -/
def Passed (a : Allocator) : Prop :=
  ∀ base, IsStem base → 2 ≤ a.counter base ∧
    ∀ k, 2 ≤ k → k < a.counter base → identifierKey (suffixed base k) ∈ a.used

theorem passed_empty : Passed empty :=
  fun _ _ => ⟨Nat.le_refl 2, fun _ above below => absurd above (Nat.not_le.2 below)⟩

theorem IsStem.key_suffixed_congr {base' : String} (stem : IsStem base) (stem' : IsStem base')
    (same : identifierKey base = identifierKey base') (k : Nat) :
    identifierKey (Allocator.suffixed base k) = identifierKey (Allocator.suffixed base' k) := by
  apply String.toList_injective
  rw [stem.toList_key_suffixed, stem'.toList_key_suffixed, ← stem.toList_key, same,
    stem'.toList_key]

theorem counter_mk_putNew (used : List String) (next : Entries String Nat) (key base : String) :
    counter ⟨used, next.putNew key firstSuffix⟩ base = counter ⟨used, next⟩ base := by
  unfold counter
  rw [Entries.get?_putNew (Entries.isExact _)]
  cases next.get? (identifierKey base) with
  | some n => rfl
  | none => simp only [Option.none_or]; split <;> rfl

theorem counter_mk_put (used : List String) (next : Entries String Nat) (key base : String)
    (n : Nat) : counter ⟨used, next.put key n⟩ base =
      if key = identifierKey base then n else counter ⟨used, next⟩ base := by
  unfold counter
  rw [Entries.get?_put (Entries.isExact _)]
  by_cases same : key = identifierKey base
  · rw [if_pos same, if_pos (beq_iff_eq.2 same)]
    rfl
  · rw [if_neg same, if_neg (mt beq_iff_eq.1 same)]

/-- The search from the counter on finds the suffix that one from the first suffix on would find. -/
theorem Passed.isLeast_nextSuffix {a : Allocator} (passed : a.Passed) (stem : IsStem base) :
    IsLeast {k | 2 ≤ k ∧ identifierKey (suffixed base k) ∉ a.used} (a.nextSuffix base) := by
  obtain ⟨first, below⟩ := passed base stem
  obtain ⟨⟨above, free⟩, least⟩ :=
    (stem.ends_freeSuffix (Nat.lt_succ_self a.used.length) (a.counter base)).isLeast
  refine ⟨⟨Nat.le_trans first above, free⟩, fun k candidate => least ⟨?_, candidate.2⟩⟩
  by_contra early
  exact candidate.2 (below k candidate.1 (Nat.not_le.1 early))

theorem Passed.allocate {a : Allocator} (passed : a.Passed) (wanted : Value) :
    (a.allocate wanted).2.Passed := by
  have stem := isStem_stemOf wanted
  intro base isStem
  obtain ⟨first, below⟩ := passed base isStem
  by_cases taken : identifierKey (stemOf wanted) ∈ a.used
  · rw [allocate_of_used taken]
    dsimp only
    rw [counter_mk_put]
    split
    next same =>
      -- The counter moves on to behind the suffix that is handed out, the least free one.
      obtain ⟨⟨above, _⟩, least⟩ := passed.isLeast_nextSuffix stem
      refine ⟨Nat.le_succ_of_le above, fun k from_two before => ?_⟩
      rw [isStem.key_suffixed_congr stem same.symm, List.mem_cons]
      rcases Nat.lt_succ_iff_lt_or_eq.1 before with earlier | rfl
      · refine .inr ?_
        by_contra free
        exact absurd (least ⟨from_two, free⟩) (Nat.not_le.2 earlier)
      · exact .inl rfl
    next => exact ⟨first, fun k above before => List.mem_cons_of_mem _ (below k above before)⟩
  · rw [allocate_of_unused taken]
    dsimp only
    rw [counter_mk_putNew]
    exact ⟨first, fun k above before => List.mem_cons_of_mem _ (below k above before)⟩

theorem setOf_mem_cons (key : String) (used : List String) :
    {id | id ∈ key :: used} = insert key {id | id ∈ used} := by
  ext id
  exact List.mem_cons

/-- An allocator hands out what a plain search would hand out after the same identifiers. -/
theorem Passed.plain_allocateAll {a : Allocator} (passed : a.Passed) (vs : List Value) :
    Plain {key | key ∈ a.used} vs (a.allocateAll vs).1 := by
  induction vs generalizing a with
  | nil => exact .done _
  | cons wanted vs ih =>
      have rest := ih (passed.allocate wanted)
      change Plain _ _ ((a.allocate wanted).1 :: ((a.allocate wanted).2.allocateAll vs).1)
      by_cases taken : identifierKey (stemOf wanted) ∈ a.used
      · rw [allocate_of_used taken] at rest ⊢
        dsimp only at rest ⊢
        rw [setOf_mem_cons] at rest
        exact .used taken (passed.isLeast_nextSuffix (isStem_stemOf wanted)) rest
      · rw [allocate_of_unused taken] at rest ⊢
        dsimp only at rest ⊢
        rw [setOf_mem_cons] at rest
        exact .unused taken rest

/-- Identifiers that are handed out one after the other are those of the plain search. No search for
a suffix goes on for ever, and all turns beyond the number of used identifiers change nothing. -/
theorem allocateAll_eq_iff_plain (vs : List Value) (ids : List String) :
    ((empty.allocateAll vs).1 = ids ↔ Plain ∅ vs ids) ∧
      ∀ wanted, WellFounded (fun j k => Passes (empty.allocateAll vs).2.used (stemOf wanted) k j) ∧
        ∀ more start, Ends (empty.allocateAll vs).2.used (stemOf wanted) start
          (freeSuffix (empty.allocateAll vs).2.used (stemOf wanted)
            ((empty.allocateAll vs).2.used.length + 1 + more) start) := by
  have none : {key | key ∈ empty.used} = (∅ : Set String) :=
    Set.eq_empty_of_forall_notMem fun _ => List.not_mem_nil
  have plain := passed_empty.plain_allocateAll vs
  rw [none] at plain
  refine ⟨⟨fun same => same ▸ plain, plain.unique⟩, fun wanted => ?_⟩
  have stem := isStem_stemOf wanted
  refine ⟨stem.wellFounded_passes _, fun more start => stem.ends_freeSuffix ?_ start⟩
  omega

example : (empty.allocateAll
      [.text "R1", .text "r1 ", .text "R1_2", .text "R1", .null, .text "x"]).1 =
    ["R1", "r1_2", "R1_2_2", "R1_3", "X", "x_2"] := by
  decide +kernel

end Schematic.Allocator
