import Schematic.Value
import Mathlib.Data.List.Forall2
/-!
Computations that may meet a fault: when they succeed, and with what.
-/

namespace Schematic

namespace Fault

variable {α β : Type}

theorem bind_eq_ok {x : Except Fault α} {next : α → Except Fault β} {b : β} :
    (x >>= next) = .ok b ↔ ∃ a, x = .ok a ∧ next a = .ok b := by
  cases x with
  | error fault =>
      constructor
      · intro h
        cases h
      · rintro ⟨a, h, _⟩
        cases h
  | ok a =>
      constructor
      · exact fun h => ⟨a, rfl, h⟩
      · rintro ⟨_, ⟨⟩, h⟩
        exact h

theorem exists_bind {x : Except Fault α} {next : α → Except Fault β} (first : ∃ a, x = .ok a)
    (rest : ∀ a, ∃ b, next a = .ok b) : ∃ b, (x >>= next) = .ok b := by
  obtain ⟨a, rfl⟩ := first
  exact rest a

theorem pure_eq_ok {a b : α} : (pure a : Except Fault α) = .ok b ↔ a = b :=
  Except.ok.injEq a b ▸ Iff.rfl

theorem mapM_eq_ok {f : α → Except Fault β} {xs : List α} {ys : List β} :
    xs.mapM f = .ok ys ↔ xs.map f = ys.map .ok := by
  induction xs generalizing ys with
  | nil =>
      rw [List.mapM_nil, pure_eq_ok, List.map_nil]
      exact ⟨fun h => h ▸ rfl, fun h => (List.map_eq_nil_iff.1 h.symm).symm⟩
  | cons x xs ih =>
      simp only [List.mapM_cons, bind_eq_ok, pure_eq_ok, ih, List.map_cons]
      constructor
      · rintro ⟨y, head, ys, tail, rfl⟩
        rw [head, tail, List.map_cons]
      · intro h
        obtain ⟨y, ys, rfl, head, tail⟩ := List.map_eq_cons_iff.1 h.symm
        exact ⟨y, head.symm, ys, tail.symm, rfl⟩

theorem mapM_eq_ok_map {f : α → Except Fault β} {h : α → β} {xs : List α}
    (succeeds : ∀ x ∈ xs, f x = .ok (h x)) : xs.mapM f = .ok (xs.map h) := by
  rw [mapM_eq_ok, List.map_map]
  exact List.map_congr_left succeeds

theorem exists_of_mapM_eq_ok {f : α → Except Fault β} {xs : List α} {ys : List β}
    (h : xs.mapM f = .ok ys) {x : α} (member : x ∈ xs) : ∃ y ∈ ys, f x = .ok y := by
  have image := List.mem_map_of_mem (f := f) member
  rw [mapM_eq_ok.1 h] at image
  obtain ⟨y, member, same⟩ := List.mem_map.1 image
  exact ⟨y, member, same.symm⟩

theorem exists_of_mem_mapM {f : α → Except Fault β} {xs : List α} {ys : List β}
    (h : xs.mapM f = .ok ys) {y : β} (member : y ∈ ys) : ∃ x ∈ xs, f x = .ok y := by
  have image := List.mem_map_of_mem (f := Except.ok (ε := Fault)) member
  rw [← mapM_eq_ok.1 h] at image
  exact List.mem_map.1 image

theorem exists_mapM {f : α → Except Fault β} {xs : List α} (each : ∀ x ∈ xs, ∃ y, f x = .ok y) :
    ∃ ys, xs.mapM f = .ok ys := by
  induction xs with
  | nil => exact ⟨[], rfl⟩
  | cons x xs ih =>
      obtain ⟨first, rest⟩ := List.forall_mem_cons.1 each
      rw [List.mapM_cons]
      exact exists_bind first fun y => exists_bind (ih rest) fun ys => ⟨y :: ys, rfl⟩

theorem map_eq_of_mapM {γ : Type} {f : α → Except Fault β} {g : β → γ} {h : α → γ} {xs : List α}
    {ys : List β} (made : xs.mapM f = .ok ys) (same : ∀ x ∈ xs, ∀ y, f x = .ok y → g y = h x) :
    ys.map g = xs.map h := by
  induction xs generalizing ys with
  | nil =>
      obtain rfl := pure_eq_ok.1 made
      rfl
  | cons x xs ih =>
      rw [List.mapM_cons] at made
      obtain ⟨y, first, rest⟩ := bind_eq_ok.1 made
      obtain ⟨ys, tail, rest⟩ := bind_eq_ok.1 rest
      obtain rfl := pure_eq_ok.1 rest
      obtain ⟨sameFirst, sameRest⟩ := List.forall_mem_cons.1 same
      rw [List.map_cons, sameFirst y first, ih tail sameRest, List.map_cons]

theorem exists_map_eq_of_mapM {γ : Type} {f : α → Except Fault β} {g : β → γ} {h : α → γ}
    {xs : List α} (each : ∀ x ∈ xs, ∃ y, f x = .ok y ∧ g y = h x) :
    ∃ ys, xs.mapM f = .ok ys ∧ ys.map g = xs.map h := by
  obtain ⟨ys, made⟩ := exists_mapM fun x member => (each x member).imp fun _ => And.left
  refine ⟨ys, made, map_eq_of_mapM made fun x member y found => ?_⟩
  obtain ⟨y', found', same⟩ := each x member
  obtain rfl := Except.ok.inj (found.symm.trans found')
  exact same

theorem forall₂_of_mapM {f : α → Except Fault β} {xs : List α} {ys : List β}
    (made : xs.mapM f = .ok ys) : List.Forall₂ (fun x y => f x = .ok y) xs ys := by
  have same := List.forall₂_eq_eq_eq ▸ mapM_eq_ok.1 made
  rwa [List.forall₂_map_left_iff, List.forall₂_map_right_iff] at same

theorem forall₂_mem_of_mapM {f : α → Except Fault β} {xs : List α} {ys : List β}
    (made : xs.mapM f = .ok ys) : List.Forall₂ (fun x y => x ∈ xs ∧ f x = .ok y) xs ys :=
  (List.forall₂_and_left xs ys).2 ⟨fun _ member => member, forall₂_of_mapM made⟩

theorem mapM_eq_mapM_of_mapM {γ : Type} {f : α → Except Fault β} {g : β → Except Fault γ}
    {h : α → Except Fault γ} {xs : List α} {ys : List β} (made : xs.mapM f = .ok ys)
    (same : ∀ x ∈ xs, ∀ y, f x = .ok y → g y = h x) : ys.mapM g = xs.mapM h := by
  have images := map_eq_of_mapM made same
  have run : ∀ {δ : Type} (k : δ → Except Fault γ) (zs : List δ), (zs.map k).mapM id = zs.mapM k :=
    fun k zs => List.mapM_map
  rw [← run g, images, run h]

theorem forall_of_mapM_iff {f : α → Except Fault β} {p : α → Prop} {q : β → Prop} {xs : List α}
    {ys : List β} (made : xs.mapM f = .ok ys) (same : ∀ x ∈ xs, ∀ y, f x = .ok y → (q y ↔ p x)) :
    (∀ y ∈ ys, q y) ↔ ∀ x ∈ xs, p x := by
  constructor
  · intro all x member
    obtain ⟨y, image, found⟩ := exists_of_mapM_eq_ok made member
    exact (same x member y found).1 (all y image)
  · intro all y member
    obtain ⟨x, preimage, found⟩ := exists_of_mem_mapM made member
    exact (same x preimage y found).2 (all x preimage)

section

variable {σ : Type} {add : σ → α → Except Fault σ}

theorem exists_foldlM {xs : List α} (each : ∀ s, ∀ x ∈ xs, ∃ s', add s x = .ok s') (s : σ) :
    ∃ s', xs.foldlM add s = .ok s' := by
  induction xs generalizing s with
  | nil => exact ⟨s, rfl⟩
  | cons x xs ih =>
      rw [List.foldlM_cons]
      exact exists_bind (each s x List.mem_cons_self) fun s' =>
        ih (fun s y member => each s y (List.mem_cons_of_mem x member)) s'

theorem of_foldlM {p : σ → Prop} (step : ∀ s x s', p s → add s x = .ok s' → p s') {xs : List α}
    {s s' : σ} (start : p s) (made : xs.foldlM add s = .ok s') : p s' := by
  induction xs generalizing s with
  | nil => exact pure_eq_ok.1 made ▸ start
  | cons x xs ih =>
      rw [List.foldlM_cons, bind_eq_ok] at made
      obtain ⟨t, first, rest⟩ := made
      exact ih (step s x t start first) rest

theorem foldlM_eq_mapM {f : α → Except Fault β} (addAll : σ → List β → σ)
    (none : ∀ s, addAll s [] = s) (more : ∀ s b bs, addAll (addAll s [b]) bs = addAll s (b :: bs))
    (step : ∀ s x, add s x = do return addAll s [← f x]) (xs : List α) (s : σ) :
    xs.foldlM add s = do return addAll s (← xs.mapM f) := by
  induction xs generalizing s with
  | nil =>
      change Except.ok s = Except.ok (addAll s [])
      rw [none]
  | cons x xs ih =>
      rw [List.foldlM_cons, List.mapM_cons, step]
      cases f x with
      | error fault => rfl
      | ok b =>
          change xs.foldlM add (addAll s [b]) = _
          rw [ih]
          cases xs.mapM f with
          | error fault => rfl
          | ok bs => exact congrArg Except.ok (more s b bs)

end

/-- Whether a computation succeeds under a condition, and meets one fault otherwise. -/
structure SucceedsIff (x : Except Fault α) (fault : Fault) (p : Prop) : Prop where
  ok : p → ∃ a, x = .ok a
  error : ¬ p → x = .error fault

namespace SucceedsIff

variable {fault : Fault} {p q : Prop}

theorem of_ok {x : Except Fault α} {a : α} (made : x = .ok a) : SucceedsIff x fault True :=
  ⟨fun _ => ⟨a, made⟩, fun fails => absurd trivial fails⟩

theorem congr {x : Except Fault α} (succeeds : SucceedsIff x fault p) (same : p ↔ q) :
    SucceedsIff x fault q :=
  ⟨fun holds => succeeds.ok (same.2 holds), fun fails => succeeds.error (mt same.1 fails)⟩

theorem bind {x : Except Fault α} {next : α → Except Fault β} (first : SucceedsIff x fault p)
    (rest : ∀ a, x = .ok a → SucceedsIff (next a) fault q) :
    SucceedsIff (x >>= next) fault (p ∧ q) := by
  by_cases holds : p
  · obtain ⟨a, rfl⟩ := first.ok holds
    exact (rest a rfl).congr (and_iff_right holds).symm
  · refine ⟨fun both => absurd both.1 holds, fun _ => ?_⟩
    rw [first.error holds]
    rfl

theorem map {x : Except Fault α} (succeeds : SucceedsIff x fault p) (f : α → β) :
    SucceedsIff (do return f (← x)) fault p :=
  (succeeds.bind fun _ _ => of_ok rfl).congr (and_iff_left trivial)

theorem mapM {f : α → Except Fault β} {p : α → Prop} {xs : List α}
    (each : ∀ x ∈ xs, SucceedsIff (f x) fault (p x)) :
    SucceedsIff (xs.mapM f) fault (∀ x ∈ xs, p x) := by
  induction xs with
  | nil => exact (of_ok rfl).congr (iff_of_true trivial nofun)
  | cons x xs ih =>
      obtain ⟨here, later⟩ := List.forall_mem_cons.1 each
      rw [List.mapM_cons]
      exact (here.bind fun y _ => (ih later).map (y :: ·)).congr List.forall_mem_cons.symm

end SucceedsIff

end Fault

end Schematic
