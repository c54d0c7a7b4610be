import Schematic.Proofs.PointKey
/-!
Which numbers can be rounded to the grid: those up to the widest, and what they are rounded to is
among them, so that what has been rounded once can be rounded again.
-/

namespace Schematic.Binary64

theorem finite_mul_finite (s t : Bool) {m n : Nat} (fits : Fits m) (fits' : Fits n) :
    Binary64.finite s m fits * Binary64.finite t n fits' = round (s ^^ t) (m * n) one := by
  change mul _ _ = _
  rw [mul]

theorem finite_div_finite (s t : Bool) {m n : Nat} (fits : Fits m) (fits' : Fits n) (pos : 0 < n) :
    Binary64.finite s m fits / .finite t n fits' = round (s ^^ t) (m * one) n := by
  change div _ _ = _
  rw [div, if_neg (Nat.ne_of_gt pos)]

/-- What a coordinate is multiplied by before it is rounded, in least units. -/
@[irreducible] def gridUnits : Nat := 1000000 * one

@[irreducible] def halfUnits : Nat := Nat.pow 2 1073

/-- The largest magnitude that can be rounded to the grid, in least units. -/
@[irreducible] def widest : Nat := 0x10c6f7a0b5ed8c * Nat.pow 2 2026

/-- The number of grid steps in the largest magnitude that can be rounded. -/
@[irreducible] def mostSteps : Nat := 0x1ffffffffffffe * Nat.pow 2 971

/-- How the sizes lie to each other. -/
structure Sizes : Prop where
  fits_widest : Fits widest
  fits_mostSteps : Fits (mostSteps * one)
  gridSteps_eq : ∃ fits, gridSteps = .finite false gridUnits fits
  half_eq : ∃ fits, half = .finite false halfUnits fits
  gridUnits_pos : 0 < gridUnits
  steps_le : widest * gridUnits ≤ mostSteps * one * one
  limit_le : limit ≤ nearest ((widest + spacing widest) * gridUnits) one
  shifted_le : nearest (mostSteps * one + halfUnits) 1 ≤ mostSteps * one
  grid_le : nearest (mostSteps * one * one) gridUnits ≤ widest

-- Its parts are named in full, as in `Sizes.steps_le sizes`: Lean looks up `sizes.steps_le` only when
-- the evaluations here have been checked.
theorem sizes : Sizes where
  fits_widest := by decide +kernel
  fits_mostSteps := by decide +kernel
  gridSteps_eq := by decide +kernel
  half_eq := by decide +kernel
  gridUnits_pos := by decide +kernel
  steps_le := by decide +kernel
  limit_le := by decide +kernel
  shifted_le := by decide +kernel
  grid_le := by decide +kernel

theorem steps_le {n : Nat} (near : n ≤ widest) :
    nearest (n * gridUnits) one ≤ mostSteps * one := by
  exact nearest_le one_pos (Sizes.fits_mostSteps sizes)
    ((Nat.mul_le_mul_right _ near).trans (Sizes.steps_le sizes))

/-- A magnitude beyond the widest is out of range when it is counted in grid steps. -/
theorem limit_le_steps {n : Nat} (fits : Fits n) (far : widest < n) :
    limit ≤ nearest (n * gridUnits) one := by
  have next : widest + spacing widest ≤ n :=
    add_le_of_dvd_of_lt (Nat.dvd_of_mod_eq_zero (Sizes.fits_widest sizes).1)
      (Nat.dvd_trans (spacing_dvd far.le) (Nat.dvd_of_mod_eq_zero fits.1)) far
  exact (Sizes.limit_le sizes).trans (nearest_mono one_pos (Nat.mul_le_mul_right _ next))

theorem natAbs_signed (s : Bool) (n : Nat) : (signed s n).natAbs = n := by
  cases s <;> simp [signed]

theorem shifted_le {s : Bool} {n : Nat} (near : n ≤ mostSteps * one) :
    nearest (signed s n + signed false halfUnits).natAbs 1 ≤ mostSteps * one := by
  have size : (signed s n + signed false halfUnits).natAbs ≤ mostSteps * one + halfUnits := by
    refine (Int.natAbs_add_le _ _).trans ?_
    rw [natAbs_signed, natAbs_signed]
    exact Nat.add_le_add_right near _
  exact (nearest_mono Nat.one_pos size).trans (Sizes.shifted_le sizes)

theorem natAbs_floor_le {s : Bool} {n k u : Nat} (pos : 0 < u) (near : n ≤ k * u) :
    (signed s n / (u : Int)).natAbs ≤ k := by
  have pos : (0 : Int) < u := Int.natCast_pos.2 pos
  have bound : (n : Int) ≤ k * u := by exact_mod_cast near
  have upper : signed s n / (u : Int) ≤ k := by
    refine Int.ediv_le_of_le_mul pos ?_
    cases s <;> simp only [signed] <;> grind
  have lower : -(k : Int) ≤ signed s n / (u : Int) := by
    refine Int.le_ediv_of_mul_le pos ?_
    cases s <;> simp only [signed] <;> grind
  omega

theorem grid_le {n : Nat} (near : n ≤ mostSteps * one) :
    nearest (n * one) gridUnits ≤ widest := by
  exact (nearest_mono (Sizes.gridUnits_pos sizes) (Nat.mul_le_mul_right _ near)).trans
    (Sizes.grid_le sizes)

/-- Whether a number can be rounded to the grid. -/
def InReach (x : Binary64) : Prop :=
  ∃ s n fits, x = .finite s n fits ∧ n ≤ widest

theorem inReach_of_roundCoord_eq_ok {x y : Binary64} (h : x.roundCoord = .ok y) : x.InReach := by
  have isFinite := isFinite_of_roundCoord_eq_ok h
  cases x with
  | nan => cases isFinite
  | infinite s => cases isFinite
  | finite s n fits =>
      refine ⟨s, n, fits, rfl, Nat.le_of_not_lt fun far => ?_⟩
      obtain ⟨steps, _, floored, _⟩ := roundCoord_eq_ok h
      obtain ⟨gridFits, grid⟩ := Sizes.gridSteps_eq sizes
      have product : Binary64.finite s n fits * gridSteps = .infinite (s ^^ false) := by
        rw [grid, finite_mul_finite]
        rw [round, dif_neg fun fits' => absurd fits'.2 (Nat.not_lt.2 (limit_le_steps fits far))]
      rw [product, floor?_infinite_add] at floored
      cases floored

theorem exists_round_eq {num den k : Nat} (pos : 0 < den) (le : nearest num den ≤ k)
    (inRange : k < limit) (s : Bool) :
    ∃ t n fits, round s num den = .finite t n fits ∧ n ≤ k :=
  ⟨s, _, _, round_eq_finite pos (Nat.lt_of_le_of_lt le inRange), le⟩

section

variable {n : Nat} (s : Bool) (fits : Fits n)

theorem exists_mul_gridSteps (near : n ≤ widest) :
    ∃ t m fits', Binary64.finite s n fits * gridSteps = .finite t m fits' ∧
      m ≤ mostSteps * one := by
  obtain ⟨gridFits, grid⟩ := Sizes.gridSteps_eq sizes
  rw [grid, finite_mul_finite]
  exact exists_round_eq one_pos (steps_le near) (Sizes.fits_mostSteps sizes).2 _

theorem exists_add_half (near : n ≤ mostSteps * one) :
    ∃ t m fits', Binary64.finite s n fits + half = .finite t m fits' ∧ m ≤ mostSteps * one := by
  obtain ⟨halfFits, half⟩ := Sizes.half_eq sizes
  rw [half, finite_add_finite]
  exact exists_round_eq Nat.one_pos (shifted_le near) (Sizes.fits_mostSteps sizes).2 _

theorem exists_ofInt? {z : Int} (near : z.natAbs ≤ mostSteps) :
    ∃ t m fits', ofInt? z = some (.finite t m fits') ∧ m ≤ mostSteps * one := by
  have le : nearest (z.natAbs * one) 1 ≤ mostSteps * one :=
    nearest_le Nat.one_pos (Sizes.fits_mostSteps sizes)
      ((Nat.mul_le_mul_right _ near).trans_eq (Nat.mul_one _).symm)
  obtain ⟨t, m, fits', rounded, mNear⟩ :=
    exists_round_eq Nat.one_pos le (Sizes.fits_mostSteps sizes).2 (decide (z < 0))
  exact ⟨t, m, fits', by rw [ofInt?, rounded, finite?], mNear⟩

theorem exists_div_gridSteps (near : n ≤ mostSteps * one) :
    ∃ t m fits', Binary64.finite s n fits / gridSteps = .finite t m fits' ∧ m ≤ widest := by
  obtain ⟨gridFits, grid⟩ := Sizes.gridSteps_eq sizes
  rw [grid, finite_div_finite _ _ _ _ (Sizes.gridUnits_pos sizes)]
  exact exists_round_eq (Sizes.gridUnits_pos sizes) (grid_le near) (Sizes.fits_widest sizes).2 _

end

theorem roundCoord_of_floor? {x n : Binary64} {z : Int}
    (floored : (x * gridSteps + half).floor? = some z) (whole : ofInt? z = some n) :
    x.roundCoord = .ok (n / gridSteps) := by
  rw [Binary64.roundCoord, floored, Option.elim_some, whole, Option.elim_some]

theorem InReach.roundCoord {x : Binary64} (reach : x.InReach) :
    ∃ y, x.roundCoord = .ok y ∧ y.InReach := by
  obtain ⟨s, n, fits, rfl, near⟩ := reach
  obtain ⟨s₁, n₁, fits₁, scaled, near₁⟩ := exists_mul_gridSteps s fits near
  obtain ⟨s₂, n₂, fits₂, shifted, near₂⟩ := exists_add_half s₁ fits₁ near₁
  obtain ⟨s₃, n₃, fits₃, whole, near₃⟩ := exists_ofInt? (natAbs_floor_le (s := s₂) one_pos near₂)
  obtain ⟨s₄, n₄, fits₄, rounded, near₄⟩ := exists_div_gridSteps s₃ fits₃ near₃
  refine ⟨_, roundCoord_of_floor? ?_ whole, s₄, n₄, fits₄, rounded, near₄⟩
  rw [scaled, shifted, floor?]

theorem inReach_of_roundCoord {x y : Binary64} (h : x.roundCoord = .ok y) : y.InReach := by
  obtain ⟨y', rounded, reach⟩ := (inReach_of_roundCoord_eq_ok h).roundCoord
  obtain rfl := Except.ok.inj (h.symm.trans rounded)
  exact reach

theorem InReach.add_zero {x : Binary64} (reach : x.InReach) : (x + zero).InReach := by
  obtain ⟨s, n, fits, rfl, near⟩ := reach
  exact ⟨_, n, fits, finite_add_zero s fits, near⟩

/-- What has been rounded once can be rounded again. -/
theorem exists_roundCoord_of_roundCoord {x y : Binary64} (h : x.roundCoord = .ok y) :
    ∃ z, y.roundCoord = .ok z := by
  obtain ⟨z, again, _⟩ := (inReach_of_roundCoord h).roundCoord
  exact ⟨z, again⟩

/-- The least step of the grid is not rounded to zero. -/
theorem grid_pos : 0 < nearest (nearest (1 * one) 1 * one) gridUnits := by
  decide +kernel

theorem grid_pos_of_pos {k : Nat} (pos : 0 < k) :
    0 < nearest (nearest (k * one) 1 * one) gridUnits := by
  have units : 1 * one ≤ k * one := Nat.mul_le_mul_right one pos
  have steps : nearest (1 * one) 1 * one ≤ nearest (k * one) 1 * one :=
    Nat.mul_le_mul_right one (nearest_mono Nat.one_pos units)
  exact Nat.lt_of_lt_of_le grid_pos (nearest_mono (Sizes.gridUnits_pos sizes) steps)

theorem add_zero_of_roundCoord {x y : Binary64} (h : x.roundCoord = .ok y) : y + zero = y := by
  have finite := isFinite_of_roundCoord h
  obtain ⟨z, n, _, whole, rfl⟩ := roundCoord_eq_ok h
  obtain ⟨gridFits, grid⟩ := Sizes.gridSteps_eq sizes
  unfold ofInt? round at whole
  split at whole
  next fits =>
    obtain rfl := Option.some.inj whole
    rw [grid, finite_div_finite _ _ _ _ (Sizes.gridUnits_pos sizes)] at finite ⊢
    unfold round at finite ⊢
    split at finite
    next fits' =>
      rw [dif_pos fits', finite_add_zero]
      refine congrArg (fun s => Binary64.finite s _ fits') ?_
      refine Bool.and_eq_left_iff_imp.2 fun negative => bne_iff_ne.2 ?_
      have below : z < 0 := by simpa using negative
      exact Nat.ne_of_gt (grid_pos_of_pos (Int.natAbs_pos.2 below.ne))
    next => cases finite
  next => cases whole

/-- A rounded number that rounding leaves as large as it is is left as it is. -/
theorem roundCoord_eq_self {x y : Binary64} (rounded : x.roundCoord = .ok y)
    (same : x.equal y = true) (noNegativeZero : x + zero = x) : x.roundCoord = .ok x := by
  rw [rounded, ← noNegativeZero, add_zero_eq_of_equal same, add_zero_of_roundCoord rounded]

end Schematic.Binary64
