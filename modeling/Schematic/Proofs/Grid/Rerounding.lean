import Schematic.Proofs.Grid.Scaling
/-!
Rounding what has been rounded. A coordinate is moved by it where, counted in grid steps, it lies
half a step or more above the steps that it was rounded to.
-/

namespace Schematic.Binary64

theorem gridUnits_eq : gridUnits = 1000000 * one := by
  delta gridUnits
  rfl

theorem mul_gridSteps_eq (s : Bool) {n : Nat} (fits : Fits n) (near : n ≤ widest) :
    ∃ fits', Binary64.finite s n fits * gridSteps = .finite s (scaled n) fits' := by
  obtain ⟨gridFits, grid⟩ := Sizes.gridSteps_eq sizes
  have same : nearest (n * gridUnits) one = scaled n := by
    have common := nearest_mul_mul (n * 1000000) 1 one_pos
    rwa [Nat.mul_assoc, ← gridUnits_eq, Nat.one_mul] at common
  have less : nearest (n * gridUnits) one < limit :=
    (steps_le near).trans_lt (Sizes.fits_mostSteps sizes).2
  rw [grid, finite_mul_finite, Bool.xor_false, round_eq_finite one_pos less]
  exact same ▸ ⟨_, rfl⟩

theorem stepsOf_eq_of_floor? {s : Bool} {n : Nat} {fits : Fits n} {k : Int}
    (floored : (Binary64.finite s n fits + half).floor? = some k) :
    k = stepsOf (signed s n) := by
  obtain ⟨halfFits, half⟩ := Sizes.half_eq sizes
  rw [half, finite_add_finite] at floored
  unfold round at floored
  split at floored
  next =>
    obtain rfl := Option.some.inj floored
    change _ = nearestInt (signed s n + signed false halfUnits) / _
    by_cases zero : signed s n + signed false halfUnits = 0
    · rw [if_pos zero, zero, Bool.and_false]
      rfl
    · rw [if_neg zero]
      rfl
  next => cases floored

theorem div_gridSteps_eq {k : Int} {n : Binary64} (number : IsRepresentable (k * one))
    (whole : ofInt? k = some n) (finite : (n / gridSteps).isFinite = true) :
    ∃ fits, n / gridSteps = .finite (decide (k < 0)) (divided k.natAbs) fits := by
  obtain ⟨gridFits, grid⟩ := Sizes.gridSteps_eq sizes
  have same : nearest (nearest (k.natAbs * one) 1 * one) gridUnits = divided k.natAbs := by
    have kept := natAbs_nearestInt (k * one)
    rw [nearestInt_eq_self number, Int.natAbs_mul, Int.natAbs_natCast] at kept
    rw [← kept, gridUnits_eq, nearest_mul_mul _ _ one_pos, divided]
  unfold ofInt? round at whole
  split at whole
  next =>
    obtain rfl := Option.some.inj whole
    rw [grid, finite_div_finite _ _ _ _ (Sizes.gridUnits_pos sizes), Bool.xor_false] at finite ⊢
    unfold round at finite ⊢
    split at finite
    next fits =>
      rw [dif_pos fits]
      exact same ▸ ⟨_, rfl⟩
    next => cases finite
  next => cases whole

/-- Whether a coordinate that is counted in grid steps lies less than half a step above some
number of them. -/
def StaysBelow (y : Binary64) (k : Int) : Prop :=
  ∃ i, (y * gridSteps).place? = some i ∧ i < k * one + halfUnits

theorem staysBelow_iff {y : Binary64} {i k : Int} (place : (y * gridSteps).place? = some i) :
    y.StaysBelow k ↔ i < k * one + halfUnits := by
  constructor
  · intro ⟨j, found, less⟩
    obtain rfl := Option.some.inj (place.symm.trans found)
    exact less
  · exact fun less => ⟨i, place, less⟩

/-- Whether a coordinate is below `2 ^ 32`, or from `2 ^ 52` grid steps on below `2 ^ 33`, or has
`2 ^ 53` grid steps at least. -/
def IsCalm (y : Binary64) : Prop :=
  y.abs.lt (lit 4294967296 0) = true ∨
    ((lit 4503599627370496 (-6)).le y.abs = true ∧ y.abs.lt (lit 8589934592 0) = true) ∨
    (lit 9007199254740992 (-6)).le y.abs = true

theorem exists_of_roundCoord {x y : Binary64} {k : Int} (rounded : x.roundCoord = .ok y)
    (counted : (x * gridSteps + half).floor? = some k) :
    ∃ i, (x * gridSteps).place? = some i ∧ IsRepresentable i ∧ k = stepsOf i ∧
      ∃ fits, y = .finite (decide (k < 0)) (divided k.natAbs) fits := by
  obtain ⟨s, n, fits, rfl, near⟩ := inReach_of_roundCoord_eq_ok rounded
  have isFinite := isFinite_of_roundCoord rounded
  obtain ⟨k', m, counted', whole, rfl⟩ := roundCoord_eq_ok rounded
  obtain rfl := Option.some.inj (counted.symm.trans counted')
  obtain ⟨fits', product⟩ := mul_gridSteps_eq s fits near
  rw [product] at counted ⊢
  have steps := stepsOf_eq_of_floor? counted
  have number : IsRepresentable (signed s (scaled n)) := by
    rw [IsRepresentable, natAbs_signed]
    exact Nat.dvd_of_mod_eq_zero fits'.1
  have whole' : IsRepresentable (k * one) := steps ▸ isRepresentable_stepsOf number
  exact ⟨_, rfl, number, steps, div_gridSteps_eq whole' whole isFinite⟩

variable {x y : Binary64} {k : Int} (rounded : x.roundCoord = .ok y)
  (counted : (x * gridSteps + half).floor? = some k)

include rounded counted

theorem place?_mul_gridSteps : (y * gridSteps).place? = some (rescaled k) := by
  obtain ⟨_, _, _, _, fits, same⟩ := exists_of_roundCoord rounded counted
  obtain ⟨s, n, fits', finite, near⟩ := inReach_of_roundCoord rounded
  obtain ⟨rfl, rfl⟩ := Binary64.finite.inj (finite.symm.trans same)
  obtain ⟨_, product⟩ := mul_gridSteps_eq _ fits' near
  rw [finite, product]
  rfl

theorem roundCoord_eq_self_iff_returns : y.roundCoord = .ok y ↔ Returns k := by
  obtain ⟨_, _, _, _, fits, same⟩ := exists_of_roundCoord rounded counted
  obtain ⟨z, again⟩ := exists_roundCoord_of_roundCoord rounded
  obtain ⟨k', _, counted', _⟩ := roundCoord_eq_ok again
  obtain ⟨i, place, _, steps, fits', same'⟩ := exists_of_roundCoord again counted'
  obtain rfl := Option.some.inj ((place?_mul_gridSteps rounded counted).symm.trans place)
  rw [again, Except.ok.injEq, same', same, Binary64.finite.injEq, Returns, ← steps, and_comm,
    decide_eq_decide]

/-- A coordinate that has been rounded is left as it is by rounding it again just when it was
rounded to so many grid steps that there are no halves, or is counted less than half a step too
far. -/
theorem roundCoord_eq_self_iff : y.roundCoord = .ok y ↔ 2 ^ 53 ≤ k.natAbs ∨ y.StaysBelow k := by
  obtain ⟨i, _, number, rfl, _⟩ := exists_of_roundCoord rounded counted
  have place := place?_mul_gridSteps rounded counted
  rw [roundCoord_eq_self_iff_returns rounded counted, staysBelow_iff place]
  exact returns_iff (isRepresentable_stepsOf number) (even_stepsOf number)

theorem place?_abs : y.abs.place? = some (divided k.natAbs : Int) := by
  obtain ⟨_, _, _, _, fits, rfl⟩ := exists_of_roundCoord rounded counted
  rfl

theorem natAbs_lt_of_abs_lt (bound : Nat) {t : Binary64} (place : t.place? = some (divided bound))
    (less : y.abs.lt t = true) : k.natAbs < bound := by
  rw [lt, place?_abs rounded counted, place] at less
  have sizes := Int.ofNat_lt.1 (of_decide_eq_true less)
  exact Nat.lt_of_not_le fun le => absurd (divided_mono le) (Nat.not_le.2 sizes)

theorem lt_natAbs_of_le_abs (bound : Nat) {t : Binary64}
    (place : t.place? = some (divided (bound + 1))) (apart : divided bound < divided (bound + 1))
    (le : t.le y.abs = true) : bound < k.natAbs := by
  rw [Binary64.le, place?_abs rounded counted, place] at le
  have sizes := Int.ofNat_le.1 (of_decide_eq_true le)
  exact Nat.lt_of_not_le fun le => absurd (divided_mono le) (Nat.not_le.2 (apart.trans_le sizes))

theorem roundCoord_eq_self_of_isCalm (calm : y.IsCalm) : y.roundCoord = .ok y := by
  have stays : rescaled k < k * one + halfUnits → y.StaysBelow k :=
    (staysBelow_iff (place?_mul_gridSteps rounded counted)).2
  rw [roundCoord_eq_self_iff rounded counted]
  rcases calm with less | ⟨le, less⟩ | le
  · have low := natAbs_lt_of_abs_lt rounded counted (1000000 * 2 ^ 32)
      (by decide +kernel) less
    exact .inr (stays (rescaled_lt_of_low low))
  · have low := lt_natAbs_of_le_abs rounded counted (2 ^ 52 - 1)
      (by decide +kernel) (by decide +kernel) le
    have high := natAbs_lt_of_abs_lt rounded counted (1000000 * 2 ^ 33)
      (by decide +kernel) less
    exact .inr (stays (rescaled_lt_of_high (by omega) high))
  · have large := lt_natAbs_of_le_abs rounded counted (2 ^ 53 - 2)
      (by decide +kernel) (by decide +kernel) le
    obtain ⟨i, _, number, rfl, _⟩ := exists_of_roundCoord rounded counted
    have even := even_stepsOf number (by omega)
    exact .inl (by omega)

end Schematic.Binary64
