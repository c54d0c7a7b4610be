import Schematic.Proofs.Grid.Counting
/-!
A number of grid steps that is divided and scaled again. It comes back nearly as it was, and where
half a step more makes it another number of steps, it is not divided alike again.
-/

namespace Schematic.Binary64

def divided (k : Nat) : Nat :=
  nearest (k * one) 1000000

def scaled (n : Nat) : Nat :=
  nearest (n * 1000000) 1

def rescaled (k : Int) : Int :=
  signed (decide (k < 0)) (scaled (divided k.natAbs))

theorem rescaled_natCast (n : Nat) : rescaled n = scaled (divided n) := by
  rw [rescaled, Int.natAbs_natCast, decide_eq_false (by omega)]
  rfl

theorem scaled_divided_zero : scaled (divided 0) = 0 := by
  simp [scaled, divided, nearest, halfEven]

theorem rescaled_neg_natCast (n : Nat) : rescaled (-n) = -(scaled (divided n) : Int) := by
  rw [rescaled, Int.natAbs_neg, Int.natAbs_natCast]
  cases n with
  | zero => simp [scaled_divided_zero, signed]
  | succ n =>
      rw [decide_eq_true (by omega), signed, if_pos rfl]

theorem natAbs_rescaled (k : Int) : (rescaled k).natAbs = scaled (divided k.natAbs) :=
  natAbs_signed _ _

theorem divided_mono {a b : Nat} (le : a ≤ b) : divided a ≤ divided b :=
  nearest_mono (by decide) (Nat.mul_le_mul_right one le)

theorem scaled_mono {a b : Nat} (le : a ≤ b) : scaled a ≤ scaled b :=
  nearest_mono Nat.one_pos (Nat.mul_le_mul_right 1000000 le)

theorem isRepresentable_rescaled (k : Int) : IsRepresentable (rescaled k) := by
  rw [IsRepresentable, natAbs_rescaled]
  exact spacing_nearest_dvd Nat.one_pos

theorem scaled_divided_two_pow :
    ∀ e ∈ [51, 52, 53], scaled (divided (2 ^ e)) = 2 ^ e * one := by
  decide +kernel

theorem le_natAbs_rescaled {k : Int} {e : Nat} (listed : e ∈ [51, 52, 53])
    (large : 2 ^ e ≤ k.natAbs) : 2 ^ e * one ≤ (rescaled k).natAbs := by
  rw [natAbs_rescaled, ← scaled_divided_two_pow e listed]
  exact scaled_mono (divided_mono large)

/-- A quarter of a step for zero, half a step for one, a step for two. -/
@[irreducible] def fraction (e : Nat) : Nat :=
  2 ^ (places - 2 + e)

theorem fraction_zero : one = 4 * fraction 0 := by
  have split : 2 + (places - 2 + 0) = places := by decide
  rw [fraction, one_eq, (by decide : 4 = 2 ^ 2), ← pow_add, split]

theorem fraction_one : fraction 1 = halfUnits := by
  have split : places - 2 + 1 = places - 1 := by decide
  rw [fraction, halfUnits_eq, split]

theorem fraction_two : fraction 2 = one := by
  have split : places - 2 + 2 = places := by decide
  rw [fraction, one_eq, split]

theorem spacing_mul_fraction_dvd {m : Nat} (few : m ≤ 2 ^ 53) (e : Nat) :
    spacing (m * fraction e) ∣ m * fraction e := by
  rw [fraction]
  exact spacing_mul_two_pow_dvd few _

theorem isRepresentable_mul_fraction {m : Int} (few : m.natAbs ≤ 2 ^ 53) (e : Nat) :
    IsRepresentable (m * fraction e) := by
  rw [fraction]
  exact isRepresentable_mul_two_pow few _

theorem mul_one_eq_mul_fraction {e : Nat} (le : e ≤ 2) (k : Nat) :
    k * one = k * 2 ^ (2 - e) * fraction e := by
  rw [one_eq, fraction, Nat.mul_assoc, ← pow_add, places]
  congr 2
  omega

theorem distance_divided_lt {k e : Nat} (small : k < 1000000 * 2 ^ (32 + e)) :
    distance (k * one) 1000000 (divided k) < fraction e := by
  obtain ⟨p, split⟩ : ∃ p, places = p + 21 := ⟨1053, rfl⟩
  have quotient : k * one / 1000000 < 2 ^ (53 + (p + e)) := by
    rw [Nat.div_lt_iff_lt_mul (by decide)]
    calc
      k * one < 1000000 * 2 ^ (32 + e) * one := Nat.mul_lt_mul_of_pos_right small one_pos
      _ = 2 ^ (53 + (p + e)) * 1000000 := by
        rw [one_eq, split, Nat.mul_assoc, ← pow_add, Nat.mul_comm]
        congr 2
        omega
  have error := two_mul_distance_nearest_le (by decide : 0 < 1000000) (k * one)
  have steps := Nat.le_of_dvd (Nat.two_pow_pos _) (spacing_dvd_of_lt quotient)
  have size : fraction e = 2 ^ 19 * 2 ^ (p + e) := by
    rw [fraction, split, ← pow_add]
    congr 1
    omega
  have pos := Nat.two_pow_pos (p + e)
  change 2 * distance (k * one) 1000000 (divided k) ≤ _ at error
  omega

theorem distance_scaled_divided_le {k e : Nat} (le : e ≤ 2) (small : k < 2 ^ (51 + e)) :
    scaled (divided k) ≤ k * one + fraction e ∧ k * one ≤ scaled (divided k) + fraction e := by
  have near : k < 1000000 * 2 ^ (32 + e) := by
    rw [pow_add] at small ⊢
    omega
  have error := distance_divided_lt near
  have few : k * 2 ^ (2 - e) < 2 ^ 53 := by
    calc
      k * 2 ^ (2 - e) < 2 ^ (51 + e) * 2 ^ (2 - e) :=
        Nat.mul_lt_mul_of_pos_right small (Nat.two_pow_pos _)
      _ = 2 ^ 53 := by
        rw [← pow_add]
        congr 1
        omega
  rw [mul_one_eq_mul_fraction le k] at error ⊢
  generalize k * 2 ^ (2 - e) = m at *
  have above := spacing_mul_fraction_dvd (m := m + 1) few e
  have below := spacing_mul_fraction_dvd (m := m - 1) (by omega) e
  unfold distance at error
  rw [Nat.add_one_mul] at above
  rw [Nat.sub_one_mul] at below
  refine ⟨nearest_le_of_dvd Nat.one_pos above (by omega), ?_⟩
  have low : m * fraction e - fraction e ≤ scaled (divided k) :=
    le_nearest Nat.one_pos below (by omega)
  omega

theorem natAbs_rescaled_sub (k : Int) : (rescaled k - k * one).natAbs =
    ((scaled (divided k.natAbs) : Int) - (k.natAbs * one : Nat)).natAbs := by
  obtain ⟨n, rfl | rfl⟩ := Int.eq_nat_or_neg k
  · rw [rescaled_natCast, Int.natAbs_natCast]
    omega
  · rw [rescaled_neg_natCast, Int.natAbs_neg, Int.natAbs_natCast, Int.neg_mul]
    omega

/-- Steps come back with an error of a quarter of a step, of half a step or of a step, as their
number is small or large. -/
theorem natAbs_rescaled_sub_le {k : Int} {e : Nat} (le : e ≤ 2) (small : k.natAbs < 2 ^ (51 + e)) :
    (rescaled k - k * one).natAbs ≤ fraction e := by
  obtain ⟨above, below⟩ := distance_scaled_divided_le le small
  rw [natAbs_rescaled_sub]
  omega

theorem natAbs_rescaled_sub_lt {k : Int} {e : Nat} (number : IsRepresentable (k * one))
    (near : k.natAbs < 1000000 * 2 ^ (32 + e)) :
    (rescaled k - k * one).natAbs < 2 * fraction e := by
  rw [IsRepresentable, Int.natAbs_mul, Int.natAbs_natCast] at number
  have error := distance_divided_lt near
  have closer := distance_nearest_le Nat.one_pos (divided k.natAbs * 1000000) number
  change distance _ 1 (scaled (divided k.natAbs)) ≤ _ at closer
  unfold distance at error closer
  rw [natAbs_rescaled_sub]
  omega

section

variable {k : Int}

theorem stepsOf_rescaled_of_small (small : k.natAbs < 2 ^ 51) :
    rescaled k < k * one + halfUnits ∧ stepsOf (rescaled k) = k := by
  have quarter : (one : Int) = 4 * fraction 0 := by exact_mod_cast fraction_zero
  have double : (one : Int) = 2 * halfUnits := by exact_mod_cast one_eq_two_mul_halfUnits
  have pos : (0 : Int) < one := Int.natCast_pos.2 one_pos
  have near := natAbs_rescaled_sub_le (e := 0) (by decide) small
  have number : IsRepresentable ((4 * k + 3) * fraction 0) :=
    isRepresentable_mul_fraction (by omega) 0
  have whole : IsRepresentable (k * one) := isRepresentable_mul_one (by omega)
  have split : (4 * k + 3) * fraction 0 = k * one + 3 * fraction 0 := by
    rw [quarter, Int.add_mul, Int.mul_left_comm, Int.mul_assoc]
  refine ⟨by omega, Int.le_antisymm (stepsOf_le number ?_ ?_) (le_stepsOf whole ?_)⟩
  · rw [split]
    omega
  · rw [split, Int.add_mul]
    omega
  · omega

/-- Where a fraction of a step is as much as numbers are apart, the steps come back as they are, or
off by that fraction. -/
theorem rescaled_eq {e : Nat} (listed : e = 1 ∨ e = 2) (low : 2 ^ (50 + e) ≤ k.natAbs)
    (high : k.natAbs < 2 ^ (51 + e)) : rescaled k = k * one - fraction e ∨
      rescaled k = k * one ∨ rescaled k = k * one + fraction e := by
  have apart : spacing (2 ^ (50 + e) * one) = fraction e := by
    have split : 50 + e + places = 52 + (places - 2 + e) := by
      rw [places]
      omega
    rw [one_eq, ← pow_add, split, spacing_two_pow, fraction]
  have large : 2 ^ (50 + e) * one ≤ (rescaled k).natAbs :=
    le_natAbs_rescaled (by rcases listed with rfl | rfl <;> decide) low
  have pos : 0 < fraction e := apart ▸ spacing_pos _
  have back : (fraction e : Int) ∣ rescaled k := by
    rw [← Int.natAbs_dvd_natAbs, Int.natAbs_natCast, ← apart]
    exact Nat.dvd_trans (spacing_dvd large) (isRepresentable_rescaled k)
  have whole : (fraction e : Int) ∣ k * one := by
    have dvd : fraction e ∣ one := by
      rcases listed with rfl | rfl
      · exact ⟨2, by rw [fraction_one, one_eq_two_mul_halfUnits, Nat.mul_comm]⟩
      · exact ⟨1, by rw [fraction_two, Nat.mul_one]⟩
    exact Int.dvd_mul_of_dvd_right (Int.natCast_dvd_natCast.2 dvd)
  have near := natAbs_rescaled_sub_le (by rcases listed with rfl | rfl <;> decide) high
  obtain ⟨m, split⟩ := Int.dvd_sub back whole
  rw [split, Int.natAbs_mul, Int.natAbs_natCast] at near
  have small : m.natAbs ≤ 1 := Nat.le_of_mul_le_mul_left (near.trans_eq (Nat.mul_one _).symm) pos
  obtain rfl | rfl | rfl : m = -1 ∨ m = 0 ∨ m = 1 := by omega
  all_goals omega

theorem rescaled_lt_of_low (low : k.natAbs < 1000000 * 2 ^ 32) :
    rescaled k < k * one + halfUnits := by
  have near := natAbs_rescaled_sub_lt (e := 0) (isRepresentable_mul_one (by omega)) low
  have quarter := fraction_zero
  have double := one_eq_two_mul_halfUnits
  omega

theorem rescaled_lt_of_high (low : 2 ^ 52 ≤ k.natAbs) (high : k.natAbs < 1000000 * 2 ^ 33) :
    rescaled k < k * one + halfUnits := by
  have near := natAbs_rescaled_sub_lt (e := 1) (isRepresentable_mul_one (by omega)) high
  have double := one_eq_two_mul_halfUnits
  have pos := one_pos
  rw [fraction_one] at near
  rcases rescaled_eq (.inr rfl) low (by omega) with below | exact | above
  · omega
  · omega
  · rw [fraction_two] at above
    omega

theorem stepsOf_rescaled_of_halves (low : 2 ^ 51 ≤ k.natAbs) (high : k.natAbs < 2 ^ 52) :
    (rescaled k < k * one + halfUnits ∧ stepsOf (rescaled k) = k) ∨
      (k * one + halfUnits ≤ rescaled k ∧ stepsOf (rescaled k) = k + 1) := by
  have double : (one : Int) = 2 * halfUnits := by exact_mod_cast one_eq_two_mul_halfUnits
  have pos : (0 : Int) < one := Int.natCast_pos.2 one_pos
  have next := Int.add_mul k 1 one
  have second := Int.add_mul (k + 1) 1 one
  have same : IsRepresentable (k * one) := isRepresentable_mul_one (by omega)
  rcases rescaled_eq (.inl rfl) low high with below | exact | above
  · rw [fraction_one] at below
    exact .inl ⟨by omega, stepsOf_eq_of_sum same (by omega) (by omega) (by omega)⟩
  · have half : IsRepresentable ((2 * k + 1) * halfUnits) :=
      isRepresentable_mul_halfUnits (by omega)
    have split : (2 * k + 1) * halfUnits = k * one + halfUnits := by
      rw [double, Int.add_mul, Int.mul_left_comm, Int.mul_assoc, Int.one_mul]
    exact .inl ⟨by omega, stepsOf_eq_of_sum half (by omega) (by omega) (by omega)⟩
  · rw [fraction_one] at above
    have more : IsRepresentable ((k + 1) * one) := isRepresentable_mul_one (by omega)
    exact .inr ⟨by omega, stepsOf_eq_of_sum more (by omega) (by omega) (by omega)⟩

theorem stepsOf_rescaled_of_wholes (low : 2 ^ 52 ≤ k.natAbs) (high : k.natAbs < 2 ^ 53)
    (even : k % 2 = 0) :
    (rescaled k < k * one + halfUnits ∧ stepsOf (rescaled k) = k) ∨
      (k * one + halfUnits ≤ rescaled k ∧ stepsOf (rescaled k) = k + 2) := by
  have double : (one : Int) = 2 * halfUnits := by exact_mod_cast one_eq_two_mul_halfUnits
  have pos : (0 : Int) < one := Int.natCast_pos.2 one_pos
  -- What comes back is a whole number of steps, none of which are halved.
  obtain ⟨m, whole, size⟩ : ∃ m : Int, rescaled k = m * one ∧ (m = k - 1 ∨ m = k ∨ m = k + 1) := by
    rcases rescaled_eq (.inr rfl) low high with below | exact | above
    · exact ⟨k - 1, by rw [below, fraction_two, Int.sub_mul, Int.one_mul], .inl rfl⟩
    · exact ⟨k, exact, .inr (.inl rfl)⟩
    · exact ⟨k + 1, by rw [above, fraction_two, Int.add_mul, Int.one_mul], .inr (.inr rfl)⟩
  have large : 2 ^ 52 ≤ m.natAbs := by
    have back := le_natAbs_rescaled (e := 52) (by decide) low
    rw [whole, Int.natAbs_mul, Int.natAbs_natCast] at back
    exact Nat.le_of_mul_le_mul_right back one_pos
  rw [whole, stepsOf_mul_one large (by omega)]
  rcases size with rfl | rfl | rfl
  · rw [Int.sub_mul]
    exact .inl ⟨by omega, by omega⟩
  · exact .inl ⟨by omega, by omega⟩
  · rw [Int.add_mul]
    exact .inr ⟨by omega, by omega⟩

/-- Numbers of steps that are far enough apart are not divided alike. -/
theorem divided_ne {a b e : Nat} (smallA : a < 1000000 * 2 ^ (32 + e))
    (smallB : b < 1000000 * 2 ^ (32 + e)) (apart : a * one + 2 * fraction e ≤ b * one) :
    divided a ≠ divided b := by
  intro same
  have nearA := distance_divided_lt smallA
  have nearB := distance_divided_lt smallB
  rw [← same] at nearB
  unfold distance at nearA nearB
  omega

/-- Whether a number of grid steps, once divided and scaled, is divided alike again. -/
def Returns (k : Int) : Prop :=
  divided (stepsOf (rescaled k)).natAbs = divided k.natAbs ∧ (stepsOf (rescaled k) < 0 ↔ k < 0)

theorem returns_of_stepsOf_eq (same : stepsOf (rescaled k) = k) : Returns k := by
  rw [Returns, same]
  exact ⟨rfl, Iff.rfl⟩

theorem not_returns_of_stepsOf_eq {e : Nat} (more : stepsOf (rescaled k) = k + e)
    (listed : e = 1 ∨ e = 2) (small : k.natAbs < 2 ^ (51 + e)) : ¬ Returns k := by
  have double : e * one = 2 * fraction e := by
    rcases listed with rfl | rfl
    · rw [fraction_one, Nat.one_mul, one_eq_two_mul_halfUnits]
    · rw [fraction_two]
  have near : 2 ^ (51 + e) + e ≤ 1000000 * 2 ^ (32 + e) := by
    rcases listed with rfl | rfl <;> decide
  rw [Returns, more]
  intro ⟨same, signs⟩
  rcases Int.lt_or_le k 0 with negative | positive
  · have size : k.natAbs = (k + e).natAbs + e := by omega
    refine divided_ne (e := e) (by omega) (by omega) ?_ same
    rw [size, Nat.add_mul, double]
  · have size : (k + e).natAbs = k.natAbs + e := by omega
    refine divided_ne (e := e) (by omega) (by omega) ?_ same.symm
    rw [size, Nat.add_mul, double]

theorem returns_of_large (number : IsRepresentable (k * one)) (large : 2 ^ 53 ≤ k.natAbs) :
    Returns k := by
  have back := le_natAbs_rescaled (e := 53) (by decide) large
  have kept := stepsOf_mul_one_of_large (isRepresentable_rescaled k) back
  constructor
  · have size : (stepsOf (rescaled k)).natAbs * one = scaled (divided k.natAbs) := by
      rw [← natAbs_rescaled, ← kept, Int.natAbs_mul, Int.natAbs_natCast, kept]
    have steps : spacing (k.natAbs * one) ∣ k.natAbs * one := by
      rwa [IsRepresentable, Int.natAbs_mul, Int.natAbs_natCast] at number
    calc
      divided (stepsOf (rescaled k)).natAbs = nearest (scaled (divided k.natAbs)) 1000000 := by
        rw [divided, size]
      _ = divided k.natAbs := nearest_nearest_nearest (by decide) (by decide) steps
  · have pos : (0 : Int) < one := Int.natCast_pos.2 one_pos
    have sign : rescaled k < 0 ↔ k < 0 := by
      obtain ⟨n, rfl | rfl⟩ := Int.eq_nat_or_neg k
      · rw [rescaled_natCast]
        omega
      · rw [natAbs_rescaled, Int.natAbs_neg, Int.natAbs_natCast] at back
        rw [rescaled_neg_natCast]
        omega
    have scale := Int.mul_lt_mul_right (b := stepsOf (rescaled k)) (c := 0) pos
    rw [kept, Int.zero_mul] at scale
    exact scale.symm.trans sign

/-- A number of steps returns just when it is so large that there are no half steps, or comes back
less than half a step too large. -/
theorem returns_iff (number : IsRepresentable (k * one))
    (even : 2 ^ 52 ≤ k.natAbs → k.natAbs < 2 ^ 53 → k % 2 = 0) :
    Returns k ↔ 2 ^ 53 ≤ k.natAbs ∨ rescaled k < k * one + halfUnits := by
  by_cases small : k.natAbs < 2 ^ 51
  · obtain ⟨less, same⟩ := stepsOf_rescaled_of_small small
    exact iff_of_true (returns_of_stepsOf_eq same) (.inr less)
  by_cases halves : k.natAbs < 2 ^ 52
  · rcases stepsOf_rescaled_of_halves (by omega) halves with ⟨less, same⟩ | ⟨reached, more⟩
    · exact iff_of_true (returns_of_stepsOf_eq same) (.inr less)
    · exact iff_of_false (not_returns_of_stepsOf_eq (e := 1) more (.inl rfl) halves) (by omega)
  by_cases wholes : k.natAbs < 2 ^ 53
  · rcases stepsOf_rescaled_of_wholes (by omega) wholes (even (by omega) wholes) with
      ⟨less, same⟩ | ⟨reached, more⟩
    · exact iff_of_true (returns_of_stepsOf_eq same) (.inr less)
    · exact iff_of_false (not_returns_of_stepsOf_eq (e := 2) more (.inr rfl) wholes) (by omega)
  · exact iff_of_true (returns_of_large number (by omega)) (.inl (by omega))

end

end Schematic.Binary64
