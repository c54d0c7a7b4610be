import Schematic.Proofs.Grid
import Schematic.Proofs.Number.Nearest
/-!
How many grid steps a scaled coordinate comes to, sizes and signs taken together.
-/

namespace Schematic.Binary64

def nearestInt (i : Int) : Int :=
  signed (decide (i < 0)) (nearest i.natAbs 1)

/-- Whether an integer of least units is a number but for its size. -/
def IsRepresentable (i : Int) : Prop :=
  spacing i.natAbs ∣ i.natAbs

theorem nearestInt_natCast (n : Nat) : nearestInt n = nearest n 1 := by
  rw [nearestInt, Int.natAbs_natCast, decide_eq_false (by omega)]
  rfl

theorem nearestInt_neg_natCast (n : Nat) : nearestInt (-n) = -(nearest n 1 : Int) := by
  rw [nearestInt, Int.natAbs_neg, Int.natAbs_natCast]
  cases n with
  | zero => rfl
  | succ n =>
      rw [decide_eq_true (by omega)]
      rfl

theorem nearestInt_eq_self {i : Int} (number : IsRepresentable i) : nearestInt i = i := by
  have exact := nearest_mul_self Nat.one_pos number
  rw [Nat.mul_one] at exact
  obtain ⟨n, rfl | rfl⟩ := Int.eq_nat_or_neg i
  · rw [Int.natAbs_natCast] at exact
    rw [nearestInt_natCast, exact]
  · rw [Int.natAbs_neg, Int.natAbs_natCast] at exact
    rw [nearestInt_neg_natCast, exact]

theorem nearestInt_mono {i j : Int} (le : i ≤ j) : nearestInt i ≤ nearestInt j := by
  obtain ⟨m, rfl | rfl⟩ := Int.eq_nat_or_neg i <;> obtain ⟨n, rfl | rfl⟩ := Int.eq_nat_or_neg j
  · rw [nearestInt_natCast, nearestInt_natCast]
    exact Int.ofNat_le.2 (nearest_mono Nat.one_pos (Int.ofNat_le.1 le))
  · obtain ⟨rfl, rfl⟩ : m = 0 ∧ n = 0 := by omega
    rfl
  · rw [nearestInt_neg_natCast, nearestInt_natCast]
    omega
  · rw [nearestInt_neg_natCast, nearestInt_neg_natCast]
    have sizes := nearest_mono (a := n) (b := m) Nat.one_pos (by omega)
    omega

theorem natAbs_nearestInt (i : Int) : (nearestInt i).natAbs = nearest i.natAbs 1 :=
  natAbs_signed _ _

theorem spacing_mul_two_pow_dvd {m : Nat} (few : m ≤ 2 ^ 53) (e : Nat) :
    spacing (m * 2 ^ e) ∣ m * 2 ^ e := by
  rcases Nat.lt_or_eq_of_le few with less | rfl
  · refine Nat.dvd_trans (spacing_dvd_of_lt ?_) (Nat.dvd_mul_left _ _)
    rw [Nat.pow_add]
    exact Nat.mul_lt_mul_of_pos_right less (Nat.two_pow_pos e)
  · rw [← Nat.pow_add, spacing_eq, Nat.log2_two_pow]
    exact Nat.pow_dvd_pow 2 (Nat.sub_le _ _)

theorem isRepresentable_mul_two_pow {m : Int} (few : m.natAbs ≤ 2 ^ 53) (e : Nat) :
    IsRepresentable (m * (2 ^ e : Nat)) := by
  rw [IsRepresentable, Int.natAbs_mul, Int.natAbs_natCast]
  exact spacing_mul_two_pow_dvd few e

theorem one_eq : one = 2 ^ places := by
  delta one
  rw [Nat.pow_eq]

theorem halfUnits_eq : halfUnits = 2 ^ (places - 1) := by
  have half : 1073 = places - 1 := by decide
  delta halfUnits
  rw [half, Nat.pow_eq]

theorem one_eq_two_mul_halfUnits : one = 2 * halfUnits := by
  rw [one_eq, halfUnits_eq, ← pow_succ', Nat.sub_add_cancel (by decide)]

theorem isRepresentable_mul_one {m : Int} (few : m.natAbs ≤ 2 ^ 53) : IsRepresentable (m * one) :=
  one_eq ▸ isRepresentable_mul_two_pow few places

theorem isRepresentable_mul_halfUnits {m : Int} (few : m.natAbs ≤ 2 ^ 53) :
    IsRepresentable (m * halfUnits) :=
  halfUnits_eq ▸ isRepresentable_mul_two_pow few (places - 1)

theorem spacing_of_log2_eq {n e : Nat} (low : 2 ^ (52 + e) ≤ n) (high : n < 2 ^ (53 + e)) :
    spacing n = 2 ^ e := by
  have log : n.log2 = 52 + e := by
    refine (Nat.log2_eq_iff ?_).2 ⟨low, ?_⟩
    · exact Nat.ne_of_gt (Nat.lt_of_lt_of_le (Nat.two_pow_pos _) low)
    · rwa [Nat.add_right_comm]
  rw [spacing_eq, log, Nat.add_sub_cancel_left]

theorem spacing_two_pow (e : Nat) : spacing (2 ^ (52 + e)) = 2 ^ e :=
  spacing_of_log2_eq Nat.le.refl (Nat.pow_lt_pow_right (by decide) (by omega))

theorem spacing_eq_one {n : Nat} (low : 2 ^ 52 * one ≤ n) (high : n < 2 ^ 53 * one) :
    spacing n = one := by
  refine Eq.trans (spacing_of_log2_eq ?_ ?_) (Eq.symm one_eq)
  · rw [pow_add, ← one_eq]
    exact low
  · rw [pow_add, ← one_eq]
    exact high

/-- The grid steps that a scaled number comes to once half a step is added. -/
def stepsOf (i : Int) : Int :=
  nearestInt (i + halfUnits) / one

theorem stepsOf_mono {i j : Int} (le : i ≤ j) : stepsOf i ≤ stepsOf j :=
  Int.ediv_le_ediv (Int.natCast_pos.2 one_pos) (nearestInt_mono (Int.add_le_add_right le _))

theorem le_stepsOf {i k : Int} (number : IsRepresentable (k * one))
    (le : k * one ≤ i + halfUnits) : k ≤ stepsOf i := by
  have kept := nearestInt_mono le
  rw [nearestInt_eq_self number] at kept
  exact Int.le_ediv_of_mul_le (Int.natCast_pos.2 one_pos) kept

theorem stepsOf_le {i j k : Int} (number : IsRepresentable j) (le : i + halfUnits ≤ j)
    (less : j < (k + 1) * one) : stepsOf i ≤ k := by
  have kept := nearestInt_mono le
  rw [nearestInt_eq_self number] at kept
  exact Int.lt_add_one_iff.1
    (Int.ediv_lt_of_lt_mul (Int.natCast_pos.2 one_pos) (kept.trans_lt less))

theorem stepsOf_eq_of_sum {i j k : Int} (number : IsRepresentable j) (sum : i + halfUnits = j)
    (low : k * one ≤ j) (high : j < (k + 1) * one) : stepsOf i = k := by
  rw [stepsOf, sum, nearestInt_eq_self number]
  exact Int.le_antisymm
    (Int.lt_add_one_iff.1 (Int.ediv_lt_of_lt_mul (Int.natCast_pos.2 one_pos) high))
    (Int.le_ediv_of_mul_le (Int.natCast_pos.2 one_pos) low)

theorem nearest_add_halfUnits {n : Nat} (low : 2 ^ 52 ≤ n) (high : n < 2 ^ 53) :
    nearest (n * one + halfUnits) 1 = (n + n % 2) * one := by
  have double := one_eq_two_mul_halfUnits
  have pos := one_pos
  have steps : spacing (n * one + halfUnits) = one := by
    have lower := Nat.mul_le_mul_right one low
    have upper := Nat.mul_le_mul_right one (Nat.succ_le_of_lt high)
    rw [Nat.succ_mul] at upper
    exact spacing_eq_one (by omega) (by omega)
  rw [nearest, Nat.div_one, steps, Nat.one_mul, halfEven_mul_add n (by omega), if_neg (by omega),
    if_neg (by omega)]

theorem stepsOf_mul_one {m : Int} (low : 2 ^ 52 ≤ m.natAbs) (high : m.natAbs < 2 ^ 53) :
    stepsOf (m * one) = m + m % 2 := by
  have double : (one : Int) = 2 * halfUnits := by exact_mod_cast one_eq_two_mul_halfUnits
  have pos : (0 : Int) < one := Int.natCast_pos.2 one_pos
  obtain ⟨n, rfl | rfl⟩ := Int.eq_nat_or_neg m
  · rw [Int.natAbs_natCast] at low high
    have sum : (n : Int) * one + halfUnits = (n * one + halfUnits : Nat) := by push_cast; rfl
    rw [stepsOf, sum, nearestInt_natCast, nearest_add_halfUnits low high, Int.natCast_mul,
      Int.mul_ediv_cancel _ pos.ne']
    push_cast
    rfl
  · rw [Int.natAbs_neg, Int.natAbs_natCast] at low high
    rcases Nat.lt_or_eq_of_le low with less | rfl
    · obtain ⟨n, rfl⟩ : ∃ p, n = p + 1 := ⟨n - 1, by omega⟩
      have sum : (-(n + 1 : Nat) : Int) * one + halfUnits = -(n * one + halfUnits : Nat) := by
        push_cast
        rw [Int.neg_mul, Int.add_mul, double]
        omega
      rw [stepsOf, sum, nearestInt_neg_natCast, nearest_add_halfUnits (by omega) (by omega),
        Int.natCast_mul, ← Int.neg_mul, Int.mul_ediv_cancel _ pos.ne']
      omega
    · -- Half a step above the lowest is a number.
      have even : (-(2 ^ 52 : Nat) : Int) + -(2 ^ 52 : Nat) % 2 = -(2 ^ 52) := by decide
      have number : IsRepresentable ((-(2 ^ 53) + 1 : Int) * halfUnits) :=
        isRepresentable_mul_halfUnits (by decide)
      rw [even]
      refine stepsOf_eq_of_sum number ?_ ?_ ?_
      all_goals
        rw [double]
        omega

theorem two_mul_one_dvd {n : Nat} (large : 2 ^ 53 * one ≤ n) (steps : spacing n ∣ n) :
    2 * one ∣ n := by
  have twice : spacing (2 ^ 53 * one) = 2 * one := by
    have split : 53 + places = 52 + (places + 1) := by omega
    rw [one_eq, ← pow_add, split, spacing_two_pow, pow_succ']
  exact Nat.dvd_trans (twice ▸ spacing_dvd large) steps

theorem nearest_of_large {n m : Nat} (steps : spacing n ∣ n) (large : 2 ^ 53 * one ≤ n)
    (near : m = n + halfUnits ∨ n = m + halfUnits) : nearest m 1 = n := by
  have double := one_eq_two_mul_halfUnits
  have pos := one_pos
  by_cases least : n = 2 ^ 53 * one ∧ n = m + halfUnits
  · -- The number below is as near, but odd.
    obtain ⟨least, below⟩ := least
    have half : m = (2 ^ 53 - 1) * one + halfUnits := by omega
    have even : 2 ^ 53 - 1 + (2 ^ 53 - 1) % 2 = 2 ^ 53 := by decide
    rw [half, nearest_add_halfUnits (by decide) (by decide), even, least]
  · have closer := distance_nearest_le Nat.one_pos m steps
    have number : spacing (nearest m 1) ∣ nearest m 1 := spacing_nearest_dvd Nat.one_pos
    have least' : spacing (2 ^ 53 * one) ∣ 2 ^ 53 * one := by
      rw [one_eq]
      exact spacing_mul_two_pow_dvd Nat.le.refl places
    have dvd := two_mul_one_dvd large steps
    have next := fun less => add_le_of_dvd_of_lt (two_mul_one_dvd Nat.le.refl least') dvd less
    generalize nearest m 1 = r at *
    unfold distance at closer
    have dvd' : 2 * one ∣ r := two_mul_one_dvd (by omega) number
    rcases Nat.lt_trichotomy r n with less | same | more
    · have apart := add_le_of_dvd_of_lt dvd' dvd less
      omega
    · exact same
    · have apart := add_le_of_dvd_of_lt dvd dvd' more
      omega

/-- A number that is so large comes to as many steps as it is. -/
theorem stepsOf_mul_one_of_large {i : Int} (number : IsRepresentable i)
    (large : 2 ^ 53 * one ≤ i.natAbs) : stepsOf i * one = i := by
  have double := one_eq_two_mul_halfUnits
  have pos := one_pos
  have kept : nearestInt (i + halfUnits) = i := by
    unfold IsRepresentable at number
    obtain ⟨n, rfl | rfl⟩ := Int.eq_nat_or_neg i
    · rw [Int.natAbs_natCast] at number large
      rw [← Int.natCast_add, nearestInt_natCast, nearest_of_large number large (.inl rfl)]
    · rw [Int.natAbs_neg, Int.natAbs_natCast] at number large
      have sum : (-n : Int) + halfUnits = -(n - halfUnits : Nat) := by omega
      rw [sum, nearestInt_neg_natCast, nearest_of_large number large (.inr (by omega))]
  have whole : (one : Int) ∣ i := by
    rw [← Int.natAbs_dvd_natAbs, Int.natAbs_natCast]
    exact Nat.dvd_trans (Nat.dvd_mul_left one 2) (two_mul_one_dvd large number)
  rw [stepsOf, kept, Int.ediv_mul_cancel whole]

theorem natAbs_stepsOf_le {i : Int} {n : Nat} (bound : n = 2 ^ 52 ∨ n = 2 ^ 53)
    (inside : i.natAbs ≤ n * one) : (stepsOf i).natAbs ≤ n := by
  have kept : ∀ m : Int, m.natAbs = n → stepsOf (m * one) = m := by
    intro m size
    rcases bound with rfl | rfl
    · rw [stepsOf_mul_one size.ge (by omega)]
      omega
    · have large : 2 ^ 53 * one ≤ (m * one).natAbs := by
        rw [Int.natAbs_mul, Int.natAbs_natCast, size]
      exact Int.eq_of_mul_eq_mul_right (Int.natCast_pos.2 one_pos).ne'
        (stepsOf_mul_one_of_large (isRepresentable_mul_one size.le) large)
  have upper := stepsOf_mono (i := i) (j := n * one) (by omega)
  have lower := stepsOf_mono (i := -n * one) (j := i) (by rw [Int.neg_mul]; omega)
  rw [kept _ (Int.natAbs_natCast n)] at upper
  rw [kept _ (by omega)] at lower
  omega

variable {i : Int} (number : IsRepresentable i)

include number

theorem isRepresentable_stepsOf : IsRepresentable (stepsOf i * one) := by
  rcases Nat.le_total i.natAbs (2 ^ 53 * one) with inside | large
  · exact isRepresentable_mul_one (natAbs_stepsOf_le (.inr rfl) inside)
  · rwa [stepsOf_mul_one_of_large number large]

/-- Where no half steps are left, the number of steps is even. -/
theorem even_stepsOf (low : 2 ^ 52 ≤ (stepsOf i).natAbs) (high : (stepsOf i).natAbs < 2 ^ 53) :
    stepsOf i % 2 = 0 := by
  have pos := one_pos
  rcases Nat.lt_or_ge i.natAbs (2 ^ 52 * one) with inside | beyond
  · have least := natAbs_stepsOf_le (.inl rfl) inside.le
    omega
  rcases Nat.lt_or_ge i.natAbs (2 ^ 53 * one) with inside | large
  · have whole : (one : Int) ∣ i := by
      rw [IsRepresentable, spacing_eq_one beyond inside] at number
      rwa [← Int.natAbs_dvd_natAbs, Int.natAbs_natCast]
    obtain ⟨m, rfl⟩ := whole
    rw [Int.natAbs_mul, Int.natAbs_natCast, Nat.mul_comm] at beyond inside
    rw [Int.mul_comm, stepsOf_mul_one (Nat.le_of_mul_le_mul_right beyond pos)
      (Nat.lt_of_mul_lt_mul_right inside)]
    omega
  · have same := congrArg Int.natAbs (stepsOf_mul_one_of_large number large)
    rw [Int.natAbs_mul, Int.natAbs_natCast] at same
    exact absurd (Nat.le_of_mul_le_mul_right (large.trans_eq same.symm) pos) (Nat.not_le.2 high)

end Schematic.Binary64
