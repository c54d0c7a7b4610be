import Schematic.Number.Binary64
import Mathlib.Algebra.Group.Nat.Defs
import Mathlib.Data.Nat.Log
/-!
Rounding to a number: the result fits, and it passes no number that fits.
-/

namespace Schematic.Binary64

theorem halfEven_le {num den t : Nat} (pos : 0 < den) (le : num ≤ t * den) :
    halfEven num den ≤ t := by
  have quotient : num / den ≤ t := by
    rw [Nat.div_le_iff_le_mul_add_pred pos, Nat.mul_comm]
    exact Nat.le_add_right_of_le le
  have split := Nat.div_add_mod num den
  rcases Nat.lt_or_eq_of_le quotient with below | equal
  · unfold halfEven
    grind
  · have none : num % den = 0 := by
      rw [equal, Nat.mul_comm] at split
      omega
    simp only [halfEven, none, equal]
    rw [if_pos (by omega)]

theorem div_le_halfEven (num den : Nat) : num / den ≤ halfEven num den := by
  unfold halfEven
  grind

theorem halfEven_le_succ (num den : Nat) : halfEven num den ≤ num / den + 1 := by
  unfold halfEven
  grind

theorem halfEven_mono {a b : Nat} (den : Nat) (le : a ≤ b) : halfEven a den ≤ halfEven b den := by
  have quotients : a / den ≤ b / den := Nat.div_le_div_right le
  rcases Nat.lt_or_eq_of_le quotients with less | equal
  · exact (halfEven_le_succ a den).trans (less.trans_le (div_le_halfEven b den))
  · have remainders : a % den ≤ b % den := by
      have splitA := Nat.div_add_mod a den
      have splitB := Nat.div_add_mod b den
      rw [equal] at splitA
      omega
    unfold halfEven
    grind

theorem spacing_eq (n : Nat) : spacing n = 2 ^ (n.log2 - 52) :=
  rfl

theorem spacing_pos (n : Nat) : 0 < spacing n :=
  Nat.two_pow_pos _

theorem add_le_of_dvd_of_lt {s m n : Nat} (left : s ∣ m) (right : s ∣ n) (less : m < n) :
    m + s ≤ n := by
  obtain ⟨a, rfl⟩ := left
  obtain ⟨b, rfl⟩ := right
  rw [← Nat.mul_succ]
  exact Nat.mul_le_mul_left s (Nat.lt_of_mul_lt_mul_left less)

theorem spacing_dvd {m n : Nat} (le : m ≤ n) : spacing m ∣ spacing n := by
  refine Nat.pow_dvd_pow 2 (Nat.sub_le_sub_right ?_ 52)
  rw [Nat.log2_eq_log_two, Nat.log2_eq_log_two]
  exact Nat.log_mono_right le

theorem spacing_dvd_of_lt {n e : Nat} (lt : n < 2 ^ (53 + e)) : spacing n ∣ 2 ^ e := by
  refine Nat.pow_dvd_pow 2 ?_
  by_cases zero : n = 0
  · rw [zero]
    exact Nat.zero_le e
  · have log := (Nat.log2_lt zero).2 lt
    omega

theorem lt_two_pow_spacing (n : Nat) : n < 2 ^ 53 * spacing n := by
  rw [spacing_eq, ← Nat.pow_add]
  exact Nat.lt_log2_self.trans_le (Nat.pow_le_pow_right (by decide) (by omega))

variable {num den : Nat}

theorem spacing_nearest_dvd (pos : 0 < den) : spacing (nearest num den) ∣ nearest num den := by
  have step : 0 < den * spacing (num / den) := Nat.mul_pos pos (spacing_pos _)
  have bits : halfEven num (den * spacing (num / den)) ≤ 2 ^ 53 := by
    refine halfEven_le step ?_
    calc
      num ≤ den * (num / den + 1) := (Nat.lt_mul_div_succ num pos).le
      _ ≤ den * (2 ^ 53 * spacing (num / den)) :=
        Nat.mul_le_mul_left den (lt_two_pow_spacing (num / den))
      _ = 2 ^ 53 * (den * spacing (num / den)) := Nat.mul_left_comm _ _ _
  rw [nearest]
  generalize halfEven num (den * spacing (num / den)) = h at bits
  rcases Nat.lt_or_eq_of_le bits with below | rfl
  · have less : h * spacing (num / den) < 2 ^ (53 + ((num / den).log2 - 52)) := by
      rw [Nat.pow_add]
      exact Nat.mul_lt_mul_of_pos_right below (spacing_pos _)
    exact Nat.dvd_trans (spacing_dvd_of_lt less) (Nat.dvd_mul_left _ _)
  · -- A carry into the next power of two.
    rw [spacing_eq, spacing_eq, ← Nat.pow_add, Nat.log2_two_pow]
    exact Nat.pow_dvd_pow 2 (by omega)

theorem nearest_le_of_dvd {x : Nat} (pos : 0 < den) (steps : spacing x ∣ x) (le : num ≤ x * den) :
    nearest num den ≤ x := by
  have below : num / den ≤ x := Nat.div_le_of_le_mul (Nat.mul_comm x den ▸ le)
  obtain ⟨t, multiple⟩ := Nat.dvd_trans (spacing_dvd below) steps
  rw [Nat.mul_comm] at multiple
  rw [nearest]
  conv => rhs; rw [multiple]
  refine Nat.mul_le_mul_right _ (halfEven_le (Nat.mul_pos pos (spacing_pos _)) ?_)
  calc
    num ≤ x * den := le
    _ = t * spacing (num / den) * den := by rw [← multiple]
    _ = t * (den * spacing (num / den)) := by rw [Nat.mul_assoc, Nat.mul_comm den]

theorem nearest_le {x : Nat} (pos : 0 < den) (fits : Fits x) (le : num ≤ x * den) :
    nearest num den ≤ x :=
  nearest_le_of_dvd pos (Nat.dvd_of_mod_eq_zero fits.1) le

theorem fits_nearest (pos : 0 < den) (less : nearest num den < limit) :
    Fits (nearest num den) :=
  ⟨Nat.mod_eq_zero_of_dvd (spacing_nearest_dvd pos), less⟩

theorem round_eq_finite {negative : Bool} (pos : 0 < den) (less : nearest num den < limit) :
    round negative num den = .finite negative (nearest num den) (fits_nearest pos less) :=
  dif_pos (fits_nearest pos less)

theorem two_pow_log2_le_nearest (nonzero : num / den ≠ 0) :
    2 ^ (num / den).log2 ≤ nearest num den := by
  have whole : 2 ^ (num / den).log2 ≤ num / den := Nat.log2_self_le nonzero
  have steps : 2 ^ (num / den).log2 / spacing (num / den) * spacing (num / den) =
      2 ^ (num / den).log2 :=
    Nat.div_mul_cancel (Nat.pow_dvd_pow 2 (Nat.sub_le _ _))
  rw [nearest]
  conv => lhs; rw [← steps]
  refine Nat.mul_le_mul_right _ (le_trans ?_ (div_le_halfEven _ _))
  rw [← Nat.div_div_eq_div_mul]
  exact Nat.div_le_div_right whole

theorem nearest_mono {a b den : Nat} (pos : 0 < den) (le : a ≤ b) :
    nearest a den ≤ nearest b den := by
  have quotients : a / den ≤ b / den := Nat.div_le_div_right le
  by_cases same : (a / den).log2 = (b / den).log2
  · have steps : spacing (a / den) = spacing (b / den) := by rw [spacing_eq, spacing_eq, same]
    rw [nearest, nearest, steps]
    exact Nat.mul_le_mul_right _ (halfEven_mono _ le)
  · -- A power of two lies between the two quotients.
    have less : (a / den).log2 < (b / den).log2 := by
      refine Nat.lt_of_le_of_ne ?_ same
      rw [Nat.log2_eq_log_two, Nat.log2_eq_log_two]
      exact Nat.log_mono_right quotients
    have nonzero : b / den ≠ 0 := by
      intro zero
      rw [zero] at less
      exact absurd less (Nat.not_lt_zero _)
    have below : a / den < 2 ^ (b / den).log2 :=
      Nat.lt_log2_self.trans_le (Nat.pow_le_pow_right (by decide) less)
    have steps : spacing (2 ^ (b / den).log2) ∣ 2 ^ (b / den).log2 := by
      rw [spacing_eq, Nat.log2_two_pow]
      exact Nat.pow_dvd_pow 2 (Nat.sub_le _ _)
    refine (nearest_le_of_dvd pos steps ?_).trans (two_pow_log2_le_nearest nonzero)
    exact ((Nat.div_lt_iff_lt_mul pos).1 below).le

end Schematic.Binary64
