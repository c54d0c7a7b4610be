import Schematic.Proofs.Number.Rounding
/-!
Rounding to the nearest number: no number is closer to a quotient, and a quotient that has been
rounded is found again when its rounded multiple is divided.
-/

namespace Schematic.Binary64

def distance (num den x : Nat) : Nat :=
  ((num : Int) - (x * den : Nat)).natAbs

theorem distance_mul (num den t s : Nat) : distance num den (t * s) = distance num (den * s) t := by
  rw [distance, distance, Nat.mul_assoc, Nat.mul_comm s]

theorem halfEven_mul_add (q : Nat) {den r : Nat} (below : r < den) :
    halfEven (q * den + r) den =
      if 2 * r < den then q else if den < 2 * r then q + 1 else q + q % 2 := by
  have quotient : (q * den + r) / den = q := by
    rw [Nat.mul_comm, Nat.mul_add_div (Nat.zero_lt_of_lt below), Nat.div_eq_of_lt below,
      Nat.add_zero]
  have remainder : (q * den + r) % den = r := by
    rw [Nat.mul_add_mod_self_right, Nat.mod_eq_of_lt below]
  simp only [halfEven, quotient, remainder]

/-- Whether an integer is nearest to a quotient, and even if another is as near. -/
def IsHalfEven (num den h : Nat) : Prop :=
  2 * distance num den h < den ∨ 2 * distance num den h = den ∧ h % 2 = 0

theorem isHalfEven_halfEven (num : Nat) {den : Nat} (pos : 0 < den) :
    IsHalfEven num den (halfEven num den) := by
  obtain ⟨q, r, below, rfl⟩ : ∃ q r, r < den ∧ num = q * den + r :=
    ⟨_, _, Nat.mod_lt num pos, (Nat.div_add_mod' num den).symm⟩
  have next := Nat.add_one_mul q den
  rw [halfEven_mul_add q below]
  unfold IsHalfEven distance
  split
  · omega
  · split
    · rw [next]
      omega
    · rcases Nat.mod_two_eq_zero_or_one q with even | odd
      · rw [even, Nat.add_zero]
        omega
      · rw [odd, next]
        omega

theorem IsHalfEven.halfEven_eq {num den h : Nat} (pos : 0 < den) (nearest : IsHalfEven num den h) :
    halfEven num den = h := by
  unfold IsHalfEven distance at nearest
  rcases Nat.lt_or_ge num (h * den) with below | above
  · cases h with
    | zero => omega
    | succ q =>
        have next := Nat.add_one_mul q den
        rw [next] at below nearest
        obtain ⟨r, rfl⟩ : ∃ r, num = q * den + r := ⟨num - q * den, by omega⟩
        have inside : r < den := by omega
        rw [halfEven_mul_add q inside, if_neg (by omega)]
        split
        · rfl
        · rw [(by omega : q % 2 = 1)]
  · obtain ⟨r, rfl⟩ : ∃ r, num = h * den + r := ⟨num - h * den, by omega⟩
    have inside : r < den := by omega
    rw [halfEven_mul_add h inside]
    split
    · rfl
    · rw [if_neg (by omega), (by omega : h % 2 = 0), Nat.add_zero]

section

variable {den : Nat} (pos : 0 < den)

theorem spacing_dvd_nearest (num den : Nat) : spacing (num / den) ∣ nearest num den :=
  Nat.dvd_mul_left _ _

include pos

theorem two_mul_distance_nearest_le (num : Nat) :
    2 * distance num den (nearest num den) ≤ den * spacing (num / den) := by
  have step : 0 < den * spacing (num / den) := Nat.mul_pos pos (spacing_pos _)
  rw [nearest, distance_mul]
  rcases isHalfEven_halfEven num step with less | ⟨equal, _⟩
  · exact less.le
  · exact equal.le

theorem nearest_mul_self {x : Nat} (steps : spacing x ∣ x) : nearest (x * den) den = x := by
  obtain ⟨t, multiple⟩ := steps
  have step : 0 < den * spacing x := Nat.mul_pos pos (spacing_pos _)
  have whole : x * den = t * (den * spacing x) := by
    conv => lhs; rw [multiple]
    rw [Nat.mul_comm (spacing x), Nat.mul_assoc, Nat.mul_comm den]
  have exact : IsHalfEven (x * den) (den * spacing x) t := by
    unfold IsHalfEven distance
    omega
  rw [nearest, Nat.mul_div_cancel x pos, exact.halfEven_eq step, Nat.mul_comm, ← multiple]

theorem le_nearest {num x : Nat} (steps : spacing x ∣ x) (le : x * den ≤ num) :
    x ≤ nearest num den :=
  (nearest_mul_self pos steps).symm.le.trans (nearest_mono pos le)

omit pos in
theorem le_div_spacing_mul {x q : Nat} (steps : spacing x ∣ x) (le : x ≤ q) :
    x ≤ q / spacing q * spacing q := by
  have multiple : ∀ z, spacing q ∣ z → z ≤ q → z ≤ q / spacing q * spacing q := by
    intro z dvd below
    rw [← Nat.div_mul_cancel dvd]
    exact Nat.mul_le_mul_right _ (Nat.div_le_div_right below)
  by_cases same : q.log2 ≤ x.log2
  · exact multiple x (Nat.dvd_trans (Nat.pow_dvd_pow 2 (Nat.sub_le_sub_right same 52)) steps) le
  · -- A power of two lies between the two.
    have nonzero : q ≠ 0 := fun zero => same (by rw [zero]; exact Nat.zero_le _)
    have below : x < 2 ^ q.log2 :=
      Nat.lt_log2_self.trans_le (Nat.pow_le_pow_right (by decide) (by omega))
    exact below.le.trans
      (multiple _ (Nat.pow_dvd_pow 2 (Nat.sub_le _ _)) (Nat.log2_self_le nonzero))

theorem distance_nearest_le (num : Nat) {x : Nat} (steps : spacing x ∣ x) :
    distance num den (nearest num den) ≤ distance num den x := by
  have error := two_mul_distance_nearest_le pos num
  have comm := Nat.mul_comm den (spacing (num / den))
  unfold distance at error ⊢
  rcases Nat.lt_trichotomy x (nearest num den) with less | same | more
  · have scaled := Nat.mul_le_mul_right den less.le
    rcases Nat.lt_or_ge num (nearest num den * den) with below | above
    · -- The last multiple of the spacing lies between.
      have inside : x ≤ num / den := by
        rw [Nat.le_div_iff_mul_le pos]
        refine Nat.le_of_not_lt fun beyond => absurd ?_ (Nat.not_le.2 less)
        exact nearest_le_of_dvd pos steps beyond.le
      have last := le_div_spacing_mul steps inside
      have floor := Nat.div_mul_le_self (num / den) (spacing (num / den))
      generalize num / den / spacing (num / den) = t at last floor
      have lastScaled := Nat.mul_le_mul_right den last
      have floorScaled := (Nat.le_div_iff_mul_le pos).1 floor
      have apart := Nat.mul_le_mul_right den
        (add_le_of_dvd_of_lt (Nat.dvd_mul_left _ t) (spacing_dvd_nearest num den)
          (Nat.lt_of_mul_lt_mul_right (floorScaled.trans_lt below)))
      rw [Nat.add_mul] at apart
      omega
    · omega
  · rw [same]
  · have scaled := Nat.mul_le_mul_right den more.le
    rcases Nat.lt_or_ge (nearest num den * den) num with above | below
    · rcases Nat.lt_or_ge num (x * den) with inside | beyond
      · have dvd : spacing (num / den) ∣ x :=
          Nat.dvd_trans (spacing_dvd ((Nat.div_lt_iff_lt_mul pos).2 inside).le) steps
        have apart := Nat.mul_le_mul_right den
          (add_le_of_dvd_of_lt (spacing_dvd_nearest num den) dvd more)
        rw [Nat.add_mul] at apart
        omega
      · exact absurd (le_nearest pos steps beyond) (Nat.not_le.2 more)
    · omega

end

theorem halfEven_mul_mul (num den : Nat) {c : Nat} (pos : 0 < c) :
    halfEven (num * c) (den * c) = halfEven num den := by
  have scale : ∀ a b : Nat, a * c < b * c ↔ a < b := fun a b => Nat.mul_lt_mul_right pos
  simp only [halfEven, Nat.mul_div_mul_right _ _ pos, Nat.mul_mod_mul_right, ← Nat.mul_assoc, scale]

theorem nearest_mul_mul (num den : Nat) {c : Nat} (pos : 0 < c) :
    nearest (num * c) (den * c) = nearest num den := by
  rw [nearest, nearest, Nat.mul_div_mul_right _ _ pos, Nat.mul_right_comm,
    halfEven_mul_mul _ _ pos]

section

variable {n c q : Nat} (pos : 0 < c)

include pos

/-- What is as close to the same number has the same spacing, but around a power of two. -/
theorem log2_div_eq {a b s : Nat} (le : a ≤ b) (spos : 0 < s) (dvd : s ∣ q)
    (dvd' : s ∣ spacing (b / c)) (below : 2 * (q * c) ≤ 2 * a + s * c)
    (above : 2 * b ≤ 2 * (q * c) + s * c) (odd : ∀ e, q ≠ 2 ^ e) :
    (a / c).log2 = (b / c).log2 := by
  have mono : (a / c).log2 ≤ (b / c).log2 := by
    rw [Nat.log2_eq_log_two, Nat.log2_eq_log_two]
    exact Nat.log_mono_right (Nat.div_le_div_right le)
  refine Nat.le_antisymm mono (Nat.le_of_not_lt fun less => ?_)
  have nonzero : b / c ≠ 0 := by
    intro zero
    rw [zero] at less
    exact absurd less (Nat.not_lt_zero _)
  have power : s ∣ 2 ^ (b / c).log2 :=
    Nat.dvd_trans dvd' (Nat.pow_dvd_pow 2 (Nat.sub_le _ _))
  have inside : a < 2 ^ (b / c).log2 * c := by
    rw [← Nat.div_lt_iff_lt_mul pos]
    exact Nat.lt_log2_self.trans_le (Nat.pow_le_pow_right (by decide) less)
  have beyond : 2 ^ (b / c).log2 * c ≤ b := by
    rw [← Nat.le_div_iff_mul_le pos]
    exact Nat.log2_self_le nonzero
  have step : 0 < s * c := Nat.mul_pos spos pos
  rcases Nat.lt_or_gt_of_ne (odd (b / c).log2) with low | high
  · have apart := Nat.mul_le_mul_right c (add_le_of_dvd_of_lt dvd power low)
    rw [Nat.add_mul] at apart
    omega
  · have apart := Nat.mul_le_mul_right c (add_le_of_dvd_of_lt power dvd high)
    rw [Nat.add_mul] at apart
    omega

theorem nearest_eq_of_distance_le {a b : Nat} (same : (b / c).log2 = (a / c).log2)
    (closer : distance b c (nearest a c) ≤ distance a c (nearest a c)) :
    nearest b c = nearest a c := by
  have steps : spacing (b / c) = spacing (a / c) := by rw [spacing_eq, spacing_eq, same]
  have step : 0 < c * spacing (a / c) := Nat.mul_pos pos (spacing_pos _)
  have nearA := isHalfEven_halfEven a step
  rw [nearest, distance_mul, distance_mul] at closer
  have nearB : IsHalfEven b (c * spacing (a / c)) (halfEven a (c * spacing (a / c))) := by
    unfold IsHalfEven at nearA ⊢
    omega
  rw [nearest, nearest, steps, nearB.halfEven_eq step]

/-- A number that has been divided and multiplied back gives the same quotient. -/
theorem nearest_nearest_nearest (few : c < 2 ^ 53) (steps : spacing n ∣ n) :
    nearest (nearest (nearest n c * c) 1) c = nearest n c := by
  by_cases power : ∃ e, nearest n c = 2 ^ e
  · -- The product is a number.
    obtain ⟨e, power⟩ := power
    have bits : nearest n c * c < 2 ^ (53 + e) := by
      rw [power, Nat.mul_comm, Nat.pow_add]
      exact Nat.mul_lt_mul_of_pos_right few (Nat.two_pow_pos e)
    have exact := nearest_mul_self Nat.one_pos
      (Nat.dvd_trans (spacing_dvd_of_lt bits) (power ▸ Nat.dvd_mul_right _ _))
    rw [Nat.mul_one] at exact
    rw [exact, nearest_mul_self pos (spacing_nearest_dvd pos)]
  · -- The number itself is no closer to the product than what the product is rounded to.
    have closer := distance_nearest_le Nat.one_pos (nearest n c * c) steps
    have error := two_mul_distance_nearest_le pos n
    have dvd := spacing_dvd_nearest n c
    have spos := spacing_pos (n / c)
    have comm := Nat.mul_comm c (spacing (n / c))
    have odd : ∀ e, nearest n c ≠ 2 ^ e := fun e same => power ⟨e, same⟩
    generalize nearest (nearest n c * c) 1 = p at closer ⊢
    unfold distance at closer error
    rw [Nat.mul_one, Nat.mul_one] at closer
    refine nearest_eq_of_distance_le pos ?_ ?_
    · rcases Nat.le_total n p with le | le
      · have dvd' := spacing_dvd (Nat.div_le_div_right (c := c) le)
        exact (log2_div_eq pos le spos dvd dvd' (by omega) (by omega) odd).symm
      · exact log2_div_eq pos le spos dvd (Nat.dvd_refl _) (by omega) (by omega) odd
    · unfold distance
      omega

end

end Schematic.Binary64
