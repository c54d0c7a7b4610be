import Schematic.Point
import Schematic.Proofs.Fault
import Schematic.Proofs.Number.Rounding
/-!
Keys of points. A key has no negative zero, so that points at one place have one key, and two keys
that coincide are equal.
-/

namespace Schematic

namespace Binary64

theorem nearest_one {n : Nat} (fits : Fits n) : nearest n 1 = n := by
  have steps : spacing n ∣ n := Nat.dvd_of_mod_eq_zero fits.1
  have below : 0 < spacing n := spacing_pos n
  simp only [nearest, halfEven, Nat.div_one, Nat.one_mul, fits.1]
  rw [if_pos (by omega)]
  exact Nat.div_mul_cancel steps

theorem round_one {n : Nat} (negative : Bool) (fits : Fits n) :
    round negative n 1 = .finite negative n fits := by
  unfold round
  simp only [nearest_one fits]
  exact dif_pos fits

theorem finite_add_finite (s t : Bool) {m n : Nat} (fits : Fits m) (fits' : Fits n) :
    Binary64.finite s m fits + .finite t n fits' =
      round (if signed s m + signed t n = 0 then s && t else decide (signed s m + signed t n < 0))
        (signed s m + signed t n).natAbs 1 := by
  change add _ _ = _
  rw [add]

theorem finite_add_zero (negative : Bool) {n : Nat} (fits : Fits n) :
    Binary64.finite negative n fits + zero =
      .finite (negative && n != 0) n fits := by
  rw [zero, finite_add_finite]
  have size : (signed negative n + signed false 0).natAbs = n := by
    cases negative <;> simp [signed]
  rw [size, round_one _ fits]
  congr 1
  cases negative with
  | false => simp [signed]
  | true =>
      by_cases zero : n = 0
      · simp [signed, zero]
      · have sum : signed true n + signed false 0 = -(n : Int) := by simp [signed]
        rw [sum, if_neg (by omega), decide_eq_true (by omega)]
        simp [zero]

theorem add_zero_add_zero (x : Binary64) : x + zero + zero = x + zero := by
  cases x with
  | nan => rfl
  | infinite negative => rfl
  | finite negative n fits =>
      rw [finite_add_zero, finite_add_zero]
      simp

theorem isNaN_add_zero (x : Binary64) : (x + zero).isNaN = x.isNaN := by
  cases x with
  | nan => rfl
  | infinite negative => rfl
  | finite negative n fits => rw [finite_add_zero]; rfl

theorem equal_self {x : Binary64} (number : x.isNaN = false) :
    x.equal x = true := by
  cases x with
  | nan => cases number
  | infinite negative => simp [equal, place?]
  | finite negative n fits => simp [equal, place?]

theorem signed_inj {s t : Bool} {m n : Nat} (same : signed s m = signed t n) :
    m = n ∧ (s && m != 0) = (t && n != 0) := by
  cases s <;> cases t <;> simp only [signed] at same <;> grind

theorem add_zero_eq_of_equal {x y : Binary64} (same : x.equal y = true) :
    x + zero = y + zero := by
  cases x with
  | nan => cases same
  | infinite s =>
      cases y with
      | nan => cases same
      | infinite t =>
          have positive : limit ≠ 0 := Nat.ne_of_gt limit_pos
          have signs := (signed_inj (of_decide_eq_true same)).2
          rw [bne_iff_ne.2 positive, Bool.and_true, Bool.and_true] at signs
          rw [signs]
      | finite t n fits =>
          have sizes := (signed_inj (of_decide_eq_true same)).1
          exact absurd fits.2 (Nat.not_lt.2 (Nat.le_of_eq sizes))
  | finite s m fits =>
      cases y with
      | nan => cases same
      | infinite t =>
          have sizes := (signed_inj (of_decide_eq_true same)).1
          exact absurd fits.2 (Nat.not_lt.2 (Nat.le_of_eq sizes.symm))
      | finite t n otherFits =>
          obtain ⟨rfl, signs⟩ := signed_inj (of_decide_eq_true same)
          rw [finite_add_zero, finite_add_zero, signs]

theorem isFinite_div {x y : Binary64} (finite : x.isFinite = true)
    (divisor : ∃ s n fits, y = .finite s n fits ∧ one ≤ n) : (x / y).isFinite = true := by
  obtain ⟨t, n, otherFits, rfl, large⟩ := divisor
  have pos : 0 < n := Nat.lt_of_lt_of_le one_pos large
  cases x with
  | nan => cases finite
  | infinite s => cases finite
  | finite s m fits =>
      have le : nearest (m * one) n ≤ m := nearest_le pos fits (Nat.mul_le_mul_left m large)
      change (div _ _).isFinite = true
      rw [div, if_neg (Nat.ne_of_gt pos), round_eq_finite pos (Nat.lt_of_le_of_lt le fits.2)]
      rfl

theorem isNaN_of_isFinite {x : Binary64} (finite : x.isFinite = true) : x.isNaN = false := by
  cases x with
  | nan => cases finite
  | infinite s => rfl
  | finite s n fits => rfl

theorem isFinite_of_finite? {x y : Binary64} (h : x.finite? = some y) :
    y.isFinite = true := by
  cases x with
  | nan => cases h
  | infinite s => cases h
  | finite s n fits => cases h; rfl

theorem one_le_gridSteps :
    ∃ s n fits, gridSteps = .finite s n fits ∧ one ≤ n := by
  obtain ⟨fits, steps⟩ : ∃ fits, gridSteps = .finite false (1000000 * one) fits := by
    decide +kernel
  exact ⟨false, 1000000 * one, fits, steps, Nat.le_mul_of_pos_left one (by decide)⟩

theorem roundCoord_eq_ok {x y : Binary64} (h : x.roundCoord = .ok y) :
    ∃ steps n, (x * gridSteps + half).floor? = some steps ∧
      ofInt? steps = some n ∧ y = n / gridSteps := by
  unfold roundCoord at h
  cases floored : (x * gridSteps + half).floor? with
  | none => rw [floored] at h; cases h
  | some steps =>
      cases rounded : ofInt? steps with
      | none => rw [floored, Option.elim_some, rounded] at h; cases h
      | some n =>
          rw [floored, Option.elim_some, rounded] at h
          cases h
          exact ⟨steps, n, rfl, rounded, rfl⟩

theorem floor?_infinite_add (s : Bool) (y : Binary64) : (infinite s + y).floor? = none := by
  cases y with
  | nan => rfl
  | finite t n fits => rfl
  | infinite t =>
      change (if s = t then infinite s else nan).floor? = none
      split <;> rfl

theorem isFinite_of_roundCoord_eq_ok {x y : Binary64} (h : x.roundCoord = .ok y) :
    x.isFinite = true := by
  obtain ⟨steps, n, floored, _⟩ := roundCoord_eq_ok h
  obtain ⟨t, g, gridFits, grid, large⟩ := one_le_gridSteps
  have nonzero : g ≠ 0 := Nat.ne_of_gt (Nat.lt_of_lt_of_le one_pos large)
  cases x with
  | finite s m fits => rfl
  | nan =>
      have product : nan * gridSteps = nan := by
        rw [grid]
        rfl
      rw [product] at floored
      cases floored
  | infinite s =>
      have product : infinite s * gridSteps = infinite (s ^^ t) := by
        rw [grid]
        exact if_neg nonzero
      rw [product, floor?_infinite_add] at floored
      cases floored

theorem isFinite_of_roundCoord {x y : Binary64} (h : x.roundCoord = .ok y) :
    y.isFinite = true := by
  obtain ⟨steps, n, _, rounded, rfl⟩ := roundCoord_eq_ok h
  exact isFinite_div (isFinite_of_finite? rounded) one_le_gridSteps

theorem isNaN_of_roundCoord {x y : Binary64} (h : x.roundCoord = .ok y) :
    y.isNaN = false :=
  isNaN_of_isFinite (isFinite_of_roundCoord h)

end Binary64

namespace Point

@[simp] theorem key_key (p : Point) : p.key.key = p.key := by
  simp [key, Binary64.add_zero_add_zero]

structure IsNumeric (p : Point) : Prop where
  x : p.x.isNaN = false
  y : p.y.isNaN = false

theorem IsNumeric.key {p : Point} (numeric : p.IsNumeric) : p.key.IsNumeric :=
  ⟨(Binary64.isNaN_add_zero _).trans numeric.x,
    (Binary64.isNaN_add_zero _).trans numeric.y⟩

theorem key_eq_of_coincides {p q : Point} (same : p.coincides q = true) : p.key = q.key := by
  obtain ⟨sameX, sameY⟩ := Bool.and_eq_true_iff.1 same
  exact Point.mk.injEq _ _ _ _ ▸
    ⟨Binary64.add_zero_eq_of_equal sameX, Binary64.add_zero_eq_of_equal sameY⟩

theorem coincides_key_iff {p q : Point} (numeric : p.IsNumeric) :
    p.key.coincides q.key = true ↔ p.key = q.key := by
  constructor
  · intro same
    rw [← key_key p, ← key_key q]
    exact key_eq_of_coincides same
  · intro same
    rw [← same]
    exact Bool.and_eq_true_iff.2
      ⟨Binary64.equal_self numeric.key.x, Binary64.equal_self numeric.key.y⟩

def IsRounded (p : Point) : Prop :=
  ∃ x y, rounded x y = .ok p

theorem rounded_eq_ok {x y : Binary64} {p : Point} :
    rounded x y = .ok p ↔ x.roundCoord = .ok p.x ∧ y.roundCoord = .ok p.y := by
  unfold rounded
  simp only [Fault.bind_eq_ok, Fault.pure_eq_ok]
  constructor
  · rintro ⟨u, hx, v, hy, rfl⟩
    exact ⟨hx, hy⟩
  · rintro ⟨hx, hy⟩
    exact ⟨p.x, hx, p.y, hy, rfl⟩

theorem IsRounded.isNumeric {p : Point} (h : p.IsRounded) : p.IsNumeric := by
  obtain ⟨x, y, rounded⟩ := h
  obtain ⟨hx, hy⟩ := rounded_eq_ok.1 rounded
  exact ⟨Binary64.isNaN_of_roundCoord hx, Binary64.isNaN_of_roundCoord hy⟩

theorem IsRounded.isFinite {p : Point} (h : p.IsRounded) :
    p.x.isFinite = true ∧ p.y.isFinite = true := by
  obtain ⟨x, y, rounded⟩ := h
  obtain ⟨hx, hy⟩ := rounded_eq_ok.1 rounded
  exact ⟨Binary64.isFinite_of_roundCoord hx, Binary64.isFinite_of_roundCoord hy⟩

theorem isRounded_of_ofCoordinates {x y : Value} {p : Point}
    (h : ofCoordinates x y = .ok (some p)) : p.IsRounded := by
  unfold ofCoordinates at h
  simp only [Fault.bind_eq_ok] at h
  obtain ⟨u, _, v, _, h⟩ := h
  split at h
  next =>
    obtain ⟨q, rounded, same⟩ := Fault.bind_eq_ok.1 h
    cases same
    exact ⟨_, _, rounded⟩
  next => cases h

theorem isRounded_of_ofValue {v : Value} {p : Point} (h : ofValue v = .ok (some p)) :
    p.IsRounded := by
  unfold ofValue at h
  split at h
  · exact isRounded_of_ofCoordinates h
  · exact isRounded_of_ofCoordinates h
  · split at h
    · exact isRounded_of_ofCoordinates h
    · cases h
  · cases h

end Point

end Schematic
