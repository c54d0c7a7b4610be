/-!
Positions in a sequence. A negative index counts from the end.
-/

namespace Schematic

def position? (size : Nat) (i : Int) : Option Nat :=
  if 0 ≤ i && i < size then some i.toNat
  else if i < 0 && 0 ≤ i + size then some (i + size).toNat
  else none

theorem position?_lt {size : Nat} {i : Int} {n : Nat} (h : position? size i = some n) :
    n < size := by
  simp only [position?, Bool.and_eq_true, decide_eq_true_eq] at h
  split at h
  · obtain rfl := Option.some.inj h
    omega
  · split at h
    · obtain rfl := Option.some.inj h
      omega
    · simp at h

@[simp] theorem position?_natCast {size n : Nat} (h : n < size) : position? size n = some n := by
  simp [position?, h]

end Schematic
