/-!
Binary64 numbers as exact multiples of the least positive one, `2⁻¹⁰⁷⁴`.

Every operation is the exact rational result followed by one rounding to the nearest number, a
half going to the even neighbour.
-/

namespace Schematic

namespace Binary64

/-- The distance between neighbouring numbers at magnitude `n`, in least units. -/
def spacing (n : Nat) : Nat :=
  Nat.pow 2 (n.log2 - 52)

/-- The number of binary places: a least unit is `2 ^ (-places)`. -/
def places : Nat := 1074

def one : Nat := Nat.pow 2 places

/-- The least magnitude out of range, `2¹⁰²⁴` in least units. -/
def limit : Nat := Nat.pow 2 (places + 1024)

/-- A magnitude that a finite number can have: 53 significant bits, below the limit. -/
def Fits (n : Nat) : Prop :=
  n % spacing n = 0 ∧ n < limit
  deriving Decidable

theorem one_pos : 0 < one := by
  decide +kernel

theorem limit_pos : 0 < limit := by
  decide +kernel

theorem fits_zero : Fits 0 :=
  ⟨Nat.zero_mod _, limit_pos⟩

end Binary64

/-- A number of the interchange format binary64. -/
inductive Binary64
  | nan
  | infinite (negative : Bool)
  | finite (negative : Bool) (units : Nat) (fits : Binary64.Fits units)
  deriving DecidableEq

namespace Binary64

def zero : Binary64 := .finite false 0 fits_zero

instance : Inhabited Binary64 := ⟨zero⟩

def halfEven (num den : Nat) : Nat :=
  let q := num / den
  let r := num % den
  if 2 * r < den then q
  else if den < 2 * r then q + 1
  else q + q % 2

/-- The multiple of the local spacing nearest `num / den`. -/
def nearest (num den : Nat) : Nat :=
  let step := spacing (num / den)
  halfEven num (den * step) * step

/-- The number nearest `num / den` least units; infinite when that magnitude is out of range. -/
def round (negative : Bool) (num den : Nat) : Binary64 :=
  if h : Fits (nearest num den) then .finite negative (nearest num den) h else .infinite negative

def signed (negative : Bool) (n : Nat) : Int :=
  if negative then -(n : Int) else n

/-- A sum of zero is positive unless both summands are negative. -/
def add : Binary64 → Binary64 → Binary64
  | .finite s m _, .finite t n _ =>
    let sum := signed s m + signed t n
    round (if sum = 0 then s && t else decide (sum < 0)) sum.natAbs 1
  | .infinite s, .infinite t => if s = t then .infinite s else .nan
  | .nan, _ | _, .nan => .nan
  | .infinite s, _ => .infinite s
  | _, .infinite t => .infinite t

def mul : Binary64 → Binary64 → Binary64
  | .finite s m _, .finite t n _ => round (s ^^ t) (m * n) one
  | .nan, _ | _, .nan => .nan
  | .infinite s, .infinite t => .infinite (s ^^ t)
  | .infinite s, .finite t n _ | .finite t n _, .infinite s =>
    if n = 0 then .nan else .infinite (s ^^ t)

def div : Binary64 → Binary64 → Binary64
  | .finite s m _, .finite t n _ =>
    if n = 0 then (if m = 0 then .nan else .infinite (s ^^ t)) else round (s ^^ t) (m * one) n
  | .nan, _ | _, .nan => .nan
  | .infinite _, .infinite _ => .nan
  | .infinite s, .finite t _ _ => .infinite (s ^^ t)
  | .finite s _ _, .infinite t => .finite (s ^^ t) 0 fits_zero

def abs : Binary64 → Binary64
  | .nan => .nan
  | .infinite _ => .infinite false
  | .finite _ n h => .finite false n h

instance : Add Binary64 := ⟨add⟩
instance : Mul Binary64 := ⟨mul⟩
instance : Div Binary64 := ⟨div⟩

def isFinite : Binary64 → Bool
  | .finite .. => true
  | _ => false

def isNaN : Binary64 → Bool
  | .nan => true
  | _ => false

/-- The place of a number on the line, in least units; the infinities lie just out of range. -/
def place? : Binary64 → Option Int
  | .nan => none
  | .infinite s => some (signed s limit)
  | .finite s n _ => some (signed s n)

def lt (x y : Binary64) : Bool :=
  match x.place?, y.place? with
  | some a, some b => a < b
  | _, _ => false

def le (x y : Binary64) : Bool :=
  match x.place?, y.place? with
  | some a, some b => a ≤ b
  | _, _ => false

/-- Numerical equality: both zeros are equal, and nothing equals a NaN. -/
def equal (x y : Binary64) : Bool :=
  match x.place?, y.place? with
  | some a, some b => a = b
  | _, _ => false

/-- Whether a number lies below an integer of any size. -/
def isBelow (x : Binary64) (z : Int) : Bool :=
  match x with
  | .nan => false
  | .infinite s => s
  | .finite s n _ => signed s n < z * one

def isAbove (x : Binary64) (z : Int) : Bool :=
  match x with
  | .nan => false
  | .infinite s => !s
  | .finite s n _ => z * one < signed s n

def finite? : Binary64 → Option Binary64
  | .finite s n h => some (.finite s n h)
  | _ => none

def ofInt? (z : Int) : Option Binary64 :=
  (round (decide (z < 0)) (z.natAbs * one) 1).finite?

def floor? : Binary64 → Option Int
  | .finite s n _ => some (signed s n / (one : Int))
  | _ => none

def truncate? : Binary64 → Option Int
  | .finite s n _ => some (signed s (n / one))
  | _ => none

def integer? : Binary64 → Option Int
  | .finite s n _ => if n % one = 0 then some (signed s (n / one)) else none
  | _ => none

def digitCount (n : Nat) : Nat :=
  let guess := n.log2 * 30103 / 100000
  if Nat.pow 10 (guess + 1) ≤ n then guess + 2 else guess + 1

/-- The number nearest `± digits · 10 ^ exponent`. Magnitudes beyond `10 ^ ±400` are settled
without computing the power. -/
def ofDecimal (negative : Bool) (digits : Nat) (exponent : Int) : Binary64 :=
  if digits = 0 then .finite negative 0 fits_zero
  else
    let magnitude := digitCount digits + exponent
    if 400 < magnitude then .infinite negative
    else if magnitude < -400 then .finite negative 0 fits_zero
    else if 0 ≤ exponent then round negative (digits * Nat.pow 10 exponent.toNat * one) 1
    else round negative (digits * one) (Nat.pow 10 (-exponent).toNat)

def lit (digits : Nat) (exponent : Int) : Binary64 :=
  ofDecimal false digits exponent

end Binary64

end Schematic
