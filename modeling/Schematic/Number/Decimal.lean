import Schematic.Number.Binary64
/-!
The decimal text of a number: the fewest digits that read back, laid out by a `Layout`.
-/

namespace Schematic

structure Decimal where
  digits : Nat
  exponent : Int
  deriving DecidableEq

namespace Decimal

def digitChar (n : Nat) : Char :=
  Char.ofNat ('0'.toNat + n % 10)

/-- The decimal digits of `n`, in front of `tail`; `fuel` bounds their number. -/
def writeNat : Nat → Nat → List Char → List Char
  | 0, _, tail => tail
  | fuel + 1, n, tail =>
    if n < 10 then digitChar n :: tail else writeNat fuel (n / 10) (digitChar n :: tail)

def natDigits (n : Nat) : List Char :=
  writeNat (n.log2 + 1) n []

def intDigits (z : Int) : List Char :=
  if z < 0 then '-' :: natDigits z.natAbs else natDigits z.natAbs

/-- The halves of the two gaps beside `n`, in quarters of a least unit, and whether their far ends
round to `n`. The gap below a power of two is half as wide as the one above. -/
def halfGaps (n : Nat) : Nat × Nat × Bool :=
  let step := Binary64.spacing n
  let below := if 1 < step && n == step * Nat.pow 2 52 then step else 2 * step
  (below, 2 * step, n / step % 2 == 0)

/-- Whether `k` steps of `num / den` least units round to `n`. -/
def readsBack (n num den k : Nat) : Bool :=
  let (below, above, closed) := halfGaps n
  let low := (4 * n - below) * den
  let high := (4 * n + above) * den
  let x := 4 * k * num
  if closed then low ≤ x && x ≤ high else low < x && x < high

/-- The exponent `e` with `10 ^ (e - 1) ≤ n < 10 ^ e`, for `n` in least units. -/
def magnitude (n : Nat) : Int :=
  (Binary64.digitCount (n * Nat.pow 10 400 / Binary64.one) : Int) - 400

/-- The point of the grid `10 ^ exponent` beside `n` that reads back: of two the nearer one, and of
two as near the even one. -/
def onGrid? (n : Nat) (exponent : Int) : Option Nat :=
  let num := Binary64.one * Nat.pow 10 exponent.toNat
  let den := Nat.pow 10 (-exponent).toNat
  let k := n * den / num
  let down := readsBack n num den k
  let up := readsBack n num den (k + 1)
  let middle := (2 * k + 1) * num
  let nearerUp := middle < 2 * n * den || (middle == 2 * n * den && k % 2 == 1)
  if up && (!down || nearerUp) then some (k + 1)
  else if down then some k
  else none

def trimZero (d : Decimal) : Decimal :=
  if d.digits != 0 && d.digits % 10 == 0 then ⟨d.digits / 10, d.exponent + 1⟩ else d

def search (n : Nat) (top : Int) : Nat → Nat → Decimal
  | 0, count =>
    ⟨n * Nat.pow 10 (count - top).toNat / (Binary64.one * Nat.pow 10 (top - count).toNat),
      top - count⟩
  | fuel + 1, count =>
    match onGrid? n (top - count) with
    | some k => trimZero ⟨k, top - count⟩
    | none => search n top fuel (count + 1)

/-- The shortest decimal number that reads back as `n > 0` least units. -/
def shortest (n : Nat) : Decimal :=
  search n (magnitude n) 17 1

end Decimal

structure Layout where
  /-- Scientific exponents in this range are written positionally. -/
  least : Int
  most : Int
  /-- The least number of digits of a written exponent. -/
  exponentWidth : Nat
  nan : String
  infinity : String

namespace Layout

/-- Numbers in ordinary text: positional from `0.0001` to below `1e+16`, always with a point or an
exponent. -/
def plain : Layout where
  least := -4
  most := 15
  exponentWidth := 2
  nan := "nan"
  infinity := "inf"

def zeros (n : Nat) : List Char :=
  List.replicate n '0'

def scientific (l : Layout) (ds : List Char) (e : Int) : List Char :=
  let fraction := if ds.tail.isEmpty then [] else '.' :: ds.tail
  let digits := Decimal.natDigits e.natAbs
  ds.take 1 ++ fraction ++ ['e', if e < 0 then '-' else '+']
    ++ zeros (l.exponentWidth - digits.length) ++ digits

def positional (ds : List Char) (e : Int) : List Char :=
  if e < 0 then '0' :: '.' :: (zeros ((-e).toNat - 1) ++ ds)
  else
    let whole := e.toNat + 1
    if ds.length ≤ whole then ds ++ zeros (whole - ds.length) ++ ['.', '0']
    else ds.take whole ++ '.' :: ds.drop whole

def magnitude (l : Layout) (n : Nat) : List Char :=
  if n = 0 then ['0', '.', '0']
  else
    let d := Decimal.shortest n
    let ds := Decimal.natDigits d.digits
    let e := d.exponent + ds.length - 1
    if l.least ≤ e && e ≤ l.most then positional ds e else l.scientific ds e

def write (l : Layout) : Binary64 → String
  | .nan => l.nan
  | .infinite s => if s then "-" ++ l.infinity else l.infinity
  | .finite s n _ => String.ofList (if s then '-' :: l.magnitude n else l.magnitude n)

end Layout

end Schematic
