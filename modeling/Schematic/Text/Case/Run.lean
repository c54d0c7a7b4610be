/-!
Runs of letters with a common distance to their other case.
-/

namespace Schematic.Text

/-- The code points `first`, `first + step`, … up to `last`, whose counterparts lie `shift` away. -/
structure CaseRun where
  first : Nat
  last : Nat
  step : Nat
  shift : Int

namespace CaseRun

def covers (r : CaseRun) (n : Nat) : Bool :=
  r.first ≤ n && n ≤ r.last && (n - r.first) % r.step == 0

/-- The counterpart of `n`, which is `n` itself outside the runs. -/
def shift? (rs : List CaseRun) (n : Nat) : Nat :=
  match rs.find? (·.covers n) with
  | some r => (n + r.shift).toNat
  | none => n

end CaseRun

def inRanges (rs : List (Nat × Nat)) (n : Nat) : Bool :=
  rs.any fun r => r.1 ≤ n && n ≤ r.2

end Schematic.Text
