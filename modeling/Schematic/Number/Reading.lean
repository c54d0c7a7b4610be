import Schematic.Number.Binary64
import Schematic.Text.Blank
import Schematic.Text.Digit
/-!
Reading a number from text.
-/

namespace Schematic.Text

def natOfDigits (ds : List Nat) : Nat :=
  ds.foldl (fun n d => 10 * n + d) 0

/-- The digits at the front; one underscore may stand between two of them. -/
def moreDigits : List Char → List Nat × List Char
  | '_' :: c :: cs =>
    match digit? c with
    | some d => let (ds, rest) := moreDigits cs; (d :: ds, rest)
    | none => ([], '_' :: c :: cs)
  | c :: cs =>
    match digit? c with
    | some d => let (ds, rest) := moreDigits cs; (d :: ds, rest)
    | none => ([], c :: cs)
  | [] => ([], [])

def digitRun : List Char → List Nat × List Char
  | '_' :: cs => ([], '_' :: cs)
  | cs => moreDigits cs

def sign : List Char → Bool × List Char
  | '-' :: cs => (true, cs)
  | '+' :: cs => (false, cs)
  | cs => (false, cs)

/-- The exponent that is all of the text, which may be absent. -/
def exponent? : List Char → Option Int
  | [] => some 0
  | c :: cs =>
    if c = 'e' || c = 'E' then
      let (negative, cs) := sign cs
      match digitRun cs with
      | (d :: ds, []) =>
        let n : Int := natOfDigits (d :: ds)
        some (if negative then -n else n)
      | _ => none
    else none

def unsigned? (negative : Bool) (cs : List Char) : Option Binary64 :=
  let (whole, rest) := digitRun cs
  let (fraction, rest) := match rest with
    | '.' :: rest => digitRun rest
    | rest => ([], rest)
  if whole.isEmpty && fraction.isEmpty then none
  else (exponent? rest).map fun e =>
    Binary64.ofDecimal negative (natOfDigits (whole ++ fraction)) (e - fraction.length)

/-- Blanks that may stand around a number: all but the information separators. -/
def isMargin (c : Char) : Bool :=
  isBlank c && !('\x1c' ≤ c && c ≤ '\x1f')

/-- A number: blanks around it are allowed, digits are those of any script, and infinities and NaN
have their names. -/
def number? (s : String) : Option Binary64 :=
  let (negative, cs) := sign (trimWhere isMargin s.toList)
  match String.ofList (cs.map Char.toLower) with
  | "inf" | "infinity" => some (.infinite negative)
  | "nan" => some .nan
  | _ => unsigned? negative cs

end Schematic.Text
