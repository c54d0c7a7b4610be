import Schematic.Text.Case.Run
import Schematic.Text.Case.Upper
import Schematic.Text.Case.Lower
import Schematic.Text.Case.Context
import Schematic.Text.Case.Kin
/-!
Upper case, lower case, and the comparison of letters without regard to case.
-/

namespace Schematic.Text

def upperChar (c : Char) : List Char :=
  if c.toNat < 128 then [c.toUpper]
  else
    match upperExpansions.lookup c.toNat with
    | some ns => ns.map Char.ofNat
    | none => [Char.ofNat (CaseRun.shift? upperRuns c.toNat)]

def upperChars (cs : List Char) : List Char :=
  cs.flatMap upperChar

def upper (s : String) : String :=
  String.ofList (upperChars s.toList)

/-- The lower-case letter of a character, without its marks. -/
def lowerLetter (c : Char) : Char :=
  if c.toNat < 128 then c.toLower
  else if c = 'İ' then 'i'
  else Char.ofNat (CaseRun.shift? lowerRuns c.toNat)

/-- Whether a cased letter comes first, leaving out the characters that a context ignores. -/
def meetsCased (cs : List Char) : Bool :=
  match cs.dropWhile fun c => inRanges ignorableRanges c.toNat with
  | c :: _ => inRanges casedRanges c.toNat
  | [] => false

/-- The lower case of `c` between `before` (nearest first) and `after`. A capital sigma at the end
of a word becomes the final form. -/
def lowerChar (before : List Char) (c : Char) (after : List Char) : List Char :=
  if c = 'Σ' then if meetsCased before && !meetsCased after then ['ς'] else ['σ']
  else if c = 'İ' then ['i', Char.ofNat 0x307]
  else [lowerLetter c]

def lowerFrom (before : List Char) : List Char → List Char
  | [] => []
  | c :: cs => lowerChar before c cs ++ lowerFrom (c :: before) cs

def lowerChars (cs : List Char) : List Char :=
  lowerFrom [] cs

def lower (s : String) : String :=
  String.ofList (lowerChars s.toList)

def sameLetter (a b : Char) : Bool :=
  let a := lowerLetter a
  let b := lowerLetter b
  a == b || kinLetters.any fun ks => ks.contains a.toNat && ks.contains b.toNat

def sameLetters : List Char → List Char → Bool
  | [], [] => true
  | a :: as, b :: bs => sameLetter a b && sameLetters as bs
  | _, _ => false

end Schematic.Text
