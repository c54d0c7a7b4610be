/-!
White space: which characters are blank, trimming, and collapsing runs of blanks.
-/

namespace Schematic.Text

/-- Blank characters: the white space of Unicode and the four information separators. -/
def isBlank (c : Char) : Bool :=
  let n := c.toNat
  if n < 128 then (9 ≤ n && n ≤ 13) || (28 ≤ n && n ≤ 32)
  else n == 0x85 || n == 0xa0 || n == 0x1680 || (0x2000 ≤ n && n ≤ 0x200a) || n == 0x2028
    || n == 0x2029 || n == 0x202f || n == 0x205f || n == 0x3000

/-- Drops the characters at both ends that `drops` accepts. -/
def trimWhere (drops : Char → Bool) (cs : List Char) : List Char :=
  ((cs.dropWhile drops).reverse.dropWhile drops).reverse

def trimChars (cs : List Char) : List Char :=
  trimWhere isBlank cs

def trim (s : String) : String :=
  String.ofList (trimChars s.toList)

/-- Writes one space for every run of blanks. -/
def collapseChars : List Char → List Char
  | [] => []
  | c :: cs =>
    if isBlank c then
      match collapseChars cs with
      | ' ' :: rest => ' ' :: rest
      | rest => ' ' :: rest
    else c :: collapseChars cs

def collapse (s : String) : String :=
  String.ofList (collapseChars s.toList)

end Schematic.Text
