import Schematic.Text.Printable
import Schematic.Text.Surrogate
/-!
Text between quotation marks. The mark is an apostrophe, unless the text holds an apostrophe and no
double quote; unprintable characters are written by number.
-/

namespace Schematic.Text

def hexDigit (n : Nat) : Char :=
  if n < 10 then Char.ofNat ('0'.toNat + n) else Char.ofNat ('a'.toNat + (n - 10))

def hexDigits : Nat → Nat → List Char → List Char
  | 0, _, tail => tail
  | width + 1, n, tail => hexDigits width (n / 16) (hexDigit (n % 16) :: tail)

def escaped (mark c : Char) : List Char :=
  if c = mark || c = '\\' then ['\\', c]
  else if c = '\n' then ['\\', 'n']
  else if c = '\r' then ['\\', 'r']
  else if c = '\t' then ['\\', 't']
  else if isPrintable c then [c]
  else
    let n := codePoint c
    if n < 0x100 then '\\' :: 'x' :: hexDigits 2 n []
    else if n < 0x10000 then '\\' :: 'u' :: hexDigits 4 n []
    else '\\' :: 'U' :: hexDigits 8 n []

def quoted (s : String) : String :=
  let cs := s.toList
  let mark := if cs.contains '\'' && !cs.contains '"' then '"' else '\''
  String.ofList (mark :: (cs.flatMap (escaped mark) ++ [mark]))

/-- A text with its surrogates written by number, which gives it a form in bytes. -/
def backslashed (s : String) : String :=
  String.ofList (s.toList.flatMap fun c =>
    if standsForSurrogate c then '\\' :: 'u' :: hexDigits 4 (codePoint c) [] else [c])

end Schematic.Text
