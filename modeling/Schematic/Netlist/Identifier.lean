import Schematic.Text.Case
import Schematic.Text.Blank
import Schematic.Entries
import Schematic.Value
/-!
Identifiers of netlist lines. They differ from each other even when case is disregarded.
-/

namespace Schematic

def identifier (v : Value) : String :=
  Text.trim v.content

/-- An identifier that begins with the letter of its element. The letter is put in front unless it
is there already, in any case. -/
def lettered (letter : String) (v : Value) : String :=
  let base := identifier v
  if (Text.upperChars letter.toList).isPrefixOf (Text.upperChars base.toList) then base
  else letter ++ base

def identifierKey (id : String) : String :=
  Text.upper (Text.trim id)

/-- The identifiers handed out so far: their keys, and for each key the suffix to try next. -/
structure Allocator where
  used : List String
  next : Entries String Nat
  deriving Inhabited

namespace Allocator

def empty : Allocator := ⟨[], []⟩

def firstSuffix : Nat := 2

def suffixed (base : String) (k : Nat) : String :=
  base ++ "_" ++ Value.intText k

/-- The least suffix from `k` on whose identifier is not used. -/
def freeSuffix (used : List String) (base : String) : Nat → Nat → Nat
  | 0, k => k
  | fuel + 1, k =>
    if identifierKey (suffixed base k) ∈ used then freeSuffix used base fuel (k + 1) else k

/-- Hands out an identifier: the wanted one if it is free, else one with a suffix. A blank one
becomes `X`. Of one more suffix than there are used identifiers, one is free. -/
def allocate (a : Allocator) (wanted : Value) : String × Allocator :=
  let base := if identifier wanted = "" then "X" else identifier wanted
  let key := identifierKey base
  if key ∈ a.used then
    let k := freeSuffix a.used base (a.used.length + 1) ((a.next.get? key).getD firstSuffix)
    let id := suffixed base k
    (id, ⟨identifierKey id :: a.used, a.next.put key (k + 1)⟩)
  else (base, ⟨key :: a.used, a.next.putNew key firstSuffix⟩)

def allocateAll (a : Allocator) : List Value → List String × Allocator
  | [] => ([], a)
  | v :: vs =>
    let (id, a) := a.allocate v
    let (ids, a) := allocateAll a vs
    (id :: ids, a)

end Allocator

end Schematic
