import Schematic.Text.Case
import Schematic.Text.Blank
import Schematic.Text.Pieces
import Schematic.Value
/-!
Values of changeover switches.

A value is a list of tokens between blanks, commas and semicolons, in any case: `A` or `B` for the
active throw, `ron=` and `roff=` for the resistances of the closed and of the open throw, and
`showron`, `hideron`, `showroff`, `hideroff`, `showron=`, `showroff=` for what the symbol displays.
A later token overrides an earlier one.
-/

namespace Schematic

inductive Throw
  | a
  | b
  deriving DecidableEq, Repr

def Throw.letter : Throw → String
  | a => "A"
  | b => "B"

def Throw.other : Throw → Throw
  | a => b
  | b => a

/-- A switch setting. Without `roff` the inactive throw is open. -/
structure Switch where
  active : Throw := .a
  ron : String := "0"
  roff : Option String := none
  showRon : Bool := false
  showRoff : Bool := false
  deriving DecidableEq, Repr

namespace Switch

/-- What is wrong with a token. Names are in lower case. -/
inductive Error
  | unknown (token : String)
  | noValue (name token : String)
  | noFlag (name : String)
  | badFlag (name value : String)
  deriving DecidableEq, Repr

def allowedTokens : String :=
  "A, B, ron=<value>, roff=<value>, showron/showroff, hideron/hideroff"

def Error.message : Error → String
  | unknown token => "Unknown switch token '" ++ token ++ "'. Allowed tokens: " ++ allowedTokens ++ "."
  | noValue name _ => "Switch token '" ++ name ++ "=' requires a value."
  | noFlag name => "Switch token '" ++ name ++ "=' requires a boolean value."
  | badFlag name _ => "Switch token '" ++ name ++ "=' must be true/false."

def Error.token : Error → String
  | unknown token => token
  | noValue _ token => token
  | noFlag name => name ++ "="
  | badFlag name value => name ++ "=" ++ value

def isSeparator (c : Char) : Bool :=
  Text.isBlank c || c == ',' || c == ';'

def tokens (v : Value) : List String :=
  (Text.runs isSeparator v.content.toList).map String.ofList

def flag? (word : String) : Option Bool :=
  if word ∈ ["1", "true", "on", "yes"] then some true
  else if word ∈ ["0", "false", "off", "no"] then some false
  else none

def readFlag (name value : String) : Except Error Bool :=
  if value = "" then .error (.noFlag name)
  else
    match flag? (Text.lower value) with
    | some b => .ok b
    | none => .error (.badFlag name value)

def applyWord? (s : Switch) (word : String) : Option Switch :=
  match word with
  | "a" => some { s with active := .a }
  | "b" => some { s with active := .b }
  | "showron" => some { s with showRon := true }
  | "hideron" => some { s with showRon := false }
  | "showroff" => some { s with showRoff := true }
  | "hideroff" => some { s with showRoff := false }
  | _ => none

def assignable : List String := ["ron", "roff", "showron", "showroff"]

/-- The name and the value of an assignment, divided at the first equals sign. The name is one that
can be assigned to, letter by letter and case aside. -/
def assignment? (token : String) : Option (String × String) :=
  let cs := token.toList
  let name := cs.takeWhile (· != '=')
  match cs.dropWhile (· != '=') with
  | _ :: value =>
    if assignable.any fun n => Text.sameLetters n.toList name then
      some (String.ofList name, String.ofList value)
    else none
  | [] => none

/-- Sets what the lower-case name says. Of the two display flags, the one that is not spelled
`showron` is that of the open throw. -/
def assign (s : Switch) (token name value : String) : Except Error Switch :=
  if name = "ron" then
    if value = "" then .error (.noValue name token) else .ok { s with ron := value }
  else if name = "roff" then
    if value = "" then .error (.noValue name token) else .ok { s with roff := some value }
  else if name = "showron" then return { s with showRon := ← readFlag name value }
  else return { s with showRoff := ← readFlag name value }

def apply (s : Switch) (token : String) : Except Error Switch :=
  match applyWord? s (Text.lower token) with
  | some s => .ok s
  | none =>
    match assignment? token with
    | some (name, value) => assign s token (Text.lower name) value
    | none => .error (.unknown token)

def parse (v : Value) : Except Error Switch :=
  (tokens v).foldlM apply {}

/-- The canonical tokens, leaving out what is the default. -/
def join (active : String) (ron roff : Option String) (showRon showRoff : Bool) : String :=
  " ".intercalate ([active]
    ++ (ron.map fun r => "ron=" ++ r).toList
    ++ (roff.map fun r => "roff=" ++ r).toList
    ++ (if showRon then ["showron"] else [])
    ++ (if showRoff then ["showroff"] else []))

def write (s : Switch) : String :=
  join s.active.letter (if s.ron = "0" then none else some s.ron) s.roff s.showRon s.showRoff

/-- The label of a switch: its active throw and the resistances that are displayed. -/
def display (s : Switch) : String :=
  let shown (s : String) (none : String) := if Text.trim s = "" then none else Text.trim s
  " ".intercalate ([s.active.letter]
    ++ (if s.showRon then ["Ron=" ++ shown s.ron "0"] else [])
    ++ (if s.showRoff then ["Roff=" ++ (match s.roff with
        | some r => shown r "open"
        | none => "open")] else []))

structure Fields where
  active : Value
  ron : Value
  roff : Value
  showRon : Value
  showRoff : Value

namespace Fields

def write (f : Fields) : Except Fault String :=
  match f.active with
  | .text active =>
    .ok (join active
      (if f.ron.same (.text "0") then none else some f.ron.shown)
      (match f.roff with
        | .null => none
        | roff => some roff.shown)
      f.showRon.given f.showRoff.given)
  | _ => .error .wrongKind

/-- The setting as a netlist takes it: a throw that is not `B` is `A`. -/
def setting (f : Fields) : Switch where
  active := if Text.upper f.active.shown = "B" then .b else .a
  ron := match f.ron with
    | .null => "0"
    | ron => ron.shown
  roff := match f.roff with
    | .null => none
    | roff => some roff.shown
  showRon := f.showRon.given
  showRoff := f.showRoff.given

end Fields

end Switch

end Schematic
