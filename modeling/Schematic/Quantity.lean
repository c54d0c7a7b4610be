import Schematic.Component.Basic
import Schematic.Switch
/-!
Quantities: numbers with a metric scale and a unit, and the text shown beside a component.
-/

namespace Schematic

inductive Scale
  | tera
  | giga
  | mega
  | kilo
  | plain
  | milli
  | micro
  | nano
  | pico
  deriving DecidableEq, Repr

namespace Scale

def all : List Scale :=
  [tera, giga, mega, kilo, plain, milli, micro, nano, pico]

def exponent : Scale → Int
  | tera => 12
  | giga => 9
  | mega => 6
  | kilo => 3
  | plain => 0
  | milli => -3
  | micro => -6
  | nano => -9
  | pico => -12

def factor (s : Scale) : Binary64 :=
  .lit 1 s.exponent

def symbol : Scale → String
  | tera => "T"
  | giga => "G"
  | mega => "M"
  | kilo => "k"
  | plain => ""
  | milli => "m"
  | micro => "µ"
  | nano => "n"
  | pico => "p"

/-- The scale that a letter stands for. Case tells `m` from `M`; `K` and `u` may be typed for `k`
and `µ`. -/
def ofLetter? : Char → Option Scale
  | 'T' => some tera
  | 'G' => some giga
  | 'M' => some mega
  | 'k' | 'K' => some kilo
  | 'm' => some milli
  | 'u' | 'µ' => some micro
  | 'n' => some nano
  | 'p' => some pico
  | _ => none

def ofMagnitude (x : Binary64) : Scale :=
  (all.find? fun s => s.factor.le x).getD pico

end Scale

namespace Quantity

/-- What follows a unit at the front of a text, letters compared without regard to case. -/
def afterUnit? : List Char → List Char → Option (List Char)
  | [], cs => some cs
  | u :: us, c :: cs => if Text.sameLetter u c then afterUnit? us cs else none
  | _ :: _, [] => none

/-- Drops a unit at the end, or in front of a newline at the end. -/
def dropUnit (unit : List Char) : List Char → List Char
  | [] => []
  | c :: cs =>
    match afterUnit? unit (c :: cs) with
    | some [] => []
    | some ['\n'] => if unit = ['\n'] then [] else ['\n']
    | _ => c :: dropUnit unit cs

/-- A text without the unit at its end and without outer blanks; the empty unit changes nothing. -/
def withoutUnit (unit s : String) : String :=
  if unit = "" then s else Text.trim (String.ofList (dropUnit unit.toList s.toList))

def withUnit (number scale unit : String) : String :=
  if scale ++ unit = "" then number else Text.trim (number ++ " " ++ (scale ++ unit))

/-- The end of a numeral, behind its digits: nothing, or an exponent. -/
def isExponent : List Char → Bool
  | [] => true
  | e :: cs =>
    let digits := (Text.sign cs).2
    (e == 'e' || e == 'E') && !digits.isEmpty && digits.all Text.isDigit

/-- A number in digits: a point needs a digit behind it, but none in front. -/
def isNumeral (cs : List Char) : Bool :=
  let cs := (Text.sign cs).2
  match cs.dropWhile Text.isDigit with
  | '.' :: c :: rest => Text.isDigit c && isExponent (rest.dropWhile Text.isDigit)
  | rest => rest.length < cs.length && isExponent rest

/-- Takes a scale letter and the blanks before it off the end. -/
def splitScale (cs : List Char) : List Char × Scale :=
  match cs.reverse with
  | [] => ([], .plain)
  | c :: rest =>
    match Scale.ofLetter? c with
    | some s => ((rest.dropWhile Text.isBlank).reverse, s)
    | none => (cs, .plain)

def finite? (s : String) : Option Binary64 :=
  (Text.number? s).filter Binary64.isFinite

def scaled? (s : String) : Option Binary64 :=
  let (numeral, scale) := splitScale s.toList
  if isNumeral numeral then (finite? (String.ofList numeral)).map (· * scale.factor) else none

/-- Reads a number with an optional scale and unit. What is no numeral can still be a number. -/
def parse? (unit s : String) : Option Binary64 :=
  let s := withoutUnit unit (Text.trim s)
  scaled? s <|> finite? s

/-- Reads a value of any form; one that does not count as given is no number. -/
def ofValue? (unit : String) (v : Value) : Option Binary64 :=
  if v.given then parse? unit v.shown else none

def digits (x : Binary64) : String :=
  match x.integer? with
  | some n => Value.intText n
  | none => Layout.plain.write x

def write? (x : Binary64) : Option (String × Scale) :=
  if !x.isFinite then none
  else if x.equal .zero then some ("0", .plain)
  else
    let scale := Scale.ofMagnitude x.abs
    some (digits (x / scale.factor), scale)

/-- How a trimmed text is shown: a number in its best scale, anything else with its blanks
collapsed, and the unit behind it. -/
def shown (unit s : String) : String :=
  match (parse? unit s).bind write? with
  | some (number, scale) => withUnit number scale.symbol unit
  | none =>
    let rest := withoutUnit unit (Text.collapse s)
    if unit = "" then rest
    else if rest = "" then unit
    else rest ++ " " ++ unit

end Quantity

def unitOf (type : Value) : String :=
  match Kind.ofValue? type with
  | some k => k.unit
  | none => ""

/-- The text shown beside a component. A switch that cannot be read is shown as it is. -/
def Component.shownValue (c : Component) : Except Fault String := do
  if !c.value.given then return ""
  let s := Text.trim (← c.value.asText)
  if s = "" then return ""
  if c.kind? = some .switch then
    match Switch.parse c.value with
    | .ok setting => return setting.display
    | .error _ => return Text.collapse s
  return Quantity.shown (unitOf c.type) s

end Schematic
