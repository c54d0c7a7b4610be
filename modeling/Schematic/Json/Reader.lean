import Schematic.Value
import Schematic.Number.Reading
/-!
Reading a document value from JSON text.

Beyond the standard grammar the names `NaN`, `Infinity` and `-Infinity` are numbers, a number with
a point or an exponent is a float and any other an integer, and of two fields of one name the last
value stands at the first one's place. Lists and records lie within each other only so deep.
-/

namespace Schematic.Json

inductive Problem
  | byteOrderMark
  | value
  | name
  | colon
  | comma
  | extra
  | unterminated
  | control
  | escape
  | unicode
  deriving DecidableEq, Repr

def Problem.message : Problem → String
  | byteOrderMark => "Unexpected UTF-8 BOM (decode using utf-8-sig)"
  | value => "Expecting value"
  | name => "Expecting property name enclosed in double quotes"
  | colon => "Expecting ':' delimiter"
  | comma => "Expecting ',' delimiter"
  | extra => "Extra data"
  | unterminated => "Unterminated string starting at"
  | control => "Invalid control character at"
  | escape => "Invalid \\escape"
  | unicode => "Invalid \\uXXXX escape"

inductive Error
  | syntaxAt (problem : Problem) (position line column : Nat)
  | longInteger (digits : Nat)
  | tooDeep
  deriving DecidableEq, Repr

/-- How many lists and records can be read within each other. -/
class Limits where
  depth : Nat

/-- Of a thousand calls within each other, fifteen lead to the reader. -/
instance : Limits := ⟨985⟩

def Error.message : Error → String
  | syntaxAt problem position line column =>
    s!"{problem.message}: line {line} column {column} (char {position})"
  | longInteger digits =>
    s!"Exceeds the limit ({Value.maxDigits} digits) for integer string conversion: value has {digits} " ++
      "digits; use sys.set_int_max_str_digits() to increase the limit"
  | tooDeep => "maximum recursion depth exceeded while decoding a JSON array"

/-- Where reading stopped: with so many characters left, at an overlong integer, or at a list or
record too deep within others. -/
inductive Stop
  | at (problem : Problem) (left : Nat)
  | longInteger (digits : Nat)
  | tooDeep

abbrev Reading (α : Type) := Except Stop (α × List Char)

def stop {α : Type} (problem : Problem) (rest : List Char) : Reading α :=
  .error (.at problem rest.length)

def skipSpace : List Char → List Char
  | c :: cs => if c = ' ' || c = '\t' || c = '\n' || c = '\r' then skipSpace cs else c :: cs
  | [] => []

def hex? (c : Char) : Option Nat :=
  if '0' ≤ c && c ≤ '9' then some (c.toNat - '0'.toNat)
  else if 'a' ≤ c && c ≤ 'f' then some (c.toNat - 'a'.toNat + 10)
  else if 'A' ≤ c && c ≤ 'F' then some (c.toNat - 'A'.toNat + 10)
  else none

def unit? : List Char → Option (Nat × List Char)
  | a :: b :: c :: d :: rest => do
    let a ← hex? a; let b ← hex? b; let c ← hex? c; let d ← hex? d
    return (((a * 16 + b) * 16 + c) * 16 + d, rest)
  | _ => none

def simpleEscape? : Char → Option Char
  | '"' => some '"'
  | '\\' => some '\\'
  | '/' => some '/'
  | 'b' => some '\x08'
  | 'f' => some '\x0c'
  | 'n' => some '\n'
  | 'r' => some '\r'
  | 't' => some '\t'
  | _ => none

/-- The low surrogate that a text begins with, written by number. It is looked for as long as
something follows. -/
def lowUnit? : List Char → Option (Nat × List Char)
  | '\\' :: 'u' :: more => (unit? more).filter fun (low, after) =>
    Text.isLowSurrogate low && !after.isEmpty
  | _ => none

/-- The character of a code unit, and of the low surrogate behind a high one. -/
def joinUnits (high : Nat) (rest : List Char) : Char × List Char :=
  match if Text.isHighSurrogate high then lowUnit? rest else none with
  | some (low, after) =>
    (Char.ofNat (0x10000 + (high - 0xD800) * 0x400 + (low - 0xDC00)), after)
  | none => (Text.ofCodePoint high, rest)

/-- The characters up to the closing quote. `opening` is the text from the opening quote on. -/
def readText (opening : List Char) : Nat → List Char → List Char → Reading String
  | 0, _, _ => stop .unterminated opening
  | _, _, [] => stop .unterminated opening
  | fuel + 1, done, c :: cs =>
    if c = '"' then .ok (String.ofList done.reverse, cs)
    else if c = '\\' then
      match cs with
      | [] => stop .unterminated opening
      | 'u' :: digits =>
        if digits.length ≤ 4 then stop .unicode ('u' :: digits)
        else
          match unit? digits with
          | some (high, rest) =>
            let (d, rest) := joinUnits high rest
            readText opening fuel (d :: done) rest
          | none => stop .unicode cs
      | e :: rest =>
        match simpleEscape? e with
        | some d => readText opening fuel (d :: done) rest
        | none => stop .escape (c :: cs)
    else if c.toNat < 32 then stop .control (c :: cs)
    else readText opening fuel (c :: done) cs

def isAsciiDigit (c : Char) : Bool := '0' ≤ c && c ≤ '9'

def fractionDigits : List Char → List Char × List Char
  | '.' :: c :: cs =>
    if isAsciiDigit c then ((c :: cs).takeWhile isAsciiDigit, (c :: cs).dropWhile isAsciiDigit)
    else ([], '.' :: c :: cs)
  | cs => ([], cs)

def exponentDigits (cs : List Char) : Option Int × List Char :=
  match cs with
  | [] => (none, cs)
  | e :: rest =>
    if e = 'e' || e = 'E' then
      let (negative, digits) := Text.sign rest
      let ds := digits.takeWhile isAsciiDigit
      if ds.isEmpty then (none, cs)
      else
        let n : Int := Text.natOfDigits (ds.map fun c => c.toNat - '0'.toNat)
        (some (if negative then -n else n), digits.dropWhile isAsciiDigit)
    else (none, cs)

def natOf (ds : List Char) : Nat :=
  Text.natOfDigits (ds.map fun c => c.toNat - '0'.toNat)

def readNumber (start : List Char) (negative : Bool) (cs : List Char) : Reading Value :=
  let whole := match cs with
    | '0' :: _ => ['0']
    | cs => cs.takeWhile isAsciiDigit
  if whole.isEmpty then stop .value start
  else
    let (fraction, rest) := fractionDigits (cs.drop whole.length)
    let (exponent, rest) := exponentDigits rest
    if fraction.isEmpty && exponent.isNone then
      if Value.maxDigits < whole.length then .error (.longInteger whole.length)
      else
        let n : Int := natOf whole
        .ok (.int (if negative then -n else n), rest)
    else
      .ok (.float (.ofDecimal negative (natOf (whole ++ fraction))
        (exponent.getD 0 - fraction.length)), rest)

def names : List (List Char × Value) :=
  [("null".toList, .null), ("true".toList, .bool true), ("false".toList, .bool false),
    ("NaN".toList, .float .nan), ("Infinity".toList, .float (.infinite false)),
    ("-Infinity".toList, .float (.infinite true))]

def readAtom (cs : List Char) : Reading Value :=
  match names.find? fun n => n.1.isPrefixOf cs with
  | some (name, v) => .ok (v, cs.drop name.length)
  | none =>
    match cs with
    | '-' :: rest => readNumber cs true rest
    | _ => readNumber cs false cs

/-- Sets a field, keeping its place if the name is there already. -/
def setField (fields : List (String × Value)) (name : String) (v : Value) : List (String × Value) :=
  if fields.any (·.1 == name) then fields.map fun f => if f.1 == name then (name, v) else f
  else fields ++ [(name, v)]

mutual

/-- Reads a value around which there is room for so many lists and records. -/
def readValue (room : Nat) : Nat → List Char → Except Stop (Value × List Char)
  | 0, cs => stop .value cs
  | fuel + 1, cs =>
    match cs, room with
    | '"' :: rest, _ => do
      let (s, rest) ← readText cs (rest.length + 1) [] rest
      return (.text s, rest)
    | '[' :: _, 0 | '\x7b' :: _, 0 => .error .tooDeep
    | '[' :: rest, room + 1 =>
      match skipSpace rest with
      | ']' :: rest => .ok (.list [], rest)
      | rest => readElements room fuel [] rest
    | '\x7b' :: rest, room + 1 =>
      match skipSpace rest with
      | '\x7d' :: rest => .ok (.record [], rest)
      | rest => readFields room fuel [] rest
    | cs, _ => readAtom cs

/-- The elements of a list, of which `done` have been read. -/
def readElements (room : Nat) : Nat → List Value → List Char → Except Stop (Value × List Char)
  | 0, _, cs => stop .value cs
  | fuel + 1, done, cs => do
    let (v, rest) ← readValue room fuel cs
    match skipSpace rest with
    | ']' :: rest => return (.list (done ++ [v]), rest)
    | ',' :: rest => readElements room fuel (done ++ [v]) (skipSpace rest)
    | rest => stop .comma rest

def readFields (room : Nat) :
    Nat → List (String × Value) → List Char → Except Stop (Value × List Char)
  | 0, _, cs => stop .value cs
  | fuel + 1, done, cs =>
    match cs with
    | '"' :: rest => do
      let (name, rest) ← readText cs (rest.length + 1) [] rest
      match skipSpace rest with
      | ':' :: rest =>
        let (v, rest) ← readValue room fuel (skipSpace rest)
        match skipSpace rest with
        | '\x7d' :: rest => return (.record (setField done name v), rest)
        | ',' :: rest => readFields room fuel (setField done name v) (skipSpace rest)
        | rest => stop .comma rest
      | rest => stop .colon rest
    | cs => stop .name cs

end

def readDocument [Limits] (cs : List Char) : Except Stop Value :=
  match cs with
  | '\ufeff' :: _ => .error (.at .byteOrderMark cs.length)
  | cs => do
    let start := skipSpace cs
    let (v, rest) ← readValue Limits.depth (2 * start.length + 2) start
    match skipSpace rest with
    | [] => return v
    | rest => .error (.at .extra rest.length)

/-- The error of a stop in the text `cs`: lines and columns count from one, positions from zero. -/
def Stop.error (cs : List Char) : Stop → Error
  | .at problem left =>
    let before := cs.take (cs.length - left)
    .syntaxAt problem before.length (before.count '\n' + 1)
      ((before.reverse.takeWhile (· != '\n')).length + 1)
  | .longInteger digits => .longInteger digits
  | .tooDeep => .tooDeep

def read [Limits] (text : String) : Except Error Value :=
  (readDocument text.toList).mapError (Stop.error text.toList)

end Schematic.Json
