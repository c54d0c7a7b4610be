import Schematic.Value
/-!
Writing a document value as JSON text: one field or element a line, two spaces a level, every
character beyond ASCII by number.
-/

namespace Schematic.Json

/-- Why JSON has no text for something: it is or holds what no document holds, holds itself, holds an
overlong integer, or is too deep. -/
inductive WriteError
  | foreign (type : String)
  | foreignName (type : String)
  | circular
  | longInteger
  | tooDeep
  deriving DecidableEq, Repr

def WriteError.message : WriteError → String
  | foreign type => "Object of type " ++ type ++ " is not JSON serializable"
  | foreignName type => "keys must be str, int, float, bool or None, not " ++ type
  | circular => "Circular reference detected"
  | longInteger =>
    s!"Exceeds the limit ({Value.maxDigits} digits) for integer string conversion; use " ++
      "sys.set_int_max_str_digits() to increase the limit"
  | tooDeep => "maximum recursion depth exceeded while encoding a JSON object"

/-- Numbers are laid out as in ordinary text; those that are not finite have their own names. -/
def numbers : Layout :=
  { Layout.plain with nan := "NaN", infinity := "Infinity" }

def unitEscape (n : Nat) : List Char :=
  '\\' :: 'u' :: Text.hexDigits 4 n []

def escapedChar (c : Char) : List Char :=
  match c with
  | '"' => ['\\', '"']
  | '\\' => ['\\', '\\']
  | '\n' => ['\\', 'n']
  | '\r' => ['\\', 'r']
  | '\t' => ['\\', 't']
  | '\x08' => ['\\', 'b']
  | '\x0c' => ['\\', 'f']
  | c =>
    let n := Text.codePoint c
    if 32 ≤ n && n < 127 then [c]
    else if n < 0x10000 then unitEscape n
    else unitEscape (0xD800 + (n - 0x10000) / 0x400) ++ unitEscape (0xDC00 + (n - 0x10000) % 0x400)

def writeText (s : String) : String :=
  String.ofList ('"' :: (s.toList.flatMap escapedChar ++ ['"']))

def newLine (level : Nat) : String :=
  String.ofList ('\n' :: List.replicate (2 * level) ' ')

def block (level : Nat) (opening closing : String) (items : List String) : String :=
  if items.isEmpty then opening ++ closing
  else opening ++ newLine (level + 1) ++ ("," ++ newLine (level + 1)).intercalate items
    ++ newLine level ++ closing

mutual

def writeAt (level : Nat) : Value → String
  | .null => "null"
  | .bool b => if b then "true" else "false"
  | .int n => Value.intText n
  | .float x => numbers.write x
  | .text s => writeText s
  | .list vs => block level "[" "]" (writeItems (level + 1) vs)
  | .record fields => block level "\x7b" "\x7d" (writeFields (level + 1) fields)

def writeItems (level : Nat) : List Value → List String
  | [] => []
  | v :: vs => writeAt level v :: writeItems level vs

def writeFields (level : Nat) : List (String × Value) → List String
  | [] => []
  | (name, v) :: fields => (writeText name ++ ": " ++ writeAt level v) :: writeFields level fields

end

def write (v : Value) : String :=
  writeAt 0 v

end Schematic.Json
