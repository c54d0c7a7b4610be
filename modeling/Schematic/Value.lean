import Schematic.Number.Decimal
import Schematic.Text.Quoted
/-!
Document values: what a schematic file, an analysis configuration or a preset may hold anywhere.
-/

namespace Schematic

/-- A document value. The fields of a record keep their order, and their names are distinct. -/
inductive Value
  | null
  | bool (b : Bool)
  | int (n : Int)
  | float (x : Binary64)
  | text (s : String)
  | list (vs : List Value)
  | record (fields : List (String × Value))
  deriving Inhabited

namespace Value

/-- The greatest number of digits of an integer that is read from text or turned into text. -/
def maxDigits : Nat := 4300

/-- The text of an integer of at most `maxDigits` digits. -/
def intText (n : Int) : String :=
  String.ofList (Decimal.intDigits n)

mutual

/-- A value as it is written inside a list or a record: texts are quoted. -/
def literal : Value → String
  | null => "None"
  | bool b => if b then "True" else "False"
  | int n => intText n
  | float x => Layout.plain.write x
  | text s => Text.quoted s
  | list vs => "[" ++ ", ".intercalate (literals vs) ++ "]"
  | record fields => "\x7b" ++ ", ".intercalate (fieldLiterals fields) ++ "\x7d"

def literals : List Value → List String
  | [] => []
  | v :: vs => literal v :: literals vs

def fieldLiterals : List (String × Value) → List String
  | [] => []
  | (name, v) :: fields => (Text.quoted name ++ ": " ++ literal v) :: fieldLiterals fields

end

def shown : Value → String
  | text s => s
  | v => v.literal

/-- A value as text, nothing for null. -/
def content : Value → String
  | null => ""
  | v => v.shown

@[simp] theorem shown_text (s : String) : (text s).shown = s := rfl

@[simp] theorem content_text (s : String) : (text s).content = s := rfl

/-- Whether a value counts as given: not null, false, zero or empty. -/
def given : Value → Bool
  | null => false
  | bool b => b
  | int n => n != 0
  | float x => !x.equal Binary64.zero
  | text s => s != ""
  | list vs => !vs.isEmpty
  | record fields => !fields.isEmpty

def orElse (v w : Value) : Value :=
  if v.given then v else w

@[simp] theorem given_text (s : String) : (text s).given = (s != "") := rfl

theorem orElse_text (s : String) (w : Value) :
    (text s).orElse w = if s = "" then w else text s := by
  by_cases h : s = "" <;> simp [orElse, h]

/-- The integer that a number is equal to, if there is one. -/
def integer? : Value → Option Int
  | bool b => some (if b then 1 else 0)
  | int n => some n
  | float x => x.integer?
  | _ => none

mutual

/-- Equality of values: numbers by size whatever their form, records whatever their order. -/
def same : Value → Value → Bool
  | null, null => true
  | text s, text t => s == t
  | list vs, list ws => sameList vs ws
  | record fs, record gs => fs.length == gs.length && sameFields fs gs
  | float x, float y => x.equal y
  | v, w =>
    match v.integer?, w.integer? with
    | some m, some n => m == n
    | _, _ => false

def sameList : List Value → List Value → Bool
  | [], [] => true
  | v :: vs, w :: ws => same v w && sameList vs ws
  | _, _ => false

def sameFields : List (String × Value) → List (String × Value) → Bool
  | [], _ => true
  | (name, v) :: fs, gs =>
    (match gs.lookup name with
      | some w => same v w
      | none => false) && sameFields fs gs

end

@[simp] theorem same_text (s t : String) : (text s).same (text t) = (s == t) := by
  simp [same]

theorem same_text_right {v : Value} {s : String} : v.same (text s) = true ↔ v = text s := by
  cases v <;> simp [same, integer?]

instance : BEq Value := ⟨same⟩

/-- Whether a value can serve as a key: lists and records cannot. -/
def isKey : Value → Bool
  | list _ | record _ => false
  | _ => true

def kindName : Value → String
  | null => "NoneType"
  | bool _ => "bool"
  | int _ => "int"
  | float _ => "float"
  | text _ => "str"
  | list _ => "list"
  | record _ => "dict"

end Value

inductive Fault
  | overflow
  | floorOfNaN
  | wrongKind
  | noMember (kind member : String)
  | badIndex
  | pairTooLong
  | pairTooShort (count : Nat)
  deriving DecidableEq, Repr

namespace Fault

def message : Fault → String
  | overflow => "number out of range"
  | floorOfNaN => "cannot convert float NaN to integer"
  | wrongKind => "value of the wrong kind"
  | noMember kind member => s!"'{kind}' object has no attribute '{member}'"
  | badIndex => "index out of range"
  | pairTooLong => "too many values to unpack (expected 2)"
  | pairTooShort count => s!"not enough values to unpack (expected 2, got {count})"

end Fault

namespace Value

def field? (v : Value) (name : String) : Except Fault (Option Value) :=
  match v with
  | record fields => .ok (fields.lookup name)
  | v => .error (.noMember v.kindName "get")

/-- A field of a record, or the given value when it is absent. -/
def fieldOr (v : Value) (name : String) (absent : Value) : Except Fault Value :=
  return (← v.field? name).getD absent

def field (v : Value) (name : String) : Except Fault Value :=
  v.fieldOr name null

/-- The elements that a value ranges over: those of a list, the characters of a text, the names of
a record. -/
def items : Value → Except Fault (List Value)
  | list vs => .ok vs
  | text s => .ok (s.toList.map fun c => text (String.singleton c))
  | record fields => .ok (fields.map fun f => text f.1)
  | _ => .error .wrongKind

def pair (v : Value) : Except Fault (Value × Value) := do
  match ← v.items with
  | [a, b] => return (a, b)
  | [] => throw (.pairTooShort 0)
  | [_] => throw (.pairTooShort 1)
  | _ => throw .pairTooLong

/-- Trimming is defined for texts only. -/
def asText : Value → Except Fault String
  | text s => .ok s
  | v => .error (.noMember v.kindName "strip")

/-- The order of numbers, whatever their form. A truth value is zero or one. -/
def ltNumber : Value → Value → Except Fault Bool
  | float x, float y => .ok (x.lt y)
  | float x, w => match w.integer? with
    | some n => .ok (x.isBelow n)
    | none => .error .wrongKind
  | v, float y => match v.integer? with
    | some m => .ok (y.isAbove m)
    | none => .error .wrongKind
  | v, w => match v.integer?, w.integer? with
    | some m, some n => .ok (decide (m < n))
    | _, _ => .error .wrongKind

mutual

/-- The order of numbers, of texts, and of lists by their first difference. -/
def lt : Value → Value → Except Fault Bool
  | text s, text t => .ok (decide (s < t))
  | list vs, list ws => ltList vs ws
  | v, w => ltNumber v w

def ltList : List Value → List Value → Except Fault Bool
  | _, [] => .ok false
  | [], _ :: _ => .ok true
  | v :: vs, w :: ws => if v.same w then ltList vs ws else lt v w

end

/-- The number that arithmetic takes a value for. -/
def arithmetic : Value → Except Fault Binary64
  | bool b => .ok (if b then .lit 1 0 else .zero)
  | int n => match Binary64.ofInt? n with
    | some x => .ok x
    | none => .error .overflow
  | float x => .ok x
  | _ => .error .wrongKind

end Value

end Schematic
