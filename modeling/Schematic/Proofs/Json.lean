import Schematic.Json.Reader
import Schematic.Json.Writer
import Schematic.Text.Lines
import Mathlib
/-!
Documents that are read from their own text as they are.
-/

namespace Schematic

namespace Value

mutual

/-- Whether values are written in the same way: unlike for `same`, numbers of different forms and
records in different orders differ. -/
def identical : Value → Value → Bool
  | null, null => true
  | bool b, bool c => b == c
  | int m, int n => m == n
  | float x, float y => decide (x = y)
  | text s, text t => s == t
  | list vs, list ws => identicalList vs ws
  | record fs, record gs => identicalFields fs gs
  | _, _ => false

def identicalList : List Value → List Value → Bool
  | [], [] => true
  | v :: vs, w :: ws => identical v w && identicalList vs ws
  | _, _ => false

def identicalFields : List (String × Value) → List (String × Value) → Bool
  | [], [] => true
  | (name, v) :: fs, (name', w) :: gs => name == name' && identical v w && identicalFields fs gs
  | _, _ => false

end

mutual

theorem identical_iff : ∀ {v w : Value}, v.identical w = true ↔ v = w
  | null, w => by cases w <;> simp [identical]
  | bool b, w => by cases w <;> simp [identical]
  | int m, w => by cases w <;> simp [identical]
  | float x, w => by cases w <;> simp [identical]
  | text s, w => by cases w <;> simp [identical]
  | list vs, w => by cases w <;> simp [identical, identicalList_iff]
  | record fs, w => by cases w <;> simp [identical, identicalFields_iff]

theorem identicalList_iff : ∀ {vs ws : List Value}, identicalList vs ws = true ↔ vs = ws
  | [], ws => by cases ws <;> simp [identicalList]
  | v :: vs, ws => by cases ws <;> simp [identicalList, identical_iff, identicalList_iff]

theorem identicalFields_iff :
    ∀ {fs gs : List (String × Value)}, identicalFields fs gs = true ↔ fs = gs
  | [], gs => by cases gs <;> simp [identicalFields]
  | (name, v) :: fs, gs => by
      cases gs <;> simp [identicalFields, identical_iff, identicalFields_iff, Prod.ext_iff]

end

end Value

namespace Json

def newLineChars (level : Nat) : List Char :=
  '\n' :: List.replicate (2 * level) ' '

def blockChars (level : Nat) (opening closing : List Char) (items : List (List Char)) : List Char :=
  if items.isEmpty then opening ++ closing
  else opening ++ newLineChars (level + 1) ++ (',' :: newLineChars (level + 1)).intercalate items
    ++ newLineChars level ++ closing

def textChars (s : String) : List Char :=
  '"' :: (s.toList.flatMap escapedChar ++ ['"'])

mutual

def charsAt (level : Nat) : Value → List Char
  | .null => "null".toList
  | .bool b => (if b then "true" else "false").toList
  | .int n => Decimal.intDigits n
  | .float x => (numbers.write x).toList
  | .text s => textChars s
  | .list vs => blockChars level ['['] [']'] (itemChars (level + 1) vs)
  | .record fields => blockChars level ['\x7b'] ['\x7d'] (fieldChars (level + 1) fields)

def itemChars (level : Nat) : List Value → List (List Char)
  | [] => []
  | v :: vs => charsAt level v :: itemChars level vs

def fieldChars (level : Nat) : List (String × Value) → List (List Char)
  | [] => []
  | (name, v) :: fields =>
    (textChars name ++ [':', ' '] ++ charsAt level v) :: fieldChars level fields

end

theorem toList_newLine (level : Nat) : (newLine level).toList = newLineChars level := by
  rw [newLine, String.toList_ofList, newLineChars]

theorem toList_writeText (s : String) : (writeText s).toList = textChars s := by
  rw [writeText, String.toList_ofList, textChars]

theorem toList_block (level : Nat) (opening closing : String) (items : List String) :
    (block level opening closing items).toList =
      blockChars level opening.toList closing.toList (items.map String.toList) := by
  unfold block blockChars
  cases items with
  | nil => exact String.toList_append
  | cons item items =>
      simp [toList_newLine, String.toList_intercalate]

mutual

theorem toList_writeAt (level : Nat) : ∀ v : Value, (writeAt level v).toList = charsAt level v
  | .null => by rw [writeAt, charsAt]
  | .bool b => by rw [writeAt, charsAt]
  | .int n => by rw [writeAt, Value.intText, String.toList_ofList, charsAt]
  | .float x => by rw [writeAt, charsAt]
  | .text s => by rw [writeAt, toList_writeText, charsAt]
  | .list vs => by rw [writeAt, toList_block, map_toList_writeItems, charsAt]; rfl
  | .record fields => by rw [writeAt, toList_block, map_toList_writeFields, charsAt]; rfl

theorem map_toList_writeItems (level : Nat) :
    ∀ vs : List Value, (writeItems level vs).map String.toList = itemChars level vs
  | [] => rfl
  | v :: vs => by
      rw [writeItems, List.map_cons, toList_writeAt, map_toList_writeItems, itemChars]

theorem map_toList_writeFields (level : Nat) :
    ∀ fields : List (String × Value),
      (writeFields level fields).map String.toList = fieldChars level fields
  | [] => rfl
  | (name, v) :: fields => by
      rw [writeFields, List.map_cons, String.toList_append, String.toList_append, toList_writeText,
        toList_writeAt, map_toList_writeFields, fieldChars]
      rfl

end

/-- Whether a value is read from its own text, as a file holds it. -/
def ReadsBack [Limits] (v : Value) : Prop :=
  read (Text.unified (write v)) = .ok v

theorem readsBack_iff [Limits] {v : Value} :
    ReadsBack v ↔ readDocument (Text.unifyNewlines (charsAt 0 v)) = .ok v := by
  rw [ReadsBack, read, Text.unified, String.toList_ofList, write, toList_writeAt]
  cases readDocument (Text.unifyNewlines (charsAt 0 v)) with
  | ok w => exact Iff.of_eq (by rw [Except.mapError, Except.ok.injEq, Except.ok.injEq])
  | error e => exact iff_of_false nofun nofun

instance [Limits] (v : Value) : Decidable (ReadsBack v) :=
  match found : readDocument (Text.unifyNewlines (charsAt 0 v)) with
  | .ok w =>
    decidable_of_iff (w.identical v = true) <| by
      rw [readsBack_iff, found, Value.identical_iff, Except.ok.injEq]
  | .error e => isFalse <| by
      rw [readsBack_iff, found]
      nofun

end Json

end Schematic
