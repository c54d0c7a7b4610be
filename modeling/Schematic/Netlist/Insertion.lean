import Schematic.Text.Case
import Schematic.Text.Blank
import Schematic.Text.Lines
/-!
Inserting directives into the text of a netlist, ahead of its last end line.
-/

namespace Schematic.Netlist

def isEndLine (l : String) : Bool :=
  Text.lower (Text.trim l) == ".end"

/-- Divides lines before the last end line. -/
def divide? : List String → Option (List String × List String)
  | [] => none
  | l :: ls =>
    match divide? ls with
    | some (before, after) => some (l :: before, after)
    | none => if isEndLine l then some ([], l :: ls) else none

theorem divide?_eq_none_iff {ls : List String} :
    divide? ls = none ↔ ∀ l ∈ ls, isEndLine l = false := by
  induction ls with
  | nil => simp [divide?]
  | cons l ls ih =>
    rw [divide?]
    cases h : divide? ls with
    | none => cases hl : isEndLine l <;> simp_all
    | some _ => simp_all

/-- Nothing is lost, and the second part begins with the last end line. -/
theorem divide?_eq_some {ls before after : List String} (h : divide? ls = some (before, after)) :
    before ++ after = ls ∧ ∃ e rest, after = e :: rest ∧ isEndLine e = true ∧
      ∀ l ∈ rest, isEndLine l = false := by
  induction ls generalizing before after with
  | nil => simp [divide?] at h
  | cons l ls ih =>
    rw [divide?] at h
    cases hd : divide? ls with
    | none =>
      cases hl : isEndLine l with
      | false => simp [hd, hl] at h
      | true =>
        simp only [hd, hl, ↓reduceIte, Option.some.injEq, Prod.mk.injEq] at h
        obtain ⟨rfl, rfl⟩ := h
        exact ⟨rfl, l, ls, rfl, hl, divide?_eq_none_iff.1 hd⟩
    | some d =>
      simp only [hd, Option.some.injEq, Prod.mk.injEq] at h
      obtain ⟨rfl, rfl⟩ := h
      obtain ⟨hjoin, hend⟩ := ih hd
      exact ⟨by simp [hjoin], hend⟩

/-- Puts directives before the last end line; without one, they go to the end, with an end line. -/
def insertLines (lines directives : List String) : List String :=
  match divide? lines with
  | some (before, after) => before ++ directives ++ after
  | none => lines ++ directives ++ [".end"]

/-- Inserts directives into a text. The empty text has no lines. -/
def insertDirectives (text : String) (directives : List String) : String :=
  Text.joinLines (insertLines (if text = "" then [] else Text.lines text) directives)

end Schematic.Netlist
