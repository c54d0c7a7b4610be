import Schematic.Text.Pieces
/-!
Texts as lines: what stands between newlines.
-/

namespace Schematic.Text

def lines (s : String) : List String :=
  (pieces (· == '\n') s.toList).map String.ofList

def joinLines (ls : List String) : String :=
  "\n".intercalate ls

@[simp] theorem joinLines_lines (s : String) : joinLines (lines s) = s := by
  rw [← String.toList_inj]
  simp [joinLines, lines, intercalate_pieces, Function.comp_def]

theorem newline_not_mem_of_mem_lines {s l : String} (h : l ∈ lines s) : '\n' ∉ l.toList := by
  obtain ⟨r, hr, rfl⟩ := List.mem_map.1 h
  intro hc
  have := separates_eq_false_of_mem_pieces hr (by simpa using hc)
  simp at this

/-- Writes every line ending, with or without a carriage return, as a newline. -/
def unifyNewlines : List Char → List Char
  | [] => []
  | '\r' :: '\n' :: cs => '\n' :: unifyNewlines cs
  | '\r' :: cs => '\n' :: unifyNewlines cs
  | c :: cs => c :: unifyNewlines cs

def unified (s : String) : String :=
  String.ofList (unifyNewlines s.toList)

end Schematic.Text
