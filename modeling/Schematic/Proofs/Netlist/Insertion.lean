import Schematic.Netlist.Insertion
import Schematic.Proofs.Text.Pieces
/-!
Inserted directives line by line: the lines of a text stay as they are around the place where the
directives go, in front of the last end line.
-/

namespace Schematic.Netlist

def linesOf (text : String) : List String :=
  if text = "" then [] else Text.lines text

theorem joinLines_linesOf (text : String) : Text.joinLines (linesOf text) = text := by
  unfold linesOf
  split
  next none => rw [none]; rfl
  next => exact Text.joinLines_lines text

theorem linesOf_injective : Function.Injective linesOf :=
  Function.LeftInverse.injective joinLines_linesOf

theorem isOneLine_of_mem_linesOf {text l : String} (member : l ∈ linesOf text) :
    Text.IsOneLine l := by
  unfold linesOf at member
  split at member
  next => cases member
  next => exact Text.isOneLine_of_mem_lines member

theorem joinLines_ne_empty {ls : List String} {l : String} (member : l ∈ ls) (given : l ≠ "") :
    Text.joinLines ls ≠ "" := by
  intro none
  match ls with
  | [] => cases member
  | [m] =>
      rw [Text.joinLines, String.intercalate_singleton] at none
      exact given ((List.mem_singleton.1 member).trans none)
  | m :: m' :: ls =>
      rw [Text.joinLines, String.intercalate_cons_cons, String.append_eq_empty_iff,
        String.append_eq_empty_iff] at none
      exact absurd none.1.2 (by decide)

theorem linesOf_joinLines {ls : List String} {l : String} (member : l ∈ ls) (given : l ≠ "") :
    linesOf (Text.joinLines ls) = ls.flatMap Text.lines := by
  rw [linesOf, if_neg (joinLines_ne_empty member given),
    Text.lines_joinLines (List.ne_nil_of_mem member)]

theorem ne_empty_of_isEndLine {l : String} (ends : isEndLine l = true) : l ≠ "" := by
  rintro rfl
  exact absurd ends (by decide +kernel)

theorem divide?_append {e : String} {rest : List String} (ends : isEndLine e = true)
    (last : ∀ l ∈ rest, isEndLine l = false) (before : List String) :
    divide? (before ++ e :: rest) = some (before, e :: rest) := by
  induction before with
  | nil => rw [List.nil_append, divide?, divide?_eq_none_iff.2 last]; exact if_pos ends
  | cons l before ih => rw [List.cons_append, divide?, ih]

def HasEnd (text : String) : Prop :=
  ∃ l ∈ linesOf text, isEndLine l = true

theorem not_hasEnd_iff {text : String} :
    ¬ HasEnd text ↔ ∀ l ∈ linesOf text, isEndLine l = false := by
  simp [HasEnd]

structure Parts (text : String) (before after : List String) : Prop where
  lines : HasEnd text ∧ linesOf text = before ++ after ∨
    ¬ HasEnd text ∧ linesOf text = before ∧ after = [".end"]
  ends : ∃ e rest, after = e :: rest ∧ isEndLine e = true ∧ ∀ l ∈ rest, isEndLine l = false

theorem exists_parts (text : String) : ∃ before after, Parts text before after := by
  cases divided : divide? (linesOf text) with
  | none =>
      have noEnd := not_hasEnd_iff.2 (divide?_eq_none_iff.1 divided)
      exact ⟨linesOf text, [".end"], .inr ⟨noEnd, rfl, rfl⟩, ".end", [], rfl,
        by decide +kernel, nofun⟩
  | some parts =>
      obtain ⟨before, after⟩ := parts
      obtain ⟨whole, e, rest, rfl, ends, last⟩ := divide?_eq_some divided
      have hasEnd : HasEnd text := ⟨e, by simp [← whole], ends⟩
      exact ⟨before, e :: rest, .inl ⟨hasEnd, whole.symm⟩, e, rest, rfl, ends, last⟩

namespace Parts

variable {text : String} {before after : List String} (parts : Parts text before after)

include parts

theorem insertDirectives_eq (directives : List String) :
    insertDirectives text directives = Text.joinLines (before ++ directives ++ after) := by
  obtain ⟨e, rest, rfl, ends, last⟩ := parts.ends
  change Text.joinLines (insertLines (linesOf text) directives) = _
  rcases parts.lines with ⟨_, whole⟩ | ⟨noEnd, whole, single⟩
  · rw [insertLines, whole, divide?_append ends last]
  · rw [insertLines, divide?_eq_none_iff.2 (not_hasEnd_iff.1 noEnd), whole, single]

theorem isOneLine {l : String} (member : l ∈ before ++ after) : Text.IsOneLine l := by
  rcases parts.lines with ⟨_, whole⟩ | ⟨_, whole, rfl⟩
  · exact isOneLine_of_mem_linesOf (whole ▸ member)
  · rcases List.mem_append.1 member with old | last
    · exact isOneLine_of_mem_linesOf (whole ▸ old)
    · rw [List.mem_singleton.1 last]
      decide

theorem linesOf_insertDirectives (directives : List String) :
    linesOf (insertDirectives text directives) =
      before ++ directives.flatMap Text.lines ++ after := by
  obtain ⟨e, rest, rfl, ends, _⟩ := parts.ends
  have isOneLine := fun l => parts.isOneLine (l := l)
  rw [parts.insertDirectives_eq, linesOf_joinLines (l := e) (by simp) (ne_empty_of_isEndLine ends),
    List.flatMap_append, List.flatMap_append,
    Text.flatMap_lines_of_forall fun l member => isOneLine l (List.mem_append_left _ member),
    Text.flatMap_lines_of_forall fun l member => isOneLine l (List.mem_append_right _ member)]

theorem inserted (directives : List String) :
    Parts (insertDirectives text directives) (before ++ directives.flatMap Text.lines) after := by
  refine ⟨.inl ⟨?_, parts.linesOf_insertDirectives directives⟩, parts.ends⟩
  obtain ⟨e, rest, rfl, ends, _⟩ := parts.ends
  exact ⟨e, by simp [parts.linesOf_insertDirectives], ends⟩

theorem insertDirectives_nil_iff : insertDirectives text [] = text ↔ HasEnd text := by
  rw [← linesOf_injective.eq_iff, parts.linesOf_insertDirectives, List.flatMap_nil,
    List.append_nil]
  rcases parts.lines with ⟨hasEnd, whole⟩ | ⟨noEnd, whole, rfl⟩
  · exact iff_of_true whole.symm hasEnd
  · exact iff_of_false (by simp [whole]) noEnd

theorem lt_length {i j : Nat} {l : String} (behind : i < j) (listed : (linesOf text)[j]? = some l)
    (isEnd : isEndLine l = true) : i < before.length := by
  obtain ⟨e, rest, rfl, _, last⟩ := parts.ends
  rcases parts.lines with ⟨_, whole⟩ | ⟨noEnd, _, _⟩
  · rw [whole] at listed
    by_contra late
    have inRest : rest[j - before.length - 1]? = some l := by
      rw [← listed, List.getElem?_append_right (by omega), List.getElem?_cons, if_neg (by omega)]
    rw [last l (List.mem_of_getElem? inRest)] at isEnd
    cases isEnd
  · rw [not_hasEnd_iff.1 noEnd l (List.mem_of_getElem? listed)] at isEnd
    cases isEnd

theorem getElem?_of_lt {i : Nat} (front : i < before.length) (directives : List String) :
    (linesOf (insertDirectives text directives))[i]? = (linesOf text)[i]? := by
  rw [parts.linesOf_insertDirectives, List.append_assoc, List.getElem?_append_left front]
  rcases parts.lines with ⟨_, whole⟩ | ⟨_, whole, _⟩
  · rw [whole, List.getElem?_append_left front]
  · rw [whole]

end Parts

/-- Two insertions are one of all that is inserted, and no line of the text gets lost or moves, but
for the directives in front of its last end line. -/
theorem insertDirectives_composes (text : String) (a b : List String) :
    insertDirectives (insertDirectives text a) b = insertDirectives text (a ++ b) ∧
      (insertDirectives text [] = text ↔ HasEnd text) ∧
      (∃ before after, Parts text before after ∧
        linesOf (insertDirectives text a) = before ++ a.flatMap Text.lines ++ after) ∧
      ∀ (i j : Nat) (l : String), i < j → (linesOf text)[j]? = some l → isEndLine l = true →
        (linesOf (insertDirectives text a))[i]? = (linesOf text)[i]? := by
  obtain ⟨before, after, parts⟩ := exists_parts text
  refine ⟨?_, parts.insertDirectives_nil_iff,
    ⟨before, after, parts, parts.linesOf_insertDirectives a⟩, fun i j l behind listed isEnd => ?_⟩
  · apply linesOf_injective
    rw [(parts.inserted a).linesOf_insertDirectives, parts.linesOf_insertDirectives,
      List.flatMap_append, List.append_assoc before]
  · exact parts.getElem?_of_lt (parts.lt_length behind listed isEnd) a

theorem insertDirectives_composes_twoEnds :
    insertDirectives (insertDirectives "R1 N1 0 1k\n.END\n .end \nnote" [".op"]) [".save all"] =
        insertDirectives "R1 N1 0 1k\n.END\n .end \nnote" [".op", ".save all"] ∧
      (linesOf "R1 N1 0 1k\n.END\n .end \nnote")[2]? = some " .end " ∧
      isEndLine " .end " = true ∧
      (linesOf (insertDirectives "R1 N1 0 1k\n.END\n .end \nnote" [".op"]))[1]? =
        (linesOf "R1 N1 0 1k\n.END\n .end \nnote")[1]? := by
  obtain ⟨composes, _, _, stays⟩ :=
    insertDirectives_composes "R1 N1 0 1k\n.END\n .end \nnote" [".op"] [".save all"]
  have listed : (linesOf "R1 N1 0 1k\n.END\n .end \nnote")[2]? = some " .end " := by
    decide +kernel
  have isEnd : isEndLine " .end " = true := by decide +kernel
  exact ⟨composes, listed, isEnd, stays 1 2 " .end " (by decide) listed isEnd⟩

end Schematic.Netlist
