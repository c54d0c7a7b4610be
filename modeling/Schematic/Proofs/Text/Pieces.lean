import Schematic.Text.Blank
import Schematic.Text.Lines
import Mathlib.Data.List.Basic
/-!
The lines and the words of a text that is put together from parts.
-/

namespace Schematic.Text

variable {p : Char → Bool}

theorem pieces_append_cons {d : Char} (separates : p d = true) (cs ds : List Char) :
    pieces p (cs ++ d :: ds) = pieces p cs ++ pieces p ds := by
  induction cs with
  | nil => exact pieces_cons_of_pos separates ds
  | cons c cs ih =>
      cases first : p c with
      | true =>
          rw [List.cons_append, pieces_cons_of_pos first, pieces_cons_of_pos first, ih,
            List.cons_append]
      | false =>
          obtain ⟨r, rs, rest, whole⟩ := pieces_cons_of_neg first cs
          obtain ⟨r', rs', rest', whole'⟩ := pieces_cons_of_neg first (cs ++ d :: ds)
          rw [ih, rest, List.cons_append] at rest'
          obtain ⟨rfl, rfl⟩ := List.cons.inj rest'
          rw [List.cons_append, whole, whole', List.cons_append]

theorem pieces_of_forall {cs : List Char} (whole : ∀ c ∈ cs, p c = false) :
    pieces p cs = [cs] := by
  induction cs with
  | nil => rfl
  | cons c cs ih =>
      obtain ⟨first, rest⟩ := List.forall_mem_cons.1 whole
      obtain ⟨r, rs, tail, made⟩ := pieces_cons_of_neg first cs
      obtain ⟨rfl, rfl⟩ := List.cons.inj (tail.symm.trans (ih rest))
      exact made

theorem runs_append_cons {d : Char} (separates : p d = true) (cs ds : List Char) :
    runs p (cs ++ d :: ds) = runs p cs ++ runs p ds := by
  rw [runs, pieces_append_cons separates, List.filter_append]
  rfl

theorem runs_of_forall {cs : List Char} (whole : ∀ c ∈ cs, p c = false) (given : cs ≠ []) :
    runs p cs = [cs] := by
  rw [runs, pieces_of_forall whole, List.filter_cons_of_pos (by simpa using given)]
  rfl

def IsOneLine (s : String) : Prop :=
  '\n' ∉ s.toList

instance (s : String) : Decidable (IsOneLine s) :=
  inferInstanceAs (Decidable (_ ∉ _))

theorem lines_ne_nil (s : String) : lines s ≠ [] :=
  fun none => pieces_ne_nil _ _ (List.map_eq_nil_iff.1 none)

theorem IsOneLine.lines_eq {s : String} (single : IsOneLine s) : lines s = [s] := by
  have whole : ∀ c ∈ s.toList, (c == '\n') = false := by
    intro c member
    exact beq_eq_false_iff_ne.2 fun same => single (same ▸ member)
  rw [lines, pieces_of_forall whole, List.map_singleton, String.ofList_toList]

theorem isOneLine_of_mem_lines {s l : String} (member : l ∈ lines s) : IsOneLine l :=
  newline_not_mem_of_mem_lines member

theorem lines_eq_singleton_iff {s : String} : lines s = [s] ↔ IsOneLine s :=
  ⟨fun single => isOneLine_of_mem_lines (single ▸ List.mem_singleton_self s), IsOneLine.lines_eq⟩

theorem isOneLine_of_length_lines {s : String} (single : (lines s).length = 1) : IsOneLine s := by
  obtain ⟨l, whole⟩ := List.length_eq_one_iff.1 single
  have same : l = s := by
    rw [← joinLines_lines s, whole, joinLines, String.intercalate_singleton]
  rw [same] at whole
  exact lines_eq_singleton_iff.1 whole

theorem isOneLine_append_iff {s t : String} :
    IsOneLine (s ++ t) ↔ IsOneLine s ∧ IsOneLine t := by
  rw [IsOneLine, String.toList_append, List.mem_append, not_or]
  rfl

theorem isOneLine_unwords_iff {ws : List String} :
    IsOneLine (" ".intercalate ws) ↔ ∀ w ∈ ws, IsOneLine w := by
  induction ws with
  | nil => exact iff_of_true (by decide) nofun
  | cons w ws ih =>
      cases ws with
      | nil => rw [String.intercalate_singleton, List.forall_mem_singleton]
      | cons v ws =>
          have space : IsOneLine " " := by decide
          rw [String.intercalate_cons_cons, isOneLine_append_iff, isOneLine_append_iff, ih,
            and_iff_left space]
          exact List.forall_mem_cons.symm

theorem lines_append_newline (s t : String) : lines (s ++ "\n" ++ t) = lines s ++ lines t := by
  have chars : (s ++ "\n" ++ t).toList = s.toList ++ '\n' :: t.toList := by
    rw [String.toList_append, String.toList_append, List.append_assoc]
    rfl
  rw [lines, chars, pieces_append_cons (p := (· == '\n')) (beq_self_eq_true _), List.map_append]
  rfl

theorem lines_joinLines {ls : List String} (some : ls ≠ []) :
    lines (joinLines ls) = ls.flatMap lines := by
  induction ls with
  | nil => exact absurd rfl some
  | cons l ls ih =>
      cases ls with
      | nil => rw [joinLines, String.intercalate_singleton, List.flatMap_singleton]
      | cons m ls =>
          rw [joinLines, String.intercalate_cons_cons, lines_append_newline, List.flatMap_cons]
          exact congrArg _ (ih (List.cons_ne_nil m ls))

theorem flatMap_lines_of_forall {ls : List String} (single : ∀ l ∈ ls, IsOneLine l) :
    ls.flatMap lines = ls := by
  rw [List.flatMap_congr fun l member => (single l member).lines_eq, List.flatMap_singleton']

theorem length_le_length_flatMap_lines (ls : List String) :
    ls.length ≤ (ls.flatMap lines).length := by
  induction ls with
  | nil => exact Nat.zero_le _
  | cons l ls ih =>
      have here := List.length_pos_of_ne_nil (lines_ne_nil l)
      rw [List.flatMap_cons, List.length_append, List.length_cons]
      omega

theorem length_flatMap_lines_iff {ls : List String} :
    (ls.flatMap lines).length = ls.length ↔ ∀ l ∈ ls, IsOneLine l := by
  constructor
  · intro same
    induction ls with
    | nil => exact fun l member => absurd member List.not_mem_nil
    | cons l ls ih =>
        have here := List.length_pos_of_ne_nil (lines_ne_nil l)
        have rest := length_le_length_flatMap_lines ls
        rw [List.flatMap_cons, List.length_append, List.length_cons] at same
        exact List.forall_mem_cons.2 ⟨isOneLine_of_length_lines (by omega), ih (by omega)⟩
  · intro single
    rw [flatMap_lines_of_forall single]

def words (s : String) : List String :=
  (runs isBlank s.toList).map String.ofList

def IsUnbroken (s : String) : Prop :=
  ∀ c ∈ s.toList, isBlank c = false

instance (s : String) : Decidable (IsUnbroken s) :=
  List.decidableBAll (isBlank · = false) s.toList

theorem isUnbroken_of_mem_words {s w : String} (member : w ∈ words s) : IsUnbroken w := by
  obtain ⟨r, run, rfl⟩ := List.mem_map.1 member
  intro c inRun
  rw [String.toList_ofList] at inRun
  exact (mem_runs run).2 c inRun

theorem words_append_space {w : String} (unbroken : IsUnbroken w) (given : w ≠ "") (t : String) :
    words (w ++ " " ++ t) = w :: words t := by
  have chars : (w ++ " " ++ t).toList = w.toList ++ ' ' :: t.toList := by
    rw [String.toList_append, String.toList_append, List.append_assoc]
    rfl
  rw [words, chars, runs_append_cons (by decide),
    runs_of_forall unbroken fun none => given (String.toList_eq_nil_iff.1 none), List.map_append,
    List.map_singleton, String.ofList_toList]
  rfl

end Schematic.Text
