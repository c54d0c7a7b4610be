import Schematic.Proofs.Text.Pieces
/-!
The words of a text as what stands between separators: which texts consist of given words, and which
parts of a text are words.
-/

namespace Schematic.Text

/-- The texts that consist of words in order, with separators around and between them. -/
inductive Renders (p : Char → Bool) : List (List Char) → List Char → Prop
  | nil : Renders p [] []
  | gap {ws cs c} (separates : p c = true) (rest : Renders p ws cs) : Renders p ws (c :: cs)
  | last {w} (some : w ≠ []) (whole : ∀ c ∈ w, p c = false) : Renders p [w] w
  | word {w ws cs c} (some : w ≠ []) (whole : ∀ c ∈ w, p c = false) (separates : p c = true)
      (rest : Renders p ws cs) : Renders p (w :: ws) (w ++ c :: cs)

variable {p : Char → Bool} {ws : List (List Char)} {w cs : List Char}

theorem runs_cons_of_pos {c : Char} (separates : p c = true) (cs : List Char) :
    runs p (c :: cs) = runs p cs :=
  runs_append_cons separates [] cs

theorem Renders.runs_eq (renders : Renders p ws cs) : runs p cs = ws := by
  induction renders with
  | nil => rfl
  | gap separates _ ih => rw [runs_cons_of_pos separates, ih]
  | last some whole => exact runs_of_forall whole some
  | word some whole separates _ ih =>
      rw [runs_append_cons separates, runs_of_forall whole some, ih, List.singleton_append]

theorem renders_runs (p : Char → Bool) (cs : List Char) : Renders p (runs p cs) cs := by
  induction cs with
  | nil => exact .nil
  | cons c cs ih =>
      cases first : p c with
      | true =>
          rw [runs_cons_of_pos first]
          exact .gap first ih
      | false =>
          have single : ∀ d ∈ [c], p d = false := by simpa using first
          -- The first word of the rest goes on with `c`, unless the rest begins with a separator.
          have prepended : ∃ ws, Renders p ws (c :: cs) := by
            generalize runs p cs = ws at ih
            cases ih with
            | nil => exact ⟨_, .last (by simp) single⟩
            | gap separates rest => exact ⟨_, .word (w := [c]) (by simp) single separates rest⟩
            | last some whole =>
                exact ⟨_, .last (by simp) (List.forall_mem_cons.2 ⟨first, whole⟩)⟩
            | @word w ws cs d some whole separates rest =>
                exact ⟨_, .word (w := c :: w) (by simp) (List.forall_mem_cons.2 ⟨first, whole⟩)
                  separates rest⟩
          obtain ⟨ws, renders⟩ := prepended
          exact renders.runs_eq.symm ▸ renders

theorem runs_eq_iff : runs p cs = ws ↔ Renders p ws cs :=
  ⟨fun same => same ▸ renders_runs p cs, Renders.runs_eq⟩

theorem runs_intercalate {d : Char} (separates : p d = true)
    (each : ∀ w ∈ ws, w ≠ [] ∧ ∀ c ∈ w, p c = false) : runs p ([d].intercalate ws) = ws := by
  induction ws with
  | nil => rfl
  | cons w ws ih =>
      obtain ⟨⟨some, whole⟩, rest⟩ := List.forall_mem_cons.1 each
      cases ws with
      | nil =>
          rw [List.intercalate_singleton]
          exact runs_of_forall whole some
      | cons v ws =>
          rw [List.intercalate_cons_cons, List.append_assoc, List.singleton_append,
            runs_append_cons separates, runs_of_forall whole some, ih rest, List.singleton_append]

/-- A maximal run of characters that do not separate. -/
structure IsRun (p : Char → Bool) (w cs : List Char) : Prop where
  some : w ≠ []
  whole : ∀ c ∈ w, p c = false
  maximal : ∃ before after, cs = before ++ w ++ after ∧
    (∀ c ∈ before.getLast?, p c = true) ∧ ∀ c ∈ after.head?, p c = true

theorem IsRun.append_cons {c : Char} (run : IsRun p w cs) (separates : p c = true)
    (front : List Char) : IsRun p w (front ++ c :: cs) := by
  obtain ⟨some, whole, before, after, rfl, left, right⟩ := run
  refine ⟨some, whole, front ++ c :: before, after, by simp, fun d last => ?_, right⟩
  rw [List.getLast?_append, List.getLast?_cons, Option.some_or, Option.mem_some_iff] at last
  cases ends : before.getLast? with
  | none =>
      rw [ends] at last
      exact last ▸ separates
  | some e =>
      rw [ends] at last
      exact left d (ends.trans (congrArg Option.some last))

theorem isRun_of_mem (renders : Renders p ws cs) (member : w ∈ ws) : IsRun p w cs := by
  induction renders with
  | nil => cases member
  | gap separates _ ih => exact (ih member).append_cons separates []
  | last some whole =>
      obtain rfl := List.mem_singleton.1 member
      exact ⟨some, whole, [], [], by simp, nofun, nofun⟩
  | @word v ws cs c some whole separates _ ih =>
      rcases List.mem_cons.1 member with rfl | later
      · exact ⟨some, whole, [], c :: cs, by simp, nofun, by simpa using separates⟩
      · exact (ih later).append_cons separates v

theorem mem_runs_iff : w ∈ runs p cs ↔ IsRun p w cs := by
  refine ⟨isRun_of_mem (renders_runs p cs), ?_⟩
  rintro ⟨some, whole, before, after, rfl, left, right⟩
  have behind : w ∈ runs p (w ++ after) := by
    cases after with
    | nil => simp [runs_of_forall whole some]
    | cons c after =>
        rw [runs_append_cons (right c rfl), runs_of_forall whole some]
        exact List.mem_append_left _ (List.mem_singleton_self w)
  rcases List.eq_nil_or_concat before with rfl | ⟨front, c, rfl⟩
  · exact behind
  · have separates : p c = true := left c (by simp)
    rw [List.concat_eq_append, List.append_assoc, List.append_assoc, List.singleton_append,
      runs_append_cons separates]
    exact List.mem_append_right _ behind

end Schematic.Text
