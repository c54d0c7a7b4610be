/-!
Dividing a text at the characters that separate its pieces.
-/

namespace Schematic.Text

def pieces (separates : Char → Bool) : List Char → List (List Char)
  | [] => [[]]
  | c :: cs =>
    if separates c then [] :: pieces separates cs
    else
      match pieces separates cs with
      | r :: rs => (c :: r) :: rs
      | [] => [[c]]

theorem pieces_ne_nil (p : Char → Bool) (cs : List Char) : pieces p cs ≠ [] := by
  cases cs with
  | nil => simp [pieces]
  | cons c cs =>
    rw [pieces]
    split
    · simp
    · split <;> simp

theorem pieces_cons_of_pos {p : Char → Bool} {c : Char} (h : p c = true) (cs : List Char) :
    pieces p (c :: cs) = [] :: pieces p cs := by
  simp [pieces, h]

theorem pieces_cons_of_neg {p : Char → Bool} {c : Char} (h : p c = false) (cs : List Char) :
    ∃ r rs, pieces p cs = r :: rs ∧ pieces p (c :: cs) = (c :: r) :: rs := by
  obtain ⟨r, rs, hr⟩ := List.exists_cons_of_ne_nil (pieces_ne_nil p cs)
  exact ⟨r, rs, hr, by simp [pieces, h, hr]⟩

theorem separates_eq_false_of_mem_pieces {p : Char → Bool} {cs r : List Char} {c : Char}
    (h : r ∈ pieces p cs) (hc : c ∈ r) : p c = false := by
  induction cs generalizing r with
  | nil => simp_all [pieces]
  | cons d cs ih =>
    cases hd : p d with
    | true =>
      rw [pieces_cons_of_pos hd, List.mem_cons] at h
      rcases h with rfl | h
      · simp at hc
      · exact ih h hc
    | false =>
      obtain ⟨s, rs, hs, hp⟩ := pieces_cons_of_neg hd cs
      rw [hp, List.mem_cons] at h
      rcases h with rfl | h
      · rcases List.mem_cons.1 hc with rfl | hc
        · exact hd
        · exact ih (by simp [hs]) hc
      · exact ih (by simp [hs, h]) hc

/-- Where one character separates, joining the pieces by it gives the text back. -/
theorem intercalate_pieces (d : Char) (cs : List Char) :
    [d].intercalate (pieces (· == d) cs) = cs := by
  induction cs with
  | nil => rfl
  | cons c cs ih =>
    cases hc : c == d with
    | true =>
      obtain ⟨r, rs, hr⟩ := List.exists_cons_of_ne_nil (pieces_ne_nil (· == d) cs)
      rw [pieces_cons_of_pos (p := (· == d)) hc]
      simp_all [List.intercalate]
    | false =>
      obtain ⟨r, rs, hr, hp⟩ := pieces_cons_of_neg (p := (· == d)) hc cs
      rw [hp]
      cases rs <;> simp_all [List.intercalate]

/-- The pieces that are not empty: the maximal runs of characters that do not separate. -/
def runs (separates : Char → Bool) (cs : List Char) : List (List Char) :=
  (pieces separates cs).filter fun r => !r.isEmpty

theorem mem_runs {p : Char → Bool} {cs r : List Char} (h : r ∈ runs p cs) :
    r ≠ [] ∧ ∀ c ∈ r, p c = false := by
  rw [runs, List.mem_filter] at h
  exact ⟨by simpa using h.2, fun c hc => separates_eq_false_of_mem_pieces h.1 hc⟩

end Schematic.Text
