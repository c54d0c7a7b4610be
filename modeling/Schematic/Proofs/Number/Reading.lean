import Schematic.Number.Reading
import Schematic.Proofs.Text.Collapse
import Schematic.Proofs.Text.Pieces
/-!
A trimmed text that is read as a number has no blanks in it.

Each reader takes characters off the front. What it takes holds no blank, so that a text has one
only if what is left of it has.
-/

namespace Schematic.Text

variable {c : Char} {cs : List Char}

theorem not_blank_of_isDigit (digit : isDigit c = true) : isBlank c = false :=
  not_blank_of (isDigit · = true) (by decide +kernel) digit

theorem not_blank_of_digit? {d : Nat} (digit : digit? c = some d) : isBlank c = false := by
  apply not_blank_of_isDigit
  rw [isDigit, digit]
  rfl

theorem not_blank_of_toLower (solid : isBlank c.toLower = false) : isBlank c = false :=
  not_blank_of (isBlank ·.toLower = false) (by decide) solid

theorem forall_of_sign (rest : ∀ c ∈ (sign cs).2, isBlank c = false) :
    ∀ c ∈ cs, isBlank c = false := by
  unfold sign at rest
  split at rest
  · exact List.forall_mem_cons.2 ⟨by decide, rest⟩
  · exact List.forall_mem_cons.2 ⟨by decide, rest⟩
  · exact rest

theorem forall_of_moreDigits (rest : ∀ c ∈ (moreDigits cs).2, isBlank c = false) :
    ∀ c ∈ cs, isBlank c = false := by
  fun_induction moreDigits cs with
  | case1 c cs d digit ds rest' read ih =>
      rw [read] at ih
      have tail : ∀ e ∈ c :: cs, isBlank e = false :=
        List.forall_mem_cons.2 ⟨not_blank_of_digit? digit, ih rest⟩
      exact List.forall_mem_cons.2 ⟨by decide, tail⟩
  | case2 => exact rest
  | case3 c cs _ d digit ds rest' read ih =>
      rw [read] at ih
      exact List.forall_mem_cons.2 ⟨not_blank_of_digit? digit, ih rest⟩
  | case4 => exact rest
  | case5 => exact rest

theorem forall_of_digitRun (rest : ∀ c ∈ (digitRun cs).2, isBlank c = false) :
    ∀ c ∈ cs, isBlank c = false := by
  unfold digitRun at rest
  split at rest
  · exact rest
  · exact forall_of_moreDigits rest

theorem forall_of_exponent? {e : Int} (read : exponent? cs = some e) :
    ∀ c ∈ cs, isBlank c = false := by
  cases cs with
  | nil => exact nofun
  | cons c cs =>
      simp only [exponent?] at read
      split at read
      next letter =>
        split at read
        next _ _ digits =>
          have tail : ∀ d ∈ (sign cs).2, isBlank d = false := by
            apply forall_of_digitRun
            rw [digits]
            exact nofun
          refine List.forall_mem_cons.2 ⟨?_, forall_of_sign tail⟩
          simp only [Bool.or_eq_true, decide_eq_true_eq] at letter
          rcases letter with rfl | rfl <;> decide
        next => cases read
      next => cases read

theorem forall_of_unsigned? {negative : Bool} {x : Binary64}
    (read : unsigned? negative cs = some x) : ∀ c ∈ cs, isBlank c = false := by
  apply forall_of_digitRun
  simp only [unsigned?] at read
  split at read
  next fraction _ whole =>
    rw [Option.ite_none_left_eq_some, Option.map_eq_some_iff] at read
    obtain ⟨_, e, power, _⟩ := read
    rw [whole]
    exact List.forall_mem_cons.2 ⟨by decide, forall_of_digitRun (forall_of_exponent? power)⟩
  next =>
    rw [Option.ite_none_left_eq_some, Option.map_eq_some_iff] at read
    obtain ⟨_, e, power, _⟩ := read
    exact forall_of_exponent? power

theorem forall_of_map_toLower {name : String} (solid : IsUnbroken name)
    (named : String.ofList (cs.map Char.toLower) = name) : ∀ c ∈ cs, isBlank c = false := by
  intro c member
  apply not_blank_of_toLower
  apply solid
  rw [← named, String.toList_ofList]
  exact List.mem_map_of_mem member

theorem not_margin_of_not_blank (c : Char) (solid : isBlank c = false) : isMargin c = false := by
  rw [isMargin, solid, Bool.false_and]

theorem isUnbroken_of_number? {s : String} {x : Binary64} (trimmed : trim s = s)
    (read : number? s = some x) : IsUnbroken s := by
  have margins : trimWhere isMargin s.toList = s.toList :=
    trimWhere_of_imp not_margin_of_not_blank (trim_eq_self_iff.1 trimmed)
  rw [number?, margins] at read
  apply forall_of_sign
  simp only at read
  split at read
  next named => exact forall_of_map_toLower (by decide) named
  next named => exact forall_of_map_toLower (by decide) named
  next named => exact forall_of_map_toLower (by decide) named
  next => exact forall_of_unsigned? read

end Schematic.Text
