import Schematic.Text.Case
import Mathlib.Data.List.Forall2
/-!
Lower case letter by letter, and which spellings of a name are the same letters case aside.
-/

namespace Schematic.Text

/-- Away from sigma and the dotted capital, a letter has one lower-case letter wherever it stands. -/
theorem lowerChar_eq_singleton {c : Char} (sigma : lowerLetter c ≠ 'σ') (dotted : lowerLetter c ≠ 'i')
    (before after : List Char) : lowerChar before c after = [lowerLetter c] := by
  have notSigma : c ≠ 'Σ' := by
    rintro rfl
    exact sigma (by decide +kernel)
  have notDotted : c ≠ 'İ' := by
    rintro rfl
    exact dotted (by decide +kernel)
  rw [lowerChar, if_neg notSigma, if_neg notDotted]

theorem lowerFrom_eq_map {cs : List Char}
    (plain : ∀ c ∈ cs, lowerLetter c ≠ 'σ' ∧ lowerLetter c ≠ 'i') (before : List Char) :
    lowerFrom before cs = cs.map lowerLetter := by
  induction cs generalizing before with
  | nil => rfl
  | cons c cs ih =>
      obtain ⟨⟨sigma, dotted⟩, rest⟩ := List.forall_mem_cons.1 plain
      rw [lowerFrom, lowerChar_eq_singleton sigma dotted, ih rest, List.map_cons,
        List.singleton_append]

theorem mem_lowerFrom {cs : List Char} {c : Char} (ascii : c.toNat < 128) (lower : c.toLower = c)
    (member : c ∈ cs) (before : List Char) : c ∈ lowerFrom before cs := by
  induction cs generalizing before with
  | nil => cases member
  | cons d cs ih =>
      rw [lowerFrom, List.mem_append]
      rcases List.mem_cons.1 member with rfl | later
      · rw [lowerChar, if_neg, if_neg, lowerLetter, if_pos ascii, lower]
        · exact .inl (List.mem_singleton_self c)
        · rintro rfl
          exact absurd ascii (by decide)
        · rintro rfl
          exact absurd ascii (by decide)
      · exact .inr (ih later _)

theorem CaseRun.eq_of_shift? {rs : List CaseRun} {n m : Nat} (found : shift? rs n = m)
    (pos : 0 < m)
    (away : ∀ r ∈ rs, (r.last : Int) + r.shift < m ∨ (m : Int) < r.first + r.shift) : n = m := by
  unfold shift? at found
  split at found
  next r run =>
    have covered := List.find?_some run
    have outside := away r (List.mem_of_find?_eq_some run)
    rw [covers, Bool.and_eq_true, Bool.and_eq_true, decide_eq_true_eq,
      decide_eq_true_eq] at covered
    omega
  next => exact found

theorem eq_toNat_of_ofNat {n : Nat} {c : Char} (made : Char.ofNat n = c) (some : c ≠ '\x00') :
    n = c.toNat := by
  subst made
  by_cases valid : n.isValidChar
  · have made : Char.ofNat n = Char.ofNatAux n valid := dif_pos valid
    rw [made]
    rfl
  · exact absurd (dif_neg valid) some

theorem toLower_ascii {c : Char} (ascii : c.toNat < 128) : c.toLower.toNat < 128 := by
  have table : ∀ n < 128, (Char.ofNat n).toLower.toNat < 128 := by decide
  have here := table c.toNat ascii
  rwa [Char.ofNat_toNat] at here

/-- Only the long s itself is the long s in lower case. -/
theorem eq_longS_of_lowerLetter {c : Char} (long : lowerLetter c = 'ſ') : c = 'ſ' := by
  unfold lowerLetter at long
  split at long
  next ascii =>
    have below := toLower_ascii ascii
    rw [long] at below
    exact absurd below (by decide)
  next =>
    split at long
    next => exact absurd long (by decide)
    next =>
      have code := eq_toNat_of_ofNat long (by decide)
      exact Char.toNat_inj.1 (CaseRun.eq_of_shift? code (by decide) (by decide +kernel))

/-- A lower-case letter that no other one is related to. -/
structure IsPlain (a : Char) : Prop where
  lower : lowerLetter a = a
  alone : ∀ ks ∈ kinLetters, a.toNat ∉ ks

instance (a : Char) : Decidable (IsPlain a) :=
  decidable_of_iff (lowerLetter a = a ∧ ∀ ks ∈ kinLetters, a.toNat ∉ ks)
    ⟨fun h => ⟨h.1, h.2⟩, fun h => ⟨h.lower, h.alone⟩⟩

theorem IsPlain.ne {a : Char} (plain : IsPlain a) : a ≠ 'σ' ∧ a ≠ 'i' := by
  constructor <;> rintro rfl <;> exact absurd plain.alone (by decide)

theorem IsPlain.sameLetter_iff {a c : Char} (plain : IsPlain a) :
    sameLetter a c = true ↔ lowerLetter c = a := by
  have alone : ¬ (kinLetters.any fun ks =>
      ks.contains a.toNat && ks.contains (lowerLetter c).toNat) = true := by
    intro kin
    obtain ⟨ks, listed, both⟩ := List.any_eq_true.1 kin
    exact plain.alone ks listed (List.contains_iff_mem.1 (Bool.and_eq_true_iff.1 both).1)
  rw [sameLetter, plain.lower, Bool.or_eq_true, or_iff_left alone, beq_iff_eq, eq_comm]

def ArePlain (cs : List Char) : Prop :=
  ∀ c ∈ cs, IsPlain c

instance (cs : List Char) : Decidable (ArePlain cs) :=
  decidable_of_iff ((cs.all fun c => IsPlain c) = true) (by simp [ArePlain])

theorem sameLetter_s {c : Char} (same : sameLetter 's' c = true) :
    lowerLetter c = 's' ∨ c = 'ſ' := by
  have lower : lowerLetter 's' = 's' := by decide +kernel
  have forms : ∀ ks ∈ kinLetters, 's'.toNat ∈ ks → ks = ['s'.toNat, 'ſ'.toNat] := by
    decide +kernel
  rw [sameLetter, lower, Bool.or_eq_true, beq_iff_eq] at same
  rcases same with equal | kin
  · exact .inl equal.symm
  · obtain ⟨ks, listed, both⟩ := List.any_eq_true.1 kin
    rw [Bool.and_eq_true, List.contains_iff_mem, List.contains_iff_mem] at both
    obtain ⟨hasS, hasLower⟩ := both
    rw [forms ks listed hasS, List.mem_pair] at hasLower
    exact hasLower.imp Char.toNat_inj.1 fun long => eq_longS_of_lowerLetter (Char.toNat_inj.1 long)

theorem sameLetters_iff {as bs : List Char} :
    sameLetters as bs = true ↔ List.Forall₂ (fun a b => sameLetter a b = true) as bs := by
  induction as generalizing bs with
  | nil => cases bs <;> simp [sameLetters]
  | cons a as ih => cases bs <;> simp [sameLetters, ih]

theorem map_lowerLetter_of_sameLetters {as bs : List Char} (plain : ArePlain as)
    (same : sameLetters as bs = true) : bs.map lowerLetter = as := by
  have pairs := sameLetters_iff.1 same
  clear same
  induction pairs with
  | nil => rfl
  | cons here _ ih =>
      obtain ⟨first, rest⟩ := List.forall_mem_cons.1 plain
      rw [List.map_cons, first.sameLetter_iff.1 here, ih rest]

end Schematic.Text
