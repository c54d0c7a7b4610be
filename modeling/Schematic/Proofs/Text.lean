import Schematic.Text.Blank
import Schematic.Text.Case
import Schematic.Value
import Mathlib.Algebra.Group.Nat.Defs
import Mathlib.Data.List.DropRight
/-!
Trimming, lower case, and the digits of numbers.
-/

namespace Schematic

namespace Text

section

variable {drops : Char → Bool} {cs : List Char}

theorem trimWhere_eq_rdropWhile (drops : Char → Bool) (cs : List Char) :
    trimWhere drops cs = (cs.dropWhile drops).rdropWhile drops :=
  rfl

theorem dropWhile_eq_self_iff :
    cs.dropWhile drops = cs ↔ ∀ c ∈ cs.head?, drops c = false := by
  rw [List.dropWhile_eq_self_iff]
  cases cs with
  | nil => exact iff_of_true nofun nofun
  | cons c cs => simp

theorem rdropWhile_eq_self_iff :
    cs.rdropWhile drops = cs ↔ ∀ c ∈ cs.getLast?, drops c = false := by
  rw [List.rdropWhile, List.reverse_eq_iff, dropWhile_eq_self_iff, List.head?_reverse]

theorem dropWhile_rdropWhile_eq_self (kept : cs.dropWhile drops = cs) :
    (cs.rdropWhile drops).dropWhile drops = cs.rdropWhile drops := by
  obtain ⟨rest, whole⟩ := List.rdropWhile_prefix drops cs
  rw [dropWhile_eq_self_iff] at *
  intro c first
  apply kept
  rw [← whole, List.head?_append, first]
  rfl

theorem trimWhere_trimWhere (drops : Char → Bool) (cs : List Char) :
    trimWhere drops (trimWhere drops cs) = trimWhere drops cs := by
  simp only [trimWhere_eq_rdropWhile]
  rw [dropWhile_rdropWhile_eq_self (List.dropWhile_idempotent drops cs)]
  exact List.rdropWhile_idempotent _ _

@[simp] theorem trim_trim (s : String) : trim (trim s) = trim s := by
  simp [trim, trimChars, trimWhere_trimWhere]

theorem trim_eq_self_iff {s : String} : trim s = s ↔ trimWhere isBlank s.toList = s.toList := by
  rw [trim, trimChars]
  constructor
  · intro same
    rw [← String.toList_ofList (l := trimWhere isBlank s.toList), same]
  · intro same
    rw [same, String.ofList_toList]

theorem trimWhere_eq_self_iff :
    trimWhere drops cs = cs ↔
      (∀ c ∈ cs.head?, drops c = false) ∧ ∀ c ∈ cs.getLast?, drops c = false := by
  rw [← dropWhile_eq_self_iff, ← rdropWhile_eq_self_iff]
  constructor
  · intro trimmed
    constructor
    · refine (List.dropWhile_suffix drops).eq_of_length_le ?_
      calc cs.length = (trimWhere drops cs).length := by rw [trimmed]
        _ ≤ (cs.dropWhile drops).length := (List.rdropWhile_prefix drops _).length_le
    · have idem := List.rdropWhile_idempotent drops (cs.dropWhile drops)
      rw [← trimWhere_eq_rdropWhile, trimmed] at idem
      exact idem
  · intro ends
    rw [trimWhere_eq_rdropWhile, ends.1, ends.2]

theorem trimWhere_of_imp {other : Char → Bool} (fewer : ∀ c, drops c = false → other c = false)
    (trimmed : trimWhere drops cs = cs) : trimWhere other cs = cs := by
  rw [trimWhere_eq_self_iff] at *
  exact ⟨fun c first => fewer c (trimmed.1 c first), fun c last => fewer c (trimmed.2 c last)⟩

theorem trimWhere_append {front back : List Char}
    (frontTrimmed : trimWhere drops front = front) (backTrimmed : trimWhere drops back = back)
    (someFront : front ≠ []) (someBack : back ≠ []) (middle : List Char) :
    trimWhere drops (front ++ (middle ++ back)) = front ++ (middle ++ back) := by
  rw [trimWhere_eq_self_iff] at *
  have behind : middle ++ back ≠ [] := by simp [someBack]
  rw [List.head?_append_of_ne_nil _ someFront, List.getLast?_append_of_ne_nil _ behind,
    List.getLast?_append_of_ne_nil _ someBack]
  exact ⟨frontTrimmed.1, backTrimmed.2⟩

theorem trimWhere_concat {c : Char} (dropped : drops c = true)
    (trimmed : trimWhere drops cs = cs) : trimWhere drops (cs ++ [c]) = cs := by
  rw [trimWhere_eq_self_iff, ← rdropWhile_eq_self_iff] at trimmed
  cases cs with
  | nil => simp [trimWhere, dropped]
  | cons d cs =>
      have first : (d :: cs ++ [c]).dropWhile drops = d :: cs ++ [c] :=
        dropWhile_eq_self_iff.2 trimmed.1
      rw [trimWhere_eq_rdropWhile, first, List.rdropWhile_concat_pos _ _ _ dropped, trimmed.2]

theorem trimWhere_of_forall (kept : ∀ c ∈ cs, ¬ drops c = true) : trimWhere drops cs = cs := by
  have each : ∀ c ∈ cs, drops c = false := fun c member => Bool.eq_false_iff.2 (kept c member)
  rw [trimWhere_eq_self_iff]
  exact ⟨fun c head => each c (List.mem_of_mem_head? head),
    fun c last => each c (List.mem_of_getLast? last)⟩

theorem mem_of_mem_trim {s : String} {c : Char} (member : c ∈ (trim s).toList) : c ∈ s.toList := by
  rw [trim, String.toList_ofList, trimChars, trimWhere_eq_rdropWhile] at member
  exact (List.dropWhile_suffix isBlank).subset ((List.rdropWhile_prefix isBlank _).subset member)

theorem trim_append {s t : String} (frontTrimmed : trim s = s) (backTrimmed : trim t = t)
    (someFront : s ≠ "") (someBack : t ≠ "") : trim (s ++ t) = s ++ t := by
  rw [trim_eq_self_iff] at *
  rw [String.toList_append]
  refine trimWhere_append frontTrimmed backTrimmed ?_ ?_ []
  · simpa using someFront
  · simpa using someBack

end

theorem upperChars_append (cs ds : List Char) :
    upperChars (cs ++ ds) = upperChars cs ++ upperChars ds :=
  List.flatMap_append

theorem upperChars_of_not_lower {cs : List Char}
    (each : ∀ c ∈ cs, c.toNat < 128 ∧ c.toUpper = c) : upperChars cs = cs := by
  have same : ∀ c ∈ cs, upperChar c = [c] := by
    intro c member
    obtain ⟨ascii, upper⟩ := each c member
    rw [upperChar, if_pos ascii, upper]
  rw [upperChars, List.flatMap_congr same, List.flatMap_singleton']

theorem lowerChar_of_ascii {c : Char} (ascii : c.toNat < 128) (before after : List Char) :
    lowerChar before c after = [c.toLower] := by
  have sigma : c ≠ 'Σ' := by
    rintro rfl
    exact absurd ascii (by decide)
  have dotted : c ≠ 'İ' := by
    rintro rfl
    exact absurd ascii (by decide)
  rw [lowerChar, if_neg sigma, if_neg dotted, lowerLetter, if_pos ascii]

theorem lowerFrom_of_ascii {cs : List Char} (ascii : ∀ c ∈ cs, c.toNat < 128)
    (before : List Char) : lowerFrom before cs = cs.map Char.toLower := by
  induction cs generalizing before with
  | nil => rfl
  | cons c cs ih =>
      have here := ascii c List.mem_cons_self
      have rest := ih fun d member => ascii d (List.mem_cons_of_mem c member)
      rw [lowerFrom, lowerChar_of_ascii here, rest, List.map_cons, List.singleton_append]

theorem lower_of_ascii {s : String} (ascii : ∀ c ∈ s.toList, c.toNat < 128) :
    lower s = String.ofList (s.toList.map Char.toLower) :=
  congrArg String.ofList (lowerFrom_of_ascii ascii [])

theorem lowerChar_ne_nil (before : List Char) (c : Char) (after : List Char) :
    lowerChar before c after ≠ [] := by
  unfold lowerChar
  split
  · split <;> exact List.cons_ne_nil _ _
  · split <;> exact List.cons_ne_nil _ _

theorem lower_ne_empty {s : String} (given : s ≠ "") : lower s ≠ "" := by
  cases chars : s.toList with
  | nil => exact absurd (String.toList_eq_nil_iff.1 chars) given
  | cons c cs =>
      intro blank
      have none := String.ofList_eq_empty_iff.1 blank
      rw [lowerChars, chars, lowerFrom] at none
      exact lowerChar_ne_nil [] c cs (List.append_eq_nil_iff.1 none).1

end Text

namespace Decimal

theorem digitChar_eq (n : Nat) : digitChar n = Nat.digitChar (n % 10) := by
  have below : n % 10 < 10 := Nat.mod_lt n (by decide)
  have table : ∀ d < 10, Char.ofNat ('0'.toNat + d) = Nat.digitChar d := by decide
  exact table _ below

theorem writeNat_eq {fuel n : Nat} (enough : n < 10 ^ (fuel + 1)) (tail : List Char) :
    writeNat (fuel + 1) n tail = Nat.toDigits 10 n ++ tail := by
  induction fuel generalizing n tail with
  | zero =>
      have small : n < 10 := by simpa using enough
      rw [writeNat, if_pos small, Nat.toDigits_of_lt_base small, digitChar_eq,
        Nat.mod_eq_of_lt small, List.singleton_append]
  | succ fuel ih =>
      by_cases small : n < 10
      · rw [writeNat, if_pos small, Nat.toDigits_of_lt_base small, digitChar_eq,
          Nat.mod_eq_of_lt small, List.singleton_append]
      · have rest : n / 10 < 10 ^ (fuel + 1) := by
          rw [Nat.div_lt_iff_lt_mul (by decide), ← Nat.pow_succ]
          exact enough
        rw [writeNat, if_neg small, ih rest, digitChar_eq,
          Nat.toDigits_of_base_le (by decide) (Nat.le_of_not_lt small), List.append_assoc,
          List.singleton_append]

theorem natDigits_eq (n : Nat) : natDigits n = Nat.toDigits 10 n := by
  have enough : n < 10 ^ (n.log2 + 1) :=
    Nat.lt_log2_self.trans_le (Nat.pow_le_pow_left (by decide) _)
  rw [natDigits, writeNat_eq enough, List.append_nil]

theorem natDigits_injective : Function.Injective natDigits := by
  intro m n same
  rw [natDigits_eq, natDigits_eq] at same
  have read := congrArg (Nat.ofDigitChars 10 · 0) same
  simpa using read

theorem isDigit_of_mem_natDigits {n : Nat} {c : Char} (member : c ∈ natDigits n) :
    c.isDigit = true := by
  rw [natDigits_eq] at member
  exact Nat.isDigit_of_mem_toDigits (by decide) (by decide) member

theorem ascii_of_mem_natDigits {n : Nat} {c : Char} (member : c ∈ natDigits n) :
    c.toNat < 128 := by
  have digit := isDigit_of_mem_natDigits member
  simp only [Char.isDigit, Bool.and_eq_true, decide_eq_true_eq, UInt32.le_iff_toNat_le] at digit
  exact Nat.lt_of_le_of_lt digit.2 (by decide)

theorem not_isBlank_of_mem_natDigits {n : Nat} {c : Char} (member : c ∈ natDigits n) :
    ¬ Text.isBlank c = true := by
  have digit := isDigit_of_mem_natDigits member
  simp only [Char.isDigit, Bool.and_eq_true, decide_eq_true_eq, UInt32.le_iff_toNat_le] at digit
  have least : 48 ≤ c.toNat := digit.1
  have greatest : c.toNat ≤ 57 := digit.2
  simp only [Text.isBlank]
  grind

theorem toUpper_of_mem_natDigits {n : Nat} {c : Char} (member : c ∈ natDigits n) :
    c.toUpper = c := by
  have digit := isDigit_of_mem_natDigits member
  simp only [Char.isDigit, Bool.and_eq_true, decide_eq_true_eq, UInt32.le_iff_toNat_le] at digit
  refine dif_neg fun lower => ?_
  simp only [UInt32.le_iff_toNat_le] at lower
  exact absurd (Nat.le_trans lower.1 digit.2) (by decide)

theorem map_toLower_natDigits (n : Nat) : (natDigits n).map Char.toLower = natDigits n := by
  refine (List.map_congr_left fun c member => ?_).trans (List.map_id _)
  have digit := isDigit_of_mem_natDigits member
  simp only [Char.isDigit, Bool.and_eq_true, decide_eq_true_eq, UInt32.le_iff_toNat_le] at digit
  refine dif_neg fun upper => ?_
  simp only [ge_iff_le, UInt32.le_iff_toNat_le] at upper
  exact absurd (Nat.le_trans upper.1 digit.2) (by decide)

end Decimal

namespace Value

@[simp] theorem toList_intText (n : Nat) : (intText n).toList = Decimal.natDigits n := by
  simp [intText, Decimal.intDigits]

theorem intText_injective {m n : Nat} (same : intText m = intText n) : m = n := by
  have digits := congrArg String.toList same
  rw [toList_intText, toList_intText] at digits
  exact Decimal.natDigits_injective digits

end Value

end Schematic
