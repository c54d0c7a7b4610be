import Schematic.Proofs.Json
/-!
A text that is written for JSON is read as it was: every character, whether it stands for itself or
is written by number, as one code unit or as two.
-/

namespace Schematic.Json

theorem hex?_hexDigit {d : Nat} (small : d < 16) : hex? (Text.hexDigit d) = some d := by
  have all : ∀ d < 16, hex? (Text.hexDigit d) = some d := by decide +kernel
  exact all d small

theorem hexDigits_four (n : Nat) : Text.hexDigits 4 n [] =
    [Text.hexDigit (n / 4096 % 16), Text.hexDigit (n / 256 % 16), Text.hexDigit (n / 16 % 16),
      Text.hexDigit (n % 16)] := by
  simp [Text.hexDigits, Nat.div_div_eq_div_mul]

theorem unit?_hexDigits {n : Nat} (small : n < 0x10000) (rest : List Char) :
    unit? (Text.hexDigits 4 n [] ++ rest) = some (n, rest) := by
  rw [hexDigits_four]
  have digit : ∀ m, hex? (Text.hexDigit (m % 16)) = some (m % 16) :=
    fun m => hex?_hexDigit (Nat.mod_lt m (by decide))
  simp only [List.cons_append, List.nil_append, unit?, digit, Option.bind_eq_bind,
    Option.bind_some, Option.pure_def, Option.some.injEq, Prod.mk.injEq, and_true]
  omega

theorem length_hexDigits (n : Nat) : (Text.hexDigits 4 n []).length = 4 := by
  rw [hexDigits_four]
  rfl

section

variable {opening done cs rest : List Char} {fuel : Nat}

theorem unitEscape_append (n : Nat) (cs : List Char) :
    unitEscape n ++ cs = '\\' :: 'u' :: (Text.hexDigits 4 n [] ++ cs) :=
  rfl

theorem joinUnits_of_alone {n : Nat} (alone : Text.isHighSurrogate n = true → lowUnit? rest = none) :
    joinUnits n rest = (Text.ofCodePoint n, rest) := by
  have none : (if Text.isHighSurrogate n then lowUnit? rest else none) = none := by
    split
    next high => exact alone high
    next => rfl
  rw [joinUnits, none]

theorem lowUnit?_unitEscape {n : Nat} (small : n < 0x10000) (more : rest ≠ []) :
    lowUnit? (unitEscape n ++ rest) = if Text.isLowSurrogate n then some (n, rest) else none := by
  rw [unitEscape_append]
  change (unit? _).filter _ = _
  rw [unit?_hexDigits small, Option.filter_some]
  simp [more]

theorem joinUnits_unitEscape {high low : Nat} (isHigh : high < 0x400) (isLow : low < 0x400)
    (more : rest ≠ []) :
    joinUnits (0xD800 + high) (unitEscape (0xDC00 + low) ++ rest) =
      (Char.ofNat (0x10000 + high * 0x400 + low), rest) := by
  have inHigh : Text.isHighSurrogate (0xD800 + high) = true := by
    simp only [Text.isHighSurrogate, Bool.and_eq_true, decide_eq_true_iff]
    omega
  have inLow : Text.isLowSurrogate (0xDC00 + low) = true := by
    simp only [Text.isLowSurrogate, Bool.and_eq_true, decide_eq_true_iff]
    omega
  unfold joinUnits
  rw [if_pos inHigh, lowUnit?_unitEscape (by omega) more, if_pos inLow]
  simp only [Nat.add_sub_cancel_left]

theorem readText_unitEscape {n : Nat} (small : n < 0x10000) (more : cs ≠ []) :
    readText opening (fuel + 1) done (unitEscape n ++ cs) =
      readText opening fuel ((joinUnits n cs).1 :: done) (joinUnits n cs).2 := by
  have long : ¬ (Text.hexDigits 4 n [] ++ cs).length ≤ 4 := by
    rw [List.length_append, length_hexDigits]
    have := List.length_pos_iff.2 more
    omega
  rw [unitEscape_append, readText.eq_def]
  dsimp only
  rw [if_neg (by decide), if_pos rfl]
  simp only [long, if_false, unit?_hexDigits small]

theorem readText_unitEscape_codePoint {c : Char} (small : Text.codePoint c < 0x10000)
    (more : cs ≠ [])
    (alone : Text.isHighSurrogate (Text.codePoint c) = true → lowUnit? cs = none) :
    readText opening (fuel + 1) done (unitEscape (Text.codePoint c) ++ cs) =
      readText opening fuel (c :: done) cs := by
  rw [readText_unitEscape small more, joinUnits_of_alone alone, Text.ofCodePoint_codePoint]

theorem readText_pair {c : Char} (large : ¬ Text.codePoint c < 0x10000) (more : cs ≠ []) :
    readText opening (fuel + 1) done
        (unitEscape (0xD800 + (Text.codePoint c - 0x10000) / 0x400) ++
          unitEscape (0xDC00 + (Text.codePoint c - 0x10000) % 0x400) ++ cs) =
      readText opening fuel (c :: done) cs := by
  have same : Text.codePoint c = c.toNat := (Text.codePoint_cases c).resolve_right (by omega)
  rw [same] at large ⊢
  have valid : c.toNat < 0xD800 ∨ 0xDFFF < c.toNat ∧ c.toNat < 0x110000 := c.valid
  have high : (c.toNat - 0x10000) / 0x400 < 0x400 := by omega
  have low : (c.toNat - 0x10000) % 0x400 < 0x400 := Nat.mod_lt _ (by decide)
  have whole : 0x10000 + (c.toNat - 0x10000) / 0x400 * 0x400 + (c.toNat - 0x10000) % 0x400 =
      c.toNat := by omega
  rw [List.append_assoc, readText_unitEscape (by omega) (by simp [unitEscape]),
    joinUnits_unitEscape high low more, whole, Char.ofNat_toNat]

theorem readText_plain {c : Char} (noQuote : c ≠ '"') (noEscape : c ≠ '\\')
    (printed : 32 ≤ c.toNat) :
    readText opening (fuel + 1) done (c :: cs) = readText opening fuel (c :: done) cs := by
  rw [readText.eq_def]
  dsimp only
  rw [if_neg noQuote, if_neg noEscape, if_neg (Nat.not_lt.2 printed)]

/-- A written character is read in one step, however many characters it is written as, unless it is
one half of a pair and the other half follows. -/
theorem readText_escapedChar (c : Char) (more : cs ≠ [])
    (alone : Text.isHighSurrogate (Text.codePoint c) = true → lowUnit? cs = none) :
    readText opening (fuel + 1) done (escapedChar c ++ cs) =
      readText opening fuel (c :: done) cs := by
  unfold escapedChar
  split
  case h_1 | h_2 | h_3 | h_4 | h_5 | h_6 | h_7 => rfl
  case h_8 noQuote noEscape _ _ _ _ _ =>
    dsimp only
    split
    next printed =>
      have range := Bool.and_eq_true_iff.1 printed
      have least : 32 ≤ Text.codePoint c := of_decide_eq_true range.1
      have most : Text.codePoint c < 127 := of_decide_eq_true range.2
      have same : Text.codePoint c = c.toNat := (Text.codePoint_cases c).resolve_right (by omega)
      exact readText_plain noQuote noEscape (same ▸ least)
    next =>
      split
      next small => exact readText_unitEscape_codePoint small more alone
      next large => exact readText_pair large more

theorem lowUnit?_escapedChar {c : Char}
    (other : Text.isLowSurrogate (Text.codePoint c) = false) (more : cs ≠ []) :
    lowUnit? (escapedChar c ++ cs) = none := by
  unfold escapedChar
  split
  case h_1 | h_2 | h_3 | h_4 | h_5 | h_6 | h_7 => rfl
  case h_8 noEscape _ _ _ _ _ =>
    dsimp only
    split
    next =>
      change lowUnit? (c :: cs) = none
      unfold lowUnit?
      split
      next same => exact absurd (List.cons.inj same).1 noEscape
      next => rfl
    next =>
      split
      next small => rw [lowUnit?_unitEscape small more, other]; rfl
      next large =>
        have same : Text.codePoint c = c.toNat :=
          (Text.codePoint_cases c).resolve_right (by omega)
        have valid : c.toNat < 0xD800 ∨ 0xDFFF < c.toNat ∧ c.toNat < 0x110000 := c.valid
        have high : Text.isLowSurrogate (0xD800 + (Text.codePoint c - 0x10000) / 0x400) = false := by
          simp only [Text.isLowSurrogate, Bool.and_eq_false_iff, decide_eq_false_iff_not]
          omega
        rw [List.append_assoc, lowUnit?_unitEscape (by omega) (by simp [unitEscape]), high]
        rfl

/-- Whether no two surrogates of a text make up a pair. -/
def IsJoined (s : List Char) : Prop :=
  s.IsChain fun c d => ¬ (Text.isHighSurrogate (Text.codePoint c) = true ∧
    Text.isLowSurrogate (Text.codePoint d) = true)

instance (s : List Char) : Decidable (IsJoined s) :=
  inferInstanceAs (Decidable (List.IsChain _ s))

theorem readText_flatMap {s : List Char} (joined : IsJoined s) (enough : s.length < fuel) :
    readText opening fuel done (s.flatMap escapedChar ++ '"' :: rest) =
      .ok (String.ofList (done.reverse ++ s), rest) := by
  induction s generalizing fuel done with
  | nil =>
      obtain ⟨fuel, rfl⟩ := Nat.exists_eq_add_one_of_ne_zero (Nat.ne_of_gt enough)
      rw [List.append_nil]
      rfl
  | cons c s ih =>
      obtain ⟨fuel, rfl⟩ := Nat.exists_eq_add_one_of_ne_zero (Nat.ne_zero_of_lt enough)
      have alone : Text.isHighSurrogate (Text.codePoint c) = true →
          lowUnit? (s.flatMap escapedChar ++ '"' :: rest) = none := by
        intro high
        cases s with
        | nil => rfl
        | cons d s =>
            have other : Text.isLowSurrogate (Text.codePoint d) = false :=
              Bool.eq_false_iff.2 fun low => (List.isChain_cons_cons.1 joined).1 ⟨high, low⟩
            rw [List.flatMap_cons, List.append_assoc]
            exact lowUnit?_escapedChar other (by simp)
      rw [List.flatMap_cons, List.append_assoc, readText_escapedChar c (by simp) alone,
        ih (List.IsChain.tail joined) (Nat.lt_of_succ_lt_succ enough), List.reverse_cons,
        List.append_assoc]
      rfl

end

theorem escapedChar_ne_nil (c : Char) : escapedChar c ≠ [] := by
  unfold escapedChar
  split
  case h_1 | h_2 | h_3 | h_4 | h_5 | h_6 | h_7 => exact List.cons_ne_nil _ _
  case h_8 =>
    dsimp only
    split
    next => exact List.cons_ne_nil _ _
    next => split <;> exact List.cons_ne_nil _ _

theorem length_le_length_flatMap (s : List Char) : s.length ≤ (s.flatMap escapedChar).length := by
  induction s with
  | nil => exact Nat.le_refl 0
  | cons c s ih =>
      have := List.length_pos_iff.2 (escapedChar_ne_nil c)
      rw [List.flatMap_cons, List.length_append, List.length_cons]
      omega

theorem ne_return_of_mem_unitEscape {n : Nat} {d : Char} (member : d ∈ unitEscape n) :
    d ≠ '\r' := by
  have digits : ∀ m, Text.hexDigit (m % 16) ≠ '\r' := by
    intro m
    have all : ∀ m < 16, Text.hexDigit m ≠ '\r' := by decide +kernel
    exact all _ (Nat.mod_lt m (by decide))
  rw [unitEscape, hexDigits_four] at member
  simp only [List.mem_cons, List.not_mem_nil, or_false] at member
  rcases member with rfl | rfl | rfl | rfl | rfl | rfl
  · decide
  · decide
  all_goals exact digits _

theorem ne_return_of_mem_escapedChar {c d : Char} (member : d ∈ escapedChar c) : d ≠ '\r' := by
  unfold escapedChar at member
  split at member
  case h_1 | h_2 | h_3 | h_4 | h_5 | h_6 | h_7 =>
    simp only [List.mem_cons, List.not_mem_nil, or_false] at member
    rcases member with rfl | rfl <;> decide
  case h_8 noReturn _ _ _ =>
    dsimp only at member
    split at member
    next =>
      obtain rfl := List.mem_singleton.1 member
      exact noReturn
    next =>
      split at member
      next => exact ne_return_of_mem_unitEscape member
      next =>
        rcases List.mem_append.1 member with high | low
        · exact ne_return_of_mem_unitEscape high
        · exact ne_return_of_mem_unitEscape low

theorem return_not_mem_textChars (s : String) : '\r' ∉ textChars s := by
  intro member
  rw [textChars, List.mem_cons, List.mem_append, List.mem_flatMap, List.mem_singleton] at member
  rcases member with quote | ⟨c, _, member⟩ | quote
  · cases quote
  · exact ne_return_of_mem_escapedChar member rfl
  · cases quote

theorem readText_textChars {s : String} (joined : IsJoined s.toList) (opening rest : List Char) :
    readText opening ((s.toList.flatMap escapedChar ++ '"' :: rest).length + 1) []
      (s.toList.flatMap escapedChar ++ '"' :: rest) = .ok (s, rest) := by
  have := length_le_length_flatMap s.toList
  rw [readText_flatMap joined (by rw [List.length_append]; omega), List.reverse_nil, List.nil_append,
    String.ofList_toList]

end Schematic.Json
