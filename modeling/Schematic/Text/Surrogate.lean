/-!
Surrogates. Pairs of them write characters; one by itself is none, yet a text that is read may hold
it. A character of the range U+DF800 to U+DFFFF, in which none is assigned, stands for it here.
-/

namespace Schematic.Text

def isHighSurrogate (n : Nat) : Bool := 0xD800 ≤ n && n ≤ 0xDBFF

def isLowSurrogate (n : Nat) : Bool := 0xDC00 ≤ n && n ≤ 0xDFFF

def isSurrogate (n : Nat) : Bool := isHighSurrogate n || isLowSurrogate n

/-- How far behind the surrogates the characters lie that stand for them. -/
def surrogateShift : Nat := 0xD2000

def ofCodePoint (n : Nat) : Char :=
  Char.ofNat (if isSurrogate n then n + surrogateShift else n)

def standsForSurrogate (c : Char) : Bool :=
  isSurrogate (c.toNat - surrogateShift)

def codePoint (c : Char) : Nat :=
  if standsForSurrogate c then c.toNat - surrogateShift else c.toNat

section

variable {c : Char}

theorem isSurrogate_iff {n : Nat} : isSurrogate n = true ↔ 0xD800 ≤ n ∧ n ≤ 0xDFFF := by
  simp only [isSurrogate, isHighSurrogate, isLowSurrogate, Bool.or_eq_true, Bool.and_eq_true,
    decide_eq_true_iff]
  omega

theorem codePoint_of_stands (stands : standsForSurrogate c = true) :
    codePoint c + surrogateShift = c.toNat ∧ isSurrogate (codePoint c) = true := by
  have range := isSurrogate_iff.1 stands
  rw [codePoint, if_pos stands]
  exact ⟨by omega, stands⟩

theorem codePoint_of_not_stands (plain : standsForSurrogate c = false) :
    codePoint c = c.toNat := by
  rw [codePoint, plain]
  rfl

theorem ofCodePoint_codePoint (c : Char) : ofCodePoint (codePoint c) = c := by
  cases stands : standsForSurrogate c with
  | true =>
      obtain ⟨shifted, surrogate⟩ := codePoint_of_stands stands
      rw [ofCodePoint, if_pos surrogate, shifted, Char.ofNat_toNat]
  | false =>
      have valid : c.toNat < 0xD800 ∨ 0xDFFF < c.toNat ∧ c.toNat < 0x110000 := c.valid
      have single : ¬ isSurrogate c.toNat = true := by
        rw [isSurrogate_iff]
        omega
      rw [codePoint_of_not_stands stands, ofCodePoint, if_neg single, Char.ofNat_toNat]

theorem codePoint_cases (c : Char) :
    codePoint c = c.toNat ∨ 0xD800 ≤ codePoint c ∧ codePoint c ≤ 0xDFFF := by
  cases stands : standsForSurrogate c with
  | true => exact .inr (isSurrogate_iff.1 (codePoint_of_stands stands).2)
  | false => exact .inl (codePoint_of_not_stands stands)

end

/-- Whether a text has a form in bytes: surrogates have none. -/
def isEncodable (s : String) : Bool :=
  s.toList.all (!standsForSurrogate ·)

end Schematic.Text
