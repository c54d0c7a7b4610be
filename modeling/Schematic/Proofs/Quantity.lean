import Schematic.Quantity
import Schematic.Proofs.Number.Reading
/-!
A text that is no number is shown with the unit behind it. What is shown reads as no number either,
and is shown as it is when it is entered as the value.
-/

namespace Schematic

namespace Quantity

open Text

variable {c : Char} {cs : List Char} {s unit : String}

theorem forall_of_dropWhile_isDigit (rest : ∀ c ∈ cs.dropWhile isDigit, isBlank c = false) :
    ∀ c ∈ cs, isBlank c = false := by
  induction cs with
  | nil => exact rest
  | cons c cs ih =>
      cases digit : isDigit c with
      | true =>
          rw [List.dropWhile_cons_of_pos digit] at rest
          exact List.forall_mem_cons.2 ⟨not_blank_of_isDigit digit, ih rest⟩
      | false =>
          rw [List.dropWhile_cons_of_neg (Bool.eq_false_iff.1 digit)] at rest
          exact rest

theorem forall_of_isExponent (exponent : isExponent cs = true) : ∀ c ∈ cs, isBlank c = false := by
  cases cs with
  | nil => exact nofun
  | cons c cs =>
      simp only [isExponent, Bool.and_eq_true, Bool.or_eq_true, beq_iff_eq, List.all_eq_true]
        at exponent
      obtain ⟨⟨letter, _⟩, digits⟩ := exponent
      have tail := forall_of_sign fun d member => not_blank_of_isDigit (digits d member)
      refine List.forall_mem_cons.2 ⟨?_, tail⟩
      rcases letter with rfl | rfl <;> decide

theorem forall_of_isNumeral (numeral : isNumeral cs = true) : ∀ c ∈ cs, isBlank c = false := by
  apply forall_of_sign
  apply forall_of_dropWhile_isDigit
  simp only [isNumeral] at numeral
  split at numeral
  next c rest whole =>
    rw [Bool.and_eq_true] at numeral
    have tail := forall_of_dropWhile_isDigit (forall_of_isExponent numeral.2)
    rw [whole]
    exact List.forall_mem_cons.2
      ⟨by decide, List.forall_mem_cons.2 ⟨not_blank_of_isDigit numeral.1, tail⟩⟩
  next =>
    rw [Bool.and_eq_true] at numeral
    exact forall_of_isExponent numeral.2

theorem isNumeral_collapseChars (cs : List Char) : isNumeral (collapseChars cs) = isNumeral cs := by
  rw [Bool.eq_iff_iff]
  constructor
  · intro numeral
    rwa [collapseChars_of_forall (forall_collapseChars_iff.1 (forall_of_isNumeral numeral))]
      at numeral
  · intro numeral
    rwa [collapseChars_of_forall (forall_of_isNumeral numeral)]

theorem splitScale_concat (front : List Char) (c : Char) :
    splitScale (front ++ [c]) =
      match Scale.ofLetter? c with
      | some scale => (front.rdropWhile isBlank, scale)
      | none => (front ++ [c], .plain) := by
  rw [splitScale, List.reverse_append]
  rfl

theorem splitScale_collapseChars (cs : List Char) (solid : isBlank c = false) :
    splitScale (collapseChars (cs ++ [c])) =
      (collapseChars (splitScale (cs ++ [c])).1, (splitScale (cs ++ [c])).2) := by
  rw [collapseChars_append_cons solid, collapseChars, splitScale_concat, splitScale_concat]
  cases Scale.ofLetter? c with
  | some scale => rw [collapseChars_rdropWhile]
  | none => rw [collapseChars_append_cons solid, collapseChars]

theorem eq_empty_or_concat (trimmed : trim s = s) :
    s = "" ∨ ∃ cs c, isBlank c = false ∧ s = String.ofList (cs ++ [c]) := by
  have last := (trimWhere_eq_self_iff.1 (trim_eq_self_iff.1 trimmed)).2
  rcases List.eq_nil_or_concat s.toList with none | ⟨front, c, chars⟩
  · exact .inl (String.toList_eq_nil_iff.1 none)
  · rw [List.concat_eq_append] at chars
    refine .inr ⟨front, c, last c (by simp [chars]), ?_⟩
    rw [← chars, String.ofList_toList]

theorem scaled?_collapse (trimmed : trim s = s) : scaled? (collapse s) = scaled? s := by
  rcases eq_empty_or_concat trimmed with rfl | ⟨cs, c, solid, rfl⟩
  · rfl
  · simp only [scaled?, collapse, String.toList_ofList, splitScale_collapseChars cs solid,
      isNumeral_collapseChars]
    cases numeral : isNumeral (splitScale (cs ++ [c])).1 with
    | true => rw [collapseChars_of_forall (forall_of_isNumeral numeral)]
    | false => rw [if_neg Bool.false_ne_true, if_neg Bool.false_ne_true]

theorem finite?_of_broken (trimmed : trim s = s) (broken : ¬ IsUnbroken s) : finite? s = none := by
  rw [finite?, Option.filter_eq_none_iff]
  intro x read
  exact absurd (isUnbroken_of_number? trimmed read) broken

theorem finite?_collapse (trimmed : trim s = s) : finite? (collapse s) = finite? s := by
  by_cases unbroken : IsUnbroken s
  · rw [unbroken.collapse_eq]
  · have collapsed : trim (collapse s) = collapse s := by rw [trim_collapse, trimmed]
    rw [finite?_of_broken trimmed unbroken,
      finite?_of_broken collapsed (mt isUnbroken_collapse_iff.1 unbroken)]

def read? (s : String) : Option Binary64 :=
  scaled? s <|> finite? s

theorem read?_collapse (trimmed : trim s = s) : read? (collapse s) = read? s := by
  rw [read?, scaled?_collapse trimmed, finite?_collapse trimmed, read?]

theorem parse?_eq (unit s : String) : parse? unit s = read? (withoutUnit unit (trim s)) :=
  rfl

structure IsUnit (unit : String) : Prop where
  short : unit.length ≤ 1
  unbroken : IsUnbroken unit

theorem isUnit_unitOf (type : Value) : IsUnit (unitOf type) := by
  unfold unitOf
  cases Kind.ofValue? type with
  | none => exact ⟨by decide, by decide⟩
  | some kind => exact ⟨by cases kind <;> decide, by cases kind <;> decide⟩

theorem IsUnit.eq_empty_or_letter (isUnit : IsUnit unit) :
    unit = "" ∨ ∃ u, isBlank u = false ∧ unit = String.singleton u := by
  obtain ⟨short, unbroken⟩ := isUnit
  rw [← String.length_toList] at short
  cases chars : unit.toList with
  | nil => exact .inl (String.toList_eq_nil_iff.1 chars)
  | cons u us =>
      have alone : us = [] := by simpa [chars] using short
      refine .inr ⟨u, unbroken u (by simp [chars]), ?_⟩
      rw [← String.ofList_toList (s := unit), chars, alone]
      rfl

theorem sameLetter_self (c : Char) : sameLetter c c = true := by
  rw [sameLetter, beq_self_eq_true, Bool.true_or]

theorem dropUnit_concat (u : Char) (solid : isBlank c = false) (cs : List Char) :
    dropUnit [u] (cs ++ [c]) = if sameLetter u c then cs else cs ++ [c] := by
  induction cs with
  | nil =>
      simp only [List.nil_append, dropUnit, afterUnit?]
      cases sameLetter u c <;> rfl
  | cons d cs ih =>
      have tail : ∀ rest, afterUnit? [u] (d :: (cs ++ [c])) = some rest → rest = cs ++ [c] := by
        intro rest
        simp only [afterUnit?]
        split
        · exact fun same => (Option.some.inj same).symm
        · exact nofun
      rw [List.cons_append, dropUnit]
      split
      next none => exact absurd (tail _ none) (by simp)
      next newline =>
        -- The unit could only be in front of a newline that is the last character.
        have last := congrArg List.getLast? (tail _ newline)
        rw [List.getLast?_singleton, List.getLast?_concat] at last
        cases last
        exact absurd solid (by decide)
      next =>
        rw [ih]
        split <;> rfl

theorem withoutUnit_letter (u : Char) (solid : isBlank c = false) (cs : List Char) :
    withoutUnit (String.singleton u) (String.ofList (cs ++ [c])) =
      trim (String.ofList (if sameLetter u c then cs else cs ++ [c])) := by
  rw [withoutUnit, if_neg (by simp), String.toList_ofList, String.toList_singleton,
    dropUnit_concat u solid]

theorem withoutUnit_letter_self {u : Char} (solid : isBlank u = false) (cs : List Char) :
    withoutUnit (String.singleton u) (String.ofList (cs ++ [u])) = trim (String.ofList cs) := by
  rw [withoutUnit_letter u solid, sameLetter_self, if_pos rfl]

theorem withoutUnit_empty (unit : String) : withoutUnit unit "" = "" := by
  unfold withoutUnit
  split <;> rfl

theorem trim_withoutUnit (trimmed : trim s = s) :
    trim (withoutUnit unit s) = withoutUnit unit s := by
  unfold withoutUnit
  split
  · exact trimmed
  · exact trim_trim _

theorem withoutUnit_collapse (isUnit : IsUnit unit) (trimmed : trim s = s) :
    withoutUnit unit (collapse s) = collapse (withoutUnit unit s) := by
  rcases isUnit.eq_empty_or_letter with rfl | ⟨u, _, rfl⟩
  · rfl
  · rcases eq_empty_or_concat trimmed with rfl | ⟨cs, c, solid, rfl⟩
    · rw [withoutUnit_empty]
      exact withoutUnit_empty _
    · rw [withoutUnit_letter u solid, ← trim_collapse]
      have collapsed : collapse (String.ofList (cs ++ [c])) =
          String.ofList (collapseChars cs ++ [c]) := by
        rw [collapse, String.toList_ofList, collapseChars_append_cons solid, collapseChars]
      rw [collapsed, withoutUnit_letter u solid]
      split
      · rw [collapse, String.toList_ofList]
      · rw [collapsed]

def caption (text unit : String) : String :=
  if unit = "" then text else if text = "" then unit else text ++ " " ++ unit

theorem shown_of_parse?_eq_none (unread : parse? unit s = none) :
    shown unit s = caption (withoutUnit unit (collapse s)) unit := by
  rw [shown, unread]
  rfl

theorem isSpaced_caption (isUnit : IsUnit unit) (isSpaced : IsSpaced s) :
    IsSpaced (caption s unit) := by
  unfold caption
  split
  · exact isSpaced
  next someUnit =>
    split
    · exact isUnit.unbroken.isSpaced
    next someText => exact isSpaced.append_space isUnit.unbroken.isSpaced someText someUnit

theorem suffix_caption (text unit : String) : unit.toList <:+ (caption text unit).toList := by
  unfold caption
  split
  next none => rw [none]; exact List.nil_suffix
  next =>
    split
    · exact List.suffix_rfl
    · rw [String.toList_append]
      exact List.suffix_append _ _

theorem withoutUnit_caption (isUnit : IsUnit unit) (trimmed : trim s = s) :
    withoutUnit unit (caption s unit) = s := by
  rcases isUnit.eq_empty_or_letter with rfl | ⟨u, solid, rfl⟩
  · rfl
  · rw [caption, if_neg (by simp)]
    split
    next none =>
      rw [none]
      exact withoutUnit_letter_self solid []
    next =>
      have chars : s ++ " " ++ String.singleton u = String.ofList (s.toList ++ [' '] ++ [u]) := by
        rw [← String.toList_inj]
        simp
      rw [chars, withoutUnit_letter_self solid, trim, String.toList_ofList, trimChars,
        trimWhere_concat (by decide) (trim_eq_self_iff.1 trimmed), String.ofList_toList]

/-- A text that is no number is shown as a caption without outer or repeated blanks. -/
theorem exists_shown_eq_caption (isUnit : IsUnit unit) (trimmed : trim s = s)
    (unread : parse? unit s = none) :
    ∃ text, IsSpaced text ∧ read? text = none ∧ shown unit s = caption text unit := by
  have rest : trim (withoutUnit unit s) = withoutUnit unit s := trim_withoutUnit trimmed
  rw [parse?_eq, trimmed, ← read?_collapse rest] at unread
  refine ⟨_, isSpaced_collapse rest, unread, ?_⟩
  rw [← withoutUnit_collapse isUnit trimmed]
  apply shown_of_parse?_eq_none
  rw [parse?_eq, trimmed, ← read?_collapse rest, unread]

theorem parse?_caption (isUnit : IsUnit unit) (isSpaced : IsSpaced s) :
    parse? unit (caption s unit) = read? s := by
  rw [parse?_eq, (isSpaced_caption isUnit isSpaced).trimmed,
    withoutUnit_caption isUnit isSpaced.trimmed]

theorem shown_caption (isUnit : IsUnit unit) (isSpaced : IsSpaced s) (unread : read? s = none) :
    shown unit (caption s unit) = caption s unit := by
  rw [shown_of_parse?_eq_none ((parse?_caption isUnit isSpaced).trans unread),
    (isSpaced_caption isUnit isSpaced).collapse_eq, withoutUnit_caption isUnit isSpaced.trimmed]

example : shown "Ω" "about\t5  kΩ ω" = "about 5 kΩ Ω" := by decide +kernel

theorem ofValue?_text (given : s ≠ "") : ofValue? unit (.text s) = parse? unit s := by
  rw [ofValue?, Value.given_text, if_pos (by simpa using given), Value.shown_text]

theorem ofValue?_text_eq_none (unread : parse? unit s = none) :
    ofValue? unit (.text s) = none := by
  rw [ofValue?, Value.shown_text, unread, ite_self]

end Quantity

namespace Component

variable {c : Component} {s : String}

theorem unitOf_congr {other : Component} (same : other.kind? = c.kind?) :
    unitOf other.type = unitOf c.type := by
  rw [kind?, kind?] at same
  unfold unitOf
  rw [same]

theorem shownValue_text (kind : c.kind? ≠ some .switch) (text : c.value = .text s) :
    c.shownValue =
      .ok (if Text.trim s = "" then "" else Quantity.shown (unitOf c.type) (Text.trim s)) := by
  rw [shownValue, text]
  by_cases none : s = ""
  · rw [none]
    rfl
  · have given : (Value.text s).given = true := by simpa using none
    simp only [given, Bool.not_true, Bool.false_eq_true, if_false, Value.asText, if_neg kind,
      bind, Except.bind]
    split <;> rfl

theorem shownValue_eq_self (kind : c.kind? ≠ some .switch) (text : c.value = .text s)
    (trimmed : Text.trim s = s) (fixed : Quantity.shown (unitOf c.type) s = s) :
    c.shownValue = .ok s := by
  rw [shownValue_text kind text, trimmed, fixed]
  split
  next none => rw [none]
  next => rfl

/-- What is shown for a value that is no number has single spaces only, and ends with the unit of
its kind. Entered as the value of a component of that kind it is no number, and shown as it is. -/
theorem shownValue_stable (kind : c.kind? ≠ some .switch) (text : c.value = .text s)
    (given : Text.trim s ≠ "")
    (unread : Quantity.ofValue? (unitOf c.type) (.text (Text.trim s)) = none) :
    ∃ shown, c.shownValue = .ok shown ∧ Text.IsSpaced shown ∧
      (unitOf c.type).toList <:+ shown.toList ∧
      Quantity.ofValue? (unitOf c.type) (.text shown) = none ∧
      ∀ other : Component, other.kind? = c.kind? → other.value = .text shown →
        other.shownValue = .ok shown := by
  have isUnit := Quantity.isUnit_unitOf c.type
  rw [Quantity.ofValue?_text given] at unread
  obtain ⟨rest, isSpaced, noNumber, whole⟩ :=
    Quantity.exists_shown_eq_caption isUnit (Text.trim_trim s) unread
  have spaced := Quantity.isSpaced_caption isUnit isSpaced
  have again := (Quantity.parse?_caption isUnit isSpaced).trans noNumber
  refine ⟨_, (shownValue_text kind text).trans (congrArg _ (if_neg given)), ?_⟩
  rw [whole]
  refine ⟨spaced, Quantity.suffix_caption _ _, Quantity.ofValue?_text_eq_none again, ?_⟩
  intro other sameKind entered
  have noSwitch : other.kind? ≠ some .switch := fun isSwitch => kind (sameKind.symm.trans isSwitch)
  apply shownValue_eq_self noSwitch entered spaced.trimmed
  rw [unitOf_congr sameKind]
  exact Quantity.shown_caption isUnit isSpaced noNumber

def roughResistor : Component where
  id := .text "R1"
  type := .text "r"
  value := .text "  about\t5  kΩ ω "
  pins := []
  name := .null
  netColor := .null

theorem shownValue_stable_roughResistor :
    roughResistor.kind? ≠ some .switch ∧
      Quantity.ofValue? (unitOf roughResistor.type) (.text (Text.trim "  about\t5  kΩ ω ")) = none ∧
      ∃ shown, roughResistor.shownValue = .ok shown ∧ Text.IsSpaced shown ∧
        (unitOf roughResistor.type).toList <:+ shown.toList ∧
        Quantity.ofValue? (unitOf roughResistor.type) (.text shown) = none ∧
        ∀ other : Component, other.kind? = roughResistor.kind? → other.value = .text shown →
          other.shownValue = .ok shown := by
  have kind : roughResistor.kind? ≠ some .switch := by decide +kernel
  have unread : Quantity.ofValue? (unitOf roughResistor.type)
      (.text (Text.trim "  about\t5  kΩ ω ")) = none := by decide +kernel
  exact ⟨kind, unread, shownValue_stable kind rfl (by decide +kernel) unread⟩

end Component

end Schematic
