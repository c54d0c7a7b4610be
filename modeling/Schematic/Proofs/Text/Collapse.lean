import Schematic.Proofs.Text
import Schematic.Proofs.Text.Pieces
import Mathlib.Data.List.Chain
/-!
Collapsing blanks goes together with trimming, and gives texts with single spaces in them.
-/

namespace Schematic.Text

def blankCodes : List Nat :=
  [9, 10, 11, 12, 13, 28, 29, 30, 31, 32, 0x85, 0xa0, 0x1680, 0x2000, 0x2001, 0x2002, 0x2003,
    0x2004, 0x2005, 0x2006, 0x2007, 0x2008, 0x2009, 0x200a, 0x2028, 0x2029, 0x202f, 0x205f, 0x3000]

theorem mem_blankCodes {c : Char} (blank : isBlank c = true) : c.toNat ∈ blankCodes := by
  simp only [isBlank] at blank
  simp only [blankCodes, List.mem_cons, List.not_mem_nil, or_false]
  split at blank
  · simp only [Bool.or_eq_true, Bool.and_eq_true, decide_eq_true_eq] at blank
    omega
  · simp only [Bool.or_eq_true, Bool.and_eq_true, decide_eq_true_eq, beq_iff_eq] at blank
    omega

theorem not_blank_of (holds : Char → Prop) (each : ∀ n ∈ blankCodes, ¬ holds (Char.ofNat n))
    {c : Char} (here : holds c) : isBlank c = false := by
  rw [Bool.eq_false_iff]
  intro blank
  have excluded := each c.toNat (mem_blankCodes blank)
  rw [Char.ofNat_toNat] at excluded
  exact excluded here

def spaced : List Char → List Char
  | ' ' :: cs => ' ' :: cs
  | cs => ' ' :: cs

theorem spaced_of_ne {c : Char} (other : c ≠ ' ') (cs : List Char) :
    spaced (c :: cs) = ' ' :: c :: cs := by
  unfold spaced
  split
  next same => exact absurd (List.cons.inj same).1 other
  next => rfl

variable {c : Char}

theorem collapseChars_cons_of_blank (blank : isBlank c = true) (cs : List Char) :
    collapseChars (c :: cs) = spaced (collapseChars cs) := by
  rw [collapseChars, if_pos blank]
  rfl

theorem collapseChars_cons_of_not_blank (solid : isBlank c = false) (cs : List Char) :
    collapseChars (c :: cs) = c :: collapseChars cs := by
  rw [collapseChars, if_neg (Bool.eq_false_iff.1 solid)]

theorem ne_space_of_not_blank (solid : isBlank c = false) : c ≠ ' ' := by
  rintro rfl
  exact absurd solid (by decide)

theorem spaced_append_cons (other : c ≠ ' ') (cs ds : List Char) :
    spaced (cs ++ c :: ds) = spaced cs ++ c :: ds := by
  cases cs with
  | nil => exact spaced_of_ne other ds
  | cons d cs =>
      by_cases space : d = ' '
      · rw [space]; rfl
      · rw [List.cons_append, spaced_of_ne space, spaced_of_ne space]; rfl

/-- What is not blank divides a text into parts that collapse on their own. -/
theorem collapseChars_append_cons (solid : isBlank c = false) (cs ds : List Char) :
    collapseChars (cs ++ c :: ds) = collapseChars cs ++ c :: collapseChars ds := by
  induction cs with
  | nil => exact collapseChars_cons_of_not_blank solid ds
  | cons d cs ih =>
      rw [List.cons_append]
      cases first : isBlank d with
      | true =>
          rw [collapseChars_cons_of_blank first, collapseChars_cons_of_blank first, ih,
            spaced_append_cons (ne_space_of_not_blank solid)]
      | false =>
          rw [collapseChars_cons_of_not_blank first, collapseChars_cons_of_not_blank first, ih,
            List.cons_append]

theorem collapseChars_of_forall {cs : List Char} (solid : ∀ c ∈ cs, isBlank c = false) :
    collapseChars cs = cs := by
  induction cs with
  | nil => rfl
  | cons c cs ih =>
      obtain ⟨first, rest⟩ := List.forall_mem_cons.1 solid
      rw [collapseChars_cons_of_not_blank first, ih rest]

theorem forall_collapseChars_iff {cs : List Char} :
    (∀ c ∈ collapseChars cs, isBlank c = false) ↔ ∀ c ∈ cs, isBlank c = false := by
  induction cs with
  | nil => exact Iff.rfl
  | cons c cs ih =>
      cases first : isBlank c with
      | true =>
          rw [collapseChars_cons_of_blank first]
          refine iff_of_false (fun solid => ?_) fun solid => ?_
          · have space : ' ' ∈ spaced (collapseChars cs) := by
              unfold spaced
              split <;> exact List.mem_cons_self
            exact absurd (solid _ space) (by decide)
          · rw [solid c List.mem_cons_self] at first
            cases first
      | false =>
          rw [collapseChars_cons_of_not_blank first, List.forall_mem_cons, List.forall_mem_cons, ih]

theorem dropWhile_spaced (cs : List Char) :
    (spaced cs).dropWhile isBlank = cs.dropWhile isBlank := by
  unfold spaced
  split
  · rfl
  · exact List.dropWhile_cons_of_pos (by decide)

theorem collapseChars_dropWhile (cs : List Char) :
    collapseChars (cs.dropWhile isBlank) = (collapseChars cs).dropWhile isBlank := by
  induction cs with
  | nil => rfl
  | cons c cs ih =>
      cases first : isBlank c with
      | true =>
          rw [List.dropWhile_cons_of_pos first, collapseChars_cons_of_blank first,
            dropWhile_spaced, ih]
      | false =>
          rw [List.dropWhile_cons_of_neg (Bool.eq_false_iff.1 first),
            collapseChars_cons_of_not_blank first,
            List.dropWhile_cons_of_neg (Bool.eq_false_iff.1 first)]

theorem collapseChars_concat_of_blank (blank : isBlank c = true) (cs : List Char) :
    collapseChars (cs ++ [c]) = collapseChars cs ∨
      collapseChars (cs ++ [c]) = collapseChars cs ++ [' '] := by
  induction cs with
  | nil => exact .inr (collapseChars_cons_of_blank blank [])
  | cons d cs ih =>
      rw [List.cons_append]
      cases first : isBlank d with
      | false =>
          rw [collapseChars_cons_of_not_blank first, collapseChars_cons_of_not_blank first,
            List.cons_append]
          exact ih.imp (congrArg _) (congrArg _)
      | true =>
          rw [collapseChars_cons_of_blank first, collapseChars_cons_of_blank first]
          rcases ih with same | longer
          · exact .inl (congrArg spaced same)
          · rw [longer]
            cases collapsed : collapseChars cs with
            | nil => exact .inl rfl
            | cons e es =>
                by_cases space : e = ' '
                · rw [space]; exact .inr rfl
                · rw [List.cons_append, spaced_of_ne space, spaced_of_ne space]; exact .inr rfl

theorem collapseChars_rdropWhile (cs : List Char) :
    collapseChars (cs.rdropWhile isBlank) = (collapseChars cs).rdropWhile isBlank := by
  induction cs using List.reverseRecOn with
  | nil => rfl
  | append_singleton cs c ih =>
      cases last : isBlank c with
      | true =>
          rw [List.rdropWhile_concat_pos _ _ _ last, ih]
          rcases collapseChars_concat_of_blank last cs with same | longer
          · rw [same]
          · rw [longer, List.rdropWhile_concat_pos _ _ _ (by decide)]
      | false =>
          have solid := Bool.eq_false_iff.1 last
          rw [List.rdropWhile_concat_neg _ _ _ solid, collapseChars_append_cons last]
          exact (List.rdropWhile_concat_neg _ _ _ solid).symm

theorem trim_collapse (s : String) : trim (collapse s) = collapse (trim s) := by
  rw [trim, collapse, collapse, trim, String.toList_ofList, String.toList_ofList, trimChars,
    trimChars, trimWhere_eq_rdropWhile, trimWhere_eq_rdropWhile, collapseChars_rdropWhile,
    collapseChars_dropWhile]

/-- Whether a text has no blanks around it and none but single spaces in it. -/
structure IsSpaced (s : String) : Prop where
  trimmed : trim s = s
  single : s.toList.IsChain fun a b => ¬ (isBlank a = true ∧ isBlank b = true)
  spaces : ∀ c ∈ s.toList, isBlank c = true → c = ' '

theorem eq_space_of_mem_collapseChars {cs : List Char} (member : c ∈ collapseChars cs)
    (blank : isBlank c = true) : c = ' ' := by
  induction cs with
  | nil => cases member
  | cons d cs ih =>
      cases first : isBlank d with
      | true =>
          rw [collapseChars_cons_of_blank first] at member
          unfold spaced at member
          split at member
          next collapsed =>
            rcases List.mem_cons.1 member with rfl | later
            · rfl
            · exact ih (collapsed ▸ List.mem_cons_of_mem _ later)
          next =>
            rcases List.mem_cons.1 member with rfl | later
            · rfl
            · exact ih later
      | false =>
          rw [collapseChars_cons_of_not_blank first] at member
          rcases List.mem_cons.1 member with rfl | later
          · rw [first] at blank
            cases blank
          · exact ih later

theorem isChain_collapseChars (cs : List Char) :
    (collapseChars cs).IsChain fun a b => ¬ (isBlank a = true ∧ isBlank b = true) := by
  induction cs with
  | nil => exact .nil
  | cons c cs ih =>
      cases first : isBlank c with
      | true =>
          rw [collapseChars_cons_of_blank first]
          unfold spaced
          split
          next collapsed => exact collapsed ▸ ih
          next other =>
            refine List.isChain_cons.2 ⟨fun d head both => ?_, ih⟩
            have member := List.mem_of_mem_head? head
            obtain rfl := eq_space_of_mem_collapseChars member both.2
            obtain ⟨rest, whole⟩ := List.head?_eq_some_iff.1 head
            exact other rest whole
      | false =>
          rw [collapseChars_cons_of_not_blank first]
          refine List.isChain_cons.2 ⟨fun d _ both => ?_, ih⟩
          rw [first] at both
          cases both.1

theorem isSpaced_collapse {s : String} (trimmed : trim s = s) : IsSpaced (collapse s) where
  trimmed := by rw [trim_collapse, trimmed]
  single := by
    rw [collapse, String.toList_ofList]
    exact isChain_collapseChars s.toList
  spaces := by
    intro c member
    rw [collapse, String.toList_ofList] at member
    exact eq_space_of_mem_collapseChars member

theorem collapseChars_eq_self {cs : List Char}
    (single : cs.IsChain fun a b => ¬ (isBlank a = true ∧ isBlank b = true))
    (spaces : ∀ c ∈ cs, isBlank c = true → c = ' ') : collapseChars cs = cs := by
  induction cs with
  | nil => rfl
  | cons c cs ih =>
      obtain ⟨apart, rest⟩ := List.isChain_cons.1 single
      have here := ih rest fun d member => spaces d (List.mem_cons_of_mem c member)
      cases first : isBlank c with
      | true =>
          obtain rfl := spaces c List.mem_cons_self first
          rw [collapseChars_cons_of_blank first, here]
          cases cs with
          | nil => rfl
          | cons d cs =>
              refine spaced_of_ne (fun space => apart d rfl ⟨first, ?_⟩) cs
              rw [space]
              exact first
      | false => rw [collapseChars_cons_of_not_blank first, here]

theorem IsSpaced.append_space {s t : String} (front : IsSpaced s) (back : IsSpaced t)
    (someFront : s ≠ "") (someBack : t ≠ "") : IsSpaced (s ++ " " ++ t) := by
  have chars : (s ++ " " ++ t).toList = s.toList ++ ([' '] ++ t.toList) := by
    rw [String.toList_append, String.toList_append, List.append_assoc]
    rfl
  have frontTrimmed := trim_eq_self_iff.1 front.trimmed
  have backTrimmed := trim_eq_self_iff.1 back.trimmed
  have last := (trimWhere_eq_self_iff.1 frontTrimmed).2
  have first := (trimWhere_eq_self_iff.1 backTrimmed).1
  constructor
  · rw [trim_eq_self_iff, chars]
    exact trimWhere_append frontTrimmed backTrimmed (by simpa using someFront)
      (by simpa using someBack) [' ']
  · rw [chars]
    refine List.isChain_append.2 ⟨front.single, List.isChain_cons.2 ⟨?_, back.single⟩, ?_⟩
    · intro c head both
      rw [first c head] at both
      cases both.2
    · intro c ends d head both
      rw [last c ends] at both
      cases both.1
  · intro c member blank
    rw [chars, List.mem_append, List.mem_append, List.mem_singleton] at member
    rcases member with inFront | space | inBack
    · exact front.spaces c inFront blank
    · exact space
    · exact back.spaces c inBack blank

theorem IsSpaced.collapse_eq {s : String} (isSpaced : IsSpaced s) : collapse s = s := by
  rw [collapse, collapseChars_eq_self isSpaced.single isSpaced.spaces, String.ofList_toList]

theorem IsUnbroken.not_mem {s : String} (unbroken : IsUnbroken s) {c : Char}
    (blank : isBlank c = true) : c ∉ s.toList := by
  intro member
  rw [unbroken c member] at blank
  cases blank

theorem IsUnbroken.trim_eq {s : String} (unbroken : IsUnbroken s) : trim s = s :=
  trim_eq_self_iff.2 (trimWhere_of_forall fun c member => by simp [unbroken c member])

theorem IsUnbroken.collapse_eq {s : String} (unbroken : IsUnbroken s) : collapse s = s := by
  rw [collapse, collapseChars_of_forall unbroken, String.ofList_toList]

theorem IsUnbroken.isSpaced {s : String} (unbroken : IsUnbroken s) : IsSpaced s := by
  have collapsed := isSpaced_collapse unbroken.trim_eq
  rwa [unbroken.collapse_eq] at collapsed

theorem isUnbroken_collapse_iff {s : String} : IsUnbroken (collapse s) ↔ IsUnbroken s := by
  rw [IsUnbroken, collapse, String.toList_ofList, forall_collapseChars_iff, IsUnbroken]

end Schematic.Text
