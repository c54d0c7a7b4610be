import Schematic.Proofs.Netlist.Shares
import Schematic.Proofs.Text
import Mathlib.Data.List.Forall2
import Mathlib.Data.List.Nodup
import Mathlib.Data.List.Perm.Subperm
/-!
The identifiers handed out for elements: no two alike, and each begins with what was asked for.
-/

namespace Schematic

@[simp] theorem trim_identifier (v : Value) : Text.trim (identifier v) = identifier v :=
  Text.trim_trim _

namespace Allocator

theorem toList_suffix (k : Nat) : ("_" ++ Value.intText k).toList = '_' :: Decimal.natDigits k := by
  rw [String.toList_append, Value.toList_intText]
  rfl

theorem mem_suffix {k : Nat} {c : Char} (member : c ∈ ("_" ++ Value.intText k).toList) :
    c.toNat < 128 ∧ c.toUpper = c ∧ ¬ Text.isBlank c = true := by
  rw [toList_suffix] at member
  rcases List.mem_cons.1 member with rfl | digit
  · decide
  · refine ⟨Decimal.ascii_of_mem_natDigits digit, Decimal.toUpper_of_mem_natDigits digit, ?_⟩
    exact Decimal.not_isBlank_of_mem_natDigits digit

/-- A text to which a suffix can be put: it is not blank and has no blanks around it. -/
structure IsStem (base : String) : Prop where
  trimmed : Text.trim base = base
  given : base ≠ ""

variable {base : String}

theorem IsStem.suffixed (stem : IsStem base) (k : Nat) : IsStem (suffixed base k) := by
  have whole : Allocator.suffixed base k = base ++ ("_" ++ Value.intText k) := String.append_assoc
  have some : "_" ++ Value.intText k ≠ "" := by
    intro none
    have chars := congrArg String.toList none
    rw [toList_suffix] at chars
    cases chars
  have trimmed : Text.trim ("_" ++ Value.intText k) = "_" ++ Value.intText k :=
    Text.trim_eq_self_iff.2 (Text.trimWhere_of_forall fun c member => (mem_suffix member).2.2)
  rw [whole]
  exact ⟨Text.trim_append stem.trimmed trimmed stem.given some, fun none =>
    stem.given (String.append_eq_empty_iff.1 none).1⟩

theorem IsStem.toList_key (stem : IsStem base) :
    (identifierKey base).toList = Text.upperChars base.toList := by
  rw [identifierKey, stem.trimmed, Text.upper, String.toList_ofList]

theorem IsStem.toList_key_suffixed (stem : IsStem base) (k : Nat) :
    (identifierKey (Allocator.suffixed base k)).toList =
      Text.upperChars base.toList ++ '_' :: Decimal.natDigits k := by
  rw [(stem.suffixed k).toList_key, Allocator.suffixed, String.append_assoc, String.toList_append,
    Text.upperChars_append, ← toList_suffix]
  congr 1
  exact Text.upperChars_of_not_lower fun c member =>
    ⟨(mem_suffix member).1, (mem_suffix member).2.1⟩

theorem IsStem.key_suffixed_injective (stem : IsStem base) :
    Function.Injective fun k => identifierKey (Allocator.suffixed base k) := by
  intro j k same
  have chars := congrArg String.toList same
  simp only [stem.toList_key_suffixed] at chars
  exact Decimal.natDigits_injective (List.cons.inj (List.append_cancel_left chars)).2

theorem freeSuffix_free_or_used (used : List String) (base : String) (fuel k : Nat) :
    identifierKey (suffixed base (freeSuffix used base fuel k)) ∉ used ∨
      ∀ i < fuel, identifierKey (suffixed base (k + i)) ∈ used := by
  induction fuel generalizing k with
  | zero => exact .inr fun i below => absurd below (Nat.not_lt_zero i)
  | succ fuel ih =>
      rw [freeSuffix]
      split
      next taken =>
        refine (ih (k + 1)).imp_right fun later i below => ?_
        cases i with
        | zero => exact taken
        | succ i =>
            have here := later i (Nat.lt_of_succ_lt_succ below)
            rwa [Nat.add_right_comm] at here
      next free => exact .inl free

theorem IsStem.key_freeSuffix_not_mem (stem : IsStem base) {used : List String} {fuel : Nat}
    (enough : used.length < fuel) (k : Nat) :
    identifierKey (Allocator.suffixed base (freeSuffix used base fuel k)) ∉ used := by
  refine (freeSuffix_free_or_used used base fuel k).resolve_right fun all => ?_
  have injective : Function.Injective fun i => identifierKey (Allocator.suffixed base (k + i)) :=
    fun i j same => Nat.add_left_cancel (stem.key_suffixed_injective same)
  have tried : (List.range fuel).map
      (fun i => identifierKey (Allocator.suffixed base (k + i))) ⊆ used := by
    intro key member
    obtain ⟨i, inRange, rfl⟩ := List.mem_map.1 member
    exact all i (List.mem_range.1 inRange)
  have count := (List.subperm_of_subset (List.Nodup.map injective List.nodup_range) tried).length_le
  rw [List.length_map, List.length_range] at count
  exact absurd enough (Nat.not_lt.2 count)

/-- An identifier that is handed out when one is asked for. -/
structure Answers (wanted : Value) (id : String) : Prop where
  stem : IsStem id
  begins : identifier wanted ≠ "" → (identifier wanted).toList <+: id.toList

theorem allocate_fresh (a : Allocator) (wanted : Value) :
    Answers wanted (a.allocate wanted).1 ∧ identifierKey (a.allocate wanted).1 ∉ a.used ∧
      (a.allocate wanted).2.used = identifierKey (a.allocate wanted).1 :: a.used := by
  have stem : IsStem (if identifier wanted = "" then "X" else identifier wanted) := by
    split
    next => exact ⟨by decide, by decide⟩
    next given => exact ⟨trim_identifier wanted, given⟩
  have begins : identifier wanted ≠ "" →
      (if identifier wanted = "" then "X" else identifier wanted) = identifier wanted :=
    fun given => if_neg given
  unfold allocate
  generalize (if identifier wanted = "" then "X" else identifier wanted) = base at stem begins
  dsimp only
  split
  next taken =>
    refine ⟨⟨stem.suffixed _, fun given => ?_⟩,
      stem.key_freeSuffix_not_mem (Nat.lt_succ_self _) _, rfl⟩
    rw [← begins given, suffixed, String.append_assoc, String.toList_append]
    exact List.prefix_append _ _
  next free =>
    exact ⟨⟨stem, fun given => begins given ▸ List.prefix_rfl⟩, free, rfl⟩

theorem used_allocateAll (a : Allocator) (vs : List Value) :
    (a.allocateAll vs).2.used = ((a.allocateAll vs).1.map identifierKey).reverse ++ a.used := by
  induction vs generalizing a with
  | nil => rfl
  | cons v vs ih =>
      obtain ⟨_, _, used⟩ := a.allocate_fresh v
      change ((a.allocate v).2.allocateAll vs).2.used = (List.map identifierKey
        ((a.allocate v).1 :: ((a.allocate v).2.allocateAll vs).1)).reverse ++ a.used
      rw [ih, used, List.map_cons, List.reverse_cons, List.append_assoc]
      rfl

theorem nodup_used_allocateAll {a : Allocator} (apart : a.used.Nodup) (vs : List Value) :
    (a.allocateAll vs).2.used.Nodup := by
  induction vs generalizing a with
  | nil => exact apart
  | cons v vs ih =>
      obtain ⟨_, fresh, used⟩ := a.allocate_fresh v
      refine ih (a := (a.allocate v).2) ?_
      rw [used]
      exact List.nodup_cons.2 ⟨fresh, apart⟩

theorem nodup_allocateAll_empty (vs : List Value) :
    ((empty.allocateAll vs).1.map identifierKey).Nodup := by
  have apart := nodup_used_allocateAll (a := empty) List.nodup_nil vs
  rw [used_allocateAll] at apart
  exact List.nodup_reverse.1 (List.nodup_append.1 apart).1

theorem forall₂_allocateAll {r : Value → String → Prop}
    (each : ∀ (a : Allocator) v, r v (a.allocate v).1) (a : Allocator) (vs : List Value) :
    List.Forall₂ r vs (a.allocateAll vs).1 := by
  induction vs generalizing a with
  | nil => exact .nil
  | cons v vs ih => exact .cons (each a v) (ih (a.allocate v).2)

end Allocator

/-- A letter, in upper case, that can be put in front of identifiers. -/
structure IsLetter (letter : String) : Prop where
  stem : Allocator.IsStem letter
  upper : Text.upperChars letter.toList = letter.toList

namespace IsLetter

variable {letter : String} (isLetter : IsLetter letter)

include isLetter

theorem isStem_lettered (v : Value) : Allocator.IsStem (lettered letter v) := by
  unfold lettered
  dsimp only
  split
  next present =>
    refine ⟨trim_identifier v, fun blank => isLetter.stem.given ?_⟩
    rw [blank, isLetter.upper, List.isPrefixOf_iff_prefix] at present
    exact String.toList_injective (List.prefix_nil.1 present)
  next =>
    by_cases blank : identifier v = ""
    · rw [blank, String.append_empty]
      exact isLetter.stem
    · have trimmed := Text.trim_append isLetter.stem.trimmed (trim_identifier v)
        isLetter.stem.given blank
      exact ⟨trimmed, fun none => blank (String.append_eq_empty_iff.1 none).2⟩

theorem begins_lettered (v : Value) :
    letter.toList <+: Text.upperChars (lettered letter v).toList := by
  unfold lettered
  dsimp only
  split
  next present =>
    rw [isLetter.upper] at present
    exact List.isPrefixOf_iff_prefix.1 present
  next =>
    rw [String.toList_append, Text.upperChars_append, isLetter.upper]
    exact List.prefix_append _ _

theorem begins_of_answers {v : Value} {id : String}
    (answers : Allocator.Answers (.text (lettered letter v)) id) :
    letter.toList <+: (Text.upper id).toList := by
  have stem := isLetter.isStem_lettered v
  have wanted : identifier (.text (lettered letter v)) = lettered letter v := stem.trimmed
  obtain ⟨rest, whole⟩ := answers.begins (by rw [wanted]; exact stem.given)
  rw [wanted] at whole
  rw [Text.upper, String.toList_ofList, ← whole, Text.upperChars_append]
  exact (isLetter.begins_lettered v).trans (List.prefix_append _ _)

theorem key_ne_empty_of_answers {v : Value} {id : String}
    (answers : Allocator.Answers (.text (lettered letter v)) id) : identifierKey id ≠ "" := by
  intro blank
  have begins := isLetter.begins_of_answers answers
  rw [Text.upper, String.toList_ofList, ← answers.stem.toList_key, blank] at begins
  exact isLetter.stem.given (String.toList_injective (List.prefix_nil.1 begins))

end IsLetter

namespace Netlist

variable {nets : PinNets} {read : SwitchReader} {n n' : Netlist} {components : List Component}
  {shares : List Share} {s : Share} {e : Element} {id : String}

/-- What holds of every identifier that is handed out holds of those of the elements. -/
theorem GrowsBy.rel_of_paired (grows : GrowsBy nets read n n' components shares)
    {r : Value → String → Prop} (each : ∀ (a : Allocator) v, r v (a.allocate v).1)
    (member : s ∈ shares) (paired : (e, id) ∈ s.elements.zip s.ids) : r (.text e.id) id := by
  obtain ⟨a, handed⟩ := grows.allocated s member
  have all := Allocator.forall₂_allocateAll each a s.wanted
  rw [handed, Share.wanted, List.forall₂_map_left_iff] at all
  exact (List.forall₂_iff_zip.1 all).2 paired

theorem GrowsBy.answers (grows : GrowsBy nets read n n' components shares)
    (member : s ∈ shares) (paired : (e, id) ∈ s.elements.zip s.ids) :
    Allocator.Answers (.text e.id) id :=
  grows.rel_of_paired (fun a v => (a.allocate_fresh v).1) member paired

end Netlist

end Schematic
