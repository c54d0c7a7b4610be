import Schematic.Proofs.Switch
import Mathlib.Data.Nat.Find
/-!
The pins that take the roles of a switch. Every role in turn takes the first free pin that bears its
letter; that may be a pin which a later role needs.
-/

namespace Schematic

namespace Role

/-- Whether a pin bears the letter of a role, as its id or as its name. -/
def Bears (r : Role) (p : Pin) : Prop :=
  normalTag p.id = r.letter ∨ normalTag p.name = r.letter

instance (r : Role) (p : Pin) : Decidable (r.Bears p) :=
  inferInstanceAs (Decidable (_ ∨ _))

theorem labels_iff {r : Role} {p : Pin} : r.labels p = true ↔ r.Bears p := by
  rw [labels, Bool.or_eq_true, beq_iff_eq, beq_iff_eq, Bears]

def BearsAt (pins : List Pin) (r : Role) (i : Nat) : Prop :=
  ∃ p, pins[i]? = some p ∧ r.Bears p

end Role

/-- A choice of different pins, each of which bears the letter of its role. -/
structure IsLettered (pins : List Pin) (place : Role → Nat) : Prop where
  apart : Function.Injective place
  bears : ∀ r : Role, r.BearsAt pins (place r)

/-- A choice whose common pin is the first that bears the letter `C`, and whose first throw is the
first other pin that bears the letter `A`. -/
structure IsEager (pins : List Pin) (place : Role → Nat) : Prop where
  common : ∀ i < place .c, ¬ Role.c.BearsAt pins i
  first : ∀ i < place .a, i ≠ place .c → ¬ Role.a.BearsAt pins i

/-- Whether no pin bears the letters of two roles. -/
def AreOneLettered (pins : List Pin) : Prop :=
  ∀ p ∈ pins, ∀ r r' : Role, r.Bears p → r'.Bears p → r = r'

variable {pins : List Pin} {place : Role → Nat}

theorem exists_first {holds : Nat → Prop} (some : ∃ i, holds i) :
    ∃ i, holds i ∧ ∀ j < i, ¬ holds j := by
  classical
  exact ⟨Nat.find some, Nat.find_spec some, fun j before => Nat.find_min some before⟩

theorem IsLettered.exists_isEager (lettered : IsLettered pins place)
    (single : AreOneLettered pins) : ∃ choice, IsLettered pins choice ∧ IsEager pins choice := by
  obtain ⟨i, bearsC, firstC⟩ := exists_first ⟨_, lettered.bears .c⟩
  obtain ⟨j, bearsA, firstA⟩ := exists_first ⟨_, lettered.bears .a⟩
  let choice := Function.update (Function.update place .c i) .a j
  have bears : ∀ r : Role, r.BearsAt pins (choice r) := by
    intro r
    cases r with
    | c => exact bearsC
    | a => exact bearsA
    | b => exact lettered.bears .b
  refine ⟨choice, ⟨fun r r' same => ?_, bears⟩, ⟨firstC, fun k before _ => firstA k before⟩⟩
  obtain ⟨p, listed, letter⟩ := bears r
  obtain ⟨p', listed', letter'⟩ := bears r'
  rw [same, listed', Option.some.injEq] at listed
  obtain rfl := listed
  exact single _ (List.mem_of_getElem? listed') r r' letter letter'

namespace Casting

variable {casting : Casting} {r : Role} {i : Nat}

/-- Whether a role can take a place: a free pin that bears its letter. -/
def Suits (pins : List Pin) (casting : Casting) (r : Role) (i : Nat) : Prop :=
  r.BearsAt pins i ∧ i ∉ casting.map (·.2)

theorem fill_of_first (unfilled : casting.get? r = none) (suits : Suits pins casting r i)
    (first : ∀ j < i, ¬ Suits pins casting r j) :
    fill r.labels pins casting r = casting ++ [(r, i)] := by
  obtain ⟨⟨p, listed, bears⟩, free⟩ := suits
  obtain ⟨below, here⟩ := List.getElem?_eq_some_iff.1 listed
  have found : pins.zipIdx.find? (fun e => !casting.isTaken e.2 && r.labels e.1) = some (p, i) := by
    rw [List.find?_eq_some_iff_getElem]
    refine ⟨?_, i, by simpa using below, by simp [here], fun j before => ?_⟩
    · rw [← isTaken_iff, Bool.not_eq_true] at free
      rw [free, Role.labels_iff.2 bears]
      rfl
    · have listed : j < pins.length := Nat.lt_trans before below
      rw [List.getElem_zipIdx, Nat.zero_add]
      by_contra fits
      rw [Bool.not_eq_true', Bool.not_eq_false, Bool.and_eq_true, Bool.not_eq_true',
        Role.labels_iff, ← Bool.not_eq_true, isTaken_iff] at fits
      exact first j before ⟨⟨_, List.getElem?_eq_getElem listed, fits.2⟩, fits.1⟩
  rw [fill, unfilled, Option.isSome_none, if_neg Bool.false_ne_true, found]
  exact Entries.put_eq_append_of_get?_eq_none unfilled i

theorem exists_fill (casting : Casting) (unfilled : casting.get? r = none)
    (some : ∃ i, Suits pins casting r i) :
    ∃ i, (Suits pins casting r i ∧ ∀ j < i, ¬ Suits pins casting r j) ∧
      fill r.labels pins casting r = casting ++ [(r, i)] := by
  obtain ⟨i, suits, first⟩ := exists_first some
  exact ⟨i, ⟨suits, first⟩, fill_of_first unfilled suits first⟩

theorem get?_ofPins_of_labelled
    (given : (fill Role.b.labels pins (fill Role.a.labels pins
      (fill Role.c.labels pins [] .c) .a) .b).get? r = some i) : (ofPins pins).get? r = some i :=
  get?_foldl_fill_of_eq_some given (fun _ _ => true) pins Role.all

variable (given : ∀ r, (ofPins pins).get? r = some (place r))

include given

theorem isEager_of_isLettered (lettered : IsLettered pins place) : IsEager pins place := by
  obtain ⟨i, ⟨_, firstC⟩, fillC⟩ :=
    exists_fill [] rfl ⟨_, lettered.bears .c, List.not_mem_nil⟩
  have placeC : place .c = i := by
    have kept : (ofPins pins).get? .c = some i := get?_ofPins_of_labelled <|
      get?_fill_of_eq_some (get?_fill_of_eq_some (by rw [fillC]; rfl) _ pins .a) _ pins .b
    exact Option.some.inj ((given .c).symm.trans kept)
  have other : place .a ∉ [i] := by
    rw [List.mem_singleton, ← placeC]
    exact lettered.apart.ne (by decide)
  obtain ⟨j, ⟨_, firstA⟩, fillA⟩ :=
    exists_fill [(.c, i)] rfl ⟨_, lettered.bears .a, other⟩
  have placeA : place .a = j := by
    have kept : (ofPins pins).get? .a = some j := get?_ofPins_of_labelled <|
      get?_fill_of_eq_some (by rw [fillC, List.nil_append, fillA]; rfl) _ pins .b
    exact Option.some.inj ((given .a).symm.trans kept)
  constructor
  · intro k before bears
    exact firstC k (placeC ▸ before) ⟨bears, List.not_mem_nil⟩
  · intro k before apart bears
    exact firstA k (placeA ▸ before) ⟨bears, by simpa [placeC] using apart⟩

theorem isLettered_of_isEager {choice : Role → Nat} (lettered : IsLettered pins choice)
    (eager : IsEager pins choice) (apart : Function.Injective place) :
    IsLettered pins place := by
  have fillC : fill Role.c.labels pins [] .c = [(.c, choice .c)] :=
    fill_of_first rfl ⟨lettered.bears .c, List.not_mem_nil⟩
      fun j before suits => eager.common j before suits.1
  have other : choice .a ≠ choice .c := lettered.apart.ne (by decide)
  have fillA : fill Role.a.labels pins [(.c, choice .c)] .a = [(.c, choice .c), (.a, choice .a)] :=
    fill_of_first rfl ⟨lettered.bears .a, by simpa using other⟩
      fun j before suits => eager.first j before (by simpa using suits.2) suits.1
  have last : choice .b ∉ [choice .c, choice .a] := by
    have ne := lettered.apart.ne (show Role.b ≠ .c by decide)
    have ne' := lettered.apart.ne (show Role.b ≠ .a by decide)
    simp [ne, ne']
  obtain ⟨k, ⟨⟨bears, _⟩, _⟩, fillB⟩ :=
    exists_fill [(.c, choice .c), (.a, choice .a)] rfl ⟨_, lettered.bears .b, last⟩
  have kept : ∀ r i, Entries.get? [(.c, choice .c), (.a, choice .a), (.b, k)] r = some i →
      place r = i := by
    intro r i found
    refine Option.some.inj ((given r).symm.trans (get?_ofPins_of_labelled ?_))
    rwa [fillC, fillA, fillB]
  refine ⟨apart, fun r => ?_⟩
  cases r with
  | c => rw [kept .c _ rfl]; exact lettered.bears .c
  | a => rw [kept .a _ rfl]; exact lettered.bears .a
  | b => rw [kept .b _ rfl]; exact bears

end Casting

namespace Roles

theorem ofPins?_eq_none_iff : ofPins? pins = none ↔ pins.length < 3 := by
  refine ⟨fun none => ?_, ofPins?_eq_none⟩
  by_contra enough
  obtain ⟨roles, cast⟩ := exists_ofPins? (Nat.not_lt.1 enough)
  rw [none] at cast
  cases cast

/-- Roles are given out as soon as there are three pins, and to different ones. They go to pins that
bear their letters just when that can be done eagerly, so whenever it can be done at all if no pin
bears two letters. -/
theorem ofPins?_lettered_iff (pins : List Pin) :
    (ofPins? pins = none ↔ pins.length < 3) ∧
      (3 ≤ pins.length → ∃ (roles : Roles) (place : Role → Nat), ofPins? pins = some roles ∧
        Function.Injective place ∧ (∀ r, pins[place r]? = some (roles.pin r)) ∧
        (IsLettered pins place ↔ ∃ choice, IsLettered pins choice ∧ IsEager pins choice) ∧
        (AreOneLettered pins → (∃ choice, IsLettered pins choice) → IsLettered pins place)) := by
  refine ⟨ofPins?_eq_none_iff, fun enough => ?_⟩
  obtain ⟨roles, place, cast, places⟩ := exists_places enough
  have given := fun r => (places r).1
  have apart : Function.Injective place := by
    intro r r' same
    have member := fun r => Entries.mem_of_get?_eq_some (given r)
    have inj := List.inj_on_of_nodup_map (Casting.within_ofPins pins).apart
    exact congrArg Prod.fst (inj (member r) (member r') same)
  have eagerly : (∃ choice, IsLettered pins choice ∧ IsEager pins choice) →
      IsLettered pins place := fun ⟨_, lettered, eager⟩ =>
    Casting.isLettered_of_isEager given lettered eager apart
  refine ⟨roles, place, cast, apart, fun r => (places r).2, ⟨fun lettered => ?_, eagerly⟩,
    fun single ⟨_, lettered⟩ => eagerly (lettered.exists_isEager single)⟩
  exact ⟨place, lettered, Casting.isEager_of_isLettered given lettered⟩

def letterPin (id name : String) : Pin :=
  ⟨.text id, .text name, .float .zero, .float .zero⟩

def namedPins : List Pin :=
  [letterPin "p1" "b", letterPin "p2" "C", letterPin "p3" "A"]

def namedPlaces : Role → Nat
  | .c => 1
  | .a => 2
  | .b => 0

theorem isLettered_namedPins : IsLettered namedPins namedPlaces where
  apart := fun r r' => by cases r <;> cases r' <;> decide
  bears := fun r => by
    cases r with
    | c => exact ⟨_, rfl, by decide +kernel⟩
    | a => exact ⟨_, rfl, by decide +kernel⟩
    | b => exact ⟨_, rfl, by decide +kernel⟩

theorem ofPins?_lettered_iff_namedPins :
    3 ≤ namedPins.length ∧ AreOneLettered namedPins ∧ IsLettered namedPins namedPlaces ∧
      ∃ (roles : Roles) (place : Role → Nat), ofPins? namedPins = some roles ∧
        Function.Injective place ∧ (∀ r, namedPins[place r]? = some (roles.pin r)) ∧
        (∃ choice, IsLettered namedPins choice ∧ IsEager namedPins choice) ∧
        IsLettered namedPins place := by
  have single : AreOneLettered namedPins := by
    intro p member r r'
    rcases List.mem_cons.1 member with rfl | member
    · cases r <;> cases r' <;> decide +kernel
    · rcases List.mem_pair.1 member with rfl | rfl
      · cases r <;> cases r' <;> decide +kernel
      · cases r <;> cases r' <;> decide +kernel
  obtain ⟨roles, place, cast, apart, places, eager, lettered⟩ :=
    (ofPins?_lettered_iff namedPins).2 (by decide)
  have done := lettered single ⟨_, isLettered_namedPins⟩
  exact ⟨by decide, single, isLettered_namedPins, roles, place, cast, apart, places,
    eager.1 done, done⟩

/-- The pin with id `B` bears the letter of the first throw too, and is taken for that. -/
def mixedPins : List Pin :=
  [letterPin "C" "C", letterPin "B" "A", letterPin "2" "A"]

def mixedPlaces : Role → Nat
  | .c => 0
  | .a => 2
  | .b => 1

theorem isLettered_mixedPins : IsLettered mixedPins mixedPlaces where
  apart := fun r r' => by cases r <;> cases r' <;> decide
  bears := fun r => by
    cases r with
    | c => exact ⟨_, rfl, by decide +kernel⟩
    | a => exact ⟨_, rfl, by decide +kernel⟩
    | b => exact ⟨_, rfl, by decide +kernel⟩

theorem throws_of_mixedPins :
    IsLettered mixedPins mixedPlaces ∧ ∃ roles, ofPins? mixedPins = some roles ∧
      roles.a = letterPin "B" "A" ∧ roles.b = letterPin "2" "A" ∧ ¬ Role.b.Bears roles.b := by
  have cast : ofPins? mixedPins =
      some ⟨letterPin "C" "C", letterPin "B" "A", letterPin "2" "A"⟩ := by
    rfl
  exact ⟨isLettered_mixedPins, _, cast, rfl, rfl, by decide +kernel⟩

end Roles

end Schematic
