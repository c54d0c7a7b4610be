import Schematic.Switch
import Schematic.Switch.Roles
import Schematic.Proofs.Entries
import Mathlib.Data.List.Perm.Subperm
/-!
Switches: the resistances of a setting that could be read, and the pins that take the roles.
-/

namespace Schematic

structure Switch.IsWritable (s : Switch) : Prop where
  ron : s.ron ≠ ""
  roff : ∀ r, s.roff = some r → r ≠ ""

namespace Switch

structure Gives (p : String → Prop) (s : Switch) : Prop where
  ron : p s.ron
  roff : ∀ r, s.roff = some r → p r

variable {p : String → Prop}

theorem Gives.applyWord? {s s' : Switch} (gives : s.Gives p) {word : String}
    (applied : s.applyWord? word = some s') : s'.Gives p := by
  unfold Switch.applyWord? at applied
  split at applied
  all_goals cases applied
  all_goals exact ⟨gives.ron, gives.roff⟩

theorem Gives.assign {s s' : Switch} (gives : s.Gives p) {token name value : String}
    (holds : value ≠ "" → p value) (assigned : s.assign token name value = .ok s') :
    s'.Gives p := by
  have flagged : ∀ put : Bool → Switch, (∀ b, (put b).Gives p) →
      (do return put (← readFlag name value)) = Except.ok s' → s'.Gives p := by
    intro put each read
    cases flag : readFlag name value with
    | error e =>
        rw [flag] at read
        cases read
    | ok b =>
        rw [flag] at read
        cases read
        exact each b
  unfold Switch.assign at assigned
  split at assigned
  · split at assigned
    next => cases assigned
    next given =>
      cases assigned
      exact ⟨holds given, gives.roff⟩
  · split at assigned
    · split at assigned
      next => cases assigned
      next given =>
        cases assigned
        refine ⟨gives.ron, fun r same => ?_⟩
        obtain rfl := Option.some.inj same
        exact holds given
    · split at assigned
      · exact flagged ({ s with showRon := · }) (fun _ => ⟨gives.ron, gives.roff⟩) assigned
      · exact flagged ({ s with showRoff := · }) (fun _ => ⟨gives.ron, gives.roff⟩) assigned

def Assigns (p : String → Prop) (token : String) : Prop :=
  ∀ name value, assignment? token = some (name, value) → value ≠ "" → p value

theorem Gives.apply {s s' : Switch} (gives : s.Gives p) {token : String} (assigns : Assigns p token)
    (applied : s.apply token = .ok s') : s'.Gives p := by
  unfold Switch.apply at applied
  split at applied
  next s₁ word =>
    cases applied
    exact gives.applyWord? word
  next =>
    split at applied
    next name value divided => exact gives.assign (assigns name value divided) applied
    next => cases applied

theorem Gives.foldlM_apply {s s' : Switch} (gives : s.Gives p) {tokens : List String}
    (assign : ∀ token ∈ tokens, Assigns p token) (applied : tokens.foldlM Switch.apply s = .ok s') :
    s'.Gives p := by
  induction tokens generalizing s with
  | nil =>
      cases applied
      exact gives
  | cons token tokens ih =>
      obtain ⟨here, later⟩ := List.forall_mem_cons.1 assign
      rw [List.foldlM_cons] at applied
      cases first : s.apply token with
      | error e =>
          rw [first] at applied
          cases applied
      | ok s₁ =>
          rw [first] at applied
          exact ih (gives.apply here first) later applied

theorem gives_of_parse {v : Value} {s : Switch} (default : p "0")
    (assign : ∀ token ∈ tokens v, Assigns p token) (read : parse v = .ok s) : s.Gives p :=
  Gives.foldlM_apply (s := {}) ⟨default, fun _ absent => nomatch absent⟩ assign read

theorem isWritable_of_parse {v : Value} {s : Switch} (read : parse v = .ok s) : s.IsWritable := by
  have gives := gives_of_parse (p := (· ≠ "")) (by decide) (fun _ _ _ _ _ given => given) read
  exact ⟨gives.ron, gives.roff⟩

end Switch

namespace Casting

variable {casting : Casting} {pins : List Pin} {fits : Pin → Bool} {r : Role}

/-- Whether roles are given to pins of a list, each role at most once and no two to one pin. -/
structure Within (casting : Casting) (pins : List Pin) : Prop where
  roles : (casting.map (·.1)).Nodup
  apart : (casting.map (·.2)).Nodup
  places : ∀ e ∈ casting, e.2 < pins.length

theorem within_nil : Within [] pins :=
  ⟨List.nodup_nil, List.nodup_nil, fun _ member => absurd member List.not_mem_nil⟩

theorem isTaken_iff {i : Nat} : casting.isTaken i = true ↔ i ∈ casting.map (·.2) := by
  rw [isTaken, List.any_eq_true, List.mem_map]
  exact exists_congr fun e => and_congr_right fun _ => beq_iff_eq

theorem fill_eq (casting : Casting) (fits : Pin → Bool) (pins : List Pin) (r : Role) :
    fill fits pins casting r = casting ∨
      casting.get? r = none ∧ ∃ i < pins.length, casting.isTaken i = false ∧
        fill fits pins casting r = casting ++ [(r, i)] := by
  unfold fill
  split
  · exact .inl rfl
  next unfilled =>
    have absent : casting.get? r = none := by
      rwa [Bool.not_eq_true, Option.isSome_eq_false_iff, Option.isNone_iff_eq_none] at unfilled
    split
    next p i found =>
      have listed := List.mem_of_find?_eq_some found
      have suits := List.find?_some (p := fun e : Pin × Nat => !casting.isTaken e.2 && fits e.1) found
      rw [Bool.and_eq_true, Bool.not_eq_true'] at suits
      refine .inr ⟨absent, i, ?_, suits.1, Entries.put_eq_append_of_get?_eq_none absent i⟩
      exact (List.getElem?_eq_some_iff.1 (List.mem_zipIdx_iff_getElem?.1 listed)).1
    next => exact .inl rfl

theorem Within.fill (within : casting.Within pins) (fits : Pin → Bool) (r : Role) :
    (fill fits pins casting r).Within pins := by
  rcases fill_eq casting fits pins r with same | ⟨absent, i, below, free, filled⟩
  · rwa [same]
  · rw [filled]
    constructor
    · have new : r ∉ casting.map (·.1) := by
        intro present
        obtain ⟨e, member, rfl⟩ := List.mem_map.1 present
        rw [Entries.get?_eq_some_of_mem within.roles member] at absent
        cases absent
      rw [List.map_append, List.map_singleton]
      exact List.nodup_append_comm.1 (List.nodup_cons.2 ⟨new, within.roles⟩)
    · have new : i ∉ casting.map (·.2) := by
        rw [← isTaken_iff, free]
        exact Bool.false_ne_true
      rw [List.map_append, List.map_singleton]
      exact List.nodup_append_comm.1 (List.nodup_cons.2 ⟨new, within.apart⟩)
    · intro e member
      rcases List.mem_append.1 member with old | last
      · exact within.places e old
      · obtain rfl := List.mem_singleton.1 last
        exact below

theorem Within.foldl_fill (within : casting.Within pins) (fits : Role → Pin → Bool)
    (roles : List Role) :
    (roles.foldl (fun casting r => Casting.fill (fits r) pins casting r) casting).Within pins := by
  induction roles generalizing casting with
  | nil => exact within
  | cons r roles ih => exact ih (within.fill (fits r) r)

theorem get?_fill_of_eq_some {role : Role} {i : Nat} (given : casting.get? role = some i)
    (fits : Pin → Bool) (pins : List Pin) (r : Role) :
    (fill fits pins casting r).get? role = some i := by
  rcases fill_eq casting fits pins r with same | ⟨_, j, _, _, filled⟩
  · rwa [same]
  · obtain ⟨e, met, rfl⟩ := Option.map_eq_some_iff.1 given
    rw [filled, Entries.get?, List.find?_append, met]
    rfl

theorem get?_foldl_fill_of_eq_some {role : Role} {i : Nat} (given : casting.get? role = some i)
    (fits : Role → Pin → Bool) (pins : List Pin) (roles : List Role) :
    (roles.foldl (fun casting r => fill (fits r) pins casting r) casting).get? role = some i := by
  induction roles generalizing casting with
  | nil => exact given
  | cons r roles ih => exact ih (get?_fill_of_eq_some given (fits r) pins r)

/-- As long as a role is free, so is one of three pins. -/
theorem Within.exists_free (within : casting.Within pins) (enough : Role.all.length ≤ pins.length)
    (unfilled : casting.get? r = none) : ∃ i < pins.length, casting.isTaken i = false := by
  by_contra allTaken
  push Not at allTaken
  have given : casting.map (·.1) ⊆ Role.all.erase r := by
    intro role present
    obtain ⟨e, member, rfl⟩ := List.mem_map.1 present
    have other : e.1 ≠ r := by
      rintro rfl
      rw [Entries.get?_eq_some_of_mem within.roles member] at unfilled
      cases unfilled
    cases h : e.1 <;> cases r <;> simp_all [Role.all]
  have taken : List.range pins.length ⊆ casting.map (·.2) := by
    intro i below
    have used := allTaken i (List.mem_range.1 below)
    rw [ne_eq, Bool.not_eq_false, isTaken, List.any_eq_true] at used
    obtain ⟨e, member, same⟩ := used
    exact List.mem_map.2 ⟨e, member, eq_of_beq same⟩
  have few := (List.subperm_of_subset within.roles given).length_le
  have many := (List.subperm_of_subset List.nodup_range taken).length_le
  have two : (Role.all.erase r).length = 2 := by cases r <;> rfl
  rw [List.length_map] at few many
  rw [List.length_range] at many
  have three : Role.all.length = 3 := rfl
  omega

theorem Within.exists_get?_fill_self (within : casting.Within pins)
    (enough : Role.all.length ≤ pins.length) (r : Role) :
    ∃ i, (Casting.fill (fun _ => true) pins casting r).get? r = some i := by
  unfold Casting.fill
  split
  next filled => exact Option.isSome_iff_exists.1 filled
  next unfilled =>
    have absent : casting.get? r = none := by
      rwa [Bool.not_eq_true, Option.isSome_eq_false_iff, Option.isNone_iff_eq_none] at unfilled
    obtain ⟨i, below, free⟩ := within.exists_free enough absent
    have found : (pins.zipIdx.find? fun e => !casting.isTaken e.2 && true).isSome = true := by
      refine List.find?_isSome.2 ⟨(pins[i], i), ?_, ?_⟩
      · exact List.mem_zipIdx_iff_getElem?.2 (List.getElem?_eq_getElem below)
      · simp [free]
    split
    next p j _ => exact ⟨j, Entries.get?_put_self _ _ _⟩
    next none => rw [none] at found; cases found

theorem Within.exists_get?_foldl_fill (within : casting.Within pins)
    (enough : Role.all.length ≤ pins.length) {r : Role} {roles : List Role} (member : r ∈ roles) :
    ∃ i, (roles.foldl (Casting.fill (fun _ => true) pins) casting).get? r = some i := by
  induction roles generalizing casting with
  | nil => cases member
  | cons first roles ih =>
      rcases List.mem_cons.1 member with rfl | later
      · obtain ⟨i, found⟩ := within.exists_get?_fill_self enough r
        exact ⟨i, get?_foldl_fill_of_eq_some found (fun _ _ => true) pins roles⟩
      · exact ih (within.fill (fun _ => true) first) later

theorem within_labelled (pins : List Pin) :
    (Role.all.foldl (fun casting r => fill r.labels pins casting r) []).Within pins :=
  within_nil.foldl_fill Role.labels Role.all

theorem within_ofPins (pins : List Pin) : (ofPins pins).Within pins :=
  (within_labelled pins).foldl_fill (fun _ _ => true) Role.all

theorem exists_get?_ofPins (enough : Role.all.length ≤ pins.length) (r : Role) :
    ∃ i, (ofPins pins).get? r = some i ∧ i < pins.length := by
  have member : r ∈ Role.all := by cases r <;> decide
  obtain ⟨i, found⟩ := (within_labelled pins).exists_get?_foldl_fill enough member
  exact ⟨i, found, (within_ofPins pins).places _ (Entries.mem_of_get?_eq_some found)⟩

end Casting

namespace Roles

theorem ofPins?_eq_none {pins : List Pin} (few : pins.length < Role.all.length) :
    ofPins? pins = none := by
  rw [ofPins?, if_pos few]
  rfl

theorem exists_places {pins : List Pin} (enough : Role.all.length ≤ pins.length) :
    ∃ (roles : Roles) (place : Role → Nat), ofPins? pins = some roles ∧
      ∀ r, (Casting.ofPins pins).get? r = some (place r) ∧ pins[place r]? = some (roles.pin r) := by
  have cast := fun r => Casting.exists_get?_ofPins enough r
  choose place given below using cast
  let pinAt := fun r => pins.get ⟨place r, below r⟩
  refine ⟨⟨pinAt .c, pinAt .a, pinAt .b⟩, place, ?_, fun r => ⟨given r, ?_⟩⟩
  · rw [ofPins?, if_neg (Nat.not_lt.2 enough)]
    simp only [given, Option.bind_some, List.getElem?_eq_getElem (below _)]
    rfl
  · cases r <;> exact List.getElem?_eq_getElem (below _)

theorem exists_ofPins? {pins : List Pin} (enough : Role.all.length ≤ pins.length) :
    ∃ roles, ofPins? pins = some roles := by
  obtain ⟨roles, _, cast, _⟩ := exists_places enough
  exact ⟨roles, cast⟩

end Roles

end Schematic
