import Schematic.Proofs.Switch
import Schematic.Proofs.Text.Case
import Schematic.Proofs.Text.Runs
/-!
The tokens of a switch value: which field each of them sets. A value is read by setting them one
after the other.
-/

namespace Schematic.Switch

/-! Assignments. -/

/-- Whether a token assigns a value to a name, in any spelling of the name. -/
def IsAssignment (name token value : String) : Prop :=
  ∃ spelled, token = spelled ++ "=" ++ value ∧
    Text.sameLetters name.toList spelled.toList = true

variable {name token value spelled : String}

theorem toList_token (split : token = spelled ++ "=" ++ value) :
    token.toList = spelled.toList ++ '=' :: value.toList := by
  rw [split, String.toList_append, String.toList_append, List.append_assoc]
  rfl

theorem equals_not_mem (listed : name ∈ assignable)
    (same : Text.sameLetters name.toList spelled.toList = true) : '=' ∉ spelled.toList := by
  have letters : ∀ n ∈ assignable, (n.toList.all fun a => !Text.sameLetter a '=') = true := by
    decide +kernel
  intro member
  obtain ⟨i, here, found⟩ := List.mem_iff_getElem.1 member
  obtain ⟨length, pairs⟩ := List.forall₂_iff_get.1 (Text.sameLetters_iff.1 same)
  have pair := pairs i (length ▸ here) here
  have apart := List.all_eq_true.1 (letters name listed) _ (List.getElem_mem (length ▸ here))
  rw [List.get_eq_getElem, List.get_eq_getElem, found] at pair
  rw [pair] at apart
  cases apart

theorem assignment?_eq_some_iff :
    assignment? token = some (spelled, value) ↔ token = spelled ++ "=" ++ value ∧
      ∃ n ∈ assignable, Text.sameLetters n.toList spelled.toList = true := by
  constructor
  · intro divided
    unfold assignment? at divided
    dsimp only at divided
    split at divided
    next c cs behind =>
      split at divided
      next known =>
        cases divided
        have whole := List.takeWhile_append_dropWhile (p := (· != '=')) (l := token.toList)
        obtain rfl : c = '=' := by
          have stop := List.head?_dropWhile_not (· != '=') token.toList
          rw [behind] at stop
          simpa using stop
        obtain ⟨n, listed, same⟩ := List.any_eq_true.1 known
        refine ⟨?_, n, listed, by rwa [String.toList_ofList]⟩
        rw [← String.toList_inj, toList_token rfl, String.toList_ofList, String.toList_ofList,
          ← behind, whole]
      next => cases divided
    next => cases divided
  · rintro ⟨split, n, listed, same⟩
    have name : ∀ c ∈ spelled.toList, (c != '=') = true := by
      intro c member
      refine bne_iff_ne.2 ?_
      rintro rfl
      exact equals_not_mem listed same member
    have front : token.toList.takeWhile (· != '=') = spelled.toList := by
      rw [toList_token split, List.takeWhile_append_of_pos name]
      simp
    have behind : token.toList.dropWhile (· != '=') = '=' :: value.toList := by
      rw [toList_token split, List.dropWhile_append_of_pos name]
      simp
    unfold assignment?
    simp only [front, behind]
    rw [if_pos (List.any_eq_true.2 ⟨n, listed, same⟩), String.ofList_toList, String.ofList_toList]

theorem subset_of_assignment? (divided : assignment? token = some (spelled, value)) :
    value.toList ⊆ token.toList := by
  rw [toList_token (assignment?_eq_some_iff.1 divided).1]
  exact fun c member => List.mem_append_right _ (List.mem_cons_of_mem _ member)

/-! Names. -/

/-- Whether a token begins with a long s, which is the lower case of itself alone. -/
def IsLong (token : String) : Prop :=
  token.toList.head? = some 'ſ'

instance (token : String) : Decidable (IsLong token) :=
  inferInstanceAs (Decidable (_ = _))

theorem lower_of_plain (plain : Text.ArePlain name.toList)
    (same : Text.sameLetters name.toList spelled.toList = true) : Text.lower spelled = name := by
  have letters := Text.map_lowerLetter_of_sameLetters plain same
  have single : ∀ c ∈ spelled.toList, Text.lowerLetter c ≠ 'σ' ∧ Text.lowerLetter c ≠ 'i' := by
    intro c member
    exact (plain _ (letters ▸ List.mem_map_of_mem member)).ne
  rw [Text.lower, Text.lowerChars, Text.lowerFrom_eq_map single, letters, String.ofList_toList]

/-- A name that begins with an s has two lower-case spellings. -/
theorem lower_of_plain_tail (rest : List Char) (plain : Text.ArePlain rest)
    (same : Text.sameLetters ('s' :: rest) spelled.toList = true)
    (split : token = spelled ++ "=" ++ value) :
    (¬ IsLong token ∧ Text.lower spelled = String.ofList ('s' :: rest)) ∨
      (IsLong token ∧ Text.lower spelled = String.ofList ('ſ' :: rest)) := by
  obtain ⟨c, cs, first, later, chars⟩ :=
    List.forall₂_cons_left_iff.1 (Text.sameLetters_iff.1 same)
  have letters := Text.map_lowerLetter_of_sameLetters plain (Text.sameLetters_iff.2 later)
  have long : IsLong token ↔ c = 'ſ' := by
    rw [IsLong, toList_token split, chars, List.cons_append, List.head?_cons, Option.some.injEq]
  have lower : Text.lowerLetter c = 's' ∨ c = 'ſ' := Text.sameLetter_s first
  have single : ∀ d ∈ c :: cs, Text.lowerLetter d ≠ 'σ' ∧ Text.lowerLetter d ≠ 'i' := by
    refine List.forall_mem_cons.2 ⟨?_, fun d member => ?_⟩
    · rcases lower with short | rfl
      · rw [short]
        decide
      · decide +kernel
    · exact (plain _ (letters ▸ List.mem_map_of_mem member)).ne
  have whole : Text.lower spelled = String.ofList (Text.lowerLetter c :: rest) := by
    rw [Text.lower, Text.lowerChars, chars, Text.lowerFrom_eq_map single, List.map_cons, letters]
  rw [long, whole]
  rcases lower with short | rfl
  · refine .inl ⟨?_, by rw [short]⟩
    rintro rfl
    exact absurd short (by decide +kernel)
  · exact .inr ⟨rfl, congrArg (fun d => String.ofList (d :: rest)) (by decide +kernel)⟩

/-! What a token sets. -/

inductive Update
  | active (t : Throw)
  | ron (r : String)
  | roff (r : String)
  | showRon (b : Bool)
  | showRoff (b : Bool)
  deriving DecidableEq

def update (s : Switch) : Update → Switch
  | .active t => { s with active := t }
  | .ron r => { s with ron := r }
  | .roff r => { s with roff := some r }
  | .showRon b => { s with showRon := b }
  | .showRoff b => { s with showRoff := b }

def Update.word? : Update → Option String
  | .active .a => some "a"
  | .active .b => some "b"
  | .ron _ => none
  | .roff _ => none
  | .showRon true => some "showron"
  | .showRon false => some "hideron"
  | .showRoff true => some "showroff"
  | .showRoff false => some "hideroff"

def words : List String :=
  ["a", "b", "showron", "hideron", "showroff", "hideroff"]

theorem mem_words_iff {word : String} : word ∈ words ↔ ∃ u : Update, u.word? = some word := by
  constructor
  · intro listed
    simp only [words, List.mem_cons, List.not_mem_nil, or_false] at listed
    rcases listed with rfl | rfl | rfl | rfl | rfl | rfl
    · exact ⟨.active .a, rfl⟩
    · exact ⟨.active .b, rfl⟩
    · exact ⟨.showRon true, rfl⟩
    · exact ⟨.showRon false, rfl⟩
    · exact ⟨.showRoff true, rfl⟩
    · exact ⟨.showRoff false, rfl⟩
  · rintro ⟨(_ | _) | _ | _ | (_ | _) | (_ | _), ⟨⟩⟩ <;> decide

/-- What a token sets. An assignment to `showron` that is spelled with a long s sets the display of
the other resistance. -/
inductive Sets (token : String) : Update → Prop
  | word {u} (named : u.word? = some (Text.lower token)) : Sets token u
  | ron {r} (assigns : IsAssignment "ron" token r) (given : r ≠ "") : Sets token (.ron r)
  | roff {r} (assigns : IsAssignment "roff" token r) (given : r ≠ "") : Sets token (.roff r)
  | showRon {w b} (assigns : IsAssignment "showron" token w) (short : ¬ IsLong token)
      (truth : flag? (Text.lower w) = some b) : Sets token (.showRon b)
  | longShowRon {w b} (assigns : IsAssignment "showron" token w) (long : IsLong token)
      (truth : flag? (Text.lower w) = some b) : Sets token (.showRoff b)
  | showRoff {w b} (assigns : IsAssignment "showroff" token w)
      (truth : flag? (Text.lower w) = some b) : Sets token (.showRoff b)

variable {s s' : Switch} {u : Update} {b : Bool} {v : Value}

theorem applyWord?_eq_some_iff {word : String} :
    s.applyWord? word = some s' ↔ ∃ u : Update, u.word? = some word ∧ s' = s.update u := by
  unfold applyWord?
  constructor
  · intro applied
    split at applied
    all_goals cases applied
    · exact ⟨.active .a, rfl, rfl⟩
    · exact ⟨.active .b, rfl, rfl⟩
    · exact ⟨.showRon true, rfl, rfl⟩
    · exact ⟨.showRon false, rfl, rfl⟩
    · exact ⟨.showRoff true, rfl, rfl⟩
    · exact ⟨.showRoff false, rfl, rfl⟩
  · rintro ⟨(_ | _) | _ | _ | (_ | _) | (_ | _), ⟨⟩, rfl⟩ <;> rfl

theorem readFlag_eq_ok_iff (name : String) :
    readFlag name value = .ok b ↔ flag? (Text.lower value) = some b := by
  unfold readFlag
  split
  next none =>
    have absent : flag? (Text.lower "") = Option.none := by decide +kernel
    rw [none, absent]
    exact iff_of_false nofun nofun
  next =>
    split
    next c found => rw [found, Option.some.injEq, Except.ok.injEq]
    next none =>
      rw [none]
      exact iff_of_false nofun nofun

theorem bind_readFlag_eq_ok_iff {put : Bool → Switch} :
    (do return put (← readFlag name value)) = Except.ok s' ↔
      ∃ b, flag? (Text.lower value) = some b ∧ s' = put b := by
  simp only [← readFlag_eq_ok_iff name]
  cases readFlag name value with
  | error e => exact iff_of_false nofun nofun
  | ok b =>
      constructor
      · rintro ⟨⟩
        exact ⟨b, rfl, rfl⟩
      · rintro ⟨_, ⟨⟩, rfl⟩
        rfl

theorem given_eq_ok_iff {e : Error} {t : Switch} :
    (if value = "" then Except.error e else .ok t) = .ok s' ↔ value ≠ "" ∧ s' = t := by
  split
  next none => exact iff_of_false nofun fun given => given.1 none
  next given => rw [Except.ok.injEq, and_iff_right given, eq_comm]

theorem applyWord?_of_isAssignment (split : token = spelled ++ "=" ++ value) :
    s.applyWord? (Text.lower token) = none := by
  have sign : '=' ∈ (Text.lower token).toList := by
    rw [Text.lower, String.toList_ofList]
    refine Text.mem_lowerFrom (by decide) (by decide) ?_ []
    rw [toList_token split]
    exact List.mem_append_right _ List.mem_cons_self
  have without : ∀ word ∈ words, '=' ∉ word.toList := by decide
  cases found : s.applyWord? (Text.lower token) with
  | none => rfl
  | some s' =>
      obtain ⟨u, named, _⟩ := applyWord?_eq_some_iff.1 found
      exact absurd sign (without _ (mem_words_iff.2 ⟨u, named⟩))

theorem assign_ron_iff :
    s.assign token "ron" value = .ok s' ↔ value ≠ "" ∧ s' = s.update (.ron value) :=
  given_eq_ok_iff

theorem assign_roff_iff :
    s.assign token "roff" value = .ok s' ↔ value ≠ "" ∧ s' = s.update (.roff value) :=
  given_eq_ok_iff

theorem assign_showRon_iff :
    s.assign token "showron" value = .ok s' ↔
      ∃ b, flag? (Text.lower value) = some b ∧ s' = s.update (.showRon b) :=
  bind_readFlag_eq_ok_iff

/-- What is assigned to a name of no other field goes to the display of the open throw. -/
theorem assign_other_iff (other : name ∉ ["ron", "roff", "showron"]) :
    s.assign token name value = .ok s' ↔
      ∃ b, flag? (Text.lower value) = some b ∧ s' = s.update (.showRoff b) := by
  simp only [List.mem_cons, List.not_mem_nil, or_false, not_or] at other
  rw [assign, if_neg other.1, if_neg other.2.1, if_neg other.2.2]
  exact bind_readFlag_eq_ok_iff

theorem apply_of_word (named : u.word? = some (Text.lower token)) :
    s.apply token = .ok (s.update u) := by
  rw [apply, applyWord?_eq_some_iff.2 ⟨u, named, rfl⟩]

theorem apply_of_spelled (listed : name ∈ assignable) (split : token = spelled ++ "=" ++ value)
    (same : Text.sameLetters name.toList spelled.toList = true) :
    s.apply token = s.assign token (Text.lower spelled) value := by
  rw [apply, applyWord?_of_isAssignment split,
    assignment?_eq_some_iff.2 ⟨split, name, listed, same⟩]

theorem word_or_assignment (applied : s.apply token = .ok s') :
    (∃ u : Update, u.word? = some (Text.lower token) ∧ s' = s.update u) ∨
      ∃ name ∈ assignable, ∃ value, IsAssignment name token value := by
  unfold apply at applied
  split at applied
  next s₁ word =>
    cases applied
    exact .inl (applyWord?_eq_some_iff.1 word)
  next =>
    split at applied
    next spelled value divided =>
      obtain ⟨split, n, listed, same⟩ := assignment?_eq_some_iff.1 divided
      exact .inr ⟨n, listed, value, spelled, split, same⟩
    next => cases applied

/-! One lemma for each name that can be assigned to. -/

theorem apply_ron_iff (assigns : IsAssignment "ron" token value) :
    s.apply token = .ok s' ↔ value ≠ "" ∧ s' = s.update (.ron value) := by
  obtain ⟨spelled, split, same⟩ := assigns
  rw [apply_of_spelled (by decide) split same, lower_of_plain (by decide +kernel) same]
  exact assign_ron_iff

theorem apply_roff_iff (assigns : IsAssignment "roff" token value) :
    s.apply token = .ok s' ↔ value ≠ "" ∧ s' = s.update (.roff value) := by
  obtain ⟨spelled, split, same⟩ := assigns
  rw [apply_of_spelled (by decide) split same, lower_of_plain (by decide +kernel) same]
  exact assign_roff_iff

theorem apply_showRon_iff (assigns : IsAssignment "showron" token value) :
    s.apply token = .ok s' ↔ ∃ b, flag? (Text.lower value) = some b ∧
      s' = s.update (if IsLong token then .showRoff b else .showRon b) := by
  obtain ⟨spelled, split, same⟩ := assigns
  rw [apply_of_spelled (by decide) split same]
  rcases lower_of_plain_tail "howron".toList (by decide +kernel) same split with
    ⟨short, lower⟩ | ⟨long, lower⟩
  · simp only [lower, if_neg short]
    exact assign_showRon_iff
  · simp only [lower, if_pos long]
    exact assign_other_iff (by decide)

theorem apply_showRoff_iff (assigns : IsAssignment "showroff" token value) :
    s.apply token = .ok s' ↔
      ∃ b, flag? (Text.lower value) = some b ∧ s' = s.update (.showRoff b) := by
  obtain ⟨spelled, split, same⟩ := assigns
  rw [apply_of_spelled (by decide) split same]
  rcases lower_of_plain_tail "howroff".toList (by decide +kernel) same split with
    ⟨_, lower⟩ | ⟨_, lower⟩
  · rw [lower]
    exact assign_other_iff (by decide)
  · rw [lower]
    exact assign_other_iff (by decide)

theorem apply_eq_ok_iff : s.apply token = .ok s' ↔ ∃ u, Sets token u ∧ s' = s.update u := by
  constructor
  · intro applied
    rcases word_or_assignment applied with ⟨u, named, done⟩ | ⟨name, listed, value, assigns⟩
    · exact ⟨u, .word named, done⟩
    · simp only [assignable, List.mem_cons, List.not_mem_nil, or_false] at listed
      rcases listed with rfl | rfl | rfl | rfl
      · obtain ⟨given, done⟩ := (apply_ron_iff assigns).1 applied
        exact ⟨_, .ron assigns given, done⟩
      · obtain ⟨given, done⟩ := (apply_roff_iff assigns).1 applied
        exact ⟨_, .roff assigns given, done⟩
      · obtain ⟨b, truth, done⟩ := (apply_showRon_iff assigns).1 applied
        by_cases long : IsLong token
        · rw [if_pos long] at done
          exact ⟨_, .longShowRon assigns long truth, done⟩
        · rw [if_neg long] at done
          exact ⟨_, .showRon assigns long truth, done⟩
      · obtain ⟨b, truth, done⟩ := (apply_showRoff_iff assigns).1 applied
        exact ⟨_, .showRoff assigns truth, done⟩
  · rintro ⟨u, sets, rfl⟩
    cases sets with
    | word named => exact apply_of_word named
    | ron assigns given => exact (apply_ron_iff assigns).2 ⟨given, rfl⟩
    | roff assigns given => exact (apply_roff_iff assigns).2 ⟨given, rfl⟩
    | showRon assigns short truth =>
        exact (apply_showRon_iff assigns).2 ⟨_, truth, by rw [if_neg short]⟩
    | longShowRon assigns long truth =>
        exact (apply_showRon_iff assigns).2 ⟨_, truth, by rw [if_pos long]⟩
    | showRoff assigns truth => exact (apply_showRoff_iff assigns).2 ⟨_, truth, rfl⟩

/-! Reading. -/

theorem exists_forall₂_iff {α β : Type} {R : α → β → Prop} {xs : List α} :
    (∃ ys, List.Forall₂ R xs ys) ↔ ∀ x ∈ xs, ∃ y, R x y := by
  induction xs with
  | nil => exact iff_of_true ⟨[], .nil⟩ nofun
  | cons x xs ih =>
      rw [List.forall_mem_cons, ← ih]
      constructor
      · rintro ⟨_, all⟩
        obtain ⟨y, ys, here, later, rfl⟩ := List.forall₂_cons_left_iff.1 all
        exact ⟨⟨y, here⟩, ys, later⟩
      · rintro ⟨⟨y, here⟩, ys, later⟩
        exact ⟨y :: ys, .cons here later⟩

theorem foldlM_apply_eq_ok_iff {ts : List String} :
    ts.foldlM apply s = .ok s' ↔ ∃ us, List.Forall₂ Sets ts us ∧ s' = us.foldl update s := by
  induction ts generalizing s with
  | nil =>
      constructor
      · rintro ⟨⟩
        exact ⟨[], .nil, rfl⟩
      · rintro ⟨us, none, rfl⟩
        obtain rfl := List.forall₂_nil_left_iff.1 none
        rfl
  | cons token ts ih =>
      have step : (token :: ts).foldlM apply s = .ok s' ↔
          ∃ s₁, s.apply token = .ok s₁ ∧ ts.foldlM apply s₁ = .ok s' := by
        rw [List.foldlM_cons]
        cases s.apply token with
        | error e => exact iff_of_false nofun nofun
        | ok s₁ =>
            constructor
            · exact fun rest => ⟨s₁, rfl, rest⟩
            · rintro ⟨_, ⟨⟩, rest⟩
              exact rest
      rw [step]
      constructor
      · rintro ⟨s₁, applied, rest⟩
        obtain ⟨u, sets, rfl⟩ := apply_eq_ok_iff.1 applied
        obtain ⟨us, later, done⟩ := ih.1 rest
        exact ⟨u :: us, .cons sets later, done⟩
      · rintro ⟨us, all, done⟩
        obtain ⟨u, us, sets, later, rfl⟩ := List.forall₂_cons_left_iff.1 all
        exact ⟨_, apply_eq_ok_iff.2 ⟨u, sets, rfl⟩, ih.2 ⟨us, later, done⟩⟩

theorem parse_eq_ok_iff :
    parse v = .ok s ↔ ∃ us, List.Forall₂ Sets (tokens v) us ∧ s = us.foldl update {} :=
  foldlM_apply_eq_ok_iff

end Schematic.Switch
