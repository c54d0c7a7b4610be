import Schematic.Proofs.Switch.Acceptance
/-!
What a rejected switch value is rejected for: the first of its tokens that is not well formed. The
error reports that token as it stands, except that it spells the name of a display flag in lower
case.
-/

namespace Schematic.Switch

/-- Whether a token assigns a value to a display flag, the name of which it spells in some way. -/
structure IsDisplay (token spelled value : String) : Prop where
  split : token = spelled ++ "=" ++ value
  named : ∃ name ∈ ["showron", "showroff"], Text.sameLetters name.toList spelled.toList = true

/-- The error that a token is rejected with. -/
inductive Spoils (token : String) : Error → Prop
  | unknown (noWord : Text.lower token ∉ words)
      (unassigned : ∀ name ∈ assignable, ∀ value, ¬ IsAssignment name token value) :
      Spoils token (.unknown token)
  | noValue {name} (named : name = "ron" ∨ name = "roff") (assigns : IsAssignment name token "") :
      Spoils token (.noValue name token)
  | noFlag {spelled} (display : IsDisplay token spelled "") :
      Spoils token (.noFlag (Text.lower spelled))
  | badFlag {spelled value} (display : IsDisplay token spelled value) (given : value ≠ "")
      (untrue : flag? (Text.lower value) = none) :
      Spoils token (.badFlag (Text.lower spelled) value)

variable {token t spelled name value : String} {ts : List String} {s : Switch} {e : Error}
  {v : Value}

theorem readFlag_eq_error_iff :
    readFlag name value = .error e ↔ (value = "" ∧ e = .noFlag name) ∨
      (value ≠ "" ∧ flag? (Text.lower value) = none ∧ e = .badFlag name value) := by
  unfold readFlag
  split
  next none =>
    rw [Except.error.injEq, eq_comm]
    exact ⟨fun reported => .inl ⟨none, reported⟩,
      fun cases => cases.elim And.right fun given => absurd none given.1⟩
  next given =>
    split
    next truth =>
      refine iff_of_false nofun ?_
      rintro (⟨none, _⟩ | ⟨_, untrue, _⟩)
      · exact given none
      · exact nomatch truth.symm.trans untrue
    next untrue =>
      rw [Except.error.injEq, eq_comm]
      exact ⟨fun reported => .inr ⟨given, untrue, reported⟩,
        fun cases => cases.elim (fun none => absurd none.1 given) fun bad => bad.2.2⟩

theorem bind_readFlag_eq_error_iff {put : Bool → Switch} :
    (do return put (← readFlag name value)) = Except.error e ↔ readFlag name value = .error e := by
  cases readFlag name value with
  | error e' =>
      constructor
      · rintro ⟨⟩
        rfl
      · rintro ⟨⟩
        rfl
  | ok b => exact iff_of_false nofun nofun

theorem assign_eq_error_iff_of_ne (notRon : name ≠ "ron") (notRoff : name ≠ "roff") :
    s.assign token name value = .error e ↔ readFlag name value = .error e := by
  rw [assign, if_neg notRon, if_neg notRoff]
  split
  · exact bind_readFlag_eq_error_iff
  · exact bind_readFlag_eq_error_iff

theorem given_eq_error_iff {e' : Error} {t : Switch} :
    (if value = "" then Except.error e' else .ok t) = .error e ↔ value = "" ∧ e = e' := by
  split
  next none => rw [Except.error.injEq, and_iff_right none, eq_comm]
  next given => exact iff_of_false nofun fun none => given none.1

theorem IsDisplay.apply_eq_error_iff (display : IsDisplay token spelled value) :
    s.apply token = .error e ↔ readFlag (Text.lower spelled) value = .error e := by
  obtain ⟨split, name, listed, same⟩ := display
  have lowered : Text.lower spelled ∈ ["showron", "ſhowron", "showroff", "ſhowroff"] := by
    simp only [List.mem_cons, List.not_mem_nil, or_false] at listed
    rcases listed with rfl | rfl
    · rcases lower_of_plain_tail "howron".toList (by decide +kernel) same split with
        ⟨_, lower⟩ | ⟨_, lower⟩
      · exact lower ▸ by decide
      · exact lower ▸ by decide
    · rcases lower_of_plain_tail "howroff".toList (by decide +kernel) same split with
        ⟨_, lower⟩ | ⟨_, lower⟩
      · exact lower ▸ by decide
      · exact lower ▸ by decide
  have apart : ∀ n ∈ ["showron", "ſhowron", "showroff", "ſhowroff"], n ≠ "ron" ∧ n ≠ "roff" := by
    decide
  have assigned : name ∈ assignable := List.mem_of_mem_tail (List.mem_of_mem_tail listed)
  rw [apply_of_spelled assigned split same]
  exact assign_eq_error_iff_of_ne (apart _ lowered).1 (apart _ lowered).2

theorem apply_eq_error_of_resistance (named : name = "ron" ∨ name = "roff")
    (assigns : IsAssignment name token value) :
    s.apply token = .error e ↔ value = "" ∧ e = .noValue name token := by
  obtain ⟨spelled, split, same⟩ := assigns
  rcases named with rfl | rfl
  · rw [apply_of_spelled (by decide) split same, lower_of_plain (by decide +kernel) same]
    exact given_eq_error_iff
  · rw [apply_of_spelled (by decide) split same, lower_of_plain (by decide +kernel) same]
    exact given_eq_error_iff

theorem apply_eq_error_iff : s.apply token = .error e ↔ Spoils token e := by
  constructor
  · intro rejected
    unfold apply at rejected
    split at rejected
    next => cases rejected
    next noWord =>
      split at rejected
      next spelled value divided =>
        obtain ⟨split, name, listed, same⟩ := assignment?_eq_some_iff.1 divided
        have whole : s.apply token = .error e := by
          rw [apply, noWord, divided]
          exact rejected
        have display (named : name ∈ ["showron", "showroff"]) : Spoils token e := by
          have display : IsDisplay token spelled value := ⟨split, name, named, same⟩
          rcases readFlag_eq_error_iff.1 (display.apply_eq_error_iff.1 whole) with
            ⟨rfl, rfl⟩ | ⟨given, untrue, rfl⟩
          · exact .noFlag display
          · exact .badFlag display given untrue
        have resistance (named : name = "ron" ∨ name = "roff") : Spoils token e := by
          have assigns : IsAssignment name token value := ⟨spelled, split, same⟩
          obtain ⟨rfl, rfl⟩ := (apply_eq_error_of_resistance named assigns).1 whole
          exact .noValue named assigns
        simp only [assignable, List.mem_cons, List.not_mem_nil, or_false] at listed
        rcases listed with rfl | rfl | rfl | rfl
        · exact resistance (.inl rfl)
        · exact resistance (.inr rfl)
        · exact display (by decide)
        · exact display (by decide)
      next unassigned =>
        cases rejected
        refine .unknown (fun listed => ?_) ?_
        · obtain ⟨u, named⟩ := mem_words_iff.1 listed
          cases noWord.symm.trans (applyWord?_eq_some_iff.2 ⟨u, named, rfl⟩)
        · rintro name listed value ⟨spelled, split, same⟩
          cases unassigned.symm.trans (assignment?_eq_some_iff.2 ⟨split, name, listed, same⟩)
  · rintro (⟨noWord, unassigned⟩ | ⟨named, assigns⟩ | display | ⟨display, given, untrue⟩)
    · have absent : s.applyWord? (Text.lower token) = none := by
        refine Option.eq_none_iff_forall_ne_some.2 fun s' applied => noWord ?_
        obtain ⟨u, named, _⟩ := applyWord?_eq_some_iff.1 applied
        exact mem_words_iff.2 ⟨u, named⟩
      have undivided : assignment? token = none := by
        refine Option.eq_none_iff_forall_ne_some.2 fun assigned divided => ?_
        obtain ⟨spelled, value⟩ := assigned
        obtain ⟨split, name, listed, same⟩ := assignment?_eq_some_iff.1 divided
        exact unassigned name listed value ⟨spelled, split, same⟩
      rw [apply, absent]
      simp only [undivided]
    · exact (apply_eq_error_of_resistance named assigns).2 ⟨rfl, rfl⟩
    · exact display.apply_eq_error_iff.2 (readFlag_eq_error_iff.2 (.inl ⟨rfl, rfl⟩))
    · exact display.apply_eq_error_iff.2 (readFlag_eq_error_iff.2 (.inr ⟨given, untrue, rfl⟩))

theorem Spoils.not_isGood (spoils : Spoils t e) : ¬ IsGood t := by
  intro good
  obtain ⟨u, sets⟩ := isGood_iff.1 good
  have applied : apply {} t = .ok (update {} u) := apply_eq_ok_iff.2 ⟨u, sets, rfl⟩
  exact nomatch applied.symm.trans (apply_eq_error_iff.2 spoils)

/-- Tokens are rejected for the first that is not well formed; those after it are not read. -/
theorem foldlM_apply_eq_error_iff :
    ts.foldlM apply s = .error e ↔ ∃ before t after, ts = before ++ t :: after ∧
      (∀ u ∈ before, IsGood u) ∧ Spoils t e := by
  induction ts generalizing s with
  | nil =>
      refine iff_of_false nofun ?_
      rintro ⟨before, t, after, split, _⟩
      exact absurd split.symm (by simp)
  | cons token ts ih =>
      rw [List.foldlM_cons]
      cases first : s.apply token with
      | error e' =>
          have spoils := apply_eq_error_iff.1 first
          constructor
          · rintro ⟨⟩
            exact ⟨[], token, ts, rfl, nofun, spoils⟩
          · rintro ⟨before, t, after, split, good, spoils'⟩
            cases before with
            | nil =>
                obtain ⟨rfl, rfl⟩ := List.cons.inj split
                have spoiled : s.apply token = .error e := apply_eq_error_iff.2 spoils'
                exact congrArg _ (Except.error.inj (first.symm.trans spoiled))
            | cons u before =>
                obtain ⟨rfl, rfl⟩ := List.cons.inj split
                exact absurd (good token List.mem_cons_self) spoils.not_isGood
      | ok s₁ =>
          refine Iff.trans ih ?_
          obtain ⟨u, sets, _⟩ := apply_eq_ok_iff.1 first
          constructor
          · rintro ⟨before, t, after, rfl, good, spoils⟩
            exact ⟨token :: before, t, after, rfl,
              List.forall_mem_cons.2 ⟨isGood_iff.2 ⟨u, sets⟩, good⟩, spoils⟩
          · rintro ⟨before, t, after, split, good, spoils⟩
            cases before with
            | nil =>
                obtain ⟨rfl, rfl⟩ := List.cons.inj split
                exact absurd (isGood_iff.2 ⟨u, sets⟩) spoils.not_isGood
            | cons w before =>
                obtain ⟨rfl, rfl⟩ := List.cons.inj split
                exact ⟨before, t, after, rfl, (List.forall_mem_cons.1 good).2, spoils⟩

theorem Spoils.token_of_display (spoils : Spoils t e) (display : IsDisplay t spelled value) :
    e.token = Text.lower spelled ++ "=" ++ value := by
  have rejected : apply {} t = .error e := apply_eq_error_iff.2 spoils
  rcases readFlag_eq_error_iff.1 (display.apply_eq_error_iff.1 rejected) with
    ⟨rfl, rfl⟩ | ⟨_, _, rfl⟩
  · exact String.append_empty.symm
  · rfl

theorem Spoils.token_eq_iff (spoils : Spoils t e) :
    e.token = t ↔ ∀ spelled value, IsDisplay t spelled value → Text.lower spelled = spelled := by
  constructor
  · intro same spelled value display
    have reported := spoils.token_of_display display
    rw [same, display.split, String.append_left_inj, String.append_left_inj] at reported
    exact reported.symm
  · intro lower
    cases spoils with
    | unknown => rfl
    | noValue => rfl
    | noFlag display =>
        rw [Error.token, lower _ _ display]
        exact (display.split.trans String.append_empty).symm
    | badFlag display =>
        rw [Error.token, lower _ _ display]
        exact display.split.symm

/-- A rejected value is rejected for the first of its tokens that is not well formed. The error
reports that token character for character, unless it assigns to a display flag: the name of the
flag is then reported in lower case. -/
theorem parse_reports_first_bad (rejected : parse v = .error e) :
    ∃ before t after, tokens v = before ++ t :: after ∧ (∀ u ∈ before, IsGood u) ∧ ¬ IsGood t ∧
      (∀ spelled value, IsDisplay t spelled value →
        e.token = Text.lower spelled ++ "=" ++ value) ∧
      (e.token = t ↔
        ∀ spelled value, IsDisplay t spelled value → Text.lower spelled = spelled) := by
  obtain ⟨before, t, after, split, good, spoils⟩ := foldlM_apply_eq_error_iff.1 rejected
  exact ⟨before, t, after, split, good, spoils.not_isGood,
    fun _ _ display => spoils.token_of_display display, spoils.token_eq_iff⟩

theorem parse_reports_first_bad_emptyResistance :
    parse (.text "b;SHOWRON=Off ROFF=,ShowRon=maybe") = .error (.noValue "roff" "ROFF=") ∧
      ∃ before t after, tokens (.text "b;SHOWRON=Off ROFF=,ShowRon=maybe") = before ++ t :: after ∧
        (∀ u ∈ before, IsGood u) ∧ ¬ IsGood t ∧
        (Error.token (.noValue "roff" "ROFF=") = t ↔
          ∀ spelled value, IsDisplay t spelled value → Text.lower spelled = spelled) := by
  have rejected : parse (.text "b;SHOWRON=Off ROFF=,ShowRon=maybe") =
      .error (.noValue "roff" "ROFF=") := by decide +kernel
  obtain ⟨before, t, after, split, good, bad, _, same⟩ := parse_reports_first_bad rejected
  exact ⟨rejected, before, t, after, split, good, bad, same⟩

/-- A display flag that is set to no truth value is reported in another spelling than it has. -/
theorem token_of_capital_flag :
    ∃ e, parse (.text "ShowRon=maybe") = .error e ∧
      tokens (.text "ShowRon=maybe") = ["ShowRon=maybe"] ∧
        ¬ IsGood "ShowRon=maybe" ∧ e.token ≠ "ShowRon=maybe" := by
  have rejected : parse (.text "ShowRon=maybe") = .error (.badFlag "showron" "maybe") := by
    decide +kernel
  have spoiled : apply {} "ShowRon=maybe" = .error (.badFlag "showron" "maybe") := by decide +kernel
  refine ⟨_, rejected, by decide +kernel, (apply_eq_error_iff.1 spoiled).not_isGood, by decide⟩

end Schematic.Switch
