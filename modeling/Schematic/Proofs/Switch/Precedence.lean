import Schematic.Proofs.Switch.Tokens
/-!
Which token decides a field of a switch setting: the last of those that set it. An assignment to
`showron` that is spelled with a long s counts among those that set the display of the other
resistance.
-/

namespace Schematic.Switch

variable {α : Type} {R R' : String → α → Prop} {default a : α} {t token value : String}
  {ts : List String} {us : List Update} {u u' : Update} {s : Switch} {v : Value}

/-- The value that the last of some tokens gives, or the default if none gives one. -/
inductive LastOf (R : String → α → Prop) (default : α) (ts : List String) : α → Prop
  | last {before t after a} (split : ts = before ++ t :: after) (here : R t a)
      (later : ∀ u ∈ after, ∀ b, ¬ R u b) : LastOf R default ts a
  | none (absent : ∀ u ∈ ts, ∀ b, ¬ R u b) : LastOf R default ts default

theorem LastOf.congr (same : ∀ t ∈ ts, ∀ a, R t a ↔ R' t a) (lastOf : LastOf R default ts a) :
    LastOf R' default ts a := by
  cases lastOf with
  | @last before t after a split here later =>
      subst split
      refine .last rfl ((same t (by simp) a).1 here) fun u member b gives => ?_
      exact later u member b ((same u (by simp [member]) b).2 gives)
  | none absent => exact .none fun u member b gives => absent u member b ((same u member b).2 gives)

theorem lastOf_singleton (lastOf : LastOf R default [t] a) :
    R t a ∨ (∀ b, ¬ R t b) ∧ a = default := by
  cases lastOf with
  | @last before t' after a split here =>
      obtain rfl : t' = t :=
        List.mem_singleton.1 (split ▸ List.mem_append_right before List.mem_cons_self)
      exact .inl here
  | none absent => exact .inr ⟨absent t List.mem_cons_self, rfl⟩

theorem eq_of_update_eq (same : ∀ s : Switch, s.update u = s.update u') : u = u' := by
  -- A setting of defaults and one without any tell all updates apart.
  have plain := same {}
  have other := same { active := .b, ron := "", roff := some "", showRon := true, showRoff := true }
  cases u <;> cases u' <;> simp_all [update]

theorem Sets.unique (sets : Sets t u) (sets' : Sets t u') : u = u' := by
  refine eq_of_update_eq fun s => ?_
  have applied : s.apply t = .ok (s.update u) := apply_eq_ok_iff.2 ⟨u, sets, rfl⟩
  exact Except.ok.inj (applied.symm.trans (apply_eq_ok_iff.2 ⟨u', sets', rfl⟩))

/-- If every update gives a field a new value or leaves it, the last token that gives one decides. -/
theorem lastOf_foldl_update (field : Switch → α) (given? : Update → Option α)
    (step : ∀ s u, field (s.update u) = (given? u).getD (field s))
    (all : List.Forall₂ Sets ts us) (s : Switch) :
    LastOf (fun t a => ∃ u, Sets t u ∧ given? u = some a) (field s) ts
      (field (us.foldl update s)) := by
  induction all generalizing s with
  | nil => exact .none nofun
  | @cons t u ts us sets _ ih =>
      rw [List.foldl_cons]
      have rest := ih (s.update u)
      generalize field (us.foldl update (s.update u)) = result at rest
      cases rest with
      | @last before t' after a split here later =>
          subst split
          exact .last List.cons_append.symm here later
      | none absent =>
          rw [step]
          cases gives : given? u with
          | some a => exact .last (List.nil_append _).symm ⟨u, sets, gives⟩ absent
          | none =>
              refine .none (List.forall_mem_cons.2 ⟨?_, absent⟩)
              rintro b ⟨u', sets', gives'⟩
              rw [sets'.unique sets, gives] at gives'
              cases gives'

inductive Picks (t : String) : Throw → Prop
  | a (word : Text.lower t = "a") : Picks t .a
  | b (word : Text.lower t = "b") : Picks t .b

/-- Whether a token shows a resistance (`true`) or hides it, as a word or as an assignment. -/
inductive Shows (name t : String) (b : Bool) : Prop
  | word (spelled : Text.lower t = (if b then "show" else "hide") ++ name)
  | assigned {w} (assigns : IsAssignment ("show" ++ name) t w)
      (truth : flag? (Text.lower w) = some b)

theorem not_isLong_of_word (named : u.word? = some (Text.lower t)) : ¬ IsLong t := by
  intro long
  obtain ⟨cs, chars⟩ := List.head?_eq_some_iff.1 long
  have letter : Text.lowerLetter 'ſ' = 'ſ' := by decide +kernel
  have head : (Text.lower t).toList.head? = some 'ſ' := by
    rw [Text.lower, String.toList_ofList, Text.lowerChars, chars, Text.lowerFrom,
      Text.lowerChar_eq_singleton (by rw [letter]; decide) (by rw [letter]; decide), letter]
    rfl
  have short : ∀ word ∈ words, word.toList.head? ≠ some 'ſ' := by decide
  exact short _ (mem_words_iff.2 ⟨u, named⟩) head

namespace Update

def active? : Update → Option Throw
  | active x => some x
  | _ => none

def ron? : Update → Option String
  | ron r => some r
  | _ => none

def roff? : Update → Option (Option String)
  | roff r => some (some r)
  | _ => none

def showRon? : Update → Option Bool
  | showRon b => some b
  | _ => none

def showRoff? : Update → Option Bool
  | showRoff b => some b
  | _ => none

end Update

theorem sets_active_iff {x : Throw} : (∃ u, Sets t u ∧ u.active? = some x) ↔ Picks t x := by
  constructor
  · rintro ⟨u, sets, gives⟩
    cases sets with
    | word named =>
        cases u with
        | active y =>
            obtain rfl := Option.some.inj gives
            cases y with
            | a => exact .a (Option.some.inj named).symm
            | b => exact .b (Option.some.inj named).symm
        | _ => cases gives
    | _ => cases gives
  · rintro (word | word)
    · exact ⟨.active .a, .word (congrArg some word.symm), rfl⟩
    · exact ⟨.active .b, .word (congrArg some word.symm), rfl⟩

theorem sets_ron_iff {r : String} (accepted : ∃ u, Sets t u) :
    (∃ u, Sets t u ∧ u.ron? = some r) ↔ IsAssignment "ron" t r := by
  constructor
  · rintro ⟨u, sets, gives⟩
    cases sets with
    | word named =>
        cases u with
        | ron => cases named
        | _ => cases gives
    | ron assigns => exact Option.some.inj gives ▸ assigns
    | _ => cases gives
  · intro assigns
    obtain ⟨u, sets⟩ := accepted
    have applied : apply {} t = .ok (update {} u) := apply_eq_ok_iff.2 ⟨u, sets, rfl⟩
    exact ⟨.ron r, .ron assigns ((apply_ron_iff assigns).1 applied).1, rfl⟩

theorem sets_roff_iff {o : Option String} (accepted : ∃ u, Sets t u) :
    (∃ u, Sets t u ∧ u.roff? = some o) ↔ ∃ r, IsAssignment "roff" t r ∧ o = some r := by
  constructor
  · rintro ⟨u, sets, gives⟩
    cases sets with
    | word named =>
        cases u with
        | roff => cases named
        | _ => cases gives
    | roff assigns => exact ⟨_, assigns, (Option.some.inj gives).symm⟩
    | _ => cases gives
  · rintro ⟨r, assigns, rfl⟩
    obtain ⟨u, sets⟩ := accepted
    have applied : apply {} t = .ok (update {} u) := apply_eq_ok_iff.2 ⟨u, sets, rfl⟩
    exact ⟨.roff r, .roff assigns ((apply_roff_iff assigns).1 applied).1, rfl⟩

theorem word?_showRon_iff {b : Bool} {word : String} :
    (Update.showRon b).word? = some word ↔ word = (if b then "show" else "hide") ++ "ron" := by
  cases b <;> exact Option.some_inj.trans eq_comm

theorem word?_showRoff_iff {b : Bool} {word : String} :
    (Update.showRoff b).word? = some word ↔ word = (if b then "show" else "hide") ++ "roff" := by
  cases b <;> exact Option.some_inj.trans eq_comm

theorem sets_showRon_iff {b : Bool} :
    (∃ u, Sets t u ∧ u.showRon? = some b) ↔ Shows "ron" t b ∧ ¬ IsLong t := by
  constructor
  · rintro ⟨u, sets, gives⟩
    cases sets with
    | word named =>
        cases u with
        | showRon c =>
            obtain rfl := Option.some.inj gives
            exact ⟨.word (word?_showRon_iff.1 named), not_isLong_of_word named⟩
        | _ => cases gives
    | showRon assigns short truth =>
        cases gives
        exact ⟨.assigned assigns truth, short⟩
    | _ => cases gives
  · rintro ⟨spelled | ⟨assigns, truth⟩, short⟩
    · exact ⟨.showRon b, .word (word?_showRon_iff.2 spelled), rfl⟩
    · exact ⟨.showRon b, .showRon assigns short truth, rfl⟩

theorem Shows.not_isLong {b : Bool} (shows : Shows "ron" t b)
    (short : ∀ w, IsAssignment "showron" t w → ¬ IsLong t) : ¬ IsLong t := by
  cases shows with
  | word spelled => exact not_isLong_of_word (word?_showRon_iff.2 spelled)
  | assigned assigns => exact short _ assigns

theorem sets_showRoff_iff {b : Bool} :
    (∃ u, Sets t u ∧ u.showRoff? = some b) ↔ Shows "roff" t b ∨ Shows "ron" t b ∧ IsLong t := by
  constructor
  · rintro ⟨u, sets, gives⟩
    cases sets with
    | word named =>
        cases u with
        | showRoff c =>
            obtain rfl := Option.some.inj gives
            exact .inl (.word (word?_showRoff_iff.1 named))
        | _ => cases gives
    | longShowRon assigns long truth =>
        cases gives
        exact .inr ⟨.assigned assigns truth, long⟩
    | showRoff assigns truth =>
        cases gives
        exact .inl (.assigned assigns truth)
    | _ => cases gives
  · rintro ((spelled | ⟨assigns, truth⟩) | ⟨spelled | ⟨assigns, truth⟩, long⟩)
    · exact ⟨.showRoff b, .word (word?_showRoff_iff.2 spelled), rfl⟩
    · exact ⟨.showRoff b, .showRoff assigns truth, rfl⟩
    · exact absurd long (not_isLong_of_word (word?_showRon_iff.2 spelled))
    · exact ⟨.showRoff b, .longShowRon assigns long truth, rfl⟩

/-- What each field of a setting owes to the tokens it is read from. -/
structure IsDecidedBy (s : Switch) (ts : List String) : Prop where
  active : LastOf Picks .a ts s.active
  ron : LastOf (IsAssignment "ron") "0" ts s.ron
  roff : LastOf (fun t o => ∃ r, IsAssignment "roff" t r ∧ o = some r) none ts s.roff
  showRon : LastOf (fun t b => Shows "ron" t b ∧ ¬ IsLong t) false ts s.showRon
  showRoff : LastOf (fun t b => Shows "roff" t b ∨ Shows "ron" t b ∧ IsLong t) false ts s.showRoff

theorem isDecidedBy_of_parse (read : parse v = .ok s) : s.IsDecidedBy (tokens v) := by
  obtain ⟨us, all, rfl⟩ := parse_eq_ok_iff.1 read
  have accepted := exists_forall₂_iff.1 ⟨us, all⟩
  refine ⟨?_, ?_, ?_, ?_, ?_⟩
  · refine (lastOf_foldl_update active Update.active? ?_ all {}).congr fun t _ x => sets_active_iff
    rintro s (_ | _ | _ | _ | _) <;> rfl
  · refine (lastOf_foldl_update ron Update.ron? ?_ all {}).congr
      fun t member r => sets_ron_iff (accepted t member)
    rintro s (_ | _ | _ | _ | _) <;> rfl
  · refine (lastOf_foldl_update roff Update.roff? ?_ all {}).congr
      fun t member o => sets_roff_iff (accepted t member)
    rintro s (_ | _ | _ | _ | _) <;> rfl
  · refine (lastOf_foldl_update showRon Update.showRon? ?_ all {}).congr
      fun t _ b => sets_showRon_iff
    rintro s (_ | _ | _ | _ | _) <;> rfl
  · refine (lastOf_foldl_update showRoff Update.showRoff? ?_ all {}).congr
      fun t _ b => sets_showRoff_iff
    rintro s (_ | _ | _ | _ | _) <;> rfl

/-- Every field of a setting is decided by the last of the tokens that set it. What an assignment to
`showron` shows is the other resistance if its name is spelled with a long s. If none is, the two
resistances are shown or hidden by the tokens that name them. -/
theorem parse_lastOf (read : parse v = .ok s) :
    s.IsDecidedBy (tokens v) ∧
      ((∀ t ∈ tokens v, ∀ w, IsAssignment "showron" t w → ¬ IsLong t) →
        LastOf (Shows "ron") false (tokens v) s.showRon ∧
          LastOf (Shows "roff") false (tokens v) s.showRoff) := by
  have decided := isDecidedBy_of_parse read
  refine ⟨decided, fun short => ?_⟩
  have plain (t) (member : t ∈ tokens v) (b) (shows : Shows "ron" t b) : ¬ IsLong t :=
    shows.not_isLong (short t member)
  refine ⟨decided.showRon.congr fun t member b => ?_, decided.showRoff.congr fun t member b => ?_⟩
  · exact and_iff_left_of_imp (plain t member b)
  · exact or_iff_left fun other => plain t member b other.1 other.2

theorem parse_lastOf_mixedCase :
    ∃ s, parse (.text "RON=5;showRON=No ron=7,showroff b") = .ok s ∧
      s.IsDecidedBy (tokens (.text "RON=5;showRON=No ron=7,showroff b")) ∧
        LastOf (Shows "ron") false (tokens (.text "RON=5;showRON=No ron=7,showroff b")) s.showRon ∧
          LastOf (Shows "roff") false (tokens (.text "RON=5;showRON=No ron=7,showroff b"))
            s.showRoff := by
  have read : parse (.text "RON=5;showRON=No ron=7,showroff b") =
      .ok { active := .b, ron := "7", showRoff := true } := by decide +kernel
  have short : ∀ t ∈ tokens (.text "RON=5;showRON=No ron=7,showroff b"), ¬ IsLong t := by
    decide +kernel
  obtain ⟨decided, shown⟩ := parse_lastOf read
  exact ⟨_, read, decided, shown fun t member _ _ => short t member⟩

/-- An assignment to `showron` that is spelled with a long s is accepted, and shows the other
resistance. -/
theorem not_lastOf_longS :
    ∃ s, parse (.text "ſhowron=1") = .ok s ∧
      ¬ LastOf (Shows "ron") false (tokens (.text "ſhowron=1")) s.showRon ∧
        ¬ LastOf (Shows "roff") false (tokens (.text "ſhowron=1")) s.showRoff := by
  have read : parse (.text "ſhowron=1") = .ok { showRoff := true } := by decide +kernel
  have only : tokens (.text "ſhowron=1") = ["ſhowron=1"] := by decide +kernel
  have long : IsLong "ſhowron=1" := by decide +kernel
  have assigns : IsAssignment "showron" "ſhowron=1" "1" := ⟨"ſhowron", rfl, by decide +kernel⟩
  have truth : flag? (Text.lower "1") = some true := by decide +kernel
  refine ⟨_, read, ?_, ?_⟩
  all_goals rw [only]
  · intro lastOf
    rcases lastOf_singleton lastOf with hidden | ⟨absent, _⟩
    · obtain ⟨u, sets, gives⟩ := sets_showRoff_iff.2 (.inr ⟨hidden, long⟩)
      rw [sets.unique (.longShowRon assigns long truth)] at gives
      cases gives
    · exact absent true (.assigned assigns truth)
  · intro lastOf
    rcases lastOf_singleton lastOf with (word | ⟨⟨spelled, divided, same⟩, _⟩) | ⟨_, shown⟩
    · exact absurd word (by decide +kernel)
    · have found := assignment?_eq_some_iff.2 ⟨divided, "showroff", by decide, same⟩
      have name : assignment? "ſhowron=1" = some ("ſhowron", "1") := by decide +kernel
      obtain ⟨rfl, rfl⟩ := Prod.mk.inj (Option.some.inj (name.symm.trans found))
      exact absurd same (by decide +kernel)
    · cases shown

end Schematic.Switch
