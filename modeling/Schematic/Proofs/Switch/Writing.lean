import Schematic.Proofs.Switch.Tokens
/-!
Writing a switch setting and reading it back. A setting can be read from some value just when its
resistances can stand in a token, and then it can be read from what is written for it.
-/

namespace Schematic.Switch

variable {s : Switch} {v : Value}

def IsUnseparated (r : String) : Prop :=
  ∀ c ∈ r.toList, isSeparator c = false

instance (r : String) : Decidable (IsUnseparated r) :=
  decidable_of_iff ((r.toList.all fun c => !isSeparator c) = true) (by simp [IsUnseparated])

/-- Whether a text can stand in a token: it is not empty, and nothing in it separates tokens. -/
structure IsWhole (r : String) : Prop where
  given : r ≠ ""
  unseparated : IsUnseparated r

instance (r : String) : Decidable (IsWhole r) :=
  decidable_of_iff (r ≠ "" ∧ IsUnseparated r)
    ⟨fun h => ⟨h.1, h.2⟩, fun h => ⟨h.given, h.unseparated⟩⟩

theorem isWhole_of_mem_tokens {token : String} (member : token ∈ tokens v) : IsWhole token := by
  obtain ⟨r, run, rfl⟩ := List.mem_map.1 member
  obtain ⟨some, whole⟩ := Text.mem_runs run
  refine ⟨fun none => some ?_, by rwa [IsUnseparated, String.toList_ofList]⟩
  rw [← String.toList_ofList (l := r), none]
  rfl

theorem IsWhole.append {a b : String} (unseparated : IsUnseparated a) (whole : IsWhole b) :
    IsWhole (a ++ b) := by
  refine ⟨fun none => whole.given (String.append_eq_empty_iff.1 none).2, fun c member => ?_⟩
  rw [String.toList_append] at member
  exact (List.mem_append.1 member).elim (unseparated c) (whole.unseparated c)

theorem gives_isWhole_of_parse (read : parse v = .ok s) : s.Gives IsWhole := by
  refine gives_of_parse (by decide +kernel) ?_ read
  intro token member name value divided given
  refine ⟨given, fun c inside => ?_⟩
  exact (isWhole_of_mem_tokens member).unseparated c (subset_of_assignment? divided inside)

/-- The tokens of a setting, with what each of them sets. What is the default is left out. -/
def canonical (s : Switch) : List (String × Update) :=
  [(s.active.letter, .active s.active)]
    ++ (if s.ron = "0" then [] else [("ron=" ++ s.ron, .ron s.ron)])
    ++ (s.roff.map fun r => ("roff=" ++ r, Update.roff r)).toList
    ++ (if s.showRon then [("showron", .showRon true)] else [])
    ++ (if s.showRoff then [("showroff", .showRoff true)] else [])

theorem write_eq (s : Switch) : s.write = " ".intercalate (s.canonical.map (·.1)) := by
  obtain ⟨active, ron, roff, showRon, showRoff⟩ := s
  unfold write join canonical
  congr 1
  by_cases short : ron = "0" <;> cases roff <;> cases showRon <;> cases showRoff <;> simp [short]

theorem foldl_canonical (s : Switch) : (s.canonical.map (·.2)).foldl update {} = s := by
  obtain ⟨active, ron, roff, showRon, showRoff⟩ := s
  unfold canonical
  by_cases short : ron = "0" <;> cases roff <;> cases showRon <;> cases showRoff <;>
    simp [short, update]

theorem isAssignment_ron (r : String) : IsAssignment "ron" ("ron=" ++ r) r :=
  ⟨"ron", congrArg (· ++ r) (by decide), by decide +kernel⟩

theorem isAssignment_roff (r : String) : IsAssignment "roff" ("roff=" ++ r) r :=
  ⟨"roff", congrArg (· ++ r) (by decide), by decide +kernel⟩

theorem forall_canonical (gives : s.Gives IsWhole) :
    ∀ e ∈ s.canonical, IsWhole e.1 ∧ Sets e.1 e.2 := by
  intro e member
  simp only [canonical, List.mem_append] at member
  rcases member with (((active | ron) | roff) | showRon) | showRoff
  · obtain rfl := List.mem_singleton.1 active
    have letter : IsWhole s.active.letter ∧
        (Update.active s.active).word? = some (Text.lower s.active.letter) := by
      cases s.active <;> decide +kernel
    exact ⟨letter.1, .word letter.2⟩
  · split at ron
    next => cases ron
    next =>
      obtain rfl := List.mem_singleton.1 ron
      exact ⟨.append (by decide) gives.ron, .ron (isAssignment_ron s.ron) gives.ron.given⟩
  · obtain ⟨r, given, rfl⟩ := Option.map_eq_some_iff.1 (Option.mem_toList.1 roff)
    have whole := gives.roff r given
    exact ⟨.append (by decide) whole, .roff (isAssignment_roff r) whole.given⟩
  · split at showRon
    next =>
      obtain rfl := List.mem_singleton.1 showRon
      exact ⟨by decide +kernel, .word (by decide +kernel)⟩
    next => cases showRon
  · split at showRoff
    next =>
      obtain rfl := List.mem_singleton.1 showRoff
      exact ⟨by decide +kernel, .word (by decide +kernel)⟩
    next => cases showRoff

theorem tokens_unwords {ws : List String} (each : ∀ w ∈ ws, IsWhole w) :
    tokens (.text (" ".intercalate ws)) = ws := by
  have chars : (" ".intercalate ws).toList = [' '].intercalate (ws.map String.toList) := by
    simp
  have pieces : ∀ cs ∈ ws.map String.toList, cs ≠ [] ∧ ∀ c ∈ cs, isSeparator c = false := by
    intro cs member
    obtain ⟨w, listed, rfl⟩ := List.mem_map.1 member
    obtain ⟨given, unseparated⟩ := each w listed
    exact ⟨fun none => given (String.toList_eq_nil_iff.1 none), unseparated⟩
  rw [tokens, Value.content_text, chars, Text.runs_intercalate (by decide) pieces, List.map_map]
  simp [Function.comp_def]

theorem parse_write_of_gives (gives : s.Gives IsWhole) : parse (.text s.write) = .ok s := by
  have tokens : tokens (.text s.write) = s.canonical.map (·.1) := by
    rw [write_eq]
    refine tokens_unwords fun w member => ?_
    obtain ⟨e, listed, rfl⟩ := List.mem_map.1 member
    exact (forall_canonical gives e listed).1
  refine parse_eq_ok_iff.2 ⟨s.canonical.map (·.2), ?_, (foldl_canonical s).symm⟩
  rw [tokens, List.forall₂_map_left_iff, List.forall₂_map_right_iff, List.forall₂_same]
  exact fun e listed => (forall_canonical gives e listed).2

/-- What is written for a setting that was read gives that setting again, and so is its canonical
form: values that can be read are written alike just when they are read alike. -/
theorem parse_write (read : parse v = .ok s) :
    parse (.text s.write) = .ok s ∧
      ∀ w t, parse w = .ok t → (s.write = t.write ↔ s = t) := by
  have back := parse_write_of_gives (gives_isWhole_of_parse read)
  refine ⟨back, fun w t other => ⟨fun same => ?_, fun same => same ▸ rfl⟩⟩
  have back' := parse_write_of_gives (gives_isWhole_of_parse other)
  rw [← same, back] at back'
  exact Except.ok.inj back'

theorem parse_write_repeatedSigns :
    parse (.text "b ROFF=ron=Ω,ron==A;hideroff ſhowroff=On") =
        .ok { active := .b, ron := "=A", roff := some "ron=Ω", showRoff := true } ∧
      parse (.text "B ron==A roff=ron=Ω showroff") =
        .ok { active := .b, ron := "=A", roff := some "ron=Ω", showRoff := true } ∧
      ∀ w t, parse w = .ok t → ("B ron==A roff=ron=Ω showroff" = t.write ↔
        { active := .b, ron := "=A", roff := some "ron=Ω", showRoff := true } = t) := by
  have read : parse (.text "b ROFF=ron=Ω,ron==A;hideroff ſhowroff=On") =
      .ok { active := .b, ron := "=A", roff := some "ron=Ω", showRoff := true } := by
    decide +kernel
  have written : write { active := .b, ron := "=A", roff := some "ron=Ω", showRoff := true } =
      "B ron==A roff=ron=Ω showroff" := by
    decide +kernel
  obtain ⟨back, canonical⟩ := parse_write read
  rw [written] at back
  simp only [written] at canonical
  exact ⟨read, back, canonical⟩

end Schematic.Switch
