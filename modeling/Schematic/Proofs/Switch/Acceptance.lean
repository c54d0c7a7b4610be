import Schematic.Proofs.Switch.Tokens
/-!
Which switch values can be read: those of which every token is well formed, in whatever order the
tokens come and whatever separates them.
-/

namespace Schematic.Switch

variable {token t : String} {ts : List String} {v : Value}

inductive IsGood (token : String) : Prop
  | word (listed : Text.lower token ∈ ["a", "b", "showron", "hideron", "showroff", "hideroff"])
  | resistance {name r : String} (named : name = "ron" ∨ name = "roff")
      (assigns : IsAssignment name token r) (given : r ≠ "")
  | display {name w : String} (named : name = "showron" ∨ name = "showroff")
      (assigns : IsAssignment name token w)
      (truth : Text.lower w ∈ ["1", "true", "on", "yes", "0", "false", "off", "no"])

theorem exists_flag?_iff {word : String} :
    (∃ b, flag? word = some b) ↔
      word ∈ ["1", "true", "on", "yes", "0", "false", "off", "no"] := by
  rw [show ["1", "true", "on", "yes", "0", "false", "off", "no"] =
    ["1", "true", "on", "yes"] ++ ["0", "false", "off", "no"] from rfl, List.mem_append]
  unfold flag?
  split
  next yes => exact iff_of_true ⟨true, rfl⟩ (.inl yes)
  next notYes =>
    split
    next no => exact iff_of_true ⟨false, rfl⟩ (.inr no)
    next notNo => exact iff_of_false nofun (not_or.2 ⟨notYes, notNo⟩)

theorem isGood_iff : IsGood token ↔ ∃ u, Sets token u := by
  constructor
  · rintro (listed | ⟨rfl | rfl, assigns, given⟩ | ⟨rfl | rfl, assigns, truth⟩)
    · obtain ⟨u, named⟩ := mem_words_iff.1 listed
      exact ⟨u, .word named⟩
    · exact ⟨_, .ron assigns given⟩
    · exact ⟨_, .roff assigns given⟩
    · obtain ⟨b, truth⟩ := exists_flag?_iff.2 truth
      by_cases long : IsLong token
      · exact ⟨_, .longShowRon assigns long truth⟩
      · exact ⟨_, .showRon assigns long truth⟩
    · obtain ⟨b, truth⟩ := exists_flag?_iff.2 truth
      exact ⟨_, .showRoff assigns truth⟩
  · rintro ⟨u, sets⟩
    cases sets with
    | word named => exact .word (mem_words_iff.2 ⟨u, named⟩)
    | ron assigns given => exact .resistance (.inl rfl) assigns given
    | roff assigns given => exact .resistance (.inr rfl) assigns given
    | showRon assigns _ truth => exact .display (.inl rfl) assigns (exists_flag?_iff.1 ⟨_, truth⟩)
    | longShowRon assigns _ truth =>
        exact .display (.inl rfl) assigns (exists_flag?_iff.1 ⟨_, truth⟩)
    | showRoff assigns truth => exact .display (.inr rfl) assigns (exists_flag?_iff.1 ⟨_, truth⟩)

/-- A maximal run of characters of a value that do not separate. -/
def IsToken (v : Value) (t : String) : Prop :=
  Text.IsRun isSeparator t.toList v.content.toList

/-- Whether a value consists of tokens in order, with separators around and between them. -/
def IsMadeOf (v : Value) (ts : List String) : Prop :=
  Text.Renders isSeparator (ts.map String.toList) v.content.toList

theorem tokens_eq_iff : tokens v = ts ↔ IsMadeOf v ts := by
  rw [IsMadeOf, ← Text.runs_eq_iff, tokens]
  constructor
  · rintro rfl
    simp [Function.comp_def]
  · intro runs
    rw [runs]
    simp [Function.comp_def]

theorem mem_tokens_iff : t ∈ tokens v ↔ IsToken v t := by
  rw [IsToken, ← Text.mem_runs_iff, tokens, List.mem_map]
  constructor
  · rintro ⟨r, run, rfl⟩
    rwa [String.toList_ofList]
  · exact fun run => ⟨t.toList, run, String.ofList_toList⟩

theorem exists_parse_iff : (∃ s, parse v = .ok s) ↔ ∀ t ∈ tokens v, IsGood t := by
  simp only [isGood_iff, ← exists_forall₂_iff, parse_eq_ok_iff]
  constructor
  · rintro ⟨s, us, all, _⟩
    exact ⟨us, all⟩
  · rintro ⟨us, all⟩
    exact ⟨_, us, all, rfl⟩

theorem exists_error_iff : (∃ e, parse v = .error e) ↔ ¬ ∃ s, parse v = .ok s := by
  cases parse v with
  | error e => exact iff_of_true ⟨e, rfl⟩ nofun
  | ok s => exact iff_of_false nofun fun none => none ⟨s, rfl⟩

/-- A value is rejected just when one of its tokens is not well formed, so that neither the order of
the tokens nor what separates them matters. -/
theorem parse_rejects_iff (v : Value) :
    ((∃ e, parse v = .error e) ↔ ∃ t, IsToken v t ∧ ¬ IsGood t) ∧
      ∀ {w ts us}, IsMadeOf v ts → IsMadeOf w us → us.Perm ts →
        ((∃ e, parse w = .error e) ↔ ∃ e, parse v = .error e) := by
  constructor
  · rw [exists_error_iff, exists_parse_iff]
    push Not
    simp only [mem_tokens_iff]
  · intro w ts us madeV madeW same
    rw [exists_error_iff, exists_error_iff, exists_parse_iff, exists_parse_iff,
      tokens_eq_iff.2 madeV, tokens_eq_iff.2 madeW]
    simp only [same.mem_iff]

theorem parse_rejects_iff_strayWord :
    IsMadeOf (.text "ſhowRon=YES;x") ["ſhowRon=YES", "x"] ∧
      IsMadeOf (.text " x,\tſhowRon=YES ") ["x", "ſhowRon=YES"] ∧
      (∃ t, IsToken (.text "ſhowRon=YES;x") t ∧ ¬ IsGood t) ∧
      ((∃ e, parse (.text " x,\tſhowRon=YES ") = .error e) ↔
        ∃ e, parse (.text "ſhowRon=YES;x") = .error e) := by
  have made : IsMadeOf (.text "ſhowRon=YES;x") ["ſhowRon=YES", "x"] :=
    tokens_eq_iff.1 (by decide +kernel)
  have reordered : IsMadeOf (.text " x,\tſhowRon=YES ") ["x", "ſhowRon=YES"] :=
    tokens_eq_iff.1 (by decide +kernel)
  have rejected : parse (.text "ſhowRon=YES;x") = .error (.unknown "x") := by decide +kernel
  obtain ⟨rejects, independent⟩ := parse_rejects_iff (.text "ſhowRon=YES;x")
  exact ⟨made, reordered, rejects.1 ⟨_, rejected⟩, independent made reordered (.swap _ _ _)⟩

end Schematic.Switch
