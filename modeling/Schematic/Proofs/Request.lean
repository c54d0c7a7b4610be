import Schematic.Proofs.Analysis.Directives
import Schematic.Proofs.Faithfulness
import Schematic.Proofs.Netlist.Insertion
import Schematic.Proofs.Text.Pieces
import Schematic.Session
/-!
Requests to a simulator: when one is refused and why, and that the netlist of a drawing stands in it
line by line, with the directives ahead of its end line.
-/

namespace Schematic

namespace Analysis

variable {kind : Kind} {config : Config} {fallback : List String}

def complaints (kind : Kind) (config : Config) (fallback : List String) : List String :=
  match directives kind config fallback with
  | .ok _ => []
  | .error missing => missing.map Error.message

theorem directives_ne_error_nil : directives kind config fallback ≠ .error [] := by
  unfold directives
  split
  next => nofun
  next some => exact fun none => some (Except.error.inj none)

theorem complaints_eq_nil_iff :
    complaints kind config fallback = [] ↔ ∃ lines, directives kind config fallback = .ok lines := by
  unfold complaints
  cases asked : directives kind config fallback with
  | ok lines => exact iff_of_true rfl ⟨lines, rfl⟩
  | error missing =>
      refine iff_of_false (fun silent => ?_) nofun
      rw [List.map_eq_nil_iff.1 silent] at asked
      exact directives_ne_error_nil asked

/-- What is built for an analysis are its directives, or the messages about it. -/
theorem lines_and_errors_of_build (kind : Kind) (config : Config) (signals : List String) :
    let draft := Draft.build (.text kind.name) (.config config) (.list (signals.map .text))
    draft.errors = complaints kind config signals ∧
      ∀ asked, directives kind config signals = .ok asked → draft.lines = asked := by
  intro draft
  have built : draft = .ofResult (directives kind config signals) :=
    Draft.build_signals kind config signals
  rw [built, complaints]
  cases directives kind config signals with
  | ok lines => exact ⟨rfl, fun asked same => Except.ok.inj same⟩
  | error missing => exact ⟨rfl, nofun⟩

end Analysis

namespace Netlist

/-- What stands before the last line is not searched for the end. -/
theorem insertDirectives_of_lines {text l : String} {ls : List String}
    (lines : Text.lines text = ls ++ [l]) (ends : isEndLine l = true) (directives : List String) :
    insertDirectives text directives = Text.joinLines (ls ++ directives ++ [l]) := by
  have given : text ≠ "" := by
    rintro rfl
    have single : [""] = ls ++ [l] := lines
    have last := congrArg List.getLast? single
    rw [List.getLast?_concat] at last
    exact ne_empty_of_isEndLine ends (Option.some.inj last).symm
  rw [insertDirectives, if_neg given, lines, insertLines,
    divide?_append ends (List.forall_mem_nil _) ls]

variable {n : Netlist}

theorem lines_text (given : n.lines ≠ []) :
    Text.lines n.text = n.lines.flatMap fun l => Text.lines l.text := by
  have texts : n.lines.map Line.text ≠ [] := by simpa using given
  rw [text, Text.lines_joinLines texts, List.flatMap_map]

theorem lines_text_push (n : Netlist) (l : Line) :
    Text.lines (n.push l).text =
      (n.lines.flatMap fun l => Text.lines l.text) ++ Text.lines l.text := by
  rw [lines_text (by simp), lines_push, List.flatMap_append, List.flatMap_singleton]

theorem dropLast_lineMap_push (n : Netlist) (l : Line) :
    (n.push l).lineMap.dropLast = n.lineMap := by
  rw [lineMap_push, List.dropLast_concat]

/-- Where every line is one line of the text, it has there the number that the line map gives. -/
theorem getElem?_flatMap_lines (single : ∀ line ∈ n.lines, Text.IsOneLine line.text)
    {e : Nat × Line} (mapped : e ∈ n.lineMap) :
    (n.lines.flatMap fun l => Text.lines l.text)[e.1 - 1]? = some e.2.text := by
  rw [n.numbered] at mapped
  obtain ⟨i, below, rfl⟩ := List.mem_mapIdx.1 mapped
  rw [← List.flatMap_map, Text.flatMap_lines_of_forall (List.forall_mem_map.2 single),
    List.getElem?_map, Nat.add_sub_cancel, List.getElem?_eq_getElem below]
  rfl

end Netlist

namespace Drawing

variable {d : Drawing} {title : String} {c : Compilation}

theorem CompilesTo.exists_push_footer (compiles : d.CompilesTo title c) :
    ∃ n : Netlist, c.netlist = n.push Netlist.footer := by
  obtain ⟨n, _, whole⟩ := Netlist.ofComponents_eq_ok.1 compiles.netlist
  exact ⟨n, whole.symm⟩

end Drawing

namespace Request

variable {kind : Analysis.Kind} {config : Analysis.Config} {c : Compilation}

theorem outcome_of_nil (noErrors : c.errors = [])
    (silent : Analysis.complaints kind config c.signals = []) :
    ∃ directives, Analysis.directives kind config c.signals = .ok directives ∧
      (ofCompilation kind config c).outcome = .ok directives := by
  obtain ⟨directives, asked⟩ := Analysis.complaints_eq_nil_iff.1 silent
  refine ⟨directives, asked, ?_⟩
  unfold ofCompilation
  simp only [asked, noErrors]
  rfl

/-- All errors are reported, those of the compilation first. -/
theorem outcome_of_ne_nil (some : c.errors ++ Analysis.complaints kind config c.signals ≠ []) :
    (ofCompilation kind config c).outcome =
      .error (c.errors ++ Analysis.complaints kind config c.signals) := by
  unfold ofCompilation
  unfold Analysis.complaints at some ⊢
  cases asked : Analysis.directives kind config c.signals with
  | ok directives =>
      simp only [asked, List.append_nil] at some ⊢
      exact if_neg fun none => some (List.isEmpty_iff.1 none)
  | error missing => rfl

theorem success_ofCompilation_iff :
    (ofCompilation kind config c).success = true ↔
      c.errors = [] ∧ Analysis.complaints kind config c.signals = [] := by
  constructor
  · intro succeeds
    refine List.append_eq_nil_iff.1 (by_contra fun some => ?_)
    rw [success, outcome_of_ne_nil some] at succeeds
    cases succeeds
  · rintro ⟨noErrors, silent⟩
    obtain ⟨asked, _, granted⟩ := outcome_of_nil noErrors silent
    rw [success, granted]
    rfl

structure IsRefused (r : Request) (errors : List String) : Prop where
  netlist : r.netlist = ""
  directives : r.directives = []
  errors : r.errors = errors

/-- Whether a request has the lines of its compilation, at their numbers, up to the end line, and
directives in front of that. -/
structure IsGranted (r : Request) (asked : List String) : Prop where
  errors : r.errors = []
  directives : r.directives = asked
  netlist : ∃ before, Text.lines r.compilation.text = before ++ [".end"] ∧
    r.netlist = Text.joinLines (before ++ asked ++ [".end"]) ∧
    Text.lines r.netlist = before ++ asked.flatMap Text.lines ++ [".end"]
  mapped : (∀ line ∈ r.compilation.netlist.lines, Text.IsOneLine line.text) →
    ∀ l ∈ r.compilation.netlist.lineMap.dropLast,
      (Text.lines r.netlist)[l.1 - 1]? = some l.2.text

variable {r : Request}

theorem isGranted_of_footer {n : Netlist} (ends : r.compilation.netlist = n.push Netlist.footer)
    {asked : List String} (granted : r.outcome = .ok asked) : r.IsGranted asked := by
  let before := n.lines.flatMap fun l => Text.lines l.text
  have compiled : Text.lines r.compilation.text = before ++ [".end"] := by
    rw [Compilation.text, ends, Netlist.lines_text_push]
    rfl
  have inserted : r.netlist = Text.joinLines (before ++ asked ++ [".end"]) := by
    rw [netlist, granted]
    exact Netlist.insertDirectives_of_lines compiled (by decide +kernel) asked
  -- What stands in front are lines already.
  have kept : before.flatMap Text.lines = before := by
    refine Text.flatMap_lines_of_forall fun t member => ?_
    obtain ⟨line, _, inLine⟩ := List.mem_flatMap.1 member
    exact Text.isOneLine_of_mem_lines inLine
  have whole : Text.lines r.netlist = before ++ asked.flatMap Text.lines ++ [".end"] := by
    rw [inserted, Text.lines_joinLines (by simp), List.flatMap_append, List.flatMap_append, kept]
    rfl
  refine ⟨by rw [errors, granted], by rw [directives, granted], ⟨before, compiled, inserted, whole⟩,
    fun single l mapped => ?_⟩
  rw [ends, Netlist.dropLast_lineMap_push] at mapped
  rw [ends] at single
  have found := Netlist.getElem?_flatMap_lines
    (fun line member => single line (List.mem_append_left _ member)) mapped
  obtain ⟨below, _⟩ := List.getElem?_eq_some_iff.1 found
  rw [whole, List.append_assoc, List.getElem?_append_left below]
  exact found

theorem exists_isGranted {n : Netlist} (ends : c.netlist = n.push Netlist.footer)
    (succeeds : (ofCompilation kind config c).success = true) :
    ∃ asked, Analysis.directives kind config c.signals = .ok asked ∧
      (ofCompilation kind config c).IsGranted asked := by
  obtain ⟨noErrors, silent⟩ := success_ofCompilation_iff.1 succeeds
  obtain ⟨asked, given, granted⟩ := outcome_of_nil noErrors silent
  exact ⟨asked, given, isGranted_of_footer ends granted⟩

theorem isRefused (failure : (ofCompilation kind config c).success = false) :
    (ofCompilation kind config c).IsRefused
      (c.errors ++ Analysis.complaints kind config c.signals) := by
  have refused := @outcome_of_ne_nil kind config c fun none => by
    rw [success_ofCompilation_iff.2 (List.append_eq_nil_iff.1 none)] at failure
    cases failure
  exact ⟨by rw [netlist, refused], by rw [directives, refused], by rw [errors, refused]⟩

end Request

namespace Session

/-- A request is refused for all errors of the compilation and of the analysis, and is else granted
the directives of the analysis. These are the errors and the lines that are built for it. -/
theorem prepare_refuses_or_grants (s : Session) (built : s.drawing.Built) (title : String) :
    ∃ c r, s.drawing.compile title = .ok c ∧ s.prepare title = .ok r ∧ r.compilation = c ∧
      (r.success = true ↔
        c.errors = [] ∧ Analysis.complaints s.kind s.config c.signals = []) ∧
      (r.success = false →
        r.IsRefused (c.errors ++ Analysis.complaints s.kind s.config c.signals)) ∧
      (r.success = true → ∃ asked,
        Analysis.directives s.kind s.config c.signals = .ok asked ∧ r.IsGranted asked) ∧
      let draft := Analysis.Draft.build (.text s.kind.name) (.config s.config)
        (.list (c.signals.map .text))
      draft.errors = Analysis.complaints s.kind s.config c.signals ∧
        ∀ asked, Analysis.directives s.kind s.config c.signals = .ok asked →
          draft.lines = asked := by
  obtain ⟨c, compiled⟩ := built.exists_compile built.isPlaced title
  obtain ⟨n, ends⟩ := (Drawing.compilesTo_of_compile compiled).exists_push_footer
  have prepared : s.prepare title = .ok (.ofCompilation s.kind s.config c) := by
    rw [prepare, Drawing.prepare, compiled]
    rfl
  exact ⟨c, _, compiled, prepared, rfl, Request.success_ofCompilation_iff, Request.isRefused,
    Request.exists_isGranted ends, Analysis.lines_and_errors_of_build s.kind s.config c.signals⟩

theorem prepare_refuses_or_grants_labelledSwitch :
    (ofDrawing .labelledSwitch).drawing.Built ∧
      ∃ c r, Drawing.labelledSwitch.compile "schematic" = .ok c ∧
        (ofDrawing .labelledSwitch).prepare "schematic" = .ok r ∧ r.compilation = c ∧
        r.success = true ∧ r.IsGranted [".op"] := by
  refine ⟨Drawing.built_labelledSwitch, ?_⟩
  obtain ⟨c, r, compiled, prepared, same, success, refused, granted, _⟩ :=
    prepare_refuses_or_grants (ofDrawing .labelledSwitch) Drawing.built_labelledSwitch "schematic"
  obtain ⟨noErrors, _⟩ :=
    Drawing.no_complaints_labelledSwitch (Drawing.compilesTo_of_compile compiled)
  have succeeds := success.2 ⟨noErrors, rfl⟩
  obtain ⟨asked, given, isGranted⟩ := granted succeeds
  have operatingPoint : asked = [".op"] := (Except.ok.inj given).symm
  exact ⟨c, r, compiled, prepared, same, succeeds, operatingPoint ▸ isGranted⟩

end Session

end Schematic
