import Schematic.Proofs.Netlist.Blanks
import Schematic.Proofs.Request
/-!
When a text for a simulator has one line for every entry of the line map and every directive: just
when none of the texts that it quotes has a newline inside.
-/

namespace Schematic

namespace Analysis

variable {config : Config} {kind : Kind} {fallback asked : List String}

def Config.quoted (c : Config) : Kind → List String
  | .op => []
  | .dc => [c.dc.source, c.dc.start, c.dc.stop, c.dc.step]
  | .tran => [c.tran.step, c.tran.stop, c.tran.start, c.tran.maxStep]
  | .ac => [c.ac.sweep, c.ac.points, c.ac.start, c.ac.stop]

def Config.savedBy (c : Config) (fallback : List String) : Kind → List String
  | .op => []
  | _ =>
    let fallback := (fallback.map word).filter (· != "")
    savedSignals c.saved (if fallback.isEmpty then ["all"] else fallback)

theorem isOneLine_wordOr_iff {s absent : String} (plain : Text.IsOneLine absent) :
    Text.IsOneLine (wordOr s absent) ↔ Text.IsOneLine (word s) := by
  unfold wordOr
  split
  next none =>
    rw [none]
    exact iff_of_true plain (by decide)
  next => exact Iff.rfl

theorem isOneLine_line_iff :
    Text.IsOneLine (config.line kind) ↔ ∀ s ∈ config.quoted kind, Text.IsOneLine (word s) := by
  have ac : Text.IsOneLine ".ac" := by decide
  have dc : Text.IsOneLine ".dc" := by decide
  have tran : Text.IsOneLine ".tran" := by decide
  unfold Config.line
  rw [Text.isOneLine_unwords_iff]
  cases kind with
  | op => exact iff_of_true (List.forall_mem_singleton.2 (by decide)) nofun
  | dc => simp [Config.quoted, dc]
  | ac => simp [Config.quoted, ac, isOneLine_wordOr_iff (by decide : Text.IsOneLine "dec")]
  | tran =>
      have start := isOneLine_wordOr_iff (s := config.tran.start) (by decide : Text.IsOneLine "0")
      by_cases none : word config.tran.maxStep = ""
      · have plain : Text.IsOneLine "" := by decide
        simp [Config.quoted, tran, start, none, plain]
      · simp [Config.quoted, tran, start, none]

theorem isOneLine_saveLine_iff (signals fallback : List String) :
    Text.IsOneLine (saveLine signals fallback) ↔
      ∀ s ∈ savedSignals signals fallback, Text.IsOneLine s := by
  have save : Text.IsOneLine ".save" := by decide
  unfold saveLine
  split
  next none =>
    rw [none]
    exact iff_of_true (by decide) nofun
  next => rw [Text.isOneLine_unwords_iff, List.forall_mem_cons, and_iff_right save]

theorem isOneLine_directives_iff (given : directives kind config fallback = .ok asked) :
    (∀ l ∈ asked, Text.IsOneLine l) ↔
      (∀ s ∈ config.quoted kind, Text.IsOneLine (word s)) ∧
        ∀ s ∈ config.savedBy fallback kind, Text.IsOneLine s := by
  unfold directives at given
  split at given
  next =>
    obtain rfl := Except.ok.inj given
    rw [← isOneLine_line_iff]
    by_cases isOp : kind = .op
    · obtain rfl := isOp
      rw [if_pos rfl, List.forall_mem_singleton]
      exact (and_iff_left nofun).symm
    · rw [if_neg isOp, List.forall_mem_cons, List.forall_mem_singleton, isOneLine_saveLine_iff,
        and_comm]
      cases kind with
      | op => exact absurd rfl isOp
      | dc | tran | ac => rfl
  next => cases given

end Analysis

structure Element.IsPlain (e : Element) (x : Component) : Prop where
  id : Text.IsOneLine (identifier x.id)
  netA : Text.IsOneLine e.netA
  netB : Text.IsOneLine e.netB
  value : x.kind? ≠ some .switch → Text.IsOneLine (Text.trim x.value.content)

theorem Element.DrawsOn.isOneLine_text_iff {e : Element} {d : Drawing} {x : Component}
    (draws : e.DrawsOn d x) : Text.IsOneLine e.text ↔ e.IsPlain x := by
  have whole : e.text = " ".intercalate [e.id, e.netA, e.netB, e.value] := rfl
  have newline : Text.isBlank '\n' = true := by decide
  rw [whole, Text.isOneLine_unwords_iff]
  have value : Text.IsOneLine e.value ↔
      (x.kind? ≠ some .switch → Text.IsOneLine (Text.trim x.value.content)) := by
    rw [Text.IsOneLine, draws.value '\n' newline, not_and]
    rfl
  have id : Text.IsOneLine e.netA →
      (Text.IsOneLine e.id ↔ Text.IsOneLine (identifier x.id)) :=
    fun plain => not_congr (draws.id '\n' newline plain)
  simp only [List.forall_mem_cons, List.not_mem_nil, false_implies, implies_true, and_true, value]
  constructor
  · rintro ⟨isId, isA, isB, isValue⟩
    exact ⟨(id isA).1 isId, isA, isB, isValue⟩
  · rintro ⟨isId, isA, isB, isValue⟩
    exact ⟨(id isA).2 isId, isA, isB, isValue⟩

namespace Drawing

variable {d : Drawing} {title : String} {c : Compilation} {shares : List Netlist.Share}

/-- Whether the texts in the netlist of a drawing are one line each. -/
structure IsPlain (title : String) (shares : List Netlist.Share) : Prop where
  title : Text.IsOneLine title
  elements : ∀ s ∈ shares, ∀ e, .element s.component.id s.component.tag e ∈ s.lines →
    e.IsPlain s.component

theorem isOneLine_header_iff : Text.IsOneLine (Netlist.header title).text ↔ Text.IsOneLine title := by
  have begins : Text.IsOneLine "* " := by decide
  change Text.IsOneLine ("* " ++ _) ↔ _
  rw [Text.isOneLine_append_iff, and_iff_right begins]
  split
  next none =>
    rw [none]
    exact iff_of_true (by decide) (by decide)
  next => exact Iff.rfl

theorem CompilesBy.forall_isOneLine_iff (compiles : d.CompilesBy title c shares)
    (draws : ∀ s ∈ shares, ∀ line ∈ s.lines, ∃ e,
      line = .element s.component.id s.component.tag e ∧ e.DrawsOn d s.component) :
    (∀ line ∈ c.netlist.lines, Text.IsOneLine line.text) ↔ IsPlain title shares := by
  have last : Text.IsOneLine Netlist.footer.text := by decide
  rw [compiles.lines, List.forall_mem_append, List.forall_mem_singleton, and_iff_left last,
    List.forall_mem_cons, isOneLine_header_iff]
  constructor
  · rintro ⟨first, inner⟩
    refine ⟨first, fun s member e inS => ?_⟩
    obtain ⟨e', same, drawn⟩ := draws s member _ inS
    cases same
    have here := inner (.element _ _ e) (List.mem_flatMap.2 ⟨s, member, inS⟩)
    exact drawn.isOneLine_text_iff.1 here
  · rintro ⟨first, inner⟩
    refine ⟨first, fun line listed => ?_⟩
    obtain ⟨s, member, inS⟩ := List.mem_flatMap.1 listed
    obtain ⟨e, rfl, drawn⟩ := draws s member line inS
    exact drawn.isOneLine_text_iff.2 (inner s member e inS)

end Drawing

namespace Netlist

variable {n : Netlist}

theorem length_lineMap_le (given : n.lines ≠ []) :
    n.lineMap.length ≤ (Text.lines n.text).length ∧
      ((Text.lines n.text).length = n.lineMap.length ↔
        ∀ line ∈ n.lines, Text.IsOneLine line.text) := by
  have length : n.lineMap.length = (n.lines.map Line.text).length := by
    rw [n.numbered, List.length_mapIdx, List.length_map]
  rw [lines_text given, ← List.flatMap_map, length, Text.length_flatMap_lines_iff,
    List.forall_mem_map]
  exact ⟨Text.length_le_length_flatMap_lines _, Iff.rfl⟩

end Netlist

namespace Request

variable {r : Request} {asked : List String}

theorem IsGranted.length_lines (granted : r.IsGranted asked) :
    (Text.lines r.netlist).length =
      (Text.lines r.compilation.text).length + (asked.flatMap Text.lines).length := by
  obtain ⟨before, compiled, _, whole⟩ := granted.netlist
  rw [compiled, whole, List.length_append, List.length_append, List.length_append,
    Nat.add_right_comm]

theorem IsGranted.length_lines_iff (granted : r.IsGranted asked)
    (given : r.compilation.netlist.lines ≠ []) :
    (Text.lines r.netlist).length =
        r.compilation.netlist.lineMap.length + r.directives.length ↔
      (∀ line ∈ r.compilation.netlist.lines, Text.IsOneLine line.text) ∧
        ∀ l ∈ asked, Text.IsOneLine l := by
  obtain ⟨atLeast, exactly⟩ := Netlist.length_lineMap_le given
  have directives := Text.length_le_length_flatMap_lines asked
  rw [granted.length_lines, granted.directives, ← exactly, ← Text.length_flatMap_lines_iff]
  change _ + _ = _ ↔ (Text.lines r.compilation.netlist.text).length = _ ∧ _
  rw [Compilation.text]
  omega

end Request

namespace Session

/-- The text of a compiled drawing has one line for each entry of the line map just when what it
quotes has no newline inside: the title, the trimmed ids, and the nets and values of elements. For
the text of a request, this must hold of the settings and signals of its directives as well. -/
theorem physical_lines_iff (s : Session) (built : s.drawing.Built) (title : String) :
    ∃ c shares, s.drawing.compile title = .ok c ∧ s.drawing.CompilesBy title c shares ∧
      ((Text.lines c.text).length = c.netlist.lineMap.length ↔ Drawing.IsPlain title shares) ∧
      (Drawing.IsPlain title shares →
        ∀ l ∈ c.netlist.lineMap, (Text.lines c.text)[l.1 - 1]? = some l.2.text) ∧
      (∀ k id type e, (k, .element id type e) ∈ c.netlist.lineMap → ∀ name ∈ [e.netA, e.netB],
        ¬ Text.IsOneLine name → ∃ y ∈ s.drawing.components, y.kind? = some .net ∧ y.label = name) ∧
      ∃ r, s.prepare title = .ok r ∧ (r.success = true →
        ((Text.lines r.netlist).length = c.netlist.lineMap.length + r.directives.length ↔
          Drawing.IsPlain title shares ∧
            (∀ t ∈ s.config.quoted s.kind, Text.IsOneLine (Analysis.word t)) ∧
            ∀ t ∈ s.config.savedBy c.signals s.kind, Text.IsOneLine t)) := by
  obtain ⟨c, shares, compiled, parts, draws⟩ := built.exists_compile_drawsOn title
  obtain ⟨n, ends⟩ := (Drawing.compilesTo_of_compile compiled).exists_push_footer
  have given : c.netlist.lines ≠ [] := by simp [ends]
  have plain := parts.forall_isOneLine_iff draws
  have prepared : s.prepare title = .ok (.ofCompilation s.kind s.config c) := by
    rw [prepare, Drawing.prepare, compiled]
    rfl
  refine ⟨c, shares, compiled, parts, ?_, fun isPlain l mapped => ?_, fun k id type e mapped => ?_,
    _, prepared, fun succeeds => ?_⟩
  · rw [← plain]
    exact (Netlist.length_lineMap_le given).2
  · rw [Compilation.text, Netlist.lines_text given]
    exact Netlist.getElem?_flatMap_lines (plain.2 isPlain) mapped
  · obtain ⟨share, member, inS⟩ := parts.exists_share mapped
    obtain ⟨e', same, drawn⟩ := draws share member _ inS
    cases same
    intro name listed broken
    refine drawn.nets name listed fun unbroken => broken ?_
    exact unbroken.not_mem (by decide)
  · obtain ⟨asked, directives, granted⟩ := Request.exists_isGranted ends succeeds
    rw [← plain, ← Analysis.isOneLine_directives_iff directives]
    exact granted.length_lines_iff given

theorem physical_lines_iff_labelledSwitch :
    (ofDrawing .labelledSwitch).drawing.Built ∧
      ∃ c shares, Drawing.labelledSwitch.compile "" = .ok c ∧
        Drawing.labelledSwitch.CompilesBy "" c shares ∧
        ((Text.lines c.text).length = c.netlist.lineMap.length ↔ Drawing.IsPlain "" shares) ∧
        (Drawing.IsPlain "" shares →
          ∀ l ∈ c.netlist.lineMap, (Text.lines c.text)[l.1 - 1]? = some l.2.text) := by
  obtain ⟨c, shares, compiled, parts, lines, mapped, _⟩ :=
    physical_lines_iff (ofDrawing .labelledSwitch) Drawing.built_labelledSwitch ""
  exact ⟨Drawing.built_labelledSwitch, c, shares, compiled, parts, lines, mapped⟩

def twoLineResistor : Drawing :=
  .ofParts [⟨"R1", "R", "1k\nR2 N1 N2 2k",
    [("1", ⟨.lit 0 0, .lit 0 0⟩), ("2", ⟨.lit 20 0, .lit 0 0⟩)]⟩] []

theorem built_twoLineResistor : twoLineResistor.Built :=
  Drawing.built_ofParts (by decide +kernel) (by decide)

/-- The second line stands in the text as one of its own, for which there is no entry. -/
theorem lines_of_twoLineResistor :
    twoLineResistor.Built ∧ ∃ c r, twoLineResistor.compile "" = .ok c ∧ c.errors = [] ∧
      c.netlist.lineMap.length = 3 ∧
      Text.lines c.text = ["* schematic", "R1 N1 N2 1k", "R2 N1 N2 2k", ".end"] ∧
      (ofDrawing twoLineResistor).prepare "" = .ok r ∧ r.success = true ∧ r.directives = [".op"] ∧
      (Text.lines r.netlist).length = 5 := by
  obtain ⟨c, compiled⟩ := built_twoLineResistor.exists_compile built_twoLineResistor.isPlaced ""
  have compiles := Drawing.compilesTo_of_compile compiled
  obtain ⟨n, ends⟩ := compiles.exists_push_footer
  have ordered : (Graph.ofPlacement twoLineResistor.layout).nets.Pairwise
      fun a b => (a.anchor .origin).le (b.anchor .origin) = true := by
    decide +kernel
  have read : (c.netlist.errorMessages, c.netlist.lineMap.length, Text.lines c.netlist.text) =
      ([], 3, ["* schematic", "R1 N1 N2 1k", "R2 N1 N2 2k", ".end"]) :=
    compiles.map_netlist_eq ordered
      (f := fun n => (n.errorMessages, n.lineMap.length, Text.lines n.text)) (by decide +kernel)
  obtain ⟨messages, entries, lines⟩ : _ ∧ _ ∧ _ := by simpa using read
  have noErrors : c.errors = [] := by
    rw [Compilation.errors, messages, compiles.naming_eq ordered]
    decide +kernel
  have prepared : (ofDrawing twoLineResistor).prepare "" = .ok (.ofCompilation .op {} c) := by
    rw [prepare, Drawing.prepare]
    change (twoLineResistor.compile "" >>= _) = _
    rw [compiled]
    rfl
  have succeeds : (Request.ofCompilation .op {} c).success = true :=
    Request.success_ofCompilation_iff.2 ⟨noErrors, rfl⟩
  obtain ⟨asked, given, granted⟩ := Request.exists_isGranted ends succeeds
  obtain rfl : [".op"] = asked := Except.ok.inj given
  refine ⟨built_twoLineResistor, c, _, compiled, noErrors, entries, lines, prepared, succeeds,
    granted.directives, ?_⟩
  rw [granted.length_lines]
  change (Text.lines c.netlist.text).length + _ = _
  rw [lines]
  decide +kernel

end Session

end Schematic
