import Schematic.Proofs.Analysis.Directives
import Schematic.Session
/-!
A configuration and its document ask for the same. The document is read as the configuration without
the outer blanks of its settings, which are left out wherever a setting is used.
-/

namespace Schematic.Analysis

theorem word_word (s : String) : word (word s) = word s :=
  Text.trim_trim s

theorem wordOr_word (s absent : String) : wordOr (word s) absent = wordOr s absent := by
  rw [wordOr, wordOr, word_word]

namespace Config

def trimmed (c : Config) : Config where
  signals := c.saved
  dc := {
    source := word c.dc.source, start := word c.dc.start
    stop := word c.dc.stop, step := word c.dc.step }
  tran := {
    step := word c.tran.step, stop := word c.tran.stop
    start := word c.tran.start, maxStep := word c.tran.maxStep }
  ac := {
    sweep := word c.ac.sweep, points := word c.ac.points
    start := word c.ac.start, stop := word c.ac.stop }

variable (c : Config) (d : Value)

theorem settings_map_text (signals : List String) :
    Value.settings (.list (signals.map .text)) = (signals.map word).filter (· != "") := by
  rw [Value.settings, List.map_map]
  rfl

theorem ofValue_toValue : ofValue c.toValue = c.trimmed := by
  simp only [toValue, ofValue, sectionOf, settingOr, List.lookup, List.map, String.reduceBEq,
    Option.getD_some, settings_map_text, beq_self_eq_true]
  rfl

theorem trimmed_ofValue : (ofValue d).trimmed = ofValue d := by
  have start : word (textOr d "tran" "start" "0") = textOr d "tran" "start" "0" :=
    word_textOr (by decide +kernel)
  have sweep : word (textOr d "ac" "sweep" "dec") = textOr d "ac" "sweep" "dec" :=
    word_textOr (by decide +kernel)
  rw [trimmed, saved_ofValue, ofValue_eq]
  simp only [word_textAt, word_maxStepAt, start, sweep]

theorem ofValue_toValue_ofValue : ofValue (ofValue d).toValue = ofValue d := by
  rw [ofValue_toValue, trimmed_ofValue]

theorem saved_trimmed : c.trimmed.saved = c.saved := by
  have named : c.saved = Value.settings (.list (c.signals.map .text)) :=
    (settings_map_text c.signals).symm
  change (c.saved.map word).filter (· != "") = c.saved
  rw [named, Value.words_settings]

theorem missing_trimmed (kind : Kind) : c.trimmed.missing kind = c.missing kind := by
  cases kind <;> simp only [missing, trimmed, word_word]

theorem line_trimmed (kind : Kind) : c.trimmed.line kind = c.line kind := by
  cases kind <;> simp only [line, trimmed, word_word, wordOr_word]

theorem directives_trimmed (kind : Kind) (fallback : List String) :
    directives kind c.trimmed fallback = directives kind c fallback := by
  rw [directives_eq, directives_eq, missing_trimmed, line_trimmed, saved_trimmed]

variable {c}

/-- Whether two configurations yield the same input for a simulator: the same lines and errors for
every analysis, and the same request from every session. -/
structure Alike (c c' : Config) : Prop where
  build : ∀ kind fallback,
    Draft.build kind (.config c) fallback = Draft.build kind (.config c') fallback
  prepare : ∀ (s : Session) (kind : Value) (title : String),
    (s.choose kind c).map (·.prepare title) = (s.choose kind c').map (·.prepare title)

theorem alike_of_trimmed_eq {c' : Config} (same : c.trimmed = c'.trimmed) : c.Alike c' := by
  have directed : ∀ kind fallback, directives kind c fallback = directives kind c' fallback := by
    intro kind fallback
    rw [← directives_trimmed c, same, directives_trimmed]
  constructor
  · intro kind fallback
    rw [Draft.build_eq, Draft.build_eq]
    exact congrArg Draft.ofResult (directed _ _)
  · intro s kind title
    have prepared : ∀ (d : Drawing) kind, d.prepare kind c title = d.prepare kind c' title := by
      intro d kind
      simp only [Drawing.prepare, Request.ofCompilation, directed]
    rw [Session.choose, Session.choose]
    cases Kind.choose kind with
    | error refused => rfl
    | ok kind => exact congrArg Except.ok (prepared s.drawing kind)

theorem alike_ofValue_toValue (c : Config) : c.Alike (ofValue c.toValue) :=
  alike_of_trimmed_eq (by rw [trimmed_ofValue, ofValue_toValue])

end Config

end Schematic.Analysis
