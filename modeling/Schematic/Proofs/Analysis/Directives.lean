import Schematic.Analysis
import Schematic.Proofs.Text
import Mathlib
/-!
What is built for an analysis: the lines that its document asks for, or nothing but errors where a
setting that it needs is blank.
-/

namespace Schematic

/-! Settings. -/

namespace Value

@[simp] theorem trim_setting (v : Value) : Text.trim v.setting = v.setting :=
  Text.trim_trim _

theorem words_settings (v : Value) :
    (v.settings.map Analysis.word).filter (· != "") = v.settings := by
  cases v with
  | list vs =>
      have trimmed : ∀ s ∈ settings (.list vs), Analysis.word s = s := by
        intro s member
        obtain ⟨v, _, rfl⟩ := List.mem_map.1 (List.mem_of_mem_filter member)
        exact trim_setting v
      rw [List.map_congr_left trimmed, List.map_id', settings, List.filter_filter]
      simp
  | null | bool | int | float | text | record => rfl

end Value

namespace Analysis

/-! Kinds. -/

namespace Kind

variable {v : Value} {k : Kind}

theorem ofText_eq_iff (saves : k ≠ .op) : ofText v = k ↔ Text.lower v.setting = k.name := by
  unfold ofText
  rw [← ofName?_eq_some]
  cases ofName? (Text.lower v.setting) with
  | none => exact iff_of_false (fun same => saves same.symm) nofun
  | some k' => exact Option.some_inj.symm

theorem ofText_eq_op (other : ∀ k, k ≠ op → Text.lower v.setting ≠ k.name) : ofText v = .op := by
  by_contra saves
  exact other _ saves ((ofText_eq_iff saves).1 rfl)

end Kind

/-! Save lines. -/

section

variable {signals fallback : List String}

theorem saveLine_eq (given : fallback ≠ []) :
    saveLine signals fallback =
      " ".intercalate (".save" :: if signals.all isWildcard then fallback else signals) := by
  have some : (if signals.all isWildcard then fallback else signals) ≠ [] := by
    cases signals with
    | nil => exact given
    | cons s signals => split <;> simp [given]
  have chosen : savedSignals signals fallback =
      if signals.all isWildcard then fallback else signals := by
    simp [savedSignals, given]
  rw [saveLine, chosen]
  split
  next none => exact absurd none some
  next => rfl

theorem saveLine_ne_empty (given : fallback ≠ []) : saveLine signals fallback ≠ "" := by
  intro blank
  have begins := congrArg (List.head? ∘ String.toList) ((saveLine_eq given).symm.trans blank)
  simp at begins

end

theorem directives_eq (kind : Kind) (c : Config) (fallback : List String) :
    directives kind c fallback =
      let named := (fallback.map word).filter (· != "")
      if c.missing kind = [] then
        .ok (if kind = .op then [c.line kind]
          else [saveLine c.saved (if named.isEmpty then ["all"] else named), c.line kind])
      else .error (c.missing kind) := by
  unfold directives
  split
  next none => exact (if_pos none).symm
  next some => exact (if_neg some).symm

/-! Drafts. -/

namespace Draft

def ofResult : Except (List Error) (List String) → Draft
  | .ok lines => ⟨lines, []⟩
  | .error errors => ⟨[], errors.map Error.message⟩

variable {errors : List Error} {fallback : List String}

def left (steps : StateM Draft Unit) (d : Draft) : Draft :=
  (steps.run d).2

theorem left_bind (first : StateM Draft Unit) (rest : Unit → StateM Draft Unit) (d : Draft) :
    left (first >>= rest) d = left (rest ()) (left first d) :=
  rfl

theorem left_check (missing : Bool) (e : Error) :
    left (check missing e) (ofResult (.error errors)) =
      ofResult (.error (errors ++ if missing then [e] else [])) := by
  cases missing with
  | true =>
      simp only [if_true, ofResult, List.map_append]
      rfl
  | false =>
      simp only [Bool.false_eq_true, if_false, List.append_nil]
      rfl

theorem left_addLines (c : Config) (given : fallback ≠ []) (line : String) :
    left (unlessFailed (addSave c fallback >>= fun _ => add line)) (ofResult (.error errors)) =
      ofResult (if errors = [] then .ok [saveLine c.saved fallback, line] else .error errors) := by
  cases errors with
  | cons e errors => rfl
  | nil =>
      change left (addSave c fallback >>= fun _ => add line) {} = _
      rw [left_bind, addSave, if_neg (saveLine_ne_empty given)]
      rfl

theorem line_dc (c : Config) :
    ".dc " ++ word c.dc.source ++ " " ++ word c.dc.start ++ " " ++ word c.dc.stop ++ " " ++
      word c.dc.step = c.line .dc := by
  simp [Config.line, String.intercalate_cons_cons, ← String.append_assoc]

theorem line_tran (c : Config) :
    ".tran " ++ word c.tran.step ++ " " ++ word c.tran.stop ++ " " ++ wordOr c.tran.start "0" ++
      (if word c.tran.maxStep = "" then "" else " " ++ word c.tran.maxStep) = c.line .tran := by
  by_cases blank : word c.tran.maxStep = ""
  · simp [Config.line, blank, String.intercalate_cons_cons, ← String.append_assoc]
  · simp [Config.line, blank, String.intercalate_cons_cons, ← String.append_assoc]

theorem line_ac (c : Config) :
    ".ac " ++ wordOr c.ac.sweep "dec" ++ " " ++ word c.ac.points ++ " " ++ word c.ac.start ++ " " ++
      word c.ac.stop = c.line .ac := by
  simp [Config.line, String.intercalate_cons_cons, ← String.append_assoc]

theorem collect_eq (c : Config) (kind : Kind) (given : fallback ≠ []) :
    left (collect c fallback kind) {} = ofResult (if c.missing kind = [] then
      .ok (if kind = .op then [c.line kind] else [saveLine c.saved fallback, c.line kind])
      else .error (c.missing kind)) := by
  cases kind with
  | op => rfl
  | dc =>
      simp only [collect, line_dc]
      change left (check _ .noSource >>= fun _ => check _ .noRange >>= fun _ =>
        unlessFailed _) (ofResult (.error [])) = _
      rw [left_bind, left_check, left_bind, left_check, left_addLines c given]
      simp only [Config.missing, List.nil_append, decide_eq_true_eq, reduceCtorEq, if_false]
  | tran =>
      simp only [collect, line_tran]
      change left (check _ .noTimes >>= fun _ => unlessFailed _) (ofResult (.error [])) = _
      rw [left_bind, left_check, left_addLines c given]
      simp only [Config.missing, List.nil_append, Bool.or_eq_true, decide_eq_true_eq, reduceCtorEq,
        if_false]
  | ac =>
      simp only [collect, line_ac]
      change left (check _ .noFrequencies >>= fun _ => unlessFailed _) (ofResult (.error [])) = _
      rw [left_bind, left_check, left_addLines c given]
      simp only [Config.missing, List.nil_append, reduceCtorEq, if_false]

theorem named_ne_nil (fallback : Value) :
    (if fallback.settings.isEmpty then ["all"] else fallback.settings) ≠ [] := by
  split
  next => exact List.cons_ne_nil _ _
  next other => exact fun none => other (List.isEmpty_iff.2 none)

theorem build_eq (kind : Value) (given : Given) (fallback : Value) :
    build kind given fallback =
      ofResult (directives (.ofText kind) given.toConfig fallback.settings) := by
  have collected := collect_eq given.toConfig (.ofText kind) (named_ne_nil fallback)
  refine collected.trans (congrArg ofResult ?_)
  rw [directives_eq, Value.words_settings]

theorem build_signals (kind : Kind) (c : Config) (signals : List String) :
    build (.text kind.name) (.config c) (.list (signals.map .text)) =
      ofResult (directives kind c signals) := by
  have named : Kind.ofText (.text kind.name) = kind := by cases kind <;> rfl
  have words : (Value.list (signals.map .text)).settings =
      (signals.map word).filter (· != "") := by
    rw [Value.settings, List.map_map]
    rfl
  rw [build_eq, named, directives_eq, Value.words_settings, words, directives_eq]
  rfl

theorem lines_eq_nil_iff (kind : Value) (given : Given) (fallback : Value) :
    (build kind given fallback).lines = [] ↔ (build kind given fallback).errors ≠ [] := by
  rw [build_eq, directives_eq]
  by_cases complete : given.toConfig.missing (.ofText kind) = []
  · simp only [complete, if_true, ofResult]
    split <;> simp
  · simp only [complete, if_false, ofResult, List.map_eq_nil_iff, ne_eq, not_false_eq_true]

end Draft

/-! Documents. -/

def valueAt (d : Value) (part field : String) : Option Value :=
  match d with
  | .record parts =>
    match parts.lookup part with
    | some (.record fields) => fields.lookup field
    | _ => none
  | _ => none

/-- The text of a field, or the given one where the field is absent. -/
def textOr (d : Value) (part field absent : String) : String :=
  ((valueAt d part field).map Value.setting).getD absent

def textAt (d : Value) (part field : String) : String :=
  textOr d part field ""

/-- The text of a field, or the given one where there is none. -/
def wordAt (d : Value) (part field blank : String) : String :=
  if textAt d part field = "" then blank else textAt d part field

/-- The largest step of a transient analysis, under the first of its two names that is there. -/
def maxStepAt (d : Value) : String :=
  (((valueAt d "tran" "maxStep").or (valueAt d "tran" "max_step")).map Value.setting).getD ""

def signalsAt (d : Value) : List String :=
  ((valueAt d "save" "signals").getD .null).settings

/-- The signals that a save line lists: those of the document, unless there are none or they all
stand for every signal; else those to fall back on, if there are any. -/
def savedAt (d fallback : Value) : List String :=
  if ∃ s ∈ signalsAt d, Text.lower s ≠ "all" ∧ Text.lower s ≠ "*" then signalsAt d
  else if fallback.settings ≠ [] then fallback.settings
  else ["all"]

namespace Kind

def required : Kind → List String
  | op => []
  | dc => ["source", "start", "stop", "step"]
  | tran => ["step", "stop"]
  | ac => ["points", "start", "stop"]

def words (d : Value) : Kind → List String
  | op => [".op"]
  | dc => [".dc", textAt d "dc" "source", textAt d "dc" "start", textAt d "dc" "stop",
      textAt d "dc" "step"]
  | tran => [".tran", textAt d "tran" "step", textAt d "tran" "stop", wordAt d "tran" "start" "0"]
      ++ if maxStepAt d = "" then [] else [maxStepAt d]
  | ac => [".ac", wordAt d "ac" "sweep" "dec", textAt d "ac" "points", textAt d "ac" "start",
      textAt d "ac" "stop"]

end Kind

section

variable {d : Value}

theorem lookup_sectionOf (fields : List (String × Value)) (part field : String) :
    (Config.sectionOf fields part).lookup field = valueAt (.record fields) part field := by
  rw [Config.sectionOf, valueAt]
  cases fields.lookup part with
  | none => rfl
  | some v => cases v <;> rfl

theorem settingOr_sectionOf (fields : List (String × Value)) (part field absent : String) :
    Config.settingOr (Config.sectionOf fields part) field absent =
      textOr (.record fields) part field absent := by
  rw [Config.settingOr, lookup_sectionOf, textOr]
  cases valueAt (.record fields) part field with
  | none => rfl
  | some v => rfl

theorem textOr_textOr (d : Value) :
    textOr d "tran" "maxStep" (textOr d "tran" "max_step" "") = maxStepAt d := by
  rw [textOr, maxStepAt]
  cases valueAt d "tran" "maxStep" with
  | none => rfl
  | some v => rfl

theorem ofValue_eq (d : Value) : Config.ofValue d = {
    signals := signalsAt d
    dc := {
      source := textAt d "dc" "source", start := textAt d "dc" "start"
      stop := textAt d "dc" "stop", step := textAt d "dc" "step" }
    tran := {
      step := textAt d "tran" "step", stop := textAt d "tran" "stop"
      start := textOr d "tran" "start" "0", maxStep := maxStepAt d }
    ac := {
      sweep := textOr d "ac" "sweep" "dec", points := textAt d "ac" "points"
      start := textAt d "ac" "start", stop := textAt d "ac" "stop" } } := by
  cases d with
  | record fields =>
      simp only [Config.ofValue, settingOr_sectionOf, textOr_textOr, lookup_sectionOf]
      rfl
  | null | bool | int | float | text | list => rfl

theorem word_textOr {part field absent : String} (plain : Text.trim absent = absent) :
    word (textOr d part field absent) = textOr d part field absent := by
  unfold textOr
  cases valueAt d part field with
  | none => exact plain
  | some v => exact v.trim_setting

theorem word_textAt (d : Value) (part field : String) :
    word (textAt d part field) = textAt d part field :=
  word_textOr rfl

theorem word_maxStepAt (d : Value) : word (maxStepAt d) = maxStepAt d := by
  unfold maxStepAt
  cases (valueAt d "tran" "maxStep").or (valueAt d "tran" "max_step") with
  | none => rfl
  | some v => exact v.trim_setting

theorem wordOr_textOr {part field absent : String} (plain : Text.trim absent = absent) :
    wordOr (textOr d part field absent) absent = wordAt d part field absent := by
  rw [wordOr, word_textOr plain, wordAt, textAt, textOr, textOr]
  cases valueAt d part field with
  | none => simp
  | some v => rfl

theorem line_ofValue (d : Value) (k : Kind) :
    (Config.ofValue d).line k = " ".intercalate (k.words d) := by
  rw [ofValue_eq]
  cases k with
  | op => rfl
  | dc => simp only [Config.line, Kind.words, word_textAt]
  | tran =>
      simp only [Config.line, Kind.words, word_textAt, word_maxStepAt,
        wordOr_textOr (show Text.trim "0" = "0" by decide +kernel)]
  | ac =>
      simp only [Config.line, Kind.words, word_textAt,
        wordOr_textOr (show Text.trim "dec" = "dec" by decide +kernel)]

theorem missing_ofValue_eq_nil_iff (d : Value) (k : Kind) :
    (Config.ofValue d).missing k = [] ↔ ∀ field ∈ k.required, textAt d k.name field ≠ "" := by
  rw [ofValue_eq]
  cases k with
  | op => exact iff_of_true rfl (List.forall_mem_nil _)
  | dc => simp [Config.missing, Kind.required, Kind.name, word_textAt, and_assoc]
  | tran => simp [Config.missing, Kind.required, Kind.name, word_textAt]
  | ac => simp [Config.missing, Kind.required, Kind.name, word_textAt, and_assoc]

theorem saved_ofValue (d : Value) : (Config.ofValue d).saved = signalsAt d := by
  rw [ofValue_eq]
  exact Value.words_settings _

theorem saveLine_ofValue (d fallback : Value) :
    saveLine (Config.ofValue d).saved
        (if fallback.settings.isEmpty then ["all"] else fallback.settings) =
      " ".intercalate (".save" :: savedAt d fallback) := by
  have named : (if fallback.settings.isEmpty then ["all"] else fallback.settings) =
      if fallback.settings ≠ [] then fallback.settings else ["all"] := by
    simp only [List.isEmpty_iff, ne_eq, ite_not]
  have chosen : (signalsAt d).all isWildcard = true ↔
      ¬ ∃ s ∈ signalsAt d, Text.lower s ≠ "all" ∧ Text.lower s ≠ "*" := by
    simp [isWildcard, List.all_eq_true, or_iff_not_imp_left]
  rw [saveLine_eq (Draft.named_ne_nil fallback), saved_ofValue, named, savedAt]
  by_cases explicit : ∃ s ∈ signalsAt d, Text.lower s ≠ "all" ∧ Text.lower s ≠ "*"
  · rw [if_neg fun all => chosen.1 all explicit, if_pos explicit]
  · rw [if_pos (chosen.2 explicit), if_neg explicit]

end

/-- What is built from a document: the lines of its kind, or else only the errors in it. -/
theorem build_document (kind d fallback : Value) :
    Draft.build kind (.document d) fallback =
      if ∀ field ∈ (Kind.ofText kind).required, textAt d (Kind.ofText kind).name field ≠ "" then
        ⟨if Kind.ofText kind = .op then [".op"]
          else [" ".intercalate (".save" :: savedAt d fallback),
            " ".intercalate ((Kind.ofText kind).words d)], []⟩
      else ⟨[], ((Config.ofValue d).missing (.ofText kind)).map Error.message⟩ := by
  rw [Draft.build_eq, directives_eq, Value.words_settings]
  simp only [Given.toConfig, line_ofValue, saveLine_ofValue, missing_ofValue_eq_nil_iff]
  by_cases complete : ∀ field ∈ (Kind.ofText kind).required,
      textAt d (Kind.ofText kind).name field ≠ ""
  · rw [if_pos complete, if_pos complete, Draft.ofResult]
    by_cases op : Kind.ofText kind = .op
    · simp only [op, if_true]
      rfl
    · rw [if_neg op, if_neg op]
  · rw [if_neg complete, if_neg complete, Draft.ofResult]

/-- Everything that is given as a kind, a document and signals has either lines or errors. -/
theorem build_all_or_nothing (kind d fallback : Value) :
    ((Draft.build kind (.document d) fallback).lines = [] ↔
      (Draft.build kind (.document d) fallback).errors ≠ []) ∧
    (∀ k : Kind, k ≠ .op → Text.lower kind.setting = k.name →
      ((Draft.build kind (.document d) fallback).errors = [] ↔
        ∀ field ∈ k.required, textAt d k.name field ≠ "") ∧
      ((Draft.build kind (.document d) fallback).errors = [] →
        (Draft.build kind (.document d) fallback).lines =
          [" ".intercalate (".save" :: savedAt d fallback), " ".intercalate (k.words d)])) ∧
    ((∀ k : Kind, k ≠ .op → Text.lower kind.setting ≠ k.name) →
      Draft.build kind (.document d) fallback = ⟨[".op"], []⟩) := by
  have built := build_document kind d fallback
  refine ⟨Draft.lines_eq_nil_iff kind _ fallback, ?_, ?_⟩
  · intro k saves names
    obtain rfl := (Kind.ofText_eq_iff saves).2 names
    by_cases complete : ∀ field ∈ (Kind.ofText kind).required,
        textAt d (Kind.ofText kind).name field ≠ ""
    · rw [built, if_pos complete, if_neg saves]
      exact ⟨iff_of_true rfl complete, fun _ => rfl⟩
    · have failed : ((Config.ofValue d).missing (.ofText kind)).map Error.message ≠ [] := by
        rw [Ne, List.map_eq_nil_iff, missing_ofValue_eq_nil_iff]
        exact complete
      rw [built, if_neg complete]
      simp only [failed, complete, false_implies, and_self]
  · intro other
    have op := Kind.ofText_eq_op other
    rw [built, if_pos, if_pos op]
    rw [op]
    exact List.forall_mem_nil _

/-- An empty largest step is not replaced by that of the other name, and a blank start is zero. -/
def steppedTransient : Value :=
  .record [
    ("tran", .record [("step", .int 1), ("stop", .text " 5m"), ("start", .null),
      ("max_step", .text "1u"), ("maxStep", .text " ")]),
    ("save", .record [("signals", .list [.text "*", .text " ", .text " ALL"])])]

theorem build_all_or_nothing_steppedTransient :
    Analysis.Kind.tran ≠ .op ∧ Text.lower (Value.text " Tran ").setting = "tran" ∧
    (Draft.build (.text " Tran ") (.document steppedTransient)
      (.list [.text " V(out) ", .text "", .int 2])).lines = [".save V(out) 2", ".tran 1 5m 0"] := by
  have saves : Analysis.Kind.tran ≠ .op := nofun
  have names : Text.lower (Value.text " Tran ").setting = Kind.name .tran := by decide +kernel
  have built := build_all_or_nothing (.text " Tran ") steppedTransient
    (.list [.text " V(out) ", .text "", .int 2])
  obtain ⟨succeeds, lines⟩ := built.2.1 .tran saves names
  refine ⟨saves, names, (lines (succeeds.2 ?_)).trans ?_⟩
  · decide +kernel
  · decide +kernel

end Analysis

end Schematic
