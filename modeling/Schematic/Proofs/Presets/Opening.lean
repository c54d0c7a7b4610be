import Schematic.Proofs.Analysis.Directives
import Schematic.Proofs.Presets.Changes
/-!
A preset file is passed over where it does not hold presets, but for three kinds of text. A store
that has been opened serves every lookup.
-/

namespace Schematic

/-! Tests that may fail, where they do not. -/

section

variable {α ε : Type} {test : α → Except ε Bool} {p : α → Bool} {as : List α}

theorem filterAuxM_eq_ok (passes : ∀ a ∈ as, test a = .ok (p a)) (done : List α) :
    as.filterAuxM test done = .ok ((as.filter p).reverse ++ done) := by
  induction as generalizing done with
  | nil => rfl
  | cons a as ih =>
      rw [List.filterAuxM, passes a List.mem_cons_self]
      change as.filterAuxM test (cond (p a) (a :: done) done) = _
      rw [ih fun b member => passes b (List.mem_cons_of_mem a member), List.filter_cons]
      cases p a <;> simp

theorem filterM_eq_ok (passes : ∀ a ∈ as, test a = .ok (p a)) :
    as.filterM test = .ok (as.filter p) := by
  rw [List.filterM, filterAuxM_eq_ok passes []]
  change Except.ok _ = _
  rw [List.append_nil, List.reverse_reverse]

theorem findM?_eq_ok (passes : ∀ a ∈ as, test a = .ok (p a)) :
    as.findM? test = .ok (as.find? p) := by
  induction as with
  | nil => rfl
  | cons a as ih =>
      rw [List.findM?, passes a List.mem_cons_self, List.find?_cons]
      cases p a with
      | true => rfl
      | false => exact ih fun b member => passes b (List.mem_cons_of_mem a member)

end

namespace Preset

variable {p : Preset}

structure IsComplete (p : Preset) : Prop where
  name : p.require "name" = .ok p.name
  analysis : p.require "analysis" = .ok p.analysis
  params : p.require "params" = .ok (p.field "params")

theorem require_eq_ok_iff {name : String} :
    p.require name = .ok (p.field name) ↔ (p.fields.lookup name).isSome := by
  rw [require, field]
  cases p.fields.lookup name with
  | none => exact iff_of_false nofun nofun
  | some v => exact iff_of_true rfl rfl

theorem isComplete_of_mem_builtins (listed : p ∈ builtins) : p.IsComplete := by
  have all : ∀ p ∈ builtins, (p.fields.lookup "name").isSome ∧
      (p.fields.lookup "analysis").isSome ∧ (p.fields.lookup "params").isSome := by
    decide +kernel
  obtain ⟨name, analysis, params⟩ := all p listed
  exact ⟨require_eq_ok_iff.2 name, require_eq_ok_iff.2 analysis, require_eq_ok_iff.2 params⟩

theorem isSome_lookup_of_given {name : String} (given : (p.field name).given = true) :
    (p.fields.lookup name).isSome := by
  rw [field] at given
  cases found : p.fields.lookup name with
  | some v => rfl
  | none =>
      rw [found] at given
      cases given

theorem isSome_lookup_of_known {name : String}
    (known : (Analysis.Kind.ofValue? (p.field name)).isSome) : (p.fields.lookup name).isSome := by
  rw [field] at known
  cases found : p.fields.lookup name with
  | some v => rfl
  | none =>
      rw [found] at known
      cases known

theorem isComplete_of_ofValue? {v : Value} (read : ofValue? v = some p) : p.IsComplete := by
  cases v with
  | record fields =>
      rw [ofValue?] at read
      split at read
      next kept =>
        obtain ⟨given, known⟩ := Bool.and_eq_true_iff.1 kept
        have name := isSome_lookup_of_given given
        have analysis := isSome_lookup_of_known known
        split at read
        next params =>
          obtain rfl := Option.some.inj read
          exact ⟨require_eq_ok_iff.2 name, require_eq_ok_iff.2 analysis,
            require_eq_ok_iff.2 params⟩
        next =>
          obtain rfl := Option.some.inj read
          have kept : ∀ name, (fields.lookup name).isSome →
              ((fields ++ [("params", Value.record [])]).lookup name).isSome := by
            intro name there
            rw [List.lookup_append, Option.isSome_or, there, Bool.true_or]
          refine ⟨require_eq_ok_iff.2 (kept _ name), require_eq_ok_iff.2 (kept _ analysis),
            require_eq_ok_iff.2 ?_⟩
          rw [List.lookup_append, Option.isSome_or]
          exact Bool.or_true _
      next => cases read
  | null | bool | int | float | text | list => cases read

end Preset

namespace Presets

variable {ps : Presets} {name analysis : Value}

def AreComplete (ps : Presets) : Prop :=
  ∀ p ∈ Preset.builtins ++ ps.user, p.IsComplete

theorem areComplete_iff : ps.AreComplete ↔ ∀ p ∈ ps.user, p.IsComplete := by
  refine ⟨fun all p user => all p (List.mem_append_right _ user), fun complete p listed => ?_⟩
  rcases List.mem_append.1 listed with builtin | user
  · exact Preset.isComplete_of_mem_builtins builtin
  · exact complete p user

theorem mem_of_mem_list {p : Preset} (listed : p ∈ ps.list analysis) :
    p ∈ Preset.builtins ++ ps.user := by
  rw [list] at listed
  split at listed
  next => exact List.mem_of_mem_filter listed
  next => exact listed

/-! Lookups. -/

namespace AreComplete

theorem attemptList_eq (complete : ps.AreComplete) (analysis : Value) :
    ps.attemptList analysis = .ok (ps.list analysis) := by
  rw [attemptList, list]
  split
  next =>
    refine filterM_eq_ok fun p listed => ?_
    rw [(complete p listed).analysis]
    rfl
  next => rfl

theorem attemptFind_eq (complete : ps.AreComplete) (name analysis : Value) :
    ps.attemptFind name analysis = .ok (ps.find? name analysis) := by
  rw [attemptFind, complete.attemptList_eq]
  refine findM?_eq_ok fun p listed => ?_
  rw [(complete p (mem_of_mem_list listed)).name]
  rfl

theorem attemptConfig_eq (complete : ps.AreComplete) (name analysis : Value) :
    ps.attemptConfig name analysis = .ok (ps.config? name analysis) := by
  rw [attemptConfig, complete.attemptFind_eq, config?]
  cases found : ps.find? name analysis with
  | none => rfl
  | some p =>
      have listed := mem_of_mem_list (List.mem_of_find?_eq_some found)
      change (p.require "params" >>= fun v => _) = _
      rw [(complete p listed).params]
      rfl

end AreComplete

/-- Whether presets serve every lookup: those that are built in are offered as they are, and nothing
that is read of a preset is missing. -/
structure Serve (ps : Presets) : Prop where
  offered : ∃ user, ps.attemptList .null = .ok (Preset.builtins ++ user)
  builtin : ∀ p ∈ Preset.builtins, ps.attemptConfig p.name p.analysis = .ok (some p.config)
  listed : ∀ analysis, ∃ listed, ps.attemptList analysis = .ok listed
  config : ∀ name analysis, ∃ c, ps.attemptConfig name analysis = .ok c
  build : ∀ name analysis c, ps.attemptConfig name analysis = .ok (some c) → ∀ fallback,
    (Analysis.Draft.build analysis (.config c) fallback).lines = [] ↔
      (Analysis.Draft.build analysis (.config c) fallback).errors ≠ []

theorem exists_of_mem_builtins {p : Preset} (listed : p ∈ Preset.builtins) :
    ∃ (name : String) (kind : Analysis.Kind), p.name = .text name ∧ p.analysis = .text kind.name := by
  have all : ∀ p ∈ Preset.builtins, p.name = .text p.name.content ∧
      p.analysis = .text ((Analysis.Kind.ofValue? p.analysis).getD .op).name := by
    simp only [Preset.builtins, List.forall_mem_cons]
    refine ⟨⟨rfl, rfl⟩, ⟨rfl, rfl⟩, ⟨rfl, rfl⟩, ⟨rfl, rfl⟩, ⟨rfl, rfl⟩, nofun⟩
  exact ⟨_, _, all p listed⟩

theorem AreComplete.serve (complete : ps.AreComplete) : ps.Serve where
  offered := ⟨ps.user, complete.attemptList_eq .null⟩
  builtin := by
    intro p listed
    obtain ⟨name, kind, called, does⟩ := exists_of_mem_builtins listed
    rw [complete.attemptConfig_eq, called, does, config?_of_mem_builtins listed called does]
  listed := fun analysis => ⟨_, complete.attemptList_eq analysis⟩
  config := fun name analysis => ⟨_, complete.attemptConfig_eq name analysis⟩
  build := fun _ analysis _ _ fallback => Analysis.Draft.lines_eq_nil_iff analysis _ fallback

/-! Files. -/

/-- Whether what a path leads to keeps presets from being opened: where the path is too long, where
JSON text is not refused for its syntax, or where what should be a list has no elements at all. -/
inductive IsFatal [Json.Limits] : Files.Found → Prop
  | unnameable : IsFatal .unnameable
  | longInteger {content : String} {digits : Nat}
      (found : Json.read (Text.unified content) = .error (.longInteger digits)) :
      IsFatal (.text content)
  | tooDeep {content : String} (found : Json.read (Text.unified content) = .error .tooDeep) :
      IsFatal (.text content)
  | noList {content : String} {fields : List (String × Value)} {v : Value} {fault : Fault}
      (found : Json.read (Text.unified content) = .ok (.record fields))
      (held : fields.lookup "presets" = some v) (bare : v.items = .error fault) :
      IsFatal (.text content)

/-- The presets that a value holds. -/
def ofValue (v : Value) : Except FileError Presets := do
  let listed ← (v.fieldOr "presets" (.list [])).mapError .noRecord
  let items ← listed.items.mapError .noList
  return ⟨items.filterMap Preset.ofValue?⟩

theorem ofValue_record (fields : List (String × Value)) :
    ofValue (.record fields) =
      match ((fields.lookup "presets").getD (.list [])).items with
      | .ok items => .ok ⟨items.filterMap Preset.ofValue?⟩
      | .error fault => .error (.noList fault) := by
  change (((fields.lookup "presets").getD (.list [])).items.mapError FileError.noList >>= _) = _
  cases ((fields.lookup "presets").getD (.list [])).items with
  | ok items => rfl
  | error fault => rfl

theorem areComplete_filterMap (items : List Value) :
    AreComplete ⟨items.filterMap Preset.ofValue?⟩ := by
  refine areComplete_iff.2 fun p member => ?_
  obtain ⟨v, _, read⟩ := List.mem_filterMap.1 member
  exact Preset.isComplete_of_ofValue? read

section

variable [Json.Limits] {content path : String} {found : Files.Found}

theorem ofText_of_read {v : Value} (read : Json.read (Text.unified content) = .ok v) :
    ofText content = ofValue v := by
  rw [ofText, read]
  rfl

theorem ofText_of_error {e : Json.Error} (read : Json.read (Text.unified content) = .error e) :
    ofText content = .error (.json e) := by
  rw [ofText, read]
  rfl

theorem areComplete_of_ofFile (read : ofFile path found = .ok ps) : ps.AreComplete := by
  cases found with
  | nothing =>
      obtain rfl := Except.ok.inj read
      exact areComplete_iff.2 nofun
  | folder => cases read
  | unnameable => cases read
  | text content =>
      rw [ofFile] at read
      cases parsed : Json.read (Text.unified content) with
      | error e =>
          rw [ofText_of_error parsed] at read
          cases read
      | ok v =>
          rw [ofText_of_read parsed] at read
          cases v with
          | record fields =>
              rw [ofValue_record] at read
              split at read
              next items _ =>
                obtain rfl := Except.ok.inj read
                exact areComplete_filterMap items
              next => cases read
          | null | bool | int | float | text | list => cases read

theorem areComplete_of_load {loaded : Loaded} (read : load path found = .ok loaded) :
    loaded.presets.AreComplete := by
  rw [load] at read
  split at read
  next ps held =>
    obtain rfl := Except.ok.inj read
    exact areComplete_of_ofFile held
  next =>
    split at read
    next =>
      obtain rfl := Except.ok.inj read
      exact areComplete_iff.2 nofun
    next => cases read

theorem exists_load_iff (path : String) (found : Files.Found) :
    (∃ loaded, load path found = .ok loaded) ↔
      ¬ ∃ e, ofFile path found = .error e ∧ e.isHarmless = false := by
  rw [load]
  cases ofFile path found with
  | ok ps => exact iff_of_true ⟨_, rfl⟩ nofun
  | error e =>
      by_cases harmless : e.isHarmless = true
      · refine iff_of_true ⟨_, if_pos harmless⟩ ?_
        rintro ⟨_, same, harmful⟩
        obtain rfl := Except.error.inj same
        cases harmless.symm.trans harmful
      · refine iff_of_false ?_ (not_not.2 ⟨e, rfl, Bool.eq_false_iff.2 harmless⟩)
        rintro ⟨_, loaded⟩
        cases (if_neg harmless).symm.trans loaded

theorem exists_harmful_iff (path : String) (found : Files.Found) :
    (∃ e, ofFile path found = .error e ∧ e.isHarmless = false) ↔ IsFatal found := by
  constructor
  · rintro ⟨e, failed, harmful⟩
    cases found with
    | nothing => cases failed
    | folder =>
        obtain rfl := Except.error.inj failed
        cases harmful
    | unnameable => exact .unnameable
    | text content =>
        rw [ofFile] at failed
        cases parsed : Json.read (Text.unified content) with
        | error cause =>
            rw [ofText_of_error parsed] at failed
            obtain rfl := Except.error.inj failed
            cases cause with
            | syntaxAt => cases harmful
            | longInteger digits => exact .longInteger parsed
            | tooDeep => exact .tooDeep parsed
        | ok v =>
            rw [ofText_of_read parsed] at failed
            cases v with
            | record fields =>
                rw [ofValue_record] at failed
                split at failed
                next => cases failed
                next fault bare =>
                  cases held : fields.lookup "presets" with
                  | some v =>
                      rw [held, Option.getD_some] at bare
                      exact .noList parsed held bare
                  | none =>
                      rw [held] at bare
                      cases bare
            | null | bool | int | float | text | list =>
                obtain rfl := Except.error.inj failed
                cases harmful
  · intro fatal
    cases fatal with
    | unnameable => exact ⟨.unnameable, rfl, rfl⟩
    | longInteger found => exact ⟨.json (.longInteger _), ofText_of_error found, rfl⟩
    | tooDeep found => exact ⟨.json .tooDeep, ofText_of_error found, rfl⟩
    | @noList content fields v fault found held bare =>
        refine ⟨.noList fault, (ofText_of_read found).trans ((ofValue_record fields).trans ?_), rfl⟩
        rw [held, Option.getD_some, bare]

end

end Presets

namespace PresetStore

section

variable [Json.Limits] {s : PresetStore} {fs : Files} {path : String}

theorem open?_eq_ok_iff :
    open? fs path = .ok s ↔
      ∃ loaded, Presets.load path (fs.find path) = .ok loaded ∧ ⟨path, loaded.presets⟩ = s := by
  rw [open?]
  cases Presets.load path (fs.find path) with
  | ok loaded =>
      constructor
      · intro opened
        exact ⟨loaded, rfl, Except.ok.inj opened⟩
      · rintro ⟨_, same, rfl⟩
        obtain rfl := Except.ok.inj same
        rfl
  | error e =>
      constructor
      · intro opened
        cases opened
      · rintro ⟨_, loaded, _⟩
        cases loaded

theorem exists_ok_iff : (∃ s, open? fs path = .ok s) ↔ ¬ Presets.IsFatal (fs.find path) := by
  rw [← Presets.exists_harmful_iff path, ← Presets.exists_load_iff]
  constructor
  · rintro ⟨s, opened⟩
    obtain ⟨loaded, read, _⟩ := open?_eq_ok_iff.1 opened
    exact ⟨loaded, read⟩
  · rintro ⟨loaded, read⟩
    exact ⟨_, open?_eq_ok_iff.2 ⟨loaded, read, rfl⟩⟩

theorem serve_of_open? (opened : open? fs path = .ok s) : s.presets.Serve := by
  obtain ⟨loaded, read, rfl⟩ := open?_eq_ok_iff.1 opened
  exact (Presets.areComplete_of_load read).serve

/-- Opening succeeds on all but the fatal files, and what has been opened serves every lookup. -/
theorem opens_and_serves_iff (fs : Files) (path : String) :
    (∃ s, open? fs path = .ok s ∧ s.presets.Serve) ↔ ¬ Presets.IsFatal (fs.find path) := by
  refine Iff.trans (exists_congr fun s => ?_) exists_ok_iff
  exact and_iff_left_of_imp serve_of_open?

end

/-- A file in which the list of presets is null keeps them from being opened. -/
theorem not_opened_of_nullList :
    let fs := Files.empty.put ["presets.json"] (.text "\x7b\"presets\": null\x7d")
    fs.find "presets.json" = .text "\x7b\"presets\": null\x7d" ∧
      ¬ ∃ s, open? fs "presets.json" = .ok s := by
  intro fs
  have found : fs.find "presets.json" = .text "\x7b\"presets\": null\x7d" := by cbv
  refine ⟨found, fun opened => exists_ok_iff.1 opened ?_⟩
  rw [found]
  have read : Json.read (Text.unified "\x7b\"presets\": null\x7d") =
      .ok (.record [("presets", .null)]) := by cbv
  exact .noList read rfl rfl

end PresetStore

end Schematic
