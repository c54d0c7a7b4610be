import Schematic.Proofs.Analysis.Trimming
import Schematic.Proofs.Json.Plain
import Schematic.Proofs.Presets.Reopening
/-!
A configuration asks for the same whether it is used as it is or taken from a preset, also from one
that has been found again in its file.
-/

namespace Schematic

open Preset (Change IsBuiltin)
open Json (IsJoined IsPlain)

namespace Analysis.Config

variable {room : Nat}

theorem isPlain_texts {fields : List (String × String)} (distinct : (fields.map (·.1)).Nodup)
    (names : ∀ name ∈ fields.map (·.1), IsJoined name.toList)
    (settings : ∀ s ∈ fields.map (·.2), IsJoined s.toList) :
    IsPlain (room + 1) (.record (fields.map fun f => (f.1, .text f.2))) := by
  have same : (fields.map fun f => (f.1, Value.text f.2)).map (·.1) = fields.map (·.1) := by
    rw [List.map_map]
    rfl
  refine .record (same ▸ distinct) (same ▸ names) fun f member => ?_
  obtain ⟨g, listed, rfl⟩ := List.mem_map.1 member
  exact .text (settings g.2 (List.mem_map_of_mem listed))

def texts (c : Config) : List String :=
  c.signals ++ [c.dc.source, c.dc.start, c.dc.stop, c.dc.step, c.tran.step, c.tran.stop,
    c.tran.start, c.tran.maxStep, c.ac.sweep, c.ac.points, c.ac.start, c.ac.stop]

theorem isPlain_toValue {c : Config} (joined : ∀ s ∈ c.texts, IsJoined s.toList) (room : Nat) :
    IsPlain (room + 3) c.toValue := by
  obtain ⟨listed, settings⟩ := List.forall_mem_append.1 joined
  simp only [List.forall_mem_cons, List.not_mem_nil, false_implies, implies_true, and_true]
    at settings
  have signals : IsPlain (room + 2) (.record [("signals", .list (c.signals.map .text))]) := by
    refine .record (List.nodup_singleton _) ?_ (List.forall_mem_singleton.2 (.list fun v member => ?_))
    · change ∀ name ∈ ["signals"], _
      decide +kernel
    · obtain ⟨s, isSignal, rfl⟩ := List.mem_map.1 member
      exact .text (listed s isSignal)
  refine .record (by simp) ?_ ?_
  · change ∀ name ∈ ["save", "dc", "tran", "ac"], _
    decide +kernel
  · simp only [List.forall_mem_cons, List.not_mem_nil, false_implies, implies_true, and_true]
    refine ⟨signals, isPlain_texts (by simp) ?_ (by simp [settings]),
      isPlain_texts (by simp) ?_ (by simp [settings]), isPlain_texts (by simp) ?_ (by simp [settings])⟩
    · change ∀ name ∈ ["source", "start", "stop", "step"], _
      decide +kernel
    · change ∀ name ∈ ["step", "stop", "start", "maxStep"], _
      decide +kernel
    · change ∀ name ∈ ["sweep", "points", "start", "stop"], _
      decide +kernel

end Analysis.Config

namespace Presets

variable {ps ps' : Presets} {p : Preset} {name : String} {kind : Analysis.Kind}
  {c : Analysis.Config} {run : List Change}

theorem not_isBuiltin_of_save {params : Except Json.WriteError Value}
    (saved : ps.save (.text name) (.text kind.name) params = (.ok p, ps')) :
    ¬ IsBuiltin name kind.name := by
  intro builtin
  rw [save_of_isBuiltin builtin] at saved
  cases saved

theorem config?_of_save {params : Value}
    (saved : ps.save (.text name) (.text kind.name) (.ok params) = (.ok p, ps')) :
    ps'.config? (.text name) (.text kind.name) = some (.ofValue params) := by
  have own := not_isBuiltin_of_save saved
  have changed : ps.change (.save name kind.name (.ok params)) = ps' := by
    rw [change, saved]
  have decides : (Change.save name kind.name (.ok params)).Decides name kind.name := ⟨rfl, rfl⟩
  rw [← changed, config?_of_not_isBuiltin own, find?_change_of_decides own decides,
    find?_added_save]
  rfl

theorem mem_change {change : Change} (kept : p ∈ (ps.change change).user) :
    p ∈ ps.user ∨ p ∈ change.added := by
  by_cases effective : change.IsEffective
  · rw [change_of_isEffective effective] at kept
    exact (List.mem_append.1 kept).imp_left List.mem_of_mem_filter
  · rw [change_of_not_isEffective effective] at kept
    exact .inl kept

theorem exists_save_of_mem_after (kept : p ∈ (empty.after run).user) :
    ∃ name analysis params, Change.save name analysis (.ok params) ∈ run ∧
      p = .of (.text name) (.text analysis) params := by
  induction run using List.reverseRecOn with
  | nil => cases kept
  | append_singleton run change ih =>
      rw [after_concat] at kept
      rcases mem_change kept with old | new
      · obtain ⟨name, analysis, params, saves, rfl⟩ := ih old
        exact ⟨name, analysis, params, List.mem_append_left _ saves, rfl⟩
      · obtain ⟨name, analysis, params, rfl, rfl⟩ := Change.exists_save_of_mem_added new
        exact ⟨name, analysis, params, List.mem_append_right _ List.mem_cons_self, rfl⟩

theorem isPlain_of {name analysis : String} {params : Value} {room : Nat}
    (called : IsJoined name.toList) (does : IsJoined analysis.toList) (plain : IsPlain room params) :
    IsPlain (room + 1) (Preset.of (.text name) (.text analysis) params).toValue := by
  refine .record (by simp [Preset.of]) ?_ ?_
  · change ∀ name ∈ ["name", "analysis", "params"], _
    decide +kernel
  · simp only [Preset.of, List.forall_mem_cons, List.not_mem_nil, false_implies, implies_true,
      and_true]
    exact ⟨.text called, .text does, plain⟩

theorem find?_filter_given (named : name ≠ "") (user : List Preset) :
    (user.filter (·.name.given)).find? (·.goesBy (.text name) (.text kind.name)) =
      user.find? (·.goesBy (.text name) (.text kind.name)) := by
  rw [List.find?_filter]
  congr 1
  funext p
  by_cases goes : p.goesBy (.text name) (.text kind.name) = true
  · have given : p.name.given = true := by
      rw [(Preset.goesBy_text_iff.1 goes).1]
      exact bne_iff_ne.2 named
    simp only [given, goes, and_self, decide_true]
  · simp only [goes, and_false, decide_false, Bool.false_eq_true]

theorem config?_filter_given (named : name ≠ "") :
    config? ⟨ps.user.filter (·.name.given)⟩ (.text name) (.text kind.name) =
      ps.config? (.text name) (.text kind.name) := by
  rw [config?_eq, config?_eq, List.find?_append, List.find?_append, find?_filter_given named]

variable [Json.Limits]

/-- Whether the parameters that a run saves hold no numbers, and lie no deeper than a file of presets
has room for, and no text that it saves has a divided pair. -/
def SavesPlain (run : List Change) : Prop :=
  ∃ room, room + 3 = Json.Limits.depth ∧
    ∀ name analysis params, Change.save name analysis params ∈ run →
      IsJoined name.toList ∧ IsJoined analysis.toList ∧ ∃ v, params = .ok v ∧ IsPlain room v

theorem SavesPlain.isWritten (plain : SavesPlain run) : ∀ c ∈ run, PresetStore.IsWritten c := by
  obtain ⟨_, _, plain⟩ := plain
  intro c member
  cases c with
  | save name analysis params =>
      obtain ⟨_, _, v, written, _⟩ := plain name analysis params member
      exact ⟨v, written⟩
  | delete name analysis => trivial

theorem readsBack_after (plain : SavesPlain run) : Json.ReadsBack (empty.after run).toValue := by
  obtain ⟨room, enough, plain⟩ := plain
  have whole : IsPlain (room + 3) (empty.after run).toValue := by
    refine .record (List.nodup_singleton _) ?_
      (List.forall_mem_singleton.2 (.list fun v listed => ?_))
    · change ∀ name ∈ ["presets"], _
      decide +kernel
    · obtain ⟨p, kept, rfl⟩ := List.mem_map.1 listed
      obtain ⟨name, analysis, params, saves, rfl⟩ := exists_save_of_mem_after kept
      obtain ⟨called, does, _, written, isPlain⟩ := plain name analysis _ saves
      obtain rfl := Except.ok.inj written
      exact isPlain_of called does isPlain
  rw [enough] at whole
  exact whole.readsBack

end Presets

namespace Analysis.Config

/-- A configuration asks for the same from its document, from a preset, and from a preset in a file. -/
theorem survives_storing [Json.Limits] :
    (∀ d, ofValue (ofValue d).toValue = ofValue d) ∧
    ∀ c : Config,
      (∀ kind fallback,
        Draft.build kind (.document c.toValue) fallback = Draft.build kind (.config c) fallback) ∧
      c.Alike (ofValue c.toValue) ∧
      (∀ (ps ps' : Presets) p name (kind : Kind),
        ps.save (.text name) (.text kind.name) (.ok c.toValue) = (.ok p, ps') →
          ∃ stored, ps'.config? (.text name) (.text kind.name) = some stored ∧ c.Alike stored) ∧
      ∀ (fs : Files) path, fs.find path = .nothing → fs.IsWritable path → ∀ run,
        Presets.SavesPlain run → ∀ name (kind : Kind), name ≠ "" → ¬ IsBuiltin name kind.name →
          Change.Leaves run name kind.name (.ok c.toValue) →
            ∃ s again stored, PresetStore.open? fs path = .ok s ∧
              PresetStore.open? (s.changes fs run).2 path = .ok again ∧
              (s.changes fs run).1.presets.config? (.text name) (.text kind.name) = some stored ∧
              again.presets.config? (.text name) (.text kind.name) = some stored ∧
              c.Alike stored := by
  refine ⟨ofValue_toValue_ofValue, fun c => ⟨fun kind fallback => ?_, c.alike_ofValue_toValue,
    fun ps ps' p name kind saved => ?_, ?_⟩⟩
  · exact (c.alike_ofValue_toValue.build kind fallback).symm
  · exact ⟨_, Presets.config?_of_save saved, c.alike_ofValue_toValue⟩
  · intro fs path absent writable run plain name kind named own leaves
    have held : (Presets.empty.after run).config? (.text name) (.text kind.name) =
        some (ofValue c.toValue) :=
      Presets.config?_after_of_leaves own leaves
    refine ⟨_, _, _, PresetStore.open?_of_nothing absent,
      PresetStore.open?_changes absent writable plain.isWritten (Presets.readsBack_after plain), ?_, ?_,
      c.alike_ofValue_toValue⟩
    · rw [PresetStore.fst_changes]
      exact held
    · rw [Presets.config?_filter_given named]
      exact held

/-- A configuration with outer blanks, and with a signal that is blank. -/
def spacedSweep : Config where
  signals := [" V(a) ", " "]
  dc := { source := " V1", start := "0 ", stop := "5", step := "1\n" }

theorem survives_storing_spacedSweep :
    let run := [Change.save "Mine" "dc" (.ok spacedSweep.toValue)]
    Files.empty.find "presets.json" = .nothing ∧ Files.empty.IsWritable "presets.json" ∧
      Presets.SavesPlain run ∧ "Mine" ≠ "" ∧ ¬ IsBuiltin "Mine" "dc" ∧
      Change.Leaves run "Mine" "dc" (.ok spacedSweep.toValue) ∧
      ∃ s again stored, PresetStore.open? Files.empty "presets.json" = .ok s ∧
        PresetStore.open? (s.changes Files.empty run).2 "presets.json" = .ok again ∧
        again.presets.config? (.text "Mine") (.text "dc") = some stored ∧
        Draft.build (.text "dc") (.config stored) .null =
          ⟨[".save V(a)", ".dc V1 0 5 1"], []⟩ := by
  intro run
  have absent : Files.empty.find "presets.json" = .nothing := by cbv
  have plain : Presets.SavesPlain run := by
    refine ⟨982, rfl, fun name analysis params saves => ?_⟩
    obtain ⟨rfl, rfl, rfl⟩ := Change.save.inj (List.mem_singleton.1 saves)
    exact ⟨by decide +kernel, by decide +kernel, _, rfl, isPlain_toValue (by decide +kernel) 979⟩
  have named : "Mine" ≠ "" := by decide
  have own : ¬ IsBuiltin "Mine" (Kind.name .dc) := by
    rw [← Preset.any_builtins_text_iff]
    decide +kernel
  have leaves : Change.Leaves run "Mine" (Kind.name .dc) (.ok spacedSweep.toValue) :=
    ⟨[], [], rfl, List.forall_mem_nil _⟩
  obtain ⟨s, again, stored, opened, reopened, _, held, alike⟩ :=
    (survives_storing.2 spacedSweep).2.2.2 Files.empty "presets.json" absent
      PresetStore.isWritable_empty run plain "Mine" .dc named own leaves
  refine ⟨absent, PresetStore.isWritable_empty, plain, named, own, leaves, s, again, stored,
    opened, reopened, held, ?_⟩
  rw [← alike.build]
  decide +kernel

end Analysis.Config

end Schematic
