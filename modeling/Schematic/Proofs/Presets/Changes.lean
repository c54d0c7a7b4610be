import Schematic.Preset
import Mathlib
/-!
What presets are held after a run of saves and deletions: by name and analysis the last one saved,
behind the built-in ones, which stay.
-/

namespace Schematic

namespace Preset

variable {p : Preset} {name analysis : String}

@[simp] theorem goesBy_text_iff :
    p.goesBy (.text name) (.text analysis) = true ↔
      p.name = .text name ∧ p.analysis = .text analysis := by
  simp [goesBy, Value.same_text_right]

@[simp] theorem goesBy_null_iff : p.goesBy (.text name) .null = true ↔ p.name = .text name := by
  simp [goesBy, Value.same_text_right]

/-! Built-in names. -/

def IsBuiltinName (name : String) : Prop := ∃ p ∈ builtins, p.name = .text name

def IsBuiltin (name analysis : String) : Prop :=
  ∃ p ∈ builtins, p.name = .text name ∧ p.analysis = .text analysis

theorem any_builtins_text_iff :
    builtins.any (·.goesBy (.text name) (.text analysis)) = true ↔ IsBuiltin name analysis := by
  simp only [List.any_eq_true, goesBy_text_iff, IsBuiltin]

theorem any_builtins_null_iff :
    builtins.any (·.goesBy (.text name) .null) = true ↔ IsBuiltinName name := by
  simp only [List.any_eq_true, goesBy_null_iff, IsBuiltinName]

theorem nodup_builtins : (builtins.map (·.name.content)).Nodup := by
  decide +kernel

theorem find?_builtins_of_mem (listed : p ∈ builtins) (called : p.name = .text name)
    (does : p.analysis = .text analysis) :
    builtins.find? (·.goesBy (.text name) (.text analysis)) = some p := by
  cases found : builtins.find? (·.goesBy (.text name) (.text analysis)) with
  | none => exact absurd (goesBy_text_iff.2 ⟨called, does⟩) (List.find?_eq_none.1 found p listed)
  | some q =>
      have goes : q.goesBy (.text name) (.text analysis) = true := by
        simpa using List.find?_some found
      have same : q.name.content = p.name.content := by
        rw [(goesBy_text_iff.1 goes).1, called]
      rw [List.inj_on_of_nodup_map nodup_builtins (List.mem_of_find?_eq_some found) listed same]

theorem find?_builtins_of_not_isBuiltin (own : ¬ IsBuiltin name analysis) :
    builtins.find? (·.goesBy (.text name) (.text analysis)) = none :=
  List.find?_eq_none.2 fun p listed goes => own ⟨p, listed, goesBy_text_iff.1 goes⟩

/-! Changes. -/

/-- A call that may change the presets. A save has the copy that JSON makes of its parameters, if it
makes one; a deletion names one analysis, or none to mean every one. -/
inductive Change
  | save (name analysis : String) (params : Except Json.WriteError Value)
  | delete (name : String) (analysis : Option String)

namespace Change

def names : Change → Preset → Bool
  | save name analysis _, p => p.goesBy (.text name) (.text analysis)
  | delete name analysis, p => p.goesBy (.text name) (analysis.elim .null .text)

def added : Change → List Preset
  | save name analysis (.ok params) => [.of (.text name) (.text analysis) params]
  | save _ _ (.error _) => []
  | delete .. => []

/-- Whether a change is not refused. -/
def IsEffective : Change → Prop
  | save name analysis _ =>
    (∃ kind : Analysis.Kind, kind.name = analysis) ∧ ¬ IsBuiltin name analysis
  | delete name (some analysis) => ¬ IsBuiltin name analysis
  | delete name none => ¬ IsBuiltinName name

/-- Whether a change decides what is held by a name and an analysis that are not built in. A
deletion of every analysis does nothing when the name is that of a built-in preset. -/
def Decides (name analysis : String) : Change → Prop
  | save name' analysis' _ => name' = name ∧ analysis' = analysis
  | delete name' (some analysis') => name' = name ∧ analysis' = analysis
  | delete name' none => name' = name ∧ ¬ IsBuiltinName name

variable {c : Change}

theorem exists_save_of_mem_added (new : p ∈ c.added) : ∃ name analysis params,
    c = save name analysis (.ok params) ∧ p = .of (.text name) (.text analysis) params := by
  cases c with
  | save name analysis params =>
      cases params with
      | ok params => exact ⟨name, analysis, params, rfl, List.mem_singleton.1 new⟩
      | error e => cases new
  | delete name analysis => cases new

theorem names_of_mem_added (new : p ∈ c.added) : c.names p = true := by
  obtain ⟨name, analysis, params, rfl, rfl⟩ := exists_save_of_mem_added new
  exact goesBy_text_iff.2 ⟨rfl, rfl⟩

theorem names_congr {q : Preset} (called : p.name = q.name) (does : p.analysis = q.analysis) :
    c.names p = c.names q := by
  cases c <;> simp only [names, goesBy, called, does]

theorem exists_of_mem_added (effective : c.IsEffective) (new : p ∈ c.added) :
    ∃ (name : String) (kind : Analysis.Kind) (params : Value),
      p = .of (.text name) (.text kind.name) params := by
  obtain ⟨name, analysis, params, rfl, rfl⟩ := exists_save_of_mem_added new
  obtain ⟨⟨kind, rfl⟩, _⟩ := effective
  exact ⟨name, kind, params, rfl⟩

theorem nodup_added {α : Type} (f : Preset → α) : (c.added.map f).Nodup := by
  cases c with
  | save name analysis params =>
      cases params with
      | ok params => exact List.nodup_singleton _
      | error e => exact List.nodup_nil
  | delete name analysis => exact List.nodup_nil

theorem decides_of_names (effective : c.IsEffective) (named : c.names p = true)
    (called : p.name = .text name) (does : p.analysis = .text analysis) :
    c.Decides name analysis := by
  cases c with
  | save name' analysis' params =>
      obtain ⟨called', does'⟩ := goesBy_text_iff.1 named
      exact ⟨Value.text.inj (called'.symm.trans called), Value.text.inj (does'.symm.trans does)⟩
  | delete name' analysis' =>
      cases analysis' with
      | some analysis' =>
          obtain ⟨called', does'⟩ := goesBy_text_iff.1 named
          exact ⟨Value.text.inj (called'.symm.trans called), Value.text.inj (does'.symm.trans does)⟩
      | none =>
          obtain rfl := Value.text.inj ((goesBy_null_iff.1 named).symm.trans called)
          exact ⟨rfl, effective⟩

theorem names_of_decides (decides : c.Decides name analysis) (called : p.name = .text name)
    (does : p.analysis = .text analysis) : c.names p = true := by
  cases c with
  | save name' analysis' params =>
      obtain ⟨rfl, rfl⟩ := decides
      exact goesBy_text_iff.2 ⟨called, does⟩
  | delete name' analysis' =>
      cases analysis' with
      | some analysis' =>
          obtain ⟨rfl, rfl⟩ := decides
          exact goesBy_text_iff.2 ⟨called, does⟩
      | none =>
          obtain ⟨rfl, _⟩ := decides
          exact goesBy_null_iff.2 called

theorem isEffective_of_decides {kind : Analysis.Kind} (own : ¬ IsBuiltin name kind.name)
    (decides : c.Decides name kind.name) : c.IsEffective := by
  cases c with
  | save name' analysis' params =>
      obtain ⟨rfl, rfl⟩ := decides
      exact ⟨⟨kind, rfl⟩, own⟩
  | delete name' analysis' =>
      cases analysis' with
      | some analysis' =>
          obtain ⟨rfl, rfl⟩ := decides
          exact own
      | none =>
          obtain ⟨rfl, free⟩ := decides
          exact free

end Change

end Preset

open Preset (Change IsBuiltin IsBuiltinName)

/-! One change. -/

namespace Presets

variable {ps : Presets} {name analysis : String} {c : Change}

def change (ps : Presets) : Change → Presets
  | .save name analysis params => (ps.save (.text name) (.text analysis) params).2
  | .delete name analysis => (ps.delete (.text name) (analysis.elim .null .text)).2

theorem isNone_ofValue?_iff {analysis : String} :
    (Analysis.Kind.ofValue? (.text analysis)).isNone = true ↔
      ¬ ∃ kind : Analysis.Kind, kind.name = analysis := by
  rw [Analysis.Kind.ofValue?, Option.isNone_iff_eq_none, Option.eq_none_iff_forall_ne_some,
    not_exists]
  exact forall_congr' fun kind => not_congr (Analysis.Kind.ofName?_eq_some.trans eq_comm)

theorem save_of_isBuiltin {kind : Analysis.Kind} (builtin : IsBuiltin name kind.name)
    (params : Except Json.WriteError Value) :
    ps.save (.text name) (.text kind.name) params = (.error (.isBuiltin (.text name)), ps) := by
  rw [save, if_neg fun unknown => isNone_ofValue?_iff.1 unknown ⟨kind, rfl⟩,
    if_pos (Preset.any_builtins_text_iff.2 builtin)]

theorem change_of_isEffective (effective : c.IsEffective) :
    ps.change c = ⟨ps.user.filter (!c.names ·) ++ c.added⟩ := by
  cases c with
  | save name analysis params =>
      obtain ⟨known, own⟩ := effective
      rw [change, save, if_neg fun unknown => isNone_ofValue?_iff.1 unknown known,
        if_neg (mt Preset.any_builtins_text_iff.1 own)]
      cases params with
      | ok params => rfl
      | error e =>
          rw [Change.added, List.append_nil]
          rfl
  | delete name analysis =>
      have free : ¬ Preset.builtins.any
          (·.goesBy (.text name) (analysis.elim .null .text)) = true := by
        cases analysis with
        | some analysis => exact mt Preset.any_builtins_text_iff.1 effective
        | none => exact mt Preset.any_builtins_null_iff.1 effective
      rw [change, delete, if_neg free, Change.added, List.append_nil]
      rfl

theorem change_of_not_isEffective (refused : ¬ c.IsEffective) : ps.change c = ps := by
  cases c with
  | save name analysis params =>
      by_cases known : ∃ kind : Analysis.Kind, kind.name = analysis
      · have builtin : IsBuiltin name analysis := by_contra fun own => refused ⟨known, own⟩
        rw [change, save, if_neg fun unknown => isNone_ofValue?_iff.1 unknown known,
          if_pos (Preset.any_builtins_text_iff.2 builtin)]
      · rw [change, save, if_pos (isNone_ofValue?_iff.2 known)]
  | delete name analysis =>
      have taken : Preset.builtins.any
          (·.goesBy (.text name) (analysis.elim .null .text)) = true := by
        cases analysis with
        | some analysis => exact Preset.any_builtins_text_iff.2 (not_not.1 refused)
        | none => exact Preset.any_builtins_null_iff.2 (not_not.1 refused)
      rw [change, delete, if_pos taken]

/-! What is held. -/

theorem given_name (kind : Analysis.Kind) : (Value.text kind.name).given = true := by
  cases kind <;> rfl

theorem config?_eq {kind : Analysis.Kind} :
    ps.config? (.text name) (.text kind.name) =
      ((Preset.builtins ++ ps.user).find? (·.goesBy (.text name) (.text kind.name))).map
        Preset.config := by
  rw [config?, find?, list, if_pos (given_name kind), List.find?_filter]
  congr 2
  funext p
  simp [Preset.goesBy, and_comm]

theorem config?_of_mem_builtins {p : Preset} (listed : p ∈ Preset.builtins) {kind : Analysis.Kind}
    (called : p.name = .text name) (does : p.analysis = .text kind.name) :
    ps.config? (.text name) (.text kind.name) = some p.config := by
  rw [config?_eq, List.find?_append, Preset.find?_builtins_of_mem listed called does]
  rfl

theorem config?_of_not_isBuiltin {kind : Analysis.Kind} (own : ¬ IsBuiltin name kind.name) :
    ps.config? (.text name) (.text kind.name) =
      (ps.user.find? (·.goesBy (.text name) (.text kind.name))).map Preset.config := by
  rw [config?_eq, List.find?_append, Preset.find?_builtins_of_not_isBuiltin own, Option.none_or]

theorem find?_change_of_decides {kind : Analysis.Kind} (own : ¬ IsBuiltin name kind.name)
    (decides : c.Decides name kind.name) :
    (ps.change c).user.find? (·.goesBy (.text name) (.text kind.name)) =
      c.added.find? (·.goesBy (.text name) (.text kind.name)) := by
  have gone : (ps.user.filter (!c.names ·)).find?
      (·.goesBy (.text name) (.text kind.name)) = none := by
    refine List.find?_eq_none.2 fun p kept goes => ?_
    obtain ⟨called, does⟩ := Preset.goesBy_text_iff.1 goes
    have unnamed := List.of_mem_filter kept
    rw [Change.names_of_decides decides called does] at unnamed
    cases unnamed
  rw [change_of_isEffective (Change.isEffective_of_decides own decides), List.find?_append, gone,
    Option.none_or]

theorem find?_change_of_not_decides (undecided : ¬ c.Decides name analysis) :
    (ps.change c).user.find? (·.goesBy (.text name) (.text analysis)) =
      ps.user.find? (·.goesBy (.text name) (.text analysis)) := by
  by_cases effective : c.IsEffective
  · have other : ∀ p : Preset, p.goesBy (.text name) (.text analysis) = true →
        c.names p = false := by
      intro p goes
      obtain ⟨called, does⟩ := Preset.goesBy_text_iff.1 goes
      exact Bool.eq_false_iff.2 fun named =>
        undecided (Change.decides_of_names effective named called does)
    have none : c.added.find? (·.goesBy (.text name) (.text analysis)) = none := by
      refine List.find?_eq_none.2 fun p new goes => ?_
      have named := Change.names_of_mem_added new
      rw [other p goes] at named
      cases named
    rw [change_of_isEffective effective, List.find?_append, none, Option.or_none, List.find?_filter]
    congr 1
    funext p
    by_cases goes : p.goesBy (.text name) (.text analysis) = true <;> simp [goes, other]
  · rw [change_of_not_isEffective effective]

structure AreSaved (ps : Presets) : Prop where
  saved : ∀ p ∈ ps.user, ∃ (name : String) (kind : Analysis.Kind) (params : Value),
    p = .of (.text name) (.text kind.name) params
  distinct : (ps.user.map fun p => (p.name, p.analysis)).Nodup

theorem areSaved_empty : empty.AreSaved :=
  ⟨nofun, List.nodup_nil⟩

theorem AreSaved.change (saved : ps.AreSaved) (c : Change) : (ps.change c).AreSaved := by
  by_cases effective : c.IsEffective
  · rw [change_of_isEffective effective]
    constructor
    · intro p member
      rcases List.mem_append.1 member with kept | new
      · exact saved.saved p (List.mem_of_mem_filter kept)
      · exact Change.exists_of_mem_added effective new
    · rw [List.map_append, List.nodup_append]
      refine ⟨saved.distinct.sublist (List.filter_sublist.map _), Change.nodup_added _, ?_⟩
      intro key old key' new same
      obtain ⟨p, kept, rfl⟩ := List.mem_map.1 old
      obtain ⟨q, added, rfl⟩ := List.mem_map.1 new
      obtain ⟨called, does⟩ := Prod.mk.inj same
      have unnamed := List.of_mem_filter kept
      rw [Change.names_congr called does, Change.names_of_mem_added added] at unnamed
      cases unnamed
  · rwa [change_of_not_isEffective effective]

/-- Presets after a run of changes. -/
def after (ps : Presets) (run : List Change) : Presets :=
  run.foldl change ps

theorem after_concat (ps : Presets) (run : List Change) (c : Change) :
    ps.after (run ++ [c]) = (ps.after run).change c :=
  List.foldl_concat ..

theorem AreSaved.after (saved : ps.AreSaved) (run : List Change) : (ps.after run).AreSaved :=
  List.foldlRecOn (motive := AreSaved) run Presets.change saved fun _ saved c _ => saved.change c

end Presets

namespace Preset.Change

variable {name analysis : String} {params : Except Json.WriteError Value} {run : List Change}
  {c : Change}

/-- Whether parameters are those of the last save by a name and an analysis in a run, and no change
after it decides otherwise. -/
def Leaves (run : List Change) (name analysis : String)
    (params : Except Json.WriteError Value) : Prop :=
  ∃ before later, run = before ++ save name analysis params :: later ∧
    ∀ c ∈ later, ¬ c.Decides name analysis

theorem not_leaves_nil : ¬ Leaves [] name analysis params := by
  rintro ⟨before, later, whole, _⟩
  simp at whole

theorem leaves_concat :
    Leaves (run ++ [c]) name analysis params ↔
      c = save name analysis params ∨
        ¬ c.Decides name analysis ∧ Leaves run name analysis params := by
  constructor
  · rintro ⟨before, later, whole, undecided⟩
    rcases List.eq_nil_or_concat later with rfl | ⟨later, last, rfl⟩
    · exact .inl (List.singleton_inj.1 (List.append_inj' whole rfl).2)
    · rw [List.concat_eq_append, ← List.cons_append, ← List.append_assoc] at whole
      obtain ⟨rfl, same⟩ := List.append_inj' whole rfl
      obtain rfl := List.singleton_inj.1 same
      exact .inr ⟨undecided c (by simp), before, later, rfl,
        fun other member => undecided other (by simp [member])⟩
  · rintro (rfl | ⟨undecided, before, later, rfl, others⟩)
    · exact ⟨run, [], rfl, nofun⟩
    · refine ⟨before, later ++ [c], by simp, fun other member => ?_⟩
      rcases List.mem_append.1 member with old | new
      · exact others other old
      · obtain rfl := List.mem_singleton.1 new
        exact undecided

end Preset.Change

namespace Presets

variable {name : String} {kind : Analysis.Kind}

theorem find?_added_save {params : Except Json.WriteError Value} :
    (Change.save name kind.name params).added.find?
        (·.goesBy (.text name) (.text kind.name)) =
      params.toOption.map (.of (.text name) (.text kind.name)) := by
  cases params with
  | ok params => exact List.find?_cons_of_pos (Preset.goesBy_text_iff.2 ⟨rfl, rfl⟩)
  | error e => rfl

/-- What is held by a name and an analysis is the preset that was last saved by them, if one was
made. -/
theorem find?_after_of_leaves (own : ¬ IsBuiltin name kind.name) {run : List Change}
    {params : Except Json.WriteError Value} (leaves : Change.Leaves run name kind.name params) :
    (empty.after run).user.find? (·.goesBy (.text name) (.text kind.name)) =
      params.toOption.map (.of (.text name) (.text kind.name)) := by
  induction run using List.reverseRecOn with
  | nil => exact absurd leaves Change.not_leaves_nil
  | append_singleton run c ih =>
      rw [after_concat]
      rcases Change.leaves_concat.1 leaves with rfl | ⟨undecided, earlier⟩
      · have decides : (Change.save name kind.name params).Decides name kind.name := ⟨rfl, rfl⟩
        rw [find?_change_of_decides own decides, find?_added_save]
      · rw [find?_change_of_not_decides undecided, ih earlier]

theorem config?_after_of_leaves (own : ¬ IsBuiltin name kind.name) {run : List Change}
    {params : Except Json.WriteError Value} (leaves : Change.Leaves run name kind.name params) :
    (empty.after run).config? (.text name) (.text kind.name) = params.toOption.map .ofValue := by
  rw [config?_of_not_isBuiltin own, find?_after_of_leaves own leaves, Option.map_map]
  rfl

end Presets

/-! Presets with their file. -/

namespace PresetStore

variable {s : PresetStore} {fs : Files} {path : String}

/-- A store and the files after a change, whatever comes of it. -/
def change (s : PresetStore) (fs : Files) : Change → PresetStore × Files
  | .save name analysis params => (s.save fs (.text name) (.text analysis) params).2
  | .delete name analysis => (s.delete fs (.text name) (analysis.elim .null .text)).2

/-- A store after a run of changes, each upon such files as are there at the time. -/
def after (s : PresetStore) (run : List (Files × Change)) : PresetStore :=
  run.foldl (fun s step => (s.change step.1 step.2).1) s

theorem fst_change (s : PresetStore) (fs : Files) (c : Change) :
    (s.change fs c).1 = ⟨s.path, s.presets.change c⟩ := by
  cases c with
  | save name analysis params =>
      rw [change, save, Presets.change]
      rcases s.presets.save (.text name) (.text analysis) params with ⟨saved, presets⟩
      cases saved with
      | error e => rfl
      | ok p =>
          dsimp only
          split <;> rfl
  | delete name analysis =>
      rw [change, delete, Presets.change]
      rcases s.presets.delete (.text name) (analysis.elim .null .text) with ⟨deleted, presets⟩
      cases deleted with
      | false => rfl
      | true =>
          dsimp only
          split
          next => split <;> rfl
          next => rfl

theorem save_of_isBuiltin {name : String} {kind : Analysis.Kind}
    (builtin : IsBuiltin name kind.name) (params : Except Json.WriteError Value) :
    s.save fs (.text name) (.text kind.name) params = (.error (.isBuiltin (.text name)), s, fs) := by
  rw [save, Presets.save_of_isBuiltin builtin]

end PresetStore

end Schematic
