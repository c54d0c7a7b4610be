import Schematic.Proofs.Files
import Schematic.Proofs.Json
import Schematic.Proofs.Presets.Changes
/-!
Presets that have been written to a file are found there when it is opened again, all but one
without a name.
-/

namespace Schematic

open Preset (Change)

namespace Preset

variable {p : Preset} {name : String}

theorem ofValue?_of (name : String) (kind : Analysis.Kind) (params : Value) :
    ofValue? (Preset.of (.text name) (.text kind.name) params).toValue =
      if name = "" then none else some (.of (.text name) (.text kind.name) params) := by
  have known : (Analysis.Kind.ofValue? (.text kind.name)).isSome = true := by
    rw [Analysis.Kind.ofValue?, Analysis.Kind.ofName?_name]
    rfl
  by_cases blank : name = ""
  · subst blank
    rfl
  · have given : (Value.text name).given = true := bne_iff_ne.2 blank
    rw [if_neg blank]
    change (if (Value.text name).given && _ then _ else _) = _
    rw [given, Bool.true_and]
    exact if_pos known

end Preset

namespace Presets

variable {ps : Presets}

theorem AreSaved.filterMap_ofValue? (saved : ps.AreSaved) :
    (ps.user.map Preset.toValue).filterMap Preset.ofValue? = ps.user.filter (·.name.given) := by
  rw [List.filterMap_map, ← List.filterMap_eq_filter]
  refine List.filterMap_congr fun p member => ?_
  obtain ⟨name, kind, params, rfl⟩ := saved.saved p member
  refine (Preset.ofValue?_of name kind params).trans ?_
  change _ = if (name != "") = true then _ else _
  by_cases blank : name = "" <;> simp [blank]

theorem AreSaved.ofText_write [Json.Limits] (saved : ps.AreSaved) (reads : Json.ReadsBack ps.toValue) :
    ofText (Json.write ps.toValue) = .ok ⟨ps.user.filter (·.name.given)⟩ := by
  rw [ofText, reads, ← saved.filterMap_ofValue?]
  rfl

theorem AreSaved.filter_eq_self_iff (saved : ps.AreSaved) :
    ps.user.filter (·.name.given) = ps.user ↔ ∀ p ∈ ps.user, p.name ≠ .text "" := by
  rw [List.filter_eq_self]
  refine forall₂_congr fun p member => ?_
  obtain ⟨name, kind, params, rfl⟩ := saved.saved p member
  change (name != "") = true ↔ Value.text name ≠ .text ""
  rw [bne_iff_ne, Ne, Ne, Value.text.injEq]

theorem snd_save_of_fst_eq_error {name analysis params : Value} {e : SaveError}
    (failed : (ps.save name analysis (.ok params)).1 = .error e) :
    (ps.save name analysis (.ok params)).2 = ps := by
  unfold save at failed ⊢
  split
  next => rfl
  next known =>
    rw [if_neg known] at failed
    split
    next => rfl
    next own =>
      rw [if_neg own] at failed
      cases failed

theorem snd_delete_of_fst_eq_false {name analysis : Value}
    (none : (ps.delete name analysis).1 = false) : (ps.delete name analysis).2 = ps := by
  unfold delete at none ⊢
  split
  next => rfl
  next free =>
    rw [if_neg free] at none
    have others : ps.user.filter (fun p => !p.goesBy name analysis) = ps.user := by
      refine List.filter_eq_self.2 fun p member => ?_
      rw [Bool.eq_false_iff.2 (List.any_eq_false.1 none p member)]
      rfl
    rw [others]

end Presets

namespace PresetStore

variable {s : PresetStore} {fs : Files} {path : String}

def IsWritten : Change → Prop
  | .save _ _ params => ∃ v, params = .ok v
  | .delete .. => True

/-- A store and the files after a run of changes, each upon the files that the last one left. -/
def changes (s : PresetStore) (fs : Files) (run : List Change) : PresetStore × Files :=
  run.foldl (fun now c => now.1.change now.2 c) (s, fs)

/-- Whether a store's file can be written and holds its presets, or is not there as long as there
are none. -/
structure IsKept (s : PresetStore) (fs : Files) : Prop where
  writable : fs.IsWritable s.path
  content : fs.find s.path = .text (Json.write s.presets.toValue) ∨
    fs.find s.path = .nothing ∧ s.presets = .empty

theorem exists_flush (writable : fs.IsWritable s.path) :
    ∃ fs', s.flush fs = .ok fs' ∧ s.IsKept fs' := by
  obtain ⟨fs', written, found, again⟩ := writable.exists_write (Json.write s.presets.toValue)
  have named := (Files.writeWithFolder_eq_ok.1 written).1
  refine ⟨fs', ?_, again, .inl found⟩
  rw [flush, named, written]
  rfl

theorem IsKept.change (kept : s.IsKept fs) {c : Change} (written : IsWritten c) :
    (s.change fs c).1.IsKept (s.change fs c).2 := by
  cases c with
  | save name analysis params =>
      obtain ⟨params, rfl⟩ := written
      rw [PresetStore.change, save]
      rcases outcome : s.presets.save (.text name) (.text analysis) (.ok params) with
        ⟨saved, presets⟩
      cases saved with
      | error e =>
          have same := Presets.snd_save_of_fst_eq_error (congrArg Prod.fst outcome)
          rw [outcome] at same
          obtain rfl : presets = s.presets := same
          exact kept
      | ok p =>
          obtain ⟨fs', flushed, keeps⟩ := exists_flush (s := { s with presets }) kept.writable
          simp only [flushed]
          exact keeps
  | delete name analysis =>
      rw [PresetStore.change, delete]
      rcases outcome : s.presets.delete (.text name) (analysis.elim .null .text) with
        ⟨deleted, presets⟩
      cases deleted with
      | false =>
          have same := Presets.snd_delete_of_fst_eq_false (congrArg Prod.fst outcome)
          rw [outcome] at same
          obtain rfl : presets = s.presets := same
          exact kept
      | true =>
          obtain ⟨fs', flushed, keeps⟩ := exists_flush (s := { s with presets }) kept.writable
          simp only [flushed]
          exact keeps

theorem IsKept.changes (kept : s.IsKept fs) {run : List Change}
    (written : ∀ c ∈ run, IsWritten c) : (s.changes fs run).1.IsKept (s.changes fs run).2 := by
  induction run generalizing s fs with
  | nil => exact kept
  | cons c run ih =>
      obtain ⟨here, later⟩ := List.forall_mem_cons.1 written
      exact ih (kept.change here) later

theorem fst_changes (s : PresetStore) (fs : Files) (run : List Change) :
    (s.changes fs run).1 = ⟨s.path, s.presets.after run⟩ := by
  induction run generalizing s fs with
  | nil => rfl
  | cons c run ih =>
      change ((s.change fs c).1.changes (s.change fs c).2 run).1 = _
      rw [ih, fst_change]
      rfl

theorem IsKept.open?_eq_ok [Json.Limits] (kept : s.IsKept fs) (saved : s.presets.AreSaved)
    (reads : Json.ReadsBack s.presets.toValue) :
    open? fs s.path = .ok ⟨s.path, ⟨s.presets.user.filter (·.name.given)⟩⟩ := by
  rw [open?, Presets.load]
  rcases kept.content with found | ⟨found, none⟩
  · rw [found, Presets.ofFile, saved.ofText_write reads]
    rfl
  · rw [found, none]
    rfl

theorem open?_of_nothing [Json.Limits] (absent : fs.find path = .nothing) :
    open? fs path = .ok ⟨path, .empty⟩ := by
  rw [open?, absent]
  rfl

theorem open?_changes [Json.Limits] (absent : fs.find path = .nothing)
    (writable : fs.IsWritable path)
    {run : List Change} (written : ∀ c ∈ run, IsWritten c)
    (reads : Json.ReadsBack (Presets.empty.after run).toValue) :
    open? (changes ⟨path, .empty⟩ fs run).2 path =
      .ok ⟨path, ⟨(Presets.empty.after run).user.filter (·.name.given)⟩⟩ := by
  have kept : IsKept ⟨path, .empty⟩ fs := ⟨writable, .inr ⟨absent, rfl⟩⟩
  have kept := kept.changes written
  rw [fst_changes] at kept
  exact kept.open?_eq_ok (Presets.areSaved_empty.after run) reads

/-- A store whose file can be written is found again in it after any run of saves and deletions,
but for a preset without a name. -/
theorem reopen_after_changes [Json.Limits] (absent : fs.find path = .nothing)
    (writable : fs.IsWritable path) :
    ∃ s, open? fs path = .ok s ∧ ∀ run, (∀ c ∈ run, IsWritten c) →
      Json.ReadsBack (s.changes fs run).1.presets.toValue →
      ∃ again, open? (s.changes fs run).2 path = .ok again ∧
        again.presets.user = (s.changes fs run).1.presets.user.filter (·.name.given) ∧
        (again = (s.changes fs run).1 ↔
          ∀ p ∈ (s.changes fs run).1.presets.user, p.name ≠ .text "") := by
  refine ⟨⟨path, .empty⟩, open?_of_nothing absent, fun run written reads => ?_⟩
  rw [fst_changes] at reads ⊢
  refine ⟨_, open?_changes absent writable written reads, rfl, Iff.trans ?_
    (Presets.areSaved_empty.after run).filter_eq_self_iff⟩
  constructor
  · exact fun same => congrArg (·.presets.user) same
  · intro same
    rw [same]

theorem isWritable_empty : Files.empty.IsWritable "presets.json" := by
  have led : Files.empty.locate "presets.json" = .ok ["presets.json"] := by cbv
  have free : Files.fixed? ["presets.json"] = none := by cbv
  exact ⟨_, Files.writeWithFolder_eq_ok.2 ⟨by cbv, .empty, by cbv, Files.write_empty led free⟩,
    Files.holds_of_locate
      ((Files.keepsFolders_put (Files.node_empty_ne_folder free) _).locate led) free⟩

/-- Two presets are found again in their order, a third having been deleted. -/
theorem reopen_after_changes_sweeps :
    let run := [Change.save "Sweep" "dc" (.ok (.record [("dc", .record [("start", .text "0")])])),
      .save "Sweep" "ac" (.ok (.record [])), .save "Bias" "op" (.ok (.record [("op", .null)])),
      .delete "Sweep" (some "ac")]
    Files.empty.find "presets.json" = .nothing ∧ Files.empty.IsWritable "presets.json" ∧
      ∃ s, open? Files.empty "presets.json" = .ok s ∧
        open? (s.changes Files.empty run).2 "presets.json" = .ok (s.changes Files.empty run).1 ∧
        (s.changes Files.empty run).1.presets.user.length = 2 := by
  intro run
  have absent : Files.empty.find "presets.json" = .nothing := by cbv
  obtain ⟨s, opened, reopens⟩ := reopen_after_changes absent isWritable_empty
  obtain rfl := Except.ok.inj ((open?_of_nothing absent).symm.trans opened)
  have held := fst_changes ⟨"presets.json", .empty⟩ Files.empty run
  have reads : Json.ReadsBack (Presets.empty.after run).toValue := by decide +kernel
  have named := (Presets.areSaved_empty.after run).filter_eq_self_iff.1 rfl
  have written : ∀ c ∈ run, IsWritten c := by
    simp only [run, List.forall_mem_cons, IsWritten, Except.ok.injEq, exists_eq', true_and]
    exact List.forall_mem_nil _
  obtain ⟨again, reopened, _, same⟩ := reopens run written (by rw [held]; exact reads)
  refine ⟨absent, isWritable_empty, _, opened, ?_, by rw [held]; rfl⟩
  rw [reopened, same.2 (by rw [held]; exact named)]

/-- A preset without a name is saved and is not found again. -/
theorem reopen_after_unnamed :
    ∃ s p, open? Files.empty "presets.json" = .ok s ∧
      (s.changes Files.empty [.save "" "op" (.ok (.record []))]).1.presets.user = [p] ∧
        open? (s.changes Files.empty [.save "" "op" (.ok (.record []))]).2 "presets.json" = .ok s := by
  have absent : Files.empty.find "presets.json" = .nothing := by cbv
  have written : ∀ c ∈ [Change.save "" "op" (.ok (.record []))], IsWritten c :=
    List.forall_mem_singleton.2 ⟨_, rfl⟩
  refine ⟨_, .of (.text "") (.text "op") (.record []), open?_of_nothing absent, ?_,
    open?_changes absent isWritable_empty written (by decide +kernel)⟩
  rw [fst_changes]
  rfl

end PresetStore

end Schematic
