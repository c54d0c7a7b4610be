import Schematic.Proofs.Faithfulness
import Schematic.Proofs.Files
import Schematic.Proofs.Kept
import Schematic.Proofs.Loading
/-!
Saving in place: the file is opened before the drawing is turned into its document, so that a
drawing without one leaves the file empty.
-/

namespace Schematic

theorem Entries.put_put {κ α : Type} [BEq κ] [LawfulBEq κ] (es : Entries κ α) (k : κ) (a b : α) :
    (es.put k a).put k b = es.put k b := by
  induction es with
  | nil => simp only [put, beq_self_eq_true, if_true]
  | cons e es ih =>
      by_cases met : (e.1 == k) = true
      · simp only [put, met, if_true]
      · simp only [put, met, Bool.false_eq_true, if_false, ih]

namespace Files

variable {fs fs' : Files} {path content : String}

theorem put_put (fs : Files) (place : List String) (found found' : Found) :
    (fs.put place found).put place found' = fs.put place found' := by
  unfold put
  cases fixed? place with
  | some kept => rfl
  | none => exact congrArg Files.mk (Entries.put_put ..)

theorem write_write (opened : fs.write path content = .ok fs') (content' : String) :
    fs'.write path content' = fs.write path content' := by
  obtain ⟨place, led, noFolder, rfl⟩ := write_eq_ok.1 opened
  have led' := (keepsFolders_put noFolder (.text content)).locate led
  have noFolder' : (fs.put place (.text content)).node place ≠ .folder := by
    intro folder
    cases free : fixed? place with
    | some kept =>
        rw [put, free] at folder
        exact noFolder folder
    | none =>
        rw [node_put_self free] at folder
        cases folder
  have again := write_eq_ok.2 ⟨place, led', noFolder', put_put fs place _ (.text content')⟩
  exact again.trans (write_eq_ok.2 ⟨place, led, noFolder, rfl⟩).symm

theorem find_of_write_empty (emptied : fs.write path "" = .ok fs') : fs'.find path = .text "" := by
  obtain ⟨place, led, noFolder, rfl⟩ := write_eq_ok.1 emptied
  have led' := (keepsFolders_put noFolder (.text "")).locate led
  have found : (fs.put place (.text "")).find path = (fs.put place (.text "")).node place := by
    rw [find, led']
  rw [found]
  rcases fixed?_cases place with free | folder | device
  · exact node_put_self free _
  · exact absurd (by rw [node, folder]) noFolder
  · rw [node, device]

end Files

theorem Fault.exists_mapM_iff {α β : Type} {f : α → Except Fault β} {xs : List α} :
    (∃ ys, xs.mapM f = .ok ys) ↔ ∀ x ∈ xs, ∃ y, f x = .ok y := by
  constructor
  · rintro ⟨ys, made⟩ x member
    obtain ⟨y, _, found⟩ := exists_of_mapM_eq_ok made member
    exact ⟨y, found⟩
  · exact exists_mapM

theorem Fault.exists_bind_iff {α β : Type} {x : Except Fault α} {next : α → Except Fault β}
    (goesOn : ∀ a, ∃ b, next a = .ok b) : (∃ b, (x >>= next) = .ok b) ↔ ∃ a, x = .ok a := by
  constructor
  · rintro ⟨b, made⟩
    obtain ⟨a, found, _⟩ := bind_eq_ok.1 made
    exact ⟨a, found⟩
  · exact fun found => exists_bind found goesOn

def Wire.IsPaired (w : Wire) : Prop :=
  ∀ p ∈ w.points, ∃ xy, p.pair = .ok xy

theorem Wire.exists_toValue_iff {w : Wire} : (∃ v, w.toValue = .ok v) ↔ w.IsPaired := by
  refine (Fault.exists_bind_iff fun points => ⟨_, rfl⟩).trans (Fault.exists_mapM_iff.trans ?_)
  exact forall₂_congr fun p _ => Fault.exists_bind_iff fun (x, y) => ⟨_, rfl⟩

theorem Drawing.exists_toValue_iff {d : Drawing} :
    (∃ v, d.toValue = .ok v) ↔ ∀ w ∈ d.wires, w.IsPaired := by
  refine (Fault.exists_bind_iff fun wires => ⟨_, rfl⟩).trans (Fault.exists_mapM_iff.trans ?_)
  exact forall₂_congr fun w _ => Wire.exists_toValue_iff

theorem Drawing.Built.isPaired {d : Drawing} (built : d.Built) : ∀ w ∈ d.wires, w.IsPaired := by
  intro w listed p member
  obtain ⟨w₀, tidied⟩ := built.exists_wire w listed
  obtain ⟨places, _, rest⟩ := Fault.bind_eq_ok.1 tidied
  obtain rfl := Fault.pure_eq_ok.1 rest
  obtain ⟨place, _, shown⟩ := List.mem_filterMap.1 member
  obtain ⟨q, _, rfl⟩ := Option.map_eq_some_iff.1 shown
  exact ⟨(.float q.x, .float q.y), rfl⟩

namespace Session

section

variable {ε σ β : Type}

theorem run_get_bind (next : σ → ExceptT ε (StateM σ) β) (t : σ) :
    (get >>= next).run.run t = (next t).run.run t :=
  rfl

theorem run_modify_bind (f : σ → σ) (next : PUnit → ExceptT ε (StateM σ) β) (t : σ) :
    (modify f >>= next).run.run t = (next ()).run.run (f t) :=
  rfl

end

def savedTo (s : Session) (path : String) : Session :=
  { s with current := some (Files.tidyPath path) }

/-- What saving to a file comes to: the file has the whole document, or cannot be opened, or has
been emptied for a drawing that has no document. -/
inductive Saves (s : Session) (fs : Files) (path : String) :
    Except SaveError Unit × Session × Files → Prop
  | whole {emptied saved : Files} {v : Value} (opening : fs.write path "" = .ok emptied)
      (made : s.drawing.toValue = .ok v) (written : fs.write path (Json.write v) = .ok saved) :
      Saves s fs path (.ok (), s.savedTo path, saved)
  | refused {e : Files.Error} (opening : fs.write path "" = .error e) :
      Saves s fs path (.error (.file e), s, fs)
  | emptied {emptied : Files} {fault : Fault} (opening : fs.write path "" = .ok emptied)
      (made : s.drawing.toValue = .error fault) :
      Saves s fs path (.error (.fault fault), s, emptied)

theorem saves_attemptSave (s : Session) (fs : Files) (path : String) :
    Saves s fs path (s.attemptSave fs path) := by
  simp only [attemptSave, saveInPlace, run_get_bind, run_liftExcept_bind, run_modify_bind]
  cases opening : fs.write path "" with
  | error e => exact .refused opening
  | ok emptied =>
      cases made : s.drawing.toValue with
      | error fault => exact .emptied opening made
      | ok v =>
          obtain ⟨saved, written⟩ := Files.exists_write_of_write opening
          have written' := (Files.write_write opening (Json.write v)).trans written
          simp only [Except.mapError, written']
          exact .whole opening made written

theorem attemptSave_eq_iff {s : Session} {fs : Files} {path : String}
    {left : Except SaveError Unit × Session × Files} :
    s.attemptSave fs path = left ↔ Saves s fs path left := by
  constructor
  · rintro rfl
    exact s.saves_attemptSave fs path
  · have saves := s.saves_attemptSave fs path
    generalize s.attemptSave fs path = left' at saves
    intro saves'
    cases saves <;> cases saves' <;>
      simp_all only [Except.ok.injEq, Except.error.injEq, reduceCtorEq]

/-- Trying to save is saving: what fails leaves the session as it was. -/
theorem attemptSave_eq_save (s : Session) (fs : Files) (path : String) :
    s.attemptSave fs path = match s.save fs path with
      | (.ok s', fs') => (.ok (), s', fs')
      | (.error e, fs') => (.error e, s, fs') := by
  have saves := s.saves_attemptSave fs path
  unfold save
  generalize s.attemptSave fs path = left at saves
  cases saves with
  | whole opening made written =>
      simp only [opening, made, written]
      rfl
  | refused opening => simp only [opening]
  | emptied opening made => simp only [opening, made]

/-- Whether a save that stops at a drawing without a document leaves the current file, and what the
path leads to, as they were. -/
def SparesFile (s : Session) (fs : Files) (path : String) : Prop :=
  ∀ fault s' fs', s.attemptSave fs path = (.error (.fault fault), s', fs') →
    s'.current = s.current ∧ fs'.find path = fs.find path

/-- Saving spares a file just when it cannot be opened, has nothing to lose, or is to hold a drawing
whose wires have coordinates in pairs; the drawings that are made by adding components and wires are
such. -/
theorem save_spares_file_iff (s : Session) (fs : Files) (path : String) :
    Saves s fs path (s.attemptSave fs path) ∧
      (s.SparesFile fs path ↔ (∃ e, fs.write path "" = .error e) ∨
        (∀ w ∈ s.drawing.wires, w.IsPaired) ∨ fs.find path = .text "") ∧
      (s.drawing.Built → s.SparesFile fs path) := by
  have saves := s.saves_attemptSave fs path
  have spares : s.SparesFile fs path ↔ (∃ e, fs.write path "" = .error e) ∨
      (∀ w ∈ s.drawing.wires, w.IsPaired) ∨ fs.find path = .text "" := by
    rw [← Drawing.exists_toValue_iff]
    unfold SparesFile
    generalize s.attemptSave fs path = left at saves
    cases saves with
    | whole _ made _ =>
        refine iff_of_true (fun fault s' fs' left => ?_) (.inr (.inl ⟨_, made⟩))
        cases congrArg Prod.fst left
    | refused opening =>
        refine iff_of_true (fun fault s' fs' left => ?_) (.inl ⟨_, opening⟩)
        cases congrArg Prod.fst left
    | emptied opening made =>
        have found := Files.find_of_write_empty opening
        constructor
        · intro spared
          exact .inr (.inr ((spared _ _ _ rfl).2.symm.trans found))
        · rintro (⟨e, refused⟩ | ⟨v, made'⟩ | nothing)
          · cases refused.symm.trans opening
          · cases made'.symm.trans made
          · rintro _ _ _ ⟨⟩
            exact ⟨rfl, found.trans nothing.symm⟩
  exact ⟨saves, spares, fun built => spares.2 (.inr (.inl built.isPaired))⟩

/-- A file that holds something, and a drawing with one wire. -/
theorem save_spares_file_iff_labelledSwitch :
    (ofDrawing .labelledSwitch).drawing.Built ∧
      (Files.empty.put ["plan.json"] (.text "old")).find "plan.json" = .text "old" ∧
      (ofDrawing .labelledSwitch).SparesFile (Files.empty.put ["plan.json"] (.text "old"))
        "plan.json" := by
  refine ⟨Drawing.built_labelledSwitch, by cbv, ?_⟩
  exact (save_spares_file_iff _ _ _).2.2 Drawing.built_labelledSwitch

def brokenWire : Drawing where
  components := []
  wires := [⟨.text "W1", [.list [.int 5]]⟩]

theorem emptied_of_brokenWire :
    ∃ fs', (Files.empty.put ["plan.json"] (.text "old")).find "plan.json" = .text "old" ∧
      (ofDrawing brokenWire).attemptSave (Files.empty.put ["plan.json"] (.text "old")) "plan.json" =
        (.error (.fault (.pairTooShort 1)), ofDrawing brokenWire, fs') ∧
      fs'.find "plan.json" = .text "" ∧
      ¬ (ofDrawing brokenWire).SparesFile (Files.empty.put ["plan.json"] (.text "old"))
        "plan.json" := by
  have held : (Files.empty.put ["plan.json"] (.text "old")).find "plan.json" = .text "old" := by cbv
  have noFolder : (Files.empty.put ["plan.json"] (.text "old")).node ["plan.json"] ≠ .folder := by
    rw [Files.node_put_self (by cbv)]
    intro folder
    cases folder
  have opening : (Files.empty.put ["plan.json"] (.text "old")).write "plan.json" "" =
      .ok ((Files.empty.put ["plan.json"] (.text "old")).put ["plan.json"] (.text "")) :=
    Files.write_eq_ok.2 ⟨["plan.json"], by cbv, noFolder, rfl⟩
  have left := attemptSave_eq_iff.2 (.emptied (s := ofDrawing brokenWire) opening rfl)
  have lost := Files.find_of_write_empty opening
  refine ⟨_, held, left, lost, fun spared => ?_⟩
  have same := (spared _ _ _ left).2
  rw [lost, held] at same
  exact absurd (Files.Found.text.inj same) (by decide)

end Session

end Schematic
