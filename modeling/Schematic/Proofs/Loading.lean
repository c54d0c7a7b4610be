import Schematic.Proofs.Document
import Schematic.Session
/-!
Loading in place: a session takes on the drawing of a file as a whole, or stays as it was. What is
saved later is the document of one drawing or the other.
-/

namespace Schematic

namespace Session

/-- Whether saving puts nothing into a file but the document of a drawing. It may leave the file as
it was, or empty. -/
def WritesOnly (s : Session) (d : Drawing) : Prop :=
  ∀ fs path, (s.save fs path).2 = fs ∨ fs.write path "" = .ok (s.save fs path).2 ∨
    ∃ v, d.toValue = .ok v ∧ fs.write path (Json.write v) = .ok (s.save fs path).2

theorem writesOnly_drawing (s : Session) : s.WritesOnly s.drawing := by
  intro fs path
  unfold save
  cases emptied : fs.write path "" with
  | error e => exact .inl rfl
  | ok empty =>
      cases made : s.drawing.toValue with
      | error fault => exact .inr (.inl rfl)
      | ok v =>
          dsimp only
          cases written : fs.write path (Json.write v) with
          | error e => exact .inl rfl
          | ok saved => exact .inr (.inr ⟨v, rfl, written⟩)

theorem run_liftExcept_bind {ε σ α β : Type} (x : Except ε α) (next : α → ExceptT ε (StateM σ) β)
    (t : σ) :
    (liftExcept x >>= next).run.run t = match x with
      | .ok a => (next a).run.run t
      | .error e => (.error e, t) := by
  cases x with
  | error e => rfl
  | ok a => rfl

variable [Json.Limits]

/-- What reading a file comes to: the drawing of the document that it holds, or the step that
fails. -/
inductive Reads (fs : Files) (path : String) : Except LoadError Drawing → Prop
  | drawing {content : String} {v : Value} {d : Drawing} (read : fs.read path = .ok content)
      (parsed : Json.read (Text.unified content) = .ok v) (accepted : Document.check v = .ok ())
      (made : Drawing.ofValue v = .ok d) : Reads fs path (.ok d)
  | file {e : Files.Error} (read : fs.read path = .error e) : Reads fs path (.error (.file e))
  | json {content : String} {e : Json.Error} (read : fs.read path = .ok content)
      (parsed : Json.read (Text.unified content) = .error e) : Reads fs path (.error (.json e))
  | document {content : String} {v : Value} {e : Document.Error} (read : fs.read path = .ok content)
      (parsed : Json.read (Text.unified content) = .ok v) (checked : Document.check v = .error e) :
      Reads fs path (.error (.document e))
  | fault {content : String} {v : Value} {fault : Fault} (read : fs.read path = .ok content)
      (parsed : Json.read (Text.unified content) = .ok v) (accepted : Document.check v = .ok ())
      (made : Drawing.ofValue v = .error fault) : Reads fs path (.error (.fault fault))

def drawingAt (fs : Files) (path : String) : Except LoadError Drawing := do
  let content ← (fs.read path).mapError .file
  drawingOfText content

theorem reads_drawingAt (fs : Files) (path : String) : Reads fs path (drawingAt fs path) := by
  unfold drawingAt
  cases read : fs.read path with
  | error e => exact .file read
  | ok content =>
      change Reads fs path (drawingOfText content)
      unfold drawingOfText
      cases parsed : Json.read (Text.unified content) with
      | error e => exact .json read parsed
      | ok v =>
          change Reads fs path ((Document.check v).mapError .document >>= fun _ =>
            (Drawing.ofValue v).mapError .fault)
          cases checked : Document.check v with
          | error e => exact .document read parsed checked
          | ok _ =>
              change Reads fs path ((Drawing.ofValue v).mapError .fault)
              cases made : Drawing.ofValue v with
              | error fault => exact .fault read parsed checked made
              | ok d => exact .drawing read parsed checked made

def replaced (s : Session) (d : Drawing) (path : String) : Session :=
  { s with drawing := d, current := some (Files.tidyPath path) }

theorem load_eq (s : Session) (fs : Files) (path : String) :
    s.load fs path = (drawingAt fs path).map (s.replaced · path) := by
  rw [load, drawingAt]
  cases fs.read path with
  | error e => rfl
  | ok content =>
      change (drawingOfText content >>= _) = (drawingOfText content).map _
      cases drawingOfText content with
      | error e => rfl
      | ok d => rfl

/-- The steps of loading in place make all of the change or none of it. -/
theorem attempt_eq (s : Session) (fs : Files) (path : String) :
    s.attempt fs path = match drawingAt fs path with
      | .ok d => (.ok (), s.replaced d path)
      | .error e => (.error e, s) := by
  rw [attempt, loadInPlace, run_liftExcept_bind, drawingAt]
  cases fs.read path with
  | error e => rfl
  | ok content =>
      change (liftExcept (drawingOfText content) >>= _ :
        ExceptT LoadError (StateM Session) Unit).run.run s = match drawingOfText content with
          | .ok d => (.ok (), s.replaced d path)
          | .error e => (.error e, s)
      rw [run_liftExcept_bind]
      cases drawingOfText content with
      | error e => rfl
      | ok d => rfl

theorem attempt_cases (s : Session) (fs : Files) (path : String) :
    (∃ d, Reads fs path (.ok d) ∧ s.load fs path = .ok (s.replaced d path) ∧
      s.attempt fs path = (.ok (), s.replaced d path)) ∨
    ∃ e, Reads fs path (.error e) ∧ s.load fs path = .error e ∧
      s.attempt fs path = (.error e, s) := by
  have reads := reads_drawingAt fs path
  rw [attempt_eq, load_eq]
  cases read : drawingAt fs path with
  | error e => exact .inr ⟨e, read ▸ reads, rfl, rfl⟩
  | ok d => exact .inl ⟨d, read ▸ reads, rfl, rfl⟩

/-- Loading a file makes its drawing that of the session, with the file as the current one, or fails
at some step and leaves the session as it was. What is saved afterwards is the document of the one
drawing or the other. -/
theorem attempt_replaces_or_keeps (s : Session) (fs : Files) (path : String) :
    (∃ d, Reads fs path (.ok d) ∧ s.load fs path = .ok (s.replaced d path) ∧
      s.attempt fs path = (.ok (), s.replaced d path) ∧ (s.attempt fs path).2.WritesOnly d) ∨
    ∃ e, Reads fs path (.error e) ∧ s.load fs path = .error e ∧
      s.attempt fs path = (.error e, s) ∧ (s.attempt fs path).2.WritesOnly s.drawing := by
  obtain ⟨d, reads, loaded, done⟩ | ⟨e, reads, refused, failed⟩ := s.attempt_cases fs path
  · exact .inl ⟨d, reads, loaded, done, done ▸ (s.replaced d path).writesOnly_drawing⟩
  · exact .inr ⟨e, reads, refused, failed, failed ▸ s.writesOnly_drawing⟩

end Session

end Schematic
