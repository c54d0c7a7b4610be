import Schematic.Document
import Schematic.Files
import Schematic.Json.Reader
import Schematic.Json.Writer
import Schematic.Quantity
import Schematic.RuleCheck
import Schematic.Request
import Schematic.Text.Lines
/-!
Sessions: a drawing that is edited, saved and loaded, with the analysis chosen for it.
-/

namespace Schematic

structure Session where
  drawing : Drawing
  kind : Analysis.Kind
  config : Analysis.Config
  /-- The file that the drawing was last loaded from or saved to. -/
  current : Option String

namespace Session

def ofDrawing (d : Drawing) : Session :=
  ⟨d, .op, {}, none⟩

def choose (s : Session) (kind : Value) (config : Analysis.Config) : Except String Session :=
  return { s with kind := ← Analysis.Kind.choose kind, config }

def prepare (s : Session) (title : String) : Except Fault Request :=
  s.drawing.prepare s.kind s.config title

inductive LoadError
  | file (e : Files.Error)
  | json (e : Json.Error)
  | document (e : Document.Error)
  | fault (e : Fault)

def drawingOfText [Json.Limits] (content : String) : Except LoadError Drawing := do
  let v ← (Json.read (Text.unified content)).mapError .json
  (Document.check v).mapError .document
  (Drawing.ofValue v).mapError .fault

def load [Json.Limits] (s : Session) (fs : Files) (path : String) : Except LoadError Session := do
  let content ← (fs.read path).mapError .file
  let drawing ← drawingOfText content
  return { s with drawing, current := some (Files.tidyPath path) }

/-- Loads a file in place. Its drawing is made as a whole before the one that is there is cleared and
its components, its wires and the current file are set one after the other. -/
def loadInPlace [Json.Limits] (fs : Files) (path : String) :
    ExceptT LoadError (StateM Session) Unit := do
  let content ← liftExcept ((fs.read path).mapError LoadError.file)
  let loaded ← liftExcept (drawingOfText content)
  modify fun s => { s with drawing := .empty }
  modify fun s => { s with drawing := { s.drawing with components := loaded.components } }
  modify fun s => { s with drawing := { s.drawing with wires := loaded.wires } }
  modify fun s => { s with current := some (Files.tidyPath path) }

def attempt [Json.Limits] (s : Session) (fs : Files) (path : String) :
    Except LoadError Unit × Session :=
  (loadInPlace fs path).run.run s

inductive SaveError
  | file (e : Files.Error)
  | fault (e : Fault)

/-- Writes the drawing to a file. The file is emptied first, and stays empty when the drawing has no
document. -/
def save (s : Session) (fs : Files) (path : String) : Except SaveError Session × Files :=
  match fs.write path "" with
  | .error e => (.error (.file e), fs)
  | .ok emptied =>
    match s.drawing.toValue with
    | .error fault => (.error (.fault fault), emptied)
    | .ok v =>
      match fs.write path (Json.write v) with
      | .error e => (.error (.file e), fs)
      | .ok fs => (.ok { s with current := some (Files.tidyPath path) }, fs)

/-- Saves to a file in place. The file is opened, and thereby emptied, before the drawing is turned
into its document; the current file is set when the document has been written. -/
def saveInPlace (path : String) : ExceptT SaveError (StateM (Session × Files)) Unit := do
  let (s, fs) ← get
  let emptied ← liftExcept ((fs.write path "").mapError SaveError.file)
  modify fun (s, _) => (s, emptied)
  let v ← liftExcept (s.drawing.toValue.mapError SaveError.fault)
  let written ← liftExcept ((emptied.write path (Json.write v)).mapError SaveError.file)
  modify fun (s, _) => (s, written)
  modify fun (s, fs) => ({ s with current := some (Files.tidyPath path) }, fs)

def attemptSave (s : Session) (fs : Files) (path : String) :
    Except SaveError Unit × Session × Files :=
  (saveInPlace path).run.run (s, fs)

end Session

end Schematic
