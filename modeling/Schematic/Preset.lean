import Schematic.Analysis
import Schematic.Files
import Schematic.Json.Reader
import Schematic.Json.Writer
import Schematic.Text.Lines
/-!
Presets: named analysis configurations. Some are built in; the others are kept in a file.
-/

namespace Schematic

/-- A preset, as the record that a file holds of it. -/
structure Preset where
  fields : List (String × Value)
  deriving Inhabited

namespace Preset

def field (p : Preset) (name : String) : Value :=
  (p.fields.lookup name).getD .null

/-- A field that must be there; the error is its name. -/
def require (p : Preset) (name : String) : Except String Value :=
  match p.fields.lookup name with
  | some v => .ok v
  | none => .error name

def name (p : Preset) : Value := p.field "name"

def analysis (p : Preset) : Value := p.field "analysis"

def config (p : Preset) : Analysis.Config :=
  .ofValue (p.field "params")

def toValue (p : Preset) : Value :=
  .record p.fields

def claimsBuiltin (p : Preset) : Bool :=
  (p.field "builtin").given

def of (name analysis params : Value) : Preset :=
  ⟨[("name", name), ("analysis", analysis), ("params", params)]⟩

/-- The preset of a record with a name and a known analysis. Parameters that are missing are none. -/
def ofValue? : Value → Option Preset
  | .record fields =>
    let p : Preset := ⟨fields⟩
    if p.name.given && (Analysis.Kind.ofValue? p.analysis).isSome then
      some (if (fields.lookup "params").isSome then p else ⟨fields ++ [("params", .record [])]⟩)
    else none
  | _ => none

/-- Whether a preset goes by a name and an analysis; null stands for any analysis. -/
def goesBy (p : Preset) (name analysis : Value) : Bool :=
  p.name.same name && match analysis with
    | .null => true
    | analysis => p.analysis.same analysis

def builtin (name : String) (kind : Analysis.Kind) (settings : List (String × String)) : Preset :=
  ⟨[("name", .text name), ("analysis", .text kind.name), ("builtin", .bool true),
    ("params", .record (if settings.isEmpty then []
      else [(kind.name, .record (settings.map fun s => (s.1, .text s.2)))]))]⟩

def builtins : List Preset :=
  [builtin "Operating Point" .op [],
    builtin "Fine DC Sweep 0-5V" .dc
      [("source", "V1"), ("start", "0"), ("stop", "5"), ("step", "0.01")],
    builtin "Quick Transient" .tran [("step", "10u"), ("stop", "10m"), ("start", "0")],
    builtin "Audio AC Sweep" .ac
      [("sweep", "dec"), ("points", "100"), ("start", "20"), ("stop", "20k")],
    builtin "Wide AC Sweep" .ac
      [("sweep", "dec"), ("points", "100"), ("start", "1"), ("stop", "1G")]]

end Preset

/-- The presets that are not built in, in the order in which they were saved. -/
structure Presets where
  user : List Preset
  deriving Inhabited

namespace Presets

def empty : Presets := ⟨[]⟩

/-- The presets of an analysis, the built-in ones first; all presets when none is given. -/
def list (ps : Presets) (analysis : Value) : List Preset :=
  let all := Preset.builtins ++ ps.user
  if analysis.given then all.filter (·.analysis.same analysis) else all

def find? (ps : Presets) (name analysis : Value) : Option Preset :=
  (ps.list analysis).find? (·.name.same name)

def config? (ps : Presets) (name analysis : Value) : Option Analysis.Config :=
  (ps.find? name analysis).map Preset.config

inductive SaveError
  | unknownKind (analysis : Value)
  | isBuiltin (name : Value)
  | params (e : Json.WriteError)
  | file (e : Files.Error)

def SaveError.message : SaveError → String
  | unknownKind analysis => "Unknown analysis kind '" ++ analysis.shown ++ "'"
  | isBuiltin name => "Cannot overwrite built-in preset '" ++ name.shown ++ "'"
  | params e => e.message
  | file e => e.message

/-- Saves a preset in place of one of the same name and analysis. `params` is the copy that JSON
makes of the parameters, or why it makes none. The old preset is taken out before the copy is made,
and is lost when there is none. -/
def save (ps : Presets) (name analysis : Value) (params : Except Json.WriteError Value) :
    Except SaveError Preset × Presets :=
  if (Analysis.Kind.ofValue? analysis).isNone then (.error (.unknownKind analysis), ps)
  else if Preset.builtins.any (·.goesBy name analysis) then (.error (.isBuiltin name), ps)
  else
    let others := ps.user.filter fun q => !q.goesBy name analysis
    match params with
    | .error e => (.error (.params e), ⟨others⟩)
    | .ok params =>
      let p := Preset.of name analysis params
      (.ok p, ⟨others ++ [p]⟩)

/-- Deletes presets by name and analysis, null standing for any analysis, and says whether there
were any. What goes by a built-in preset's name is left alone. -/
def delete (ps : Presets) (name analysis : Value) : Bool × Presets :=
  if Preset.builtins.any (·.goesBy name analysis) then (false, ps)
  else (ps.user.any (·.goesBy name analysis), ⟨ps.user.filter fun q => !q.goesBy name analysis⟩)

def attemptList (ps : Presets) (analysis : Value) : Except String (List Preset) :=
  let all := Preset.builtins ++ ps.user
  if analysis.given then all.filterM fun p => return (← p.require "analysis").same analysis
  else .ok all

def attemptFind (ps : Presets) (name analysis : Value) : Except String (Option Preset) := do
  (← ps.attemptList analysis).findM? fun p => return (← p.require "name").same name

def attemptConfig (ps : Presets) (name analysis : Value) :
    Except String (Option Analysis.Config) := do
  match ← ps.attemptFind name analysis with
  | some p => return some (.ofValue (← p.require "params"))
  | none => return none

def toValue (ps : Presets) : Value :=
  .record [("presets", .list (ps.user.map Preset.toValue))]

inductive FileError
  | isFolder (path : String)
  | unnameable
  | json (e : Json.Error)
  | noRecord (fault : Fault)
  | noList (fault : Fault)

def FileError.isHarmless : FileError → Bool
  | isFolder _ => true
  | unnameable => false
  | json (.syntaxAt ..) => true
  | json (.longInteger _) => false
  | json .tooDeep => false
  | noRecord _ => true
  | noList _ => false

def FileError.message : FileError → String
  | isFolder path => "[Errno 21] Is a directory: " ++ Text.quoted path
  | unnameable => "File name too long"
  | json e => e.message
  | noRecord fault => fault.message
  | noList fault => fault.message

def ofText [Json.Limits] (content : String) : Except FileError Presets := do
  let v ← (Json.read (Text.unified content)).mapError .json
  let listed ← (v.fieldOr "presets" (.list [])).mapError .noRecord
  let items ← listed.items.mapError .noList
  return ⟨items.filterMap Preset.ofValue?⟩

def ofFile [Json.Limits] (path : String) : Files.Found → Except FileError Presets
  | .nothing => .ok empty
  | .folder => .error (.isFolder path)
  | .unnameable => .error .unnameable
  | .text content => ofText content

structure Loaded where
  presets : Presets
  warning : Option String

/-- The presets of a file. A file that cannot be used gives none. -/
def load [Json.Limits] (path : String) (found : Files.Found) : Except FileError Loaded :=
  match ofFile path found with
  | .ok ps => .ok ⟨ps, none⟩
  | .error e =>
    if e.isHarmless then
      .ok ⟨empty, some ("Failed to load presets from " ++ path ++ ": " ++ e.message)⟩
    else .error e

end Presets

structure PresetStore where
  path : String
  presets : Presets

namespace PresetStore

def open? [Json.Limits] (fs : Files) (path : String) :
    Except Presets.FileError PresetStore :=
  return ⟨path, (← Presets.load path (fs.find path)).presets⟩

/-- Writes the presets to their file, making its folder. What cannot be written is not, but a path
that no file can have is an error. -/
def flush (s : PresetStore) (fs : Files) : Except Files.Error Files :=
  if s.path.contains '\x00' then .error .nulCharacter
  else .ok ((fs.writeWithFolder s.path (Json.write s.presets.toValue)).toOption.getD fs)

/-- Saves a preset, and writes the file if there is a new one. -/
def save (s : PresetStore) (fs : Files) (name analysis : Value)
    (params : Except Json.WriteError Value) :
    Except Presets.SaveError Preset × PresetStore × Files :=
  let (saved, presets) := s.presets.save name analysis params
  let s := { s with presets }
  match saved with
  | .error e => (.error e, s, fs)
  | .ok p =>
    match s.flush fs with
    | .error e => (.error (.file e), s, fs)
    | .ok fs => (.ok p, s, fs)

def delete (s : PresetStore) (fs : Files) (name analysis : Value) :
    Except Files.Error Bool × PresetStore × Files :=
  let (deleted, presets) := s.presets.delete name analysis
  let s := { s with presets }
  if deleted then
    match s.flush fs with
    | .error e => (.error e, s, fs)
    | .ok fs => (.ok true, s, fs)
  else (.ok false, s, fs)

end PresetStore

end Schematic
