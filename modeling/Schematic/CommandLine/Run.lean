import Schematic.CommandLine.Command
import Schematic.Colouring
import Schematic.Document
import Schematic.Preset
import Schematic.RuleCheck
import Schematic.Request
/-!
What the commands do. A command looks at files and gives its output; at most one file is written.
-/

namespace Schematic.CommandLine

/-- What a command finds outside: the files by path, what keeps a path from being written, and the
user's own folder. -/
structure Surroundings where
  look : String → Files.Found
  bar? : String → Option Files.Error
  home : String

/-- What a command gives: its exit code, what it prints, and a file to write. -/
structure Outcome where
  exitCode : Nat := 0
  output : List String := []
  complaints : List String := []
  file : Option (String × String) := none

/-- How a command ends without an exit code. A text without a form in bytes leaves the file that it
was for empty. -/
inductive Crash
  | isFolder (path : String)
  | unnameable (path : String)
  | json (e : Json.Error)
  | presets (e : Presets.FileError)
  | analysis (message : String)
  | fault (e : Fault)
  | unwritable (path : String) (e : Files.Error)
  | unencodable (emptied : Option String)

def Crash.message : Crash → String
  | isFolder path => "is a folder: " ++ path
  | unnameable path => "name too long: " ++ path
  | json e => e.message
  | presets e => e.message
  | analysis message => message
  | fault e => e.message
  | unwritable path e => e.message ++ ": " ++ path
  | unencodable _ => "surrogates not allowed"

namespace Outcome

def text (lines : List String) : String :=
  String.join (lines.map (· ++ "\n"))

def failure (complaints : List String) : Outcome :=
  { exitCode := 1, complaints }

def after (complaints : List String) (o : Outcome) : Outcome :=
  { o with complaints := complaints ++ o.complaints }

end Outcome

def debugLines (verbose : Bool) (notes : List String) : List String :=
  if verbose then notes.map ("DEBUG: " ++ ·) else []

def column (width : Nat) (s : String) : String :=
  s ++ String.ofList (List.replicate (width - s.length) ' ')

def rule (width : Nat) : String :=
  String.ofList (List.replicate width '-')

inductive Unusable
  | missing (path : String)
  | json (path : String) (e : Json.Error)
  | document (e : Document.Error)

def Unusable.message : Unusable → String
  | missing path => "file not found: " ++ path
  | json path e => "invalid JSON in " ++ path ++ ": " ++ e.message
  | document e => "invalid schematic file: " ++ e.message

variable [Json.Limits]

def loadDrawing (s : Surroundings) (path : String) : Except Crash (Except Unusable Drawing) := do
  match s.look path with
  | .nothing => return .error (.missing path)
  | .folder => throw (.isFolder path)
  | .unnameable => throw (.unnameable path)
  | .text content =>
    match Json.read (Text.unified content) with
    | .error (.syntaxAt problem position line column) =>
      return .error (.json path (.syntaxAt problem position line column))
    | .error e => throw (.json e)
    | .ok v =>
      match Document.check v with
      | .error e => return .error (.document e)
      | .ok _ => return .ok (← (Drawing.ofValue v).mapError .fault)

def withDrawing (s : Surroundings) (path : String) (use : Drawing → Except Crash Outcome) :
    Except Crash Outcome := do
  match ← loadDrawing s path with
  | .ok d => use d
  | .error e => return .failure ["Error: " ++ e.message]

/-- The preset file that is asked for, or the one below the user's own folder. A blank argument is no
path. -/
def presetPath (home : String) : Option Argument → Except Fault String
  | some (.text path) => .ok (Files.tidyPath path)
  | some .blank => .error .wrongKind
  | none => .ok (home ++ "/.schematic-netlist/analysis_presets.json")

def Command.paths (home : String) : Command → List String
  | compile o => o.schematic :: (presetPath home o.presetFile).toOption.toList
  | validate path | nets path => [path]
  | presets _ file => (presetPath home file).toOption.toList

def loadPresets (s : Surroundings) (file : Option Argument) :
    Except Crash (Presets × List String) := do
  let path ← (presetPath s.home file).mapError .fault
  let loaded ← (Presets.load path (s.look path)).mapError .presets
  return (loaded.presets, (loaded.warning.map ("WARNING: " ++ ·)).toList)

/-- The line of a preset in a listing. A name that is a list or a record cannot be set in columns. -/
def presetLine (p : Preset) : Except Fault String := do
  let name ← match p.name with
    | .list _ | .record _ => throw .wrongKind
    | .bool b => pure (if b then "1" else "0")
    | name => pure name.shown
  return column 28 name ++ " " ++ column 9 p.analysis.shown ++ " "
    ++ if p.claimsBuiltin then "built-in" else "user"

def runPresets (s : Surroundings) (analysis file : Option Argument) : Except Crash Outcome := do
  let (presets, warnings) ← loadPresets s file
  match presets.list ((analysis.map Argument.toValue).getD .null) with
  | [] => return { output := ["No presets found."], complaints := warnings }
  | ps =>
    let lines ← (ps.mapM presetLine).mapError .fault
    return {
      output := [column 28 "Name" ++ " " ++ column 9 "Analysis" ++ " Source", rule 50] ++ lines
      complaints := warnings }

def lineValue (number : Nat) (l : Netlist.Line) : Value :=
  match l with
  | .directive _ =>
    .record [("line", .int number), ("kind", .text "directive"), ("componentId", .null),
      ("componentType", .null), ("netlistId", .null), ("netA", .null), ("netB", .null),
      ("nets", .list [])]
  | .element component type e =>
    .record [("line", .int number), ("kind", .text "component"), ("componentId", component),
      ("componentType", .text type), ("netlistId", .text e.id), ("netA", .text e.netA),
      ("netB", .text e.netB), ("nets", .list [.text e.netA, .text e.netB])]

def requestValue (r : Request) : Value :=
  let texts := fun (ss : List String) => Value.list (ss.map .text)
  .record [("success", .bool r.success), ("analysis", .text r.kind.name), ("netlist", .text r.netlist),
    ("directives", texts r.directives), ("errors", texts r.errors), ("warnings", texts r.warnings),
    ("netNames", .record (r.compilation.naming.names.map fun e => (e.1, .text e.2))),
    ("lineMap", .list (r.compilation.netlist.lineMap.map fun e => lineValue e.1 e.2)),
    ("namedNodeSignals", texts r.compilation.signals)]

def complaintList (heading : String) (errors : List String) : List String :=
  heading :: errors.map ("  - " ++ ·)

/-- What is shown of a request: its text goes to a file or to the output. -/
def showRequest (o : CompileOptions) (r : Request) : Outcome :=
  if o.json || r.success then
    let text := if o.json then Json.write (requestValue r) else r.netlist
    let exitCode := if r.success then 0 else 1
    match o.output.filter (· != "") with
    | some path =>
      { exitCode, complaints := ["Netlist written to " ++ path], file := some (path, text ++ "\n") }
    | none => { exitCode, output := [text] }
  else .failure (complaintList ("Compile failed: " ++ o.schematic) r.errors)

/-- The configuration of the chosen preset with the warnings about its file, `none` when there is no
such preset. -/
def chosenConfig (s : Surroundings) (o : CompileOptions) :
    Except Crash (Option Analysis.Config × List String) := do
  match o.preset.filter (· != "") with
  | none => return (some {}, [])
  | some name =>
    let (presets, warnings) ← loadPresets s o.presetFile
    return (presets.config? (.text name) o.analysis.toValue, warnings)

def runCompile (s : Surroundings) (verbose : Bool) (o : CompileOptions) : Except Crash Outcome :=
  withDrawing s o.schematic fun d => do
    let count := fun (n : Nat) => Value.intText n
    let loaded := debugLines verbose
      [s!"Loaded {count d.components.length} components and {count d.wires.length} wires from "
        ++ o.schematic]
    let (config, warnings) ← chosenConfig s o
    match config with
    | none =>
      return .failure (loaded ++ warnings
        ++ ["Error: no " ++ o.analysis.toValue.shown ++ " preset named '" ++ o.preset.getD "" ++ "'"])
    | some config =>
      let kind ← (Analysis.Kind.choose o.analysis.toValue).mapError .analysis
      let title := o.title.getD (Files.stem o.schematic)
      let r ← (d.prepare kind config title).mapError .fault
      return (showRequest o r).after (loaded ++ warnings ++ debugLines verbose r.notes
        ++ r.warnings.map ("Warning: " ++ ·))

def runValidate (s : Surroundings) (verbose : Bool) (path : String) : Except Crash Outcome :=
  withDrawing s path fun d => do
    let graph ← d.graph.mapError .fault
    let check ← (d.check graph.nets).mapError .fault
    let c ← (d.compile "").mapError .fault
    let errors := check.errors.map Issue.text ++ c.errors
    let found := check.warnings.map Issue.text
    let warnings := (found ++ c.warnings.filter (!found.contains ·)).map ("  Warning: " ++ ·)
    let notes := debugLines verbose (c.notes.take 1 ++ c.notes)
    if errors.isEmpty then
      return { output := ("Schematic is valid: " ++ path) :: warnings, complaints := notes }
    else
      return .failure (notes ++ complaintList ("Schematic has errors: " ++ path) errors ++ warnings)

def netLine (d : Drawing) (naming : Naming) (colouring : Colouring) (n : Net Point) : String :=
  let color := (n.terminals.findSome? fun t => colouring.nodes.get? t.component).getD ""
  let pins := n.terminals.map fun t =>
    (match d.named? t.component with
      | some c => c.label
      | none => t.component) ++ "." ++ t.name
  column 12 ((naming.names.get? n.id).getD n.id) ++ " " ++ column 9 color ++ " "
    ++ ", ".intercalate pins

def runNets (s : Surroundings) (verbose : Bool) (path : String) : Except Crash Outcome :=
  withDrawing s path fun d => do
    let c ← (d.compile "").mapError .fault
    let colouring ← (d.colouring c.nets).mapError .fault
    let lines := (Net.sorted c.nets).map (netLine d c.naming colouring)
    let errors := c.naming.errorMessages
    return {
      exitCode := if errors.isEmpty then 0 else 1
      output := [column 12 "Net" ++ " " ++ column 9 "Color" ++ " Pins", rule 60] ++ lines
      complaints := debugLines verbose (c.notes.take 2) ++ errors.map ("Error: " ++ ·) }

def Invocation.outcome (s : Surroundings) (i : Invocation) : Except Crash Outcome :=
  match i.command with
  | .compile o => runCompile s i.verbose o
  | .validate path => runValidate s i.verbose path
  | .nets path => runNets s i.verbose path
  | .presets analysis file => runPresets s analysis file

def Surroundings.refusal? (s : Surroundings) : Option (String × String) → Option Crash
  | none => none
  | some (path, text) =>
    match s.bar? path with
    | some e => some (.unwritable path e)
    | none => if Text.isEncodable text then none else some (.unencodable (some path))

/-- Writes and prints what a command gives. Only complaints may hold surrogates. -/
def Outcome.deliver (s : Surroundings) (o : Outcome) : Except Crash Outcome :=
  match s.refusal? o.file with
  | some crash => .error crash
  | none =>
    if o.output.all Text.isEncodable then
      .ok { o with complaints := o.complaints.map Text.backslashed }
    else .error (.unencodable none)

def Invocation.run (s : Surroundings) (i : Invocation) : Except Crash Outcome := do
  (← i.outcome s).deliver s

end Schematic.CommandLine
