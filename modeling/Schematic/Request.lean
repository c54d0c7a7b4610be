import Schematic.Analysis
import Schematic.Compile
import Schematic.Netlist.Insertion
/-!
Requests to a simulator: the netlist of a drawing with the directives of an analysis, or the reasons
why there is none.
-/

namespace Schematic

/-- A request. Its outcome is the directives, or the errors that refuse it. -/
structure Request where
  kind : Analysis.Kind
  compilation : Compilation
  outcome : Except (List String) (List String)

namespace Request

/-- The directives save the named nodes when no signals are chosen. Any error of the compilation or
of the analysis refuses the request. -/
def ofCompilation (kind : Analysis.Kind) (config : Analysis.Config) (c : Compilation) : Request where
  kind
  compilation := c
  outcome :=
    match Analysis.directives kind config c.signals with
    | .ok directives => if c.errors.isEmpty then .ok directives else .error c.errors
    | .error missing => .error (c.errors ++ missing.map Analysis.Error.message)

def success (r : Request) : Bool :=
  r.outcome.isOk

def errors (r : Request) : List String :=
  match r.outcome with
  | .ok _ => []
  | .error errors => errors

def directives (r : Request) : List String :=
  match r.outcome with
  | .ok directives => directives
  | .error _ => []

def netlist (r : Request) : String :=
  match r.outcome with
  | .ok directives => Netlist.insertDirectives r.compilation.text directives
  | .error _ => ""

def warnings (r : Request) : List String :=
  r.compilation.warnings

def error (r : Request) : String :=
  "; ".intercalate r.errors

def notes (r : Request) : List String :=
  r.compilation.notes
    ++ if r.success then [] else ["Simulation request refused: " ++ r.error]

end Request

def Drawing.prepare (d : Drawing) (kind : Analysis.Kind) (config : Analysis.Config)
    (title : String) : Except Fault Request :=
  return .ofCompilation kind config (← d.compile title)

end Schematic
