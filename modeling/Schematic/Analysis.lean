import Schematic.Text.Blank
import Schematic.Text.Case
import Schematic.Value
/-!
Analyses, their configurations, and the directives that ask a simulator for them.
-/

namespace Schematic

/-- A value as a setting: its text without outer blanks. -/
def Value.setting (v : Value) : String :=
  Text.trim v.content

/-- The settings of a list that are not blank; anything else lists none. -/
def Value.settings : Value → List String
  | .list vs => (vs.map setting).filter (· != "")
  | _ => []

namespace Analysis

inductive Kind
  | op
  | dc
  | tran
  | ac
  deriving DecidableEq, Repr

namespace Kind

def all : List Kind := [op, dc, tran, ac]

def name : Kind → String
  | op => "op"
  | dc => "dc"
  | tran => "tran"
  | ac => "ac"

def ofName? (name : String) : Option Kind :=
  all.find? (·.name == name)

@[simp] theorem ofName?_name (k : Kind) : ofName? k.name = some k := by
  cases k <;> rfl

theorem ofName?_eq_some {s : String} {k : Kind} : ofName? s = some k ↔ s = k.name := by
  constructor
  · intro h
    have := List.find?_some h
    exact (by simpa using this : k.name = s).symm
  · rintro rfl
    exact ofName?_name k

def ofValue? : Value → Option Kind
  | .text s => ofName? s
  | _ => none

end Kind

structure DcSweep where
  source : String := ""
  start : String := ""
  stop : String := ""
  step : String := ""
  deriving DecidableEq, Repr

structure Transient where
  step : String := ""
  stop : String := ""
  start : String := "0"
  maxStep : String := ""
  deriving DecidableEq, Repr

structure AcSweep where
  sweep : String := "dec"
  points : String := ""
  start : String := ""
  stop : String := ""
  deriving DecidableEq, Repr

/-- The settings of all analyses; only those of the chosen one are read. -/
structure Config where
  signals : List String := []
  dc : DcSweep := {}
  tran : Transient := {}
  ac : AcSweep := {}
  deriving DecidableEq, Repr

namespace Config

def sectionOf (fields : List (String × Value)) (name : String) : List (String × Value) :=
  match fields.lookup name with
  | some (.record fs) => fs
  | _ => []

def settingOr (fields : List (String × Value)) (name absent : String) : String :=
  match fields.lookup name with
  | some v => v.setting
  | none => absent

/-- The configuration of a document. The largest step of a transient analysis has two spellings. -/
def ofValue : Value → Config
  | .record fields =>
    let save := sectionOf fields "save"
    let dc := sectionOf fields "dc"
    let tran := sectionOf fields "tran"
    let ac := sectionOf fields "ac"
    { signals := ((save.lookup "signals").getD .null).settings
      dc := {
        source := settingOr dc "source" ""
        start := settingOr dc "start" ""
        stop := settingOr dc "stop" ""
        step := settingOr dc "step" "" }
      tran := {
        step := settingOr tran "step" ""
        stop := settingOr tran "stop" ""
        start := settingOr tran "start" "0"
        maxStep := settingOr tran "maxStep" (settingOr tran "max_step" "") }
      ac := {
        sweep := settingOr ac "sweep" "dec"
        points := settingOr ac "points" ""
        start := settingOr ac "start" ""
        stop := settingOr ac "stop" "" } }
  | _ => {}

def toValue (c : Config) : Value :=
  let fields := fun (fs : List (String × String)) => Value.record (fs.map fun f => (f.1, .text f.2))
  .record [
    ("save", .record [("signals", .list (c.signals.map .text))]),
    ("dc", fields [("source", c.dc.source), ("start", c.dc.start), ("stop", c.dc.stop),
      ("step", c.dc.step)]),
    ("tran", fields [("step", c.tran.step), ("stop", c.tran.stop), ("start", c.tran.start),
      ("maxStep", c.tran.maxStep)]),
    ("ac", fields [("sweep", c.ac.sweep), ("points", c.ac.points), ("start", c.ac.start),
      ("stop", c.ac.stop)])]

end Config

def isWildcard (signal : String) : Bool :=
  Text.lower signal == "all" || Text.lower signal == "*"

/-- The signals to save: the explicit ones, unless there are none or only wildcards and there are
others to fall back on. -/
def savedSignals (signals fallback : List String) : List String :=
  if signals.all isWildcard && !fallback.isEmpty then fallback else signals

def saveLine (signals fallback : List String) : String :=
  match savedSignals signals fallback with
  | [] => ""
  | signals => " ".intercalate (".save" :: signals)

inductive Error
  | noSource
  | noRange
  | noTimes
  | noFrequencies
  deriving DecidableEq, Repr

def Error.message : Error → String
  | noSource => "DC sweep requires a source (e.g., V1)."
  | noRange => "DC sweep needs start, stop, and step values."
  | noTimes => "TRAN analysis needs step and stop time."
  | noFrequencies => "AC analysis needs sweep points, start freq, and stop freq."

def word (s : String) : String :=
  Text.trim s

def wordOr (s absent : String) : String :=
  if word s = "" then absent else word s

def Config.missing (c : Config) : Kind → List Error
  | .op => []
  | .dc =>
    (if word c.dc.source = "" then [.noSource] else [])
      ++ (if word c.dc.start = "" || word c.dc.stop = "" || word c.dc.step = "" then [.noRange]
        else [])
  | .tran => if word c.tran.step = "" || word c.tran.stop = "" then [.noTimes] else []
  | .ac =>
    if word c.ac.points = "" || word c.ac.start = "" || word c.ac.stop = "" then [.noFrequencies]
    else []

def Config.line (c : Config) (kind : Kind) : String :=
  " ".intercalate (match kind with
    | .op => [".op"]
    | .dc => [".dc", word c.dc.source, word c.dc.start, word c.dc.stop, word c.dc.step]
    | .tran =>
      [".tran", word c.tran.step, word c.tran.stop, wordOr c.tran.start "0"]
        ++ (if word c.tran.maxStep = "" then [] else [word c.tran.maxStep])
    | .ac => [".ac", wordOr c.ac.sweep "dec", word c.ac.points, word c.ac.start, word c.ac.stop])

def Config.saved (c : Config) : List String :=
  (c.signals.map word).filter (· != "")

/-- The directives of an analysis, or what it is missing. An operating point saves nothing. The
fallback signals are those to save when none are chosen; without any, all are saved. -/
def directives (kind : Kind) (c : Config) (fallback : List String) :
    Except (List Error) (List String) :=
  match c.missing kind with
  | [] =>
    let fallback := (fallback.map word).filter (· != "")
    let save := saveLine c.saved (if fallback.isEmpty then ["all"] else fallback)
    .ok (if kind = .op then [c.line kind] else [save, c.line kind])
  | errors => .error errors

/-- The kind that a value names, in any case and with blanks around it; an operating point for
anything else. -/
def Kind.ofText (v : Value) : Kind :=
  (Kind.ofName? (Text.lower v.setting)).getD .op

inductive Given
  | config (c : Config)
  | document (v : Value)

def Given.toConfig : Given → Config
  | config c => c
  | document v => .ofValue v

structure Draft where
  lines : List String := []
  errors : List String := []
  deriving DecidableEq, Repr

namespace Draft

def add (line : String) : StateM Draft Unit :=
  modify fun d => { d with lines := d.lines ++ [line] }

def check (missing : Bool) (e : Error) : StateM Draft Unit :=
  modify fun d => if missing then { d with errors := d.errors ++ [e.message] } else d

def unlessFailed (steps : StateM Draft Unit) : StateM Draft Unit := do
  if (← get).errors.isEmpty then steps

def addSave (c : Config) (fallback : List String) : StateM Draft Unit :=
  let line := saveLine c.saved fallback
  if line = "" then pure () else add line

/-- Collects what there is to say about an analysis. Its lines are added when all its settings have
been looked at. -/
def collect (c : Config) (fallback : List String) : Kind → StateM Draft Unit
  | .op => add ".op"
  | .dc => do
    let source := word c.dc.source
    let start := word c.dc.start
    let stop := word c.dc.stop
    let step := word c.dc.step
    check (source = "") .noSource
    check (start = "" || stop = "" || step = "") .noRange
    unlessFailed do
      addSave c fallback
      add (".dc " ++ source ++ " " ++ start ++ " " ++ stop ++ " " ++ step)
  | .tran => do
    let step := word c.tran.step
    let stop := word c.tran.stop
    check (step = "" || stop = "") .noTimes
    unlessFailed do
      let start := wordOr c.tran.start "0"
      let maxStep := word c.tran.maxStep
      addSave c fallback
      let ending := if maxStep = "" then "" else " " ++ maxStep
      add (".tran " ++ step ++ " " ++ stop ++ " " ++ start ++ ending)
  | .ac => do
    let points := word c.ac.points
    let start := word c.ac.start
    let stop := word c.ac.stop
    check (points = "" || start = "" || stop = "") .noFrequencies
    unlessFailed do
      let sweep := wordOr c.ac.sweep "dec"
      addSave c fallback
      add (".ac " ++ sweep ++ " " ++ points ++ " " ++ start ++ " " ++ stop)

/-- The lines or errors for anything that is given as a kind, a configuration and the signals to fall
back on. -/
def build (kind : Value) (given : Given) (fallback : Value) : Draft :=
  let named := fallback.settings
  let collected := collect given.toConfig (if named.isEmpty then ["all"] else named) (.ofText kind)
  (collected.run {}).2

end Draft

/-- The choice of an analysis. A value that does not count as given names no kind. -/
def Kind.choose (v : Value) : Except String Kind :=
  let name := Text.lower (Text.trim (v.orElse (.text "")).shown)
  match Kind.ofName? name with
  | some kind => .ok kind
  | none =>
    .error ("Unknown analysis kind '" ++ name ++ "'. Expected one of: "
      ++ ", ".intercalate (Kind.all.map Kind.name))

end Analysis

end Schematic
