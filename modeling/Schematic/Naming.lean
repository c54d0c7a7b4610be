import Schematic.Junction
import Schematic.DisjointSets
/-!
Names of nets.

A net with a ground pin is `0`, whatever labels it carries. The others are `N1`, `N2`, … in drawing
order, unless their named nodes agree on one label that is not reserved: nets of one label share
it, in the spelling of the first of them.
-/

namespace Schematic

def groundName : String := "0"

def reservedNames : List String := ["0", "gnd"]

/-- The text under which labels and pin names are compared. -/
def labelKey (label : String) : String :=
  Text.lower (Text.trim label)

/-- Whether a pin of a component is a ground pin: its component is a ground symbol, or its name is
reserved. -/
def isGround (component : Option Component) (title : String) : Bool :=
  match component with
  | none => false
  | some c => c.kind? == some .ground || reservedNames.contains (labelKey title)

structure Label where
  text : String
  key : String
  deriving DecidableEq

def Label.ofText (text : String) : Label :=
  ⟨text, labelKey text⟩

inductive LabelError
  | reserved (label : String)
  | conflict (labels : List String)
  deriving DecidableEq

def LabelError.message : LabelError → String
  | reserved label => "Named node label \"" ++ label ++ "\" is reserved; use a different label."
  | conflict labels =>
    "Named node conflict: one net has multiple labels (" ++ ", ".intercalate labels ++ ")."

inductive Verdict
  | ground
  | plain
  | labelled (label : Label)
  | rejected (error : LabelError)
  deriving DecidableEq

def Verdict.error? : Verdict → Option LabelError
  | rejected error => some error
  | _ => none

def Verdict.label? : Verdict → Option Label
  | labelled label => some label
  | _ => none

namespace Drawing

variable {ν : Type}

def groundsTerminal (d : Drawing) (t : Terminal) : Bool :=
  isGround (d.named? t.component) t.title

def grounds (d : Drawing) (n : Net ν) : Bool :=
  n.terminals.any d.groundsTerminal

def label? (d : Drawing) (t : Terminal) : Option Label :=
  match d.named? t.component with
  | some c =>
    if c.kind? = some .net && c.label != "" then some (Label.ofText c.label) else none
  | none => none

def labels (d : Drawing) (n : Net ν) : List Label :=
  n.terminals.filterMap d.label?

end Drawing

def Label.distinct (labels : List Label) : List Label :=
  labels.foldl (fun ls l => if ls.any (·.key == l.key) then ls else ls ++ [l]) []

/-- The verdict of the labels alone. A reserved label is reported before a conflict. -/
def Verdict.ofLabels (labels : List Label) : Verdict :=
  let labels := Label.distinct labels
  match labels.find? fun l => reservedNames.contains l.key with
  | some l => .rejected (.reserved l.text)
  | none =>
    match labels with
    | [] => .plain
    | [l] => .labelled l
    | ls => .rejected (.conflict (ls.map (·.text)))

def Drawing.verdict {ν : Type} (d : Drawing) (n : Net ν) : Verdict :=
  if d.grounds n then .ground else Verdict.ofLabels (d.labels n)

structure Naming where
  names : Entries String String
  errors : List LabelError
  /-- The labels that are the default name of another net. -/
  clashes : List String
  /-- The labels in use, in the spelling of their first nets. -/
  labels : List String
  labelled : Nat

namespace Naming

/-- The default names: ground nets share theirs, the others are numbered. -/
def defaultNames : Nat → List Verdict → List String
  | _, [] => []
  | k, .ground :: vs => groundName :: defaultNames k vs
  | k, _ :: vs => ("N" ++ Value.intText k) :: defaultNames (k + 1) vs

/-- Nets joined by their labels. `first` has the first net of every key, and `spelling` the label of
every class by its representative. -/
structure Joined where
  classes : DisjointSets
  first : Entries String Nat
  spelling : Entries Nat String
  names : Entries String String

/-- Enters a label at the position of a net: a new key is that of the net, and a known one joins it
to the first net of the key. -/
def enter (j : Joined) (position : Nat) (l : Label) : Joined :=
  match j.first.get? l.key with
  | none => { j with
      first := j.first.put l.key position
      spelling := j.spelling.put position l.text }
  | some owner => { j with classes := (j.classes.union owner position).2 }

def claim (j : Joined) (id : String) (position : Nat) (l : Label) : Joined :=
  let j := enter j position l
  let (root, classes) := j.classes.find position
  { j with
    classes
    names := match j.spelling.get? root with
      | some name => j.names.put id name
      | none => j.names }

def join (names : Entries String String) (claims : List ((String × Nat) × Label)) (count : Nat) :
    Joined :=
  claims.foldl (fun j c => claim j c.1.1 c.1.2 c.2) ⟨.ofSize count, [], [], names⟩

def claims {ν : Type} (ordered : List (Net ν)) (verdicts : List Verdict) :
    List ((String × Nat) × Label) :=
  ((ordered.mapIdx fun i n => (n.id, i)).zip verdicts).filterMap fun (net, v) =>
    v.label?.map fun l => (net, l)

def ofOrdered {ν : Type} (d : Drawing) (ordered : List (Net ν)) : Naming :=
  let verdicts := ordered.map d.verdict
  let names := ((ordered.map (·.id)).zip (defaultNames 1 verdicts)).foldl
    (fun es e => Entries.put es e.1 e.2) []
  let claims := claims ordered verdicts
  let joined := join names claims ordered.length
  let labels := joined.spelling.map (·.2)
  let defaults := ((ordered.map (·.id)).zip verdicts).filterMap fun (id, v) =>
    match v.label?, joined.names.get? id with
    | none, some name => if name = groundName then none else some (Text.lower name)
    | _, _ => none
  { names := joined.names
    errors := verdicts.filterMap Verdict.error?
    clashes := labels.filter fun l => defaults.contains (Text.lower l)
    labels
    labelled := claims.length }

def hasGround (n : Naming) : Bool :=
  n.names.any (·.2 == groundName)

def warnings (n : Naming) : List String :=
  n.clashes.map fun l => "Named node label \"" ++ l
    ++ "\" matches the default name of another net; the two nets will be joined."

def signals (n : Naming) : List String :=
  n.labels.map fun l => "v(" ++ l ++ ")"

def errorMessages (n : Naming) : List String :=
  n.errors.map LabelError.message

end Naming

def Drawing.naming (d : Drawing) (nets : List (Net Point)) : Except Fault Naming := do
  d.checkIds
  return .ofOrdered d (Net.sorted nets)

def Drawing.namingOfValues (d : Drawing) (nets : List (Net Value)) : Except Fault Naming := do
  d.checkIds
  return .ofOrdered d (← Net.sortedValues nets)

end Schematic
