import Schematic.Text.Digit
import Schematic.Text.Quoted
import Schematic.Value
/-!
Reading words of a command line.

A word that begins with a dash is an option, by its name or by the beginning of a long name. A value
is the next word, or follows an equals sign, or follows a one-letter name at once. One-letter flags
may share a word. Two dashes end the options. Words that nothing expects are kept as extras.
-/

namespace Schematic.CommandLine

/-- What an option is for. An empty list of choices allows any value. -/
inductive Opt.Use
  | help
  | flag
  | value (choices : List String)
  deriving DecidableEq, Repr

structure Opt where
  names : List String
  use : Opt.Use
  deriving DecidableEq, Repr

inductive Operand
  | none
  | word (name : String)
  /-- A word out of a list, and everything behind it. -/
  | command (name : String) (choices : List String)
  deriving DecidableEq, Repr

structure Grammar where
  options : List Opt
  operand : Operand
  deriving Repr

/-- What an option is given. Two dashes, written in the word of the option, give it no text. -/
inductive Argument
  | text (s : String)
  | blank
  deriving DecidableEq, Repr

/-- Words that were understood. Later values of an option override earlier ones. -/
structure Reading where
  values : List (Opt × Argument)
  flags : List Opt
  operands : List String
  extras : List String
  deriving Repr

namespace Opt

def title (o : Opt) : String :=
  "/".intercalate o.names

def takesValue (o : Opt) : Bool :=
  match o.use with
  | .value _ => true
  | _ => false

end Opt

namespace Argument

def ofAttached (value : List Char) : Argument :=
  if value = ['-', '-'] then blank else text (String.ofList value)

def content : Argument → String
  | text s => s
  | blank => ""

/-- An argument as a value: a text, or the list of no texts. -/
def toValue : Argument → Value
  | text s => .text s
  | blank => .list []

end Argument

namespace Reading

def empty : Reading := ⟨[], [], [], []⟩

def value? (r : Reading) (o : Opt) : Option Argument :=
  (r.values.reverse.find? (·.1 == o)).map (·.2)

def has (r : Reading) (o : Opt) : Bool :=
  r.flags.contains o

end Reading

inductive Error
  | ambiguous (word : String) (names : List String)
  | noValue (title : String)
  | extraValue (title value : String)
  | badChoice (title value : String) (choices : List String)
  | missing (name : String)
  | unrecognized (words : List String)
  deriving DecidableEq, Repr

def Error.message : Error → String
  | ambiguous word names =>
    "ambiguous option: " ++ word ++ " could match " ++ ", ".intercalate names
  | noValue title => "argument " ++ title ++ ": expected one argument"
  | extraValue title value =>
    "argument " ++ title ++ ": ignored explicit argument " ++ Text.quoted value
  | badChoice title value choices =>
    "argument " ++ title ++ ": invalid choice: " ++ Text.quoted value ++ " (choose from "
      ++ ", ".intercalate (choices.map Text.quoted) ++ ")"
  | missing name => "the following arguments are required: " ++ name
  | unrecognized words => "unrecognized arguments: " ++ " ".intercalate words

inductive Stop
  | help
  | error (e : Error)
  deriving DecidableEq, Repr

inductive Word
  | divider
  | operand
  | unknown
  /-- An option, with the value that its word holds. -/
  | known (o : Opt) (name : String) (value : Option (List Char))
  deriving Repr

namespace Grammar

def named? (g : Grammar) (name : String) : Option Opt :=
  g.options.find? (·.names.contains name)

def names (g : Grammar) : List (String × Opt) :=
  g.options.flatMap fun o => o.names.map fun n => (n, o)

def divide (cs : List Char) : List Char × Option (List Char) :=
  match cs.dropWhile (· != '=') with
  | _ :: value => (cs.takeWhile (· != '='), some value)
  | [] => (cs, none)

/-- The readings of a word that is no name: beginnings of long names, or a one-letter name with its
value. -/
def candidates (g : Grammar) (cs : List Char) : List (Opt × String × Option (List Char)) :=
  match cs with
  | '-' :: '-' :: _ =>
    let (front, value) := divide cs
    g.names.filterMap fun (n, o) =>
      if front.isPrefixOf n.toList then some (o, n, value) else none
  | dash :: c :: value =>
    g.names.filterMap fun (n, o) =>
      if n.toList = [dash, c] then some (o, n, some value)
      else if cs.isPrefixOf n.toList then some (o, n, none) else none
  | _ => []

/-- A negative number, which is no option. -/
def isNegativeNumber (cs : List Char) : Bool :=
  match cs with
  | '-' :: cs =>
    match cs.dropWhile Text.isDigit with
    | [] | ['\n'] => !(cs.takeWhile Text.isDigit).isEmpty
    | '.' :: rest =>
      let digits := rest.takeWhile Text.isDigit
      !digits.isEmpty && (rest.drop digits.length == [] || rest.drop digits.length == ['\n'])
    | _ => false
  | _ => false

/-- A word in front of a divider. What begins with a dash and is unknown counts as an operand only if
it is a negative number or holds a space. -/
def word (g : Grammar) (w : String) : Except Error Word :=
  let cs := w.toList
  match cs with
  | '-' :: _ =>
    match g.named? w with
    | some o => .ok (.known o w none)
    | none =>
      if cs.length = 1 then .ok .operand
      else
        let (front, value) := divide cs
        match value, g.named? (String.ofList front) with
        | some value, some o => .ok (.known o (String.ofList front) (some value))
        | _, _ =>
          match g.candidates cs with
          | [(o, name, value)] => .ok (.known o name value)
          | [] =>
            .ok (if isNegativeNumber cs || cs.contains ' ' then .operand else .unknown)
          | found => .error (.ambiguous w (found.map (·.2.1)))
  | _ => .ok .operand

def words (g : Grammar) : List String → Except Error (List (String × Word))
  | [] => .ok []
  | w :: ws =>
    if w = "--" then .ok ((w, .divider) :: ws.map fun w => (w, .operand))
    else do
      let word ← g.word w
      return (w, word) :: (← g.words ws)

/-- What an option does once its argument is known. A blank argument is never a bad choice. -/
def act (r : Reading) (o : Opt) (a : Argument) : Except Stop Reading :=
  match o.use with
  | .help => .error .help
  | .flag => .ok { r with flags := r.flags ++ [o] }
  | .value choices =>
    match a with
    | .text s =>
      if choices.isEmpty || choices.contains s then .ok { r with values := r.values ++ [(o, a)] }
      else .error (.error (.badChoice o.title s choices))
    | .blank => .ok { r with values := r.values ++ [(o, a)] }

/-- The options that one word holds: those complete, and the one that still needs an argument. -/
structure Cluster where
  complete : List (Opt × Argument) := []
  open? : Option Opt := none

def Cluster.bare (o : Opt) : Cluster :=
  if o.takesValue then { open? := some o } else { complete := [(o, .blank)] }

def isLong (name : String) : Bool :=
  match name.toList with
  | _ :: '-' :: _ => true
  | _ => false

/-- Reads what the word of an option holds behind its name: its argument, or behind a one-letter flag
more one-letter options. -/
def cluster (g : Grammar) (short : Bool) (o : Opt) : List Char → Except Error Cluster
  | [] =>
    if o.takesValue then .ok { complete := [(o, .text "")] } else .error (.extraValue o.title "")
  | c :: rest =>
    if o.takesValue then .ok { complete := [(o, .ofAttached (c :: rest))] }
    else
      match if short then g.named? (String.ofList ['-', c]) else none with
      | none => .error (.extraValue o.title (String.ofList (c :: rest)))
      | some p => do
        let others ← if rest.isEmpty then .ok (.bare p) else g.cluster true p rest
        return { others with complete := (o, .blank) :: others.complete }

/-- A reading under way. `waiting` is the option that needs the next word, with those before it in
its word; `done` says that the operand is there. -/
structure State where
  reading : Reading
  waiting : Option (Opt × List (Opt × Argument))
  done : Bool

def actAll (r : Reading) (os : List (Opt × Argument)) : Except Stop Reading :=
  os.foldlM (fun r o => act r o.1 o.2) r

def takeCluster (s : State) (c : Cluster) : Except Stop State := do
  match c.open? with
  | some o => return { s with waiting := some (o, c.complete) }
  | none => return { s with reading := ← actAll s.reading c.complete }

def addExtra (s : State) (w : String) : State :=
  { s with reading := { s.reading with extras := s.reading.extras ++ [w] } }

def takeCommand (s : State) (name : String) (choices : List String) (words : List String) :
    Except Stop State :=
  match words with
  | w :: _ =>
    if choices.contains w then
      .ok { s with reading := { s.reading with operands := words }, done := true }
    else .error (.error (.badChoice name w choices))
  | [] => .ok s

/-- Reads the words that are left. A divider goes with the operand beside it. -/
def run (g : Grammar) : State → List (String × Word) → Except Stop State
  | s, [] =>
    match s.waiting with
    | some (o, _) => .error (.error (.noValue o.title))
    | none => .ok s
  | s, (w, word) :: rest =>
    match s.waiting, word with
    | some (o, before), .operand => do
      let r ← actAll s.reading (before ++ [(o, .text w)])
      g.run { s with reading := r, waiting := none } rest
    | some (o, _), _ => .error (.error (.noValue o.title))
    | none, .known o name value => do
      let c ← (match value with
        | some value => g.cluster (!isLong name) o value
        | none => .ok (.bare o)).mapError .error
      g.run (← takeCluster s c) rest
    | none, .unknown => g.run (addExtra s w) rest
    | none, .operand =>
      if s.done then g.run (addExtra s w) rest
      else
        match g.operand with
        | .none => g.run (addExtra s w) rest
        | .command name choices => takeCommand s name choices (w :: rest.map (·.1))
        | .word _ =>
          let s := { s with reading := { s.reading with operands := [w] }, done := true }
          match rest with
          | (_, .divider) :: rest => g.run s rest
          | rest => g.run s rest
    | none, .divider =>
      if s.done || rest.isEmpty then g.run (addExtra s w) rest
      else
        match g.operand with
        | .none => g.run (addExtra s w) rest
        | .command name choices => takeCommand s name choices (w :: rest.map (·.1))
        | .word _ => g.run s rest
termination_by _ ws => ws.length

/-- Reads words. The operand, if one is expected, must be there. -/
def read (g : Grammar) (ws : List String) : Except Stop Reading := do
  let words ← (g.words ws).mapError .error
  let s ← g.run ⟨.empty, none, false⟩ words
  match g.operand with
  | .none => return s.reading
  | .word name | .command name _ =>
    if s.done then return s.reading else throw (.error (.missing name))

end Grammar

end Schematic.CommandLine
