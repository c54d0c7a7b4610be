import Schematic.CommandLine.Grammar
import Schematic.Analysis
/-!
The commands of the program and their options.
-/

namespace Schematic.CommandLine

structure CompileOptions where
  schematic : String
  analysis : Argument
  preset : Option String
  presetFile : Option Argument
  title : Option String
  json : Bool
  output : Option String
  deriving DecidableEq, Repr

inductive Command
  | compile (options : CompileOptions)
  | validate (schematic : String)
  | nets (schematic : String)
  | presets (analysis presetFile : Option Argument)
  deriving DecidableEq, Repr

structure Invocation where
  verbose : Bool
  command : Command
  deriving DecidableEq, Repr

def program : String := "schematic-netlist"

def helpOption : Opt := ⟨["-h", "--help"], .help⟩
def verboseOption : Opt := ⟨["--verbose", "-v"], .flag⟩
def analysisOption : Opt := ⟨["--analysis"], .value (Analysis.Kind.all.map Analysis.Kind.name)⟩
def presetOption : Opt := ⟨["--preset"], .value []⟩
def presetFileOption : Opt := ⟨["--preset-file"], .value []⟩
def titleOption : Opt := ⟨["--title"], .value []⟩
def jsonOption : Opt := ⟨["--json"], .flag⟩
def outputOption : Opt := ⟨["--output", "-o"], .value []⟩

def mainGrammar : Grammar where
  options := [helpOption, verboseOption]
  operand := .command "command" ["compile", "validate", "nets", "presets"]

def compileGrammar : Grammar where
  options := [helpOption, analysisOption, presetOption, presetFileOption, titleOption, jsonOption,
    outputOption]
  operand := .word "schematic"

def schematicGrammar : Grammar where
  options := [helpOption]
  operand := .word "schematic"

def presetsGrammar : Grammar where
  options := [helpOption, analysisOption, presetFileOption]
  operand := .none

def grammarOf (command : String) : Grammar :=
  match command with
  | "compile" => compileGrammar
  | "presets" => presetsGrammar
  | _ => schematicGrammar

def commandOf (command : String) (r : Reading) : Command :=
  let operand := r.operands.headD ""
  match command with
  | "compile" =>
    .compile {
      schematic := operand
      analysis := (r.value? analysisOption).getD (.text Analysis.Kind.op.name)
      preset := (r.value? presetOption).map Argument.content
      presetFile := r.value? presetFileOption
      title := (r.value? titleOption).map Argument.content
      json := r.has jsonOption
      output := (r.value? outputOption).map Argument.content }
  | "validate" => .validate operand
  | "nets" => .nets operand
  | _ => .presets (r.value? analysisOption) (r.value? presetFileOption)

/-- Why there is no invocation: help is asked for, or an error of the named program part. -/
inductive Refusal
  | help
  | error (part : String) (e : Error)
  deriving DecidableEq, Repr

def Refusal.ofStop (part : String) : Stop → Refusal
  | .help => .help
  | .error e => .error part e

def Refusal.message : Refusal → String
  | help => ""
  | error part e => part ++ ": error: " ++ e.message

def Refusal.exitCode : Refusal → Nat
  | help => 0
  | error .. => 2

/-- Reads a command line. What neither the program nor the command understands is reported last. -/
def Invocation.read (words : List String) : Except Refusal Invocation := do
  let outer ← (mainGrammar.read words).mapError (.ofStop program)
  match outer.operands with
  | [] => throw (.error program (.missing "command"))
  | command :: words =>
    let inner ← ((grammarOf command).read words).mapError (.ofStop (program ++ " " ++ command))
    match outer.extras ++ inner.extras with
    | [] => return ⟨outer.has verboseOption, commandOf command inner⟩
    | extras => throw (.error program (.unrecognized extras))

end Schematic.CommandLine
