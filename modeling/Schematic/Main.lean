import Schematic.CommandLine.Run
/-!
The program: reads the command line, looks at files, prints and writes.
-/

namespace Schematic.CommandLine

def lookAt (path : String) : IO Files.Found := do
  try
    return .text (← IO.FS.readFile path)
  catch
    | .noFileOrDirectory .. => return .nothing
    | _ => return .folder

def Invocation.perform (i : Invocation) : IO UInt32 := do
  let home := (← IO.getEnv "HOME").getD ""
  let seen ← (i.command.paths home).mapM fun path => return (path, ← lookAt path)
  match i.run ⟨fun path => (seen.lookup path).getD .nothing, fun _ => none, home⟩ with
  | .error crash =>
    if let .unencodable (some path) := crash then IO.FS.writeFile path ""
    IO.eprintln (Text.backslashed crash.message)
    return 1
  | .ok o =>
    if let some (path, text) := o.file then IO.FS.writeFile path text
    IO.eprint (Outcome.text o.complaints)
    IO.print (Outcome.text o.output)
    return UInt32.ofNat o.exitCode

end Schematic.CommandLine

open Schematic.CommandLine in
def main (args : List String) : IO UInt32 :=
  match Invocation.read args with
  | .ok i => i.perform
  | .error refusal => do
    if refusal.exitCode != 0 then IO.eprintln refusal.message
    return UInt32.ofNat refusal.exitCode
