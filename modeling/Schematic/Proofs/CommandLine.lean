import Schematic.CommandLine.Run
import Schematic.Proofs.Document
/-!
What commands give for schematics that can be read. They crash on every one whose coordinates are out
of range. On the others they crash for what else they are given: a preset file or an analysis that is
no good, a file that cannot be written, a text to print or to write that holds a surrogate.
-/

namespace Schematic.CommandLine

open Fault (SucceedsIff)

def Command.schematic? : Command → Option String
  | compile o => some o.schematic
  | validate path | nets path => some path
  | presets .. => none

/-- Whether a command crashes on its other options: on the preset file that it names, or on its
analysis. -/
def Command.CrashesOnOptions [Json.Limits] (s : Surroundings) (crash : Crash) : Command → Prop
  | compile o => chosenConfig s o = .error crash ∨
      ∃ message, Analysis.Kind.choose o.analysis.toValue = .error message ∧ crash = .analysis message
  | _ => False

/-- How a command crashes on what it gives: its file is not written, or a line is not printed. -/
inductive Outcome.CrashesDelivered (s : Surroundings) (o : Outcome) : Crash → Prop
  | unwritable {path text : String} {e : Files.Error} (file : o.file = some (path, text))
      (barred : s.bar? path = some e) : CrashesDelivered s o (.unwritable path e)
  | unencodable {path text : String} (file : o.file = some (path, text))
      (spoilt : Text.isEncodable text = false) : CrashesDelivered s o (.unencodable (some path))
  | unprintable {line : String} (printed : line ∈ o.output)
      (spoilt : Text.isEncodable line = false) : CrashesDelivered s o (.unencodable none)

def Surroundings.Holds [Json.Limits] (s : Surroundings) (path : String) (v : Value) : Prop :=
  ∃ content, s.look path = .text content ∧ Json.read (Text.unified content) = .ok v

namespace Outcome

variable {s : Surroundings} {o : Outcome} {crash : Crash}

theorem CrashesDelivered.of_refusal (refused : s.refusal? o.file = some crash) :
    o.CrashesDelivered s crash := by
  cases file : o.file with
  | none =>
      rw [file] at refused
      cases refused
  | some asked =>
      obtain ⟨path, text⟩ := asked
      rw [file] at refused
      cases barred : s.bar? path with
      | some e =>
          simp only [Surroundings.refusal?, barred, Option.some.injEq] at refused
          exact refused ▸ .unwritable file barred
      | none =>
          simp only [Surroundings.refusal?, barred, Option.ite_none_left_eq_some,
            Bool.not_eq_true, Option.some.injEq] at refused
          exact refused.2 ▸ .unencodable file refused.1

theorem deliver_cases (s : Surroundings) (o : Outcome) :
    (∃ delivered, o.deliver s = .ok delivered) ∨
      ∃ crash, o.CrashesDelivered s crash ∧ o.deliver s = .error crash := by
  cases refused : s.refusal? o.file with
  | some crash =>
      exact .inr ⟨crash, .of_refusal refused, by simp only [deliver, refused]⟩
  | none =>
      cases printed : o.output.all Text.isEncodable with
      | true =>
          left
          simp only [deliver, refused, printed, if_true, Except.ok.injEq, exists_eq']
      | false =>
          obtain ⟨line, member, spoilt⟩ := List.all_eq_false.1 printed
          refine .inr ⟨_, .unprintable member (by simpa using spoilt), ?_⟩
          simp only [deliver, refused, printed, Bool.false_eq_true, if_false]

end Outcome

theorem exists_bind_fault {α : Type} {x : Except Fault α} {next : α → Except Crash Outcome}
    (succeeds : ∃ a, x = .ok a) (rest : ∀ a, x = .ok a → ∃ outcome, next a = .ok outcome) :
    ∃ outcome, (x.mapError Crash.fault >>= next) = .ok outcome := by
  obtain ⟨a, rfl⟩ := succeeds
  exact rest a rfl

section

variable [Json.Limits] {s : Surroundings} {path : String} {v : Value}
  {use : Drawing → Except Crash Outcome}

namespace Surroundings.Holds

theorem withDrawing_of_made (holds : s.Holds path v) (accepted : Document.check v = .ok ())
    {d : Drawing} (made : Drawing.ofValue v = .ok d) : withDrawing s path use = use d := by
  obtain ⟨content, found, read⟩ := holds
  simp only [withDrawing, loadDrawing, found, read, accepted, made]
  rfl

theorem withDrawing_of_fault (holds : s.Holds path v) (accepted : Document.check v = .ok ())
    {fault : Fault} (fails : Drawing.ofValue v = .error fault) :
    withDrawing s path use = .error (.fault fault) := by
  obtain ⟨content, found, read⟩ := holds
  simp only [withDrawing, loadDrawing, found, read, accepted, fails]
  rfl

end Surroundings.Holds

variable {d : Drawing}

theorem exists_runCompile {o : CompileOptions} {verbose : Bool} (holds : s.Holds o.schematic v)
    (accepted : Document.check v = .ok ()) (made : Drawing.ofValue v = .ok d)
    (processed : d.IsProcessed) :
    (∃ outcome, runCompile s verbose o = .ok outcome) ∨
      ∃ crash, (Command.compile o).CrashesOnOptions s crash ∧
        runCompile s verbose o = .error crash := by
  rw [runCompile, holds.withDrawing_of_made accepted made]
  cases chosen : chosenConfig s o with
  | error crash => exact .inr ⟨crash, .inl chosen, rfl⟩
  | ok choice =>
      obtain ⟨config, warnings⟩ := choice
      cases config with
      | none => exact .inl ⟨_, rfl⟩
      | some config =>
          cases known : Analysis.Kind.choose o.analysis.toValue with
          | error message => exact .inr ⟨.analysis message, .inr ⟨message, known, rfl⟩, rfl⟩
          | ok kind =>
              exact .inl (exists_bind_fault (processed.prepare kind config _) fun r _ => ⟨_, rfl⟩)

theorem exists_runValidate {verbose : Bool} (holds : s.Holds path v)
    (accepted : Document.check v = .ok ()) (made : Drawing.ofValue v = .ok d)
    (processed : d.IsProcessed) : ∃ outcome, runValidate s verbose path = .ok outcome := by
  obtain ⟨nets, found, _, checked⟩ := processed.nets
  obtain ⟨graph, drawn, same⟩ := Fault.bind_eq_ok.1 found
  obtain rfl := Fault.pure_eq_ok.1 same
  rw [runValidate, holds.withDrawing_of_made accepted made]
  refine exists_bind_fault ⟨graph, drawn⟩ fun g read => ?_
  obtain rfl := Except.ok.inj (drawn.symm.trans read)
  refine exists_bind_fault checked fun check _ => ?_
  refine exists_bind_fault (processed.compile "") fun c _ => ?_
  dsimp only
  split <;> exact ⟨_, rfl⟩

theorem exists_runNets {verbose : Bool} (holds : s.Holds path v)
    (accepted : Document.check v = .ok ()) (made : Drawing.ofValue v = .ok d)
    (processed : d.IsProcessed) : ∃ outcome, runNets s verbose path = .ok outcome := by
  obtain ⟨nets, found, coloured, _⟩ := processed.nets
  rw [runNets, holds.withDrawing_of_made accepted made]
  refine exists_bind_fault (processed.compile "") fun c compiled => ?_
  have same := (Drawing.compilesTo_of_compile compiled).nets
  obtain rfl := Except.ok.inj (found.symm.trans same)
  exact exists_bind_fault coloured fun colouring _ => ⟨_, rfl⟩

theorem Invocation.exists_outcome {i : Invocation} (opens : i.command.schematic? = some path)
    (holds : s.Holds path v) (accepted : Document.check v = .ok ())
    (made : Drawing.ofValue v = .ok d) (processed : d.IsProcessed) :
    (∃ outcome, i.outcome s = .ok outcome) ∨
      ∃ crash, i.command.CrashesOnOptions s crash ∧ i.outcome s = .error crash := by
  obtain ⟨verbose, command⟩ := i
  cases command with
  | compile o =>
      obtain rfl := Option.some.inj opens
      exact exists_runCompile holds accepted made processed
  | validate other =>
      obtain rfl := Option.some.inj opens
      exact .inl (exists_runValidate holds accepted made processed)
  | nets other =>
      obtain rfl := Option.some.inj opens
      exact .inl (exists_runNets holds accepted made processed)
  | presets => cases opens

theorem Invocation.exists_outcome_eq {i : Invocation}
    (opens : i.command.schematic? = some path) :
    ∃ use, i.outcome s = withDrawing s path use := by
  obtain ⟨verbose, command⟩ := i
  cases command with
  | compile | validate | nets =>
      obtain rfl := Option.some.inj opens
      exact ⟨_, rfl⟩
  | presets => cases opens

/-- An accepted document is loaded and processed just when its coordinates are in range. -/
theorem accepted_isProcessed_iff_inRange (accepted : Document.check v = .ok ()) :
    (Document.InRange v →
      (∃ d, Drawing.ofValue v = .ok d ∧ Document.IsLoaded v d ∧ d.IsProcessed) ∧
      ∀ s path, Surroundings.Holds s path v → ∀ i : Invocation, i.command.schematic? = some path →
        (∃ outcome, i.run s = .ok outcome) ∨
          ∃ crash, i.run s = .error crash ∧
            (i.command.CrashesOnOptions s crash ∨
              ∃ outcome, i.outcome s = .ok outcome ∧ outcome.CrashesDelivered s crash)) ∧
    (¬ Document.InRange v →
      Drawing.ofValue v = .error .overflow ∧
      ∀ s path, Surroundings.Holds s path v → ∀ i : Invocation, i.command.schematic? = some path →
        i.run s = .error (.fault .overflow)) := by
  have succeeds := Drawing.ofValue_succeedsIff accepted
  constructor
  · intro range
    obtain ⟨d, made⟩ := succeeds.ok range
    have loaded := Drawing.isLoaded_of_ofValue accepted made
    have processed := loaded.built.isProcessed
    refine ⟨⟨d, made, loaded, processed⟩, fun s path holds i opens => ?_⟩
    rw [Invocation.run]
    obtain ⟨outcome, given⟩ | ⟨crash, onOptions, crashed⟩ :=
      Invocation.exists_outcome opens holds accepted made processed
    · rw [given]
      obtain delivered | ⟨crash, spoilt, crashed⟩ := outcome.deliver_cases s
      · exact .inl delivered
      · exact .inr ⟨crash, crashed, .inr ⟨outcome, rfl, spoilt⟩⟩
    · rw [crashed]
      exact .inr ⟨crash, rfl, .inl onOptions⟩
  · intro beyond
    have fails := succeeds.error beyond
    refine ⟨fails, fun s path holds i opens => ?_⟩
    obtain ⟨use, same⟩ := Invocation.exists_outcome_eq opens
    rw [Invocation.run, same, holds.withDrawing_of_fault accepted fails]
    rfl

end

def resistorDocument (x : Value) : Value :=
  .record [
    ("components", .list [.record [("id", .text "R1"), ("type", .text "R"), ("value", .text "1k"),
      ("pins", .list [.record [("id", .text "1"), ("x", x), ("y", .int 0)],
        .record [("id", .text "2"), ("x", .int 20), ("y", .int 0)]])]]),
    ("wires", .list [])]

theorem accepted_isProcessed_iff_inRange_resistor :
    Document.check (resistorDocument (.int 0)) = .ok () ∧
      Document.InRange (resistorDocument (.int 0)) ∧
      ∃ d, Drawing.ofValue (resistorDocument (.int 0)) = .ok d ∧
        Document.IsLoaded (resistorDocument (.int 0)) d ∧ d.IsProcessed := by
  have accepted : Document.check (resistorDocument (.int 0)) = .ok () := rfl
  obtain ⟨inside, outside⟩ := accepted_isProcessed_iff_inRange accepted
  have loads : (match Drawing.ofValue (resistorDocument (.int 0)) with
      | .ok _ => true
      | .error _ => false) = true := by
    decide +kernel
  have range : Document.InRange (resistorDocument (.int 0)) := by
    by_contra beyond
    rw [(outside beyond).1] at loads
    cases loads
  exact ⟨accepted, range, (inside range).1⟩

/-- A pin at a place that is a finite number is accepted and cannot be loaded. -/
theorem ofValue_of_farResistor :
    Document.check (resistorDocument (.float (.lit 1 308))) = .ok () ∧
      (Binary64.lit 1 308).isFinite = true ∧
      Drawing.ofValue (resistorDocument (.float (.lit 1 308))) = .error .overflow := by
  refine ⟨rfl, by decide +kernel, ?_⟩
  have fails : (match Drawing.ofValue (resistorDocument (.float (.lit 1 308))) with
      | .ok _ => none
      | .error fault => some fault) = some .overflow := by
    decide +kernel
  cases made : Drawing.ofValue (resistorDocument (.float (.lit 1 308))) with
  | ok d =>
      rw [made] at fails
      cases fails
  | error fault =>
      rw [made] at fails
      rw [Option.some.inj fails]

end Schematic.CommandLine
