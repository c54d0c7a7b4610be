import Schematic.Compile
import Schematic.Proofs.Drawing
import Schematic.Proofs.Naming.Collisions
import Schematic.Proofs.Netlist.Lines
/-!
What compiling a drawing gives, and that it gives something.
-/

namespace Schematic

namespace Component

variable {c : Component} {nets : PinNets} {read : SwitchReader}

theorem IsTidy.exists_valueText (tidy : c.IsTidy) : ∃ s, c.valueText = .ok s := by
  obtain ⟨s, value⟩ := tidy.value
  unfold valueText
  rw [value]
  split <;> exact ⟨_, rfl⟩

theorem IsTidy.exists_net? (tidy : c.IsTidy) (nets : PinNets) {p : Pin} (member : p ∈ c.pins) :
    ∃ name, nets.net? c.id p.id = .ok name := by
  obtain ⟨s, id⟩ := tidy.id
  obtain ⟨t, pinId⟩ := (tidy.pins p member).id
  rw [id, pinId]
  exact ⟨_, rfl⟩

theorem IsTidy.exists_terminalElement (tidy : c.IsTidy) (nets : PinNets) (letter fallback : String) :
    ∃ es, c.terminalElement nets letter fallback = .ok es := by
  obtain ⟨stored, value⟩ := tidy.exists_valueText
  unfold terminalElement
  split
  next p q rest pins =>
    have first : p ∈ c.pins := by simp [pins]
    have second : q ∈ c.pins := by simp [pins]
    obtain ⟨a, netA⟩ := tidy.exists_net? nets first
    obtain ⟨b, netB⟩ := tidy.exists_net? nets second
    rw [netA, netB, value]
    cases a with
    | none => exact ⟨_, rfl⟩
    | some a =>
        cases b with
        | none => exact ⟨_, rfl⟩
        | some b => exact ⟨_, rfl⟩
  next => exact ⟨_, rfl⟩

theorem mem_of_ofPins? {pins : List Pin} {roles : Roles} (cast : Roles.ofPins? pins = some roles)
    (r : Role) : roles.pin r ∈ pins := by
  unfold Roles.ofPins? at cast
  split at cast
  · cases cast
  · simp only [Option.bind_eq_bind, Option.bind_eq_some_iff] at cast
    obtain ⟨_, ⟨_, _, foundC⟩, _, ⟨_, _, foundA⟩, _, ⟨_, _, foundB⟩, same⟩ := cast
    obtain rfl := Option.some.inj same
    cases r with
    | c => exact List.mem_of_getElem? foundC
    | a => exact List.mem_of_getElem? foundA
    | b => exact List.mem_of_getElem? foundB

theorem IsTidy.exists_switchElements (tidy : c.IsTidy) :
    ∃ r, c.switchElements nets read = .ok r := by
  unfold switchElements
  split
  · exact ⟨_, rfl⟩
  next roles cast =>
    split
    · exact ⟨_, rfl⟩
    next s _ =>
      have known := fun r => tidy.exists_net? nets (mem_of_ofPins? cast r)
      obtain ⟨a, common⟩ := known .c
      obtain ⟨b, active⟩ := known (throwRole s.active)
      obtain ⟨b', inactive⟩ := known (throwRole s.active.other)
      simp only [common, active, inactive]
      exact ⟨_, rfl⟩

theorem IsTidy.exists_elements (tidy : c.IsTidy) : ∃ r, c.elements nets read = .ok r := by
  have plain := tidy.exists_terminalElement nets
  obtain ⟨stored, value⟩ := tidy.exists_valueText
  unfold elements
  cases c.kind? with
  | none => exact ⟨_, rfl⟩
  | some k =>
      cases k with
      | resistor | capacitor | inductor | voltageSource | currentSource =>
          exact Fault.exists_bind (plain _ _) fun es => ⟨_, rfl⟩
      | voltmeter =>
          refine Fault.exists_bind ⟨stored, value⟩ fun text => ?_
          split
          · exact ⟨_, rfl⟩
          · exact Fault.exists_bind (plain _ _) fun es => ⟨_, rfl⟩
      | ammeter =>
          refine Fault.exists_bind ⟨stored, value⟩ fun text => ?_
          exact Fault.exists_bind (plain _ _) fun es => ⟨_, rfl⟩
      | switch => exact tidy.exists_switchElements
      | _ => exact ⟨_, rfl⟩

end Component

namespace Compilation

variable {c : Compilation}

theorem naming_errors_eq_nil (noErrors : c.errors = []) : c.naming.errors = [] :=
  List.map_eq_nil_iff.1 (List.append_eq_nil_iff.1 noErrors).1

theorem naming_clashes_eq_nil (apart : ∀ l, Naming.clashWarning l ∉ c.warnings) :
    c.naming.clashes = [] := by
  refine List.eq_nil_iff_forall_not_mem.2 fun l clash => apart l ?_
  refine List.mem_append_left _ ?_
  rw [Naming.warnings_eq]
  exact List.mem_map_of_mem clash

end Compilation

/-- What the parts of a compilation come from. -/
structure Drawing.CompilesTo (d : Drawing) (title : String) (c : Compilation) : Prop where
  nets : d.nets = .ok c.nets
  naming : d.naming c.nets = .ok c.naming
  pinNets : c.pinNets = .ofNets c.naming.names c.nets
  netlist : Netlist.ofComponents c.pinNets .standard d.components title = .ok c.netlist

namespace Drawing

variable {d : Drawing} {title : String} {c : Compilation}

theorem compilesTo_of_compile (compiled : d.compile title = .ok c) : d.CompilesTo title c := by
  unfold compile at compiled
  simp only [Fault.bind_eq_ok, Fault.pure_eq_ok] at compiled
  obtain ⟨g, graph, naming, named, netlist, made, rfl⟩ := compiled
  refine ⟨?_, named, rfl, made⟩
  unfold Drawing.nets
  rw [graph]
  rfl

theorem exists_compile_of_isTidy (tidy : ∀ x ∈ d.components, x.IsTidy) (placed : d.IsPlaced)
    (title : String) : ∃ c, d.compile title = .ok c := by
  unfold compile
  refine Fault.exists_bind ⟨_, graph_of_placed placed⟩ fun g => ?_
  refine Fault.exists_bind ⟨_, naming_eq_ok.2 ⟨checkIds_of_isTidy tidy, rfl⟩⟩ fun naming => ?_
  refine Fault.exists_bind ?_ fun netlist => ⟨_, rfl⟩
  exact Netlist.exists_ofComponents fun x member => (tidy x member).exists_elements

theorem Built.exists_compile (built : d.Built) (placed : d.IsPlaced) (title : String) :
    ∃ c, d.compile title = .ok c :=
  exists_compile_of_isTidy built.component_isTidy placed title

namespace CompilesTo

variable (compiles : d.CompilesTo title c)

include compiles

theorem hasNets : d.layout.HasNets c.nets :=
  hasNets_of_nets compiles.nets

theorem isPlaced : d.IsPlaced :=
  (nets_eq_ok.1 compiles.nets).1

theorem nets_eq : c.nets = (Graph.ofPlacement d.layout).nets :=
  (nets_eq_ok.1 compiles.nets).2

theorem naming_eq (ordered : (Graph.ofPlacement d.layout).nets.Pairwise
      fun a b => (a.anchor .origin).le (b.anchor .origin) = true) :
    c.naming = .ofOrdered d (Graph.ofPlacement d.layout).nets := by
  have sorted : Net.sorted c.nets = (Graph.ofPlacement d.layout).nets := by
    rw [compiles.nets_eq]
    exact List.mergeSort_of_pairwise ordered
  rw [(naming_eq_ok.1 compiles.naming).2, sorted]

theorem map_netlist_eq (ordered : (Graph.ofPlacement d.layout).nets.Pairwise
      fun a b => (a.anchor .origin).le (b.anchor .origin) = true) {α : Type} {f : Netlist → α} {a : α}
    (made : (Netlist.ofComponents
      (.ofNets (Naming.ofOrdered d (Graph.ofPlacement d.layout).nets).names
        (Graph.ofPlacement d.layout).nets)
      .standard d.components title).toOption.map f = some a) : f c.netlist = a := by
  have netlist := compiles.netlist
  rw [compiles.pinNets, compiles.naming_eq ordered, compiles.nets_eq] at netlist
  rw [netlist] at made
  exact Option.some.inj made

theorem errors_eq (ordered : (Graph.ofPlacement d.layout).nets.Pairwise
      fun a b => (a.anchor .origin).le (b.anchor .origin) = true) {messages : List String}
    (made : (Netlist.ofComponents
      (.ofNets (Naming.ofOrdered d (Graph.ofPlacement d.layout).nets).names
        (Graph.ofPlacement d.layout).nets)
      .standard d.components title).toOption.map (·.errorMessages) = some messages) :
    c.errors =
      (Naming.ofOrdered d (Graph.ofPlacement d.layout).nets).errorMessages ++ messages := by
  rw [Compilation.errors, compiles.naming_eq ordered, compiles.map_netlist_eq ordered made]

theorem exists_name {n : Net Point} (member : n ∈ c.nets) :
    ∃ a, c.naming.names.get? n.id = some a ∧ a ≠ "" :=
  exists_name_of_naming compiles.nets compiles.naming member

theorem find?_pinNets (component pin : String) :
    c.pinNets.find? (.text component) (.text pin) =
      (PinNets.lastNet? c.nets component pin).bind fun n => c.naming.names.get? n.id := by
  rw [compiles.pinNets]
  exact PinNets.find?_ofNets (fun n member => compiles.exists_name member) component pin

theorem find?_of_hasPinAt (built : d.Built) {x : Component} {p : Pin} {q : Point}
    (pinned : d.HasPinAt x p q) :
    c.pinNets.find? x.id p.id =
      (PinNets.lastNet? c.nets x.id.content p.id.content).bind fun n =>
        c.naming.names.get? n.id := by
  have tidy := built.component_isTidy x pinned.listed
  obtain ⟨s, id⟩ := tidy.id
  obtain ⟨t, pinId⟩ := (tidy.pins p pinned.member).id
  rw [id, pinId]
  exact compiles.find?_pinNets s t

end CompilesTo

end Drawing

end Schematic
