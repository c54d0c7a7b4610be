import Schematic.Proofs.Colouring.Groups
import Schematic.Proofs.DistinctIds
import Schematic.Proofs.Naming.Resolution
/-!
What colouring and naming make of two nets with a label in common: they are in one group, and they
have one name unless ground names just one of them.
-/

namespace Schematic

namespace Drawing

variable {d : Drawing} {title : String} {c : Compilation}

/-- The name of a net that bears a label: it is `0` just when ground names it, and otherwise the text
of the first net that carries the label. -/
structure NamedBy (d : Drawing) (ordered : List (Net Point)) (n : Net Point) (k name : String) :
    Prop where
  ground : name = groundName ↔ d.grounds n = true
  label : d.grounds n = false → ∃ i, d.Introduces ordered i k name

theorem Introduces.unique {ordered : List (Net Point)} {i j : Nat} {k a b : String}
    (first : d.Introduces ordered i k a) (second : d.Introduces ordered j k b) : a = b := by
  obtain ⟨o, leads, _, rfl⟩ := Naming.introduces_iff.1 first
  obtain ⟨o', leads', _, rfl⟩ := Naming.introduces_iff.1 second
  rw [Option.some.inj (leads.symm.trans leads')]

theorem NamedBy.eq_iff {ordered : List (Net Point)} {m n : Net Point} {k a b : String}
    (namedA : d.NamedBy ordered m k a) (namedB : d.NamedBy ordered n k b) :
    a = b ↔ d.grounds m = d.grounds n := by
  constructor
  · rintro rfl
    exact Bool.eq_iff_iff.2 (namedA.ground.symm.trans namedB.ground)
  · intro same
    cases groundM : d.grounds m with
    | true => rw [namedA.ground.2 groundM, namedB.ground.2 (same ▸ groundM)]
    | false =>
        obtain ⟨i, first⟩ := namedA.label groundM
        obtain ⟨j, second⟩ := namedB.label (same ▸ groundM)
        exact first.unique second

/-- When no label is rejected, a net that bears one is named by it or by ground. -/
theorem CompilesTo.exists_namedBy (compiles : d.CompilesTo title c)
    (accepted : c.naming.errors = []) {m : Net Point} (member : m ∈ c.nets) {k : String}
    (label : ∃ l ∈ d.labels m, l.key = k) :
    ∃ a, c.naming.names.get? m.id = some a ∧ d.NamedBy (Net.sorted c.nets) m k a := by
  obtain ⟨_, a, _, named, origin⟩ := exists_origin_of_naming compiles.nets compiles.naming member
  refine ⟨a, named, ?_⟩
  cases ground : d.grounds m with
  | true => exact ⟨by simp [origin.eq_groundName ground, ground], by simp [ground]⟩
  | false =>
      obtain ⟨l, listed, rfl⟩ := label
      have agrees := error?_of_errors_eq_nil compiles.naming accepted member
      obtain ⟨o, leads, rfl⟩ :=
        origin.exists_leader (Naming.carries_of_mem_labels agrees ground listed)
      exact ⟨by simp [Naming.text_ne_groundName leads, ground],
        fun _ => ⟨o.1.2, Naming.introduces_iff.2 ⟨o, leads, rfl, rfl⟩⟩⟩

/-- Nets with a label in common are of one group in colouring. When the drawing compiles without
errors they have one name, unless exactly one of them is grounded: that one is `0`, and the label
names the other. -/
theorem common_label_joins (texts : ∀ x ∈ d.components, ∃ s, x.id = .text s)
    (distinct : (d.components.map (·.id)).Nodup) (compiled : d.compile title = .ok c)
    (noErrors : c.errors = []) {i j : Nat} {m n : Net Point} (atM : c.nets[i]? = some m)
    (atN : c.nets[j]? = some n) {x y : Component} {k : String} (given : k ≠ "")
    (bearsM : d.Bears m x k) (bearsN : d.Bears n y k) :
    (Colouring.groups d c.nets).rep i = (Colouring.groups d c.nets).rep j ∧
      ∃ a b, c.naming.names.get? m.id = some a ∧ c.naming.names.get? n.id = some b ∧
        (a = b ↔ d.grounds m = d.grounds n) ∧
        d.NamedBy (Net.sorted c.nets) m k a ∧ d.NamedBy (Net.sorted c.nets) n k b := by
  have labelM := bearsM.exists_mem_labels texts distinct given
  have labelN := bearsN.exists_mem_labels texts distinct given
  constructor
  · rw [Colouring.rep_groups_eq_iff]
    exact .rel i j ⟨k, Colouring.mem_marksOf.2 ⟨m, atM, labelM⟩,
      Colouring.mem_marksOf.2 ⟨n, atN, labelN⟩⟩
  · have compiles := compilesTo_of_compile compiled
    have accepted := Compilation.naming_errors_eq_nil noErrors
    obtain ⟨a, nameM, namedM⟩ :=
      compiles.exists_namedBy accepted (List.mem_of_getElem? atM) labelM
    obtain ⟨b, nameN, namedN⟩ :=
      compiles.exists_namedBy accepted (List.mem_of_getElem? atN) labelN
    exact ⟨a, b, nameM, nameN, namedM.eq_iff namedN, namedM, namedN⟩

def busNode (id : String) (x : Nat) : Part :=
  ⟨id, "NET", "", [("1", ⟨.lit x 0, .lit 0 0⟩)]⟩

/-- A resistor with the label `bus` at both ends, one of them grounded, and a third net of that
label. -/
def groundedBus : Drawing :=
  .ofParts [
      ⟨"R1", "R", "1k", [("1", ⟨.lit 0 0, .lit 0 0⟩), ("2", ⟨.lit 20 0, .lit 0 0⟩)]⟩,
      ⟨"G1", "GND", "", [("0", ⟨.lit 0 0, .lit 0 0⟩)]⟩,
      busNode "bus" 0, busNode "Bus" 20, busNode "BUS" 40] []

theorem built_groundedBus : groundedBus.Built :=
  built_ofParts (by decide +kernel) (by decide)

theorem distinct_groundedBus : (groundedBus.components.map (·.id)).Nodup := by
  simp [groundedBus, busNode, ofParts, Part.component]

theorem bears_bus {n : Net Point} {id : String} {x : Nat}
    (listed : (busNode id x).component ∈ groundedBus.components)
    (key : labelKey (busNode id x).component.label = "bus")
    (lists : id ∈ n.terminals.map (·.component)) :
    groundedBus.Bears n (busNode id x).component "bus" := by
  have kind : Kind.ofValue? (.text "NET") = some .net := by decide +kernel
  obtain ⟨t, inN, ofNode⟩ := List.mem_map.1 lists
  exact ⟨listed, kind, key, t, inN, ofNode⟩

theorem compilesTo_groundedBus {c : Compilation} (compiles : groundedBus.CompilesTo "" c) :
    c.errors = [] ∧ ∃ l m n,
      c.nets[0]? = some l ∧ c.nets[1]? = some m ∧ c.nets[2]? = some n ∧
      groundedBus.Bears l (busNode "bus" 0).component "bus" ∧
      groundedBus.Bears m (busNode "Bus" 20).component "bus" ∧
      groundedBus.Bears n (busNode "BUS" 40).component "bus" ∧
      c.naming.names.get? l.id = some "0" ∧ c.naming.names.get? m.id = some "Bus" := by
  have ordered : (Graph.ofPlacement groundedBus.layout).nets.Pairwise
      fun a b => (a.anchor .origin).le (b.anchor .origin) = true := by
    decide +kernel
  have messages : (Netlist.ofComponents
      (.ofNets (Naming.ofOrdered groundedBus (Graph.ofPlacement groundedBus.layout).nets).names
        (Graph.ofPlacement groundedBus.layout).nets)
      .standard groundedBus.components "").toOption.map (·.errorMessages) = some [] := by
    decide +kernel
  have noErrors : c.errors = [] := by
    rw [compiles.errors_eq ordered messages]
    decide +kernel
  have names : c.naming.names = [("N1", "0"), ("N2", "Bus"), ("N3", "Bus")] := by
    rw [compiles.naming_eq ordered]
    decide +kernel
  have rows : c.nets.map (fun n => (n.id, n.terminals.map (·.component))) =
      [("N1", ["R1", "G1", "bus"]), ("N2", ["R1", "Bus"]), ("N3", ["BUS"])] := by
    rw [compiles.nets_eq]
    decide +kernel
  obtain ⟨l, rest, nets, rowL, rows⟩ := List.map_eq_cons_iff.1 rows
  obtain ⟨m, rest, rfl, rowM, rows⟩ := List.map_eq_cons_iff.1 rows
  obtain ⟨n, rest, rfl, rowN, _⟩ := List.map_eq_cons_iff.1 rows
  obtain ⟨idL, listsL⟩ := Prod.mk.inj rowL
  obtain ⟨idM, listsM⟩ := Prod.mk.inj rowM
  obtain ⟨_, listsN⟩ := Prod.mk.inj rowN
  rw [nets, names]
  refine ⟨noErrors, l, m, n, rfl, rfl, rfl, bears_bus ?_ (by decide +kernel) ?_,
    bears_bus ?_ (by decide +kernel) ?_, bears_bus ?_ (by decide +kernel) ?_, by rw [idL]; rfl,
    by rw [idM]; rfl⟩
  · exact List.mem_map_of_mem (by simp)
  · simp [listsL]
  · exact List.mem_map_of_mem (by simp)
  · simp [listsM]
  · exact List.mem_map_of_mem (by simp)
  · simp [listsN]

theorem common_label_joins_groundedBus :
    (∀ x ∈ groundedBus.components, ∃ s, x.id = .text s) ∧
      (groundedBus.components.map (·.id)).Nodup ∧
      ∃ c m n, groundedBus.compile "" = .ok c ∧ c.errors = [] ∧ c.nets[1]? = some m ∧
        c.nets[2]? = some n ∧ groundedBus.Bears m (busNode "Bus" 20).component "bus" ∧
        groundedBus.Bears n (busNode "BUS" 40).component "bus" ∧
        (Colouring.groups groundedBus c.nets).rep 1 = (Colouring.groups groundedBus c.nets).rep 2 ∧
        ∃ a b, c.naming.names.get? m.id = some a ∧ c.naming.names.get? n.id = some b ∧
          (a = b ↔ groundedBus.grounds m = groundedBus.grounds n) ∧
          groundedBus.NamedBy (Net.sorted c.nets) m "bus" a ∧
          groundedBus.NamedBy (Net.sorted c.nets) n "bus" b := by
  refine ⟨built_groundedBus.id_isText, distinct_groundedBus, ?_⟩
  obtain ⟨c, compiled⟩ := built_groundedBus.exists_compile built_groundedBus.isPlaced ""
  obtain ⟨noErrors, _, m, n, _, atM, atN, _, bearsM, bearsN, _⟩ :=
    compilesTo_groundedBus (compilesTo_of_compile compiled)
  exact ⟨c, m, n, compiled, noErrors, atM, atN, bearsM, bearsN,
    common_label_joins built_groundedBus.id_isText distinct_groundedBus compiled noErrors atM atN
      (by decide) bearsM bearsN⟩

/-- A grounded net does not share its name with the other nets of its label. -/
theorem common_label_of_grounded_net :
    groundedBus.Built ∧ (groundedBus.components.map (·.id)).Nodup ∧
      ∃ c m n x y, groundedBus.compile "" = .ok c ∧ c.errors = [] ∧ m ∈ c.nets ∧ n ∈ c.nets ∧
        groundedBus.Bears m x "bus" ∧ groundedBus.Bears n y "bus" ∧
        c.naming.names.get? m.id = some "0" ∧ c.naming.names.get? n.id = some "Bus" := by
  refine ⟨built_groundedBus, distinct_groundedBus, ?_⟩
  obtain ⟨c, compiled⟩ := built_groundedBus.exists_compile built_groundedBus.isPlaced ""
  obtain ⟨noErrors, l, m, _, atL, atM, _, bearsL, bearsM, _, nameL, nameM⟩ :=
    compilesTo_groundedBus (compilesTo_of_compile compiled)
  exact ⟨c, l, m, _, _, compiled, noErrors, List.mem_of_getElem? atL, List.mem_of_getElem? atM,
    bearsL, bearsM, nameL, nameM⟩

end Drawing

end Schematic
