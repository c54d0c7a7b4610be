import Schematic.Netlist.Basic
import Schematic.Proofs.Netlist.Elements
/-!
What a netlist owes to each of its components: lines, errors and identifiers, side by side.
-/

namespace Schematic

namespace Component

/-- What is wrong with a component, if it is a switch: its pins, or else its value. -/
def complaint? (read : SwitchReader) (c : Component) : Option ElementError :=
  match c.kind? with
  | some .switch =>
    match Roles.ofPins? c.pins with
    | none => some (.missingPins c.id)
    | some _ =>
      match read c.value with
      | .error reason => some (.badSwitch c.id reason)
      | .ok _ => none
  | _ => none

theorem complaint?_eq_some_iff {nets : PinNets} {read : SwitchReader} {c : Component}
    {r : Except ElementError (List Element)} (made : c.elements nets read = .ok r)
    {e : ElementError} : c.complaint? read = some e ↔ r = .error e := by
  have plain : ∀ {x : Except Fault (List Element)},
      (do return .ok (← x) : Except Fault (Except ElementError (List Element))) = .ok r →
      (none = some e ↔ r = .error e) := by
    intro x made
    obtain ⟨es, _, rest⟩ := Fault.bind_eq_ok.1 made
    obtain rfl := Fault.pure_eq_ok.1 rest
    exact iff_of_false nofun nofun
  unfold elements at made
  unfold complaint?
  cases kind : c.kind? with
  | none =>
      rw [kind] at made
      exact plain (x := pure []) made
  | some k =>
      rw [kind] at made
      cases k with
      | resistor | capacitor | inductor | voltageSource | currentSource => exact plain made
      | voltmeter =>
          obtain ⟨text, _, made⟩ := Fault.bind_eq_ok.1 made
          split at made
          · exact plain (x := pure []) made
          · exact plain made
      | ammeter =>
          obtain ⟨text, _, made⟩ := Fault.bind_eq_ok.1 made
          exact plain made
      | switch =>
          change c.switchElements nets read = _ at made
          unfold switchElements at made
          cases cast : Roles.ofPins? c.pins with
          | none =>
              rw [cast] at made
              obtain rfl := Fault.pure_eq_ok.1 made
              simp only [Option.some.injEq, Except.error.injEq]
          | some roles =>
              rw [cast] at made
              cases setting : read c.value with
              | error reason =>
                  simp only [setting] at made
                  obtain rfl := Fault.pure_eq_ok.1 made
                  simp only [Option.some.injEq, Except.error.injEq]
              | ok s =>
                  simp only [setting, Fault.bind_eq_ok, Fault.pure_eq_ok] at made
                  obtain ⟨_, _, _, _, _, _, rfl⟩ := made
                  simp only [reduceCtorEq]
      | _ => exact plain (x := pure []) made

end Component

namespace Allocator

theorem length_allocateAll (a : Allocator) (vs : List Value) :
    (a.allocateAll vs).1.length = vs.length := by
  induction vs generalizing a with
  | nil => rfl
  | cons v vs ih => exact congrArg (· + 1) (ih (a.allocate v).2)

theorem allocateAll_append (a : Allocator) (vs ws : List Value) :
    a.allocateAll (vs ++ ws) =
      ((a.allocateAll vs).1 ++ ((a.allocateAll vs).2.allocateAll ws).1,
        ((a.allocateAll vs).2.allocateAll ws).2) := by
  induction vs generalizing a with
  | nil => rfl
  | cons v vs ih =>
      change ((a.allocate v).1 :: ((a.allocate v).2.allocateAll (vs ++ ws)).1,
        ((a.allocate v).2.allocateAll (vs ++ ws)).2) = _
      rw [ih]
      rfl

end Allocator

namespace Netlist

def Line.ofElement (c : Component) (e : Element) (id : String) : Line :=
  .element c.id c.tag { e with id }

/-- The first element of a component, with the identifier that it gets. -/
def primary? (c : Component) (es : List Element) (ids : List String) : Option Primary :=
  (es.zip ids).head?.map fun x => ⟨c.tag, { x.1 with id := x.2 }⟩

theorem foldl_addElement (n : Netlist) (c : Component) (es : List Element) :
    (es.foldl (fun n e => n.addElement c false e) n).lines =
        n.lines ++ List.zipWith (Line.ofElement c) es
          (n.ids.allocateAll (es.map fun e => .text e.id)).1 ∧
      (es.foldl (fun n e => n.addElement c false e) n).ids =
        (n.ids.allocateAll (es.map fun e => .text e.id)).2 ∧
      (es.foldl (fun n e => n.addElement c false e) n).errors = n.errors ∧
      (es.foldl (fun n e => n.addElement c false e) n).primaries = n.primaries := by
  induction es generalizing n with
  | nil => exact ⟨(List.append_nil _).symm, rfl, rfl, rfl⟩
  | cons e es ih =>
      obtain ⟨lines, ids, errors, primaries⟩ := ih (n.addElement c false e)
      rw [List.foldl_cons, lines, ids, errors, primaries]
      refine ⟨?_, rfl, rfl, rfl⟩
      change (n.lines ++ [_]) ++ _ = _
      rw [List.append_assoc]
      rfl

theorem lines_addElements (n : Netlist) (c : Component) (es : List Element) :
    (n.addElements c es).lines = n.lines ++ List.zipWith (Line.ofElement c) es
        (n.ids.allocateAll (es.map fun e => .text e.id)).1 ∧
      (n.addElements c es).ids = (n.ids.allocateAll (es.map fun e => .text e.id)).2 ∧
      (n.addElements c es).errors = n.errors ∧
      (n.addElements c es).primaries = ((primary? c es
        (n.ids.allocateAll (es.map fun e => .text e.id)).1).map (c.id, ·)).toList.foldl
          (fun es e => Entries.put es e.1 e.2) n.primaries := by
  cases es with
  | nil => exact ⟨(List.append_nil _).symm, rfl, rfl, rfl⟩
  | cons e es =>
      obtain ⟨lines, ids, errors, primaries⟩ := foldl_addElement (n.addElement c true e) c es
      refine ⟨?_, ids, errors, primaries⟩
      change (es.foldl (fun n e => n.addElement c false e) (n.addElement c true e)).lines = _
      rw [lines]
      change (n.lines ++ [_]) ++ _ = _
      rw [List.append_assoc]
      rfl

theorem addComponent_eq_ok {nets : PinNets} {read : SwitchReader} {n n' : Netlist}
    {c : Component} :
    n.addComponent nets read c = .ok n' ↔ ∃ r, c.elements nets read = .ok r ∧
      n' = match r with
        | .ok es => n.addElements c es
        | .error e => { n with errors := n.errors ++ [e] } := by
  unfold addComponent
  rw [Fault.bind_eq_ok]
  refine exists_congr fun r => and_congr_right fun _ => ?_
  cases r with
  | error e => exact Fault.pure_eq_ok.trans eq_comm
  | ok es => exact Fault.pure_eq_ok.trans eq_comm

/-- The share of a component in a netlist. Elements and identifiers belong together in order. -/
structure Share where
  component : Component
  result : Except ElementError (List Element)
  ids : List String

namespace Share

def elements (s : Share) : List Element :=
  match s.result with
  | .ok es => es
  | .error _ => []

def errors (s : Share) : List ElementError :=
  match s.result with
  | .ok _ => []
  | .error e => [e]

def wanted (s : Share) : List Value :=
  s.elements.map fun e => .text e.id

def primary? (s : Share) : Option Primary :=
  Netlist.primary? s.component s.elements s.ids

def lines (s : Share) : List Line :=
  List.zipWith (Line.ofElement s.component) s.elements s.ids

theorem mem_elements_iff {s : Share} {e : Element} :
    e ∈ s.elements ↔ ∃ es, s.result = .ok es ∧ e ∈ es := by
  unfold elements
  cases s.result with
  | ok es => simp
  | error => simp

theorem mem_lines_iff {s : Share} {line : Line} :
    line ∈ s.lines ↔
      ∃ e id, (e, id) ∈ s.elements.zip s.ids ∧ line = .ofElement s.component e id := by
  rw [lines, ← List.map_uncurry_zip_eq_zipWith, List.mem_map]
  constructor
  · rintro ⟨⟨e, id⟩, paired, rfl⟩
    exact ⟨e, id, paired, rfl⟩
  · rintro ⟨e, id, paired, rfl⟩
    exact ⟨(e, id), paired, rfl⟩

theorem errors_eq {s : Share} {nets : PinNets} {read : SwitchReader}
    (made : s.component.elements nets read = .ok s.result) :
    s.errors = (s.component.complaint? read).toList := by
  have complaint := @Component.complaint?_eq_some_iff nets read s.component s.result made
  unfold errors
  cases result : s.result with
  | error e => rw [complaint.2 result]; rfl
  | ok es =>
      have none : s.component.complaint? read = none :=
        Option.eq_none_iff_forall_ne_some.2 fun e found => by
          rw [complaint.1 found] at result
          cases result
      rw [none]
      rfl

end Share

/-- Whether components, in their order, make one netlist out of another by their shares. -/
structure GrowsBy (nets : PinNets) (read : SwitchReader) (n n' : Netlist)
    (components : List Component) (shares : List Share) : Prop where
  components : shares.map (·.component) = components
  results : ∀ s ∈ shares, s.component.elements nets read = .ok s.result
  allocated : ∀ s ∈ shares, ∃ a : Allocator, (a.allocateAll s.wanted).1 = s.ids
  lines : n'.lines = n.lines ++ shares.flatMap (·.lines)
  errors : n'.errors = n.errors ++ shares.flatMap (·.errors)
  primaries : n'.primaries = (shares.filterMap fun s => s.primary?.map (s.component.id, ·)).foldl
    (fun es e => Entries.put es e.1 e.2) n.primaries
  ids : n.ids.allocateAll (shares.flatMap (·.wanted)) = (shares.flatMap (·.ids), n'.ids)

variable {nets : PinNets} {read : SwitchReader} {title : String} {n n' : Netlist} {c : Component}
  {components : List Component}

theorem growsBy_nil (n : Netlist) : GrowsBy nets read n n [] [] where
  components := rfl
  results := nofun
  allocated := nofun
  lines := (List.append_nil _).symm
  errors := (List.append_nil _).symm
  primaries := rfl
  ids := rfl

theorem exists_growsBy_of_addComponent (added : n.addComponent nets read c = .ok n') :
    ∃ s, GrowsBy nets read n n' [c] [s] := by
  obtain ⟨r, made, rfl⟩ := addComponent_eq_ok.1 added
  cases r with
  | error e =>
      exact ⟨⟨c, .error e, []⟩, rfl, List.forall_mem_singleton.2 made,
        List.forall_mem_singleton.2 ⟨.empty, rfl⟩, (List.append_nil _).symm, rfl, rfl, rfl⟩
  | ok es =>
      obtain ⟨lines, ids, errors, primaries⟩ := lines_addElements n c es
      let share : Share := ⟨c, .ok es, (n.ids.allocateAll (es.map fun e => .text e.id)).1⟩
      refine ⟨share, rfl, List.forall_mem_singleton.2 made,
        List.forall_mem_singleton.2 ⟨n.ids, rfl⟩, ?_, ?_, ?_, ?_⟩
      · rw [List.flatMap_singleton]
        exact lines
      · rw [List.flatMap_singleton]
        exact errors.trans (List.append_nil _).symm
      · rw [List.filterMap_eq_flatMap_toList, List.flatMap_singleton]
        exact primaries
      · rw [List.flatMap_singleton, List.flatMap_singleton, ids]
        rfl

theorem GrowsBy.append {m : Netlist} {components' : List Component} {shares shares' : List Share}
    (first : GrowsBy nets read n m components shares)
    (second : GrowsBy nets read m n' components' shares') :
    GrowsBy nets read n n' (components ++ components') (shares ++ shares') where
  components := by rw [List.map_append, first.components, second.components]
  results := List.forall_mem_append.2 ⟨first.results, second.results⟩
  allocated := List.forall_mem_append.2 ⟨first.allocated, second.allocated⟩
  lines := by rw [second.lines, first.lines, List.append_assoc, List.flatMap_append]
  errors := by rw [second.errors, first.errors, List.append_assoc, List.flatMap_append]
  primaries := by
    rw [second.primaries, first.primaries, List.filterMap_append, List.foldl_append]
  ids := by
    rw [List.flatMap_append, List.flatMap_append, Allocator.allocateAll_append, first.ids,
      second.ids]

theorem GrowsBy.length_ids {shares : List Share} (grows : GrowsBy nets read n n' components shares)
    {s : Share} (member : s ∈ shares) : s.ids.length = s.elements.length := by
  obtain ⟨a, handed⟩ := grows.allocated s member
  rw [← handed, Allocator.length_allocateAll]
  exact List.length_map _

theorem exists_growsBy_of_foldlM (added : components.foldlM (addComponent nets read) n = .ok n') :
    ∃ shares, GrowsBy nets read n n' components shares := by
  induction components generalizing n with
  | nil =>
      obtain rfl := Fault.pure_eq_ok.1 added
      exact ⟨[], growsBy_nil n⟩
  | cons c components ih =>
      rw [List.foldlM_cons, Fault.bind_eq_ok] at added
      obtain ⟨m, first, rest⟩ := added
      obtain ⟨s, here⟩ := exists_growsBy_of_addComponent first
      obtain ⟨shares, later⟩ := ih rest
      exact ⟨s :: shares, here.append later⟩

def upTo (nets : PinNets) (read : SwitchReader) (title : String)
    (before : List Component) : Except Fault Netlist :=
  before.foldlM (addComponent nets read) (empty.push (header title))

theorem ofComponents_eq_ok :
    ofComponents nets read components title = .ok n ↔
      ∃ m, upTo nets read title components = .ok m ∧ m.push footer = n := by
  rw [ofComponents, extend, Fault.bind_eq_ok]
  simp only [Fault.pure_eq_ok]
  rfl

/-- The netlist of components is a header, their shares in their order, and an end line. -/
theorem exists_growsBy_of_ofComponents
    (made : ofComponents nets read components title = .ok n) :
    ∃ m shares, GrowsBy nets read (empty.push (header title)) m components shares ∧
      n = m.push footer := by
  obtain ⟨m, all, rfl⟩ := ofComponents_eq_ok.1 made
  obtain ⟨shares, grows⟩ := exists_growsBy_of_foldlM all
  exact ⟨m, shares, grows, rfl⟩

/-- The errors of a netlist are those of the components alone, whatever the nets are. -/
theorem errors_of_ofComponents (made : ofComponents nets read components title = .ok n) :
    n.errors = components.filterMap (Component.complaint? read) := by
  obtain ⟨m, shares, grows, rfl⟩ := exists_growsBy_of_ofComponents made
  have each : ∀ s ∈ shares, s.errors = (s.component.complaint? read).toList :=
    fun s member => Share.errors_eq (grows.results s member)
  have all : m.errors = [] ++ shares.flatMap (·.errors) := grows.errors
  have pushed : (m.push footer).errors = m.errors := rfl
  rw [pushed, all, List.nil_append, List.flatMap_congr each, ← grows.components,
    List.filterMap_map, List.filterMap_eq_flatMap_toList]
  simp only [Function.comp_apply]

end Netlist

end Schematic
