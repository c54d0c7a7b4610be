import Schematic.Proofs.Netlist.Identifiers
/-!
The lines of a netlist, component by component.
-/

namespace Schematic

namespace Netlist

/-- A line of an element, under an identifier that begins with the one that the element asks for. -/
def Line.Shows (line : Line) (c : Component) (e : Element) : Prop :=
  ∃ id, line = .ofElement c e id ∧ Allocator.Answers (.text e.id) id

/-- The lines that a component adds behind those of the components before it. -/
def Adds (nets : PinNets) (read : SwitchReader) (title : String) (before : List Component)
    (c : Component) (block : List Line) : Prop :=
  ∃ n n', upTo nets read title before = .ok n ∧ n.addComponent nets read c = .ok n' ∧
    n'.lines = n.lines ++ block

variable {nets : PinNets} {read : SwitchReader} {title : String} {n n' : Netlist}
  {components : List Component}

theorem GrowsBy.exists_shows {shares : List Share}
    (grows : GrowsBy nets read n n' components shares) {line : Line} (member : line ∈ shares.flatMap (·.lines)) :
    ∃ c ∈ components, ∃ es, c.elements nets read = .ok (.ok es) ∧ ∃ e ∈ es, line.Shows c e := by
  obtain ⟨s, inShares, inLines⟩ := List.mem_flatMap.1 member
  obtain ⟨e, id, paired, rfl⟩ := Share.mem_lines_iff.1 inLines
  obtain ⟨es, result, inEs⟩ := Share.mem_elements_iff.1 (List.of_mem_zip paired).1
  have made := grows.results s inShares
  rw [result] at made
  have listed : s.component ∈ components := by
    rw [← grows.components]
    exact List.mem_map_of_mem inShares
  exact ⟨s.component, listed, es, made, e, inEs, id, rfl, grows.answers inShares paired⟩

theorem exists_adds {before after : List Component} {c : Component}
    (made : ofComponents nets read (before ++ c :: after) title = .ok n) :
    ∃ pre block post, Adds nets read title before c block ∧ n.lines = pre ++ block ++ post := by
  obtain ⟨m, all, rfl⟩ := ofComponents_eq_ok.1 made
  rw [upTo, List.foldlM_append, Fault.bind_eq_ok] at all
  obtain ⟨m₁, first, all⟩ := all
  rw [List.foldlM_cons, Fault.bind_eq_ok] at all
  obtain ⟨m₂, here, rest⟩ := all
  obtain ⟨s, one⟩ := exists_growsBy_of_addComponent here
  obtain ⟨shares, later⟩ := exists_growsBy_of_foldlM rest
  refine ⟨m₁.lines, _, shares.flatMap (·.lines) ++ [footer], ⟨m₁, m₂, first, here, one.lines⟩, ?_⟩
  rw [lines_push, later.lines, one.lines, List.append_assoc _ (shares.flatMap _)]

theorem Adds.eq_singleton {before : List Component} {c : Component} {block : List Line}
    (adds : Adds nets read title before c block) {e : Element}
    (made : c.elements nets read = .ok (.ok [e])) : ∃ id, block = [.ofElement c e id] := by
  obtain ⟨n, n', _, added, lines⟩ := adds
  obtain ⟨s, one⟩ := exists_growsBy_of_addComponent added
  have here := List.mem_singleton_self s
  obtain rfl : s.component = c := List.singleton_inj.1 one.components
  have elements : s.elements = [e] := by
    rw [Share.elements, Except.ok.inj ((one.results s here).symm.trans made)]
  obtain ⟨id, ids⟩ := List.length_eq_one_iff.1 ((one.length_ids here).trans (by rw [elements]; rfl))
  refine ⟨id, (List.append_cancel_left (lines.symm.trans one.lines)).trans ?_⟩
  rw [List.flatMap_singleton, Share.lines, elements, ids]
  rfl

theorem shows_of_mem_lines (made : ofComponents nets read components title = .ok n) {line : Line}
    (member : line ∈ n.lines) :
    line = header title ∨ line = footer ∨ ∃ c ∈ components, ∃ es,
      c.elements nets read = .ok (.ok es) ∧ ∃ e ∈ es, line.Shows c e := by
  obtain ⟨m, all, rfl⟩ := ofComponents_eq_ok.1 made
  obtain ⟨shares, grows⟩ := exists_growsBy_of_foldlM all
  rw [lines_push, grows.lines] at member
  rcases List.mem_append.1 member with inner | last
  · rcases List.mem_append.1 inner with first | later
    · exact .inl (List.mem_singleton.1 first)
    · exact .inr (.inr (grows.exists_shows later))
  · exact .inr (.inl (List.mem_singleton.1 last))

theorem exists_ofComponents
    (each : ∀ c ∈ components, ∃ r, c.elements nets read = .ok r) :
    ∃ n, ofComponents nets read components title = .ok n := by
  have step : ∀ n : Netlist, ∀ c ∈ components, ∃ n', n.addComponent nets read c = .ok n' := by
    intro n c member
    obtain ⟨r, made⟩ := each c member
    exact ⟨_, addComponent_eq_ok.2 ⟨r, made, rfl⟩⟩
  obtain ⟨m, all⟩ := Fault.exists_foldlM step (empty.push (header title))
  exact ⟨_, ofComponents_eq_ok.2 ⟨m, all, rfl⟩⟩

end Netlist

end Schematic
