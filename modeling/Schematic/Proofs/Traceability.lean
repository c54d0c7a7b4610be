import Schematic.Proofs.Faithfulness
import Schematic.Proofs.Netlist.Emission
import Schematic.Proofs.Netlist.Identifiers
/-!
Every component has its place in a netlist: the lines that its kind, pins and value call for, at
their numbers, under identifiers of their own.
-/

namespace Schematic

namespace Netlist

def Line.identifier? : Line → Option String
  | directive _ => none
  | element _ _ e => some e.id

theorem getElem?_lineMap (n : Netlist) (i : Nat) :
    n.lineMap[i]? = n.lines[i]?.map fun line => (i + 1, line) := by
  rw [n.numbered, List.getElem?_mapIdx]

theorem map_lineMap {α : Type} (n : Netlist) (f : Line → Option α) :
    (n.lineMap.filterMap fun l => f l.2) = n.lines.filterMap f := by
  rw [n.numbered, List.mapIdx_eq_zipIdx_map, List.filterMap_map]
  conv_rhs => rw [← List.zipIdx_map_fst 0 n.lines, List.filterMap_map]
  rfl

theorem Line.text_ofElement (c : Component) (e : Element) (id : String) :
    (Line.ofElement c e id).text = " ".intercalate [id, e.netA, e.netB, e.value] :=
  rfl

/-- Of the shares of one id, the last that has elements is the one that counts. -/
theorem get?_foldl_primary (shares : List Share) (id : String) :
    ((shares.filterMap fun s => s.primary?.map (s.component.id, ·)).foldl
        (fun es e => Entries.put es e.1 e.2) []).get? (Value.text id) =
      shares.reverse.findSome? fun s =>
        if s.component.id == Value.text id then s.primary? else none := by
  induction shares using List.reverseRecOn with
  | nil => rfl
  | append_singleton shares s ih =>
      rw [List.filterMap_append, List.foldl_append, List.reverse_append, List.reverse_singleton,
        List.singleton_append, List.findSome?_cons, ← ih]
      cases first : s.primary? with
      | none => simp [first]
      | some p =>
          rw [List.filterMap_cons, first, Option.map_some]
          refine (Entries.get?_put (Value.isExact_text id) _ _ _).trans ?_
          split
          next => rfl
          next => rfl

theorem Share.filterMap_identifier? {s : Share} (complete : s.ids.length = s.elements.length) :
    s.lines.filterMap Line.identifier? = s.ids := by
  rw [lines, ← List.map_uncurry_zip_eq_zipWith, List.filterMap_map]
  change (s.elements.zip s.ids).filterMap (some ∘ Prod.snd) = _
  rw [List.filterMap_eq_map, List.map_snd_zip complete.le]

end Netlist

theorem Kind.isLetter_of_elementLetter? {k : Kind} {valued : Bool} {letter : String}
    (found : k.elementLetter? valued = some letter) : IsLetter letter := by
  have letters : letter ∈ ["R", "C", "L", "V", "I"] := by
    cases k <;> cases valued <;> cases found <;> decide
  have all : ∀ letter ∈ ["R", "C", "L", "V", "I"], Text.trim letter = letter ∧ letter ≠ "" ∧
      Text.upperChars letter.toList = letter.toList := by
    decide
  obtain ⟨trimmed, given, upper⟩ := all letter letters
  exact ⟨⟨trimmed, given⟩, upper⟩

theorem Component.HasLetter.isLetter {x : Component} {letter : String} (has : x.HasLetter letter) :
    IsLetter letter := by
  obtain ⟨k, stored, _, _, found⟩ := has
  exact Kind.isLetter_of_elementLetter? found

namespace Drawing

variable {d : Drawing} {title : String} {c : Compilation}

theorem CompilesTo.isNetted (compiles : d.CompilesTo title c) (built : d.Built) {x : Component}
    (listed : x ∈ d.components) (electrical : x.isElectrical = true) : x.IsNetted c.pinNets := by
  intro p member
  obtain ⟨q, pinned⟩ := built.exists_hasPinAt compiles.isPlaced listed electrical member
  obtain ⟨name, _, found⟩ := compiles.exists_find?_pinNets built pinned
  exact ⟨name, found⟩

/-- Whether a netlist is made of a header, what each component emits, in order, and an end line. An id
is known by the first element of the last component of that id that has any. -/
structure CompilesBy (d : Drawing) (title : String) (c : Compilation)
    (shares : List Netlist.Share) : Prop where
  components : shares.map (·.component) = d.components
  emits : ∀ s ∈ shares, s.component.Emits c.pinNets s.result
  complete : ∀ s ∈ shares, s.ids.length = s.elements.length
  lines : c.netlist.lines = Netlist.header title :: shares.flatMap (·.lines) ++ [Netlist.footer]
  primaries : ∀ id, c.netlist.primaries.get? (.text id) = shares.reverse.findSome? fun s =>
    if s.component.id == .text id then s.primary? else none
  errors : c.netlist.errors = shares.flatMap (·.errors)

theorem CompilesBy.filterMap_identifier? {shares : List Netlist.Share}
    (compiles : d.CompilesBy title c shares) :
    c.netlist.lines.filterMap Netlist.Line.identifier? = shares.flatMap (·.ids) := by
  have ids : (shares.flatMap (·.lines)).filterMap Netlist.Line.identifier? =
      shares.flatMap (·.ids) := by
    rw [List.filterMap_flatMap]
    exact List.flatMap_congr fun s member =>
      Netlist.Share.filterMap_identifier? (compiles.complete s member)
  rw [compiles.lines, List.filterMap_append, List.filterMap_cons]
  change (shares.flatMap (·.lines)).filterMap Netlist.Line.identifier? ++ [] = _
  rw [List.append_nil, ids]

theorem CompilesBy.exists_share {shares : List Netlist.Share}
    (compiles : d.CompilesBy title c shares) {k : Nat} {id : Value} {type : String} {e : Element}
    (mapped : (k, .element id type e) ∈ c.netlist.lineMap) :
    ∃ s ∈ shares, .element id type e ∈ s.lines := by
  rw [c.netlist.numbered] at mapped
  obtain ⟨i, below, same⟩ := List.mem_mapIdx.1 mapped
  have member := List.getElem_mem below
  rw [(Prod.mk.inj same).2, compiles.lines] at member
  rcases List.mem_append.1 member with front | last
  · rcases List.mem_cons.1 front with first | inner
    · cases first
    · exact List.mem_flatMap.1 inner
  · cases List.mem_singleton.1 last

theorem CompilesTo.exists_growsBy (compiles : d.CompilesTo title c) (built : d.Built) :
    ∃ m shares, Netlist.GrowsBy c.pinNets .standard (Netlist.empty.push (Netlist.header title)) m
      d.components shares ∧ d.CompilesBy title c shares := by
  obtain ⟨m, shares, grows, whole⟩ := Netlist.exists_growsBy_of_ofComponents compiles.netlist
  refine ⟨m, shares, grows, grows.components, fun s member => ?_, fun s => grows.length_ids,
    ?_, fun id => ?_, ?_⟩
  · have listed : s.component ∈ d.components := by
      rw [← grows.components]
      exact List.mem_map_of_mem member
    obtain ⟨r, made, emits⟩ := (built.component_isTidy _ listed).exists_emits
      (compiles.isNetted built listed)
    obtain rfl := Except.ok.inj ((grows.results s member).symm.trans made)
    exact emits
  · rw [whole, Netlist.lines_push, grows.lines]
    rfl
  · rw [whole, ← Netlist.get?_foldl_primary]
    exact congrArg (·.get? (Value.text id)) grows.primaries
  · rw [whole]
    exact grows.errors

/-- Compiling an edited drawing gives the lines of its components in order, each at its number and
with the text of what it stands for; nothing is left out. -/
theorem compile_emits_every_component (built : d.Built) (title : String) :
    ∃ c shares, d.compile title = .ok c ∧ d.CompilesBy title c shares ∧
      (∀ i, c.netlist.lineMap[i]? = c.netlist.lines[i]?.map fun line => (i + 1, line)) ∧
      ∀ s ∈ shares, ∀ line ∈ s.lines, ∃ e, line = .element s.component.id s.component.tag e ∧
        line.text = " ".intercalate [e.id, e.netA, e.netB, e.value] := by
  obtain ⟨c, compiled⟩ := built.exists_compile built.isPlaced title
  obtain ⟨m, shares, grows, compiles⟩ := (compilesTo_of_compile compiled).exists_growsBy built
  refine ⟨c, shares, compiled, compiles, c.netlist.getElem?_lineMap, fun s member line inS => ?_⟩
  obtain ⟨e, id, paired, rfl⟩ := Netlist.Share.mem_lines_iff.1 inS
  exact ⟨{ e with id }, rfl, Netlist.Line.text_ofElement s.component e id⟩

theorem compile_emits_every_component_labelledSwitch :
    labelledSwitch.Built ∧ ∃ c shares, labelledSwitch.compile "" = .ok c ∧
      labelledSwitch.CompilesBy "" c shares ∧
      (∀ i, c.netlist.lineMap[i]? = c.netlist.lines[i]?.map fun line => (i + 1, line)) ∧
      ∀ s ∈ shares, ∀ line ∈ s.lines, ∃ e, line = .element s.component.id s.component.tag e ∧
        line.text = " ".intercalate [e.id, e.netA, e.netB, e.value] :=
  ⟨built_labelledSwitch, compile_emits_every_component built_labelledSwitch ""⟩

/-- The identifiers in a netlist differ even when blanks and case are disregarded, and each begins
with the letter of what is emitted. -/
theorem compile_keeps_identifiers_apart (built : d.Built) (title : String) :
    ∃ c shares, d.compile title = .ok c ∧ d.CompilesBy title c shares ∧
      ((c.netlist.lineMap.filterMap fun l => l.2.identifier?).map identifierKey).Nodup ∧
      ∀ s ∈ shares, ∀ line ∈ s.lines, ∃ e letter,
        line = .element s.component.id s.component.tag e ∧ identifierKey e.id ≠ "" ∧
          s.component.HasLetter letter ∧ letter.toList <+: (Text.upper e.id).toList := by
  obtain ⟨c, compiled⟩ := built.exists_compile built.isPlaced title
  obtain ⟨m, shares, grows, compiles⟩ := (compilesTo_of_compile compiled).exists_growsBy built
  refine ⟨c, shares, compiled, compiles, ?_, fun s member line inS => ?_⟩
  · have handed : (Allocator.empty.allocateAll (shares.flatMap (·.wanted))).1 =
        shares.flatMap (·.ids) :=
      congrArg Prod.fst grows.ids
    rw [Netlist.map_lineMap, compiles.filterMap_identifier?, ← handed]
    exact Allocator.nodup_allocateAll_empty _
  · obtain ⟨e, id, paired, rfl⟩ := Netlist.Share.mem_lines_iff.1 inS
    have listed : s.component ∈ d.components := by
      rw [← compiles.components]
      exact List.mem_map_of_mem member
    obtain ⟨es, result, inEs⟩ := Netlist.Share.mem_elements_iff.1 (List.of_mem_zip paired).1
    have emits := compiles.emits s member
    rw [result] at emits
    obtain ⟨letter, v, hasLetter, asked⟩ :=
      emits.exists_lettered (built.component_isTidy _ listed) inEs
    have isLetter := hasLetter.isLetter
    have answers := grows.answers member paired
    rw [asked] at answers
    exact ⟨{ e with id }, letter, rfl, isLetter.key_ne_empty_of_answers answers, hasLetter,
      isLetter.begins_of_answers answers⟩

theorem compile_keeps_identifiers_apart_twins :
    twins.Built ∧ ∃ c shares, twins.compile "" = .ok c ∧ twins.CompilesBy "" c shares ∧
      ((c.netlist.lineMap.filterMap fun l => l.2.identifier?).map identifierKey).Nodup ∧
      ∀ s ∈ shares, ∀ line ∈ s.lines, ∃ e letter,
        line = .element s.component.id s.component.tag e ∧ identifierKey e.id ≠ "" ∧
          s.component.HasLetter letter ∧ letter.toList <+: (Text.upper e.id).toList :=
  ⟨built_twins, compile_keeps_identifiers_apart built_twins ""⟩

end Drawing

end Schematic
