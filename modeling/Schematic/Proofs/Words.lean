import Schematic.Proofs.Netlist.Blanks
/-!
What a reader of a netlist sees that divides its lines at blanks: the identifier and the nets that a
line stands for, unless the id of its component or the label of a named node is no word.
-/

namespace Schematic

theorem Element.prefix_words_text_iff {e : Element}
    (given : e.id ≠ "" ∧ e.netA ≠ "" ∧ e.netB ≠ "") :
    [e.id, e.netA, e.netB] <+: Text.words e.text ↔
      Text.IsUnbroken e.id ∧ Text.IsUnbroken e.netA ∧ Text.IsUnbroken e.netB := by
  have whole : e.text = e.id ++ " " ++ (e.netA ++ " " ++ (e.netB ++ " " ++ e.value)) := by
    simp only [text, String.append_assoc]
  obtain ⟨givenId, givenA, givenB⟩ := given
  rw [whole]
  constructor
  · intro begins
    have word := fun w member => Text.isUnbroken_of_mem_words (w := w) (begins.subset member)
    exact ⟨word _ (by simp), word _ (by simp), word _ (by simp)⟩
  · rintro ⟨id, netA, netB⟩
    rw [Text.words_append_space id givenId, Text.words_append_space netA givenA,
      Text.words_append_space netB givenB]
    exact List.prefix_append [e.id, e.netA, e.netB] _

def Netlist.Line.element? : Netlist.Line → Option Element
  | directive _ => none
  | element _ _ e => some e

theorem Netlist.exists_of_mem_elements {n : Netlist} {e : Element}
    (member : e ∈ n.lineMap.filterMap fun l => l.2.element?) :
    ∃ k id type, (k, .element id type e) ∈ n.lineMap := by
  obtain ⟨⟨k, line⟩, mapped, shows⟩ := List.mem_filterMap.1 member
  cases line with
  | directive => cases shows
  | element id type e' =>
      obtain rfl := Option.some.inj shows
      exact ⟨k, id, type, mapped⟩

theorem Element.DrawsOn.words_iff {e : Element} {d : Drawing} {x : Component}
    (draws : e.DrawsOn d x) :
    [e.id, e.netA, e.netB] <+: Text.words e.text ↔
      Text.IsUnbroken (identifier x.id) ∧ Text.IsUnbroken e.netA ∧ Text.IsUnbroken e.netB := by
  rw [prefix_words_text_iff draws.given]
  refine and_congr_left fun nets => ?_
  have same : ∀ ch, Text.isBlank ch = true →
      (ch ∈ e.id.toList ↔ ch ∈ (identifier x.id).toList) :=
    fun ch blank => draws.id ch blank (nets.1.not_mem blank)
  constructor
  · intro unbroken ch member
    exact Bool.eq_false_iff.2 fun blank => unbroken.not_mem blank ((same ch blank).2 member)
  · intro unbroken ch member
    exact Bool.eq_false_iff.2 fun blank => unbroken.not_mem blank ((same ch blank).1 member)

namespace Drawing

variable {d : Drawing}

/-- Every line of a compiled drawing begins with the words that the line map gives for it, as long
as the id of its component and its nets are words; only labels make nets that are not. -/
theorem line_words_iff (built : d.Built) (title : String) :
    ∃ c, d.compile title = .ok c ∧
      ∀ k id type e, (k, Netlist.Line.element id type e) ∈ c.netlist.lineMap →
        ([e.id, e.netA, e.netB] <+: Text.words e.text ↔
          Text.IsUnbroken (identifier id) ∧ Text.IsUnbroken e.netA ∧ Text.IsUnbroken e.netB) ∧
        ∀ name ∈ [e.netA, e.netB], ¬ Text.IsUnbroken name →
          ∃ y ∈ d.components, y.kind? = some .net ∧ y.label = name := by
  obtain ⟨c, shares, compiled, parts, draws⟩ := built.exists_compile_drawsOn title
  refine ⟨c, compiled, fun k id type e mapped => ?_⟩
  obtain ⟨s, member, inS⟩ := parts.exists_share mapped
  obtain ⟨e', same, drawn⟩ := draws s member _ inS
  cases same
  exact ⟨drawn.words_iff, drawn.nets⟩

theorem line_words_iff_labelledSwitch :
    labelledSwitch.Built ∧ ∃ c, labelledSwitch.compile "" = .ok c ∧
      ∀ k id type e, (k, Netlist.Line.element id type e) ∈ c.netlist.lineMap →
        ([e.id, e.netA, e.netB] <+: Text.words e.text ↔
          Text.IsUnbroken (identifier id) ∧ Text.IsUnbroken e.netA ∧ Text.IsUnbroken e.netB) ∧
        ∀ name ∈ [e.netA, e.netB], ¬ Text.IsUnbroken name →
          ∃ y ∈ labelledSwitch.components, y.kind? = some .net ∧ y.label = name :=
  ⟨built_labelledSwitch, line_words_iff built_labelledSwitch ""⟩

def spacedResistor : Drawing :=
  .ofParts [⟨"R 1", "R", "1k", [("1", ⟨.lit 0 0, .lit 0 0⟩), ("2", ⟨.lit 20 0, .lit 0 0⟩)]⟩] []

theorem built_spacedResistor : spacedResistor.Built :=
  built_ofParts (by decide +kernel) (by decide)

theorem words_of_spacedResistor :
    spacedResistor.Built ∧ ∃ c, spacedResistor.compile "" = .ok c ∧ c.errors = [] ∧
      ∃ k id type e, (k, .element id type e) ∈ c.netlist.lineMap ∧
        e = ⟨"R 1", "N1", "N2", "1k"⟩ ∧ Text.words e.text = ["R", "1", "N1", "N2", "1k"] ∧
        ¬ [e.id, e.netA, e.netB] <+: Text.words e.text := by
  obtain ⟨c, compiled⟩ := built_spacedResistor.exists_compile built_spacedResistor.isPlaced ""
  have compiles := compilesTo_of_compile compiled
  have ordered : (Graph.ofPlacement spacedResistor.layout).nets.Pairwise
      fun a b => (a.anchor .origin).le (b.anchor .origin) = true := by
    decide +kernel
  have elements : (c.netlist.errorMessages, c.netlist.lineMap.filterMap fun l => l.2.element?) =
      ([], [⟨"R 1", "N1", "N2", "1k"⟩]) :=
    compiles.map_netlist_eq ordered (f := fun n => (n.errorMessages, n.lineMap.filterMap _))
      (by decide +kernel)
  obtain ⟨messages, elements⟩ := Prod.mk.inj elements
  have noErrors : c.errors = [] := by
    rw [Compilation.errors, messages, compiles.naming_eq ordered]
    decide +kernel
  obtain ⟨k, id, type, mapped⟩ := Netlist.exists_of_mem_elements
    (e := ⟨"R 1", "N1", "N2", "1k"⟩) (elements ▸ List.mem_singleton_self _)
  exact ⟨built_spacedResistor, c, compiled, noErrors, k, id, type, _, mapped, rfl,
    by decide +kernel, by decide +kernel⟩

end Drawing

end Schematic
