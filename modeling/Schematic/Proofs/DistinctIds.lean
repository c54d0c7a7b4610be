import Schematic.Proofs.Compile
/-!
Drawings without repeated ids: every pin is looked up as the net that it lies on, and what holds of
a net can be told from the components whose pins are connected to it.
-/

namespace Schematic

theorem Value.eq_of_content_eq {v w : Value} (textV : ∃ s, v = .text s) (textW : ∃ s, w = .text s)
    (same : v.content = w.content) : v = w := by
  obtain ⟨s, rfl⟩ := textV
  obtain ⟨t, rfl⟩ := textW
  exact congrArg Value.text same

namespace Drawing

/-- Whether components differ in their ids, and the pins of each component in theirs. -/
structure HasDistinctIds (d : Drawing) : Prop where
  components : (d.components.map (·.id)).Nodup
  pins : ∀ x ∈ d.components, (x.pins.map (·.id)).Nodup

def Grounded (d : Drawing) (q : Point) : Prop :=
  ∃ x p r, d.HasPinAt x p r ∧ d.layout.Connected q r ∧
    isGround (some x) (p.terminalAt x.id r).title = true

def Labelled (d : Drawing) (q : Point) (k : String) : Prop :=
  ∃ x p r, d.HasPinAt x p r ∧ d.layout.Connected q r ∧
    x.kind? = some .net ∧ x.label ≠ "" ∧ labelKey x.label = k

/-- Whether two points are meant to be at one potential: by wires, by ground pins, or by named nodes
of one label where there is no ground pin. -/
def Joined (d : Drawing) (q r : Point) : Prop :=
  d.layout.Connected q r ∨ (d.Grounded q ∧ d.Grounded r) ∨
    (¬ d.Grounded q ∧ ¬ d.Grounded r ∧ ∃ k, d.Labelled q k ∧ d.Labelled r k)

variable {d : Drawing} {x : Component} {p : Pin} {q : Point}

theorem exists_mem_net_iff {nets : List (Net Point)} (hasNets : d.layout.HasNets nets)
    {n : Net Point} (netN : n ∈ nets) {t : Terminal} (inN : t ∈ n.terminals)
    (P : Terminal → Prop) :
    (∃ u ∈ n.terminals, P u) ↔
      ∃ x p r, d.HasPinAt x p r ∧ d.layout.Connected t.place r ∧ P (p.terminalAt x.id r) := by
  constructor
  · rintro ⟨u, member, holds⟩
    have placed := hasNets.mem_terminals netN member
    obtain ⟨x, p, pinned, same⟩ := exists_hasPinAt_of_mem_terminals placed
    rw [← same] at holds
    exact ⟨x, p, u.place, pinned, (hasNets.mem_net_iff netN inN placed).1 member, holds⟩
  · rintro ⟨x, p, r, pinned, connected, holds⟩
    exact ⟨_, (hasNets.mem_net_iff netN inN pinned.mem_terminals).2 connected, holds⟩

theorem component_eq_of_content_eq (texts : ∀ x ∈ d.components, ∃ s, x.id = .text s)
    (distinct : (d.components.map (·.id)).Nodup) {x y : Component} (listedX : x ∈ d.components)
    (listedY : y ∈ d.components) (same : x.id.content = y.id.content) : x = y :=
  List.inj_on_of_nodup_map distinct listedX listedY
    (Value.eq_of_content_eq (texts x listedX) (texts y listedY) same)

theorem mem_of_named? {id : String} (known : d.named? id = some x) :
    x ∈ d.components ∧ x.id.content = id := by
  have same := List.find?_some known
  rw [Value.same_text_right] at same
  exact ⟨List.mem_reverse.1 (List.mem_of_find?_eq_some known), by rw [same]; rfl⟩

theorem named?_of_mem (texts : ∀ x ∈ d.components, ∃ s, x.id = .text s)
    (distinct : (d.components.map (·.id)).Nodup) (listed : x ∈ d.components) :
    d.named? x.id.content = some x := by
  obtain ⟨s, id⟩ := texts x listed
  have isSelf : x.id.same (.text x.id.content) = true := by
    rw [Value.same_text_right, id]
    rfl
  obtain ⟨y, found⟩ : ∃ y, d.named? x.id.content = some y :=
    Option.isSome_iff_exists.1 (List.find?_isSome.2 ⟨x, List.mem_reverse.2 listed, isSelf⟩)
  obtain ⟨listedY, sameId⟩ := mem_of_named? found
  rw [found, component_eq_of_content_eq texts distinct listedY listed sameId]

theorem Built.id_isText (built : d.Built) : ∀ x ∈ d.components, ∃ s, x.id = .text s :=
  fun x listed => (built.component_isTidy x listed).id

theorem label?_of_named? {t : Terminal} (known : d.named? t.component = some x)
    (kind : x.kind? = some .net) (given : x.label ≠ "") : d.label? t = some (.ofText x.label) := by
  unfold label?
  rw [known]
  simp [kind, given]

section

variable (built : d.Built) (distinct : d.HasDistinctIds)

include built distinct

theorem terminal_eq_of_key_eq {t u : Terminal} (placedT : t ∈ d.terminals)
    (placedU : u ∈ d.terminals) (same : t.key = u.key) : t = u := by
  obtain ⟨x, p, pinnedT, isT⟩ := exists_hasPinAt_of_mem_terminals placedT
  obtain ⟨y, q, pinnedU, isU⟩ := exists_hasPinAt_of_mem_terminals placedU
  rw [← isT, ← isU] at same
  obtain ⟨sameX, sameP⟩ := Prod.mk.inj same
  obtain rfl := component_eq_of_content_eq built.id_isText distinct.components pinnedT.listed
    pinnedU.listed sameX
  have tidy := (built.component_isTidy x pinnedT.listed).pins
  obtain rfl : p = q := by
    refine List.inj_on_of_nodup_map (distinct.pins x pinnedT.listed) pinnedT.member
      pinnedU.member ?_
    exact Value.eq_of_content_eq (tidy p pinnedT.member).id (tidy q pinnedU.member).id sameP
  have places := pinnedT.place.symm.trans pinnedU.place
  rw [← isT, ← isU, Option.some.inj (Except.ok.inj places)]

theorem lastNet?_of_mem {nets : List (Net Point)} (hasNets : d.layout.HasNets nets) {n : Net Point}
    (netN : n ∈ nets) {t : Terminal} (inN : t ∈ n.terminals) :
    PinNets.lastNet? nets t.component t.pin = some n := by
  -- The last net that lists these ids lists them for a terminal, which can only be `t`.
  obtain ⟨m, netM, ⟨u, inM, same⟩, last⟩ := PinNets.exists_lastNet? netN ⟨t, inN, rfl⟩
  obtain rfl := terminal_eq_of_key_eq built distinct (hasNets.mem_terminals netM inM)
    (hasNets.mem_terminals netN inN) same
  rw [last, hasNets.eq_of_mem_terminals netM netN inM inN]

end

section

variable (texts : ∀ x ∈ d.components, ∃ s, x.id = .text s)
  (distinct : (d.components.map (·.id)).Nodup)

include texts distinct

theorem groundsTerminal_eq (pinned : d.HasPinAt x p q) :
    d.groundsTerminal (p.terminalAt x.id q) =
      isGround (some x) (p.terminalAt x.id q).title := by
  have known : d.named? (p.terminalAt x.id q).component = some x :=
    named?_of_mem texts distinct pinned.listed
  rw [groundsTerminal, known]

theorem label?_eq_some_iff {k : String} (pinned : d.HasPinAt x p q) :
    (∃ l, d.label? (p.terminalAt x.id q) = some l ∧ l.key = k) ↔
      x.kind? = some .net ∧ x.label ≠ "" ∧ labelKey x.label = k := by
  have known : d.named? (p.terminalAt x.id q).component = some x :=
    named?_of_mem texts distinct pinned.listed
  by_cases given : x.kind? = some .net ∧ x.label ≠ ""
  · rw [label?_of_named? known given.1 given.2]
    simp [given.1, given.2, Label.ofText]
  · unfold label?
    rw [known]
    have other : ¬ (decide (x.kind? = some .net) && x.label != "") = true := by
      simpa using given
    simp only [if_neg other]
    constructor
    · rintro ⟨l, absent, _⟩
      cases absent
    · exact fun ⟨kind, blank, _⟩ => absurd ⟨kind, blank⟩ given

variable {nets : List (Net Point)} {n : Net Point} {t : Terminal}

theorem grounds_iff (hasNets : d.layout.HasNets nets) (netN : n ∈ nets) (inN : t ∈ n.terminals) :
    d.grounds n = true ↔ d.Grounded t.place := by
  rw [grounds, List.any_eq_true, exists_mem_net_iff hasNets netN inN, Grounded]
  refine exists_congr fun x => exists_congr fun p => exists_congr fun r =>
    and_congr_right fun pinned => and_congr_right fun _ => ?_
  rw [groundsTerminal_eq texts distinct pinned]

theorem labels_iff (hasNets : d.layout.HasNets nets) (netN : n ∈ nets) (inN : t ∈ n.terminals)
    (k : String) : (∃ l ∈ d.labels n, l.key = k) ↔ d.Labelled t.place k := by
  have terminals : (∃ l ∈ d.labels n, l.key = k) ↔
      ∃ u ∈ n.terminals, ∃ l, d.label? u = some l ∧ l.key = k := by
    constructor
    · rintro ⟨l, member, key⟩
      obtain ⟨u, here, found⟩ := List.mem_filterMap.1 member
      exact ⟨u, here, l, found, key⟩
    · rintro ⟨u, here, l, found, key⟩
      exact ⟨l, List.mem_filterMap.2 ⟨u, here, found⟩, key⟩
  rw [terminals, exists_mem_net_iff hasNets netN inN, Labelled]
  refine exists_congr fun x => exists_congr fun p => exists_congr fun r =>
    and_congr_right fun pinned => and_congr_right fun _ => ?_
  exact label?_eq_some_iff texts distinct pinned

end

/-- Whether a net lists a pin of a named node with a label of some key. -/
structure Bears (d : Drawing) (n : Net Point) (x : Component) (k : String) : Prop where
  listed : x ∈ d.components
  kind : x.kind? = some .net
  key : labelKey x.label = k
  pin : ∃ t ∈ n.terminals, t.component = x.id.content

theorem Bears.exists_mem_labels (texts : ∀ x ∈ d.components, ∃ s, x.id = .text s)
    (distinct : (d.components.map (·.id)).Nodup) {n : Net Point} {x : Component} {k : String}
    (bears : d.Bears n x k) (given : k ≠ "") : ∃ l ∈ d.labels n, l.key = k := by
  obtain ⟨t, inN, ofX⟩ := bears.pin
  have known : d.named? t.component = some x := by
    rw [ofX]
    exact named?_of_mem texts distinct bears.listed
  have label : x.label ≠ "" := by
    intro blank
    refine given (bears.key.symm.trans ?_)
    rw [blank]
    rfl
  exact ⟨.ofText x.label, List.mem_filterMap.2 ⟨t, inN, label?_of_named? known bears.kind label⟩,
    bears.key⟩

theorem labelKey_label_ne {x : Component} (given : x.label ≠ "") : labelKey x.label ≠ "" := by
  have trimmed : Text.trim x.label = x.label := by rw [Component.label, Text.trim_trim]
  rw [labelKey, trimmed]
  exact Text.lower_ne_empty given

theorem exists_bears_of_mem_labels {n : Net Point} {l : Label} (member : l ∈ d.labels n) :
    l.key ≠ "" ∧ ∃ x, d.Bears n x l.key := by
  obtain ⟨t, inN, found⟩ := List.mem_filterMap.1 member
  unfold label? at found
  split at found
  next x known =>
    split at found
    next named =>
      obtain ⟨kind, label⟩ : x.kind? = some .net ∧ x.label ≠ "" := by simpa using named
      obtain rfl := Option.some.inj found
      obtain ⟨listed, same⟩ := mem_of_named? known
      exact ⟨labelKey_label_ne label, x, listed, kind, rfl, t, inN, same.symm⟩
    next => cases found
  next => cases found

end Drawing

end Schematic
