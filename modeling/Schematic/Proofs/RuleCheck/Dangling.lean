import Schematic.Proofs.DistinctIds
import Schematic.Proofs.RuleCheck.Ground
/-!
Dangling pins: the rule check warns of just the pins that are connected to no other pin, unless they
are ground pins, and of each of them once.
-/

namespace Schematic

theorem countP_eq_one_iff {α : Type} {xs : List α} (nodup : xs.Nodup) {P : α → Bool} {x : α}
    (member : x ∈ xs) (holds : P x = true) :
    xs.countP P = 1 ↔ ∀ y ∈ xs, P y = true → y = x := by
  have kept : x ∈ xs.filter P := List.mem_filter.2 ⟨member, holds⟩
  rw [List.countP_eq_length_filter]
  constructor
  · intro single y inXs holdsY
    obtain ⟨z, only⟩ := List.length_eq_one_iff.1 single
    have keptY : y ∈ xs.filter P := List.mem_filter.2 ⟨inXs, holdsY⟩
    rw [only, List.mem_singleton] at kept keptY
    rw [kept, keptY]
  · intro alone
    have only : (xs.filter P).Perm [x] := by
      refine (List.perm_ext_iff_of_nodup (nodup.filter P) (List.nodup_singleton x)).2 fun y => ?_
      rw [List.mem_filter, List.mem_singleton]
      constructor
      · exact fun ⟨inXs, holdsY⟩ => alone y inXs holdsY
      · rintro rfl
        exact ⟨member, holds⟩
    exact only.length_eq

namespace Placement.HasNets

variable {p : Placement} {nets : List (Net Point)} {n : Net Point} {t : Terminal}

open Classical in
theorem terminals_perm_filter (hasNets : p.HasNets nets) (netN : n ∈ nets) (inN : t ∈ n.terminals) :
    n.terminals.Perm (p.terminals.filter fun u => p.Connected t.place u.place) := by
  refine List.perm_iff_count.2 fun u => ?_
  by_cases inU : u ∈ n.terminals
  · have connected := (hasNets.mem_net_iff netN inN (hasNets.mem_terminals netN inU)).1 inU
    rw [hasNets.count_terminals netN inU, List.count_filter]
    exact decide_eq_true connected
  · rw [List.count_eq_zero.2 inU, eq_comm, List.count_eq_zero, List.mem_filter]
    rintro ⟨placed, connected⟩
    exact inU ((hasNets.mem_net_iff netN inN placed).2 (of_decide_eq_true connected))

end Placement.HasNets

namespace Drawing

variable {d : Drawing}

/-- Whether a position, that of a component and that of a pin in it, is that of a pin of an
electrical component which lies at a point. -/
structure IsPin (d : Drawing) (s : Nat × Nat) (x : Component) (p : Pin) (q : Point) : Prop where
  component : d.components[s.1]? = some x
  electrical : x.isElectrical = true
  pin : x.pins[s.2]? = some p
  place : p.place = .ok (some q)

theorem IsPin.hasPinAt {s : Nat × Nat} {x : Component} {p : Pin} {q : Point}
    (isPin : d.IsPin s x p q) : d.HasPinAt x p q :=
  ⟨List.mem_of_getElem? isPin.component, isPin.electrical, List.mem_of_getElem? isPin.pin,
    isPin.place⟩

theorem exists_isPin {x : Component} {p : Pin} {q : Point} (pinned : d.HasPinAt x p q) :
    ∃ s, d.IsPin s x p q := by
  obtain ⟨i, component⟩ := List.getElem?_of_mem pinned.listed
  obtain ⟨j, pin⟩ := List.getElem?_of_mem pinned.member
  exact ⟨(i, j), component, pinned.electrical, pin, pinned.place⟩

def positions (d : Drawing) : List ((Nat × Nat) × Terminal) :=
  d.components.zipIdx.flatMap fun c =>
    if c.1.isElectrical then
      c.1.pins.zipIdx.filterMap fun e => e.1.point?.map fun q => ((c.2, e.2), e.1.terminalAt c.1.id q)
    else []

theorem map_snd_positions (d : Drawing) : d.positions.map (·.2) = d.terminals := by
  have pins : ∀ c : Component × Nat, (c.1.pins.zipIdx.filterMap fun e =>
      e.1.point?.map fun q => ((c.2, e.2), e.1.terminalAt c.1.id q)).map (·.2) =
        c.1.pins.filterMap fun p => p.point?.map (p.terminalAt c.1.id) := by
    intro c
    rw [List.map_filterMap]
    conv_rhs => rw [← List.zipIdx_map_fst 0 c.1.pins, List.filterMap_map]
    refine List.filterMap_congr fun e _ => ?_
    rw [Option.map_map]
    rfl
  unfold positions terminals
  rw [List.map_flatMap]
  conv_rhs => rw [← List.zipIdx_map_fst 0 d.components, List.flatMap_map]
  refine List.flatMap_congr fun c _ => ?_
  split
  · exact pins c
  · rfl

theorem mem_positions {s : Nat × Nat} {t : Terminal} :
    (s, t) ∈ d.positions ↔ ∃ x p q, d.IsPin s x p q ∧ p.terminalAt x.id q = t := by
  simp only [positions, List.mem_flatMap]
  constructor
  · rintro ⟨⟨x, i⟩, listed, member⟩
    split at member
    next electrical =>
      obtain ⟨⟨p, j⟩, pin, made⟩ := List.mem_filterMap.1 member
      obtain ⟨q, place, same⟩ := Option.map_eq_some_iff.1 made
      obtain ⟨rfl, rfl⟩ := Prod.mk.inj same
      exact ⟨x, p, q, ⟨List.mem_zipIdx_iff_getElem?.1 listed, electrical,
        List.mem_zipIdx_iff_getElem?.1 pin, Pin.place_of_point? place⟩, rfl⟩
    next => cases member
  · rintro ⟨x, p, q, isPin, rfl⟩
    refine ⟨(x, s.1), List.mem_zipIdx_iff_getElem?.2 isPin.component, ?_⟩
    rw [if_pos isPin.electrical]
    refine List.mem_filterMap.2 ⟨(p, s.2), List.mem_zipIdx_iff_getElem?.2 isPin.pin, ?_⟩
    rw [Pin.point?_of_place isPin.place]
    rfl

theorem pairwise_zipIdx {α : Type} (xs : List α) : xs.zipIdx.Pairwise fun a b => a.2 ≠ b.2 := by
  rw [← List.pairwise_map (f := fun e : α × Nat => e.2), List.zipIdx_map_snd]
  exact List.nodup_range'

theorem nodup_positions (d : Drawing) : (d.positions.map (·.1)).Nodup := by
  rw [List.Nodup, List.pairwise_map, positions, List.pairwise_flatMap]
  constructor
  · intro c _
    split
    · refine List.pairwise_filterMap.2 ((pairwise_zipIdx c.1.pins).imp ?_)
      intro a b other u made v made' same
      obtain ⟨_, _, rfl⟩ := Option.map_eq_some_iff.1 made
      obtain ⟨_, _, rfl⟩ := Option.map_eq_some_iff.1 made'
      exact other (Prod.mk.inj same).2
    · exact .nil
  · refine (pairwise_zipIdx d.components).imp ?_
    intro a b other u inA v inB same
    split at inA
    next =>
      split at inB
      next =>
        obtain ⟨_, _, made⟩ := List.mem_filterMap.1 inA
        obtain ⟨_, _, made'⟩ := List.mem_filterMap.1 inB
        obtain ⟨_, _, rfl⟩ := Option.map_eq_some_iff.1 made
        obtain ⟨_, _, rfl⟩ := Option.map_eq_some_iff.1 made'
        exact other (Prod.mk.inj same).1
      next => cases inB
    next => cases inA

/-- Whether a pin is not a ground pin and connected to no pin but itself. -/
def Dangles (d : Drawing) (s : Nat × Nat) : Prop :=
  ∃ x p q, d.IsPin s x p q ∧ isGround (some x) (p.terminalAt x.id q).title = false ∧
    ∀ s' x' p' q', d.IsPin s' x' p' q' → d.layout.Connected q q' → s' = s

open Classical in
/-- Whether a terminal is listed once and connected to no other. -/
noncomputable def isLoose (d : Drawing) (t : Terminal) : Bool :=
  !d.groundsTerminal t &&
    d.terminals.countP (fun u => d.layout.Connected t.place u.place) == 1

theorem isLoose_iff {s : Nat × Nat} {t : Terminal} (member : (s, t) ∈ d.positions) :
    d.isLoose t = true ↔ d.groundsTerminal t = false ∧
      ∀ s' t', (s', t') ∈ d.positions → d.layout.Connected t.place t'.place → s' = s := by
  classical
  rw [isLoose, Bool.and_eq_true, Bool.not_eq_true', beq_iff_eq, ← map_snd_positions,
    List.countP_map, countP_eq_one_iff d.nodup_positions.of_map member (decide_eq_true .refl)]
  refine and_congr_right fun _ => ?_
  constructor
  · intro alone s' t' member' connected
    exact (Prod.mk.inj (alone (s', t') member' (decide_eq_true connected))).1
  · rintro alone ⟨s', t'⟩ member' connected
    obtain rfl := alone s' t' member' (of_decide_eq_true connected)
    exact List.inj_on_of_nodup_map d.nodup_positions member' member rfl

theorem filter_isLoose {nets : List (Net Point)} (hasNets : d.layout.HasNets nets) {n : Net Point}
    (netN : n ∈ nets) :
    (n.terminals.filter d.isLoose).map (fun t => .unconnectedPin t.component t.pin) =
      (RuleCheck.dangling? d n).toList := by
  classical
  have alone : ∀ t ∈ n.terminals,
      d.isLoose t = (!d.groundsTerminal t && n.terminals.length == 1) := by
    intro t inN
    rw [isLoose, List.countP_eq_length_filter, (hasNets.terminals_perm_filter netN inN).length_eq]
    rfl
  rw [List.filter_congr alone, RuleCheck.dangling?]
  split
  next t only =>
    rw [only]
    cases grounded : d.groundsTerminal t <;> simp [grounded]
  next several =>
    have length : (n.terminals.length == 1) = false := by
      refine beq_eq_false_iff_ne.2 fun single => ?_
      obtain ⟨t, only⟩ := List.length_eq_one_iff.1 single
      exact several t only
    simp [length]

theorem warnings_perm {nets : List (Net Point)} (hasNets : d.layout.HasNets nets) :
    (RuleCheck.ofNets d nets).warnings.Perm
      ((d.positions.filter fun e => d.isLoose e.2).map fun e =>
        .unconnectedPin e.2.component e.2.pin) := by
  have loose : (d.positions.filter fun e => d.isLoose e.2).map (fun e =>
      Issue.unconnectedPin e.2.component e.2.pin) =
        (d.terminals.filter d.isLoose).map fun t => .unconnectedPin t.component t.pin := by
    rw [← map_snd_positions, List.filter_map, List.map_map]
    rfl
  have nets : (RuleCheck.ofNets d nets).warnings =
      ((nets.flatMap (·.terminals)).filter d.isLoose).map fun t =>
        .unconnectedPin t.component t.pin := by
    change nets.filterMap (RuleCheck.dangling? d) = _
    rw [List.filterMap_eq_flatMap_toList, List.filter_flatMap, List.map_flatMap]
    exact List.flatMap_congr fun n netN => (filter_isLoose hasNets netN).symm
  rw [loose, nets]
  exact (hasNets.terminals_perm.filter d.isLoose).map _

def IsAbout (d : Drawing) (s : Nat × Nat) (i : Issue) : Prop :=
  ∃ x p q, d.IsPin s x p q ∧ i = .unconnectedPin x.id.content p.id.content

section

variable (texts : ∀ x ∈ d.components, ∃ s, x.id = .text s)
  (distinct : (d.components.map (·.id)).Nodup)

include texts distinct

theorem isLoose_iff_dangles {s : Nat × Nat} {t : Terminal} (member : (s, t) ∈ d.positions) :
    d.isLoose t = true ↔ d.Dangles s := by
  rw [isLoose_iff member]
  obtain ⟨x, p, q, isPin, rfl⟩ := mem_positions.1 member
  rw [groundsTerminal_eq texts distinct isPin.hasPinAt]
  constructor
  · rintro ⟨free, alone⟩
    exact ⟨x, p, q, isPin, free, fun s' x' p' q' isPin' connected =>
      alone s' _ (mem_positions.2 ⟨x', p', q', isPin', rfl⟩) connected⟩
  · rintro ⟨x', p', q', isPin', free, alone⟩
    obtain rfl := Option.some.inj (isPin.component.symm.trans isPin'.component)
    obtain rfl := Option.some.inj (isPin.pin.symm.trans isPin'.pin)
    obtain rfl := Option.some.inj (Except.ok.inj (isPin.place.symm.trans isPin'.place))
    refine ⟨free, fun s' t' member' connected => ?_⟩
    obtain ⟨y, r, v, isPinY, rfl⟩ := mem_positions.1 member'
    exact alone s' y r v isPinY connected

theorem exists_dangling {nets : List (Net Point)} (hasNets : d.layout.HasNets nets) :
    ∃ dangling : List (Nat × Nat), dangling.Nodup ∧ (∀ s, s ∈ dangling ↔ d.Dangles s) ∧
      List.Forall₂ d.IsAbout dangling (RuleCheck.ofNets d nets).warnings := by
  obtain ⟨rows, same, perm⟩ : ∃ rows : List ((Nat × Nat) × Terminal),
      (RuleCheck.ofNets d nets).warnings =
        rows.map (fun e => .unconnectedPin e.2.component e.2.pin) ∧
      rows.Perm (d.positions.filter fun e => d.isLoose e.2) :=
    (congrFun (congrFun (List.eq_map_comp_perm _) _) _).mpr (warnings_perm hasNets)
  have listed : ∀ e, e ∈ rows ↔ e ∈ d.positions ∧ d.isLoose e.2 = true := fun e => by
    rw [perm.mem_iff, List.mem_filter]
  refine ⟨rows.map (·.1), ?_, fun s => ?_, ?_⟩
  · refine (perm.map (·.1)).nodup_iff.2 (d.nodup_positions.sublist ?_)
    exact List.filter_sublist.map _
  · rw [List.mem_map]
    constructor
    · rintro ⟨⟨s, t⟩, member, rfl⟩
      obtain ⟨placed, loose⟩ := (listed _).1 member
      exact (isLoose_iff_dangles texts distinct placed).1 loose
    · intro dangles
      obtain ⟨x, p, q, isPin, _⟩ := id dangles
      have placed := mem_positions.2 ⟨x, p, q, isPin, rfl⟩
      exact ⟨_, (listed _).2 ⟨placed, (isLoose_iff_dangles texts distinct placed).2 dangles⟩, rfl⟩
  · rw [same, List.forall₂_map_left_iff, List.forall₂_map_right_iff, List.forall₂_same]
    rintro ⟨s, t⟩ member
    obtain ⟨x, p, q, isPin, rfl⟩ := mem_positions.1 ((listed _).1 member).1
    exact ⟨x, p, q, isPin, rfl⟩

theorem isValid_iff {nets : List (Net Point)} (hasNets : d.layout.HasNets nets) :
    (RuleCheck.ofNets d nets).isValid = true ↔
      (∃ x ∈ d.components, x.isElectrical = true ∧ x.kind? ≠ some .ground ∧ x.kind? ≠ some .net) ∧
      ∃ s x p q, d.IsPin s x p q ∧ isGround (some x) (p.terminalAt x.id q).title = true := by
  have simulated : d.components.any RuleCheck.isSimulated = true ↔
      ∃ x ∈ d.components, x.isElectrical = true ∧ x.kind? ≠ some .ground ∧
        x.kind? ≠ some .net := by
    simp only [List.any_eq_true, RuleCheck.isSimulated, Bool.and_eq_true, bne_iff_ne, and_assoc]
  have grounded : nets.any d.grounds = true ↔
      ∃ s x p q, d.IsPin s x p q ∧ isGround (some x) (p.terminalAt x.id q).title = true := by
    constructor
    · intro found
      obtain ⟨n, netN, grounds⟩ := List.any_eq_true.1 found
      obtain ⟨t, inN, ground⟩ := List.any_eq_true.1 grounds
      obtain ⟨x, p, pinned, same⟩ :=
        exists_hasPinAt_of_mem_terminals (hasNets.mem_terminals netN inN)
      obtain ⟨s, isPin⟩ := exists_isPin pinned
      rw [← same, groundsTerminal_eq texts distinct pinned] at ground
      exact ⟨s, x, p, t.place, isPin, ground⟩
    · rintro ⟨s, x, p, q, isPin, ground⟩
      obtain ⟨n, ⟨netN, inN⟩, _⟩ := hasNets.existsUnique_net isPin.hasPinAt.mem_terminals
      rw [← groundsTerminal_eq texts distinct isPin.hasPinAt] at ground
      exact List.any_eq_true.2 ⟨n, netN, List.any_eq_true.2 ⟨_, inN, ground⟩⟩
  rw [← simulated, ← grounded, RuleCheck.isValid, RuleCheck.ofNets]
  cases d.components.any RuleCheck.isSimulated <;> cases nets.any d.grounds <;> simp

end

/-- The check warns of every dangling pin once, and of nothing else; it is passed just when there is
something to simulate and a ground pin. -/
theorem check_finds_dangling_pins (built : d.Built) (distinct : (d.components.map (·.id)).Nodup) :
    ∃ nets r, d.nets = .ok nets ∧ d.check nets = .ok r ∧
      (∀ i j x p, d.components[i]? = some x → x.isElectrical = true → x.pins[j]? = some p →
        ∃ q, d.IsPin (i, j) x p q) ∧
      (∃ dangling : List (Nat × Nat), dangling.Nodup ∧ (∀ s, s ∈ dangling ↔ d.Dangles s) ∧
        List.Forall₂ d.IsAbout dangling r.warnings) ∧
      (r.isValid = true ↔
        (∃ x ∈ d.components, x.isElectrical = true ∧ x.kind? ≠ some .ground ∧
          x.kind? ≠ some .net) ∧
        ∃ s x p q, d.IsPin s x p q ∧ isGround (some x) (p.terminalAt x.id q).title = true) := by
  have hasNets := d.hasNets_layout
  refine ⟨_, _, nets_of_placed built.isPlaced, check_eq_ok.2 ⟨built.checkIds, rfl⟩, ?_,
    exists_dangling built.id_isText distinct hasNets,
    isValid_iff built.id_isText distinct hasNets⟩
  intro i j x p component electrical pin
  obtain ⟨q, pinned⟩ := built.exists_hasPinAt built.isPlaced (List.mem_of_getElem? component)
    electrical (List.mem_of_getElem? pin)
  exact ⟨q, component, electrical, pin, pinned.place⟩

def stub : Drawing :=
  .ofParts [
      ⟨"R1", "R", "1k", [("1", ⟨.lit 0 0, .lit 0 0⟩), ("2", ⟨.lit 20 0, .lit 0 0⟩)]⟩,
      ⟨"G1", "GND", "", [("0", ⟨.lit 0 0, .lit 0 0⟩)]⟩,
      ⟨"T1", "TEXT", "", [("A", ⟨.lit 20 0, .lit 0 0⟩)]⟩,
      ⟨"R2", "R", "1k", [("1", ⟨.lit 60 0, .lit 0 0⟩), ("1", ⟨.lit 60 0, .lit 0 0⟩)]⟩]
    [("W1", [⟨.lit 20 0, .lit 0 0⟩, ⟨.lit 40 0, .lit 0 0⟩])]

theorem check_finds_dangling_pins_stub :
    stub.Built ∧ (stub.components.map (·.id)).Nodup ∧
      ∃ nets r s, stub.nets = .ok nets ∧ stub.check nets = .ok r ∧
        r.warnings = [.unconnectedPin "R1" "2"] ∧ (∀ s', stub.Dangles s' ↔ s' = s) ∧
        r.isValid = true ∧
        ∃ s x p q, stub.IsPin s x p q ∧ isGround (some x) (p.terminalAt x.id q).title = true := by
  have built : stub.Built := built_ofParts (by decide +kernel) (by decide +kernel)
  have distinct : (stub.components.map (·.id)).Nodup := by simp [stub, ofParts, Part.component]
  obtain ⟨nets, r, found, checked, _, ⟨dangling, _, listed, warned⟩, valid⟩ :=
    check_finds_dangling_pins built distinct
  have isNets := (nets_eq_ok.1 found).2
  have isCheck := (check_eq_ok.1 checked).2
  have warnings : r.warnings = [.unconnectedPin "R1" "2"] := by
    rw [isCheck, isNets]
    decide +kernel
  have passed : r.isValid = true := by
    rw [isCheck, isNets]
    decide +kernel
  rw [warnings] at warned
  obtain ⟨s, rest, _, none, rfl⟩ := List.forall₂_cons_right_iff.1 warned
  obtain rfl := List.forall₂_nil_right_iff.1 none
  refine ⟨built, distinct, nets, r, s, found, checked, warnings, fun s' => ?_, passed,
    (valid.1 passed).2⟩
  rw [← listed s', List.mem_singleton]

end Drawing

end Schematic
