import Schematic.Proofs.Naming.Sharing
import Schematic.Proofs.Wiring
/-!
Wires may be drawn in any order, from either end, and in pieces that meet at a point. The nets are
then found, numbered and spelled otherwise, but what is connected, what is ground and what has one
name stays the same.
-/

namespace Schematic

/-! Wires drawn otherwise. -/

theorem pair_infix_append_cons {α : Type} {x y : α} (us : List α) (v : α) (vs : List α) :
    [x, y] <:+: us ++ v :: vs ↔ [x, y] <:+: us ++ [v] ∨ [x, y] <:+: v :: vs := by
  induction us with
  | nil =>
      have short : ¬ [x, y] <:+: [v] := fun within => absurd within.length_le (by simp)
      exact (or_iff_right short).symm
  | cons u us ih =>
      have first : [x, y] <+: u :: (us ++ v :: vs) ↔ [x, y] <+: u :: (us ++ [v]) := by
        cases us <;> simp [List.cons_prefix_cons]
      rw [List.cons_append, List.cons_append, List.infix_cons_iff, ih, first, ← or_assoc,
        ← List.infix_cons_iff]

namespace Wire

/-- Whether wires are drawn from others by changing their order, by turning some of them round and
by cutting some of them in two at one of their points. The pieces may have any ids. -/
inductive Redrawn : List Wire → List Wire → Prop
  | permute {ws ws' : List Wire} (perm : ws.Perm ws') : Redrawn ws ws'
  | turn (w : Wire) (ws : List Wire) :
      Redrawn (w :: ws) ({ w with points := w.points.reverse } :: ws)
  | cut (id id₁ id₂ : Value) (before : List Value) (v : Value) (after : List Value)
      (ws : List Wire) :
      Redrawn (⟨id, before ++ v :: after⟩ :: ws) (⟨id₁, before ++ [v]⟩ :: ⟨id₂, v :: after⟩ :: ws)
  | trans {ws ws' ws'' : List Wire} (first : Redrawn ws ws') (second : Redrawn ws' ws'') :
      Redrawn ws ws''

/-- What holds of the points of some wire still does, if it holds from either end, and for the whole
just when it does for a piece. -/
theorem Redrawn.exists_iff {ws ws' : List Wire} (redrawn : Redrawn ws ws')
    {P : List Value → Prop} (turn : ∀ vs, P vs.reverse ↔ P vs)
    (cut : ∀ before v after, P (before ++ v :: after) ↔ P (before ++ [v]) ∨ P (v :: after)) :
    (∃ w ∈ ws, P w.points) ↔ ∃ w ∈ ws', P w.points := by
  induction redrawn with
  | permute perm => simp only [perm.mem_iff]
  | turn w ws => simp only [List.mem_cons, exists_eq_or_imp, turn]
  | cut id id₁ id₂ before v after ws =>
      simp only [List.mem_cons, exists_eq_or_imp, cut before v after, or_assoc]
  | trans _ _ ih ih' => exact ih.trans ih'

def Links (vs : List Value) (a b : Point) : Prop :=
  [some a, some b] <:+: vs.map Value.point? ∨ [some b, some a] <:+: vs.map Value.point?

theorem links_reverse (vs : List Value) (a b : Point) : Links vs.reverse a b ↔ Links vs a b := by
  have turned : ∀ x y : Option Point,
      [x, y] <:+: (vs.reverse).map Value.point? ↔ [y, x] <:+: vs.map Value.point? := by
    intro x y
    rw [List.map_reverse, ← List.reverse_infix, List.reverse_reverse]
    rfl
  rw [Links, turned, turned, or_comm, Links]

theorem links_append_cons (before : List Value) (v : Value) (after : List Value) (a b : Point) :
    Links (before ++ v :: after) a b ↔ Links (before ++ [v]) a b ∨ Links (v :: after) a b := by
  simp only [Links, List.map_append, List.map_cons, List.map_nil]
  rw [pair_infix_append_cons, pair_infix_append_cons (x := some b), or_or_or_comm]

end Wire

/-! Placements that connect alike. -/

namespace Placement

/-- Whether placements have the same terminals, and connect the same points. -/
structure Alike (p p' : Placement) : Prop where
  terminals : p'.terminals = p.terminals
  connected : ∀ a b, p.Connected a b ↔ p'.Connected a b

namespace HasNets

variable {p p' : Placement} {nets nets' : List (Net Point)}

section

variable (hasNets : p.HasNets nets) (hasNets' : p'.HasNets nets')

include hasNets hasNets'

theorem partners_eq_iff {m n m' n' : Net Point} (netM : m ∈ nets) (netN : n ∈ nets)
    (netM' : m' ∈ nets') (netN' : n' ∈ nets') (sameM : m.terminals.Perm m'.terminals)
    (sameN : n.terminals.Perm n'.terminals) : m = n ↔ m' = n' := by
  obtain ⟨t, inM⟩ := List.exists_mem_of_ne_nil _ (hasNets.terminals_ne_nil m netM)
  constructor
  · rintro rfl
    exact hasNets'.eq_of_mem_terminals netM' netN' (sameM.mem_iff.1 inM) (sameN.mem_iff.1 inM)
  · rintro rfl
    exact hasNets.eq_of_mem_terminals netM netN inM (sameN.mem_iff.2 (sameM.mem_iff.1 inM))

variable (alike : p.Alike p')

include alike

theorem terminals_perm_of_mem {n n' : Net Point} (netN : n ∈ nets) (netN' : n' ∈ nets')
    {t : Terminal} (inN : t ∈ n.terminals) (inN' : t ∈ n'.terminals) :
    n.terminals.Perm n'.terminals := by
  have same : ∀ u, u ∈ n.terminals ↔ u ∈ n'.terminals := by
    intro u
    by_cases placed : u ∈ p.terminals
    · have placed' : u ∈ p'.terminals := alike.terminals ▸ placed
      rw [hasNets.mem_net_iff netN inN placed, hasNets'.mem_net_iff netN' inN' placed',
        alike.connected]
    · refine iff_of_false (mt (hasNets.mem_terminals netN) placed) fun inN' => placed ?_
      exact alike.terminals ▸ hasNets'.mem_terminals netN' inN'
  refine List.perm_iff_count.2 fun u => ?_
  by_cases inN : u ∈ n.terminals
  · rw [hasNets.count_terminals netN inN, hasNets'.count_terminals netN' ((same u).1 inN),
      alike.terminals]
  · rw [List.count_eq_zero.2 inN, List.count_eq_zero.2 (mt (same u).2 inN)]

theorem exists_partner {n : Net Point} (netN : n ∈ nets) :
    ∃ n' ∈ nets', n.terminals.Perm n'.terminals := by
  obtain ⟨t, inN⟩ := List.exists_mem_of_ne_nil _ (hasNets.terminals_ne_nil n netN)
  have placed : t ∈ p'.terminals := alike.terminals ▸ hasNets.mem_terminals netN inN
  obtain ⟨n', ⟨netN', inN'⟩, _⟩ := hasNets'.existsUnique_net placed
  exact ⟨n', netN', terminals_perm_of_mem hasNets hasNets' alike netN netN' inN inN'⟩

/-- Placements that connect alike have the same nets, in another order and with their terminals in
another order. -/
theorem exists_partners : ∃ partner : Net Point → Net Point, (nets.map partner).Perm nets' ∧
    ∀ n ∈ nets, n.terminals.Perm (partner n).terminals := by
  choose! partner netPartner same using fun n (netN : n ∈ nets) =>
    exists_partner hasNets hasNets' alike netN
  have eq_iff : ∀ m ∈ nets, ∀ n ∈ nets, m = n ↔ partner m = partner n :=
    fun m netM n netN => partners_eq_iff hasNets hasNets' netM netN (netPartner m netM)
      (netPartner n netN) (same m netM) (same n netN)
  have nodup : (nets.map partner).Nodup :=
    hasNets.nodup.map_on fun m netM n netN => (eq_iff m netM n netN).2
  refine ⟨partner, (List.perm_ext_iff_of_nodup nodup hasNets'.nodup).2 fun n' => ?_, same⟩
  constructor
  · intro member
    obtain ⟨n, netN, rfl⟩ := List.mem_map.1 member
    exact netPartner n netN
  · intro netN'
    obtain ⟨t, inN'⟩ := List.exists_mem_of_ne_nil _ (hasNets'.terminals_ne_nil n' netN')
    have placed : t ∈ p.terminals := alike.terminals ▸ hasNets'.mem_terminals netN' inN'
    obtain ⟨n, ⟨netN, inN⟩, _⟩ := hasNets.existsUnique_net placed
    have inPartner := (same n netN).mem_iff.1 inN
    exact List.mem_map.2
      ⟨n, netN, hasNets'.eq_of_mem_terminals (netPartner n netN) netN' inPartner inN'⟩

end

end HasNets

end Placement

namespace Drawing

variable {d : Drawing} {ws : List Wire}

theorem linked_layout_iff (d : Drawing) (a b : Point) :
    d.layout.Linked a b ↔ a.key = b.key ∨ ∃ w ∈ d.wires, Wire.Links w.points a b := by
  simp only [Placement.Linked, layout, traces, Wire.Links, List.mem_map, exists_exists_and_eq_and]

theorem alike_of_redrawn (redrawn : Wire.Redrawn d.wires ws) :
    d.layout.Alike { d with wires := ws }.layout where
  terminals := rfl
  connected := by
    intro a b
    have linked : d.layout.Linked = { d with wires := ws }.layout.Linked := by
      funext a b
      have links := redrawn.exists_iff (P := (Wire.Links · a b))
        (fun vs => Wire.links_reverse vs a b)
        fun before v after => Wire.links_append_cons before v after a b
      rw [linked_layout_iff, linked_layout_iff, links]
    rw [Placement.Connected, linked]
    rfl

theorem IsPlaced.of_redrawn (placed : d.IsPlaced) (redrawn : Wire.Redrawn d.wires ws) :
    { d with wires := ws }.IsPlaced where
  pins := placed.pins
  wires := by
    intro w listed v member
    have kept := redrawn.exists_iff (P := (v ∈ ·)) (fun vs => List.mem_reverse)
      fun before v' after => by simp only [List.mem_append, List.mem_cons]; tauto
    obtain ⟨w', listed', member'⟩ := kept.2 ⟨w, listed, member⟩
    exact placed.wires w' listed' v member'

/-! Nets with the same terminals. -/

section

variable {ν : Type} {n n' : Net ν} (same : n.terminals.Perm n'.terminals)

include same

theorem grounds_eq_of_perm (d : Drawing) : d.grounds n = d.grounds n' :=
  same.any_eq

theorem labels_perm (d : Drawing) : (d.labels n).Perm (d.labels n') :=
  same.filterMap d.label?

theorem isSome_error?_eq_of_perm (d : Drawing) :
    (d.verdict n).error?.isSome = (d.verdict n').error?.isSome := by
  rw [Bool.eq_iff_iff, Option.isSome_iff_ne_none, Option.isSome_iff_ne_none, Ne, Ne,
    error?_verdict_eq_none_iff, error?_verdict_eq_none_iff, grounds_eq_of_perm same]
  simp only [(labels_perm same d).mem_iff]

theorem Carries.of_perm {k : String} (carries : d.Carries n k) (ws : List Wire) :
    { d with wires := ws }.Carries n' k where
  free := (grounds_eq_of_perm same d).symm.trans carries.free
  labels_ne_nil := fun none => carries.labels_ne_nil ((none ▸ labels_perm same d).eq_nil)
  key_eq := fun l member => carries.key_eq l ((labels_perm same d).mem_iff.2 member)
  unreserved := carries.unreserved

theorem carries_iff_of_perm {k : String} (ws : List Wire) :
    d.Carries n k ↔ { d with wires := ws }.Carries n' k :=
  ⟨fun carries => carries.of_perm same ws, fun carries => carries.of_perm same.symm d.wires⟩

end

theorem length_errors {nets : List (Net Point)} {naming : Naming}
    (resolved : d.naming nets = .ok naming) :
    naming.errors.length = nets.countP fun n => (d.verdict n).error?.isSome := by
  obtain ⟨_, rfl⟩ := naming_eq_ok.1 resolved
  change (((Net.sorted nets).map d.verdict).filterMap Verdict.error?).length = _
  rw [List.length_filterMap_eq_countP, List.countP_map, (sorted_perm nets).countP_eq]
  rfl

end Drawing

/-! Two compilations. -/

namespace Compilation

/-- Whether a net of one compilation and a net of another are one group of pins, and both are ground
or neither is. -/
structure Matches (c c' : Compilation) (n n' : Net Point) : Prop where
  terminals : n.terminals.Perm n'.terminals
  ground : c.naming.names.get? n.id = some groundName ↔
    c'.naming.names.get? n'.id = some groundName

theorem success_iff (c : Compilation) :
    c.success = true ↔ c.naming.errors.length = 0 ∧ c.netlist.errors = [] := by
  rw [success, List.isEmpty_iff, errors, List.append_eq_nil_iff, Naming.errorMessages,
    Netlist.errorMessages, List.map_eq_nil_iff, List.map_eq_nil_iff, List.length_eq_zero_iff]

end Compilation

namespace Drawing

/-- Whether two compilations tell the same of the pins of a drawing: their nets match, one by one,
they have as many errors in names, both succeed or neither does, and unless a label is the default
name of another net, pins share names in both or in neither. -/
structure Agree (d : Drawing) (c c' : Compilation) : Prop where
  groups : ∃ partner : Net Point → Net Point, (c.nets.map partner).Perm c'.nets ∧
    ∀ n ∈ c.nets, c.Matches c' n (partner n)
  errors : c.naming.errors.length = c'.naming.errors.length
  success : c.success = c'.success
  names : (∀ l, Naming.clashWarning l ∉ c.warnings) → (∀ l, Naming.clashWarning l ∉ c'.warnings) →
    ∀ x p u y q v, d.HasPinAt x p u → d.HasPinAt y q v →
      ∃ a b a' b', c.NamesPin p a ∧ c.NamesPin q b ∧ c'.NamesPin p a' ∧ c'.NamesPin q b' ∧
        (Text.lower a = Text.lower b ↔ Text.lower a' = Text.lower b')

variable {d : Drawing} {ws : List Wire} {title : String} {c c' : Compilation}

theorem CompilesTo.exists_named_net (compiles : d.CompilesTo title c) {x : Component} {p : Pin}
    {q : Point} (pinned : d.HasPinAt x p q) :
    ∃ n ∈ c.nets, p.terminalAt x.id q ∈ n.terminals ∧
      ∃ a, c.naming.names.get? n.id = some a ∧ c.NamesPin p a := by
  obtain ⟨n, ⟨netN, inN⟩, _⟩ := compiles.hasNets.existsUnique_net pinned.mem_terminals
  obtain ⟨a, named, _⟩ := compiles.exists_name netN
  have inNodes := compiles.hasNets.key_mem_nodes n netN _ inN
  exact ⟨n, netN, inN, a, named, q, pinned.place, n, netN, inNodes, named⟩

theorem HasPinAt.redrawn {x : Component} {p : Pin} {q : Point} (pinned : d.HasPinAt x p q)
    (ws : List Wire) : { d with wires := ws }.HasPinAt x p q :=
  ⟨pinned.listed, pinned.electrical, pinned.member, pinned.place⟩

section

variable (compiles : d.CompilesTo title c) (compiles' : { d with wires := ws }.CompilesTo title c')

include compiles compiles'

theorem CompilesTo.matches_of_perm {n n' : Net Point} (netN : n ∈ c.nets) (netN' : n' ∈ c'.nets)
    (same : n.terminals.Perm n'.terminals) : c.Matches c' n n' where
  terminals := same
  ground := by
    rw [get?_eq_groundName_iff compiles.nets compiles.naming netN,
      get?_eq_groundName_iff compiles'.nets compiles'.naming netN']
    exact Bool.eq_iff_iff.1 (grounds_eq_of_perm same d)

theorem CompilesTo.length_errors_eq {partner : Net Point → Net Point}
    (partners : (c.nets.map partner).Perm c'.nets)
    (same : ∀ n ∈ c.nets, n.terminals.Perm (partner n).terminals) :
    c.naming.errors.length = c'.naming.errors.length := by
  rw [length_errors compiles.naming, length_errors compiles'.naming, ← partners.countP_eq,
    List.countP_map]
  refine List.countP_congr fun n netN => ?_
  rw [isSome_error?_eq_of_perm (same n netN) d]
  rfl

theorem CompilesTo.netlist_errors_eq : c.netlist.errors = c'.netlist.errors :=
  (Netlist.errors_of_ofComponents compiles.netlist).trans
    (Netlist.errors_of_ofComponents compiles'.netlist).symm

theorem CompilesTo.same_name_iff_of_perm (apart : c.naming.clashes = [])
    (apart' : c'.naming.clashes = []) {m n m' n' : Net Point} (netM : m ∈ c.nets)
    (netN : n ∈ c.nets) (netM' : m' ∈ c'.nets) (netN' : n' ∈ c'.nets)
    (sameM : m.terminals.Perm m'.terminals) (sameN : n.terminals.Perm n'.terminals)
    {a b a' b' : String} (namedM : c.naming.names.get? m.id = some a)
    (namedN : c.naming.names.get? n.id = some b) (namedM' : c'.naming.names.get? m'.id = some a')
    (namedN' : c'.naming.names.get? n'.id = some b') :
    Text.lower a = Text.lower b ↔ Text.lower a' = Text.lower b' := by
  rw [same_name_iff_carries compiles.nets compiles.naming apart netM netN namedM namedN,
    same_name_iff_carries compiles'.nets compiles'.naming apart' netM' netN' namedM' namedN']
  refine or_congr ?_ (or_congr ?_ (exists_congr fun k => ?_))
  · exact compiles.hasNets.partners_eq_iff compiles'.hasNets netM netN netM' netN' sameM sameN
  · rw [grounds_eq_of_perm sameM d, grounds_eq_of_perm sameN d]
    rfl
  · rw [carries_iff_of_perm sameM ws, carries_iff_of_perm sameN ws]

theorem CompilesTo.exists_named_nets (alike : d.layout.Alike { d with wires := ws }.layout)
    {x : Component} {p : Pin} {q : Point} (pinned : d.HasPinAt x p q) :
    ∃ n ∈ c.nets, ∃ n' ∈ c'.nets, n.terminals.Perm n'.terminals ∧
      ∃ a a', c.naming.names.get? n.id = some a ∧ c'.naming.names.get? n'.id = some a' ∧
        c.NamesPin p a ∧ c'.NamesPin p a' := by
  obtain ⟨n, netN, inN, a, named, names⟩ := compiles.exists_named_net pinned
  obtain ⟨n', netN', inN', a', named', names'⟩ :=
    compiles'.exists_named_net (pinned.redrawn ws)
  have same :=
    compiles.hasNets.terminals_perm_of_mem compiles'.hasNets alike netN netN' inN inN'
  exact ⟨n, netN, n', netN', same, a, a', named, named', names, names'⟩

theorem CompilesTo.agree (redrawn : Wire.Redrawn d.wires ws) : d.Agree c c' := by
  have alike := alike_of_redrawn redrawn
  obtain ⟨partner, partners, same⟩ := compiles.hasNets.exists_partners compiles'.hasNets alike
  have errors := compiles.length_errors_eq compiles' partners same
  refine ⟨⟨partner, partners, fun n netN => ?_⟩, errors, ?_, ?_⟩
  · exact compiles.matches_of_perm compiles' netN
      (partners.mem_iff.1 (List.mem_map_of_mem netN)) (same n netN)
  · rw [Bool.eq_iff_iff, c.success_iff, c'.success_iff, errors,
      compiles.netlist_errors_eq compiles']
  · intro apart apart' x p u y q v pinnedP pinnedQ
    obtain ⟨m, netM, m', netM', sameM, a, a', namedM, namedM', namesA, namesA'⟩ :=
      compiles.exists_named_nets compiles' alike pinnedP
    obtain ⟨n, netN, n', netN', sameN, b, b', namedN, namedN', namesB, namesB'⟩ :=
      compiles.exists_named_nets compiles' alike pinnedQ
    refine ⟨a, b, a', b', namesA, namesB, namesA', namesB', ?_⟩
    exact compiles.same_name_iff_of_perm compiles' (Compilation.naming_clashes_eq_nil apart)
      (Compilation.naming_clashes_eq_nil apart') netM netN netM' netN' sameM sameN namedM namedN
      namedM' namedN'

end

/-- A drawing compiles alike however its wires are drawn. -/
theorem Built.compile_redrawn (built : d.Built) (redrawn : Wire.Redrawn d.wires ws)
    (title : String) : ∃ c c', d.compile title = .ok c ∧
      { d with wires := ws }.compile title = .ok c' ∧ d.Agree c c' := by
  have placed' := built.isPlaced.of_redrawn redrawn
  obtain ⟨c, compiled⟩ := built.exists_compile built.isPlaced title
  obtain ⟨c', compiled'⟩ := exists_compile_of_isTidy (d := { d with wires := ws })
    built.component_isTidy placed' title
  exact ⟨c, c', compiled, compiled',
    (compilesTo_of_compile compiled).agree (compilesTo_of_compile compiled') redrawn⟩

/-- Two wires from a resistor, the second to a label. -/
def labelledRungs : Drawing :=
  let place := fun x y : Nat => (⟨.lit x 0, .lit y 0⟩ : Point)
  .ofParts [
      ⟨"R1", "R", "1k", [("1", place 0 0), ("2", place 20 40)]⟩,
      ⟨"R2", "R", "2k", [("1", place 0 60), ("2", place 40 100)]⟩,
      ⟨"R3", "R", "3k", [("1", place 40 100), ("2", place 60 120)]⟩,
      ⟨"out", "NET", "", [("1", place 20 80)]⟩,
      ⟨"OUT", "NET", "", [("1", place 40 100)]⟩,
      ⟨"G1", "GND", "", [("0", place 60 120)]⟩]
    [("W1", [place 0 0, place 0 20, place 0 60]), ("W2", [place 20 40, place 20 80])]

def rungsInPieces : List Wire :=
  let place := fun x y : Nat => (⟨.lit x 0, .lit y 0⟩ : Point).toValue
  [⟨.text "W2", [place 20 40, place 20 80]⟩, ⟨.text "W3", [place 0 60, place 0 20]⟩,
    ⟨.text "W1", [place 0 0, place 0 20]⟩]

theorem built_labelledRungs : labelledRungs.Built :=
  built_ofParts (by decide +kernel) (by decide +kernel)

theorem redrawn_labelledRungs : Wire.Redrawn labelledRungs.wires rungsInPieces :=
  .trans (.cut _ (.text "W1") (.text "W3") [_] _ [_] [_])
    (.trans (.permute (@List.perm_append_comm _ [_] _))
      (.trans (.turn _ _) (.permute (.swap _ _ _))))

theorem names_of_labelledRungs {c c' : Compilation} (compiles : labelledRungs.CompilesTo "" c)
    (compiles' : { labelledRungs with wires := rungsInPieces }.CompilesTo "" c') :
    c.warnings = [] ∧ c'.warnings = [] ∧
      c.naming.names = [("N1", "N1"), ("N2", "out"), ("N3", "out"), ("N4", "0")] ∧
      c'.naming.names = [("N1", "out"), ("N2", "N2"), ("N3", "out"), ("N4", "0")] := by
  rw [Compilation.warnings, Compilation.warnings, compiles.naming_eq (by decide +kernel),
    compiles'.naming_eq (by decide +kernel)]
  decide +kernel

theorem compile_redrawn_labelledRungs :
    labelledRungs.Built ∧ Wire.Redrawn labelledRungs.wires rungsInPieces ∧
      ∃ c c', labelledRungs.compile "" = .ok c ∧
        { labelledRungs with wires := rungsInPieces }.compile "" = .ok c' ∧
        c.warnings = [] ∧ c'.warnings = [] ∧ c.naming.names ≠ c'.naming.names ∧
        labelledRungs.Agree c c' := by
  refine ⟨built_labelledRungs, redrawn_labelledRungs, ?_⟩
  obtain ⟨c, c', compiled, compiled', agree⟩ :=
    built_labelledRungs.compile_redrawn redrawn_labelledRungs ""
  obtain ⟨quiet, quiet', names, names'⟩ := names_of_labelledRungs
    (compilesTo_of_compile compiled) (compilesTo_of_compile compiled')
  refine ⟨c, c', compiled, compiled', quiet, quiet', ?_, agree⟩
  rw [names, names']
  decide

end Drawing

end Schematic
