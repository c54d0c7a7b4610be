import Schematic.Proofs.Connectivity
import Schematic.Proofs.Naming.Names
/-!
When two nets have one name: both are grounded, or both carry one label, or a warning says so.
-/

namespace Schematic

/-- A net that is not grounded and whose labels all have one key, which is not reserved. -/
structure Drawing.Carries {ν : Type} (d : Drawing) (n : Net ν) (k : String) : Prop where
  free : d.grounds n = false
  labels_ne_nil : d.labels n ≠ []
  key_eq : ∀ l ∈ d.labels n, l.key = k
  unreserved : k ∉ reservedNames

namespace Naming

variable {ν : Type} {d : Drawing} {ordered : List (Net ν)}

theorem carries_of_labelled {n : Net ν} {l : Label} (labelled : d.verdict n = .labelled l) :
    d.Carries n l.key := by
  obtain ⟨free, head, same, unreserved⟩ := Drawing.verdict_eq_labelled_iff.1 labelled
  refine ⟨free, ?_, same, unreserved⟩
  intro none
  rw [none] at head
  cases head

theorem key_eq_lower_of_labelled {n : Net ν} {l : Label} (labelled : d.verdict n = .labelled l) :
    l.key = Text.lower l.text := by
  obtain ⟨_, head, _⟩ := Drawing.verdict_eq_labelled_iff.1 labelled
  exact (Drawing.key_of_mem_labels (List.mem_of_head? head)).2

theorem lower_of_leader? {k : String} {o : Claim}
    (leads : leader? (claims ordered (ordered.map d.verdict)) k = some o) :
    Text.lower o.2.text = k ∧ k ∉ reservedNames := by
  obtain ⟨member, rfl⟩ := mem_of_leader? leads
  obtain ⟨n, _, _, labelled⟩ := mem_claims.1 member
  exact ⟨(key_eq_lower_of_labelled labelled).symm, (carries_of_labelled labelled).unreserved⟩

theorem lower_groundName_mem : Text.lower groundName ∈ reservedNames := by
  decide +kernel

theorem text_ne_groundName {k : String} {o : Claim}
    (leads : leader? (claims ordered (ordered.map d.verdict)) k = some o) : o.2.text ≠ groundName := by
  intro same
  obtain ⟨spelled, unreserved⟩ := lower_of_leader? leads
  rw [← spelled, same] at unreserved
  exact unreserved lower_groundName_mem

/-- A label in use that spells the name of a net without accepted label is reported. -/
theorem mem_clashes (nodup : (ordered.map (·.id)).Nodup) {k : String} {o : Claim}
    (leads : leader? (claims ordered (ordered.map d.verdict)) k = some o) {n : Net ν}
    (listed : n ∈ ordered) (unlabelled : (d.verdict n).label? = none) {b : String}
    (named : (ofOrdered d ordered).names.get? n.id = some b) (default : b ≠ groundName)
    (same : Text.lower o.2.text = Text.lower b) : o.2.text ∈ (ofOrdered d ordered).clashes := by
  obtain ⟨_, rfl⟩ := mem_of_leader? leads
  have used : o.2.text ∈ (ofOrdered d ordered).labels := by
    have kept : o ∈ firstsBy (·.2.key) (claims ordered (ordered.map d.verdict)) :=
      (mem_firstsBy _).2 leads
    change _ ∈ (join (initialNames d ordered) _ _).spelling.map (·.2)
    rw [(joins_ofOrdered nodup).spelling, List.map_map]
    exact List.mem_map_of_mem (f := fun c : Claim => c.2.text) kept
  obtain ⟨i, inRange, rfl⟩ := List.getElem_of_mem listed
  have row : (ordered[i].id, d.verdict ordered[i]) ∈
      (ordered.map (·.id)).zip (ordered.map d.verdict) := by
    rw [List.zip_map']
    exact List.mem_map_of_mem (f := fun n : Net ν => (n.id, d.verdict n)) listed
  refine List.mem_filter.2 ⟨used, List.contains_iff_mem.2 ?_⟩
  refine List.mem_filterMap.2 ⟨_, row, ?_⟩
  rw [names_ofOrdered, initialNames] at named
  simp only [unlabelled, named]
  exact (if_neg default).trans (congrArg some same.symm)

end Naming

namespace Naming

variable {ν : Type} {d : Drawing} {ordered : List (Net ν)} {m n : Net ν} {a b : String}

inductive Origin (d : Drawing) (ordered : List (Net ν)) (i : Nat) (n : Net ν) : String → Prop
  | ground (grounded : d.grounds n = true) : Origin d ordered i n groundName
  | number (free : d.grounds n = false) (unlabelled : (d.verdict n).label? = none) :
      Origin d ordered i n (defaultName (ordinal d ordered i))
  | label {l : Label} {o : Claim} (labelled : d.verdict n = .labelled l)
      (leads : leader? (claims ordered (ordered.map d.verdict)) l.key = some o) :
      Origin d ordered i n o.2.text

theorem Origin.ne_empty {i : Nat} (origin : Origin d ordered i n a) : a ≠ "" := by
  cases origin with
  | ground => decide
  | number =>
      intro blank
      have chars := congrArg String.toList blank
      rw [defaultName, String.toList_append] at chars
      cases chars
  | label _ leads =>
      obtain ⟨member, _⟩ := mem_of_leader? leads
      obtain ⟨m, _, _, labelled⟩ := mem_claims.1 member
      obtain ⟨_, head, _⟩ := Drawing.verdict_eq_labelled_iff.1 labelled
      exact (Drawing.key_of_mem_labels (List.mem_of_head? head)).1

theorem exists_origin (nodup : (ordered.map (·.id)).Nodup) {i : Nat} (found : ordered[i]? = some n) :
    ∃ a, (ofOrdered d ordered).names.get? n.id = some a ∧ Origin d ordered i n a := by
  cases label : (d.verdict n).label? with
  | some l =>
      have labelled := label?_eq_some_iff.1 label
      obtain ⟨o, leads, named⟩ := get?_names_of_labelled nodup found labelled
      exact ⟨o.2.text, named, .label labelled leads⟩
  | none =>
      have named := get?_names_of_unlabelled nodup found label
      by_cases grounded : d.grounds n = true
      · rw [if_pos grounded] at named
        exact ⟨groundName, named, .ground grounded⟩
      · rw [if_neg grounded] at named
        exact ⟨_, named, .number (Bool.eq_false_iff.2 grounded) label⟩

theorem mem_clashes_of_origin (nodup : (ordered.map (·.id)).Nodup) {j : Nat} {k : String}
    {o : Claim} (leads : leader? (claims ordered (ordered.map d.verdict)) k = some o)
    (found : ordered[j]? = some n) (unlabelled : (d.verdict n).label? = none)
    (free : d.grounds n = false)
    (same : Text.lower o.2.text = Text.lower (defaultName (ordinal d ordered j))) :
    o.2.text ∈ (ofOrdered d ordered).clashes := by
  have named := get?_names_of_unlabelled nodup found unlabelled
  rw [free, if_neg Bool.false_ne_true] at named
  refine mem_clashes nodup leads (List.mem_of_getElem? found) unlabelled named ?_ same
  intro ground
  exact lower_defaultName_ne_ground _ (congrArg Text.lower ground)

/-- The sources of two names that are equal up to case: ground pins, numbers and labels. -/
theorem sharing_of_origins (nodup : (ordered.map (·.id)).Nodup) {i j : Nat}
    (foundI : ordered[i]? = some m) (foundJ : ordered[j]? = some n) (other : i ≠ j)
    (originA : Origin d ordered i m a) (originB : Origin d ordered j n b)
    (same : Text.lower a = Text.lower b) :
    (d.grounds m = true ∧ d.grounds n = true) ∨
      (∃ k, d.Carries m k ∧ d.Carries n k) ∨
      ∃ l ∈ (ofOrdered d ordered).clashes, Text.lower l = Text.lower a := by
  cases originA with
  | ground groundedA =>
      cases originB with
      | ground groundedB => exact .inl ⟨groundedA, groundedB⟩
      | number => exact absurd same.symm (lower_defaultName_ne_ground _)
      | label _ leads =>
          obtain ⟨spelled, unreserved⟩ := lower_of_leader? leads
          rw [← spelled, ← same] at unreserved
          exact absurd lower_groundName_mem unreserved
  | number freeA unlabelledA =>
      cases originB with
      | ground => exact absurd same (lower_defaultName_ne_ground _)
      | number freeB _ =>
          have index := ordinal_inj foundI foundJ freeA freeB (lower_defaultName_inj same)
          exact absurd index other
      | label _ leads =>
          have clash := mem_clashes_of_origin nodup leads foundI unlabelledA freeA same.symm
          exact .inr (.inr ⟨_, clash, same.symm⟩)
  | label labelledA leadsA =>
      cases originB with
      | ground =>
          obtain ⟨spelled, unreserved⟩ := lower_of_leader? leadsA
          rw [← spelled, same] at unreserved
          exact absurd lower_groundName_mem unreserved
      | number freeB unlabelledB =>
          have clash := mem_clashes_of_origin nodup leadsA foundJ unlabelledB freeB same
          exact .inr (.inr ⟨_, clash, rfl⟩)
      | label labelledB leadsB =>
          have carriesA := carries_of_labelled labelledA
          have carriesB := carries_of_labelled labelledB
          rw [← (lower_of_leader? leadsA).1, same, (lower_of_leader? leadsB).1] at carriesA
          exact .inr (.inl ⟨_, carriesA, carriesB⟩)

def clashWarning (l : String) : String :=
  "Named node label \"" ++ l
    ++ "\" matches the default name of another net; the two nets will be joined."

theorem warnings_eq (naming : Naming) : naming.warnings = naming.clashes.map clashWarning :=
  rfl

end Naming

namespace Drawing

variable {d : Drawing} {nets : List (Net Point)} {naming : Naming}

theorem naming_eq_ok : d.naming nets = .ok naming ↔
    d.checkIds = .ok () ∧ naming = .ofOrdered d (Net.sorted nets) := by
  unfold Drawing.naming
  rw [Fault.bind_eq_ok]
  constructor
  · rintro ⟨_, checked, rest⟩
    exact ⟨checked, (Fault.pure_eq_ok.1 rest).symm⟩
  · rintro ⟨checked, rfl⟩
    exact ⟨(), checked, rfl⟩

theorem sorted_perm (nets : List (Net Point)) : (Net.sorted nets).Perm nets :=
  List.mergeSort_perm _ _

theorem nodup_ids_sorted (built : d.nets = .ok nets) : ((Net.sorted nets).map (·.id)).Nodup :=
  ((sorted_perm nets).map (·.id)).nodup_iff.2 (hasNets_of_nets built).nodup_ids

theorem exists_origin_of_naming (built : d.nets = .ok nets) (resolved : d.naming nets = .ok naming)
    {n : Net Point} (member : n ∈ nets) :
    ∃ i a, (Net.sorted nets)[i]? = some n ∧ naming.names.get? n.id = some a ∧
      Naming.Origin d (Net.sorted nets) i n a := by
  obtain ⟨_, rfl⟩ := naming_eq_ok.1 resolved
  obtain ⟨i, found⟩ := List.getElem?_of_mem ((sorted_perm nets).mem_iff.2 member)
  obtain ⟨a, named, origin⟩ := Naming.exists_origin (d := d) (nodup_ids_sorted built) found
  exact ⟨i, a, found, named, origin⟩

theorem exists_name_of_naming (built : d.nets = .ok nets) (resolved : d.naming nets = .ok naming)
    {n : Net Point} (member : n ∈ nets) : ∃ a, naming.names.get? n.id = some a ∧ a ≠ "" := by
  obtain ⟨_, a, _, named, origin⟩ := exists_origin_of_naming built resolved member
  exact ⟨a, named, origin.ne_empty⟩

theorem sharing_of_naming (built : d.nets = .ok nets) (resolved : d.naming nets = .ok naming)
    {m n : Net Point} (netM : m ∈ nets) (netN : n ∈ nets) (other : m ≠ n) {a b : String}
    (namedM : naming.names.get? m.id = some a) (namedN : naming.names.get? n.id = some b)
    (same : Text.lower a = Text.lower b) :
    (d.grounds m = true ∧ d.grounds n = true) ∨
      (∃ k, d.Carries m k ∧ d.Carries n k) ∨
      ∃ l ∈ naming.clashes, Text.lower l = Text.lower a := by
  obtain ⟨i, a', foundI, namedI, originA⟩ := exists_origin_of_naming built resolved netM
  obtain ⟨j, b', foundJ, namedJ, originB⟩ := exists_origin_of_naming built resolved netN
  obtain rfl := Option.some.inj (namedM.symm.trans namedI)
  obtain rfl := Option.some.inj (namedN.symm.trans namedJ)
  have apart : i ≠ j := by
    rintro rfl
    exact other (Option.some.inj (foundI.symm.trans foundJ))
  obtain ⟨_, rfl⟩ := naming_eq_ok.1 resolved
  exact Naming.sharing_of_origins (nodup_ids_sorted built) foundI foundJ apart originA originB same

/-- Two nets have one name, case aside, only if both are grounded, if both carry one label, or if
a warning quotes that name as a label. -/
theorem shared_name_is_meant_or_reported (built : d.nets = .ok nets)
    (resolved : d.naming nets = .ok naming) {m n : Net Point} (netM : m ∈ nets) (netN : n ∈ nets)
    (other : m ≠ n) {a b : String} (namedM : naming.names.get? m.id = some a)
    (namedN : naming.names.get? n.id = some b) (same : Text.lower a = Text.lower b) :
    (d.grounds m = true ∧ d.grounds n = true) ∨
      (∃ k, d.Carries m k ∧ d.Carries n k) ∨
      ∃ l, Naming.clashWarning l ∈ naming.warnings ∧ Text.lower l = Text.lower a := by
  rcases sharing_of_naming built resolved netM netN other namedM namedN same with
    grounded | carried | ⟨l, clash, quoted⟩
  · exact .inl grounded
  · exact .inr (.inl carried)
  · refine .inr (.inr ⟨l, ?_, quoted⟩)
    rw [Naming.warnings_eq]
    exact List.mem_map_of_mem clash

/-- A resistor whose first pin is labelled like the net of the second. -/
def misleadingLabel : Drawing :=
  let pin := fun (id : String) (x : Nat) =>
    Pin.named (.text id) (.text id) (.float (.lit x 0)) (.float (.lit 0 0))
  { components := [
      ⟨.text "R1", .text "R", .text "1k", [pin "1" 0, pin "2" 20], .null, .null⟩,
      ⟨.text "L1", .text "NET", .text "", [pin "1" 0], .text "n2", .null⟩]
    wires := [] }

theorem shared_name_is_meant_or_reported_misleadingLabel :
    ∃ nets naming m n, misleadingLabel.nets = .ok nets ∧
      misleadingLabel.naming nets = .ok naming ∧ m ∈ nets ∧ n ∈ nets ∧ m ≠ n ∧
      naming.names.get? m.id = some "n2" ∧ naming.names.get? n.id = some "N2" ∧
      Text.lower "n2" = Text.lower "N2" ∧
      ((misleadingLabel.grounds m = true ∧ misleadingLabel.grounds n = true) ∨
        (∃ k, misleadingLabel.Carries m k ∧ misleadingLabel.Carries n k) ∨
        ∃ l, Naming.clashWarning l ∈ naming.warnings ∧ Text.lower l = Text.lower "n2") := by
  have placed : misleadingLabel.IsPlaced := by decide +kernel
  have built := nets_of_placed placed
  have sorted : Net.sorted (Graph.ofPlacement misleadingLabel.layout).nets =
      (Graph.ofPlacement misleadingLabel.layout).nets :=
    List.mergeSort_of_pairwise (by decide +kernel)
  have resolved : misleadingLabel.naming (Graph.ofPlacement misleadingLabel.layout).nets =
      .ok (.ofOrdered misleadingLabel (Graph.ofPlacement misleadingLabel.layout).nets) :=
    naming_eq_ok.2 ⟨rfl, by rw [sorted]⟩
  have ids : (Graph.ofPlacement misleadingLabel.layout).nets.map (·.id) = ["N1", "N2"] := by
    decide +kernel
  have names : (Naming.ofOrdered misleadingLabel
      (Graph.ofPlacement misleadingLabel.layout).nets).names = [("N1", "n2"), ("N2", "N2")] := by
    decide +kernel
  generalize (Graph.ofPlacement misleadingLabel.layout).nets = nets at *
  generalize Naming.ofOrdered misleadingLabel nets = naming at *
  obtain ⟨m, rest, rfl, idM, idRest⟩ := List.map_eq_cons_iff.1 ids
  obtain ⟨n, rest, rfl, idN, idRest⟩ := List.map_eq_cons_iff.1 idRest
  have netM : m ∈ m :: n :: rest := List.mem_cons_self
  have netN : n ∈ m :: n :: rest := List.mem_cons_of_mem m List.mem_cons_self
  have other : m ≠ n := by
    rintro rfl
    exact absurd (idM.symm.trans idN) (by decide)
  have namedM : naming.names.get? m.id = some "n2" := by rw [names, idM]; rfl
  have namedN : naming.names.get? n.id = some "N2" := by rw [names, idN]; rfl
  have same : Text.lower "n2" = Text.lower "N2" := by decide +kernel
  exact ⟨_, naming, m, n, built, resolved, netM, netN, other, namedM, namedN, same,
    shared_name_is_meant_or_reported built resolved netM netN other namedM namedN same⟩

end Drawing

end Schematic
