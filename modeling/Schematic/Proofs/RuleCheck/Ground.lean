import Schematic.Proofs.Compile
import Schematic.Proofs.Naming.Resolution
import Schematic.RuleCheck
/-!
Ground as the compiler sees it, by the names of the nets, and as the rule check sees it, by their
pins.
-/

namespace Schematic

namespace Naming

theorem hasGround_eq_true {naming : Naming} :
    naming.hasGround = true ↔ ∃ id, (id, groundName) ∈ naming.names := by
  unfold hasGround
  rw [List.any_eq_true]
  constructor
  · rintro ⟨⟨id, name⟩, listed, same⟩
    obtain rfl : name = groundName := eq_of_beq same
    exact ⟨id, listed⟩
  · rintro ⟨id, listed⟩
    exact ⟨_, listed, beq_self_eq_true groundName⟩

theorem hasGround_ofOrdered_iff {ν : Type} {d : Drawing} {ordered : List (Net ν)}
    (nodup : (ordered.map (·.id)).Nodup) :
    (ofOrdered d ordered).hasGround = true ↔ ∃ n ∈ ordered, d.grounds n = true := by
  have ids := map_fst_names (d := d) nodup
  rw [hasGround_eq_true]
  constructor
  · rintro ⟨id, listed⟩
    have isNet : id ∈ ordered.map (·.id) := ids ▸ List.mem_map_of_mem (f := (·.1)) listed
    obtain ⟨n, member, rfl⟩ := List.mem_map.1 isNet
    obtain ⟨i, found⟩ := List.getElem?_of_mem member
    obtain ⟨a, named, origin⟩ := exists_origin (d := d) nodup found
    rw [Entries.get?_eq_some_of_mem (ids ▸ nodup) listed] at named
    exact ⟨n, member, origin.eq_groundName_iff.1 (Option.some.inj named).symm⟩
  · rintro ⟨n, member, grounded⟩
    obtain ⟨i, found⟩ := List.getElem?_of_mem member
    obtain ⟨a, named, origin⟩ := exists_origin (d := d) nodup found
    rw [origin.eq_groundName grounded] at named
    exact ⟨n.id, Entries.mem_of_get?_eq_some named⟩

end Naming

namespace Drawing

variable {d : Drawing} {nets : List (Net Point)}

theorem hasGround_iff {naming : Naming} (built : d.nets = .ok nets)
    (resolved : d.naming nets = .ok naming) :
    naming.hasGround = true ↔ ∃ n ∈ nets, d.grounds n = true := by
  obtain ⟨_, rfl⟩ := naming_eq_ok.1 resolved
  rw [Naming.hasGround_ofOrdered_iff (nodup_ids_sorted built)]
  simp only [(sorted_perm nets).mem_iff]

theorem grounds_eq_false_iff {ν : Type} {n : Net ν} :
    d.grounds n = false ↔ ∀ t ∈ n.terminals, d.groundsTerminal t = false := by
  rw [grounds, List.any_eq_false]
  simp only [Bool.not_eq_true]

end Drawing

theorem Naming.clashWarning_ne_missingGround (l : String) :
    clashWarning l ≠ Compilation.missingGround := by
  intro same
  have chars := congrArg String.toList same
  unfold clashWarning Compilation.missingGround at chars
  rw [String.toList_append, String.toList_append] at chars
  -- The texts differ in their second letters.
  have second := congrArg (·[1]?) chars
  simp at second

theorem Compilation.missingGround_mem_warnings_iff {c : Compilation} :
    missingGround ∈ c.warnings ↔ c.naming.hasGround = false := by
  have other : missingGround ∉ c.naming.warnings := by
    rw [Naming.warnings_eq]
    intro member
    obtain ⟨l, _, same⟩ := List.mem_map.1 member
    exact Naming.clashWarning_ne_missingGround l same
  rw [warnings, List.mem_append, or_iff_right other]
  split
  next found => simp [found]
  next absent => simp [Bool.eq_false_iff.2 absent]

namespace RuleCheck

def Reports (r : RuleCheck) (code : String) : Prop :=
  ∃ i ∈ r.errors ++ r.warnings, i.code = code

theorem code_eq_missingGround_iff {i : Issue} : i.code = "erc:missing-ground" ↔ i = .missingGround := by
  cases i <;> simp [Issue.code]

theorem eq_unconnectedPin_of_dangling? {ν : Type} {d : Drawing} {n : Net ν} {i : Issue}
    (found : dangling? d n = some i) : ∃ t, n.terminals = [t] ∧ d.groundsTerminal t = false ∧
      i = .unconnectedPin t.component t.pin := by
  unfold dangling? at found
  split at found
  next t only =>
    split at found
    next => cases found
    next free => exact ⟨t, only, Bool.eq_false_iff.2 free, (Option.some.inj found).symm⟩
  next => cases found

theorem reports_missingGround_iff {ν : Type} {d : Drawing} {nets : List (Net ν)} :
    (ofNets d nets).Reports "erc:missing-ground" ↔ ∀ n ∈ nets, d.grounds n = false := by
  simp only [Reports, code_eq_missingGround_iff, exists_eq_right, List.mem_append]
  have warned : Issue.missingGround ∉ (ofNets d nets).warnings := by
    intro member
    obtain ⟨n, _, found⟩ := List.mem_filterMap.1 member
    obtain ⟨t, _, _, same⟩ := eq_unconnectedPin_of_dangling? found
    cases same
  rw [or_iff_left warned]
  simp [ofNets]

end RuleCheck

namespace Drawing

variable {d : Drawing}

theorem check_eq_ok {ν : Type} {nets : List (Net ν)} {r : RuleCheck} :
    d.check nets = .ok r ↔ d.checkIds = .ok () ∧ r = .ofNets d nets := by
  unfold check
  rw [Fault.bind_eq_ok]
  constructor
  · rintro ⟨_, checked, rest⟩
    exact ⟨checked, (Fault.pure_eq_ok.1 rest).symm⟩
  · rintro ⟨checked, rfl⟩
    exact ⟨(), checked, rfl⟩

/-- The compiler warns that ground is missing just when the rule check reports it, which is when no
pin of any net is a ground pin. -/
theorem warns_iff_reports_missingGround (built : d.Built) (title : String) :
    ∃ nets c r, d.nets = .ok nets ∧ d.compile title = .ok c ∧ d.check nets = .ok r ∧
      (Compilation.missingGround ∈ c.warnings ↔ r.Reports "erc:missing-ground") ∧
      (r.Reports "erc:missing-ground" ↔
        ∀ n ∈ nets, ∀ t ∈ n.terminals, d.groundsTerminal t = false) := by
  obtain ⟨c, compiled⟩ := built.exists_compile built.isPlaced title
  have compiles := compilesTo_of_compile compiled
  refine ⟨c.nets, c, .ofNets d c.nets, compiles.nets, compiled,
    check_eq_ok.2 ⟨built.checkIds, rfl⟩, ?_, ?_⟩
  · rw [Compilation.missingGround_mem_warnings_iff, RuleCheck.reports_missingGround_iff,
      ← Bool.not_eq_true, hasGround_iff compiles.nets compiles.naming]
    simp
  · simp only [RuleCheck.reports_missingGround_iff, grounds_eq_false_iff]

/-- A resistor with a rejected label that spells the name of ground. -/
def groundLabel : Drawing :=
  .ofParts [
      ⟨"R1", "R", "1k", [("1", ⟨.lit 0 0, .lit 0 0⟩), ("2", ⟨.lit 20 0, .lit 0 0⟩)]⟩,
      ⟨"0", "NET", "", [("1", ⟨.lit 20 0, .lit 0 0⟩)]⟩] []

theorem warns_iff_reports_missingGround_groundLabel :
    groundLabel.Built ∧ ∃ nets c r, groundLabel.nets = .ok nets ∧ groundLabel.compile "" = .ok c ∧
      groundLabel.check nets = .ok r ∧ Compilation.missingGround ∈ c.warnings ∧
      r.Reports "erc:missing-ground" ∧
      ∀ n ∈ nets, ∀ t ∈ n.terminals, groundLabel.groundsTerminal t = false := by
  have built : groundLabel.Built := built_ofParts (by decide +kernel) (by decide)
  obtain ⟨nets, c, r, found, compiled, checked, warns, reports⟩ :=
    warns_iff_reports_missingGround built ""
  have free : ∀ n ∈ nets, ∀ t ∈ n.terminals, groundLabel.groundsTerminal t = false := by
    rw [(nets_eq_ok.1 found).2]
    decide +kernel
  have reported := reports.2 free
  exact ⟨built, nets, c, r, found, compiled, checked, warns.2 reported, reported, free⟩

end Drawing

end Schematic
