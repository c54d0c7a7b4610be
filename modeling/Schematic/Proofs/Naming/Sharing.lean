import Schematic.Proofs.Naming.Collisions
/-!
Names without complaints: when no label is rejected and none is the default name of another net, two
nets share a name just when both are grounded or both carry one label.
-/

namespace Schematic

namespace Naming

variable {ν : Type} {d : Drawing} {ordered : List (Net ν)} {n : Net ν} {i : Nat} {a k : String}

theorem labelled_of_carries (carries : d.Carries n k) :
    ∃ l, d.verdict n = .labelled l ∧ l.key = k := by
  cases found : d.labels n with
  | nil => exact absurd found carries.labels_ne_nil
  | cons l labels =>
      have key : l.key = k := carries.key_eq l (by simp [found])
      refine ⟨l, Drawing.verdict_eq_labelled_iff.2 ⟨carries.free, by simp [found], ?_, ?_⟩, key⟩
      · intro m member
        rw [carries.key_eq m member, key]
      · rw [key]
        exact carries.unreserved

theorem carries_of_mem_labels (accepted : (d.verdict n).error? = none) (free : d.grounds n = false)
    {l : Label} (member : l ∈ d.labels n) : d.Carries n l.key := by
  cases verdict : d.verdict n with
  | ground =>
      rw [Drawing.verdict_eq_ground_iff, free] at verdict
      cases verdict
  | plain =>
      rw [Drawing.verdict, if_neg (Bool.eq_false_iff.1 free)] at verdict
      rw [Verdict.ofLabels_eq_plain verdict] at member
      cases member
  | labelled l' =>
      have carries := carries_of_labelled verdict
      rw [carries.key_eq l member]
      exact carries
  | rejected error =>
      rw [verdict] at accepted
      cases accepted

theorem Origin.eq_groundName (origin : Origin d ordered i n a) (grounded : d.grounds n = true) :
    a = groundName := by
  cases origin with
  | ground => rfl
  | number free =>
      rw [grounded] at free
      cases free
  | label labelled =>
      have free := (carries_of_labelled labelled).free
      rw [grounded] at free
      cases free

theorem Origin.eq_groundName_iff (origin : Origin d ordered i n a) :
    a = groundName ↔ d.grounds n = true := by
  refine ⟨fun same => ?_, origin.eq_groundName⟩
  cases origin with
  | ground grounded => exact grounded
  | number => exact absurd (congrArg Text.lower same) (lower_defaultName_ne_ground _)
  | label _ leads => exact absurd same (text_ne_groundName leads)

theorem Origin.exists_leader (origin : Origin d ordered i n a) (carries : d.Carries n k) :
    ∃ o, leader? (claims ordered (ordered.map d.verdict)) k = some o ∧ a = o.2.text := by
  obtain ⟨l, verdict, rfl⟩ := labelled_of_carries carries
  cases origin with
  | ground grounded =>
      rw [carries.free] at grounded
      cases grounded
  | number _ unlabelled =>
      rw [verdict] at unlabelled
      cases unlabelled
  | label labelled leads =>
      obtain rfl := Verdict.labelled.inj (labelled.symm.trans verdict)
      exact ⟨_, leads, rfl⟩

end Naming

namespace Drawing

variable {d : Drawing} {nets : List (Net Point)} {naming : Naming}

theorem error?_of_errors_eq_nil (resolved : d.naming nets = .ok naming)
    (accepted : naming.errors = []) {n : Net Point} (netN : n ∈ nets) :
    (d.verdict n).error? = none := by
  obtain ⟨_, rfl⟩ := naming_eq_ok.1 resolved
  refine List.filterMap_eq_nil_iff.1 accepted _ ?_
  exact List.mem_map_of_mem ((sorted_perm nets).mem_iff.2 netN)

theorem get?_eq_groundName_iff (built : d.nets = .ok nets) (resolved : d.naming nets = .ok naming)
    {n : Net Point} (netN : n ∈ nets) :
    naming.names.get? n.id = some groundName ↔ d.grounds n = true := by
  obtain ⟨i, a, _, named, origin⟩ := exists_origin_of_naming built resolved netN
  rw [named, Option.some.injEq]
  exact origin.eq_groundName_iff

/-- When no label is the default name of another net, names that agree up to case are those of one
net, of grounded nets, and of nets that carry one label. -/
theorem same_name_iff_carries (built : d.nets = .ok nets) (resolved : d.naming nets = .ok naming)
    (apart : naming.clashes = []) {m n : Net Point} (netM : m ∈ nets) (netN : n ∈ nets)
    {a b : String} (namedM : naming.names.get? m.id = some a)
    (namedN : naming.names.get? n.id = some b) :
    Text.lower a = Text.lower b ↔
      m = n ∨ (d.grounds m = true ∧ d.grounds n = true) ∨
        ∃ k, d.Carries m k ∧ d.Carries n k := by
  obtain ⟨i, a', _, namedI, originA⟩ := exists_origin_of_naming built resolved netM
  obtain ⟨j, b', _, namedJ, originB⟩ := exists_origin_of_naming built resolved netN
  obtain rfl := Option.some.inj (namedM.symm.trans namedI)
  obtain rfl := Option.some.inj (namedN.symm.trans namedJ)
  constructor
  · intro same
    refine or_iff_not_imp_left.2 fun other => ?_
    rcases sharing_of_naming built resolved netM netN other namedM namedN same with
      grounded | carried | ⟨l, clash, _⟩
    · exact .inl grounded
    · exact .inr carried
    · rw [apart] at clash
      cases clash
  · rintro (rfl | ⟨groundedM, groundedN⟩ | ⟨k, carriesM, carriesN⟩)
    · rw [Option.some.inj (namedM.symm.trans namedN)]
    · rw [originA.eq_groundName groundedM, originB.eq_groundName groundedN]
    · obtain ⟨o, leads, rfl⟩ := originA.exists_leader carriesM
      obtain ⟨o', leads', rfl⟩ := originB.exists_leader carriesN
      rw [Option.some.inj (leads.symm.trans leads')]

theorem carries_iff (resolved : d.naming nets = .ok naming) (accepted : naming.errors = [])
    {n : Net Point} (netN : n ∈ nets) {k : String} :
    d.Carries n k ↔ d.grounds n = false ∧ ∃ l ∈ d.labels n, l.key = k := by
  constructor
  · intro carries
    obtain ⟨l, member⟩ := List.exists_mem_of_ne_nil _ carries.labels_ne_nil
    exact ⟨carries.free, l, member, carries.key_eq l member⟩
  · rintro ⟨free, l, member, rfl⟩
    exact Naming.carries_of_mem_labels (error?_of_errors_eq_nil resolved accepted netN) free member

theorem same_name_iff (built : d.nets = .ok nets) (resolved : d.naming nets = .ok naming)
    (accepted : naming.errors = []) (apart : naming.clashes = []) {m n : Net Point}
    (netM : m ∈ nets) (netN : n ∈ nets) {a b : String}
    (namedM : naming.names.get? m.id = some a) (namedN : naming.names.get? n.id = some b) :
    Text.lower a = Text.lower b ↔
      m = n ∨ (d.grounds m = true ∧ d.grounds n = true) ∨
        (d.grounds m = false ∧ d.grounds n = false ∧
          ∃ k, (∃ l ∈ d.labels m, l.key = k) ∧ ∃ l ∈ d.labels n, l.key = k) := by
  rw [same_name_iff_carries built resolved apart netM netN namedM namedN]
  simp only [carries_iff resolved accepted netM, carries_iff resolved accepted netN]
  refine or_congr_right (or_congr_right ?_)
  constructor
  · rintro ⟨k, ⟨freeM, labelM⟩, freeN, labelN⟩
    exact ⟨freeM, freeN, k, labelM, labelN⟩
  · rintro ⟨freeM, freeN, k, labelM, labelN⟩
    exact ⟨k, ⟨freeM, labelM⟩, freeN, labelN⟩

end Drawing

end Schematic
