import Schematic.Proofs.DrawingOrder
import Schematic.Proofs.Naming.Sharing
/-!
All names of a drawing, from what its nets carry in drawing order: a grounded net is `0`, nets that
carry one key have the label of the first of them, and any other net has its number. Labels that
cannot name their net are reported, and each key in use gives one signal.
-/

namespace Schematic

namespace Drawing

variable {ν : Type}

/-- Whether a net is the first that carries a key, with the text of its first label. -/
structure Introduces (d : Drawing) (ordered : List (Net ν)) (i : Nat) (k text : String) : Prop where
  carried : ∃ n, ordered[i]? = some n ∧ d.Carries n k ∧
    (d.labels n).head?.map (·.text) = some text
  first : ∀ j < i, ∀ n, ordered[j]? = some n → ¬ d.Carries n k

/-- Whether the labels of a net that is not grounded cannot name it. -/
structure Disagrees (d : Drawing) (n : Net ν) : Prop where
  free : d.grounds n = false
  clash : (∃ l ∈ d.labels n, l.key ∈ reservedNames) ∨
    ∃ l ∈ d.labels n, ∃ m ∈ d.labels n, l.key ≠ m.key

instance (d : Drawing) (n : Net ν) : Decidable (d.Disagrees n) :=
  decidable_of_iff (d.grounds n = false ∧ ((∃ l ∈ d.labels n, l.key ∈ reservedNames) ∨
    ∃ l ∈ d.labels n, ∃ m ∈ d.labels n, l.key ≠ m.key))
    ⟨fun h => ⟨h.1, h.2⟩, fun h => ⟨h.free, h.clash⟩⟩

/-- What is reported of labels that cannot name a net: the first reserved one, or, if none is
reserved, those that differ. -/
inductive Complaint (labels : List Label) : LabelError → Prop
  | reserved {l} (first : labels.find? (fun l => l.key ∈ reservedNames) = some l) :
      Complaint labels (.reserved l.text)
  | conflict (free : ∀ l ∈ labels, l.key ∉ reservedNames) :
      Complaint labels (.conflict ((firstsBy Label.key labels).map (·.text)))

/-- The names of nets in drawing order, with the errors and the signals. -/
structure HasNames (d : Drawing) (ordered : List (Net ν)) (naming : Naming) : Prop where
  nodup_ids : (ordered.map (·.id)).Nodup
  ids : naming.names.map (·.1) = ordered.map (·.id)
  given : ∀ e ∈ naming.names, e.2 ≠ ""
  grounded : ∀ n ∈ ordered, d.grounds n = true → naming.names.get? n.id = some groundName
  numbered : ∀ i n, ordered[i]? = some n → d.grounds n = false → d.labels n = [] ∨ d.Disagrees n →
    naming.names.get? n.id = some (defaultName (Naming.ordinal d ordered i))
  labelled : ∀ n ∈ ordered, ∀ k, d.Carries n k →
    ∃ i text, d.Introduces ordered i k text ∧ naming.names.get? n.id = some text
  errors : List.Forall₂ (fun n e => Complaint (d.labels n) e)
    (ordered.filter fun n => d.Disagrees n) naming.errors
  signals : ∃ firsts : List Nat, firsts.Pairwise (· < ·) ∧
    (∀ i, i ∈ firsts ↔ ∃ k text, d.Introduces ordered i k text) ∧
    List.Forall₂ (fun i s => ∃ k text, d.Introduces ordered i k text ∧ s = "v(" ++ text ++ ")")
      firsts naming.signals

variable {d : Drawing} {n : Net ν}

theorem complaint_of_rejected {labels : List Label} {e : LabelError}
    (rejected : Verdict.ofLabels labels = .rejected e) : Complaint labels e := by
  simp only [Verdict.ofLabels, Label.distinct_eq] at rejected
  rw [find?_firstsBy Label.key reservedNames.contains] at rejected
  simp only [List.contains_eq_mem] at rejected
  split at rejected
  next l found =>
    cases rejected
    exact .reserved found
  next none =>
    have free : ∀ l ∈ labels, l.key ∉ reservedNames := by
      intro l member
      simpa using List.find?_eq_none.1 none l member
    split at rejected
    all_goals cases rejected
    exact .conflict free

theorem error?_eq_none_iff : (d.verdict n).error? = none ↔ ¬ d.Disagrees n := by
  rw [error?_verdict_eq_none_iff]
  constructor
  · rintro (grounded | ⟨k, unreserved, same⟩) ⟨free, clash⟩
    · rw [free] at grounded
      cases grounded
    · rcases clash with ⟨l, member, reserved⟩ | ⟨l, memberL, m, memberM, other⟩
      · exact unreserved (same l member ▸ reserved)
      · exact other ((same l memberL).trans (same m memberM).symm)
  · intro agrees
    by_cases grounded : d.grounds n = true
    · exact .inl grounded
    · have agree := fun clash => agrees ⟨Bool.eq_false_iff.2 grounded, clash⟩
      refine .inr ?_
      cases found : d.labels n with
      | nil => exact ⟨"", by decide, nofun⟩
      | cons l labels =>
          have listed : l ∈ d.labels n := by simp [found]
          refine ⟨l.key, fun reserved => agree (.inl ⟨l, listed, reserved⟩), fun m member => ?_⟩
          by_contra other
          exact agree (.inr ⟨m, found ▸ member, l, listed, other⟩)

theorem error?_eq_some_iff {v : Verdict} {e : LabelError} :
    v.error? = some e ↔ v = .rejected e := by
  cases v <;> simp [Verdict.error?]

theorem exists_complaint (disagrees : d.Disagrees n) :
    ∃ e, d.verdict n = .rejected e ∧ Complaint (d.labels n) e := by
  cases error : (d.verdict n).error? with
  | none => exact absurd disagrees (error?_eq_none_iff.1 error)
  | some e =>
      have rejected := error?_eq_some_iff.1 error
      refine ⟨e, rejected, complaint_of_rejected ?_⟩
      rwa [Drawing.verdict, if_neg (Bool.eq_false_iff.1 disagrees.free)] at rejected

theorem label?_eq_none (unnamed : d.labels n = [] ∨ d.Disagrees n) :
    (d.verdict n).label? = none := by
  rcases unnamed with blank | disagrees
  · cases label : (d.verdict n).label? with
    | none => rfl
    | some l =>
        have carries := Naming.carries_of_labelled (Naming.label?_eq_some_iff.1 label)
        exact absurd blank carries.labels_ne_nil
  · obtain ⟨e, rejected, _⟩ := exists_complaint disagrees
    rw [rejected]
    rfl

end Drawing

namespace Naming

variable {ν : Type} {d : Drawing} {ordered : List (Net ν)} {k text : String} {i : Nat}

theorem position_le_of_leader? {o c : Claim}
    (leads : leader? (claims ordered (ordered.map d.verdict)) k = some o)
    (member : c ∈ claims ordered (ordered.map d.verdict)) (key : c.2.key = k) :
    o.1.2 ≤ c.1.2 := by
  obtain ⟨_, before, after, split, unlike⟩ := List.find?_eq_some_iff_append.1 leads
  rw [split] at member
  rcases List.mem_append.1 member with early | late
  · have other := unlike c early
    rw [key, beq_self_eq_true] at other
    cases other
  · rcases List.mem_cons.1 late with rfl | later
    · exact Nat.le_refl _
    · have ascending := split ▸ pairwise_claims d ordered
      have behind := (List.pairwise_append.1 ascending).2.1
      exact Nat.le_of_lt ((List.pairwise_cons.1 behind).1 c later)

theorem introduces_iff :
    d.Introduces ordered i k text ↔
      ∃ o, leader? (claims ordered (ordered.map d.verdict)) k = some o ∧
        o.1.2 = i ∧ o.2.text = text := by
  constructor
  · rintro ⟨⟨n, found, carries, head⟩, first⟩
    obtain ⟨l, labelled, rfl⟩ := labelled_of_carries carries
    have member : ((n.id, i), l) ∈ claims ordered (ordered.map d.verdict) :=
      mem_claims.2 ⟨n, found, rfl, labelled⟩
    obtain ⟨o, leads⟩ := exists_leader? member
    obtain ⟨listed, sameKey⟩ := mem_of_leader? leads
    obtain ⟨m, foundM, _, labelledM⟩ := mem_claims.1 listed
    have position : o.1.2 = i := by
      refine Nat.le_antisymm (position_le_of_leader? leads member rfl) (Nat.le_of_not_lt ?_)
      intro less
      exact first o.1.2 less m foundM (sameKey ▸ carries_of_labelled labelledM)
    rw [position, found] at foundM
    obtain rfl := Option.some.inj foundM
    obtain rfl := Verdict.labelled.inj (labelled.symm.trans labelledM)
    rw [(Drawing.verdict_eq_labelled_iff.1 labelled).2.1] at head
    exact ⟨o, leads, position, Option.some.inj head⟩
  · rintro ⟨o, leads, rfl, rfl⟩
    obtain ⟨listed, rfl⟩ := mem_of_leader? leads
    obtain ⟨n, found, _, labelled⟩ := mem_claims.1 listed
    refine ⟨⟨n, found, carries_of_labelled labelled, ?_⟩, fun j less m foundM carries => ?_⟩
    · rw [(Drawing.verdict_eq_labelled_iff.1 labelled).2.1]
      rfl
    · obtain ⟨l, labelledM, sameKey⟩ := labelled_of_carries carries
      have member : ((m.id, j), l) ∈ claims ordered (ordered.map d.verdict) :=
        mem_claims.2 ⟨m, foundM, rfl, labelledM⟩
      exact absurd (position_le_of_leader? leads member sameKey) (Nat.not_le.2 less)

theorem map_fst_claim (j : Joined) {id : String} (present : id ∈ j.names.map (·.1))
    (position : Nat) (l : Label) :
    (claim j id position l).names.map (·.1) = j.names.map (·.1) := by
  have names : (enter j position l).names = j.names := by
    unfold enter
    split <;> rfl
  unfold claim
  dsimp only
  rw [names]
  split
  next => exact Entries.map_fst_put_of_mem present _
  next => rfl

theorem map_fst_join {names : Entries String String} {cs : List Claim}
    (present : ∀ c ∈ cs, c.1.1 ∈ names.map (·.1)) (count : Nat) :
    (join names cs count).names.map (·.1) = names.map (·.1) := by
  -- From the end, as the claims are gone through.
  induction cs using List.reverseRecOn with
  | nil => rfl
  | append_singleton cs c ih =>
      have before := ih fun c' member => present c' (List.mem_append_left _ member)
      rw [join, List.foldl_append]
      exact (map_fst_claim _ (before ▸ present c (by simp)) c.1.2 c.2).trans before

theorem map_fst_names (nodup : (ordered.map (·.id)).Nodup) :
    (ofOrdered d ordered).names.map (·.1) = ordered.map (·.id) := by
  have initial : (initialNames d ordered).map (·.1) = ordered.map (·.id) := by
    have ids : ((ordered.map (·.id)).zip (defaultNames 1 (ordered.map d.verdict))).map (·.1) =
        ordered.map (·.id) := List.map_fst_zip (by simp [length_defaultNames])
    rw [initialNames, Entries.map_fst_foldl_put (by rwa [ids]), ids]
    rfl
  rw [names_ofOrdered, map_fst_join, initial]
  intro c member
  obtain ⟨n, found, named, _⟩ := mem_claims.1 member
  rw [initial, ← named]
  exact List.mem_map_of_mem (List.mem_of_getElem? found)

/-- Whether every claim finds a label at the representative of its class. -/
def FindsLabels (names : Entries String String) (cs : List Claim) (count : Nat) : Prop :=
  ∀ before c after, cs = before ++ c :: after →
    ∃ text, (enter (join names before count) c.1.2 c.2).spelling.get?
      ((enter (join names before count) c.1.2 c.2).classes.find c.1.2).1 = some text

theorem findsLabels (names : Entries String String) {cs : List Claim} {count : Nat}
    (distinct : Distinct cs count) : FindsLabels names cs count := by
  rintro before c after rfl
  -- The label is found already when no claim but these has been made.
  have upTo : Distinct (before ++ [c]) count := by
    have sub : (before ++ [c]).Sublist (before ++ c :: after) :=
      (List.Sublist.refl before).append (List.singleton_sublist.2 List.mem_cons_self)
    exact ⟨distinct.ids.sublist (sub.map _), distinct.positions.sublist (sub.map _),
      fun c' member => distinct.bounded c' (sub.subset member)⟩
  obtain ⟨o, leads⟩ := exists_leader? (List.mem_append_right before (List.mem_singleton_self c))
  exact ⟨_, (joins_join names upTo.of_concat.1).get?_enter upTo leads⟩

theorem forall₂_filter_filterMap {α β : Type} {p : α → Prop} [DecidablePred p] {f : α → Option β}
    {R : α → β → Prop} (passed : ∀ x, ¬ p x → f x = none)
    (taken : ∀ x, p x → ∃ y, f x = some y ∧ R x y) (xs : List α) :
    List.Forall₂ R (xs.filter fun x => p x) (xs.filterMap f) := by
  induction xs with
  | nil => exact .nil
  | cons x xs ih =>
      by_cases holds : p x
      · obtain ⟨y, made, related⟩ := taken x holds
        rw [List.filter_cons, if_pos (decide_eq_true holds), List.filterMap_cons_some made]
        exact .cons related ih
      · rw [List.filter_cons, if_neg (mt of_decide_eq_true holds),
          List.filterMap_cons_none (passed x holds)]
        exact ih

theorem errors_ofOrdered (d : Drawing) (ordered : List (Net ν)) :
    List.Forall₂ (fun n e => Drawing.Complaint (d.labels n) e)
      (ordered.filter fun n => d.Disagrees n) (ofOrdered d ordered).errors := by
  have errors : (ofOrdered d ordered).errors = ordered.filterMap fun n => (d.verdict n).error? :=
    List.filterMap_map
  rw [errors]
  refine forall₂_filter_filterMap (fun n => Drawing.error?_eq_none_iff.2) (fun n disagrees => ?_) _
  obtain ⟨e, rejected, complaint⟩ := Drawing.exists_complaint disagrees
  exact ⟨e, Drawing.error?_eq_some_iff.2 rejected, complaint⟩

theorem signals_ofOrdered (nodup : (ordered.map (·.id)).Nodup) :
    (ofOrdered d ordered).signals =
      (firstsBy (·.2.key) (claims ordered (ordered.map d.verdict))).map
        fun c => "v(" ++ c.2.text ++ ")" := by
  have labels : (ofOrdered d ordered).labels = (join (initialNames d ordered)
      (claims ordered (ordered.map d.verdict)) ordered.length).spelling.map (·.2) := rfl
  rw [signals, labels, (joins_ofOrdered nodup).spelling, List.map_map, List.map_map]
  rfl

theorem exists_firsts (nodup : (ordered.map (·.id)).Nodup) :
    ∃ firsts : List Nat, firsts.Pairwise (· < ·) ∧
      (∀ i, i ∈ firsts ↔ ∃ k text, d.Introduces ordered i k text) ∧
      List.Forall₂ (fun i s => ∃ k text, d.Introduces ordered i k text ∧ s = "v(" ++ text ++ ")")
        firsts (ofOrdered d ordered).signals := by
  refine ⟨(firstsBy (·.2.key) (claims ordered (ordered.map d.verdict))).map (·.1.2), ?_, ?_, ?_⟩
  · exact List.pairwise_map.2 ((pairwise_claims d ordered).sublist (firstsBy_sublist _ _))
  · intro i
    rw [List.mem_map]
    constructor
    · rintro ⟨o, kept, rfl⟩
      exact ⟨o.2.key, o.2.text, introduces_iff.2 ⟨o, (mem_firstsBy _).1 kept, rfl, rfl⟩⟩
    · rintro ⟨k, text, introduces⟩
      obtain ⟨o, leads, position, _⟩ := introduces_iff.1 introduces
      obtain ⟨_, rfl⟩ := mem_of_leader? leads
      exact ⟨o, (mem_firstsBy _).2 leads, position⟩
  · rw [signals_ofOrdered nodup, List.forall₂_map_left_iff, List.forall₂_map_right_iff,
      List.forall₂_same]
    intro o kept
    exact ⟨o.2.key, o.2.text, introduces_iff.2 ⟨o, (mem_firstsBy _).1 kept, rfl, rfl⟩, rfl⟩

theorem hasNames_ofOrdered (nodup : (ordered.map (·.id)).Nodup) :
    d.HasNames ordered (ofOrdered d ordered) where
  nodup_ids := nodup
  ids := map_fst_names nodup
  given := by
    intro e listed
    have nodup' : ((ofOrdered d ordered).names.map (·.1)).Nodup := by
      rwa [map_fst_names nodup]
    have isNet : e.1 ∈ ordered.map (·.id) :=
      map_fst_names nodup ▸ List.mem_map_of_mem (f := (·.1)) listed
    obtain ⟨n, member, sameId⟩ := List.mem_map.1 isNet
    obtain ⟨i, found⟩ := List.getElem?_of_mem member
    obtain ⟨a, named, origin⟩ := exists_origin (d := d) nodup found
    rw [sameId, Entries.get?_eq_some_of_mem nodup' listed] at named
    exact Option.some.inj named ▸ origin.ne_empty
  grounded := by
    intro n member grounded
    obtain ⟨i, found⟩ := List.getElem?_of_mem member
    obtain ⟨a, named, origin⟩ := exists_origin (d := d) nodup found
    rw [named, origin.eq_groundName grounded]
  numbered := by
    intro i n found free unnamed
    rw [get?_names_of_unlabelled nodup found (Drawing.label?_eq_none unnamed), free]
    rfl
  labelled := by
    intro n member k carries
    obtain ⟨i, found⟩ := List.getElem?_of_mem member
    obtain ⟨a, named, origin⟩ := exists_origin (d := d) nodup found
    obtain ⟨o, leads, rfl⟩ := origin.exists_leader carries
    exact ⟨o.1.2, o.2.text, introduces_iff.2 ⟨o, leads, rfl, rfl⟩, named⟩
  errors := errors_ofOrdered d ordered
  signals := exists_firsts nodup

end Naming

namespace Drawing

variable {d : Drawing} {nets : List (Net Point)}

/-- Naming gives every net its name in drawing order, and finds every label that it looks up, unless
an id of a component cannot be looked up. -/
theorem naming_hasNames (built : d.nets = .ok nets) :
    ∃ ordered naming, Net.InDrawingOrder nets ordered ∧ d.HasNames ordered naming ∧
      Naming.FindsLabels (Naming.initialNames d ordered)
        (Naming.claims ordered (ordered.map d.verdict)) ordered.length ∧
      d.naming nets =
        if ∀ c ∈ d.components, c.id.isKey = true then .ok naming else .error .wrongKind := by
  have nodup := nodup_ids_sorted built
  refine ⟨_, _, inDrawingOrder_of_nets built, Naming.hasNames_ofOrdered nodup,
    Naming.findsLabels _ (Naming.distinct_claims nodup), ?_⟩
  rw [naming, checkIds]
  by_cases keys : ∀ c ∈ d.components, c.id.isKey = true
  · rw [if_pos keys, if_pos (List.all_eq_true.2 keys)]
    rfl
  · rw [if_neg keys, if_neg fun all => keys (List.all_eq_true.1 all)]
    rfl

/-- A resistor from ground to a net without labels, and four labelled nets between its ends: two of
one label, one of two labels, and one of a reserved label. -/
def labelledRow : Drawing :=
  let pin := fun (id : String) (x : Nat) =>
    Pin.named (.text id) (.text id) (.float (.lit x 0)) (.float (.lit 0 0))
  let label := fun (text : String) (x : Nat) =>
    ⟨.text text, .text "NET", .text "", [pin "1" x], .text text, .null⟩
  { components := [
      ⟨.text "R1", .text "R", .text "1k", [pin "1" 0, pin "2" 100], .null, .null⟩,
      ⟨.text "G1", .text "GND", .text "", [pin "0" 0], .null, .null⟩,
      label "BUS" 40, label "Bus" 20, label "x" 60, label "y" 60, label "gnd" 80]
    wires := [] }

theorem naming_hasNames_labelledRow :
    ∃ nets ordered naming, labelledRow.nets = .ok nets ∧ Net.InDrawingOrder nets ordered ∧
      labelledRow.HasNames ordered naming ∧
        Naming.FindsLabels (Naming.initialNames labelledRow ordered)
          (Naming.claims ordered (ordered.map labelledRow.verdict)) ordered.length ∧
        labelledRow.naming nets = .ok naming := by
  have placed : labelledRow.IsPlaced := by decide +kernel
  have built := nets_of_placed placed
  obtain ⟨ordered, naming, inOrder, hasNames, finds, resolved⟩ := naming_hasNames built
  rw [if_pos (by decide +kernel)] at resolved
  exact ⟨_, ordered, naming, built, inOrder, hasNames, finds, resolved⟩

end Drawing

end Schematic
