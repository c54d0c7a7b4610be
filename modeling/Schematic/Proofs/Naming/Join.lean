import Schematic.Proofs.DisjointSets
import Schematic.Proofs.Naming.Labels
/-!
Nets that claim labels: every net that claims a label is named by the first claim of its key.
-/

namespace Schematic

namespace Naming

abbrev Claim := (String × Nat) × Label

def leader? (cs : List Claim) (k : String) : Option Claim :=
  cs.find? (·.2.key == k)

theorem leader?_concat (cs : List Claim) (c : Claim) (k : String) :
    leader? (cs ++ [c]) k = (leader? cs k).or (if c.2.key == k then some c else none) := by
  rw [leader?, List.find?_append, List.find?_singleton]
  rfl

theorem exists_leader? {cs : List Claim} {c : Claim} (member : c ∈ cs) :
    ∃ o, leader? cs c.2.key = some o :=
  Option.isSome_iff_exists.1 (List.find?_isSome.2 ⟨c, member, beq_self_eq_true c.2.key⟩)

theorem mem_of_leader? {cs : List Claim} {k : String} {o : Claim} (leads : leader? cs k = some o) :
    o ∈ cs ∧ o.2.key = k :=
  ⟨List.mem_of_find?_eq_some leads,
    eq_of_beq (List.find?_some (p := fun c : Claim => c.2.key == k) leads)⟩

theorem leader?_concat_of_mem {cs : List Claim} (c : Claim) {c' : Claim} (member : c' ∈ cs) :
    leader? (cs ++ [c]) c'.2.key = leader? cs c'.2.key := by
  obtain ⟨o, leads⟩ := exists_leader? member
  rw [leader?_concat, leads, Option.some_or]

structure Distinct (cs : List Claim) (count : Nat) : Prop where
  ids : (cs.map (·.1.1)).Nodup
  positions : (cs.map (·.1.2)).Nodup
  bounded : ∀ c ∈ cs, c.1.2 < count

theorem Distinct.of_concat {cs : List Claim} {c : Claim} {count : Nat}
    (distinct : Distinct (cs ++ [c]) count) :
    Distinct cs count ∧ c.1.2 < count ∧ (∀ c' ∈ cs, c'.1.1 ≠ c.1.1) ∧
      ∀ c' ∈ cs, c'.1.2 ≠ c.1.2 := by
  obtain ⟨ids, positions, bounded⟩ := distinct
  rw [List.map_append, List.nodup_append] at ids positions
  refine ⟨⟨ids.1, positions.1, fun c' member => bounded c' (List.mem_append_left _ member)⟩,
    bounded c (by simp), ?_, ?_⟩
  · exact fun c' member => ids.2.2 _ (List.mem_map_of_mem member) _ (by simp)
  · exact fun c' member => positions.2.2 _ (List.mem_map_of_mem member) _ (by simp)

structure Joins (names : Entries String String) (count : Nat) (cs : List Claim) (j : Joined) :
    Prop where
  forest : j.classes.IsForest
  size : j.classes.size = count
  claimed : ∀ c ∈ cs, ∀ o, leader? cs c.2.key = some o → j.classes.rep c.1.2 = o.1.2
  unclaimed : ∀ i, (∀ c ∈ cs, c.1.2 ≠ i) → j.classes.rep i = i
  first : ∀ k, j.first.get? k = (leader? cs k).map (·.1.2)
  spelling : j.spelling = (firstsBy (·.2.key) cs).map fun c => (c.1.2, c.2.text)
  named : ∀ c ∈ cs, ∀ o, leader? cs c.2.key = some o → j.names.get? c.1.1 = some o.2.text
  others : ∀ id, (∀ c ∈ cs, c.1.1 ≠ id) → j.names.get? id = names.get? id

variable {names : Entries String String} {count : Nat} {cs : List Claim} {j : Joined} {c : Claim}

theorem joins_nil (names : Entries String String) (count : Nat) :
    Joins names count [] ⟨.ofSize count, [], [], names⟩ where
  forest := DisjointSets.isForest_ofSize count
  size := DisjointSets.size_ofSize count
  claimed := by simp
  unclaimed := by simp
  first := fun _ => rfl
  spelling := rfl
  named := by simp
  others := fun _ _ => rfl

theorem Joins.spelling_get? (joins : Joins names count cs j) (distinct : Distinct cs count)
    {k : String} {o : Claim} (leads : leader? cs k = some o) :
    j.spelling.get? o.1.2 = some o.2.text := by
  obtain ⟨_, rfl⟩ := mem_of_leader? leads
  have kept : o ∈ firstsBy (·.2.key) cs := (mem_firstsBy _).2 leads
  rw [joins.spelling]
  apply Entries.get?_eq_some_of_mem
  · rw [List.map_map]
    have sub : (firstsBy (·.2.key) cs).Sublist cs := firstsBy_sublist _ cs
    exact distinct.positions.sublist (sub.map (·.1.2))
  · exact List.mem_map_of_mem (f := fun c : Claim => (c.1.2, c.2.text)) kept

theorem Joins.named_put (joins : Joins names count cs j) (distinct : Distinct (cs ++ [c]) count)
    {o : Claim} (leads : leader? (cs ++ [c]) c.2.key = some o) :
    ∀ c' ∈ cs ++ [c], ∀ o', leader? (cs ++ [c]) c'.2.key = some o' →
      (j.names.put c.1.1 o.2.text).get? c'.1.1 = some o'.2.text := by
  intro c' member o' leads'
  rcases List.mem_append.1 member with old | new
  · have other := distinct.of_concat.2.2.1 c' old
    rw [leader?_concat_of_mem c old] at leads'
    rw [Entries.get?_put_of_ne other]
    exact joins.named c' old o' leads'
  · obtain rfl := List.mem_singleton.1 new
    obtain rfl := Option.some.inj (leads.symm.trans leads')
    exact Entries.get?_put_self _ _ _

theorem Joins.others_put (joins : Joins names count cs j) (text : String) {id : String}
    (other : ∀ c' ∈ cs ++ [c], c'.1.1 ≠ id) :
    (j.names.put c.1.1 text).get? id = names.get? id := by
  rw [Entries.get?_put_of_ne (other c (by simp)).symm]
  exact joins.others id fun c' member => other c' (List.mem_append_left _ member)

theorem enter_of_first_eq_none {l : Label} (new : j.first.get? l.key = none) (position : Nat) :
    enter j position l =
      { j with first := j.first.put l.key position, spelling := j.spelling.put position l.text } := by
  rw [enter, new]

theorem enter_of_first_eq_some {l : Label} {owner : Nat} (known : j.first.get? l.key = some owner)
    (position : Nat) :
    enter j position l = { j with classes := (j.classes.union owner position).2 } := by
  rw [enter, known]

theorem claim_of_get?_eq_some {position : Nat} {l : Label} {text : String}
    (found : (enter j position l).spelling.get? ((enter j position l).classes.rep position) =
      some text) (id : String) :
    claim j id position l =
      { enter j position l with
        classes := ((enter j position l).classes.find position).2
        names := (enter j position l).names.put id text } := by
  rw [DisjointSets.rep] at found
  simp only [claim, found]

/-- Every claim finds the label of its class: that of the first claim of its key. -/
theorem Joins.get?_enter (joins : Joins names count cs j) (distinct : Distinct (cs ++ [c]) count)
    {o : Claim} (leads : leader? (cs ++ [c]) c.2.key = some o) :
    (enter j c.1.2 c.2).spelling.get? ((enter j c.1.2 c.2).classes.rep c.1.2) = some o.2.text := by
  obtain ⟨before, below, _, otherPosition⟩ := distinct.of_concat
  have free : j.classes.rep c.1.2 = c.1.2 := joins.unclaimed c.1.2 otherPosition
  rw [leader?_concat, if_pos (beq_self_eq_true c.2.key)] at leads
  cases known : leader? cs c.2.key with
  | none =>
      rw [known, Option.none_or] at leads
      obtain rfl := Option.some.inj leads
      have first : j.first.get? c.2.key = none := by rw [joins.first, known]; rfl
      rw [enter_of_first_eq_none first, free]
      exact Entries.get?_put_self _ _ _
  | some o' =>
      rw [known, Option.some_or] at leads
      obtain rfl := Option.some.inj leads
      obtain ⟨led, sameKey⟩ := mem_of_leader? known
      have first : j.first.get? c.2.key = some o'.1.2 := by rw [joins.first, known]; rfl
      have owner : j.classes.rep o'.1.2 = o'.1.2 := joins.claimed o' led o' (sameKey ▸ known)
      have united := (joins.forest.union_spec
        (joins.size ▸ before.bounded o' led) (joins.size ▸ below)).2
      rw [enter_of_first_eq_some first, united, if_pos rfl, owner]
      exact joins.spelling_get? before known

theorem Joins.claim_new (joins : Joins names count cs j)
    (distinct : Distinct (cs ++ [c]) count) (new : leader? cs c.2.key = none) :
    Joins names count (cs ++ [c]) (claim j c.1.1 c.1.2 c.2) := by
  obtain ⟨_, _, _, otherPosition⟩ := distinct.of_concat
  have first : j.first.get? c.2.key = none := by rw [joins.first, new]; rfl
  have leads : leader? (cs ++ [c]) c.2.key = some c := by simp [leader?_concat, new]
  have free : j.classes.rep c.1.2 = c.1.2 := joins.unclaimed c.1.2 otherPosition
  rw [claim_of_get?_eq_some (joins.get?_enter distinct leads), enter_of_first_eq_none first]
  have rep := joins.forest.rep_find c.1.2
  refine ⟨joins.forest.find _, (DisjointSets.size_find _ _).trans joins.size, ?_, ?_, ?_, ?_,
    joins.named_put distinct leads, fun id => joins.others_put c.2.text⟩
  · intro c' member o' leads'
    rw [rep]
    rcases List.mem_append.1 member with old | single
    · rw [leader?_concat_of_mem c old] at leads'
      exact joins.claimed c' old o' leads'
    · obtain rfl := List.mem_singleton.1 single
      obtain rfl := Option.some.inj (leads.symm.trans leads')
      exact free
  · intro i unclaimed
    rw [rep]
    exact joins.unclaimed i fun c' member => unclaimed c' (List.mem_append_left _ member)
  · intro k
    rw [Entries.get?_put (Entries.isExact k), joins.first, leader?_concat]
    by_cases same : c.2.key = k
    · rw [← same, if_pos (beq_self_eq_true _), if_pos (beq_self_eq_true _), new]
      rfl
    · rw [if_neg fun h => same (eq_of_beq h), if_neg fun h => same (eq_of_beq h), Option.or_none]
  · have fresh : j.spelling.get? c.1.2 = none := by
      apply Entries.get?_eq_none_of_not_mem
      rw [joins.spelling, List.map_map]
      intro present
      obtain ⟨c', kept, same⟩ := List.mem_map.1 present
      exact otherPosition c' ((firstsBy_sublist _ cs).subset kept) same
    dsimp only
    rw [Entries.put_eq_append_of_get?_eq_none fresh, joins.spelling,
      firstsBy_of_new (fun c : Claim => c.2.key) new, List.map_append, List.map_singleton]

theorem Joins.claim_known (joins : Joins names count cs j)
    (distinct : Distinct (cs ++ [c]) count) {o : Claim} (known : leader? cs c.2.key = some o) :
    Joins names count (cs ++ [c]) (claim j c.1.1 c.1.2 c.2) := by
  obtain ⟨before, below, _, otherPosition⟩ := distinct.of_concat
  obtain ⟨led, sameKey⟩ := mem_of_leader? known
  have first : j.first.get? c.2.key = some o.1.2 := by rw [joins.first, known]; rfl
  have leads : leader? (cs ++ [c]) c.2.key = some o := by simp [leader?_concat, known]
  have free : j.classes.rep c.1.2 = c.1.2 := joins.unclaimed c.1.2 otherPosition
  have owner : j.classes.rep o.1.2 = o.1.2 := joins.claimed o led o (sameKey ▸ known)
  obtain ⟨forest, united⟩ := joins.forest.union_spec
    (joins.size ▸ before.bounded o led) (joins.size ▸ below)
  have rep := fun i => (forest.rep_find c.1.2 i).trans (united i)
  rw [free, owner] at rep
  rw [claim_of_get?_eq_some (joins.get?_enter distinct leads), enter_of_first_eq_some first]
  refine ⟨forest.find _, ?_, ?_, ?_, ?_, ?_,
    joins.named_put distinct leads, fun id => joins.others_put o.2.text⟩
  · simpa using joins.size
  · intro c' member o' leads'
    rw [rep]
    rcases List.mem_append.1 member with old | single
    · rw [leader?_concat_of_mem c old] at leads'
      have led' := (mem_of_leader? leads').1
      rw [joins.claimed c' old o' leads', if_neg (otherPosition o' led')]
    · obtain rfl := List.mem_singleton.1 single
      obtain rfl := Option.some.inj (leads.symm.trans leads')
      rw [if_pos free]
  · intro i unclaimed
    have old := joins.unclaimed i fun c' member => unclaimed c' (List.mem_append_left _ member)
    rw [rep, old, if_neg (unclaimed c (by simp)).symm]
  · intro k
    rw [joins.first, leader?_concat]
    by_cases same : c.2.key = k
    · rw [← same, known, Option.some_or]
    · rw [if_neg fun h => same (eq_of_beq h), Option.or_none]
  · rw [joins.spelling, firstsBy_of_known (fun c : Claim => c.2.key) known]

theorem joins_join (names : Entries String String) {cs : List Claim} {count : Nat}
    (distinct : Distinct cs count) : Joins names count cs (join names cs count) := by
  -- From the end: a further claim changes no leader of those before it.
  induction cs using List.reverseRecOn with
  | nil => exact joins_nil names count
  | append_singleton cs c ih =>
      have joins := ih distinct.of_concat.1
      rw [join, List.foldl_append]
      change Joins names count (cs ++ [c]) (claim (join names cs count) c.1.1 c.1.2 c.2)
      cases leads : leader? cs c.2.key with
      | none => exact joins.claim_new distinct leads
      | some o => exact joins.claim_known distinct leads

end Naming

end Schematic
