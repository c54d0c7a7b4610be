import Schematic.Proofs.Naming.Join
/-!
The names of nets in drawing order: ground nets are `0`, a labelled net has the spelling of the first
label of its key, and the others are numbered among the nets that are not grounded.
-/

namespace Schematic

namespace Naming

variable {ν : Type} {d : Drawing} {ordered : List (Net ν)}

def ordinal (d : Drawing) (ordered : List (Net ν)) (i : Nat) : Nat :=
  (ordered.take i).countP (!d.grounds ·) + 1

theorem ordinal_lt {i j : Nat} (less : i < j) {n : Net ν} (found : ordered[i]? = some n)
    (free : d.grounds n = false) : ordinal d ordered i < ordinal d ordered j := by
  have upTo : ordered.take (i + 1) = ordered.take i ++ [n] := by
    rw [List.take_add_one, found]
    rfl
  have counted : (ordered.take (i + 1)).countP (!d.grounds ·) =
      (ordered.take i).countP (!d.grounds ·) + 1 := by
    rw [upTo, List.countP_append, List.countP_singleton, free]
    rfl
  have sub : (ordered.take (i + 1)).Sublist (ordered.take j) :=
    (List.take_prefix_take_left less).sublist
  have le := sub.countP_le (p := (!d.grounds ·))
  unfold ordinal
  omega

theorem ordinal_inj {i j : Nat} {m n : Net ν} (foundI : ordered[i]? = some m)
    (foundJ : ordered[j]? = some n) (freeI : d.grounds m = false) (freeJ : d.grounds n = false)
    (same : ordinal d ordered i = ordinal d ordered j) : i = j := by
  rcases Nat.lt_trichotomy i j with less | equal | greater
  · exact absurd same (Nat.ne_of_lt (ordinal_lt less foundI freeI))
  · exact equal
  · exact absurd same (Nat.ne_of_gt (ordinal_lt greater foundJ freeJ))

theorem getElem?_defaultNames (ordered : List (Net ν)) (k i : Nat) :
    (defaultNames k (ordered.map d.verdict))[i]? = ordered[i]?.map fun n =>
      if d.grounds n then groundName
      else defaultName (k + (ordered.take i).countP (!d.grounds ·)) := by
  induction ordered generalizing k i with
  | nil => rfl
  | cons n ordered ih =>
      by_cases grounded : d.grounds n = true
      · have verdict := Drawing.verdict_eq_ground_iff.2 grounded
        rw [List.map_cons, verdict, defaultNames]
        cases i with
        | zero => simp [grounded]
        | succ i =>
            rw [List.getElem?_cons_succ, List.getElem?_cons_succ, ih, List.take_succ_cons,
              List.countP_cons_of_neg (by simp [grounded])]
      · have verdict := fun h => grounded (Drawing.verdict_eq_ground_iff.1 h)
        have step : defaultNames k (d.verdict n :: ordered.map d.verdict) =
            defaultName k :: defaultNames (k + 1) (ordered.map d.verdict) := by
          cases v : d.verdict n with
          | ground => exact absurd v verdict
          | plain => rfl
          | labelled l => rfl
          | rejected error => rfl
        rw [List.map_cons, step]
        cases i with
        | zero => simp [grounded]
        | succ i =>
            rw [List.getElem?_cons_succ, List.getElem?_cons_succ, ih, List.take_succ_cons,
              List.countP_cons_of_pos (by simp [grounded])]
            simp only [Nat.add_assoc, Nat.add_comm 1]

def initialNames (d : Drawing) (ordered : List (Net ν)) : Entries String String :=
  ((ordered.map (·.id)).zip (defaultNames 1 (ordered.map d.verdict))).foldl
    (fun es e => Entries.put es e.1 e.2) []

theorem length_defaultNames (k : Nat) (vs : List Verdict) : (defaultNames k vs).length = vs.length := by
  induction vs generalizing k with
  | nil => rfl
  | cons v vs ih =>
      cases v <;> simp [defaultNames, ih]

theorem get?_initialNames (nodup : (ordered.map (·.id)).Nodup) {i : Nat} {n : Net ν}
    (found : ordered[i]? = some n) :
    (initialNames d ordered).get? n.id =
      some (if d.grounds n then groundName else defaultName (ordinal d ordered i)) := by
  apply Entries.get?_foldl_put_of_mem
  · rw [List.map_fst_zip (by simp [length_defaultNames])]
    exact nodup
  · refine List.mem_of_getElem? (i := i) ?_
    rw [List.getElem?_zip_eq_some, List.getElem?_map, getElem?_defaultNames, found, ordinal,
      Nat.add_comm 1]
    exact ⟨rfl, rfl⟩

theorem claims_eq (d : Drawing) (ordered : List (Net ν)) :
    claims ordered (ordered.map d.verdict) = ordered.zipIdx.filterMap fun e =>
      (d.verdict e.1).label?.map fun l => ((e.1.id, e.2), l) := by
  have rows : (ordered.mapIdx fun i n => (n.id, i)).zip (ordered.map d.verdict) =
      ordered.zipIdx.map fun e => ((e.1.id, e.2), d.verdict e.1) := by
    apply List.ext_getElem
    · simp
    · intro i _ _
      simp
  rw [claims, rows, List.filterMap_map]
  rfl

theorem label?_eq_some_iff {v : Verdict} {l : Label} : v.label? = some l ↔ v = .labelled l := by
  cases v <;> simp [Verdict.label?]

theorem mem_claims {c : Claim} :
    c ∈ claims ordered (ordered.map d.verdict) ↔
      ∃ n, ordered[c.1.2]? = some n ∧ n.id = c.1.1 ∧ d.verdict n = .labelled c.2 := by
  rw [claims_eq, List.mem_filterMap]
  constructor
  · rintro ⟨⟨n, i⟩, member, made⟩
    obtain ⟨l, verdict, rfl⟩ := Option.map_eq_some_iff.1 made
    exact ⟨n, List.mem_zipIdx_iff_getElem?.1 member, rfl, label?_eq_some_iff.1 verdict⟩
  · rintro ⟨n, found, named, verdict⟩
    refine ⟨(n, c.1.2), List.mem_zipIdx_iff_getElem?.2 found, ?_⟩
    rw [label?_eq_some_iff.2 verdict, Option.map_some, named]

theorem pairwise_claims (d : Drawing) (ordered : List (Net ν)) :
    (claims ordered (ordered.map d.verdict)).Pairwise fun c c' => c.1.2 < c'.1.2 := by
  have positions : ordered.zipIdx.Pairwise fun a b => a.2 < b.2 := by
    rw [← List.pairwise_map (f := fun e : Net ν × Nat => e.2), List.zipIdx_map_snd]
    exact List.pairwise_lt_range'
  rw [claims_eq, List.pairwise_filterMap]
  refine positions.imp fun less c made c' made' => ?_
  obtain ⟨_, _, rfl⟩ := Option.map_eq_some_iff.1 made
  obtain ⟨_, _, rfl⟩ := Option.map_eq_some_iff.1 made'
  exact less

theorem distinct_claims (nodup : (ordered.map (·.id)).Nodup) :
    Distinct (claims ordered (ordered.map d.verdict)) ordered.length := by
  have ids : ordered.zipIdx.Pairwise fun a b => a.1.id ≠ b.1.id := by
    rw [← List.pairwise_map (f := fun e : Net ν × Nat => e.1) (R := fun m n => m.id ≠ n.id),
      List.zipIdx_map_fst]
    exact List.pairwise_map.1 nodup
  refine ⟨?_, ?_, ?_⟩
  · rw [claims_eq, List.Nodup, List.pairwise_map, List.pairwise_filterMap]
    refine ids.imp fun other c made c' made' => ?_
    obtain ⟨_, _, rfl⟩ := Option.map_eq_some_iff.1 made
    obtain ⟨_, _, rfl⟩ := Option.map_eq_some_iff.1 made'
    exact other
  · exact List.pairwise_map.2 ((pairwise_claims d ordered).imp Nat.ne_of_lt)
  · intro c member
    obtain ⟨n, found, _⟩ := mem_claims.1 member
    exact (List.getElem?_eq_some_iff.1 found).1

theorem joins_ofOrdered (nodup : (ordered.map (·.id)).Nodup) :
    Joins (initialNames d ordered) ordered.length (claims ordered (ordered.map d.verdict))
      (join (initialNames d ordered) (claims ordered (ordered.map d.verdict)) ordered.length) :=
  joins_join _ (distinct_claims nodup)

theorem names_ofOrdered (d : Drawing) (ordered : List (Net ν)) :
    (ofOrdered d ordered).names =
      (join (initialNames d ordered) (claims ordered (ordered.map d.verdict))
        ordered.length).names :=
  rfl

theorem get?_names_of_unlabelled (nodup : (ordered.map (·.id)).Nodup) {i : Nat} {n : Net ν}
    (found : ordered[i]? = some n) (unlabelled : (d.verdict n).label? = none) :
    (ofOrdered d ordered).names.get? n.id =
      some (if d.grounds n then groundName else defaultName (ordinal d ordered i)) := by
  rw [names_ofOrdered, (joins_ofOrdered nodup).others]
  · exact get?_initialNames nodup found
  · intro c member same
    obtain ⟨m, found', named, verdict⟩ := mem_claims.1 member
    have inRange := (List.getElem?_eq_some_iff.1 found).1
    have inRange' := (List.getElem?_eq_some_iff.1 found').1
    have sameId : (ordered.map (·.id))[c.1.2]? = (ordered.map (·.id))[i]? := by
      rw [List.getElem?_map, List.getElem?_map, found, found', Option.map_some, Option.map_some,
        named, same]
    have index := (List.getElem?_inj (by simpa using inRange') nodup).1 sameId
    rw [index, found] at found'
    rw [Option.some.inj found', label?_eq_some_iff.2 verdict] at unlabelled
    cases unlabelled

theorem get?_names_of_labelled (nodup : (ordered.map (·.id)).Nodup) {i : Nat} {n : Net ν}
    {l : Label} (found : ordered[i]? = some n) (labelled : d.verdict n = .labelled l) :
    ∃ o, leader? (claims ordered (ordered.map d.verdict)) l.key = some o ∧
      (ofOrdered d ordered).names.get? n.id = some o.2.text := by
  have member : ((n.id, i), l) ∈ claims ordered (ordered.map d.verdict) :=
    mem_claims.2 ⟨n, found, rfl, labelled⟩
  obtain ⟨o, leads⟩ := exists_leader? member
  exact ⟨o, leads, (joins_ofOrdered nodup).named _ member o leads⟩

end Naming

end Schematic
