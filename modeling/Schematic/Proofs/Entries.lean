import Schematic.Entries
import Mathlib.Data.List.Induction
import Mathlib.Data.List.Nodup
/-!
Association lists entry by entry, and lists of which only the first element of every key counts.
-/

namespace Schematic

namespace Entries

variable {κ α : Type} [BEq κ]

theorem put_eq_append_of_get?_eq_none {es : Entries κ α} {k : κ} (absent : es.get? k = none)
    (a : α) : es.put k a = es ++ [(k, a)] := by
  induction es with
  | nil => rfl
  | cons e es ih =>
      rw [get?_cons] at absent
      split at absent
      next => cases absent
      next other => rw [put, if_neg other, ih absent, List.cons_append]

/-- A key that equals nothing but itself, from either side. -/
structure IsExact (k : κ) : Prop where
  left : ∀ j, (j == k) = true ↔ j = k
  right : ∀ j, (k == j) = true ↔ j = k

theorem get?_put {k : κ} (only : IsExact k) (es : Entries κ α) (j : κ) (a : α) :
    (es.put j a).get? k = if j == k then some a else es.get? k := by
  induction es with
  | nil => rw [put, get?_cons]
  | cons e es ih =>
      rw [put]
      split
      next met =>
        rw [get?_cons, get?_cons]
        by_cases here : (e.1 == k) = true
        · -- The entry that was met is that of `k`, and `j` is `k`.
          have same : j = k := (only.right j).1 ((only.left e.1).1 here ▸ met)
          rw [if_pos here, if_pos ((only.left j).2 same)]
        · have other : ¬ (j == k) = true := by
            intro same
            rw [(only.left j).1 same] at met
            exact here met
          rw [if_neg here, if_neg other, if_neg here]
      next unmet =>
        rw [get?_cons, get?_cons, ih]
        by_cases here : (e.1 == k) = true
        · have other : ¬ (j == k) = true := by
            intro same
            rw [(only.left j).1 same] at unmet
            exact unmet here
          rw [if_pos here, if_neg other, if_pos here]
        · rw [if_neg here, if_neg here]

theorem IsExact.mem_of_get?_eq_some {k : κ} (only : IsExact k) {es : Entries κ α} {a : α}
    (found : es.get? k = some a) : (k, a) ∈ es := by
  obtain ⟨⟨j, b⟩, met, rfl⟩ := Option.map_eq_some_iff.1 found
  obtain rfl : j = k := (only.left j).1 (List.find?_some (p := fun e : κ × α => e.1 == k) met)
  exact List.mem_of_find?_eq_some met

theorem IsExact.exists_get? {k : κ} (only : IsExact k) {es : Entries κ α} {a : α}
    (member : (k, a) ∈ es) : ∃ b, es.get? k = some b := by
  obtain ⟨e, met⟩ := Option.isSome_iff_exists.1
    (List.find?_isSome (p := fun e : κ × α => e.1 == k).2 ⟨(k, a), member, (only.left k).2 rfl⟩)
  exact ⟨e.2, by rw [get?, met]; rfl⟩

theorem IsExact.get?_eq {k : κ} (only : IsExact k) {es : Entries κ α} {v : Option α}
    (agree : ∀ a, (k, a) ∈ es ↔ v = some a) : es.get? k = v := by
  cases v with
  | none =>
      refine Option.eq_none_iff_forall_ne_some.2 fun a found => ?_
      cases (agree a).1 (only.mem_of_get?_eq_some found)
  | some a =>
      obtain ⟨b, found⟩ := only.exists_get? ((agree a).2 rfl)
      rw [found, (agree b).1 (only.mem_of_get?_eq_some found)]

/-- Entered one after the other, the last entry of a key stands. -/
theorem get?_foldl_put {k : κ} (only : IsExact k) (pairs es : Entries κ α) :
    (pairs.foldl (fun es e => Entries.put es e.1 e.2) es).get? k =
      (get? pairs.reverse k).or (es.get? k) := by
  induction pairs using List.reverseRecOn with
  | nil => rfl
  | append_singleton pairs e ih =>
      rw [List.foldl_append, List.reverse_append]
      simp only [List.foldl_cons, List.foldl_nil, List.reverse_singleton, List.singleton_append]
      rw [get?_put only, ih, get?_cons]
      split
      next => rfl
      next => rfl

theorem get?_foldl_put_nil {k : κ} (only : IsExact k) {pairs : Entries κ α} {v : Option α}
    (agree : ∀ a, (k, a) ∈ pairs ↔ v = some a) :
    (pairs.foldl (fun es e => Entries.put es e.1 e.2) []).get? k = v := by
  rw [get?_foldl_put only, get?_nil, Option.or_none]
  exact only.get?_eq fun a => List.mem_reverse.trans (agree a)

theorem get?_putNew {k : κ} (only : IsExact k) (es : Entries κ α) (j : κ) (a : α) :
    (es.putNew j a).get? k = (es.get? k).or (if j == k then some a else none) := by
  rw [putNew]
  by_cases same : (j == k) = true
  · obtain rfl := (only.left j).1 same
    cases found : es.get? j with
    | none => simp [get?_put only, same]
    | some b => simp [found]
  · rw [if_neg same, Option.or_none]
    split
    next => rfl
    next => rw [get?_put only, if_neg same]

theorem forall_key_put {p : κ → Prop} {es : Entries κ α} (each : ∀ e ∈ es, p e.1) {k : κ}
    (new : p k) (a : α) : ∀ e ∈ es.put k a, p e.1 := by
  induction es with
  | nil => exact List.forall_mem_singleton.2 new
  | cons e es ih =>
      obtain ⟨first, rest⟩ := List.forall_mem_cons.1 each
      rw [put]
      split
      next => exact List.forall_mem_cons.2 ⟨first, rest⟩
      next => exact List.forall_mem_cons.2 ⟨first, ih rest⟩

theorem forall_key_foldl_put {p : κ → Prop} {es pairs : Entries κ α} (each : ∀ e ∈ es, p e.1)
    (new : ∀ e ∈ pairs, p e.1) :
    ∀ e ∈ pairs.foldl (fun es e => Entries.put es e.1 e.2) es, p e.1 := by
  induction pairs generalizing es with
  | nil => exact each
  | cons e pairs ih =>
      obtain ⟨first, rest⟩ := List.forall_mem_cons.1 new
      exact ih (forall_key_put each first e.2) rest

variable [LawfulBEq κ]

theorem isExact (k : κ) : IsExact k where
  left := fun _ => beq_iff_eq
  right := fun _ => beq_iff_eq.trans eq_comm

theorem get?_eq_none_of_not_mem {es : Entries κ α} {k : κ} (absent : k ∉ es.map (·.1)) :
    es.get? k = none := by
  rw [get?, Option.map_eq_none_iff, List.find?_eq_none]
  intro e member same
  exact absent (eq_of_beq same ▸ List.mem_map_of_mem (f := (·.1)) member)

theorem get?_eq_some_of_mem {es : Entries κ α} (nodup : (es.map (·.1)).Nodup) {k : κ} {a : α}
    (member : (k, a) ∈ es) : es.get? k = some a := by
  induction es with
  | nil => cases member
  | cons e es ih =>
      obtain ⟨absent, nodup⟩ := List.nodup_cons.1 nodup
      rw [get?_cons]
      rcases List.mem_cons.1 member with rfl | later
      · rw [if_pos (beq_self_eq_true k)]
      · have other : ¬ (e.1 == k) = true := by
          intro same
          have present : k ∈ es.map (·.1) := List.mem_map_of_mem (f := (·.1)) later
          rw [← eq_of_beq same] at present
          exact absent present
        rw [if_neg other]
        exact ih nodup later

theorem mem_of_get?_eq_some {es : Entries κ α} {k : κ} {a : α} (found : es.get? k = some a) :
    (k, a) ∈ es :=
  (isExact k).mem_of_get?_eq_some found

/-! Entering many. -/

theorem get?_foldl_put_of_mem {es pairs : Entries κ α} (nodup : (pairs.map (·.1)).Nodup)
    {k : κ} {a : α} (member : (k, a) ∈ pairs) :
    (pairs.foldl (fun es e => Entries.put es e.1 e.2) es).get? k = some a := by
  have nodup : (pairs.reverse.map (·.1)).Nodup := by
    rw [List.map_reverse]
    exact List.nodup_reverse.2 nodup
  rw [get?_foldl_put (isExact k), get?_eq_some_of_mem nodup (List.mem_reverse.2 member),
    Option.some_or]

/-! Keys. -/

theorem map_fst_put_of_mem {es : Entries κ α} {k : κ} (present : k ∈ es.map (·.1)) (a : α) :
    (es.put k a).map (·.1) = es.map (·.1) := by
  induction es with
  | nil => cases present
  | cons e es ih =>
      rw [put]
      split
      next => rfl
      next other =>
        rcases List.mem_cons.1 present with here | later
        · exact absurd (beq_iff_eq.2 here.symm) other
        · rw [List.map_cons, ih later, List.map_cons]

theorem map_fst_foldl_put {es pairs : Entries κ α}
    (nodup : (es.map (·.1) ++ pairs.map (·.1)).Nodup) :
    (pairs.foldl (fun es e => Entries.put es e.1 e.2) es).map (·.1) =
      es.map (·.1) ++ pairs.map (·.1) := by
  induction pairs generalizing es with
  | nil => rw [List.foldl_nil, List.map_nil, List.append_nil]
  | cons e pairs ih =>
      have absent : e.1 ∉ es.map (·.1) := fun present =>
        (List.nodup_append.1 nodup).2.2 e.1 present e.1 (by simp) rfl
      have put : es.put e.1 e.2 = es ++ [e] :=
        put_eq_append_of_get?_eq_none (get?_eq_none_of_not_mem absent) e.2
      rw [List.foldl_cons, put, ih] <;> simp_all

end Entries

/-! The first element of every key. -/

section

variable {α κ : Type} [BEq κ] (key : α → κ)

def firstsBy (xs : List α) : List α :=
  xs.foldl (fun ys x => if ys.any (key · == key x) then ys else ys ++ [x]) []

private theorem firstsBy_concat (xs : List α) (x : α) :
    firstsBy key (xs ++ [x]) =
      if (firstsBy key xs).any (key · == key x) then firstsBy key xs
      else firstsBy key xs ++ [x] := by
  rw [firstsBy, List.foldl_append]
  rfl

theorem find?_append_singleton_eq (xs : List α) (x : α) (k : κ) :
    (xs ++ [x]).find? (key · == k) =
      if xs.any (key · == k) then xs.find? (key · == k)
      else if key x == k then some x else none := by
  rw [List.find?_append]
  split
  next present =>
    obtain ⟨y, found⟩ :=
      Option.isSome_iff_exists.1 (List.find?_isSome.2 (List.any_eq_true.1 present))
    rw [found, Option.some_or]
  next absent =>
    have none : xs.find? (key · == k) = none := by
      rw [List.find?_eq_none]
      intro y member same
      exact absent (List.any_eq_true.2 ⟨y, member, same⟩)
    rw [none, Option.none_or, List.find?_singleton]

variable [LawfulBEq κ]

theorem any_firstsBy (xs : List α) (k : κ) :
    (firstsBy key xs).any (key · == k) = xs.any (key · == k) := by
  induction xs using List.reverseRecOn with
  | nil => rfl
  | append_singleton xs x ih =>
      rw [firstsBy_concat, List.any_append, ← ih]
      split
      next present =>
        -- The key of `x` adds nothing to those that are there.
        by_cases same : key x = k
        · rw [← same, present, Bool.true_or]
        · simp [same]
      next => rw [List.any_append]

theorem firstsBy_append_singleton (xs : List α) (x : α) :
    firstsBy key (xs ++ [x]) =
      if xs.any (key · == key x) then firstsBy key xs else firstsBy key xs ++ [x] := by
  rw [firstsBy_concat, any_firstsBy]

theorem firstsBy_of_new {xs : List α} {x : α} (new : xs.find? (key · == key x) = none) :
    firstsBy key (xs ++ [x]) = firstsBy key xs ++ [x] := by
  have absent : ¬ xs.any (key · == key x) = true := by
    intro present
    rw [← Option.not_isSome_iff_eq_none, List.find?_isSome] at new
    exact new (List.any_eq_true.1 present)
  rw [firstsBy_append_singleton, if_neg absent]

theorem firstsBy_of_known {xs : List α} {x y : α} (known : xs.find? (key · == key x) = some y) :
    firstsBy key (xs ++ [x]) = firstsBy key xs := by
  have present : xs.any (key · == key x) = true :=
    List.any_eq_true.2 ⟨y, List.mem_of_find?_eq_some known,
      List.find?_some (p := (key · == key x)) known⟩
  rw [firstsBy_append_singleton, if_pos present]

theorem mem_firstsBy {xs : List α} {x : α} :
    x ∈ firstsBy key xs ↔ xs.find? (key · == key x) = some x := by
  induction xs using List.reverseRecOn with
  | nil => simp [firstsBy]
  | append_singleton xs y ih =>
      have found : xs.find? (key · == key x) = some x → xs.any (key · == key x) = true :=
        fun found => List.any_eq_true.2
          ⟨x, List.mem_of_find?_eq_some found, beq_self_eq_true (key x)⟩
      rw [firstsBy_append_singleton, find?_append_singleton_eq]
      by_cases same : key y = key x
      · rw [same]
        split
        next => exact ih
        next absent =>
          rw [List.mem_append, List.mem_singleton, ih, if_pos (beq_self_eq_true (key x))]
          constructor
          · rintro (old | rfl)
            · exact absurd (found old) absent
            · rfl
          · intro h
            exact .inr (Option.some.inj h).symm
      · have other : ¬ (key y == key x) = true := fun h => same (eq_of_beq h)
        have mem : x ∈ (if xs.any (key · == key y) then firstsBy key xs
            else firstsBy key xs ++ [y]) ↔ x ∈ firstsBy key xs := by
          split
          next => rfl
          next =>
            rw [List.mem_append, List.mem_singleton, or_iff_left]
            rintro rfl
            exact same rfl
        rw [mem, ih, if_neg other]
        split
        next => rfl
        next absent =>
          exact ⟨fun h => absurd (found h) absent, fun h => by cases h⟩

theorem firstsBy_sublist (xs : List α) : (firstsBy key xs).Sublist xs := by
  induction xs using List.reverseRecOn with
  | nil => exact List.Sublist.slnil
  | append_singleton xs x ih =>
      rw [firstsBy_append_singleton]
      split
      next => exact ih.trans (List.sublist_append_left xs [x])
      next => exact ih.append (List.Sublist.refl [x])

theorem nodup_map_firstsBy (xs : List α) : ((firstsBy key xs).map key).Nodup := by
  induction xs using List.reverseRecOn with
  | nil => exact List.nodup_nil
  | append_singleton xs x ih =>
      rw [firstsBy_append_singleton]
      split
      next => exact ih
      next absent =>
        rw [← any_firstsBy] at absent
        rw [List.map_append, List.nodup_append]
        refine ⟨ih, by simp, ?_⟩
        intro k present k' new same
        obtain ⟨y, member, rfl⟩ := List.mem_map.1 present
        rw [List.map_singleton, List.mem_singleton] at new
        exact absent (List.any_eq_true.2 ⟨y, member, by simp [same, new]⟩)

/-- What is looked for by key alone is found among the first elements of the keys. -/
theorem find?_firstsBy (p : κ → Bool) (xs : List α) :
    (firstsBy key xs).find? (fun x => p (key x)) = xs.find? fun x => p (key x) := by
  induction xs using List.reverseRecOn with
  | nil => rfl
  | append_singleton xs x ih =>
      rw [firstsBy_append_singleton, List.find?_append]
      split
      next present =>
        rw [ih]
        by_cases wanted : p (key x) = true
        · obtain ⟨y, member, same⟩ := List.any_eq_true.1 present
          have found : (xs.find? fun x => p (key x)).isSome = true :=
            List.find?_isSome.2 ⟨y, member, by rwa [eq_of_beq same]⟩
          obtain ⟨z, found⟩ := Option.isSome_iff_exists.1 found
          rw [found, Option.some_or]
        · rw [List.find?_singleton, if_neg wanted, Option.or_none]
      next => rw [List.find?_append, ih]

/-! Elements gathered by key. -/

theorem put_map_of_mem {f : α → List α} {ys : List α} (nodup : (ys.map key).Nodup) {x : α}
    (member : x ∈ ys) (zs : List α) :
    Entries.put (ys.map fun y => (key y, f y)) (key x) zs =
      ys.map fun y => (key y, if key y == key x then zs else f y) := by
  induction ys with
  | nil => cases member
  | cons y ys ih =>
      obtain ⟨absent, nodup⟩ := List.nodup_cons.1 nodup
      rw [List.map_cons, Entries.put, List.map_cons]
      by_cases met : (key y == key x) = true
      · have others : ∀ z ∈ ys, (key z == key x) = false := by
          intro z later
          refine beq_eq_false_iff_ne.2 fun same => absent ?_
          exact (eq_of_beq met).trans same.symm ▸ List.mem_map_of_mem later
        rw [if_pos met, if_pos met]
        refine congrArg _ (List.map_congr_left fun z later => ?_)
        rw [others z later, if_neg Bool.false_ne_true]
      · rcases List.mem_cons.1 member with rfl | later
        · exact absurd (beq_self_eq_true _) met
        · rw [if_neg met, if_neg met, ih nodup later]

/-- Elements entered under their keys one after the other: the keys stand in the order in which they
come first, each with its elements in order. -/
theorem foldl_gather (xs : List α) :
    xs.foldl (fun es x => Entries.put es (key x) ((Entries.get? es (key x)).getD [] ++ [x])) [] =
      (firstsBy key xs).map fun x => (key x, xs.filter (key · == key x)) := by
  induction xs using List.reverseRecOn with
  | nil => rfl
  | append_singleton xs x ih =>
      rw [List.foldl_append, List.foldl_cons, List.foldl_nil, ih]
      have found : Entries.get? ((firstsBy key xs).map fun y => (key y, xs.filter (key · == key y)))
          (key x) = (xs.find? (key · == key x)).map fun y => xs.filter (key · == key y) := by
        rw [Entries.get?, List.find?_map, ← find?_firstsBy key (· == key x), Option.map_map]
        rfl
      rw [found]
      cases known : xs.find? (key · == key x) with
      | none =>
          have apart : ∀ y ∈ xs, (key y == key x) = false := by
            simpa using List.find?_eq_none.1 known
          have absent := found.trans (congrArg _ known)
          rw [Entries.put_eq_append_of_get?_eq_none absent, firstsBy_of_new key known,
            List.map_append, List.map_singleton]
          refine congrArg₂ _ (List.map_congr_left fun y member => ?_) ?_
          · have other : (key x == key y) = false := by
              have listed := (firstsBy_sublist key xs).subset member
              exact beq_eq_false_iff_ne.2 fun same =>
                absurd same.symm (beq_eq_false_iff_ne.1 (apart y listed))
            simp [other]
          · have empty : xs.filter (key · == key x) = [] :=
              List.filter_eq_nil_iff.2 fun y member => by simp [apart y member]
            simp [empty]
      | some y =>
          have same : key y = key x := eq_of_beq (List.find?_some (p := (key · == key x)) known)
          have first : y ∈ firstsBy key xs := by
            rw [mem_firstsBy, same]
            exact known
          rw [firstsBy_of_known key known, ← same,
            put_map_of_mem key (nodup_map_firstsBy key xs) first]
          refine List.map_congr_left fun z member => congrArg _ ?_
          split
          next met => simp [eq_of_beq met, same]
          next other =>
            have apart : (key x == key z) = false :=
              beq_eq_false_iff_ne.2 fun here => other (beq_iff_eq.2 (same.trans here).symm)
            simp [apart]

end

end Schematic
