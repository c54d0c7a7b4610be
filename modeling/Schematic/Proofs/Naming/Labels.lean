import Schematic.Naming
import Schematic.Proofs.Entries
import Schematic.Proofs.Text
/-!
The labels of a net and the verdict on them.
-/

namespace Schematic

def defaultName (k : Nat) : String :=
  "N" ++ Value.intText k

theorem toList_lower_defaultName (k : Nat) :
    (Text.lower (defaultName k)).toList = 'n' :: Decimal.natDigits k := by
  have toList : (defaultName k).toList = 'N' :: Decimal.natDigits k := by
    rw [defaultName, String.toList_append, Value.toList_intText]
    rfl
  have ascii : ∀ c ∈ (defaultName k).toList, c.toNat < 128 := by
    rw [toList]
    intro c member
    rcases List.mem_cons.1 member with rfl | digit
    · decide
    · exact Decimal.ascii_of_mem_natDigits digit
  rw [Text.lower_of_ascii ascii, String.toList_ofList, toList, List.map_cons,
    Decimal.map_toLower_natDigits]
  rfl

theorem lower_defaultName_inj {j k : Nat}
    (same : Text.lower (defaultName j) = Text.lower (defaultName k)) : j = k := by
  have chars := congrArg String.toList same
  rw [toList_lower_defaultName, toList_lower_defaultName] at chars
  exact Decimal.natDigits_injective (List.cons.inj chars).2

theorem lower_defaultName_ne_ground (k : Nat) :
    Text.lower (defaultName k) ≠ Text.lower groundName := by
  intro same
  have chars := congrArg String.toList same
  rw [toList_lower_defaultName] at chars
  exact absurd (List.cons.inj chars).1 (by decide)

theorem Label.distinct_eq (labels : List Label) : Label.distinct labels = firstsBy Label.key labels :=
  rfl

theorem Label.firstsBy_eq_singleton_iff {labels : List Label} {l : Label} :
    firstsBy Label.key labels = [l] ↔
      labels.head? = some l ∧ ∀ m ∈ labels, m.key = l.key := by
  constructor
  · intro single
    have found := (mem_firstsBy Label.key).1 (single ▸ List.mem_singleton_self l)
    have same : ∀ m ∈ labels, m.key = l.key := by
      intro m member
      have kept := any_firstsBy Label.key labels m.key
      rw [single, List.any_eq_true.2 ⟨m, member, beq_self_eq_true m.key⟩] at kept
      have key : l.key = m.key := by simpa using kept
      exact key.symm
    refine ⟨?_, same⟩
    cases labels with
    | nil => cases found
    | cons m labels =>
        have key := same m List.mem_cons_self
        rw [List.find?_cons, key, beq_self_eq_true] at found
        exact found
  · rintro ⟨head, same⟩
    obtain ⟨rest, rfl⟩ := List.head?_eq_some_iff.1 head
    have kept : l ∈ firstsBy Label.key (l :: rest) :=
      (mem_firstsBy Label.key).2 (by simp)
    have keys : ∀ m ∈ firstsBy Label.key (l :: rest), m.key = l.key := by
      intro m member
      exact same m (List.mem_of_find?_eq_some ((mem_firstsBy Label.key).1 member))
    have nodup := nodup_map_firstsBy Label.key (l :: rest)
    generalize firstsBy Label.key (l :: rest) = ls at kept keys nodup
    match ls with
    | [] => cases kept
    | [m] => rw [List.mem_singleton.1 kept]
    | m :: m' :: ls =>
        have first := keys m (by simp)
        have second := keys m' (by simp)
        simp [first, second] at nodup

/-- The labels of a net are accepted when they agree on one key that is not reserved; the first of
them is the label of the net. -/
theorem Verdict.ofLabels_eq_labelled_iff {labels : List Label} {l : Label} :
    Verdict.ofLabels labels = .labelled l ↔
      labels.head? = some l ∧ (∀ m ∈ labels, m.key = l.key) ∧ l.key ∉ reservedNames := by
  rw [← and_assoc, ← Label.firstsBy_eq_singleton_iff, Verdict.ofLabels, Label.distinct_eq]
  generalize firstsBy Label.key labels = ls
  cases reserved : ls.find? fun l => reservedNames.contains l.key with
  | some m =>
      refine ⟨fun h => (by cases h), ?_⟩
      rintro ⟨rfl, free⟩
      have member := List.mem_singleton.1 (List.mem_of_find?_eq_some reserved)
      have contained := List.find?_some reserved
      rw [member] at contained
      exact absurd (List.contains_iff_mem.1 contained) free
  | none =>
      match ls with
      | [] => exact ⟨fun h => (by cases h), fun h => (by cases h.1)⟩
      | [m] =>
          have free := List.find?_eq_none.1 reserved m (List.mem_singleton_self m)
          constructor
          · intro h
            obtain rfl := Verdict.labelled.inj h
            exact ⟨rfl, fun member => free (List.contains_iff_mem.2 member)⟩
          · rintro ⟨single, _⟩
            rw [(List.cons.inj single).1]
      | _ :: _ :: _ => exact ⟨fun h => (by cases h), fun h => (by cases h.1)⟩

theorem Verdict.ofLabels_eq_plain {labels : List Label} (plain : ofLabels labels = .plain) :
    labels = [] := by
  cases labels with
  | nil => rfl
  | cons l labels =>
      have kept : l ∈ firstsBy Label.key (l :: labels) := (mem_firstsBy Label.key).2 (by simp)
      simp only [ofLabels, Label.distinct_eq] at plain
      generalize firstsBy Label.key (l :: labels) = ls at kept plain
      split at plain
      · cases plain
      · match ls with
        | [] => cases kept
        | [_] => cases plain
        | _ :: _ :: _ => cases plain

theorem Verdict.ofLabels_ne_ground (labels : List Label) : Verdict.ofLabels labels ≠ .ground := by
  intro h
  simp only [Verdict.ofLabels] at h
  split at h
  · cases h
  · split at h <;> cases h

theorem Verdict.error?_ofLabels_eq_none_iff {labels : List Label} :
    (Verdict.ofLabels labels).error? = none ↔
      ∃ k, k ∉ reservedNames ∧ ∀ l ∈ labels, l.key = k := by
  constructor
  · intro accepted
    cases verdict : Verdict.ofLabels labels with
    | ground => exact absurd verdict (ofLabels_ne_ground labels)
    | plain =>
        obtain rfl := ofLabels_eq_plain verdict
        exact ⟨"", by decide, nofun⟩
    | labelled l =>
        obtain ⟨_, same, unreserved⟩ := ofLabels_eq_labelled_iff.1 verdict
        exact ⟨l.key, unreserved, same⟩
    | rejected error =>
        rw [verdict] at accepted
        cases accepted
  · rintro ⟨k, unreserved, same⟩
    cases labels with
    | nil => rfl
    | cons l labels =>
        obtain rfl := same l List.mem_cons_self
        rw [ofLabels_eq_labelled_iff.2 ⟨rfl, same, unreserved⟩]
        rfl

namespace Drawing

variable {ν : Type} {d : Drawing}

theorem verdict_eq_ground_iff {n : Net ν} : d.verdict n = .ground ↔ d.grounds n = true := by
  rw [verdict]
  split
  next grounded => exact ⟨fun _ => grounded, fun _ => rfl⟩
  next free => exact ⟨fun h => absurd h (Verdict.ofLabels_ne_ground _), fun h => absurd h free⟩

theorem verdict_eq_labelled_iff {n : Net ν} {l : Label} :
    d.verdict n = .labelled l ↔
      d.grounds n = false ∧ (d.labels n).head? = some l ∧
        (∀ m ∈ d.labels n, m.key = l.key) ∧ l.key ∉ reservedNames := by
  rw [verdict, ← Verdict.ofLabels_eq_labelled_iff]
  split
  next grounded => exact ⟨fun h => (by cases h), fun h => by rw [grounded] at h; cases h.1⟩
  next free => exact ⟨fun h => ⟨Bool.eq_false_iff.2 free, h⟩, fun h => h.2⟩

theorem error?_verdict_eq_none_iff {n : Net ν} :
    (d.verdict n).error? = none ↔
      d.grounds n = true ∨ ∃ k, k ∉ reservedNames ∧ ∀ l ∈ d.labels n, l.key = k := by
  rw [verdict, ← Verdict.error?_ofLabels_eq_none_iff]
  split
  next grounded => exact iff_of_true rfl (.inl grounded)
  next free => exact (or_iff_right free).symm

theorem exists_of_label? {t : Terminal} {l : Label} (found : d.label? t = some l) :
    ∃ c ∈ d.components, c.kind? = some .net ∧ c.label ≠ "" ∧ l = .ofText c.label := by
  unfold label? at found
  split at found
  next c known =>
    split at found
    next given =>
      obtain rfl := Option.some.inj found
      rw [Bool.and_eq_true, bne_iff_ne, decide_eq_true_eq] at given
      exact ⟨c, List.mem_reverse.1 (List.mem_of_find?_eq_some known), given.1, given.2, rfl⟩
    next => cases found
  next => cases found

theorem label?_eq_some {t : Terminal} {l : Label} (found : d.label? t = some l) :
    l.text ≠ "" ∧ l.key = Text.lower l.text := by
  obtain ⟨c, _, _, given, rfl⟩ := exists_of_label? found
  have trimmed : Text.trim c.label = c.label := Text.trim_trim _
  exact ⟨given, congrArg Text.lower trimmed⟩

theorem key_of_mem_labels {n : Net ν} {l : Label} (member : l ∈ d.labels n) :
    l.text ≠ "" ∧ l.key = Text.lower l.text := by
  obtain ⟨t, _, found⟩ := List.mem_filterMap.1 member
  exact label?_eq_some found

end Drawing

end Schematic
