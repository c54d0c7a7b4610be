import Schematic.Proofs.Json.Texts
/-!
Values of texts, lists and records are read back from their own text.
-/

namespace Schematic.Json

/-- Whether a value holds no numbers, no text with a divided pair, no two fields of one name in a
record, and only so many lists and records within each other. -/
inductive IsPlain : Nat → Value → Prop
  | null {room : Nat} : IsPlain room .null
  | bool {room : Nat} (b : Bool) : IsPlain room (.bool b)
  | text {room : Nat} {s : String} (joined : IsJoined s.toList) : IsPlain room (.text s)
  | list {room : Nat} {vs : List Value} (items : ∀ v ∈ vs, IsPlain room v) :
      IsPlain (room + 1) (.list vs)
  | record {room : Nat} {fields : List (String × Value)} (distinct : (fields.map (·.1)).Nodup)
      (names : ∀ name ∈ fields.map (·.1), IsJoined name.toList)
      (values : ∀ f ∈ fields, IsPlain room f.2) :
      IsPlain (room + 1) (.record fields)

variable {room level outer fuel : Nat} {v : Value} {rest : List Char}

/-! Blanks. -/

theorem skipSpace_newLineChars (level : Nat) (cs : List Char) :
    skipSpace (newLineChars level ++ cs) = skipSpace cs := by
  have spaces : ∀ n, skipSpace (List.replicate n ' ' ++ cs) = skipSpace cs := by
    intro n
    induction n with
    | zero => rfl
    | succ n ih => exact ih
  exact spaces (2 * level)

theorem length_newLineChars (level : Nat) : (newLineChars level).length = 2 * level + 1 := by
  rw [newLineChars, List.length_cons, List.length_replicate]

def openers : List Char := ['n', 't', 'f', '"', '[', '\x7b']

theorem skipSpace_opener {c : Char} (opens : c ∈ openers) (cs : List Char) :
    skipSpace (c :: cs) = c :: cs := by
  simp only [openers, List.mem_cons, List.not_mem_nil, or_false] at opens
  rcases opens with rfl | rfl | rfl | rfl | rfl | rfl <;> rfl

theorem IsPlain.exists_opener (plain : IsPlain room v) (level : Nat) :
    ∃ c ∈ openers, ∃ cs, charsAt level v = c :: cs := by
  cases plain with
  | null => exact ⟨'n', by decide, _, rfl⟩
  | bool b =>
      cases b with
      | true => exact ⟨'t', by decide, _, rfl⟩
      | false => exact ⟨'f', by decide, _, rfl⟩
  | text => exact ⟨'"', by decide, _, rfl⟩
  | @list _ vs items =>
      refine ⟨'[', by decide, ?_⟩
      cases vs <;> exact ⟨_, rfl⟩
  | @record _ fields distinct names values =>
      refine ⟨'\x7b', by decide, ?_⟩
      cases fields <;> exact ⟨_, rfl⟩

/-! Lists. -/

/-- Whether a value is read where there is room for so many lists and records, whatever follows. -/
def Reads (room : Nat) (v : Value) : Prop :=
  ∀ level fuel rest, (charsAt level v).length ≤ fuel →
    readValue room fuel (charsAt level v ++ rest) = .ok (v, rest)

theorem readElements_charsAt {done : List Value} (reads : Reads room v)
    (enough : (charsAt level v).length ≤ fuel) (after : List Char) :
    readElements room (fuel + 1) done (charsAt level v ++ after) =
      match skipSpace after with
      | ']' :: rest => .ok (.list (done ++ [v]), rest)
      | ',' :: rest => readElements room fuel (done ++ [v]) (skipSpace rest)
      | rest => stop .comma rest := by
  rw [readElements.eq_def]
  dsimp only
  rw [reads level fuel after enough]
  rfl

theorem exists_opener_items {vs : List Value} (plain : ∀ w ∈ v :: vs, IsPlain room w)
    (level : Nat) :
    ∃ c ∈ openers, ∃ cs,
      (',' :: newLineChars level).intercalate (itemChars level (v :: vs)) = c :: cs := by
  obtain ⟨c, opens, cs, begins⟩ := (plain v List.mem_cons_self).exists_opener level
  refine ⟨c, opens, ?_⟩
  cases vs with
  | nil =>
      rw [itemChars, itemChars, List.intercalate_singleton]
      exact ⟨cs, begins⟩
  | cons w vs =>
      rw [itemChars, itemChars, List.intercalate_cons_cons, begins]
      exact ⟨_, rfl⟩

theorem skipSpace_items {vs : List Value} (plain : ∀ w ∈ v :: vs, IsPlain room w) (cs : List Char) :
    skipSpace ((',' :: newLineChars level).intercalate (itemChars level (v :: vs)) ++ cs) =
      (',' :: newLineChars level).intercalate (itemChars level (v :: vs)) ++ cs := by
  obtain ⟨c, opens, more, begins⟩ := exists_opener_items plain level
  rw [begins]
  exact skipSpace_opener opens _

theorem readElements_itemChars {vs done : List Value}
    (plain : ∀ w ∈ v :: vs, IsPlain room w) (reads : ∀ w ∈ v :: vs, Reads room w)
    (enough : ((',' :: newLineChars level).intercalate (itemChars level (v :: vs))).length < fuel) :
    readElements room fuel done ((',' :: newLineChars level).intercalate (itemChars level (v :: vs))
        ++ (newLineChars outer ++ ']' :: rest)) = .ok (.list (done ++ v :: vs), rest) := by
  induction vs generalizing v done fuel with
  | nil =>
      obtain ⟨fuel, rfl⟩ := Nat.exists_eq_add_one_of_ne_zero (Nat.ne_zero_of_lt enough)
      rw [itemChars, itemChars, List.intercalate_singleton] at enough ⊢
      rw [readElements_charsAt (reads v List.mem_cons_self) (Nat.lt_succ_iff.1 enough),
        skipSpace_newLineChars]
      rfl
  | cons w vs ih =>
      obtain ⟨fuel, rfl⟩ := Nat.exists_eq_add_one_of_ne_zero (Nat.ne_zero_of_lt enough)
      rw [itemChars, itemChars, List.intercalate_cons_cons, ← itemChars] at enough ⊢
      rw [List.length_append, List.length_append, List.length_cons] at enough
      have others : ∀ w' ∈ w :: vs, w' ∈ v :: w :: vs := fun w' => List.mem_cons_of_mem v
      have enough' : (charsAt level v).length ≤ fuel := by omega
      rw [List.append_assoc, List.append_assoc, List.cons_append,
        readElements_charsAt (reads v List.mem_cons_self) enough']
      change readElements room fuel (done ++ [v]) (skipSpace (newLineChars level ++ _)) = _
      rw [skipSpace_newLineChars, skipSpace_items (fun w' member => plain w' (others w' member)),
        ih (fun w' member => plain w' (others w' member))
          (fun w' member => reads w' (others w' member)) (by omega), List.append_assoc]
      rfl

/-! Records. -/

theorem setField_of_not_mem {done : List (String × Value)} {name : String}
    (new : name ∉ done.map (·.1)) (v : Value) : setField done name v = done ++ [(name, v)] := by
  have absent : ¬ done.any (·.1 == name) = true := by
    rw [List.any_eq_true]
    rintro ⟨f, member, called⟩
    exact new (List.mem_map.2 ⟨f, member, beq_iff_eq.1 called⟩)
  rw [setField, if_neg absent]

theorem not_mem_of_nodup {done fields : List (String × Value)} {f : String × Value}
    (distinct : ((done ++ f :: fields).map (·.1)).Nodup) : f.1 ∉ done.map (·.1) := by
  rw [List.map_append, List.map_cons] at distinct
  exact fun old => (List.nodup_append.1 distinct).2.2 f.1 old f.1 List.mem_cons_self rfl

def fieldText (level : Nat) (f : String × Value) : List Char :=
  textChars f.1 ++ [':', ' '] ++ charsAt level f.2

theorem fieldChars_eq_map (level : Nat) (fields : List (String × Value)) :
    fieldChars level fields = fields.map (fieldText level) := by
  induction fields with
  | nil => rfl
  | cons f fields ih => rw [fieldChars, ih, List.map_cons, fieldText]

theorem itemChars_eq_map (level : Nat) (vs : List Value) :
    itemChars level vs = vs.map (charsAt level) := by
  induction vs with
  | nil => rfl
  | cons v vs ih => rw [itemChars, ih, List.map_cons]

theorem IsPlain.skipSpace_charsAt (plain : IsPlain room v) (level : Nat) (cs : List Char) :
    skipSpace (charsAt level v ++ cs) = charsAt level v ++ cs := by
  obtain ⟨c, opens, more, begins⟩ := plain.exists_opener level
  rw [begins]
  exact skipSpace_opener opens _

theorem exists_quote_fields (fields : List (String × Value)) (f : String × Value) (level : Nat) :
    ∃ cs, (',' :: newLineChars level).intercalate (fieldChars level (f :: fields)) = '"' :: cs := by
  rw [fieldChars_eq_map]
  cases fields with
  | nil => exact ⟨_, rfl⟩
  | cons g fields =>
      rw [List.map_cons, List.map_cons, List.intercalate_cons_cons]
      exact ⟨_, rfl⟩

theorem skipSpace_fields (fields : List (String × Value)) (f : String × Value) (cs : List Char) :
    skipSpace ((',' :: newLineChars level).intercalate (fieldChars level (f :: fields)) ++ cs) =
      (',' :: newLineChars level).intercalate (fieldChars level (f :: fields)) ++ cs := by
  obtain ⟨more, begins⟩ := exists_quote_fields fields f level
  rw [begins]
  rfl

section

variable {f : String × Value} {fields done : List (String × Value)}

theorem readFields_fieldText (joined : IsJoined f.1.toList) (plain : IsPlain room f.2)
    (reads : Reads room f.2)
    (enough : (fieldText level f).length ≤ fuel) (new : f.1 ∉ done.map (·.1)) (after : List Char) :
    readFields room (fuel + 1) done (fieldText level f ++ after) =
      match skipSpace after with
      | '\x7d' :: rest => .ok (.record (done ++ [f]), rest)
      | ',' :: rest => readFields room fuel (done ++ [f]) (skipSpace rest)
      | rest => stop .comma rest := by
  have value : readValue room fuel (skipSpace (' ' :: (charsAt level f.2 ++ after))) =
      .ok (f.2, after) := by
    rw [fieldText, List.length_append] at enough
    change readValue room fuel (skipSpace (charsAt level f.2 ++ after)) = _
    rw [plain.skipSpace_charsAt]
    exact reads level fuel after (by omega)
  have name := readText_textChars joined (fieldText level f ++ after)
    (':' :: ' ' :: (charsAt level f.2 ++ after))
  have whole : fieldText level f ++ after = '"' :: (f.1.toList.flatMap escapedChar ++
      '"' :: ':' :: ' ' :: (charsAt level f.2 ++ after)) := by
    simp only [fieldText, textChars, List.cons_append, List.append_assoc, List.nil_append]
  rw [whole] at name ⊢
  rw [readFields.eq_def]
  change Except.bind (readText _ _ [] _) _ = _
  rw [name]
  change Except.bind (readValue room fuel (skipSpace (' ' :: (charsAt level f.2 ++ after)))) _ = _
  rw [value, ← setField_of_not_mem new]
  rfl

theorem readFields_fieldChars (distinct : ((done ++ f :: fields).map (·.1)).Nodup)
    (names : ∀ g ∈ f :: fields, IsJoined g.1.toList)
    (plain : ∀ g ∈ f :: fields, IsPlain room g.2) (reads : ∀ g ∈ f :: fields, Reads room g.2)
    (enough : ((',' :: newLineChars level).intercalate
      (fieldChars level (f :: fields))).length < fuel) :
    readFields room fuel done ((',' :: newLineChars level).intercalate (fieldChars level (f :: fields))
        ++ (newLineChars outer ++ '\x7d' :: rest)) = .ok (.record (done ++ f :: fields), rest) := by
  induction fields generalizing f done fuel with
  | nil =>
      obtain ⟨fuel, rfl⟩ := Nat.exists_eq_add_one_of_ne_zero (Nat.ne_zero_of_lt enough)
      rw [fieldChars_eq_map, List.map_cons, List.map_nil, List.intercalate_singleton] at enough ⊢
      rw [readFields_fieldText (names f List.mem_cons_self) (plain f List.mem_cons_self)
        (reads f List.mem_cons_self) (Nat.lt_succ_iff.1 enough) (not_mem_of_nodup distinct), skipSpace_newLineChars]
      rfl
  | cons g fields ih =>
      obtain ⟨fuel, rfl⟩ := Nat.exists_eq_add_one_of_ne_zero (Nat.ne_zero_of_lt enough)
      rw [fieldChars_eq_map, List.map_cons, List.map_cons, List.intercalate_cons_cons,
        ← List.map_cons, ← fieldChars_eq_map] at enough ⊢
      rw [List.length_append, List.length_append, List.length_cons] at enough
      have others : ∀ g' ∈ g :: fields, g' ∈ f :: g :: fields := fun g' => List.mem_cons_of_mem f
      have enough' : (fieldText level f).length ≤ fuel := by omega
      have distinct' : ((done ++ [f] ++ g :: fields).map (·.1)).Nodup := by
        rwa [List.append_assoc]
      rw [List.append_assoc, List.append_assoc, List.cons_append,
        readFields_fieldText (names f List.mem_cons_self) (plain f List.mem_cons_self)
          (reads f List.mem_cons_self) enough' (not_mem_of_nodup distinct)]
      change readFields room fuel (done ++ [f]) (skipSpace (newLineChars level ++ _)) = _
      rw [skipSpace_newLineChars, skipSpace_fields,
        ih distinct' (fun g' member => names g' (others g' member))
          (fun g' member => plain g' (others g' member))
          (fun g' member => reads g' (others g' member)) (by omega), List.append_assoc]
      rfl

end

/-! Values. -/

theorem reads_null : Reads room .null := by
  intro level fuel rest enough
  obtain ⟨fuel, rfl⟩ := Nat.exists_eq_add_one_of_ne_zero (Nat.ne_zero_of_lt enough)
  rfl

theorem reads_bool (b : Bool) : Reads room (.bool b) := by
  intro level fuel rest enough
  cases b with
  | true =>
      obtain ⟨fuel, rfl⟩ := Nat.exists_eq_add_one_of_ne_zero (Nat.ne_zero_of_lt enough)
      rfl
  | false =>
      obtain ⟨fuel, rfl⟩ := Nat.exists_eq_add_one_of_ne_zero (Nat.ne_zero_of_lt enough)
      rfl

theorem reads_text {s : String} (joined : IsJoined s.toList) : Reads room (.text s) := by
  intro level fuel rest enough
  rw [charsAt, textChars, List.length_cons] at enough
  obtain ⟨fuel, rfl⟩ := Nat.exists_eq_add_one_of_ne_zero (Nat.ne_zero_of_lt enough)
  have read := readText_textChars joined (textChars s ++ rest) rest
  have whole : textChars s ++ rest = '"' :: (s.toList.flatMap escapedChar ++ '"' :: rest) := by
    simp only [textChars, List.cons_append, List.append_assoc, List.nil_append]
  rw [charsAt]
  rw [whole] at read ⊢
  rw [readValue.eq_def]
  change Except.bind (readText _ _ [] _) _ = _
  rw [read]
  rfl

theorem charsAt_list_cons (level : Nat) (v : Value) (vs : List Value) :
    charsAt level (.list (v :: vs)) = '[' :: (newLineChars (level + 1) ++
      ((',' :: newLineChars (level + 1)).intercalate (itemChars (level + 1) (v :: vs)) ++
        (newLineChars level ++ [']']))) := by
  rw [charsAt, blockChars, itemChars, List.isEmpty_cons, if_neg Bool.false_ne_true]
  simp only [List.cons_append, List.append_assoc, List.nil_append]

theorem charsAt_record_cons (level : Nat) (f : String × Value) (fields : List (String × Value)) :
    charsAt level (.record (f :: fields)) = '\x7b' :: (newLineChars (level + 1) ++
      ((',' :: newLineChars (level + 1)).intercalate (fieldChars (level + 1) (f :: fields)) ++
        (newLineChars level ++ ['\x7d']))) := by
  rw [charsAt, blockChars, fieldChars, List.isEmpty_cons, if_neg Bool.false_ne_true]
  simp only [List.cons_append, List.append_assoc, List.nil_append]

theorem reads_list {vs : List Value} (plain : ∀ v ∈ vs, IsPlain room v)
    (reads : ∀ v ∈ vs, Reads room v) : Reads (room + 1) (.list vs) := by
  intro level fuel rest enough
  cases vs with
  | nil =>
      obtain ⟨fuel, rfl⟩ := Nat.exists_eq_add_one_of_ne_zero (Nat.ne_zero_of_lt enough)
      rfl
  | cons v vs =>
      rw [charsAt_list_cons] at enough ⊢
      obtain ⟨fuel, rfl⟩ := Nat.exists_eq_add_one_of_ne_zero (Nat.ne_zero_of_lt enough)
      simp only [List.length_cons, List.length_append, length_newLineChars] at enough
      have read : readElements room fuel []
          ((',' :: newLineChars (level + 1)).intercalate (itemChars (level + 1) (v :: vs)) ++
            (newLineChars level ++ ']' :: rest)) = .ok (.list (v :: vs), rest) :=
        readElements_itemChars plain reads (by omega)
      obtain ⟨c, opens, cs, begins⟩ := exists_opener_items plain (level + 1)
      rw [readValue.eq_def]
      simp only [List.cons_append, List.append_assoc, List.nil_append]
      rw [skipSpace_newLineChars, skipSpace_items plain]
      rw [begins] at read ⊢
      simp only [openers, List.mem_cons, List.not_mem_nil, or_false] at opens
      rcases opens with rfl | rfl | rfl | rfl | rfl | rfl <;> exact read

theorem reads_record {fields : List (String × Value)} (distinct : (fields.map (·.1)).Nodup)
    (names : ∀ f ∈ fields, IsJoined f.1.toList) (plain : ∀ f ∈ fields, IsPlain room f.2)
    (reads : ∀ f ∈ fields, Reads room f.2) : Reads (room + 1) (.record fields) := by
  intro level fuel rest enough
  cases fields with
  | nil =>
      obtain ⟨fuel, rfl⟩ := Nat.exists_eq_add_one_of_ne_zero (Nat.ne_zero_of_lt enough)
      rfl
  | cons f fields =>
      rw [charsAt_record_cons] at enough ⊢
      obtain ⟨fuel, rfl⟩ := Nat.exists_eq_add_one_of_ne_zero (Nat.ne_zero_of_lt enough)
      simp only [List.length_cons, List.length_append, length_newLineChars] at enough
      have read : readFields room fuel []
          ((',' :: newLineChars (level + 1)).intercalate (fieldChars (level + 1) (f :: fields)) ++
            (newLineChars level ++ '\x7d' :: rest)) = .ok (.record (f :: fields), rest) :=
        readFields_fieldChars distinct names plain reads (by omega)
      obtain ⟨cs, begins⟩ := exists_quote_fields fields f (level + 1)
      rw [readValue.eq_def]
      simp only [List.cons_append, List.append_assoc, List.nil_append]
      rw [skipSpace_newLineChars, skipSpace_fields]
      rw [begins] at read ⊢
      exact read

theorem IsPlain.reads (plain : IsPlain room v) : Reads room v := by
  induction plain with
  | null => exact reads_null
  | bool b => exact reads_bool b
  | text joined => exact reads_text joined
  | list items reads => exact reads_list items reads
  | record distinct names values reads =>
      exact reads_record distinct (fun f member => names f.1 (List.mem_map_of_mem member)) values
        reads

/-! Documents. -/

theorem unifyNewlines_eq_self {cs : List Char} (plain : '\r' ∉ cs) :
    Text.unifyNewlines cs = cs := by
  induction cs with
  | nil => rfl
  | cons c cs ih =>
      have others : '\r' ∉ cs := fun member => plain (List.mem_cons_of_mem c member)
      have apart : c ≠ '\r' := by
        rintro rfl
        exact plain List.mem_cons_self
      rw [Text.unifyNewlines, ih others]
      · rintro _ rfl _
        exact apart rfl
      · exact apart

theorem return_not_mem_newLineChars (level : Nat) : '\r' ∉ newLineChars level := by
  intro member
  rcases List.mem_cons.1 member with newline | space
  · cases newline
  · cases List.eq_of_mem_replicate space

theorem return_not_mem_intercalate {items : List (List Char)} (plain : ∀ item ∈ items, '\r' ∉ item)
    (level : Nat) : '\r' ∉ (',' :: newLineChars level).intercalate items := by
  induction items with
  | nil => exact List.not_mem_nil
  | cons item items ih =>
      have others := ih fun item' member => plain item' (List.mem_cons_of_mem item member)
      have first := plain item List.mem_cons_self
      cases items with
      | nil => rwa [List.intercalate_singleton]
      | cons item' items =>
          rw [List.intercalate_cons_cons, List.mem_append, List.mem_append, List.mem_cons]
          rintro ((here | comma | newline) | there)
          · exact first here
          · cases comma
          · exact return_not_mem_newLineChars level newline
          · exact others there

theorem return_not_mem_blockChars {opening closing : List Char} {items : List (List Char)}
    (opens : '\r' ∉ opening) (closes : '\r' ∉ closing) (plain : ∀ item ∈ items, '\r' ∉ item)
    (level : Nat) : '\r' ∉ blockChars level opening closing items := by
  rw [blockChars]
  split
  next => exact fun member => (List.mem_append.1 member).elim opens closes
  next =>
    simp only [List.mem_append]
    rintro ((((here | newline) | inside) | newline) | there)
    · exact opens here
    · exact return_not_mem_newLineChars _ newline
    · exact return_not_mem_intercalate plain _ inside
    · exact return_not_mem_newLineChars _ newline
    · exact closes there

theorem IsPlain.return_not_mem_charsAt (plain : IsPlain room v) (level : Nat) :
    '\r' ∉ charsAt level v := by
  induction plain generalizing level with
  | null =>
      rw [charsAt]
      decide
  | bool b =>
      rw [charsAt]
      cases b <;> decide
  | text => exact return_not_mem_textChars _
  | list items ih =>
      rw [charsAt, itemChars_eq_map]
      refine return_not_mem_blockChars (by decide) (by decide) (fun item member => ?_) level
      obtain ⟨v, listed, rfl⟩ := List.mem_map.1 member
      exact ih v listed _
  | record distinct names values ih =>
      rw [charsAt, fieldChars_eq_map]
      refine return_not_mem_blockChars (by decide) (by decide) (fun item member => ?_) level
      obtain ⟨f, listed, rfl⟩ := List.mem_map.1 member
      rw [fieldText, List.mem_append, List.mem_append]
      rintro ((name | colon) | value)
      · exact return_not_mem_textChars f.1 name
      · revert colon
        decide
      · exact ih f listed _ value

theorem readDocument_opener [Limits] {c : Char} (opens : c ∈ openers) {cs : List Char}
    (read : readValue Limits.depth (2 * (c :: cs).length + 2) (c :: cs) = .ok (v, [])) :
    readDocument (c :: cs) = .ok v := by
  unfold readDocument
  split
  next same =>
    obtain ⟨rfl, _⟩ := List.cons.inj same
    simp [openers] at opens
  next =>
    rw [skipSpace_opener opens]
    dsimp only
    rw [read]
    rfl

/-- A value without numbers is read from its own text, as a file holds it. -/
theorem IsPlain.readsBack [Limits] (plain : IsPlain Limits.depth v) : ReadsBack v := by
  obtain ⟨c, opens, cs, begins⟩ := plain.exists_opener 0
  have read := plain.reads 0 (2 * (charsAt 0 v).length + 2) [] (by omega)
  rw [readsBack_iff, unifyNewlines_eq_self (plain.return_not_mem_charsAt 0)]
  rw [List.append_nil, begins] at read
  rw [begins]
  exact readDocument_opener opens read

end Schematic.Json
