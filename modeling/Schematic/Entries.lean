/-!
Association lists in order of first entry.
-/

namespace Schematic

/-- Keys with their values. A key entered again keeps its place and takes the new value. -/
abbrev Entries (κ α : Type) := List (κ × α)

namespace Entries

variable {κ α : Type} [BEq κ]

def get? (es : Entries κ α) (k : κ) : Option α :=
  (es.find? fun e => e.1 == k).map (·.2)

def put : Entries κ α → κ → α → Entries κ α
  | [], k, a => [(k, a)]
  | (j, b) :: es, k, a => if j == k then (j, a) :: es else (j, b) :: put es k a

def putNew (es : Entries κ α) (k : κ) (a : α) : Entries κ α :=
  if (es.get? k).isSome then es else es.put k a

@[simp] theorem get?_nil (k : κ) : get? ([] : Entries κ α) k = none := rfl

theorem get?_cons (e : κ × α) (es : Entries κ α) (k : κ) :
    get? (e :: es) k = if e.1 == k then some e.2 else es.get? k := by
  by_cases h : e.1 == k <;> simp [get?, h]

theorem get?_put_self [LawfulBEq κ] (es : Entries κ α) (k : κ) (a : α) :
    (es.put k a).get? k = some a := by
  induction es with
  | nil => simp [put, get?_cons]
  | cons e es ih =>
    by_cases h : e.1 == k
    · simp [put, h, get?_cons]
    · simp [put, h, get?_cons, ih]

theorem get?_put_of_ne [LawfulBEq κ] {es : Entries κ α} {j k : κ} {a : α} (h : k ≠ j) :
    (es.put j a).get? k = es.get? k := by
  have hj : (j == k) = false := by simpa using fun e => h e.symm
  induction es with
  | nil => simp [put, get?_cons, hj]
  | cons e es ih =>
    by_cases he : e.1 == j
    · obtain rfl : e.1 = j := by simpa using he
      simp [put, get?_cons, hj]
    · simp [put, he, get?_cons, ih]

end Entries

end Schematic
