import Schematic.Value
import Schematic.Entries
import Schematic.Position
/-!
A partition of `0, …, n - 1` as a forest. Looking up a representative halves the path to it, and
uniting two classes keeps the representative of the first.
-/

namespace Schematic

structure DisjointSets where
  parent : Array Nat
  deriving DecidableEq

namespace DisjointSets

def ofSize (n : Nat) : DisjointSets :=
  ⟨Array.range n⟩

def size (s : DisjointSets) : Nat :=
  s.parent.size

/-- Walks up from `i`, pointing every other node at its grandparent. -/
def climb : Nat → Array Nat → Nat → Nat × Array Nat
  | 0, parent, i => (i, parent)
  | fuel + 1, parent, i =>
    let p := parent.getD i i
    if p = i then (i, parent)
    else
      let g := parent.getD p p
      climb fuel (parent.setIfInBounds i g) g

/-- The representative of the class of `i`. A path is no longer than the number of elements. -/
def find (s : DisjointSets) (i : Nat) : Nat × DisjointSets :=
  let (root, parent) := climb s.size s.parent i
  (root, ⟨parent⟩)

def union (s : DisjointSets) (a b : Nat) : Nat × DisjointSets :=
  let (ra, s) := s.find a
  let (rb, s) := s.find b
  (ra, if ra = rb then s else ⟨s.parent.setIfInBounds rb ra⟩)

def connected (s : DisjointSets) (a b : Nat) : Bool × DisjointSets :=
  let (ra, s) := s.find a
  let (rb, s) := s.find b
  (ra == rb, s)

/-- The classes by representative, with their members in increasing order. -/
def groups (s : DisjointSets) : Entries Nat (List Nat) × DisjointSets :=
  (List.range s.size).foldl (fun (groups, s) i =>
    let (root, s) := s.find i
    (Entries.put groups root ((Entries.get? groups root).getD [] ++ [i]), s)) ([], s)

theorem size_climb (fuel : Nat) (parent : Array Nat) (i : Nat) :
    (climb fuel parent i).2.size = parent.size := by
  induction fuel generalizing parent i with
  | zero => rfl
  | succ fuel ih =>
    simp only [climb]
    split
    · rfl
    · simp [ih]

@[simp] theorem size_ofSize (n : Nat) : (ofSize n).size = n := by
  simp [ofSize, size]

@[simp] theorem size_find (s : DisjointSets) (i : Nat) : (s.find i).2.size = s.size := by
  simp [find, size, size_climb]

@[simp] theorem size_union (s : DisjointSets) (a b : Nat) : (s.union a b).2.size = s.size := by
  have ha := size_find s a
  have hb := size_find (s.find a).2 b
  simp only [union]
  split <;> simp_all [size]

/-- Looks up two representatives one after the other; the first look-up stands even if the second
position is bad. -/
def find₂ (s : DisjointSets) (a b : Int) : Except Fault (Nat × Nat) × DisjointSets :=
  match position? s.size a with
  | none => (.error .badIndex, s)
  | some a =>
    let (ra, s) := s.find a
    match position? s.size b with
    | none => (.error .badIndex, s)
    | some b =>
      let (rb, s) := s.find b
      (.ok (ra, rb), s)

def find? (s : DisjointSets) (i : Int) : Except Fault Nat × DisjointSets :=
  match position? s.size i with
  | none => (.error .badIndex, s)
  | some i => let (root, s) := s.find i; (.ok root, s)

def union? (s : DisjointSets) (a b : Int) : Except Fault Nat × DisjointSets :=
  match position? s.size a, position? s.size b with
  | some a, some b => let (root, s) := s.union a b; (.ok root, s)
  | _, _ => let (_, s) := s.find₂ a b; (.error .badIndex, s)

def connected? (s : DisjointSets) (a b : Int) : Except Fault Bool × DisjointSets :=
  match position? s.size a, position? s.size b with
  | some a, some b => let (same, s) := s.connected a b; (.ok same, s)
  | _, _ => let (_, s) := s.find₂ a b; (.error .badIndex, s)

end DisjointSets

end Schematic
