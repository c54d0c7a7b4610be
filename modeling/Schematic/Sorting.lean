/-!
Sorting by a comparison that may fail and need not be an order.

The result of an order is the stable one. For any other comparison it depends on which pairs are
compared, and so the way is fixed: runs that are there already are kept, short ones are extended by
binary insertion, and neighbouring runs are merged, by gallops where one of them keeps winning.
-/

namespace Schematic.Sorting

variable {α ε : Type}

def holdsAt (test : α → Except ε Bool) (a : Array α) (i : Nat) : Except ε Bool :=
  match a[i]? with
  | some x => test x
  | none => .ok false

/-- Halves the positions from `lo` to `hi`, going left where the test says so. -/
def halve (left : α → Except ε Bool) (a : Array α) (lo hi : Nat) : Except ε Nat :=
  if lo < hi then do
    let middle := lo + (hi - lo) / 2
    if ← holdsAt left a middle then halve left a lo middle else halve left a (middle + 1) hi
  else .ok lo
termination_by hi - lo

/-- The strides of a gallop as long as the test goes on: the last that it passed, and the next. -/
def stride (goesOn : Nat → Except ε Bool) (limit : Nat) : Nat → Nat → Nat → Except ε (Nat × Nat)
  | 0, last, next => .ok (last, min next limit)
  | fuel + 1, last, next => do
    if next < limit then
      if ← goesOn next then stride goesOn limit fuel next (2 * next + 1) else return (last, next)
    else return (last, limit)

/-- Where the test first goes left, found by gallops away from a position. -/
def gallop (left : α → Except ε Bool) (a : Array α) (origin : Nat) : Except ε Nat := do
  if ← holdsAt left a origin then
    let (last, next) ← stride (fun k => holdsAt left a (origin - k)) (origin + 1) a.size 0 1
    halve left a (origin + 1 - next) (origin - last)
  else
    let right := fun k => return !(← holdsAt left a (origin + k))
    let (last, next) ← stride right (a.size - origin) a.size 0 1
    halve left a (origin + last + 1) (origin + next)

def insertAll (lt : α → α → Except ε Bool) (run : Array α) : List α → Except ε (Array α)
  | [] => .ok run
  | x :: xs => do
    let i ← halve (lt x) run 0 run.size
    insertAll lt (run.extract 0 i ++ #[x] ++ run.extract i run.size) xs

def followers (goesOn : α → α → Except ε Bool) (previous : α) :
    List α → Except ε (List α × List α)
  | [] => .ok ([], [])
  | x :: xs => do
    if ← goesOn previous x then
      let (run, rest) ← followers goesOn x xs
      return (x :: run, rest)
    else return ([], x :: xs)

/-- The run at the front of a list, with the rest of the list. A run that falls all the way is turned
round. -/
def firstRun (lt : α → α → Except ε Bool) : List α → Except ε (Array α × List α)
  | x :: y :: rest => do
    let falls := fun a b => lt b a
    if ← falls x y then
      let (run, rest) ← followers falls y rest
      return ((x :: y :: run).reverse.toArray, rest)
    else
      let (run, rest) ← followers (fun a b => return !(← falls a b)) y rest
      return ((x :: y :: run).toArray, rest)
  | xs => .ok (xs.toArray, [])

def minRun (n : Nat) : Nat :=
  go n n 0
where
  go : Nat → Nat → Nat → Nat
    | 0, n, odd => n + odd
    | fuel + 1, n, odd => if n < 64 then n + odd else go fuel (n / 2) (max odd (n % 2))

def runs (lt : α → α → Except ε Bool) (least : Nat) : Nat → List α → Except ε (List (Array α))
  | 0, _ => .ok []
  | _, [] => .ok []
  | fuel + 1, xs => do
    let (run, rest) ← firstRun lt xs
    let run' ← insertAll lt run (rest.take (least - run.size))
    return run' :: (← runs lt least fuel (rest.drop (least - run.size)))

inductive End
  | front
  | back
  deriving DecidableEq

namespace End

def next? (e : End) (a : Array α) : Option α :=
  match e with
  | front => a[0]?
  | back => a.back?

def split (e : End) (k : Nat) (a : Array α) : Array α × Array α :=
  match e with
  | front => (a.extract 0 k, a.extract k a.size)
  | back => (a.extract (a.size - k) a.size, a.extract 0 (a.size - k))

def append (e : End) (done more : Array α) : Array α :=
  match e with
  | front => done ++ more
  | back => more ++ done

/-- The number of elements at the front that a test does not go left of, or of those at the back that
it goes left of. -/
def count (e : End) (left : α → Except ε Bool) (a : Array α) : Except ε Nat :=
  match e with
  | front => gallop left a 0
  | back => return a.size - (← gallop left a (a.size - 1))

end End

/-- Two runs under way: what is merged, and what is left of the shorter and of the longer run. At the
front the shorter run is the earlier one, at the back the later one. -/
structure Merge (α : Type) where
  done : Array α
  short : Array α
  long : Array α
  /-- How often a run has to win before it is galloped through. -/
  patience : Nat

namespace Merge

variable (lt : α → α → Except ε Bool) (e : End)

def finish (m : Merge α) : Array α :=
  if m.short.size = 1 then e.append (e.append m.done m.long) m.short
  else e.append (e.append m.done m.short) m.long

def isOver (m : Merge α) : Bool :=
  m.long.isEmpty || m.short.size ≤ 1

def takeShort (m : Merge α) (k : Nat) : Merge α :=
  let (taken, rest) := e.split k m.short
  { m with done := e.append m.done taken, short := rest }

def takeLong (m : Merge α) (k : Nat) : Merge α :=
  let (taken, rest) := e.split k m.long
  { m with done := e.append m.done taken, long := rest }

def longWins (m : Merge α) : Except ε Bool :=
  match e.next? m.short, e.next? m.long with
  | some s, some l => match e with
    | .front => lt l s
    | .back => lt s l
  | _, _ => .ok true

def shortLead (m : Merge α) : Except ε Nat :=
  match e.next? m.long with
  | some l => match e with
    | .front => e.count (lt l) m.short
    | .back => e.count (fun s => return !(← lt s l)) m.short
  | none => .ok 0

def longLead (m : Merge α) : Except ε Nat :=
  match e.next? m.short with
  | some s => match e with
    | .front => e.count (fun l => return !(← lt l s)) m.long
    | .back => e.count (lt s) m.long
  | none => .ok 0

/-- Half a round of galloping: through the shorter run, then one element of the longer one. -/
def gallopShort (m : Merge α) : Except ε (Nat × Merge α) := do
  let k ← m.shortLead lt e
  let m := m.takeShort e k
  return (k, if k != 0 && m.isOver then m else m.takeLong e 1)

def gallopLong (m : Merge α) : Except ε (Nat × Merge α) := do
  let k ← m.longLead lt e
  let m := m.takeLong e k
  return (k, if k != 0 && m.isOver then m else m.takeShort e 1)

def minLead : Nat := 7

/-- A round of galloping, and whether another one follows. -/
def gallopRound (m : Merge α) : Except ε (Bool × Merge α) := do
  let m := { m with patience := m.patience - (if 1 < m.patience then 1 else 0) }
  let first := match e with
    | .front => gallopShort lt e
    | .back => gallopLong lt e
  let second := match e with
    | .front => gallopLong lt e
    | .back => gallopShort lt e
  let (j, m) ← first m
  if m.isOver then return (false, m)
  let (k, m) ← second m
  return (minLead ≤ j || minLead ≤ k, m)

/-- Merges until a run is over. `wins` counts how often the same run has won, and is nothing while
galloping. -/
def run : Nat → Option (Bool × Nat) → Merge α → Except ε (Merge α)
  | 0, _, m => .ok m
  | fuel + 1, wins, m => do
    if m.isOver then return m
    match wins with
    | some (winner, count) =>
      let long ← m.longWins lt e
      let m := if long then m.takeLong e 1 else m.takeShort e 1
      let count := if long = winner then count + 1 else 1
      if m.isOver then return m
      if m.patience ≤ count then run fuel none { m with patience := m.patience + 1 }
      else run fuel (some (long, count)) m
    | none =>
      let (again, m) ← m.gallopRound lt e
      if m.isOver then return m
      if again then run fuel none m
      else run fuel (some (true, 0)) { m with patience := m.patience + 1 }

end Merge

/-- Merges two neighbouring runs. What need not move at their outer ends stays. -/
def merge (lt : α → α → Except ε Bool) (patience : Nat) (a b : Array α) :
    Except ε (Nat × Array α) := do
  match b[0]? with
  | none => return (patience, a)
  | some y =>
    let i ← gallop (lt y) a 0
    let low := a.extract 0 i
    let a := a.extract i a.size
    match a.back? with
    | none => return (patience, low ++ b)
    | some x =>
      let j ← gallop (fun y => return !(← lt y x)) b (b.size - 1)
      let high := b.extract j b.size
      let b := b.extract 0 j
      if b.isEmpty then return (patience, low ++ a ++ high)
      let e := if a.size ≤ b.size then End.front else .back
      let m : Merge α := match e with
        | .front => ⟨#[], a, b, patience⟩
        | .back => ⟨#[], b, a, patience⟩
      let m ← (m.takeLong e 1).run lt e (a.size + b.size) (some (true, 0))
      return (m.patience, low ++ m.finish e ++ high)

/-- Runs that wait for a merge, the last one first, each with the depth of the boundary behind it. -/
structure Pile (α : Type) where
  runs : List (Array α × Nat)
  patience : Nat

/-- How deep the boundary between two neighbouring runs lies when so many elements are halved again
and again: the first place at which the fractions of their middles differ. -/
def depth (start first second total : Nat) : Nat :=
  go total (2 * start + first) (2 * start + 2 * first + second) 1
where
  go : Nat → Nat → Nat → Nat → Nat
    | 0, _, _, depth => depth
    | fuel + 1, a, b, depth =>
      if total ≤ a then go fuel (2 * (a - total)) (2 * (b - total)) (depth + 1)
      else if total ≤ b then depth
      else go fuel (2 * a) (2 * b) (depth + 1)

namespace Pile

variable (lt : α → α → Except ε Bool)

def start (p : Pile α) : Nat :=
  p.runs.tail.foldl (fun n r => n + r.1.size) 0

/-- Merges the last two runs as long as their boundary lies deeper than the next one. -/
def settle (next : Nat) : Nat → Pile α → Except ε (Pile α)
  | fuel + 1, ⟨(b, _) :: (a, boundary) :: rest, patience⟩ => do
    if next < boundary then
      let (patience, c) ← merge lt patience a b
      settle next fuel ⟨(c, boundary) :: rest, patience⟩
    else return ⟨(b, next) :: (a, boundary) :: rest, patience⟩
  | _, ⟨(b, _) :: rest, patience⟩ => .ok ⟨(b, next) :: rest, patience⟩
  | _, p => .ok p

def push (total : Nat) (p : Pile α) (run : Array α) : Except ε (Pile α) := do
  let p ← match p.runs with
    | (last, _) :: _ => p.settle lt (depth p.start last.size run.size total) p.runs.length
    | [] => .ok p
  return { p with runs := (run, 0) :: p.runs }

/-- Merges all runs, a short run in front of the last two with the run behind it first. -/
def collapse : Nat → Pile α → Except ε (Array α)
  | fuel + 1, ⟨(c, j) :: (b, i) :: (a, h) :: rest, patience⟩ => do
    if a.size < c.size then
      let (patience, ab) ← merge lt patience a b
      collapse fuel ⟨(c, j) :: (ab, h) :: rest, patience⟩
    else
      let (patience, bc) ← merge lt patience b c
      collapse fuel ⟨(bc, i) :: (a, h) :: rest, patience⟩
  | _, ⟨[(b, _), (a, _)], patience⟩ => return (← merge lt patience a b).2
  | _, p => .ok ((p.runs.reverse.map (·.1)).foldl (· ++ ·) #[])

end Pile

def sort (lt : α → α → Except ε Bool) (xs : List α) : Except ε (List α) := do
  let runs ← runs lt (minRun xs.length) xs.length xs
  let pile ← runs.foldlM (Pile.push lt xs.length) ⟨[], Merge.minLead⟩
  return (← pile.collapse lt pile.runs.length).toList

end Schematic.Sorting
