/-!
# Sorting by runs

A stable sort whose comparison may fail. The first failing comparison ends the sort, so it matters
which elements are compared, and in which order.

* From the front on, the list is cut into runs that go up, or strictly down and are then reversed.
  A run that is too short is filled up with the elements behind it, each put in its place by
  halving.
* Neighbouring runs are merged. The border between two runs has a power: the number of the binary
  digit in which the middles of the runs, as fractions of the whole list, differ first. Borders of a
  high power are merged before the next run is taken, and the rest at the end.
-/
namespace Dis.RunSort

variable {α ε : Type} (before : α → α → Except ε Bool)

/-! ## Runs -/

/-- The longest run at the front that goes on down, or on up, behind `last`. `run` holds the part
found so far, last first; gives the whole run so and what follows it. -/
def takeRun (down : Bool) (last : α) (run : List α) : List α → Except ε (List α × List α)
  | [] => .ok (run, [])
  | x :: xs => match before x last with
    | .error e => .error e
    | .ok less => if less = down then takeRun down x (x :: run) xs else .ok (run, x :: xs)

/-- The place of an element among the sorted ones from `low` on and before `high`, by halving. -/
def placeOf (sorted : List α) (x : α) (low high : Nat) : Except ε Nat :=
  if _h : low < high then
    let middle := low + (high - low) / 2
    match sorted[middle]? with
    | none => .ok low
    | some y => match before x y with
      | .error e => .error e
      | .ok true => placeOf sorted x low middle
      | .ok false => placeOf sorted x (middle + 1) high
  else .ok low
termination_by high - low

/-- Put elements in their places among the sorted ones. -/
def insertAll (sorted : List α) : List α → Except ε (List α)
  | [] => .ok sorted
  | x :: xs => match placeOf before sorted x 0 sorted.length with
    | .error e => .error e
    | .ok n => insertAll (sorted.take n ++ x :: sorted.drop n) xs

/-- The run at the front, filled up to a least length, and what follows it. -/
def frontRun (least : Nat) : List α → Except ε (List α × List α)
  | x :: y :: rest => do
    let down ← before y x
    let (run, rest) ← takeRun before down y [y, x] rest
    let run := if down then run else run.reverse
    let missing := least - run.length
    .ok (← insertAll before run (rest.take missing), rest.drop missing)
  | xs => .ok (xs, [])

/-- The least length of a run: the length of the list halved until it is below 64, and one more if
a remainder was dropped on the way. -/
def leastRun (dropped n : Nat) : Nat :=
  if n < 64 then n + dropped else leastRun (max dropped (n % 2)) (n / 2)
termination_by n
decreasing_by omega

/-! ## Merging -/

/-- Two runs merged; of equal elements those of the first run come first. -/
def merge : List α → List α → Except ε (List α)
  | [], ys => .ok ys
  | xs, [] => .ok xs
  | x :: xs, y :: ys => do
    if ← before y x then .ok (y :: (← merge (x :: xs) ys))
    else .ok (x :: (← merge xs (y :: ys)))
termination_by xs ys => xs.length + ys.length

/-- A run that waits to be merged. -/
structure Waiting (α : Type) where
  start : Nat           -- its place in the list
  items : List α
  power : Nat           -- of the border behind it

/-- The power of a border, given the doubled middles of the runs on both sides. -/
def powerFrom (total : Nat) : Nat → Nat → Nat → Nat
  | 0, _, _ => 0
  | fuel + 1, left, right =>
    if total ≤ left then 1 + powerFrom total fuel (2 * (left - total)) (2 * (right - total))
    else if total ≤ right then 1
    else 1 + powerFrom total fuel (2 * left) (2 * right)

/-- The power of the border behind a run of a list, when a run of length `next` follows. -/
def borderPower (total start length next : Nat) : Nat :=
  let left := 2 * start + length
  powerFrom total (total + 2) left (left + length + next)

/-- Merge the last runs as long as the border between them has more than a power. The last run
comes first in the row. -/
def mergeAbove (power : Nat) : List (Waiting α) → Except ε (List (Waiting α))
  | last :: previous :: rest => do
    if power < previous.power then
      let items ← merge before previous.items last.items
      mergeAbove power ({ previous with items } :: rest)
    else .ok (last :: previous :: rest)
  | row => .ok row
termination_by row => row.length

/-- Put a run behind the waiting ones. -/
def push (total : Nat) (start : Nat) (items : List α) :
    List (Waiting α) → Except ε (List (Waiting α))
  | [] => .ok [⟨start, items, 0⟩]
  | last :: rest => do
    let power := borderPower total last.start last.items.length items.length
    match ← mergeAbove before power (last :: rest) with
    | [] => .ok [⟨start, items, 0⟩]
    | last :: rest => .ok (⟨start, items, 0⟩ :: { last with power } :: rest)

/-- Cut a list into runs and put them behind the waiting ones; `fuel` bounds their number. -/
def pushRuns (total least : Nat) :
    Nat → Nat → List (Waiting α) → List α → Except ε (List (Waiting α))
  | 0, _, row, _ => .ok row
  | _, _, row, [] => .ok row
  | fuel + 1, start, row, xs => do
    let (run, rest) ← frontRun before least xs
    let row ← push before total start run row
    pushRuns total least fuel (start + run.length) row rest

/-- Merge all waiting runs, the shorter of the neighbours first. -/
def mergeAll : List (Waiting α) → Except ε (List α)
  | [] => .ok []
  | [run] => .ok run.items
  | last :: middle :: first :: rest => do
    if first.items.length < last.items.length then
      let items ← merge before first.items middle.items
      mergeAll (last :: { first with items } :: rest)
    else
      let items ← merge before middle.items last.items
      mergeAll ({ middle with items } :: first :: rest)
  | [last, first] => merge before first.items last.items
termination_by row => row.length

/-- A list sorted, if all comparisons made succeed. -/
def sort (xs : List α) : Except ε (List α) := do
  let row ← pushRuns before xs.length (leastRun 0 xs.length) xs.length 0 [] xs
  mergeAll before row

end Dis.RunSort
