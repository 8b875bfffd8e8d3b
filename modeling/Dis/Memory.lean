import Dis.Radix
/-!
# Memory

A row of 59049 words, one for each word as address. Every write is checked: an address has to be
an integer in range and a value has to be a word. Reads of a range follow the usual rules for
start, stop and step, negative positions counting from the end.
-/
namespace Dis

/-- The words of a machine, by address.
mirrors `Memory` -/
structure Memory where
  words : Array Nat
  deriving DecidableEq, Repr

/-- An access that memory refuses. -/
inductive AccessError
  | address (kind : String)
  | outOfRange (key : Int)
  | rangeWrite
  | zeroStep
  | value (e : RangeError)

/-- The wording of a refused access. -/
def AccessError.message : AccessError → String
  | address kind => s!"memory address must be an integer, not {kind}"
  | outOfRange key => s!"memory address out of range: {key}"
  | rangeWrite => "memory does not support slice assignment"
  | zeroStep => "slice step cannot be zero"
  | value e => e.message

/-- A stretch of positions: from `start` up to but without `stop`, `step` apart; each may be
absent. -/
structure Stretch where
  start : Option Int
  stop : Option Int
  step : Option Int

namespace Stretch

/-- A bound brought into range: negative ones count from the end, and what lies outside is moved
to `low` or `high`. -/
def clamp (size low high : Int) (bound : Int) : Int :=
  let b := if bound < 0 then bound + size else bound
  max low (min high b)

/-- `count` positions from `first`, `step` apart. -/
def positionsFrom (first step : Int) (count : Nat) : List Nat :=
  (List.range count).map fun (i : Nat) => (first + step * i).toNat

/-- The positions a stretch picks from a row of `size` elements; none if the step is zero. -/
def positions? (s : Stretch) (size : Nat) : Option (List Nat) :=
  let step := s.step.getD 1
  if step = 0 then none
  else if 0 < step then
    let first := (s.start.map (clamp size 0 size)).getD 0
    let last := (s.stop.map (clamp size 0 size)).getD size
    some (positionsFrom first step ((last - first + step - 1).toNat / step.toNat))
  else
    let first := (s.start.map (clamp size (-1) (size - 1))).getD (size - 1)
    let last := (s.stop.map (clamp size (-1) (size - 1))).getD (-1)
    some (positionsFrom first step ((first - last - step - 1).toNat / (-step).toNat))

end Stretch

namespace Memory

/-- The number of words.
mirrors `MEMORY_SIZE` -/
def size : Nat := Radix.trits.limit

/-- Memory that starts with the given codes and is zero behind them. -/
def ofImage (image : Array Nat) : Memory :=
  ⟨image ++ Array.replicate (size - image.size) 0⟩

/-- The words of a list of values, checked one by one. -/
def checkWords (what : String) (done : Array Nat) : List Value → Except RangeError (Array Nat)
  | [] => .ok done
  | v :: vs => match Radix.trits.check what v with
    | .error e => .error e
    | .ok n => checkWords what (done.push n) vs

/-- Memory that starts with the given values, which have to be words and not too many.
mirrors `Memory.__init__` -/
def ofValues (vs : List Value) : Except RangeError Memory := do
  let image ← checkWords "memory word" #[] vs
  if size < image.size then .error (.imageLength image.size size) else .ok (ofImage image)

/-- The word at an address. -/
def read (m : Memory) (address : Nat) : Nat := m.words.getD address 0

/-- Memory with a new word at an address. -/
def write (m : Memory) (address word : Nat) : Memory :=
  ⟨m.words.setIfInBounds address word⟩

/-- The address a value is.
mirrors `Memory._index` -/
def address : Value → Except AccessError Nat
  | .int key => if key < 0 || size ≤ key then .error (.outOfRange key) else .ok key.toNat
  | v => .error (.address v.kindName)

/-- The word at a checked address.
mirrors `Memory.__getitem__` -/
def get (m : Memory) (key : Value) : Except AccessError Nat := do
  let a ← address key
  .ok (m.read a)

/-- Memory after a checked write.
mirrors `Memory.__setitem__` -/
def set (m : Memory) (key v : Value) : Except AccessError Memory := do
  let a ← address key
  let word ← (Radix.trits.check s!"memory[{a}]" v).mapError .value
  .ok (m.write a word)

/-- The words a stretch picks.
mirrors `Memory.__getitem__` -/
def slice (m : Memory) (s : Stretch) : Except AccessError (List Nat) :=
  match s.positions? m.words.size with
  | none => .error .zeroStep
  | some positions => .ok (positions.map m.read)

/-- Writing to a stretch is refused, whatever it is.
mirrors `Memory.__setitem__` -/
def setSlice (_ : Memory) (_ : Stretch) (_ : Value) : Except AccessError Memory :=
  .error .rangeWrite

end Memory
end Dis
