import Dis.Value
/-!
# Fixed-width numbers in a base

A `Radix` is a base and a number of digits; its words are the naturals below `base ^ digits`.
The machine's words are ten base-three digits.

* Digits: `toDigits` lists a word's digits, least significant first, and `ofDigitValues` adds up
  such a list, each digit with its weight.
* Rotation: `rotateOnce` moves the least significant digit to the top.
* Subtraction: `subtract` peels the digits off two words and takes their differences modulo the
  base, with no borrow; `checkedSubtractByDigits` goes through the two digit lists.

The operations on naturals are total. The checked operations take any host value and refuse what
is not a word.
-/
namespace Dis

/-- A base and a number of digits.
mirrors `TritMath` -/
structure Radix where
  base : Nat
  digits : Nat
  deriving DecidableEq, Repr

namespace Radix

/-- The words of the machine: ten digits of base three.
mirrors `DEFAULT` -/
def trits : Radix := ⟨3, 10⟩

/-- The weight of digit `i`: the base to the power `i`. -/
def weight (r : Radix) (i : Nat) : Nat := r.base.pow i

/-- The number of words: one more than the greatest word.
mirrors `TritMath.end_value` -/
def limit (r : Radix) : Nat := r.weight r.digits

/-- The greatest word.
mirrors `TritMath.max_value` -/
def greatest (r : Radix) : Nat := r.limit - 1

/-- The weight of the most significant digit. -/
def top (r : Radix) : Nat := r.limit / r.base

/-! ## Digits -/

/-- Digit `i` of a number, counted from the least significant one. -/
def digit (r : Radix) (x i : Nat) : Nat := x / r.weight i % r.base

/-- The digits of a word, least significant first. -/
def toDigits (r : Radix) (x : Nat) : List Nat :=
  (List.range r.digits).map (r.digit x)

/-- The digits of a word as text, most significant first, each digit a decimal number. -/
def format (r : Radix) (x : Nat) : String :=
  String.join ((r.toDigits x).reverse.map toString)

/-! ## Rotation and subtraction -/

/-- Move the least significant digit to the top. -/
def rotateOnce (r : Radix) (x : Nat) : Nat :=
  x / r.base + x % r.base * r.top

/-- Rotate `n` times. -/
def rotateTimes (r : Radix) : Nat → Nat → Nat
  | 0, x => x
  | n + 1, x => r.rotateTimes n (r.rotateOnce x)

/-- Rotate right by any integer; negative counts rotate left. -/
def rotate (r : Radix) (x : Nat) (y : Int) : Nat :=
  r.rotateTimes (y.emod r.digits).toNat x

/-- The difference of two digits, modulo the base. -/
def digitDifference (r : Radix) (dx dy : Nat) : Nat :=
  (r.base + dx - dy) % r.base

/-- Peel `n` digits off both numbers and add their differences to `result`, the first of them with
the weight `place`.
mirrors the loop of `TritMath.subtract` -/
def subtractFrom (r : Radix) (result place : Nat) : Nat → Nat → Nat → Nat
  | 0, _, _ => result
  | n + 1, x, y =>
    r.subtractFrom (result + r.digitDifference (x % r.base) (y % r.base) * place)
      (place * r.base) n (x / r.base) (y / r.base)

/-- Digitwise difference of two words, modulo the base and without borrow. -/
def subtract (r : Radix) (x y : Nat) : Nat :=
  r.subtractFrom 0 1 r.digits x y

/-- The word `y` steps after `x`, counted around the end. -/
def increment (r : Radix) (x : Nat) (y : Int) : Nat :=
  ((x + y : Int).emod r.limit).toNat

end Radix

/-! ## Checked operations -/

/-- A radix that cannot be: the base has to be an integer of at least two, the number of digits
one of at least one. -/
inductive RadixError
  | base (v : Value)
  | digits (v : Value)

/-- The wording of a refused radix. -/
def RadixError.message : RadixError → String
  | base v => s!"base must be an integer >= 2 (got {v.shown})"
  | digits v => s!"digits must be an integer >= 1 (got {v.shown})"

/-- A value outside what an operation on words takes.
mirrors `TritRangeError` -/
inductive RangeError
  /-- Something that has to be a word is none. -/
  | notWord (what : String) (radix : Radix) (v : Value)
  | incrementStep (v : Value)
  | rotationCount (v : Value)
  | digitCount (expected given : Nat)
  | digit (index base : Nat) (v : Value)
  | imageLength (given limit : Nat)

/-- The wording of a refused value. -/
def RangeError.message : RangeError → String
  | notWord what r v => s!"{what} is not a {r.digits}-digit base-{r.base} value: {v.shown}"
  | incrementStep v => s!"increment step must be an integer: {v.shown}"
  | rotationCount v => s!"rotation count must be an integer: {v.shown}"
  | digitCount expected given => s!"expected {expected} digits, got {given}"
  | digit index base v => s!"digit {index} out of range for base {base}: {v.shown}"
  | imageLength given limit => s!"memory image has {given} words, limit is {limit}"

/-- A refusal of a checked operation. Only a digit list has a second kind: a value that has no
length. -/
inductive DigitsError
  | range (e : RangeError)
  | noLength (kind : String)

/-- The wording of a refused digit list. -/
def DigitsError.message : DigitsError → String
  | range e => e.message
  | noLength kind => s!"object of type '{kind}' has no len()"

namespace Radix

/-- The radix with a given base and number of digits.
mirrors `TritMath.__init__` -/
def make (base digits : Value) : Except RadixError Radix :=
  match base with
  | .int b =>
    if b < 2 then .error (.base base)
    else match digits with
      | .int n => if n < 1 then .error (.digits digits) else .ok ⟨b.toNat, n.toNat⟩
      | _ => .error (.digits digits)
  | _ => .error (.base base)

/-- The word a value is, if it is one. -/
def word? (r : Radix) : Value → Option Nat
  | .int n => if 0 ≤ n && n < r.limit then some n.toNat else none
  | _ => none

/-- Whether a value is a word.
mirrors `TritMath.is_in_domain` -/
def isWord (r : Radix) (v : Value) : Bool :=
  (r.word? v).isSome

/-- The word a value is; `what` names the value in the refusal.
mirrors `TritMath.check` -/
def check (r : Radix) (what : String) (v : Value) : Except RangeError Nat :=
  match r.word? v with
  | some n => .ok n
  | none => .error (.notWord what r v)

/-- The word `y` steps after `x`, both checked.
mirrors `TritMath.increment` -/
def checkedIncrement (r : Radix) (x y : Value) : Except RangeError Nat := do
  let x ← r.check "value" x
  match y with
  | .int y => .ok (r.increment x y)
  | _ => .error (.incrementStep y)

/-- Rotate `x` right `y` times, both checked.
mirrors `TritMath.rotate_right` -/
def checkedRotate (r : Radix) (x y : Value) : Except RangeError Nat := do
  let x ← r.check "value" x
  match y with
  | .int y => .ok (r.rotate x y)
  | _ => .error (.rotationCount y)

/-- Digitwise difference of two checked words.
mirrors `TritMath.subtract` -/
def checkedSubtract (r : Radix) (x y : Value) : Except RangeError Nat := do
  let x ← r.check "value" x
  let y ← r.check "value" y
  .ok (r.subtract x y)

/-- The digits of a checked word.
mirrors `TritMath.to_digits` -/
def checkedToDigits (r : Radix) (x : Value) : Except RangeError (List Nat) := do
  let x ← r.check "value" x
  .ok (r.toDigits x)

/-- The digits of a checked word as text.
mirrors `TritMath.format_trits` -/
def checkedFormat (r : Radix) (x : Value) : Except RangeError String := do
  let x ← r.check "value" x
  .ok (r.format x)

/-- The digit a value is, if it is one. -/
def digit? (r : Radix) : Value → Option Nat
  | .int n => if 0 ≤ n && n < r.base then some n.toNat else none
  | _ => none

/-- Add the digits that values are to `value`, each with its weight; the first of them has the index
`index`.
mirrors the loop of `TritMath.from_digits` -/
def addDigits (r : Radix) (index value : Nat) : List Value → Except RangeError Nat
  | [] => .ok value
  | v :: vs => match r.digit? v with
    | some d => r.addDigits (index + 1) (value + d * r.weight index) vs
    | none => .error (.digit index r.base v)

/-- The word of a list of values that has to be a full list of digits. -/
def ofDigitValues (r : Radix) (vs : List Value) : Except RangeError Nat :=
  if vs.length ≠ r.digits then .error (.digitCount r.digits vs.length)
  else r.addDigits 0 0 vs

/-- Digitwise difference of two checked words, from their digit lists.
mirrors `TritMath.subtract_by_digits` -/
def checkedSubtractByDigits (r : Radix) (x y : Value) : Except RangeError Nat := do
  let xs ← r.checkedToDigits x
  let ys ← r.checkedToDigits y
  r.ofDigitValues (List.zipWith (fun dx dy => .int (r.digitDifference dx dy)) xs ys)

/-- The word of a value that has to be a full list of digits; a text is taken character by
character.
mirrors `TritMath.from_digits` -/
def ofDigitValue (r : Radix) : Value → Except DigitsError Nat
  | .list vs => (r.ofDigitValues vs).mapError .range
  | .text s => (r.ofDigitValues (s.toList.map fun c => .text c.toString)).mapError .range
  | v => .error (.noLength v.kindName)

/-- A radix as it appears in messages.
mirrors `TritMath.__repr__` -/
def shown (r : Radix) : String :=
  s!"TritMath(base={r.base}, digits={r.digits})"

end Radix
end Dis
