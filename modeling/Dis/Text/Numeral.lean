import Dis.Text.Blank
import Dis.Text.Digit
import Dis.Text.LowerCase
import Dis.Text.Quoted
/-!
# Integer numerals

How an integer is read from text.

* Blanks around the numeral and one sign before it are allowed.
* Single underscores may stand between digits, and one after a base mark.
* In automatic base, `0x`, `0o` and `0b` mark bases 16, 8 and 2, and a decimal numeral that starts
  with a zero has to be zero.
* Digits of other scripts count as ASCII digits.

`readAddress` adds the mark `0t` for base three.
-/
namespace Dis.Text

/-- The base a numeral is read in. -/
inductive Base
  /-- Taken from the numeral's mark, ten without one. -/
  | auto
  /-- Given beforehand; no mark is allowed. -/
  | fixed (base : Nat)

/-- The number that names a base in messages; zero stands for the automatic one. -/
def Base.number : Base → Nat
  | .auto => 0
  | .fixed base => base

/-- A text that is no numeral of the base it was read in. -/
structure NumeralError where
  base : Base
  text : String

/-- The most characters of a quoted text that the wording of a refused numeral shows. -/
def shownLength : Nat := 200

/-- The wording of a refused numeral. -/
def NumeralError.message (e : NumeralError) : String :=
  let shown := String.ofList ((quoteChars e.text.toList).take shownLength)
  s!"invalid literal for int() with base {e.base.number}: {shown}"

/-- Blanks allowed around a numeral: tab, line feed, vertical tab, form feed, carriage return and
space, and the blanks outside ASCII. -/
def isNumeralBlank (c : Char) : Bool :=
  let n := c.toNat
  (9 ≤ n && n ≤ 13) || n == 32 || (128 ≤ n && isBlank c)

/-- The value of an ASCII digit or letter as a digit, up to thirty-five. -/
def digitValue? (c : Char) : Option Nat :=
  let n := c.toNat
  if 48 ≤ n && n ≤ 57 then some (n - 48)
  else if 97 ≤ n && n ≤ 122 then some (n - 87)
  else if 65 ≤ n && n ≤ 90 then some (n - 55)
  else none

/-- Digits of a base with single underscores between them. `value` is what stands before, and
`needDigit` says that a digit has to come next. -/
def readDigitsFrom (base : Nat) (value : Nat) (needDigit : Bool) : List Char → Option Nat
  | [] => if needDigit then none else some value
  | c :: cs =>
    if c = '_' then
      if needDigit then none else readDigitsFrom base value true cs
    else match digitValue? c with
      | some d => if d < base then readDigitsFrom base (value * base + d) false cs else none
      | none => none

/-- The value of a non-empty row of digits with single underscores between them. -/
def readDigits (base : Nat) (cs : List Char) : Option Nat :=
  readDigitsFrom base 0 true cs

/-- The digits after a base mark; one underscore may stand between the mark and the digits. -/
def readMarked (base : Nat) : List Char → Option Nat
  | '_' :: cs => readDigits base cs
  | cs => readDigits base cs

/-- An unsigned numeral of automatic base. -/
def readAuto : List Char → Option Nat
  | '0' :: 'x' :: cs => readMarked 16 cs
  | '0' :: 'X' :: cs => readMarked 16 cs
  | '0' :: 'o' :: cs => readMarked 8 cs
  | '0' :: 'O' :: cs => readMarked 8 cs
  | '0' :: 'b' :: cs => readMarked 2 cs
  | '0' :: 'B' :: cs => readMarked 2 cs
  | '0' :: cs => (readDigits 10 ('0' :: cs)).filter (· = 0)
  | cs => readDigits 10 cs

/-- An unsigned numeral. -/
def readUnsigned : Base → List Char → Option Nat
  | .auto, cs => readAuto cs
  | .fixed base, cs => readDigits base cs

/-- A numeral with an optional sign. -/
def readSigned (base : Base) : List Char → Option Int
  | '+' :: cs => (readUnsigned base cs).map Int.ofNat
  | '-' :: cs => (readUnsigned base cs).map fun n => -(n : Int)
  | cs => (readUnsigned base cs).map Int.ofNat

/-- A text without the blanks allowed around a numeral. -/
def trimNumeral (cs : List Char) : List Char :=
  ((cs.dropWhile isNumeralBlank).reverse.dropWhile isNumeralBlank).reverse

/-- The integer a text stands for. The number of digits has no bound here; the readers this follows
refuse a decimal numeral of more than 4300. -/
def readInt (base : Base) (s : String) : Except NumeralError Int :=
  match readSigned base ((trimNumeral s.toList).map plainDigit) with
  | some n => .ok n
  | none => .error ⟨base, s⟩

/-- An address or count as typed: decimal, marked with `0x`, `0o` or `0b`, or marked with `0t` and
written in base three. Letter case and blanks around it do not matter.
mirrors `parse_int` -/
def readAddress (s : String) : Except NumeralError Int :=
  match lower (trim s.toList) with
  | '0' :: 't' :: cs => readInt (.fixed 3) (String.ofList cs)
  | cs => readInt .auto (String.ofList cs)

end Dis.Text
