/-!
# Floating-point numbers

A host may hand over a floating-point number of 53 binary digits: a whole mantissa below `2 ^ 53`
times a power of two between `-1074` and `971`, an infinity, or nothing defined.

* A decimal text is read as the number nearest to it; between two, the one with an even mantissa.
* A number is written with the fewest decimal digits that are read back as the same number, and of
  those the nearest to it.
-/
namespace Dis

/-- A floating-point number; a finite one is `mantissa * 2 ^ exponent` with a sign. -/
inductive Real
  | finite (negative : Bool) (mantissa : Nat) (exponent : Int)
  | infinite (negative : Bool)
  | undefined
  deriving DecidableEq, Repr, Inhabited

namespace Real

/-- The number of binary digits of a mantissa. -/
def precision : Nat := 53

/-- The least exponent. -/
def leastExponent : Int := -1074

/-- The greatest exponent. -/
def greatestExponent : Int := 971

/-! ## Rounding -/

/-- A fraction times a power of a base, as a fraction. -/
def scale (base : Nat) (num den : Nat) (exponent : Int) : Nat × Nat :=
  if 0 ≤ exponent then (num * base.pow exponent.toNat, den)
  else (num, den * base.pow (-exponent).toNat)

/-- The natural number nearest to a fraction; a tie goes to the even neighbour. -/
def roundHalfEven (num den : Nat) : Nat :=
  let q := num / den
  let r := num % den
  if den < 2 * r || (2 * r = den && q % 2 = 1) then q + 1 else q

/-- The exponent with which a positive fraction has all digits of a mantissa, or the least one. -/
def exponentFor (num den : Nat) : Int :=
  let low := max leastExponent ((Nat.log2 num : Int) - Nat.log2 den - precision)
  let (n, d) := scale 2 num den (-low)
  if n / d < Nat.pow 2 precision then low else low + 1

/-- The number nearest to a fraction. -/
def ofFraction (negative : Bool) (num den : Nat) : Real :=
  if num = 0 then finite negative 0 0
  else
    let exponent := exponentFor num den
    let (n, d) := scale 2 num den (-exponent)
    let mantissa := roundHalfEven n d
    let (mantissa, exponent) :=
      if mantissa = Nat.pow 2 precision then (mantissa / 2, exponent + 1) else (mantissa, exponent)
    if greatestExponent < exponent then infinite negative
    else if mantissa = 0 then finite negative 0 0
    else finite negative mantissa exponent

/-! ## Reading -/

/-- The digits of a decimal fraction: the number they form without the point, how many there are,
and how many of them stand behind the point. Underscores between digits are passed over. -/
def readFraction (value count behind : Nat) (afterPoint : Bool) : List Char → Nat × Nat × Nat
  | [] => (value, count, behind)
  | c :: cs =>
    if c = '.' then readFraction value count behind true cs
    else if c = '_' then readFraction value count behind afterPoint cs
    else
      readFraction (value * 10 + (c.toNat - 48)) (count + 1)
        (if afterPoint then behind + 1 else behind) afterPoint cs

/-- The exponent behind its mark, zero without one. -/
def readExponent : List Char → Int
  | _ :: '-' :: cs => -((readFraction 0 0 0 false cs).1 : Int)
  | _ :: '+' :: cs => (readFraction 0 0 0 false cs).1
  | _ :: cs => (readFraction 0 0 0 false cs).1
  | [] => 0

/-- The most decimal digits before the point, or zeros behind it, that a finite number other than
zero can have. -/
def decimalRange : Int := 400

/-- An unsigned decimal text. -/
def readUnsigned (negative : Bool) (cs : List Char) : Real :=
  let isMark (c : Char) : Bool := c = 'e' || c = 'E'
  let (value, count, behind) := readFraction 0 0 0 false (cs.takeWhile (!isMark ·))
  let exponent := readExponent (cs.dropWhile (!isMark ·)) - behind
  if value = 0 || exponent + count < -decimalRange then finite negative 0 0
  else if decimalRange < exponent + (Nat.log2 value / 4 : Nat) then infinite negative
  else
    let (num, den) := scale 10 value 1 exponent
    ofFraction negative num den

/-- A text without a sign: a word in any letter case, or a decimal. -/
def readMagnitude (negative : Bool) (cs : List Char) : Real :=
  match String.ofList (cs.map Char.toLower) with
  | "nan" => undefined
  | "inf" => infinite negative
  | "infinity" => infinite negative
  | _ => readUnsigned negative cs

/-- The number a decimal text stands for. -/
def read (text : String) : Real :=
  match text.toList.filter (!·.isWhitespace) with
  | '-' :: cs => readMagnitude true cs
  | '+' :: cs => readMagnitude false cs
  | cs => readMagnitude false cs

/-! ## Whole numbers and order -/

/-- The integer between a finite number and zero that is nearest to the number. -/
def wholePart (mantissa : Nat) (exponent : Int) : Nat :=
  let (num, den) := scale 2 mantissa 1 exponent
  num / den

/-- Whether a finite number has no fraction. -/
def isWhole (mantissa : Nat) (exponent : Int) : Bool :=
  let (num, den) := scale 2 mantissa 1 exponent
  num % den == 0

/-- A natural number with a sign. -/
def signed (negative : Bool) (n : Nat) : Int :=
  if negative then -(n : Int) else n

/-- The integer a number equals, if it equals one. -/
def toWhole? : Real → Option Int
  | finite negative mantissa exponent =>
    if isWhole mantissa exponent then some (signed negative (wholePart mantissa exponent)) else none
  | _ => none

/-- An integer as it is, with as many digits as it has, for comparisons. -/
def exactly (n : Int) : Real := finite (decide (n < 0)) n.natAbs 0

/-- Whether one number is less than another; an undefined one is not, and nothing is less than it. -/
def less (x y : Real) : Bool :=
  match x, y with
  | undefined, _ => false
  | _, undefined => false
  | infinite negative, infinite other => negative && !other
  | infinite negative, finite .. => negative
  | finite .., infinite other => !other
  | finite negative mantissa exponent, finite negative' mantissa' exponent' =>
    let least := min exponent exponent'
    decide (signed negative (mantissa * Nat.pow 2 (exponent - least).toNat) <
      signed negative' (mantissa' * Nat.pow 2 (exponent' - least).toNat))

/-- Whether two numbers are equal. -/
def same (x y : Real) : Bool :=
  match x, y with
  | undefined, _ => false
  | _, undefined => false
  | _, _ => !x.less y && !y.less x

/-- Whether a number is zero. -/
def isZero : Real → Bool
  | finite _ mantissa _ => mantissa == 0
  | _ => false

/-! ## Writing -/

/-- A row of decimal digits and a power of ten: `digits * 10 ^ exponent`. -/
structure Decimal where
  digits : Nat
  exponent : Int

/-- The number of decimal digits before the point of a positive fraction; zero or less counts the
zeros behind the point. `fuel` bounds the zeros. -/
def decimalSize (num den : Nat) : Nat → Int
  | 0 => 0
  | fuel + 1 =>
    if den ≤ num then ((Nat.toDigits 10 (num / den)).length : Int)
    else if den ≤ num * 10 then 0
    else decimalSize (num * 10) den fuel - 1

/-- The neighbours of a positive fraction among the decimals with a given exponent that lie between
two bounds; `closed` says whether the bounds count. The nearer one comes out, the even one of two
equally near. The bounds are fractions with a common denominator. -/
def decimalBetween (num low high den : Nat) (closed : Bool) (exponent : Int) : Option Nat :=
  let inside (n : Nat) : Bool :=
    let (x, y) := scale 10 n 1 exponent
    if closed then decide (low * y ≤ x * den) && decide (x * den ≤ high * y)
    else decide (low * y < x * den) && decide (x * den < high * y)
  let (n, d) := scale 10 num den (-exponent)
  let below := n / d
  let nearest := roundHalfEven n d
  let other := if nearest = below then below + 1 else below
  if inside nearest then some nearest else if inside other then some other else none

/-- The first of the decimals with one digit more each time that lies between the bounds. -/
def shortestFrom (num low high den : Nat) (closed : Bool) (exponent : Int) : Nat → Decimal
  | 0 => ⟨num / den, 0⟩
  | fuel + 1 => match decimalBetween num low high den closed exponent with
    | some n => ⟨n, exponent⟩
    | none => shortestFrom num low high den closed (exponent - 1) fuel

/-- A decimal without zeros at its end. -/
def Decimal.trim (d : Decimal) : Nat → Decimal
  | 0 => d
  | fuel + 1 =>
    if d.digits % 10 = 0 then Decimal.trim ⟨d.digits / 10, d.exponent + 1⟩ fuel else d

/-- The shortest decimal that is read back as a positive number. The bounds are the middles between
the number and its neighbours; the lower neighbour of a power of two is nearer. -/
def shortest (mantissa : Nat) (exponent : Int) : Decimal :=
  let (num, den) := scale 2 (4 * mantissa) 4 exponent
  let (unit, _) := scale 2 1 4 exponent
  let nearer := mantissa = Nat.pow 2 (precision - 1) && leastExponent < exponent
  let low := num - (if nearer then unit else 2 * unit)
  let size := decimalSize num den 400
  let d := shortestFrom num low (num + 2 * unit) den (mantissa % 2 = 0) (size - 1) 20
  d.trim 400

/-- The digits of a natural number. -/
def digitsOf (n : Nat) : List Char := Nat.toDigits 10 n

/-- A row of zeros. -/
def zeros (n : Nat) : List Char := List.replicate n '0'

/-- A decimal written out with a point; `size` digits stand before it. -/
def positional (digits : List Char) (size : Int) : List Char :=
  if size ≤ 0 then '0' :: '.' :: zeros (-size).toNat ++ digits
  else if (digits.length : Int) ≤ size then
    digits ++ zeros (size.toNat - digits.length) ++ ['.', '0']
  else digits.take size.toNat ++ '.' :: digits.drop size.toNat

/-- An exponent with its sign and two digits at least. -/
def exponentText (n : Int) : List Char :=
  let digits := digitsOf n.natAbs
  'e' :: (if n < 0 then '-' else '+') :: zeros (2 - digits.length) ++ digits

/-- A decimal written with one digit before the point and an exponent. -/
def scientific (digits : List Char) (size : Int) : List Char :=
  let rest := digits.drop 1
  digits.take 1 ++ (if rest.isEmpty then [] else '.' :: rest) ++ exponentText (size - 1)

/-- A positive number in decimal: with a point if it has at most sixteen digits before the point
and at most three zeros behind it, and else with an exponent. -/
def decimalText (d : Decimal) : List Char :=
  let digits := digitsOf d.digits
  let size := digits.length + d.exponent
  if -4 < size && size ≤ 16 then positional digits size else scientific digits size

/-- A number as text. -/
def text : Real → String
  | undefined => "nan"
  | infinite negative => if negative then "-inf" else "inf"
  | finite negative mantissa exponent =>
    let body := if mantissa = 0 then ['0', '.', '0'] else decimalText (shortest mantissa exponent)
    String.ofList (if negative then '-' :: body else body)

end Real
end Dis
