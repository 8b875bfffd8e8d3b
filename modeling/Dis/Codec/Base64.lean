import Dis.Text.Blank
/-!
# Base 64

Six bits to a character. Writing is the standard alphabet with padding. Reading is lenient: the
URL-safe letters count as their standard ones, blanks are dropped, padding may be missing or too
long, and the bits left over behind the last whole byte are ignored.
-/
namespace Dis.Codec.Base64

/-- The value of a character of the standard alphabet. -/
def sextet? (c : Char) : Option Nat :=
  let n := c.toNat
  if 65 ≤ n && n ≤ 90 then some (n - 65)
  else if 97 ≤ n && n ≤ 122 then some (n - 71)
  else if 48 ≤ n && n ≤ 57 then some (n + 4)
  else if c = '+' then some 62
  else if c = '/' then some 63
  else none

/-- The character of a value below 64. -/
def letter (n : Nat) : Char :=
  if n < 26 then Char.ofNat (n + 65)
  else if n < 52 then Char.ofNat (n + 71)
  else if n < 62 then Char.ofNat (n - 4)
  else if n = 62 then '+'
  else '/'

/-- A URL-safe letter read as its standard one. -/
def standard (c : Char) : Char :=
  if c = '-' then '+' else if c = '_' then '/' else c

/-- A text as it is read: standard letters only, without blanks and without padding behind.
mirrors the first lines of `decode_base64` -/
def compact (text : List Char) : List Char :=
  (((text.map standard).filter (!Text.isBlank ·)).reverse.dropWhile (· = '=')).reverse

/-- A character outside the alphabet, and its offset in the compact text. -/
structure BadChar where
  char : Char
  offset : Nat
  deriving DecidableEq, Repr

/-- The values of the characters from `offset` on, after those in `done`, last first. -/
def sextets (offset : Nat) (done : List Nat) : List Char → Except BadChar (List Nat)
  | [] => .ok done.reverse
  | c :: cs => match sextet? c with
    | some n => sextets (offset + 1) (n :: done) cs
    | none => .error ⟨c, offset⟩

/-- The whole bytes of a row of six-bit values. -/
def bytes : List Nat → List UInt8
  | a :: b :: c :: d :: rest =>
    UInt8.ofNat (a * 4 + b / 16) :: UInt8.ofNat (b % 16 * 16 + c / 4) ::
      UInt8.ofNat (c % 4 * 64 + d) :: bytes rest
  | [a, b, c] => [UInt8.ofNat (a * 4 + b / 16), UInt8.ofNat (b % 16 * 16 + c / 4)]
  | [a, b] => [UInt8.ofNat (a * 4 + b / 16)]
  | _ => []

/-- The bytes a text stands for.
mirrors `decode_base64` -/
def decode (text : List Char) : Except BadChar (List UInt8) :=
  (sextets 0 [] (compact text)).map bytes

/-- The padded text of a byte sequence.
mirrors `encode_base64` -/
def encode : List UInt8 → List Char
  | a :: b :: c :: rest =>
    letter (a.toNat / 4) :: letter (a.toNat % 4 * 16 + b.toNat / 16) ::
      letter (b.toNat % 16 * 4 + c.toNat / 64) :: letter (c.toNat % 64) :: encode rest
  | [a, b] =>
    [letter (a.toNat / 4), letter (a.toNat % 4 * 16 + b.toNat / 16), letter (b.toNat % 16 * 4), '=']
  | [a] => [letter (a.toNat / 4), letter (a.toNat % 4 * 16), '=', '=']
  | [] => []

end Dis.Codec.Base64
