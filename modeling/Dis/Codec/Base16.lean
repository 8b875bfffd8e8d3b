import Dis.Codec.Base64
/-!
# Base 16

Two hexadecimal digits to a byte. Writing uses capital letters. Reading takes either case, drops
blanks, and ignores a last digit that has no partner.
-/
namespace Dis.Codec.Base16

/-- The value of a hexadecimal digit. -/
def nibble? (c : Char) : Option Nat :=
  let n := c.toNat
  if 48 ≤ n && n ≤ 57 then some (n - 48)
  else if 65 ≤ n && n ≤ 70 then some (n - 55)
  else if 97 ≤ n && n ≤ 102 then some (n - 87)
  else none

/-- The capital hexadecimal digit of a value below sixteen. -/
def digit (n : Nat) : Char :=
  if n < 10 then Char.ofNat (n + 48) else Char.ofNat (n + 55)

/-- A text as it is read: without blanks.
mirrors `_strip_space` -/
def compact (text : List Char) : List Char :=
  text.filter (!Text.isBlank ·)

/-- The values of the digits from `offset` on, after those in `done`, last first. -/
def nibbles (offset : Nat) (done : List Nat) : List Char → Except Base64.BadChar (List Nat)
  | [] => .ok done.reverse
  | c :: cs => match nibble? c with
    | some n => nibbles (offset + 1) (n :: done) cs
    | none => .error ⟨c, offset⟩

/-- The bytes of pairs of digit values; a value without a partner is dropped. -/
def bytes : List Nat → List UInt8
  | a :: b :: rest => UInt8.ofNat (a * 16 + b) :: bytes rest
  | _ => []

/-- The bytes a text stands for.
mirrors `decode_base16` -/
def decode (text : List Char) : Except Base64.BadChar (List UInt8) :=
  (nibbles 0 [] (compact text)).map bytes

/-- The text of a byte sequence.
mirrors `encode_base16` -/
def encode (bs : List UInt8) : List Char :=
  bs.flatMap fun b => [digit (b.toNat / 16), digit (b.toNat % 16)]

end Dis.Codec.Base16
