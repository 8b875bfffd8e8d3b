/-!
# UTF-8

Characters to bytes, and bytes to characters with whatever is wrong in them.

`pieces` cuts any byte sequence into well-formed characters and maximal ill-formed pieces; it is
total and loses no byte. The two ways of decoding are views of it: `decodeLossy` writes one
replacement character for each ill-formed piece, and `decode` stops at the first one.
-/
namespace Dis.Utf8

/-- The bytes of one character. -/
def encodeChar (c : Char) : List UInt8 :=
  let n := c.toNat
  if n < 0x80 then [UInt8.ofNat n]
  else if n < 0x800 then [UInt8.ofNat (0xC0 + n / 64), UInt8.ofNat (0x80 + n % 64)]
  else if n < 0x10000 then
    [UInt8.ofNat (0xE0 + n / 4096), UInt8.ofNat (0x80 + n / 64 % 64), UInt8.ofNat (0x80 + n % 64)]
  else
    [UInt8.ofNat (0xF0 + n / 262144), UInt8.ofNat (0x80 + n / 4096 % 64),
     UInt8.ofNat (0x80 + n / 64 % 64), UInt8.ofNat (0x80 + n % 64)]

/-- The bytes of a text. -/
def encode (cs : List Char) : List UInt8 :=
  cs.flatMap encodeChar

/-- What is wrong with a piece. -/
inductive Trouble
  /-- No character starts with this byte. -/
  | badStart
  /-- The byte after the piece cannot continue the character begun. -/
  | badContinuation
  /-- The bytes end inside a character. -/
  | cutShort
  deriving DecidableEq, Repr

/-- The wording of a trouble. -/
def Trouble.message : Trouble → String
  | .badStart => "invalid start byte"
  | .badContinuation => "invalid continuation byte"
  | .cutShort => "unexpected end of data"

/-- A well-formed character, or a maximal piece that is none, with its bytes. -/
inductive Piece
  | char (c : Char) (bytes : List UInt8)
  | bad (why : Trouble) (bytes : List UInt8)

/-- The bytes of a piece. -/
def Piece.bytes : Piece → List UInt8
  | .char _ bytes => bytes
  | .bad _ bytes => bytes

/-- Whether a byte may continue a character. -/
def isContinuation (b : UInt8) : Bool :=
  0x80 ≤ b && b ≤ 0xBF

/-- How a character goes on after its first byte: how many continuation bytes follow, the range of
the first of them, and the payload of the first byte. -/
structure Lead where
  more : Nat
  low : UInt8
  high : UInt8
  payload : Nat

/-- What a first byte above the ASCII range promises. Overlong forms, surrogates and code points
above the last are excluded by the range of the second byte. -/
def lead? (b : UInt8) : Option Lead :=
  if 0xC2 ≤ b && b ≤ 0xDF then some ⟨1, 0x80, 0xBF, b.toNat - 0xC0⟩
  else if b = 0xE0 then some ⟨2, 0xA0, 0xBF, 0⟩
  else if b = 0xED then some ⟨2, 0x80, 0x9F, 0xD⟩
  else if 0xE1 ≤ b && b ≤ 0xEF then some ⟨2, 0x80, 0xBF, b.toNat - 0xE0⟩
  else if b = 0xF0 then some ⟨3, 0x90, 0xBF, 0⟩
  else if 0xF1 ≤ b && b ≤ 0xF3 then some ⟨3, 0x80, 0xBF, b.toNat - 0xF0⟩
  else if b = 0xF4 then some ⟨3, 0x80, 0x8F, 4⟩
  else none

/-- Gather the `more` continuation bytes still owed. `taken` are the bytes of the piece so far,
last first, and `payload` is what they have contributed. -/
def gather (taken : List UInt8) (payload : Nat) : Nat → List UInt8 → Piece
  | 0, _ => .char (Char.ofNat payload) taken.reverse
  | _ + 1, [] => .bad .cutShort taken.reverse
  | more + 1, b :: rest =>
    if isContinuation b then gather (b :: taken) (payload * 64 + (b.toNat - 0x80)) more rest
    else .bad .badContinuation taken.reverse

/-- The piece that starts with byte `b` before `rest`. -/
def firstPiece (b : UInt8) (rest : List UInt8) : Piece :=
  if b < 0x80 then .char (Char.ofNat b.toNat) [b]
  else match lead? b with
    | none => .bad .badStart [b]
    | some l => match rest with
      | [] => .bad .cutShort [b]
      | b2 :: rest2 =>
        if l.low ≤ b2 && b2 ≤ l.high then
          gather [b2, b] (l.payload * 64 + (b2.toNat - 0x80)) (l.more - 1) rest2
        else .bad .badContinuation [b]

/-- The pieces of a byte sequence, `done` being those before it, last first. -/
def piecesFrom (done : List Piece) (bytes : List UInt8) : List Piece :=
  match bytes with
  | [] => done.reverse
  | b :: rest =>
    let piece := firstPiece b rest
    piecesFrom (piece :: done) (rest.drop (piece.bytes.length - 1))
termination_by bytes.length
decreasing_by simp only [List.length_drop, List.length_cons]; omega

/-- The pieces of a byte sequence. -/
def pieces (bytes : List UInt8) : List Piece :=
  piecesFrom [] bytes

/-- The replacement character. -/
def replacement : Char := Char.ofNat 0xFFFD

/-- What a piece is replaced with when decoding goes on over trouble. -/
def Piece.lossy : Piece → Char
  | .char c _ => c
  | .bad _ _ => replacement

/-- Decode with one replacement character for each ill-formed piece. -/
def decodeLossy (bytes : List UInt8) : List Char :=
  (pieces bytes).map Piece.lossy

/-- Where and why decoding stopped. -/
structure DecodeError where
  why : Trouble
  position : Nat
  bytes : List UInt8
  deriving DecidableEq, Repr

/-- Two lower-case hexadecimal digits. -/
def hexByte (b : UInt8) : String :=
  let digit (n : Nat) : Char := if n < 10 then Char.ofNat (48 + n) else Char.ofNat (87 + n)
  String.ofList [digit (b.toNat / 16), digit (b.toNat % 16)]

/-- The wording of a decoding error. -/
def DecodeError.message (e : DecodeError) : String :=
  let place := match e.bytes with
    | [b] => s!"byte 0x{hexByte b} in position {e.position}"
    | bytes => s!"bytes in position {e.position}-{e.position + bytes.length - 1}"
  "'utf-8' codec can't decode " ++ place ++ ": " ++ e.why.message

/-- The characters of well-formed pieces; `position` counts the bytes before and `done` holds the
characters before, last first. -/
def collect (position : Nat) (done : List Char) : List Piece → Except DecodeError (List Char)
  | [] => .ok done.reverse
  | .char c bytes :: rest => collect (position + bytes.length) (c :: done) rest
  | .bad why bytes :: _ => .error ⟨why, position, bytes⟩

/-- Decode well-formed bytes. -/
def decode (bytes : List UInt8) : Except DecodeError (List Char) :=
  collect 0 [] (pieces bytes)

end Dis.Utf8
