import Dis.Codec.Base16
import Dis.Text.Utf8
import Dis.Value
/-!
# Encodings

The texts a user types are decoded to the bytes a machine is fed, and the words a machine puts out
are encoded to text by their low eight bits. There are three encodings, found by name in any
letter case.
-/
namespace Dis

/-- A way between text and bytes. -/
inductive Encoding
  | utf8
  | base64
  | base16
  deriving DecidableEq, Repr

/-- Why something cannot be decoded or encoded.
mirrors `DecodeError` -/
inductive CodecError
  | unknown (name : Value)
  | base64 (c : Char) (offset : Nat)
  | base16 (c : Char) (offset : Nat)

/-- The wording of a codec error. -/
def CodecError.message : CodecError → String
  | unknown name => s!"no such encoding: {name.shown}"
  | base64 c offset => s!"non-base64 character {Text.quote c.toString} at offset {offset}"
  | base16 c offset => s!"non-hex character {Text.quote c.toString} at offset {offset}"

namespace Encoding

/-- The encodings, in the order they are offered. -/
def all : List Encoding := [utf8, base64, base16]

/-- The name of an encoding. -/
def name : Encoding → String
  | utf8 => "utf-8"
  | base64 => "base64"
  | base16 => "base16"

/-- The names of the encodings, in the order they are offered.
mirrors `ENCODINGS` -/
def names : List String := all.map name

/-- The names of the encodings as a usage line offers them. -/
def choice : String := "\x7b" ++ ",".intercalate names ++ "\x7d"

/-- The encoding with a given name, in any letter case. -/
def ofName? (s : String) : Option Encoding :=
  let lowered := String.ofList (Text.lowerAscii s.toList)
  all.find? (·.name = lowered)

/-- The encoding a value names.
mirrors `_lookup` -/
def find (v : Value) : Except CodecError Encoding :=
  match v with
  | .text s => match ofName? s with
    | some e => .ok e
    | none => .error (.unknown v)
  | _ => .error (.unknown v)

/-- The bytes a text stands for.
mirrors `CODECS` -/
def decode (e : Encoding) (text : List Char) : Except CodecError (List UInt8) :=
  match e with
  | utf8 => .ok (Utf8.encode text)
  | base64 => (Codec.Base64.decode text).mapError fun bad => .base64 bad.char bad.offset
  | base16 => (Codec.Base16.decode text).mapError fun bad => .base16 bad.char bad.offset

/-- The text of a byte sequence; in UTF-8, ill-formed pieces are replaced.
mirrors `CODECS` -/
def encode (e : Encoding) (bytes : List UInt8) : List Char :=
  match e with
  | utf8 => Utf8.decodeLossy bytes
  | base64 => Codec.Base64.encode bytes
  | base16 => Codec.Base16.encode bytes

/-- The low eight bits of an integer. -/
def lowByte (n : Int) : UInt8 := UInt8.ofNat (n.emod 256).toNat

/-- The text of words, by their low eight bits. -/
def encodeWords (e : Encoding) (words : List Nat) : String :=
  String.ofList (e.encode (words.map fun n => UInt8.ofNat (n % 256)))

end Encoding

/-! ## By name, for host values -/

/-- Why a host's call of a codec fails. -/
inductive CodecCallError
  | codec (e : CodecError)
  /-- What should be a text is none. -/
  | notText (e : Value.UseError)
  | conversion (e : Value.ConversionError)

/-- The wording of a failed call. -/
def CodecCallError.message : CodecCallError → String
  | codec e => e.message
  | notText e => e.message
  | conversion e => e.message

namespace Codec

/-- What reading a text in an encoding begins with. -/
def firstUse : Encoding → String
  | .utf8 => "encode"
  | .base64 => "replace"
  | .base16 => "split"

/-- The bytes a text stands for in the encoding with a given name.
mirrors `decode_input` -/
def decodeInput (name text : Value) : Except CodecCallError (List UInt8) := do
  let e ← (Encoding.find name).mapError .codec
  match text with
  | .text s => (e.decode s.toList).mapError .codec
  | v => .error (.notText ⟨v.kindName, firstUse e⟩)

/-- The low bytes of values, each turned into an integer first. -/
def lowBytes (vs : List Value) : Except CodecCallError (List UInt8) :=
  vs.mapM fun v => (v.toInt.map Encoding.lowByte).mapError .conversion

/-- The text of values in the encoding with a given name.
mirrors `encode_output` -/
def encodeOutput (name : Value) (vs : List Value) : Except CodecCallError String := do
  let e ← (Encoding.find name).mapError .codec
  let bytes ← lowBytes vs
  .ok (String.ofList (e.encode bytes))

end Codec
end Dis
