import Dis.Value
/-!
# JSON replies

Replies for programs are JSON documents, written over several lines with an indent of two, with
the fields of an object sorted by code point and with ASCII characters only: everything else is
escaped in UTF-16 units. An object whose fields have an order of their own is kept in it.
-/
namespace Dis

/-- A JSON document. -/
inductive Json
  | null
  | bool (b : Bool)
  | num (n : Int)
  | real (x : Real)
  | str (s : String)
  | arr (items : List Json)
  | obj (fields : List (String × Json))
  /-- An object whose fields stay in their order. -/
  | ordered (fields : List (String × Json))
  deriving Inhabited

namespace Json

/-- A UTF-16 unit as an escape. -/
def escapedUnit (n : Nat) : List Char :=
  '\\' :: 'u' :: Text.hexDigits 4 n

/-- One character of a JSON string. -/
def escapedChar (c : Char) : List Char :=
  let n := c.toNat
  if c = '"' then ['\\', '"']
  else if c = '\\' then ['\\', '\\']
  else if c = '\n' then ['\\', 'n']
  else if c = '\r' then ['\\', 'r']
  else if c = '\t' then ['\\', 't']
  else if n = 8 then ['\\', 'b']
  else if n = 12 then ['\\', 'f']
  else if 32 ≤ n && n < 127 then [c]
  else if n < 0x10000 then escapedUnit n
  else escapedUnit (0xD800 + (n - 0x10000) / 0x400) ++ escapedUnit (0xDC00 + (n - 0x10000) % 0x400)

/-- A JSON string. -/
def quoted (s : String) : String :=
  String.ofList ('"' :: s.toList.flatMap escapedChar ++ ['"'])

/-- A line break and the indent of a depth. -/
def newline (depth : Nat) : String :=
  "\n" ++ String.ofList (List.replicate (2 * depth) ' ')

/-- Pieces between brackets, each on a line of its own. -/
def bracketed (left right : String) (depth : Nat) (pieces : List String) : String :=
  if pieces.isEmpty then left ++ right
  else
    left ++ newline (depth + 1) ++ ("," ++ newline (depth + 1)).intercalate pieces ++
      newline depth ++ right

/-- Fields in the order of their names. -/
def sortFields (fields : List (String × String)) : List (String × String) :=
  fields.mergeSort fun x y => decide (x.1 ≤ y.1)

/-- The text of a floating-point number. -/
def realText : Real → String
  | .infinite negative => if negative then "-Infinity" else "Infinity"
  | .undefined => "NaN"
  | x => x.text

/-- A field as it prints. -/
def fieldText (f : String × String) : String := quoted f.1 ++ ": " ++ f.2

mutual

/-- A document at a depth. -/
def renderAt (depth : Nat) : Json → String
  | null => "null"
  | bool b => if b then "true" else "false"
  | num n => toString n
  | real x => realText x
  | str s => quoted s
  | arr items => bracketed "[" "]" depth (renderItems (depth + 1) items)
  | obj fields =>
    bracketed "\x7b" "\x7d" depth ((sortFields (renderFields (depth + 1) fields)).map fieldText)
  | ordered fields =>
    bracketed "\x7b" "\x7d" depth ((renderFields (depth + 1) fields).map fieldText)

/-- The items of an array. -/
def renderItems (depth : Nat) : List Json → List String
  | [] => []
  | j :: js => renderAt depth j :: renderItems depth js

/-- The fields of an object, each value rendered. -/
def renderFields (depth : Nat) : List (String × Json) → List (String × String)
  | [] => []
  | (name, j) :: fs => (name, renderAt depth j) :: renderFields depth fs

end

/-- A document as text.
mirrors `_json_dump` -/
def render (j : Json) : String := renderAt 0 j

mutual

/-- A host's value as a document. -/
def ofValue : Value → Json
  | .null => null
  | .truth b => bool b
  | .int n => num n
  | .real x => real x
  | .text s => str s
  | .list items => arr (ofValues items)

/-- Each of a host's values as a document. -/
def ofValues : List Value → List Json
  | [] => []
  | v :: vs => ofValue v :: ofValues vs

end

end Json
end Dis
