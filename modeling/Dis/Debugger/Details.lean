import Dis.Debugger.Reply
import Dis.RunSort
/-!
# Details of an error

An error reported by a host may carry details. Whatever they are, they are read as a table: an
object is one, and a list or a text is read as a row of pairs, each pair being a list of two items,
a text of two characters or an object of two fields. A later pair replaces the value of an equal
key, and truth values are equal to one and zero.

In a document the keys are sorted. Numbers and texts have no order between them, so that a table
with both cannot be written; the complaint names the first two such keys that the sort compares.
-/
namespace Dis.Debugger

/-- A key of a table. -/
inductive Key
  | null
  | bool (b : Bool)
  | num (n : Int)
  | real (x : Real)
  | str (s : String)
  deriving DecidableEq, Repr

/-- Why details cannot be read as a table, or the table cannot be written. -/
inductive DetailsError
  | notIterable (kind : String)
  | notSequence (index : Nat)
  | notPair (index length : Nat)
  | notKey (kind : String)
  | order (e : Value.OrderError)
  deriving DecidableEq, Repr

/-- The wording of refused details. -/
def DetailsError.message : DetailsError → String
  | notIterable kind => s!"'{kind}' object is not iterable"
  | notSequence index =>
    s!"cannot convert dictionary update sequence element #{index} to a sequence"
  | notPair index length =>
    s!"dictionary update sequence element #{index} has length {length}; 2 is required"
  | notKey kind => s!"unhashable type: '{kind}'"
  | order e => e.message

/-- The name of a document's kind in messages. -/
def kindOf : Json → String
  | .null => "NoneType"
  | .bool _ => "bool"
  | .num _ => "int"
  | .real _ => "float"
  | .str _ => "str"
  | .arr _ => "list"
  | .obj _ => "dict"
  | .ordered _ => "dict"

/-- Whether details are worth showing. -/
def hasDetails : Json → Bool
  | .null => false
  | .bool b => b
  | .num n => n != 0
  | .real x => !x.isZero
  | .str s => !s.isEmpty
  | .arr items => !items.isEmpty
  | .obj fields => !fields.isEmpty
  | .ordered fields => !fields.isEmpty

namespace Key

/-- The document that is a key. -/
def toJson : Key → Json
  | null => .null
  | bool b => .bool b
  | num n => .num n
  | real x => .real x
  | str s => .str s

/-- The key a document is. -/
def ofJson : Json → Except DetailsError Key
  | .null => .ok null
  | .bool b => .ok (bool b)
  | .num n => .ok (num n)
  | .real x => .ok (real x)
  | .str s => .ok (str s)
  | j => .error (.notKey (kindOf j))

/-- The name of a key's kind in messages. -/
def kindName (k : Key) : String := kindOf k.toJson

/-- The number a key is, truth values included. -/
def number? : Key → Option Real
  | bool b => some (.exactly (if b then 1 else 0))
  | num n => some (.exactly n)
  | real x => some x
  | _ => none

/-- Whether two keys are one in a table. -/
def same (x y : Key) : Bool :=
  match x.number?, y.number? with
  | some m, some n => m.same n
  | _, _ => x = y

/-- A key as the name of a field. -/
def name : Key → String
  | str s => s
  | k => k.toJson.render

/-- Whether one key comes before another, if they have an order. -/
def before (x y : Key) : Except DetailsError Bool :=
  match x.number?, y.number?, x, y with
  | some m, some n, _, _ => .ok (m.less n)
  | _, _, str s, str t => .ok (decide (s < t))
  | _, _, _, _ => .error (.order ⟨"<", x.kindName, y.kindName⟩)

end Key

/-- A table: its keys, each once, with their values. -/
abbrev Table := List (Key × Json)

namespace Table

/-- Put a value behind a key; a key that is there already stays and gets the value. -/
def put (key : Key) (value : Json) : Table → Table
  | [] => [(key, value)]
  | (k, v) :: rest => if k.same key then (k, value) :: rest else (k, v) :: put key value rest

/-- The items of a document that is a sequence. -/
def sequence? : Json → Option (List Json)
  | .arr items => some items
  | .str s => some (s.toList.map fun c => .str c.toString)
  | .obj fields => some (fields.map fun f => .str f.1)
  | .ordered fields => some (fields.map fun f => .str f.1)
  | _ => none

/-- Read pairs, the first of which has a given number, behind what was read before. -/
def ofPairs (index : Nat) (table : Table) : List Json → Except DetailsError Table
  | [] => .ok table
  | pair :: pairs => match sequence? pair with
    | none => .error (.notSequence index)
    | some [key, value] => match Key.ofJson key with
      | .error e => .error e
      | .ok key => ofPairs (index + 1) (put key value table) pairs
    | some items => .error (.notPair index items.length)

/-- The table that details are read as. -/
def ofDetails (details : Json) : Except DetailsError Table :=
  match details with
  | .obj fields => .ok (fields.map fun f => (.str f.1, f.2))
  | .ordered fields => .ok (fields.map fun f => (.str f.1, f.2))
  | _ => match sequence? details with
    | some items => ofPairs 0 [] items
    | none => .error (.notIterable (kindOf details))

/-- The table with its keys in order. -/
def sorted (table : Table) : Except DetailsError Table :=
  RunSort.sort (fun x y => x.1.before y.1) table

/-- The table as a document. -/
def toJson (table : Table) : Except DetailsError Json := do
  let table ← table.sorted
  .ok (.ordered (table.map fun e => (e.1.name, e.2)))

end Table

/-- Report an error with details. They are read also where they are not shown.
mirrors `emit_error` -/
def reportError (json : Bool) (message : Value) (details : Option Json) :
    Except DetailsError (Array Event) := do
  match details.filter hasDetails with
  | none => .ok (errorEvents json message none)
  | some details =>
    let table ← Table.ofDetails details
    if json then .ok (errorEvents json message (some (← table.toJson)))
    else .ok (errorEvents json message none)

end Dis.Debugger
