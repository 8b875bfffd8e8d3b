import Dis.Machine
import Dis.Text.Align
/-!
# Listings

How words, traces and registers are written.

* A word that is an instruction's code is described by its character and mnemonic, any other by a
  dash.
* A listing describes consecutive words, around the end of memory; each line has the marks of the
  address, the address, the word in decimal and in digits, and the description.
* A trace line shows the registers and the two words of a step about to be made.

Numbers have at least five digits. The second half takes host values in place of words and refuses
what cannot be written.
-/
namespace Dis.Listing

/-- A word described: the instruction it is the code of, or a dash.
mirrors `describe_word` -/
def describe (word : Nat) : String :=
  match Instruction.ofCode? word with
  | some i => s!"'{i.char}' {i.mnemonic}"
  | none => "-"

/-- A number with five digits at least. -/
def number (n : Nat) : String := Text.zeroPadded 5 n

/-- One word of a listing. -/
structure Entry where
  address : Nat
  word : Nat
  deriving DecidableEq, Repr

namespace Entry

/-- The digits of the word. -/
def trits (e : Entry) : String := Radix.trits.format e.word

/-- The name of the instruction the word is the code of. -/
def mnemonic? (e : Entry) : Option String :=
  (Instruction.ofCode? e.word).map Instruction.mnemonic

/-- The description of the word. -/
def text (e : Entry) : String := describe e.word

/-- The line of an entry, given the marks of each address.
mirrors `format_listing` -/
def line (marks : Nat → String) (e : Entry) : String :=
  s!"{Text.alignRight 2 (marks e.address)} {number e.address}: {number e.word} {e.trits}  {e.text}"

end Entry

/-- The address `offset` places after `start` in a row of `size` words, around the end. -/
def addressAt (size : Nat) (start : Int) (offset : Nat) : Nat :=
  ((start + offset).emod size).toNat

/-- Describe `count` words of memory from `start`, around the end.
mirrors `disassemble` -/
def ofMemory (m : Memory) (start count : Int) : List Entry :=
  (List.range count.toNat).map fun offset =>
    let address := addressAt Memory.size start offset
    ⟨address, m.read address⟩

/-- The marks that name register C and D at their addresses, `both` where they meet. -/
def registerMarks (both : String) (m : Machine) (address : Nat) : String :=
  if address = m.c && address = m.d then both
  else if address = m.d then "D"
  else if address = m.c then "C"
  else ""

/-- The line a trace shows of a step about to be made.
mirrors `format_trace` -/
def traceLine (e : TraceEntry) : String :=
  let op := if (Instruction.ofCode? e.word).isSome then describe e.word else number e.word
  s!"[TRACE] C={number e.c} D={number e.d} A={number e.a} op={op} [D]={number e.operand}"

/-- One register in decimal and in digits. -/
def registerLine (name : String) (word : Nat) : String :=
  s!"  {name}: {number word} {Radix.trits.format word}"

/-- The registers in decimal and in digits.
mirrors `format_registers` -/
def registerLines (a c d : Nat) : List String :=
  [registerLine "A" a, registerLine "C" c, registerLine "D" d]

/-! ## Host values -/

/-- Why values cannot be listed. -/
inductive Refusal
  /-- There is no address in an empty row. -/
  | emptyRow
  | range (e : RangeError)
  /-- The value equals a code but is no integer. -/
  | notInteger (kind : String)
  /-- The value cannot be looked up. -/
  | notKey (kind : String)
  /-- The value is of a kind that numbers are not written from. -/
  | notDecimal (kind : String)
  /-- The value is of a kind that is not written with a width. -/
  | noWidth (kind : String)

/-- The wording of a refusal. -/
def Refusal.message : Refusal → String
  | emptyRow => "integer modulo by zero"
  | range e => e.message
  | notInteger kind => s!"'{kind}' object cannot be interpreted as an integer"
  | notKey kind => s!"unhashable type: '{kind}'"
  | notDecimal kind => s!"Unknown format code 'd' for object of type '{kind}'"
  | noWidth kind => s!"unsupported format string passed to {kind}.__format__"

/-- The word of a listing that a value is; `size` values stand in the row. -/
def entryOfValue (row : Array Value) (start : Int) (offset : Nat) : Except Refusal Entry :=
  let address := addressAt row.size start offset
  match Radix.trits.check "value" (row.getD address .null) with
  | .ok word => .ok ⟨address, word⟩
  | .error e => .error (.range e)

/-- Describe `count` values of a row from `start`, around the end.
mirrors `disassemble` -/
def ofValues (row : Array Value) (start count : Int) : Except Refusal (List Entry) :=
  if row.isEmpty && 0 < count then .error .emptyRow
  else (List.range count.toNat).mapM (entryOfValue row start)

/-- The instruction whose code a value equals. -/
def instructionOf (v : Value) : Except Refusal (Option Instruction) :=
  match v with
  | .list _ => .error (.notKey v.kindName)
  | _ => match v.equalInt? with
    | some n => .ok (if n < 0 then none else Instruction.ofCode? n.toNat)
    | none => .ok none

/-- A value described as a word would be.
mirrors `describe_word` -/
def describeValue (v : Value) : Except Refusal String := do
  match ← instructionOf v, v with
  | some i, .int _ => .ok (describe i.code)
  | some _, _ => .error (.notInteger v.kindName)
  | none, _ => .ok "-"

/-- A value written as a number with five digits at least. -/
def numberOfValue (v : Value) : Except Refusal String :=
  match v with
  | .int n => .ok (Text.zeroPaddedInt 5 n)
  | .truth b => .ok (Text.zeroPaddedInt 5 (if b then 1 else 0))
  | .real _ => .error (.notDecimal v.kindName)
  | .text _ => .error (.notDecimal v.kindName)
  | .null => .error (.noWidth v.kindName)
  | .list _ => .error (.noWidth v.kindName)

/-- The trace line of five values.
mirrors `format_trace` -/
def traceLineOfValues (a c d word operand : Value) : Except Refusal String := do
  let c ← numberOfValue c
  let d ← numberOfValue d
  let a ← numberOfValue a
  let op ← match ← instructionOf word with
    | some _ => describeValue word
    | none => numberOfValue word
  let operand ← numberOfValue operand
  .ok s!"[TRACE] C={c} D={d} A={a} op={op} [D]={operand}"

/-- One register line of a value. -/
def registerLineOfValue (name : String) (v : Value) : Except Refusal String := do
  let n ← numberOfValue v
  let trits ← (Radix.trits.checkedFormat v).mapError .range
  .ok s!"  {name}: {n} {trits}"

/-- The register lines of three values.
mirrors `format_registers` -/
def registerLinesOfValues (a c d : Value) : Except Refusal (List String) := do
  .ok [← registerLineOfValue "A" a, ← registerLineOfValue "C" c, ← registerLineOfValue "D" d]

end Dis.Listing
