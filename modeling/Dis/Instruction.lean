/-!
# Instructions

The eight instructions. Each has a command character, which is how a program text names it, and a
code, which is how memory holds it: the code point of the character. A word that is no code does
nothing when executed.
-/
namespace Dis

/-- What the machine can do in one step. -/
inductive Instruction
  /-- Stop for good. -/
  | halt
  /-- Make D the word at D. -/
  | load
  /-- Rotate the word at D by one digit, into A and back to memory. -/
  | rotate
  /-- Make C the word at D. -/
  | jump
  /-- Do nothing. -/
  | pass
  /-- Append A to the output, or stop for good if A is the greatest word. -/
  | output
  /-- Subtract the word at D from A digit by digit, into A and back to memory. -/
  | subtract
  /-- Take the next input value into A, or the greatest word if there is none. -/
  | input
  deriving DecidableEq, Repr

namespace Instruction

/-- Every instruction, by code.
mirrors `OPCODE_LIST` -/
def all : List Instruction :=
  [halt, load, rotate, jump, pass, output, subtract, input]

/-- The command character.
mirrors `COMMAND_CHARS` -/
def char : Instruction → Char
  | halt => '!'
  | load => '*'
  | rotate => '>'
  | jump => '^'
  | pass => '_'
  | output => '\x7b'
  | subtract => '|'
  | input => '\x7d'

/-- The code in memory.
mirrors `OPCODES` -/
def code (i : Instruction) : Nat := i.char.toNat

/-- The name in listings.
mirrors `OPCODE_NAMES` -/
def mnemonic : Instruction → String
  | halt => "HALT"
  | load => "LOAD"
  | rotate => "ROT"
  | jump => "JMP"
  | pass => "NOP"
  | output => "OUT"
  | subtract => "SUB"
  | input => "IN"

/-- The instruction with a given code. -/
def ofCode? : Nat → Option Instruction
  | 33 => some halt
  | 42 => some load
  | 62 => some rotate
  | 94 => some jump
  | 95 => some pass
  | 123 => some output
  | 124 => some subtract
  | 125 => some input
  | _ => none

/-- The instruction a command character stands for. -/
def ofChar? (c : Char) : Option Instruction := ofCode? c.toNat

theorem ofCode?_code (i : Instruction) : ofCode? i.code = some i := by
  cases i <;> rfl

theorem code_of_ofCode? {n : Nat} {i : Instruction} (h : ofCode? n = some i) : i.code = n := by
  unfold ofCode? at h
  split at h <;> first | cases h; rfl | cases h

end Instruction
end Dis
