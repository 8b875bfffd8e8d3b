import Dis.Instruction
import Dis.Radix
import Dis.Text.Quoted
/-!
# Program text

A program text is a sequence of command characters. Between them may stand blanks, from a set of
the loader's own, and comments: an opening parenthesis and everything up to the first closing one.
Anything else is refused, and so is a text with more commands than memory has words.

`parse` reads a text; a refusal names the place of the first offender, or of the parenthesis that
opens a comment without an end.
-/
namespace Dis.Program

/-- The characters skipped between commands, the byte-order mark among them.
mirrors `WHITESPACE` -/
def isSkipped (c : Char) : Bool :=
  let n := c.toNat
  (9 ≤ n && n ≤ 13) || n == 32 || n == 0xA0 || n == 0x1680 || (0x2000 ≤ n && n ≤ 0x200A) ||
    n == 0x2028 || n == 0x2029 || n == 0x202F || n == 0x205F || n == 0x3000 || n == 0xFEFF

/-- The code points of the skipped characters, in order. -/
def skippedCodes : List Nat :=
  (List.range 0x10000).filter fun n => isSkipped (Char.ofNat n)

/-- The number of words a program may fill. -/
def capacity : Nat := Radix.trits.limit

/-- A place in a text; both counts start at one. -/
structure Place where
  line : Nat
  column : Nat
  deriving DecidableEq, Repr

/-- Why a text is no program. -/
inductive Refusal
  | notInstruction (c : Char)
  | tooLong
  | openComment
  deriving DecidableEq, Repr

/-- A refusal and where it arose.
mirrors `ProgramSyntaxError` -/
structure ParseError where
  why : Refusal
  place : Place
  deriving DecidableEq, Repr

/-- The wording of a refusal. -/
def Refusal.message : Refusal → String
  | notInstruction c => s!"not a valid instruction: {Text.quote c.toString}"
  | tooLong => "program too long"
  | openComment => "unterminated comment"

/-- The wording of a parse error, with its place. -/
def ParseError.message (e : ParseError) : String :=
  s!"{e.why.message} (line {e.place.line}, column {e.place.column})"

/-- Where the reader stands: the line and column of the last character read (column zero after a
line feed), the place of the comment it is in, and the codes loaded so far. -/
structure Reader where
  line : Nat := 1
  column : Nat := 0
  comment : Option Place := none
  image : Array Nat := #[]

namespace Reader

/-- Count one more character. -/
def advance (r : Reader) (c : Char) : Reader :=
  if c = '\n' then { r with line := r.line + 1, column := 0 }
  else { r with column := r.column + 1 }

/-- The place of the last character read. -/
def place (r : Reader) : Place := ⟨r.line, r.column⟩

/-- Read one character, counted already.
mirrors the body of the loop of `parse_program` -/
def accept (r : Reader) (c : Char) : Except ParseError Reader :=
  match r.comment with
  | some _ => .ok (if c = ')' then { r with comment := none } else r)
  | none =>
    if isSkipped c then .ok r
    else if c = '(' then .ok { r with comment := some r.place }
    else match Instruction.ofChar? c with
      | none => .error ⟨.notInstruction c, r.place⟩
      | some i =>
        if capacity ≤ r.image.size then .error ⟨.tooLong, r.place⟩
        else .ok { r with image := r.image.push i.code }

/-- Read the rest of a text.
mirrors the loop of `parse_program` -/
def readAll (r : Reader) : List Char → Except ParseError (Array Nat)
  | [] => match r.comment with
    | some place => .error ⟨.openComment, place⟩
    | none => .ok r.image
  | c :: cs => match (r.advance c).accept c with
    | .error e => .error e
    | .ok r => r.readAll cs

end Reader

/-- The codes a program text loads into memory, in order.
mirrors `parse_program` -/
def parse (text : List Char) : Except ParseError (Array Nat) :=
  Reader.readAll {} text

end Dis.Program
