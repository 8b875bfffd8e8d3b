/-!
# Words typed at a prompt

A command line is cut into words the way a shell does it. Space, tab, carriage return and line
feed separate words. Single quotes keep everything between them. Double quotes keep everything but
a backslash before a double quote or another backslash. Outside quotes a backslash keeps the next
character. Quoted pieces join what stands next to them, and an empty pair of quotes is a word.
-/
namespace Dis.Text.ShellWords

/-- Characters between words. -/
def isSeparator (c : Char) : Bool :=
  c = ' ' || c = '\t' || c = '\r' || c = '\n'

/-- Where the splitter stands. -/
inductive Mode
  | between
  | word
  | single
  | double
  /-- Behind a backslash outside quotes. -/
  | escaped
  /-- Behind a backslash in double quotes. -/
  | escapedDouble
  deriving DecidableEq, Repr

/-- Why a line cannot be cut into words. -/
inductive SplitError
  | openQuotation
  | openEscape
  deriving DecidableEq, Repr

/-- The wording of a split error. -/
def SplitError.message : SplitError → String
  | openQuotation => "No closing quotation"
  | openEscape => "No escaped character"

/-- The splitter: where it stands, the word under way, last character first, and the words before,
last word first. -/
structure State where
  mode : Mode
  word : List Char
  words : List String

namespace State

/-- Add a character to the word under way and go on in a mode. -/
def push (s : State) (c : Char) (mode : Mode) : State :=
  { s with word := c :: s.word, mode }

/-- Close the word under way. -/
def close (s : State) : State :=
  ⟨.between, [], String.ofList s.word.reverse :: s.words⟩

/-- Read one character. -/
def accept (s : State) (c : Char) : State :=
  match s.mode with
  | .between =>
    if isSeparator c then s
    else if c = '\\' then { s with mode := .escaped }
    else if c = '\'' then { s with mode := .single }
    else if c = '"' then { s with mode := .double }
    else s.push c .word
  | .word =>
    if isSeparator c then s.close
    else if c = '\\' then { s with mode := .escaped }
    else if c = '\'' then { s with mode := .single }
    else if c = '"' then { s with mode := .double }
    else s.push c .word
  | .single => if c = '\'' then { s with mode := .word } else s.push c .single
  | .double =>
    if c = '"' then { s with mode := .word }
    else if c = '\\' then { s with mode := .escapedDouble }
    else s.push c .double
  | .escaped => s.push c .word
  | .escapedDouble =>
    if c = '"' || c = '\\' then s.push c .double
    else (s.push '\\' .double).push c .double

/-- The words of a line read to its end. -/
def finish (s : State) : Except SplitError (List String) :=
  match s.mode with
  | .between => .ok s.words.reverse
  | .word => .ok s.close.words.reverse
  | .single => .error .openQuotation
  | .double => .error .openQuotation
  | .escaped => .error .openEscape
  | .escapedDouble => .error .openEscape

end State

/-- The words of a line. -/
def split (line : List Char) : Except SplitError (List String) :=
  (line.foldl State.accept ⟨.between, [], []⟩).finish

end Dis.Text.ShellWords
