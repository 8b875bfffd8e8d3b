/-!
# Blank characters, line breaks and trimming

Two classes of characters and what is cut at them.

* `isBlank`: the characters that separate words and are trimmed from the ends of a text.
* `isLineBreak`: the characters that end a line of a text; a carriage return followed by a line
  feed is one break.

`unifyNewlines` is how text files and standard input are read: every `\r\n` and every lone `\r`
becomes `\n`, and nothing else changes.
-/
namespace Dis.Text

/-- Blank characters: the ASCII controls 9 to 13 and 28 to 31, the space, and the spaces and
separators outside ASCII. Zero-width characters and the byte-order mark are not blank. -/
def isBlank (c : Char) : Bool :=
  let n := c.toNat
  (9 ≤ n && n ≤ 13) || (28 ≤ n && n ≤ 32) || n == 0x85 || n == 0xA0 || n == 0x1680 ||
    (0x2000 ≤ n && n ≤ 0x200A) || n == 0x2028 || n == 0x2029 || n == 0x202F || n == 0x205F ||
    n == 0x3000

/-- Line breaks of a text: the controls 10 to 13 and 28 to 30, the next-line control and the line
and paragraph separators. -/
def isLineBreak (c : Char) : Bool :=
  let n := c.toNat
  (10 ≤ n && n ≤ 13) || (28 ≤ n && n ≤ 30) || n == 0x85 || n == 0x2028 || n == 0x2029

/-- Drop the blank characters at the front. -/
def trimLeft (cs : List Char) : List Char :=
  cs.dropWhile isBlank

/-- Drop the blank characters at the end. -/
def trimRight (cs : List Char) : List Char :=
  (cs.reverse.dropWhile isBlank).reverse

/-- Drop the blank characters at both ends. -/
def trim (cs : List Char) : List Char :=
  trimRight (trimLeft cs)

/-- The text without blank characters at its ends. -/
def trimmed (s : String) : String :=
  String.ofList (trim s.toList)

/-- The text without blank characters at its right end. -/
def rightTrimmed (s : String) : String :=
  String.ofList (trimRight s.toList)

/-- The maximal runs of non-blank characters, `word` being the run under way, last character
first. -/
def wordsFrom (word : List Char) : List Char → List (List Char)
  | [] => if word.isEmpty then [] else [word.reverse]
  | c :: cs =>
    if isBlank c then
      if word.isEmpty then wordsFrom [] cs else word.reverse :: wordsFrom [] cs
    else wordsFrom (c :: word) cs

/-- The maximal runs of non-blank characters of a text. -/
def words (cs : List Char) : List (List Char) :=
  wordsFrom [] cs

/-- The lines of a text, `line` being the line under way, last character first. A break at the
very end of the text opens no further line. -/
def linesFrom (line : List Char) : List Char → List (List Char)
  | [] => if line.isEmpty then [] else [line.reverse]
  | '\r' :: '\n' :: cs => line.reverse :: linesFrom [] cs
  | c :: cs => if isLineBreak c then line.reverse :: linesFrom [] cs else linesFrom (c :: line) cs

/-- The lines of a text, without their breaks. -/
def lines (cs : List Char) : List (List Char) :=
  linesFrom [] cs

/-- The state of `unifyNewlines`: what has been written, last character first, and whether the
character before was a carriage return. -/
structure NewlineState where
  written : List Char
  afterReturn : Bool

/-- Read one more character of a text whose newlines are being unified. -/
def NewlineState.push (s : NewlineState) (c : Char) : NewlineState :=
  if c = '\r' then ⟨'\n' :: s.written, true⟩
  else if c = '\n' && s.afterReturn then ⟨s.written, false⟩
  else ⟨c :: s.written, false⟩

/-- Every `\r\n` and every lone `\r` becomes `\n`. -/
def unifyNewlines (cs : List Char) : List Char :=
  (cs.foldl NewlineState.push ⟨[], false⟩).written.reverse

/-- Lines as standard input hands them out: cut at `\n` only, and a text that ends in `\n` has no
empty line after it. -/
def inputLinesFrom (line : List Char) : List Char → List (List Char)
  | [] => if line.isEmpty then [] else [line.reverse]
  | c :: cs => if c = '\n' then line.reverse :: inputLinesFrom [] cs else inputLinesFrom (c :: line) cs

/-- The lines standard input hands out for a text. -/
def inputLines (s : String) : List String :=
  (inputLinesFrom [] (unifyNewlines s.toList)).map String.ofList

end Dis.Text
