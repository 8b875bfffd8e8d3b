import Dis.Debugger.Dispatch
/-!
# Offers

What the debugger offers for a line that is being typed. The word under way is the last one; behind
a blank it is a new, empty word. The first word is completed to the names of commands; behind
`enc`, `mem` and `load` come directions and encodings, registers, and paths.

Names are compared in any letter case and replace the whole word. Paths are completed by the
terminal, not by the debugger: what completes them is a parameter.
-/
namespace Dis.Debugger

/-- A text offered, and where it goes: so many characters before the end of the line. -/
structure Completion where
  text : String
  back : Nat
  deriving DecidableEq, Repr

/-- The words of a line that is being typed. A line that cannot be cut by the rules of commands is
cut at blanks.
mirrors `_normalise_tokens` -/
def typedWords (line : List Char) : List String :=
  match Text.ShellWords.split line with
  | .ok words => words ++ if line.getLast?.any Text.isBlank then [""] else []
  | .error _ =>
    (Text.words line).map String.ofList ++
      if line.getLast?.any fun c => c = ' ' || c = '\t' then [""] else []

/-- Texts in order, each once. -/
def sortedOnce (texts : List String) : List String :=
  texts.eraseDups.mergeSort fun x y => decide (x ≤ y)

/-- The candidates that start like a word.
mirrors `DebuggerCompleter._completions` -/
def completeWord (candidates : List String) (word : String) : List Completion :=
  let start := Text.lower word.toList
  ((sortedOnce candidates).filter fun c => start.isPrefixOf (Text.lower c.toList)).map
    fun c => ⟨c, word.length⟩

/-- The command a word names for completion: by its alias, or by its own name if the alias leads
nowhere. -/
def commandTyped (ctx : Context) (word : String) : Option Command :=
  (Command.ofName? (ctx.resolveAlias word)).or (Command.all.find? (·.info.name = word))

/-- What completes the paths: the offers for a word, or why it cannot be completed. -/
abbrev PathCompleter := String → Except DocumentError (List Completion)

/-- What is offered for a line that is being typed.
mirrors `DebuggerCompleter.get_completions` -/
def completeWith (paths : PathCompleter) (ctx : Context) (line : List Char) :
    Except DocumentError (List Completion) :=
  match typedWords line with
  | [] => .ok (completeWord Command.allNames "")
  | [word] => .ok (completeWord Command.allNames word)
  | first :: rest =>
    let word := rest.getLast?.getD ""
    match commandTyped ctx first with
    | some .load => paths word
    | some .enc =>
      .ok (completeWord (if rest.length = 1 then ["in", "out"] else Encoding.names) word)
    | some .mem => .ok (if rest.length = 1 then completeWord ["C", "D"] word else [])
    | _ => .ok []

/-- A cursor behind the end of its line. -/
structure CursorError where
  cursor : Int
  length : Nat

/-- The wording of a misplaced cursor. -/
def CursorError.message (e : CursorError) : String :=
  s!"cursor_position={e.cursor}, len_text={e.length}"

/-- The part of a line before a cursor; a negative cursor counts from the end. -/
def beforeCursor (line : List Char) (cursor : Int) : Except CursorError (List Char) :=
  if (line.length : Int) < cursor then .error ⟨cursor, line.length⟩
  else if cursor < 0 then .ok (line.take (line.length - cursor.natAbs))
  else .ok (line.take cursor.toNat)

end Dis.Debugger
