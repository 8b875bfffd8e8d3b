import Dis.Debugger.Offers
/-!
# Completion

The offers at a prompt whose terminal completes paths from the files around the session. The
definitions here stand for the terminal's `PathCompleter`, which is no part of the debugger: paths
are compared as they are, `~` and the name of a user stand for a home, and only the rest of a name
is offered. What is proved of the offers holds for any other completer of paths.
-/
namespace Dis.Debugger

/-- A path text with `~` and the name of a user in front replaced by the home, if it is known. -/
def expandTyped (files : Files) (cs : List Char) : Except DocumentError (List Char) :=
  match cs with
  | '~' :: rest => match files.homeOf (rest.takeWhile (· ≠ '/')) with
    | .error e => .error e
    | .ok none => .ok cs
    | .ok (some home) => .ok (home.text.toList ++ rest.dropWhile (· ≠ '/'))
  | _ => .ok cs

/-- The folder that the last part of a path text lies in, as text: without the slashes behind it,
unless there is nothing else, and from the working folder on if the path has no root. -/
def typedFolder (cs : List Char) : String :=
  let whole := if cs.head? = some '/' then cs else '.' :: '/' :: cs
  let slashed := whole.reverse.dropWhile (· ≠ '/')
  let bare := slashed.dropWhile (· = '/')
  String.ofList (if bare.isEmpty then slashed.reverse else bare.reverse)

/-- The names in a folder given by its text; none if that is too long or leads to no folder. -/
def namesIn (files : Files) (folder : String) : List String :=
  if Files.pathLimit < folder.utf8ByteSize then []
  else match files.follow (Path.ofText folder) with
    | .ok (_, node) => node.entries.map (·.1)
    | .error _ => []

/-- The rests of the names in a folder that start like the last part of a path. -/
def completePath (files : Files) : PathCompleter := fun word => do
  let cs ← expandTyped files word.toList
  let start := (cs.reverse.takeWhile (· ≠ '/')).reverse
  let names := (namesIn files (typedFolder cs)).filter fun name => start.isPrefixOf name.toList
  .ok ((sortedOnce names).map fun name => ⟨String.ofList (name.toList.drop start.length), 0⟩)

/-- What is offered for a line that is being typed among files. -/
def complete (files : Files) (ctx : Context) (line : List Char) :
    Except DocumentError (List Completion) :=
  completeWith (completePath files) ctx line

end Dis.Debugger
