import Dis.Codec
import Dis.Files
import Dis.Runner
/-!
# What a debugging session holds

The program being debugged with its runner, the encodings of input and output, the aliases, and
whether replies are JSON. A failed load leaves everything as it was.
-/
namespace Dis.Debugger

/-- The state of a debugging session.
mirrors `DebuggerContext` -/
structure Context where
  json : Bool := false
  inputEncoding : Value := .text Encoding.utf8.name
  outputEncoding : Value := .text Encoding.utf8.name
  batch : Int := Runner.defaultBatch
  aliases : List (String × String) := []
  source : Option String := none
  sourcePath : Option Path := none
  runner : Option Runner := none

/-- What a session finds around it. -/
structure Surroundings where
  files : Files
  patience : Nat        -- after how many steps an unlimited run is given up

/-- Why a command fails. -/
inductive Failure
  | noProgram
  | document (e : DocumentError)
  | program (e : Program.ParseError)
  | batch (e : BatchError)
  | codec (e : CodecError)
  | range (e : RangeError)

/-- The wording of a failure. -/
def Failure.message : Failure → String
  | noProgram => "no program loaded (use 'load' or 'source')"
  | document e => e.message
  | program e => e.message
  | batch e => e.message
  | codec e => e.message
  | range e => e.message

/-- The name of program text that came from no file. -/
def inlineName : String := "<inline>"

namespace Context

/-- The machine being debugged.
mirrors `DebuggerContext.machine` -/
def machine? (ctx : Context) : Option Machine := ctx.runner.map (·.machine)

/-- The runner, which has to be there.
mirrors `DebuggerContext.require_runner` -/
def requireRunner (ctx : Context) : Except Failure Runner :=
  match ctx.runner with
  | some r => .ok r
  | none => .error .noProgram

/-- The name of where the program came from. -/
def origin (ctx : Context) : String :=
  match ctx.sourcePath with
  | some p => p.text
  | none => inlineName

/-- Load a program text into a fresh machine.
mirrors `DebuggerContext.load_source` -/
def loadSource (ctx : Context) (source : String) (path : Option Path) :
    Except Failure (Context × Array Event) := do
  let machine ← (Machine.load source).mapError .program
  let runner ← (Runner.new machine ctx.batch).mapError .batch
  let ctx := { ctx with runner := some runner, source := some source, sourcePath := path }
  .ok (ctx, #[.log (.programLoaded machine.programLength),
    .log (.sourceLoaded machine.programLength ctx.origin)])

/-- Load a program file.
mirrors `DebuggerContext.load_file` -/
def loadFile (ctx : Context) (files : Files) (path : Path) :
    Except Failure (Context × Array Event) := do
  let path ← (files.expandHome path).mapError .document
  let source ← (files.readText path).mapError .document
  ctx.loadSource source (some path)

/-- Load the current program again.
mirrors `DebuggerContext.restart` -/
def restart (ctx : Context) : Except Failure (Context × Array Event) :=
  match ctx.source with
  | none => .error .noProgram
  | some source => ctx.loadSource source ctx.sourcePath

/-- Decode a text with the input encoding and queue its bytes; gives their number.
mirrors `DebuggerContext.feed_text` -/
def feedText (ctx : Context) (text : String) : Except Failure (Context × Nat) := do
  let runner ← ctx.requireRunner
  let encoding ← (Encoding.find ctx.inputEncoding).mapError .codec
  let bytes ← (encoding.decode text.toList).mapError .codec
  let machine ← (runner.machine.feed (bytes.map fun b => .int b.toNat)).mapError .range
  .ok ({ ctx with runner := some { runner with machine } }, bytes.length)

/-- The output of the machine, as text in the output encoding.
mirrors `DebuggerContext.render_output` -/
def renderOutput (ctx : Context) : Except Failure String := do
  let runner ← ctx.requireRunner
  let encoding ← (Encoding.find ctx.outputEncoding).mapError .codec
  .ok (encoding.encodeWords runner.machine.output.toList)

/-- The command a name stands for: the target of its alias, or the name itself.
mirrors `DebuggerContext.resolve_alias` -/
def resolveAlias (ctx : Context) (name : String) : String :=
  ((ctx.aliases.find? (·.1 = name)).map (·.2)).getD name

/-- Forget an alias. -/
def removeAlias (ctx : Context) (name : String) : Context :=
  { ctx with aliases := ctx.aliases.filter (·.1 ≠ name) }

/-- Set an alias; an alias for itself is none.
mirrors `DebuggerContext.set_alias` -/
def setAlias (ctx : Context) (name command : String) : Context :=
  let ctx := ctx.removeAlias name
  if name = command then ctx else { ctx with aliases := ctx.aliases ++ [(name, command)] }

/-- The aliases in the order of their names.
mirrors `DebuggerContext.list_aliases` -/
def sortedAliases (ctx : Context) : List (String × String) :=
  ctx.aliases.mergeSort fun x y => decide (x.1 ≤ y.1)

end Context
end Dis.Debugger
