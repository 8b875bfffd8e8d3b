import Dis.Debugger.Command
/-!
# Commands that set up a program

Loading a program from a file or from the command line, loading it again, queueing input, and
choosing the encodings.
-/
namespace Dis.Debugger

/-- The reply to a program loaded.
mirrors `_loaded` -/
def loadedReply (ctx : Context) (armed : Option Nat) (events : Array Event) (label : String) : Reply :=
  let length := (ctx.machine?.map (·.programLength)).getD 0
  let data := .obj [("result", .str "loaded"), ("source", .str label), ("program_length", .num length)]
  ⟨ctx, armed, .status 0,
    events ++ ctx.result s!"Loaded {length} instruction(s) from {label}" data⟩

/-- `load`: the program of a file.
mirrors `LoadCommand.run` -/
def runLoad (env : Surroundings) (ctx : Context) (armed : Option Nat) (args : List String) :
    Except Failure Reply :=
  let slot : Options.Slot String := ⟨"path", true, Options.anyText fun text _ => text⟩
  withArguments ctx armed (Command.load.spec [] [slot]) "" args fun text =>
    let path := Path.ofText text
    match ctx.loadFile env.files path with
    | .ok (ctx, events) => .ok (loadedReply ctx armed events path.text)
    | .error (.document (.file e)) => .ok (Reply.refuse ctx armed 2 s!"load failed: {e.message}")
    | .error (.program e) => .ok (Reply.refuse ctx armed 1 s!"syntax error: {e.message}")
    | .error e => .error e

/-- `source`: the program text of the arguments.
mirrors `SourceCommand.run` -/
def runSource (ctx : Context) (armed : Option Nat) (args : List String) : Except Failure Reply :=
  if args.isEmpty then .ok (Reply.refuse ctx armed 1 "source requires program text")
  else match ctx.loadSource (" ".intercalate args) none with
    | .ok (ctx, events) => .ok (loadedReply ctx armed events inlineName)
    | .error (.program e) => .ok (Reply.refuse ctx armed 1 s!"syntax error: {e.message}")
    | .error e => .error e

/-- `restart`: the current program in a fresh machine.
mirrors `RestartCommand.run` -/
def runRestart (ctx : Context) (armed : Option Nat) : Except Failure Reply :=
  match ctx.restart with
  | .ok (ctx, events) => .ok (loadedReply ctx armed events ctx.origin)
  | .error .noProgram => .ok (Reply.refuse ctx armed 1 Failure.noProgram.message)
  | .error e => .error e

/-- `input`: queue the text of the arguments.
mirrors `InputCommand.run` -/
def runInput (ctx : Context) (armed : Option Nat) (args : List String) : Except Failure Reply :=
  match ctx.feedText (" ".intercalate args) with
  | .error .noProgram => .ok (Reply.refuse ctx armed 1 Failure.noProgram.message)
  | .error (.codec e) => .ok (Reply.refuse ctx armed 1 s!"input rejected: {e.message}")
  | .error (.range e) => .ok (Reply.refuse ctx armed 1 s!"input rejected: {e.message}")
  | .error e => .error e
  | .ok (ctx, count) =>
    let pending := (ctx.machine?.map (·.queue.size)).getD 0
    let data := .obj [("result", .str "queued"), ("count", .num count), ("pending", .num pending)]
    .ok ⟨ctx, armed, .status 0, ctx.result s!"Queued {count} byte(s); {pending} pending" data⟩

/-- The arguments of `enc`. -/
structure EncArguments where
  direction : Option String := none
  name : Option String := none

/-- `enc`: show the encodings, or set one.
mirrors `EncodingCommand.run` -/
def runEnc (ctx : Context) (armed : Option Nat) (args : List String) : Except Failure Reply :=
  let slots : List (Options.Slot EncArguments) := [
    ⟨"direction", false, Options.oneOf ["in", "out"] fun text s => { s with direction := some text }⟩,
    ⟨"name", false, Options.oneOf Encoding.names fun text s => { s with name := some text }⟩]
  let current (ctx : Context) : Reply :=
    let data := .obj [("input", .ofValue ctx.inputEncoding), ("output", .ofValue ctx.outputEncoding)]
    ⟨ctx, armed, .status 0,
      ctx.result s!"input={ctx.inputEncoding.asText} output={ctx.outputEncoding.asText}" data⟩
  withArguments ctx armed (Command.enc.spec [] slots) {} args fun s =>
    match s.direction, s.name with
    | some direction, some name =>
      .ok (current (if direction = "in" then { ctx with inputEncoding := .text name }
        else { ctx with outputEncoding := .text name }))
    | some direction, none =>
      let names := ", ".intercalate Encoding.names
      .ok (Reply.refuse ctx armed 1 s!"enc {direction} requires one of: {names}")
    | none, _ => .ok (current ctx)

end Dis.Debugger
