import Dis.Debugger.Loop
import Dis.Finish
/-!
# The command line of the debugger

The debugger loads a program if one is named, and queues input. Then it runs the commands given by
`-c`, until one of them fails, or else a loop: the interactive one at a terminal, the plain one
otherwise.
-/
namespace Dis.Debugger

open Options (Given)

/-- The arguments of the debugger. -/
structure Arguments where
  program : Option Path := none
  input : String := ""
  inputEncoding : Value := .text Encoding.utf8.name
  outputEncoding : Value := .text Encoding.utf8.name
  json : Bool := false
  logLevel : Option (Given String) := none
  commands : Array (Given String) := #[]
  history : Option Path := none

/-- The usage of the debugger. -/
def usage : String :=
  "usage: dis-dbg [-h] [--input INPUT] [--input-enc " ++ Encoding.choice ++ "]\n" ++
  "               [--output-enc " ++ Encoding.choice ++ "] [--json]\n" ++
  "               [--log-level LOG_LEVEL] [-c COMMAND] [--history HISTORY]\n" ++
  "               [program]\n"

/-- The rest of the help text. -/
def details : String :=
  "\nDis machine stepping debugger\n\n" ++
  "positional arguments:\n" ++
  "  program               Dis source file to load\n\n" ++
  "options:\n" ++
  "  -h, --help            show this help message and exit\n" ++
  "  --input INPUT         Input text queued after loading\n" ++
  "  --input-enc " ++ Encoding.choice ++ "\n" ++
  "                        Input encoding\n" ++
  "  --output-enc " ++ Encoding.choice ++ "\n" ++
  "                        Output encoding\n" ++
  "  --json                Emit JSON output when supported\n" ++
  "  --log-level LOG_LEVEL\n" ++
  "                        Logging level (default INFO)\n" ++
  "  -c COMMAND, --command COMMAND\n" ++
  "                        Execute a command non-interactively (repeatable; quote\n" ++
  "                        the command string)\n" ++
  "  --history HISTORY     Path to command history file\n"

/-- Take the name of an encoding. -/
def encodingEffect (set : Value → Arguments → Arguments) : Options.Effect Arguments :=
  .value (Options.oneOf Encoding.names fun name => set (.text name)) (set noValue)

/-- The arguments the debugger takes.
mirrors `build_arg_parser` -/
def argumentSpec : Options.Spec Arguments where
  program := "dis-dbg"
  usage := usage
  details := details
  switches := [
    { names := ["-h", "--help"], effect := .help },
    { names := ["--input"],
      effect := .value (Options.anyText fun text s => { s with input := text })
        fun s => { s with input := "" } },
    { names := ["--input-enc"],
      effect := encodingEffect fun name s => { s with inputEncoding := name } },
    { names := ["--output-enc"],
      effect := encodingEffect fun name s => { s with outputEncoding := name } },
    { names := ["--json"], effect := .mark fun s => { s with json := true } },
    { names := ["--log-level"],
      effect := Options.noting Options.anyText fun text s => { s with logLevel := some text } },
    { names := ["-c", "--command"],
      effect := Options.noting Options.anyText fun text s =>
        { s with commands := s.commands.push text } },
    { names := ["--history"],
      effect := .value (Options.anyText fun text s => { s with history := some (Path.ofText text) })
        fun s => { s with history := some (Path.ofText noValue.asText) } }]
  slots := [⟨"program", false, Options.anyText fun text s => { s with program := some (Path.ofText text) }⟩]

/-- What the debugger finds when it starts. -/
structure Start where
  files : Files
  settings : Settings
  patience : Nat
  armed : Option Nat
  /-- The keys of a terminal, or the text of a standard input that is none. -/
  input : List (Option String) ⊕ String

/-- What a run of the debugger leads to. -/
structure Session where
  finish : Finish
  threshold : Nat                           -- of the log
  events : Array Event
  files : Files
  offered : Option (List String) := none    -- the history offered at the prompt, if there was one

/-- The end of a run of commands. -/
structure CommandsEnd where
  finish : Finish
  events : Array Event

/-- Run commands until one does not end with status zero.
mirrors `_run_commands` -/
def runCommands (env : Surroundings) (events : Array Event) (ctx : Context) (armed : Option Nat) :
    List (Given String) → CommandsEnd
  | [] => ⟨.status 0, events⟩
  | .dropped :: _ => ⟨.broken (usedAsText "strip"), events⟩
  | .value line :: lines =>
    let reply := dispatch env ctx armed line
    let events := events ++ reply.events
    match reply.outcome with
    | .status n =>
      if n = 0 then runCommands env events reply.context reply.armed lines
      else ⟨.status n, events.push (.log (.commandRefused line n))⟩
    | .exit code => ⟨.status code, events⟩
    | .interrupted => ⟨.interrupted, events⟩
    | .unfinished => ⟨.unfinished, events⟩

/-- The context the arguments describe, with its program loaded and its input queued. A failure
comes with what was logged before it. -/
def startContext (files : Files) (s : Arguments) :
    Except (Failure × Array Event) (Context × Array Event) :=
  let ctx : Context :=
    { json := s.json, inputEncoding := s.inputEncoding, outputEncoding := s.outputEncoding }
  match s.program with
  | none => .ok (ctx, #[])
  | some path => match ctx.loadFile files path with
    | .error e => .error (e, #[])
    | .ok (ctx, events) =>
      if s.input.isEmpty then .ok (ctx, events)
      else match ctx.feedText s.input with
        | .error e => .error (e, events)
        | .ok (ctx, _) => .ok (ctx, events)

/-- Where the history is kept unless the arguments say otherwise. -/
def historyPath (files : Files) : Path :=
  files.home.child ".dis-dbg-history"

/-- The desk a loop begins with. The history is opened for either loop. -/
def openDesk (w : Start) (s : Arguments) (ctx : Context) (events : Array Event) :
    Except DocumentError Desk := do
  let path := (s.history.getD (historyPath w.files)).text
  let (history, more) ← History.openWith w.files (some path) History.defaultLimit
  .ok ⟨ctx, w.armed, w.files, some history, events ++ more⟩

/-- What the arguments lead to: an end, or a loop. -/
inductive Opening
  | ended (s : Session)
  | loop (threshold : Nat) (desk : Desk)

/-- Load the program and run the commands of the arguments. -/
def loadAndRun (w : Start) (s : Arguments) (threshold : Nat) : Opening :=
  let report (e : String) (events : Array Event) : Opening :=
    .ended ⟨.status 1, threshold, events.push (.errLine s!"error: {e}"), w.files, none⟩
  match startContext w.files s with
  | .error (.document (.file e), events) => report e.message events
  | .error (.document e, events) => .ended ⟨.broken (.document e), threshold, events, w.files, none⟩
  | .error (e, events) => report e.message events
  | .ok (ctx, events) =>
    if s.commands.isEmpty then
      match openDesk w s ctx events with
      | .error e => .ended ⟨.broken (.document e), threshold, events, w.files, none⟩
      | .ok desk => .loop threshold desk
    else
      let stop := runCommands ⟨w.files, w.patience⟩ events ctx w.armed s.commands.toList
      .ended ⟨stop.finish, threshold, stop.events, w.files, none⟩

/-- Begin with the arguments read. -/
def openSession (w : Start) (s : Arguments) : Opening :=
  match w.settings.threshold .info s.logLevel with
  | .error e => .ended ⟨.broken e, 0, #[], w.files, none⟩
  | .ok threshold => loadAndRun w s threshold

/-- Read the arguments and begin. -/
def openWith (w : Start) (args : List String) : Opening :=
  match argumentSpec.parse {} args with
  | .help => .ended ⟨.exit 0, 0, #[.out argumentSpec.help], w.files, none⟩
  | .refused why => .ended ⟨.exit refusedStatus, 0, argumentSpec.complain why, w.files, none⟩
  | .parsed s => openSession w s

/-- How a loop's end finishes the debugger. -/
def finishLoop (threshold : Nat) (stop : LoopEnd) : Session :=
  let desk := stop.desk
  match stop.leaving with
  | none => ⟨.status 0, threshold, desk.events, desk.files, none⟩
  | some (.exit code) => ⟨.status code, threshold, desk.events, desk.files, none⟩
  | some .interrupted =>
    ⟨.status 0, threshold, desk.events.push (.outLine ""), desk.files, none⟩
  | some .unfinished => ⟨.unfinished, threshold, desk.events, desk.files, none⟩
  | some (.broken e) => ⟨.broken (.document e), threshold, desk.events, desk.files, none⟩

/-- Run the loop that fits the input. -/
def runLoop (w : Start) (threshold : Nat) (desk : Desk) : Session :=
  match w.input with
  | .inl keys =>
    { finishLoop threshold (interactiveLoop w.patience desk keys) with
      offered := desk.history.map (·.entries) }
  | .inr text => finishLoop threshold (plainLoop w.patience desk (Text.inputLines text))

/-- Run the debugger.
mirrors `main` -/
def run (w : Start) (args : List String) : Session :=
  match openWith w args with
  | .ended s => s
  | .loop threshold desk => runLoop w threshold desk

end Dis.Debugger
