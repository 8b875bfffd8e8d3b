import Dis.Finish
import Dis.Runner
/-!
# The interpreter

The interpreter reads a program and its input, runs the machine in batches, and prints what the
machine put out, cut to a limit. A trace and the state at the end go to standard error.
-/
namespace Dis.Interpreter

open Options (Given)

/-- The length that output is cut to unless the arguments say otherwise.
mirrors `DEFAULT_OUTPUT_LIMIT` -/
def defaultOutputLimit : Int := 200000

/-- The arguments of the interpreter. -/
structure Arguments where
  program : String := ""
  input : String := ""
  inputFile : Option Path := none
  inputEncoding : Value := .text Encoding.utf8.name
  outputEncoding : Value := .text Encoding.utf8.name
  maxSteps : Option (Given Int) := none
  batch : Option (Given Int) := none
  outputLimit : Int := defaultOutputLimit
  trace : Bool := false
  logLevel : Option (Given String) := none
  verbose : Bool := false

/-- The usage of the interpreter. -/
def usage : String :=
  "usage: disvm [-h] [--input INPUT | --input-file INPUT_FILE]\n" ++
  "             [--input-enc " ++ Encoding.choice ++ "]\n" ++
  "             [--output-enc " ++ Encoding.choice ++ "] [--max-steps MAX_STEPS]\n" ++
  "             [--batch BATCH] [--output-limit OUTPUT_LIMIT] [--trace]\n" ++
  "             [--log-level LOG_LEVEL] [-v]\n" ++
  "             program\n"

/-- The rest of the help text. -/
def details : String :=
  "\nDis ternary machine interpreter\n\n" ++
  "positional arguments:\n" ++
  "  program               Dis source file ('-' reads standard input)\n\n" ++
  "options:\n" ++
  "  -h, --help            show this help message and exit\n" ++
  "  --input INPUT         program input text\n" ++
  "  --input-file INPUT_FILE\n" ++
  "                        read program input text from a file\n" ++
  "  --input-enc " ++ Encoding.choice ++ "\n" ++
  "                        encoding of the input text\n" ++
  "  --output-enc " ++ Encoding.choice ++ "\n" ++
  "                        encoding used to print output\n" ++
  "  --max-steps MAX_STEPS\n" ++
  "                        safety cap on executed steps\n" ++
  "  --batch BATCH         steps per scheduling batch (default $DISVM_BATCH or\n" ++
  "                        10000)\n" ++
  "  --output-limit OUTPUT_LIMIT\n" ++
  "                        truncate rendered output to this many characters (0\n" ++
  "                        disables)\n" ++
  "  --trace               print every executed instruction to stderr\n" ++
  "  --log-level LOG_LEVEL\n" ++
  "                        Logging level (default WARNING)\n" ++
  "  -v, --verbose         print final machine state to stderr\n"

/-- Take the name of an encoding. -/
def encodingEffect (set : Value → Arguments → Arguments) : Options.Effect Arguments :=
  .value (Options.oneOf Encoding.names fun name => set (.text name)) (set noValue)

/-- The arguments the interpreter takes.
mirrors `build_arg_parser` -/
def argumentSpec : Options.Spec Arguments where
  program := "disvm"
  usage := usage
  details := details
  switches := [
    { names := ["-h", "--help"], effect := .help },
    { names := ["--input"], rivals := ["--input-file"],
      effect := .value (Options.anyText fun text s => { s with input := text })
        fun s => { s with input := "" } },
    { names := ["--input-file"], rivals := ["--input"],
      effect := .value (Options.anyText fun text s => { s with inputFile := some (Path.ofText text) })
        fun s => { s with inputFile := none } },
    { names := ["--input-enc"],
      effect := encodingEffect fun name s => { s with inputEncoding := name } },
    { names := ["--output-enc"],
      effect := encodingEffect fun name s => { s with outputEncoding := name } },
    { names := ["--max-steps"],
      effect := Options.noting Options.integer fun n s => { s with maxSteps := some n } },
    { names := ["--batch"],
      effect := Options.noting Options.integer fun n s => { s with batch := some n } },
    { names := ["--output-limit"],
      effect := .value (Options.integer fun n s => { s with outputLimit := n })
        fun s => { s with outputLimit := 0 } },
    { names := ["--trace"], effect := .mark fun s => { s with trace := true } },
    { names := ["--log-level"],
      effect := Options.noting Options.anyText fun text s => { s with logLevel := some text } },
    { names := ["-v", "--verbose"], effect := .mark fun s => { s with verbose := true } }]
  slots := [⟨"program", true, Options.anyText fun text s => { s with program := text }⟩]

/-- What the interpreter finds when it starts. -/
structure Start where
  files : Files
  settings : Settings
  patience : Nat
  stdin : String

/-- What a run of the interpreter leads to. -/
structure Result where
  finish : Finish
  threshold : Nat         -- of the log
  events : Array Event

/-- The length of batches: from the arguments, or from the settings if they hold a number.
mirrors `_env_int` -/
def batchLength (settings : Settings) (given : Option (Given Int)) : Given Int × Array Event :=
  match given, settings.batch with
  | some n, _ => (n, #[])
  | none, none => (.value Runner.defaultBatch, #[])
  | none, some raw =>
    if raw.isEmpty then (.value Runner.defaultBatch, #[])
    else match Text.readInt .auto raw with
      | .ok n => (.value n, #[])
      | .error _ => (.value Runner.defaultBatch, #[.log (.settingIgnored "DISVM_BATCH" raw)])

/-- The length of batches and the limit of the run, both to be compared with numbers. -/
def runNumbers (batch : Given Int) (limit : Option (Given Int)) :
    Except Breakdown (Int × Option Int) :=
  let number : Value := .int 0
  match batch, limit with
  | .dropped, _ => .error (.order ⟨">", noValue.kindName, number.kindName⟩)
  | .value _, some .dropped => .error (.order ⟨"<", number.kindName, noValue.kindName⟩)
  | .value n, some (.value limit) => .ok (n, some limit)
  | .value n, none => .ok (n, none)

/-- The program text: standard input for a dash, and otherwise a file.
mirrors `_read_source` -/
def readProgram (w : Start) (name : String) : Except DocumentError String :=
  if name = "-" then .ok (String.ofList (Text.unifyNewlines w.stdin.toList))
  else w.files.readText (Path.ofText name)

/-- The text of the input. -/
def readInput (w : Start) (s : Arguments) : Except DocumentError String :=
  match s.inputFile with
  | some path => w.files.readText path
  | none => .ok s.input

/-- The program text and the text of the input. -/
def readTexts (w : Start) (s : Arguments) : Except DocumentError (String × String) := do
  let program ← readProgram w s.program
  let input ← readInput w s
  .ok (program, input)

/-- Why a machine cannot be set up. -/
inductive SetUpError
  | program (e : Program.ParseError)
  | input (e : CodecError)

/-- The wording of a failed set-up. -/
def SetUpError.message : SetUpError → String
  | program e => e.message
  | input e => e.message

/-- What a program's loading logs. -/
def loadEvents (source : String) : Array Event :=
  match Machine.load source with
  | .ok m => #[.log (.programLoaded m.programLength)]
  | .error _ => #[]

/-- A machine with the program loaded and the input queued. -/
def setUp (encoding : Value) (source input : String) : Except SetUpError Machine := do
  let machine ← (Machine.load source).mapError .program
  let encoding ← (Encoding.find encoding).mapError .input
  let bytes ← (encoding.decode input.toList).mapError .input
  .ok (machine.setQueue (bytes.map fun b => .int b.toNat))

/-- What a traced step prints and logs. -/
def traceEvents (e : TraceEntry) : List Event :=
  [.errLine (Listing.traceLine e), .log (.traced e)]

/-- The records of a run with the trace of each batch in front of the batch's record. -/
def withTrace (entries : List TraceEntry) : List Event → List Event
  | [] => entries.flatMap traceEvents
  | .log (.batchRan number executed halted) :: rest =>
    (entries.take executed).flatMap traceEvents ++
      .log (.batchRan number executed halted) :: withTrace (entries.drop executed) rest
  | e :: rest => entries.flatMap traceEvents ++ e :: rest

/-- What a run prints and logs. -/
def runEvents (trace : Bool) (machine : Machine) (limit : Option Int) (patience : Nat)
    (events : Array Event) : Array Event :=
  if trace then
    let steps := (limit.map Int.toNat).getD patience
    (withTrace (machine.trace steps).2.toList events.toList).toArray
  else events

/-- A text cut to a limit: its first characters, or all but its last for a negative limit. No cut
for zero. -/
def cut (limit : Int) (text : String) : String × Array Event :=
  if limit = 0 || (text.length : Int) ≤ limit then (text, #[])
  else
    let kept := if limit < 0 then text.length - limit.natAbs else limit.natAbs
    (String.ofList (text.toList.take kept), #[.log (.outputCut limit)])

/-- What is said of the machine at the end. -/
def closingEvents (verbose : Bool) (limit : Option Int) (m : Machine) : Array Event :=
  let stopped := match m.halted, limit with
    | false, some n => #[.errLine s!"[DIS] Max steps {n} reached; stopping"]
    | _, _ => #[]
  let verb := if m.halted then "Halted" else "Stopped"
  let state := if verbose then
      #[.errLine s!"[DIS] {verb} after {m.steps} steps A={m.a} C={m.c} D={m.d}"]
    else #[]
  stopped ++ state

/-- Run a machine, in batches of one step at least, and report. -/
def execute (patience : Nat) (s : Arguments) (batch : Int) (limit : Option Int) (machine : Machine) :
    Finish × Array Event :=
  let call := (Runner.atRest machine (max 1 batch).toNat).run patience none limit
  let events := runEvents s.trace machine limit patience call.events
  match call.ending with
  | .fault e => (.status 2, events.push (.errLine s!"error: runtime fault: {e.message}"))
  | .interrupted => (.interrupted, events)
  | .unfinished => (.unfinished, events)
  | .done =>
    match Encoding.find s.outputEncoding with
    | .error e => (.broken (.codec e), events)
    | .ok encoding =>
      let m := call.runner.machine
      let (text, cutEvents) := cut s.outputLimit (encoding.encodeWords m.output.toList)
      (.status 0, events ++ cutEvents ++ #[.out text] ++ closingEvents s.verbose limit m)

/-- Read the program and the input, and run. -/
def readAndRun (w : Start) (s : Arguments) : Finish × Array Event :=
  let (batch, events) := batchLength w.settings s.batch
  match readTexts w s with
  | .error (.file e) => (.status 1, events.push (.errLine s!"error: {e.message}"))
  | .error e => (.broken (.document e), events)
  | .ok (source, input) =>
    let events := events ++ loadEvents source
    match setUp s.inputEncoding source input with
    | .error e => (.status 1, events.push (.errLine s!"error: {e.message}"))
    | .ok machine => match runNumbers batch s.maxSteps with
      | .error e => (.broken e, events)
      | .ok (batch, limit) =>
        let (finish, more) := execute w.patience s batch limit machine
        (finish, events ++ more)

/-- Run the interpreter with its arguments read. -/
def interpret (w : Start) (s : Arguments) : Result :=
  match w.settings.threshold .warning s.logLevel with
  | .error e => ⟨.broken e, 0, #[]⟩
  | .ok threshold =>
    let (finish, events) := readAndRun w s
    ⟨finish, threshold, events⟩

/-- Run the interpreter.
mirrors `main` -/
def run (w : Start) (args : List String) : Result :=
  match argumentSpec.parse {} args with
  | .help => ⟨.exit 0, 0, #[.out argumentSpec.help]⟩
  | .refused why => ⟨.exit refusedStatus, 0, argumentSpec.complain why⟩
  | .parsed s => interpret w s

end Dis.Interpreter
