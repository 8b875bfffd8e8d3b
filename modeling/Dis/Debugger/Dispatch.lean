import Dis.Debugger.ExecutionCommands
import Dis.Debugger.InspectionCommands
import Dis.Debugger.ProgramCommands
import Dis.Debugger.SessionCommands
import Dis.Text.ShellWords
/-!
# Dispatch

A line typed by the user is cut into words; the first names a command, directly or by an alias,
and the others are its arguments. Blank lines and lines that start with `#` do nothing. A line
that cannot be cut is one word with a mark behind it, and the mark is what dispatch reports.
-/
namespace Dis.Debugger

/-- What the mark of a line that cannot be cut starts with. -/
def parseErrorMark : String := "#parse-error"

/-- The words of a line, or the trimmed line and a mark with the reason.
mirrors `split_command` -/
def splitCommand (line : String) : List String :=
  match Text.ShellWords.split line.toList with
  | .ok words => words
  | .error e => [Text.trimmed line, parseErrorMark ++ ":" ++ e.message]

/-- What follows the first colon of a text; the text itself if there is none. -/
def afterColon (s : String) : String :=
  match s.toList.dropWhile (· ≠ ':') with
  | [] => s
  | _ :: rest => String.ofList rest

/-- Run a command. -/
def Command.execute (c : Command) (env : Surroundings) (ctx : Context) (armed : Option Nat)
    (args : List String) : Except Failure Reply :=
  match c with
  | .help => runHelp .bound ctx armed args
  | .load => runLoad env ctx armed args
  | .source => runSource ctx armed args
  | .restart => runRestart ctx armed
  | .input => runInput ctx armed args
  | .enc => runEnc ctx armed args
  | .step => runStep env ctx armed args
  | .run => runRun env ctx armed args
  | .regs => runRegs ctx armed
  | .mem => runMem ctx armed args
  | .output => runOutput ctx armed args
  | .status => runStatus ctx armed
  | .aliases => runAlias .bound ctx armed args
  | .exit => runExit ctx armed args

/-- Run the command that words name. -/
def dispatchWords (env : Surroundings) (ctx : Context) (armed : Option Nat) (name : String)
    (args : List String) : Reply :=
  match args.getLast?.filter (parseErrorMark.toList.isPrefixOf ·.toList) with
  | some mark => Reply.only ctx armed 1 #[.outLine s!"Parse error: {afterColon mark}"]
  | none =>
    let name := ctx.resolveAlias name
    match Command.ofName? name with
    | none => Reply.only ctx armed 1 #[.outLine s!"Unknown command: {name}"]
    | some command => match command.execute env ctx armed args with
      | .ok reply => reply
      | .error e =>
        Reply.only ctx armed 1
          #[.log .commandFailed, .outLine s!"Command '{name}' failed: {e.message}"]

/-- Run a line.
mirrors `DebuggerREPL.dispatch` -/
def dispatch (env : Surroundings) (ctx : Context) (armed : Option Nat) (line : String) : Reply :=
  let line := Text.trimmed line
  if line.isEmpty || line.toList.head? = some '#' then Reply.only ctx armed 0 #[]
  else match splitCommand line with
    | [] => Reply.only ctx armed 0 #[]
    | name :: args => dispatchWords env ctx armed name args

end Dis.Debugger
