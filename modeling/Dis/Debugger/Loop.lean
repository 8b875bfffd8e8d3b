import Dis.Debugger.Dispatch
import Dis.Debugger.History
/-!
# The loops of the debugger

A loop reads lines and dispatches them until there are no more, or until a command leaves or is
interrupted. A line that ends in a backslash is continued by the next: the pieces are joined by
spaces, and lines without an end are not dispatched.

The plain loop reads standard input. The interactive one reads a prompt, adds what it dispatches
to the history, and ends its last line.
-/
namespace Dis.Debugger

/-- The prompt of the interactive loop.
mirrors `PROMPT` -/
def prompt : String := "(dis) "

/-- Read one line, given the pieces that are waiting for it, last first: the pieces waiting after
it, and what is to be dispatched.
mirrors `DebuggerREPL._handle_multiline` -/
def readLine (waiting : List String) (line : String) : List String × Option String :=
  let piece := Text.trimRight line.toList
  if piece.getLast? = some '\\' then (String.ofList piece.dropLast :: waiting, none)
  else if waiting.isEmpty then ([], some line)
  else ([], some (" ".intercalate (String.ofList piece :: waiting).reverse))

/-- Read lines and handle what is to be dispatched, until `handle` gives no state to go on with. -/
def readLines {σ ε : Type} (handle : σ → String → Except ε σ) (waiting : List String) (s : σ) :
    List String → Except ε σ
  | [] => .ok s
  | line :: lines => match readLine waiting line with
    | (waiting, none) => readLines handle waiting s lines
    | (waiting, some payload) => match handle s payload with
      | .ok s => readLines handle waiting s lines
      | .error e => .error e

/-- A debugger at work. -/
structure Desk where
  context : Context
  armed : Option Nat
  files : Files
  history : Option History       -- only the interactive loop has one
  events : Array Event

/-- Why a loop ends before its lines do. -/
inductive Leaving
  | exit (code : Int)
  | interrupted
  | unfinished
  | broken (e : DocumentError)
  deriving DecidableEq, Repr

/-- Add a payload to the history.
mirrors `DebuggerREPL._record_history` -/
def Desk.record (d : Desk) (payload : String) : Except (Leaving × Desk) Desk :=
  match d.history with
  | none => .ok d
  | some h => match h.store d.files payload with
    | (h, .error e) => .error (.broken e, { d with history := some h })
    | (h, .ok (files, events)) =>
      .ok { d with history := some h, files, events := d.events ++ events }

/-- Dispatch a payload. -/
def Desk.answer (patience : Nat) (d : Desk) (payload : String) : Except (Leaving × Desk) Desk :=
  let reply := dispatch ⟨d.files, patience⟩ d.context d.armed payload
  let d := { d with
    context := reply.context, armed := reply.armed, events := d.events ++ reply.events }
  match reply.outcome with
  | .status _ => .ok d
  | .exit code => .error (.exit code, d)
  | .interrupted => .error (.interrupted, d)
  | .unfinished => .error (.unfinished, d)

/-- Record and dispatch a payload. -/
def Desk.handle (patience : Nat) (d : Desk) (payload : String) : Except (Leaving × Desk) Desk :=
  match d.record payload with
  | .error stop => .error stop
  | .ok d => d.answer patience payload

/-- How a loop ended and the desk it leaves. -/
structure LoopEnd where
  leaving : Option Leaving      -- none at the end of the lines
  desk : Desk

/-- Read and handle lines to their end. -/
def runLines (patience : Nat) (d : Desk) (lines : List String) : LoopEnd :=
  match readLines (Desk.handle patience) [] d lines with
  | .ok d => ⟨none, d⟩
  | .error (leaving, d) => ⟨some leaving, d⟩

/-- The plain loop.
mirrors `DebuggerREPL._plain_loop` -/
def plainLoop (patience : Nat) (d : Desk) (lines : List String) : LoopEnd :=
  runLines patience { d with history := none } lines

/-- The lines typed before the first key that ends the input. -/
def typedLines (keys : List (Option String)) : List String :=
  (keys.takeWhile Option.isSome).filterMap id

/-- The interactive loop. An interrupt at the prompt (no line) is the end of the input, which also
ends the line of the prompt.
mirrors `DebuggerREPL.run` -/
def interactiveLoop (patience : Nat) (d : Desk) (keys : List (Option String)) : LoopEnd :=
  let stop := runLines patience d (typedLines keys)
  match stop.leaving with
  | none => { stop with desk := { stop.desk with events := stop.desk.events.push (.outLine "") } }
  | some _ => stop

end Dis.Debugger
