import Dis.Debugger.Context
import Dis.Json
/-!
# Replies

What a command answers: a status, a request to leave, or the news that it was cut off. What it
prints is text for people or a JSON document for programs, as the context says. What is printed is
part of the reply, so that printing cannot fail.
-/
namespace Dis.Debugger

/-- How a command ended. -/
inductive Outcome
  | status (n : Int)
  | exit (code : Int)
  | interrupted
  /-- A run without limit did not end within the patience of the surroundings. -/
  | unfinished
  deriving DecidableEq, Repr

/-- What a command leads to. -/
structure Reply where
  context : Context
  armed : Option Nat          -- the interrupt still ready
  outcome : Outcome
  events : Array Event

/-- A reply that leaves the context alone. -/
def Reply.only (ctx : Context) (armed : Option Nat) (status : Int) (events : Array Event) : Reply :=
  ⟨ctx, armed, .status status, events⟩

/-- What a result prints: its message, or its data as a document.
mirrors `emit_result` -/
def resultEvents (json : Bool) (message : Value) (data : Option Json) : Array Event :=
  if json then
    let body := match data with
      | some d => ("result", d)
      | none => ("message", .ofValue message)
    #[.outLine (Json.obj [("status", .str "ok"), body]).render]
  else #[.outLine message.asText]

/-- What an error prints: its message, and its details only in a document.
mirrors `emit_error` -/
def errorEvents (json : Bool) (message : Value) (details : Option Json) : Array Event :=
  if json then
    let more := match details with
      | some d => [("details", d)]
      | none => []
    #[.outLine (Json.obj ([("status", .str "error"), ("error", .ofValue message)] ++ more)).render]
  else #[.outLine s!"error: {message.asText}"]

/-- A result as a context prints it. -/
def Context.result (ctx : Context) (message : String) (data : Json) : Array Event :=
  resultEvents ctx.json (.text message) (some data)

/-- An error as a context prints it. -/
def Context.error (ctx : Context) (message : String) : Array Event :=
  errorEvents ctx.json (.text message) none

/-- A reply that reports an error and leaves the context alone. -/
def Reply.refuse (ctx : Context) (armed : Option Nat) (status : Int) (message : String) : Reply :=
  Reply.only ctx armed status (ctx.error message)

/-- The state of a machine as a document.
mirrors `Machine.snapshot` -/
def stateJson (m : Machine) : Json :=
  .obj [("a", .num m.a), ("c", .num m.c), ("d", .num m.d), ("halt", .bool m.halted),
    ("steps", .num m.steps), ("program_length", .num m.programLength),
    ("input_pending", .num m.queue.size), ("output_length", .num m.output.size)]

end Dis.Debugger
