import Dis.Listing
/-!
# Printed output and log records

Everything a program prints is an `Event`: text on standard output, text on standard error, or a
record for the log, which also goes to standard error if its level is high enough. Records are
kept as data and worded when they are printed.

A `Sink` says how the log is set up: with a stamp and a threshold, or not at all, and then records
from the level of warnings on print as bare messages.

Printing always succeeds here: a stream that is closed, full or unable to encode a character is left
out of account.
-/
namespace Dis

/-- How much a record matters. -/
inductive Level
  | debug
  | info
  | warning
  | error
  deriving DecidableEq, Repr

/-- Why a setting gives no threshold. -/
inductive LevelError
  | unknown (name : String)
  | notLevel (shown : String)
  deriving DecidableEq, Repr

/-- The wording of a refused setting. -/
def LevelError.message : LevelError → String
  | unknown name => s!"Unknown level: {Text.quote name}"
  | notLevel shown => s!"Level not an integer or a valid string: {shown}"

namespace Level

/-- The rank a threshold is compared with. -/
def rank : Level → Nat
  | debug => 10
  | info => 20
  | warning => 30
  | error => 40

/-- The name in the log. -/
def name : Level → String
  | debug => "DEBUG"
  | info => "INFO"
  | warning => "WARNING"
  | error => "ERROR"

/-- The layout of records that nothing else is said about. -/
def plainLayout : String := "%(levelname)s:%(name)s:%(message)s"

/-- The layouts known by name, as a message shows them. -/
def layoutTable : String :=
  "\x7b'%': (<class 'logging.PercentStyle'>, '%(levelname)s:%(name)s:%(message)s'), " ++
  "'\x7b': (<class 'logging.StrFormatStyle'>, '\x7blevelname\x7d:\x7bname\x7d:\x7bmessage\x7d'), " ++
  "'$': (<class 'logging.StringTemplateStyle'>, '$\x7blevelname\x7d:$\x7bname\x7d:$\x7bmessage\x7d')\x7d"

/-- The threshold a setting names, in any letter case; `fallback` if it names nothing. Two names
are known but stand for layouts, not for levels. -/
def threshold (fallback : Level) (setting : String) : Except LevelError Nat :=
  match String.ofList (Text.upperAscii setting.toList) with
  | "NOTSET" => .ok 0
  | "DEBUG" => .ok 10
  | "INFO" => .ok 20
  | "WARNING" => .ok 30
  | "WARN" => .ok 30
  | "ERROR" => .ok 40
  | "CRITICAL" => .ok 50
  | "FATAL" => .ok 50
  | "BASIC_FORMAT" => .error (.unknown plainLayout)
  | "_STYLES" => .error (.notLevel layoutTable)
  | _ => .ok fallback.rank

end Level

/-- What can be logged. -/
inductive Record
  | programLoaded (length : Nat)
  | traced (e : TraceEntry)
  | batchRan (number executed : Nat) (halted : Bool)
  | faulted (c d steps : Nat)
  | settingIgnored (name raw : String)
  | outputCut (limit : Int)
  | sourceLoaded (length : Nat) (origin : String)
  | historyUnread (path why : String)
  | historyUnwritten (path why : String)
  | commandFailed
  | commandRefused (line : String) (status : Int)

namespace Record

/-- The level of a record. -/
def level : Record → Level
  | programLoaded _ => .debug
  | traced _ => .debug
  | batchRan _ _ _ => .debug
  | faulted _ _ _ => .error
  | settingIgnored _ _ => .warning
  | outputCut _ => .warning
  | sourceLoaded _ _ => .info
  | historyUnread _ _ => .warning
  | historyUnwritten _ _ => .warning
  | commandFailed => .error
  | commandRefused _ _ => .debug

/-- The part of the program a record comes from. -/
def origin : Record → String
  | programLoaded _ => "disvm.machine"
  | traced _ => "disvm.machine"
  | batchRan _ _ _ => "disvm.host"
  | faulted _ _ _ => "disvm.host"
  | settingIgnored _ _ => "disvm.host"
  | outputCut _ => "disvm.host"
  | sourceLoaded _ _ => "dis_dbg.context"
  | historyUnread _ _ => "dis_dbg.history"
  | historyUnwritten _ _ => "dis_dbg.history"
  | commandFailed => "dis_dbg.repl"
  | commandRefused _ _ => "dis_dbg.cli"

/-- The wording of a record. -/
def message : Record → String
  | programLoaded length => s!"loaded program with {length} instructions"
  | traced e => Listing.traceLine e
  | batchRan number executed halted =>
    s!"batch {number} executed {executed} steps (halt={(Value.truth halted).shown})"
  | faulted c d steps => s!"runtime fault at C={c} D={d} after {steps} steps"
  | settingIgnored name raw => s!"ignoring non-numeric {name}={Text.quote raw}"
  | outputCut limit => s!"output too long; truncated to {limit} characters"
  | sourceLoaded length origin => s!"loaded {length} instructions from {origin}"
  | historyUnread path why => s!"cannot read history {path}: {why}"
  | historyUnwritten path why => s!"cannot write history {path}: {why}"
  | commandFailed => "command failed"
  | commandRefused line status => s!"command {Text.quote line} exited with {status}"

end Record

/-- Something printed. -/
inductive Event
  | out (text : String)
  | err (text : String)
  | log (r : Record)

/-- How the log is set up. -/
inductive Sink
  | bare
  | stamped (stamp : String) (threshold : Nat)

namespace Sink

/-- What a record adds to standard error. -/
def write (s : Sink) (r : Record) : String :=
  match s with
  | bare => if Level.warning.rank ≤ r.level.rank then r.message ++ "\n" else ""
  | stamped stamp threshold =>
    if threshold ≤ r.level.rank then
      s!"{stamp} {r.level.name} {r.origin}: {r.message}\n"
    else ""

end Sink

namespace Event

/-- A line on standard output. -/
def outLine (text : String) : Event := out (text ++ "\n")

/-- A line on standard error. -/
def errLine (text : String) : Event := err (text ++ "\n")

/-- What an event adds to standard output. -/
def outText : Event → String
  | out text => text
  | _ => ""

/-- What an event adds to standard error. -/
def errText (sink : Sink) : Event → String
  | err text => text
  | log r => sink.write r
  | out _ => ""

end Event

/-- Everything events put on standard output. -/
def outText (events : Array Event) : String :=
  events.foldl (fun s e => s ++ e.outText) ""

/-- Everything events put on standard error. -/
def errText (sink : Sink) (events : Array Event) : String :=
  events.foldl (fun s e => s ++ e.errText sink) ""

end Dis
