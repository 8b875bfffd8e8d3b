import Dis.Codec
import Dis.Files
import Dis.Options
/-!
# How a command line ends

Both programs, the interpreter and the debugger, take arguments, settings from the environment and
standard input. They end with a status, leave early over their arguments, or break off.
-/
namespace Dis

/-- Why a program breaks off, in a way that it does not report itself. -/
inductive Breakdown
  | document (e : DocumentError)
  | codec (e : CodecError)
  | level (e : LevelError)
  | order (e : Value.OrderError)
  | misuse (e : Value.UseError)

/-- The wording of a breakdown. -/
def Breakdown.message : Breakdown → String
  | document e => e.message
  | codec e => e.message
  | level e => e.message
  | order e => e.message
  | misuse e => e.message

/-- How a program ends. -/
inductive Finish
  | status (n : Int)
  /-- The arguments asked for help or were refused. -/
  | exit (code : Int)
  | broken (why : Breakdown)
  | interrupted
  /-- A run without limit did not end within the patience of its host. -/
  | unfinished

/-- The exit status of arguments that are refused. -/
def refusedStatus : Int := 2

/-! ## Values of switches

A switch whose value was dropped holds an empty list. Where a text is needed, or a number to
compare with, that breaks the program off. -/

/-- What a switch holds whose value was dropped. -/
def noValue : Value := .list []

/-- A dropped value was used as a text. -/
def usedAsText (wanted : String) : Breakdown := .misuse ⟨noValue.kindName, wanted⟩

/-- The settings the environment holds. -/
structure Settings where
  batch : Option String := none     -- DISVM_BATCH
  log : Option String := none       -- DISVM_LOG

/-- The threshold of the log: from the arguments, else from the settings, else `fallback`.
mirrors `_configure_logging` -/
def Settings.threshold (settings : Settings) (fallback : Level)
    (given : Option (Options.Given String)) : Except Breakdown Nat :=
  match given with
  | some .dropped => .error (usedAsText "upper")
  | some (.value text) => (Level.threshold fallback text).mapError .level
  | none => (Level.threshold fallback (settings.log.getD fallback.name)).mapError .level

end Dis
