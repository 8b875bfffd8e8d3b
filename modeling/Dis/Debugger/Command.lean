import Dis.Debugger.Reply
import Dis.Options
import Dis.Text.Align
/-!
# The commands of the debugger

Each command has a name, further names, a description, a group it is listed in, and a line that
shows how it is used.
-/
namespace Dis.Debugger

/-- Where `help` lists a command. -/
inductive Group
  | program
  | execution
  | inspection
  | session
  deriving DecidableEq, Repr

/-- The groups, in the order they are listed.
mirrors `GROUPS` -/
def Group.all : List Group := [.program, .execution, .inspection, .session]

/-- The name of a group. -/
def Group.name : Group → String
  | .program => "program"
  | .execution => "execution"
  | .inspection => "inspection"
  | .session => "session"

/-- What is known about a command.
mirrors `Command` -/
structure CommandInfo where
  name : String
  description : String
  aliases : List String := []
  group : Group := .session
  /-- How it is used, if that is more than its name. -/
  usage? : Option String := none

namespace CommandInfo

/-- How a command is used.
mirrors `Command.usage` -/
def usage (i : CommandInfo) : String := i.usage?.getD i.name

/-- What is said when a description without an action is run.
mirrors `Command.run` -/
def actionRefusal : String := "Command does not implement run()"

/-- The line of a command in a list of commands.
mirrors `Command.summary` -/
def summary (i : CommandInfo) : String :=
  let names := "/".intercalate (i.name :: i.aliases)
  s!"  {Text.alignLeft 22 names} {i.description}"

end CommandInfo

/-- The commands. -/
inductive Command
  | help
  | load
  | source
  | restart
  | input
  | enc
  | step
  | run
  | regs
  | mem
  | output
  | status
  | aliases
  | exit
  deriving DecidableEq, Repr

namespace Command

/-- The commands, in the order they are listed.
mirrors `build_registry` -/
def all : List Command :=
  [help, load, source, restart, input, enc, step, run, regs, mem, output, status, aliases, exit]

/-- What is known about each command. -/
def info : Command → CommandInfo
  | help => { name := "help", description := "List commands, or show usage for one", aliases := ["?"] }
  | load => {
      name := "load", description := "Load a Dis program from a file", group := .program,
      usage? := some "load path" }
  | source => {
      name := "source", description := "Load program text given on the command line",
      aliases := ["src"], group := .program }
  | restart => {
      name := "restart", description := "Reload the current program into a fresh machine",
      aliases := ["reset"], group := .program }
  | input => {
      name := "input", description := "Queue input text (decoded with the input encoding)",
      aliases := ["in"], group := .program }
  | enc => {
      name := "enc", description := "Show or set the input/output encodings",
      aliases := ["encoding"], group := .program,
      usage? := some ("enc [\x7bin,out\x7d] [" ++ Encoding.choice ++ "]") }
  | step => {
      name := "step", description := "Execute instructions one cycle at a time",
      aliases := ["s", "next"], group := .execution, usage? := some "step [count]" }
  | run => {
      name := "run", description := "Run until halt (or for a step count)",
      aliases := ["r", "continue", "cont"], group := .execution, usage? := some "run [count]" }
  | regs => {
      name := "regs", description := "Show registers and machine flags",
      aliases := ["registers", "info"], group := .inspection }
  | mem => {
      name := "mem", description := "Inspect memory words", aliases := ["memory", "x"],
      group := .inspection, usage? := some "mem [address] [count]" }
  | output => {
      name := "output", description := "Show program output (encoded with the output encoding)",
      aliases := ["out"], group := .inspection, usage? := some "output [--clear]" }
  | status => {
      name := "status", description := "Show the loaded program and runner status",
      group := .inspection }
  | aliases => {
      name := "alias", description := "List, define or remove command aliases",
      usage? := some "alias [--clear] [name] [command]" }
  | exit => {
      name := "exit", description := "Leave the debugger (optional exit status)",
      aliases := ["quit", "q"], usage? := some "exit [code]" }

/-- The names a command answers to. -/
def names (c : Command) : List String := c.info.name :: c.info.aliases

/-- The command that answers to a name.
mirrors `CommandRegistry.get` -/
def ofName? (name : String) : Option Command :=
  all.find? (·.names.contains name)

/-- Every name a command answers to, in order.
mirrors `CommandRegistry.names` -/
def allNames : List String :=
  (all.flatMap names).mergeSort fun x y => decide (x ≤ y)

/-- The command-line description of a command. -/
def spec {σ : Type} (c : Command) (switches : List (Options.Switch σ)) (slots : List (Options.Slot σ)) :
    Options.Spec σ :=
  { program := c.info.name, usage := s!"usage: {c.info.usage}\n", switches, slots }

end Command

/-- Read the arguments of a command. Refused arguments are reported with status one. -/
def withArguments {σ : Type} (ctx : Context) (armed : Option Nat) (spec : Options.Spec σ) (start : σ)
    (args : List String) (run : σ → Except Failure Reply) : Except Failure Reply :=
  match spec.parse start args with
  | .parsed s => run s
  | .help => .ok (Reply.only ctx armed 1 #[])
  | .refused why => .ok (Reply.only ctx armed 1 (spec.complain why))

end Dis.Debugger
