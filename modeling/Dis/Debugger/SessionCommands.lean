import Dis.Debugger.Command
/-!
# Commands about the session

Help, aliases and leaving. `help` and `alias` know the other commands only when they are bound to
a registry; otherwise `help` has nothing to show and `alias` takes any name.
-/
namespace Dis.Debugger

/-- Whether a command knows the others. -/
inductive Binding
  | bound
  | unbound
  deriving DecidableEq, Repr

/-- The commands of a group. -/
def Group.commands (g : Group) : List Command :=
  Command.all.filter fun c => c.info.group = g

/-- The lines of the list of all commands. -/
def helpLines : List String :=
  (Group.all.filter (!·.commands.isEmpty)).flatMap (fun g =>
    (g.name ++ ":") :: g.commands.map (·.info.summary)) ++
    ["Type 'help <command>' for its arguments."]

/-- The list of all commands as a document. -/
def helpJson : Json :=
  .obj ((Group.all.filter (!·.commands.isEmpty)).map fun g =>
    (g.name, .arr (g.commands.map fun c => .str c.info.name)))

/-- `help`: all commands, or one.
mirrors `HelpCommand.run` -/
def runHelp (binding : Binding) (ctx : Context) (armed : Option Nat) (args : List String) :
    Except Failure Reply :=
  match binding, args with
  | .unbound, _ => .ok (Reply.refuse ctx armed 1 "help is not bound to a command registry")
  | .bound, name :: _ => match Command.ofName? (ctx.resolveAlias name) with
    | none => .ok (Reply.refuse ctx armed 1 s!"Unknown command: {name}")
    | some command =>
      let i := command.info
      let data := .obj [("name", .str i.name), ("aliases", .arr (i.aliases.map .str)),
        ("usage", .str i.usage)]
      .ok (Reply.only ctx armed 0
        (ctx.result s!"usage: {i.usage}\n{Text.trimmed i.summary}" data))
  | .bound, [] =>
    .ok (Reply.only ctx armed 0
      (if ctx.json then ctx.result "commands" helpJson else (helpLines.map Event.outLine).toArray))

/-- The arguments of `alias`. -/
structure AliasArguments where
  name : String := ""
  command : String := ""
  clear : Bool := false

/-- The aliases as they print. -/
def aliasEvents (ctx : Context) : Array Event :=
  if ctx.json then
    ctx.result "aliases"
      (.obj [("aliases", .obj (ctx.aliases.map fun (name, command) => (name, .str command)))])
  else if ctx.aliases.isEmpty then #[.outLine "No aliases defined"]
  else (ctx.sortedAliases.map fun (name, command) => Event.outLine s!"  {name} = {command}").toArray

/-- The context after `alias`, or why there is none. -/
def changeAliases (binding : Binding) (ctx : Context) (s : AliasArguments) : Except String Context :=
  if s.clear then .ok { ctx with aliases := [] }
  else if s.name.isEmpty then .ok ctx
  else if s.command.isEmpty then
    if ctx.aliases.any (·.1 = s.name) then .ok (ctx.removeAlias s.name)
    else .error s!"no alias named '{s.name}'"
  else if binding = .bound && (Command.ofName? s.command).isNone then
    .error s!"Unknown command: {s.command}"
  else if binding = .bound && (Command.ofName? s.name).isSome then
    .error s!"'{s.name}' is already a command"
  else .ok (ctx.setAlias s.name s.command)

/-- `alias`: list the aliases, after setting one, removing one or clearing them.
mirrors `AliasCommand.run` -/
def runAlias (binding : Binding) (ctx : Context) (armed : Option Nat) (args : List String) :
    Except Failure Reply :=
  let switch : Options.Switch AliasArguments :=
    { names := ["--clear"], effect := .mark fun s => { s with clear := true } }
  let slots : List (Options.Slot AliasArguments) := [
    ⟨"name", false, Options.anyText fun text s => { s with name := text }⟩,
    ⟨"command", false, Options.anyText fun text s => { s with command := text }⟩]
  withArguments ctx armed (Command.aliases.spec [switch] slots) {} args fun s =>
    match changeAliases binding ctx s with
    | .error message => .ok (Reply.refuse ctx armed 1 message)
    | .ok ctx => .ok (Reply.only ctx armed 0 (aliasEvents ctx))

/-- `exit`: leave, telling where the machine stopped.
mirrors `ExitCommand.run` -/
def runExit (ctx : Context) (armed : Option Nat) (args : List String) : Except Failure Reply :=
  let slot : Options.Slot Int := ⟨"code", false, Options.integer fun n _ => n⟩
  withArguments ctx armed (Command.exit.spec [] [slot]) 0 args fun code =>
    let events := match ctx.machine? with
      | none => #[]
      | some m =>
        let state := if m.halted then "halted" else "not halted"
        ctx.result
          s!"Leaving after {m.steps} step(s); machine {state}, {m.output.size} output value(s)"
          (.obj [("exit", .num code), ("state", stateJson m)])
    .ok ⟨ctx, armed, .exit code, events⟩

end Dis.Debugger
