import Dis.Debugger.Command
/-!
# Commands that inspect

Registers, memory, output and the state of the runner.
-/
namespace Dis.Debugger

/-- The lines of a machine's state.
mirrors `render_state` -/
def stateLines (m : Machine) : List String :=
  "  registers:" :: (Listing.registerLines m.a m.c m.d).map ("  " ++ ·) ++
    [s!"  halt={(Value.truth m.halted).shown} steps={m.steps} input_pending={m.queue.size} output={m.output.size}"]

/-- `regs`: the registers and flags.
mirrors `RegistersCommand.run` -/
def runRegs (ctx : Context) (armed : Option Nat) : Except Failure Reply :=
  match ctx.requireRunner with
  | .error e => .ok (Reply.refuse ctx armed 1 e.message)
  | .ok runner =>
    let m := runner.machine
    let lines := if ctx.json then [] else (stateLines m).map Event.outLine
    .ok (Reply.only ctx armed 0 (ctx.result "machine state:" (stateJson m) ++ lines.toArray))

/-- A listing entry as a document. -/
def entryJson (e : Listing.Entry) : Json :=
  .obj [("addr", .num e.address), ("word", .num e.word), ("trits", .str e.trits),
    ("mnemonic", match e.mnemonic? with | some s => .str s | none => .null), ("text", .str e.text)]

/-- The arguments of `mem`. -/
structure MemArguments where
  address : Option String := none
  count : Int := 16

/-- The address an argument of `mem` names: a register, or a number. -/
def addressOf (m : Machine) (text : String) : Option Int :=
  match Text.upperAscii text.toList with
  | ['C'] => some m.c
  | ['D'] => some m.d
  | _ => (Text.readAddress text).toOption

/-- `mem`: a listing of memory, from C unless an address is given.
mirrors `MemoryCommand.run` -/
def runMem (ctx : Context) (armed : Option Nat) (args : List String) : Except Failure Reply :=
  let slots : List (Options.Slot MemArguments) := [
    ⟨"address", false, Options.anyText fun text s => { s with address := some text }⟩,
    ⟨"count", false, Options.integer fun n s => { s with count := n }⟩]
  withArguments ctx armed (Command.mem.spec [] slots) {} args fun s =>
    match ctx.requireRunner with
    | .error e => .ok (Reply.refuse ctx armed 1 e.message)
    | .ok runner =>
      let m := runner.machine
      let address := s.address.getD "C"
      match addressOf m address with
      | none => .ok (Reply.refuse ctx armed 1 s!"invalid address: {address}")
      | some start =>
        if start < 0 || Memory.size ≤ start then
          .ok (Reply.refuse ctx armed 1 s!"address out of range: {start}")
        else
          let listing := Listing.ofMemory m.memory start s.count
          let data := .obj [("start", .num start), ("words", .arr (listing.map entryJson))]
          let lines := if ctx.json then []
            else listing.map fun e => Event.outLine (e.line (Listing.registerMarks "CD" m))
          .ok (Reply.only ctx armed 0
            (ctx.result s!"memory @{Listing.number start.toNat}:" data ++ lines.toArray))

/-- `output`: the output so far, which may be cleared.
mirrors `OutputCommand.run` -/
def runOutput (ctx : Context) (armed : Option Nat) (args : List String) : Except Failure Reply :=
  let switch : Options.Switch Bool := { names := ["--clear"], effect := .mark fun _ => true }
  withArguments ctx armed (Command.output.spec [switch] []) false args fun clear =>
    match ctx.requireRunner with
    | .error e => .ok (Reply.refuse ctx armed 1 e.message)
    | .ok runner =>
      match ctx.renderOutput with
      | .error e => .error e
      | .ok text =>
        let values := runner.machine.output.toList.map fun (n : Nat) => Json.num n
        let data := .obj [("text", .str text), ("values", .arr values),
          ("encoding", .ofValue ctx.outputEncoding)]
        let after := if clear then
            { ctx with runner := some { runner with machine := runner.machine.drain } }
          else ctx
        .ok ⟨after, armed, .status 0, ctx.result text data⟩

/-- `status`: the program loaded and what the runner has done.
mirrors `StatusCommand.run` -/
def runStatus (ctx : Context) (armed : Option Nat) : Except Failure Reply :=
  match ctx.runner with
  | none => .ok (Reply.only ctx armed 0 (ctx.result "no program loaded" (.obj [("loaded", .bool false)])))
  | some runner =>
    let halted := runner.machine.halted
    let data := .obj [("loaded", .bool true), ("source", .str ctx.origin), ("halt", .bool halted),
      ("steps", .num runner.steps), ("batches", .num runner.batches),
      ("input_enc", .ofValue ctx.inputEncoding), ("output_enc", .ofValue ctx.outputEncoding)]
    let state := if halted then "halted" else "runnable"
    let message := s!"{ctx.origin}: {state} after {runner.steps} step(s) in {runner.batches} batch(es); "
      ++ s!"enc in={ctx.inputEncoding.asText} out={ctx.outputEncoding.asText}"
    .ok (Reply.only ctx armed 0 (ctx.result message data))

end Dis.Debugger
