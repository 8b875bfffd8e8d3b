import Dis.Debugger.Command
/-!
# Commands that execute

`step` makes a number of steps and `run` runs until the machine halts, or for a number of steps.
Both go through the runner, so that they count alike. An interrupt ends `step` and whatever called
it, while `run` reports it.
-/
namespace Dis.Debugger

/-- Where the machine stands.
mirrors `_where` -/
def whereText (m : Machine) : String :=
  if m.halted then "machine halted"
  else s!"next C={Listing.number m.c} {Listing.describe (m.memory.read m.c)}"

/-- `step`: make a number of steps, one without an argument.
mirrors `StepCommand.run` -/
def runStep (env : Surroundings) (ctx : Context) (armed : Option Nat) (args : List String) :
    Except Failure Reply :=
  let slot : Options.Slot Int := ⟨"count", false, Options.positive fun n _ => n⟩
  withArguments ctx armed (Command.step.spec [] [slot]) 1 args fun count =>
    match ctx.requireRunner with
    | .error e => .ok (Reply.refuse ctx armed 1 e.message)
    | .ok runner =>
      let call := runner.run env.patience armed (some count)
      let ctx := { ctx with runner := some call.runner }
      match call.ending with
      | .fault e =>
        .ok ⟨ctx, call.armed, .status 2, call.events ++ ctx.error s!"runtime fault: {e.message}"⟩
      | .interrupted => .ok ⟨ctx, call.armed, .interrupted, call.events⟩
      | .unfinished => .ok ⟨ctx, call.armed, .unfinished, call.events⟩
      | .done =>
        let m := call.runner.machine
        let data := .obj [("result", .str "stepped"), ("executed", .num call.executed),
          ("state", stateJson m)]
        .ok ⟨ctx, call.armed, .status 0, call.events ++
          ctx.result s!"Stepped {call.executed} instruction(s); {whereText m}" data⟩

/-- Batches of a `run` that began when the runner had made `start` steps. At most `fuel` batches
are made; without a limit, running out of them leaves the run unfinished.
mirrors the loop of `RunCommand.run` -/
def runBatches (limit : Option Int) (start : Nat) (armed : Option Nat) (events : Array Event) :
    Nat → Runner → Runner × Ending × Option Nat × Array Event
  | 0, r => (r, if limit.isNone then .unfinished else .done, armed, events)
  | fuel + 1, r =>
    let made := r.steps - start
    if limit.any (fun (n : Int) => n ≤ made) then (r, .done, armed, events)
    else
      match r.runBatch armed (limit.map fun (n : Int) => n - made) with
      | ⟨r, executed, ending, armed, more⟩ =>
        let events := events ++ more
        match ending with
        | .done =>
          if r.machine.halted || executed = 0 then (r, .done, armed, events)
          else runBatches limit start armed events fuel r
        | ending => (r, ending, armed, events)

/-- `run`: run until the machine halts, or for a number of steps.
mirrors `RunCommand.run` -/
def runRun (env : Surroundings) (ctx : Context) (armed : Option Nat) (args : List String) :
    Except Failure Reply :=
  let slot : Options.Slot (Option Int) := ⟨"count", false, Options.positive fun n _ => some n⟩
  withArguments ctx armed (Command.run.spec [] [slot]) none args fun limit =>
    match ctx.requireRunner with
    | .error e => .ok (Reply.refuse ctx armed 1 e.message)
    | .ok runner =>
      let start := runner.steps
      let (runner, ending, armed, events) :=
        runBatches limit start armed #[] (Runner.fuelFor env.patience limit) runner
      let ctx := { ctx with runner := some runner }
      let m := runner.machine
      let report (status : String) : Reply :=
        let executed := runner.steps - start
        let data := .obj [("result", .str status), ("executed", .num executed), ("state", stateJson m)]
        ⟨ctx, armed, .status 0, events ++
          ctx.result s!"Ran {executed} instruction(s), {status}; {whereText m}" data⟩
      match ending with
      | .fault e =>
        .ok ⟨ctx, armed, .status 2, events ++ ctx.error s!"runtime fault: {e.message}"⟩
      | .unfinished => .ok ⟨ctx, armed, .unfinished, events⟩
      | .interrupted => .ok (report "interrupted")
      | .done => .ok (report (if m.halted then "halted" else "stopped"))

end Dis.Debugger
