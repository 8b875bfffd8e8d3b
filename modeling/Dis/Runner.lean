import Dis.Log
/-!
# The runner

A runner drives a machine in batches of bounded length, so that its host regains control between
them. It can be paused, and it counts the steps and the batches made through it, also when a batch
ends in a fault or is interrupted.

An interrupt that the host has ready (`armed`) strikes the next batch that really runs: the batch
then ignores its budget and is cut off after the given number of steps.
-/
namespace Dis

/-- A machine driven in batches.
mirrors `Runner` -/
structure Runner where
  machine : Machine
  batch : Nat           -- the most steps of one batch
  paused : Bool
  steps : Nat           -- steps made through the runner
  batches : Nat         -- batches made

/-- A batch length below one. -/
structure BatchError where
  given : Int

/-- The wording of a refused batch length. -/
def BatchError.message (e : BatchError) : String :=
  s!"batch must be positive (got {e.given})"

/-- What a call on a runner leads to: the runner after it, the steps made by the call, how it
ended, the interrupt still ready, and the records logged.
mirrors `BatchResult` -/
structure RunnerCall (ε : Type := RangeError) where
  runner : Runner
  executed : Nat
  ending : Ending ε
  armed : Option Nat
  events : Array Event

namespace Runner

/-- A runner that has made no step yet. -/
def atRest (machine : Machine) (batch : Nat) : Runner :=
  { machine, batch, paused := false, steps := 0, batches := 0 }

/-- A runner for a machine.
mirrors `Runner.__init__` -/
def new (machine : Machine) (batch : Int) : Except BatchError Runner :=
  if batch < 1 then .error ⟨batch⟩ else .ok (atRest machine batch.toNat)

/-- The length of batches unless a host says otherwise.
mirrors `DEFAULT_BATCH` -/
def defaultBatch : Int := 10000

/-- Hold the runner.
mirrors `Runner.pause` -/
def pause (r : Runner) : Runner := { r with paused := true }

/-- Let the runner go on.
mirrors `Runner.resume` -/
def resume (r : Runner) : Runner := { r with paused := false }

/-- The most steps of a batch under a limit. -/
def budget (batch : Nat) (limit : Option Int) : Nat :=
  match limit with
  | none => batch
  | some n => min batch n.toNat

/-- The record a batch leaves behind. -/
def batchEvents (cycle : Cycle) (number : Nat) (run : Run cycle.Fault) : Array Event :=
  match run.ending with
  | .done => #[.log (.batchRan number run.executed run.machine.halted)]
  | .fault e =>
    if cycle.logged e then #[.log (.faulted run.machine.c run.machine.d run.machine.steps)]
    else #[]
  | _ => #[]

/-- Run one batch of at most `limit` steps. A paused runner or a halted machine makes none.
mirrors `Runner.run_batch` -/
def runBatch (armed : Option Nat) (limit : Option Int) (r : Runner) (cycle : Cycle := .plain) :
    RunnerCall cycle.Fault :=
  match r with
  | ⟨machine, batch, paused, steps, batches⟩ =>
    if paused || machine.halted then
      ⟨⟨machine, batch, paused, steps, batches⟩, 0, .done, armed, #[]⟩
    else
      let run := machine.runUnder armed 0 (some (budget batch limit)) cycle
      let events := batchEvents cycle (batches + 1) run
      ⟨⟨run.machine, batch, paused, steps + run.executed, batches + 1⟩, run.executed, run.ending,
        none, events⟩

/-- Batches until the machine halts, the runner is paused or the limit is reached, after a call has
made `total` steps. At most `fuel` batches are made; without a limit, running out of them leaves
the run unfinished.
mirrors the loop of `Runner.run` -/
def runFrom (limit : Option Int) (total : Nat) (armed : Option Nat) (events : Array Event)
    (fuel : Nat) (r : Runner) (cycle : Cycle := .plain) : RunnerCall cycle.Fault :=
  match fuel with
  | 0 => ⟨r, total, if limit.isNone then .unfinished else .done, armed, events⟩
  | fuel + 1 =>
    if limit.any (fun (n : Int) => n ≤ total) then ⟨r, total, .done, armed, events⟩
    else
      match r.runBatch armed (limit.map fun (n : Int) => n - total) cycle with
      | ⟨r, executed, ending, armed, more⟩ =>
        let events := events ++ more
        match ending with
        | .done =>
          if r.machine.halted || r.paused || executed = 0 then
            ⟨r, total + executed, .done, armed, events⟩
          else runFrom limit (total + executed) armed events fuel r cycle
        | ending => ⟨r, total + executed, ending, armed, events⟩

/-- The most batches a run can need: each but the last makes a step. -/
def fuelFor (patience : Nat) (limit : Option Int) : Nat :=
  match limit with
  | none => patience
  | some n => n.toNat

/-- Run batches until the machine halts, the runner is paused or `limit` steps are made.
mirrors `Runner.run` -/
def run (patience : Nat) (armed : Option Nat) (limit : Option Int) (r : Runner)
    (cycle : Cycle := .plain) : RunnerCall cycle.Fault :=
  runFrom limit 0 armed #[] (fuelFor patience limit) r cycle

end Runner

/-- Why a program cannot be run in one go. -/
inductive RunError
  | program (e : Program.ParseError)
  | batch (e : BatchError)

/-- Load a program, queue input bytes and run it.
mirrors `run_program` -/
def runProgram (patience : Nat) (source : String) (input : List UInt8) (limit : Option Int)
    (batch : Int) : Except RunError RunnerCall := do
  let machine ← (Machine.load source).mapError .program
  let runner ← (Runner.new (machine.setQueue (input.map fun b => .int b.toNat)) batch).mapError .batch
  .ok (runner.run patience none limit)

end Dis
