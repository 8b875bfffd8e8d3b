import Dis.Debugger.Dispatch
import Dis.Proofs.Strikes
/-!
# The commands that execute, under interrupts

`step` and `run` hand their batches to the runner, and an interrupt may strike any of them. Here the
replies of the two commands are functions of the strikes (`struckStep`, `struckRun`); everything but
the loop is as the commands have it.

* `runBatches_eq`, `struckBatches_eq`: the loop of the `run` command is the loop of the runner.
* `runStep_eq`, `runRun_eq`: the commands are the case in which only the first batch may be struck.
-/
namespace Dis.Debugger

open Runner (reached remaining)

/-! ## The loop of `run` -/

theorem runBatches_succ (limit : Option Int) (start : Nat) (armed : Option Nat)
    (events : Array Event) (fuel : Nat) (r : Runner) :
    runBatches limit start armed events (fuel + 1) r =
      if reached limit (r.steps - start) then (r, .done, armed, events)
      else
        let call := r.runBatch armed (remaining limit (r.steps - start))
        match call.ending with
        | .done =>
          if call.runner.machine.halted || call.executed = 0 then
            (call.runner, .done, call.armed, events ++ call.events)
          else runBatches limit start call.armed (events ++ call.events) fuel call.runner
        | ending => (call.runner, ending, call.armed, events ++ call.events) := by
  rw [runBatches]
  rfl

/-- The command counts by the runner's steps what the runner's own loop counts by itself. -/
theorem runBatches_eq (limit : Option Int) (start total : Nat) (armed : Option Nat)
    (events : Array Event) (fuel : Nat) (r : Runner) (h : r.steps = start + total) :
    runBatches limit start armed events fuel r =
      ((Runner.runFrom limit total armed events fuel r).runner,
        (Runner.runFrom limit total armed events fuel r).ending,
        (Runner.runFrom limit total armed events fuel r).armed,
        (Runner.runFrom limit total armed events fuel r).events) := by
  -- `h` is what carries the induction: a batch adds as much to `steps` as it does to `total`
  induction fuel generalizing total armed events r with
  | zero => rfl
  | succ fuel ih =>
    have hmade : r.steps - start = total := by omega
    rw [runBatches_succ, Runner.runFrom_succ, hmade]
    by_cases hreached : reached limit total = true
    · rw [if_pos hreached, if_pos hreached]
    · rw [if_neg hreached, if_neg hreached]
      dsimp only
      rw [Runner.stops_runBatch]
      cases hending : (r.runBatch armed (remaining limit total)).ending with
      | done =>
        dsimp only
        split
        · rfl
        · refine ih _ _ _ _ ?_
          rw [Runner.runBatch_steps, h, Nat.add_assoc]
      | _ => rfl

/-- The loop of the command is that of the runner from the start. -/
theorem runBatches_run (patience : Nat) (limit : Option Int) (armed : Option Nat) (r : Runner) :
    runBatches limit r.steps armed #[] (Runner.fuelFor patience limit) r =
      ((r.run patience armed limit).runner, (r.run patience armed limit).ending,
        (r.run patience armed limit).armed, (r.run patience armed limit).events) :=
  runBatches_eq limit r.steps 0 armed #[] _ r rfl

/-- `runBatches` with its batches struck in turn. -/
def struckBatches (limit : Option Int) (start : Nat) (strikes : List (Option Nat))
    (events : Array Event) : Nat → Runner → Runner × Ending × Option Nat × Array Event
  | 0, r => (r, if limit.isNone then .unfinished else .done, strikes.headD none, events)
  | fuel + 1, r =>
    if reached limit (r.steps - start) then (r, .done, strikes.headD none, events)
    else
      let call := r.runBatch (strikes.headD none) (remaining limit (r.steps - start))
      match call.ending with
      | .done =>
        if call.runner.machine.halted || call.executed = 0 then
          (call.runner, .done, call.armed, events ++ call.events)
        else struckBatches limit start strikes.tail (events ++ call.events) fuel call.runner
      | ending => (call.runner, ending, call.armed, events ++ call.events)

theorem struckBatches_eq (limit : Option Int) (start total : Nat) (strikes : List (Option Nat))
    (events : Array Event) (fuel : Nat) (r : Runner) (h : r.steps = start + total)
    (call : RunnerCall)
    (hcall : (Runner.struckFrom limit total strikes events fuel r).call = call) :
    struckBatches limit start strikes events fuel r =
      (call.runner, call.ending, call.armed, call.events) := by
  induction fuel generalizing total strikes events r with
  | zero => subst hcall; rfl
  | succ fuel ih =>
    have hmade : r.steps - start = total := by omega
    rw [Runner.struckFrom] at hcall
    rw [struckBatches, hmade]
    by_cases hreached : reached limit total = true
    · rw [if_pos hreached] at hcall ⊢
      subst hcall; rfl
    · rw [if_neg hreached] at hcall ⊢
      dsimp only at hcall ⊢
      rw [Runner.stops_runBatch] at hcall
      cases hending : (r.runBatch (strikes.headD none) (remaining limit total)).ending with
      | done =>
        simp only [hending] at hcall ⊢
        split at hcall
        · next hstop => subst hcall; rw [if_pos hstop]
        · next hstop =>
          rw [if_neg hstop]
          refine ih _ _ _ _ ?_ hcall
          rw [Runner.runBatch_steps, h, Nat.add_assoc]
      | _ =>
        simp only [hending] at hcall ⊢
        subst hcall; rfl

/-! ## Replies -/

/-- The reply of a command that needs arguments and a program. -/
def runnerReply {σ : Type} (ctx : Context) (armed : Option Nat) (spec : Options.Spec σ) (start : σ)
    (args : List String) (answer : σ → Runner → Reply) : Reply :=
  match spec.parse start args with
  | .parsed s => match ctx.runner with
    | none => Reply.refuse ctx armed 1 Failure.noProgram.message
    | some r => answer s r
  | .help => Reply.only ctx armed 1 #[]
  | .refused why => Reply.only ctx armed 1 (spec.complain why)

/-- The reply of `step` after the runner's call. -/
def stepReply (ctx : Context) (call : RunnerCall) : Reply :=
  let ctx := { ctx with runner := some call.runner }
  let m := call.runner.machine
  match call.ending with
  | .fault e =>
    ⟨ctx, call.armed, .status 2, call.events ++ ctx.error s!"runtime fault: {e.message}"⟩
  | .interrupted => ⟨ctx, call.armed, .interrupted, call.events⟩
  | .unfinished => ⟨ctx, call.armed, .unfinished, call.events⟩
  | .done => ⟨ctx, call.armed, .status 0, call.events ++
      ctx.result s!"Stepped {call.executed} instruction(s); {whereText m}"
        (.obj [("result", .str "stepped"), ("executed", .num call.executed),
          ("state", stateJson m)])⟩

/-- What `run` prints about a run of `n` steps that has left the machine `m`. -/
def runReport (ctx : Context) (status : String) (n : Nat) (m : Machine) : Array Event :=
  ctx.result s!"Ran {n} instruction(s), {status}; {whereText m}"
    (.obj [("result", .str status), ("executed", .num n), ("state", stateJson m)])

/-- The reply of `run` after its loop, which began when the runner had made `start` steps. -/
def runReply (ctx : Context) (start : Nat) (loop : Runner × Ending × Option Nat × Array Event) :
    Reply :=
  let (r, ending, armed, events) := loop
  let ctx := { ctx with runner := some r }
  match ending with
  | .fault e => ⟨ctx, armed, .status 2, events ++ ctx.error s!"runtime fault: {e.message}"⟩
  | .unfinished => ⟨ctx, armed, .unfinished, events⟩
  | .interrupted =>
    ⟨ctx, armed, .status 0, events ++ runReport ctx "interrupted" (r.steps - start) r.machine⟩
  | .done =>
    ⟨ctx, armed, .status 0, events ++
      runReport ctx (if r.machine.halted then "halted" else "stopped") (r.steps - start) r.machine⟩

/-- `step` with its batches struck in turn. -/
def struckStep (env : Surroundings) (ctx : Context) (strikes : List (Option Nat))
    (args : List String) : Reply :=
  let slot : Options.Slot Int := ⟨"count", false, Options.positive fun n _ => n⟩
  runnerReply ctx (strikes.headD none) (Command.step.spec [] [slot]) 1 args fun count r =>
    stepReply ctx (r.struckRun env.patience strikes (some count)).call

/-- The arguments of `run`: a limit, or none. -/
def runSpec : Options.Spec (Option Int) :=
  Command.run.spec [] [⟨"count", false, Options.positive fun n _ => some n⟩]

/-- `run` with its batches struck in turn. -/
def struckRun (env : Surroundings) (ctx : Context) (strikes : List (Option Nat))
    (args : List String) : Reply :=
  runnerReply ctx (strikes.headD none) runSpec none args fun limit r =>
    runReply ctx r.steps
      (struckBatches limit r.steps strikes #[] (Runner.fuelFor env.patience limit) r)

section Commands

variable (env : Surroundings) (ctx : Context) (armed : Option Nat) (args : List String)

theorem withArguments_eq {σ : Type} (spec : Options.Spec σ) (start : σ)
    (run : σ → Except Failure Reply) (answer : σ → Runner → Reply)
    (hnone : ∀ s, ctx.runner = none →
      run s = .ok (Reply.refuse ctx armed 1 Failure.noProgram.message))
    (hsome : ∀ s r, ctx.runner = some r → run s = .ok (answer s r)) :
    withArguments ctx armed spec start args run =
      .ok (runnerReply ctx armed spec start args answer) := by
  unfold withArguments runnerReply
  cases spec.parse start args with
  | parsed s =>
    cases hr : ctx.runner with
    | none => exact hnone s hr
    | some r => exact hsome s r hr
  | help => rfl
  | refused why => rfl

theorem runStep_eq : runStep env ctx armed args = .ok (struckStep env ctx [armed] args) := by
  unfold runStep struckStep
  apply withArguments_eq
  · intro count hr
    simp only [Context.requireRunner, hr]
  · intro count r hr
    simp only [Context.requireRunner, hr, Runner.struckRun_single]
    unfold stepReply
    cases (r.run env.patience armed (some count)).ending <;> rfl

theorem runRun_eq : runRun env ctx armed args = .ok (struckRun env ctx [armed] args) := by
  unfold runRun struckRun
  apply withArguments_eq
  · intro limit hr
    simp only [Context.requireRunner, hr]
  · intro limit r hr
    have hloop := struckBatches_eq limit r.steps 0 [armed] #[] (Runner.fuelFor env.patience limit) r
      rfl _ (Runner.struckRun_single env.patience armed limit r)
    simp only [Context.requireRunner, hr, runBatches_run, hloop]
    unfold runReply
    cases (r.run env.patience armed limit).ending <;> rfl

end Commands
end Dis.Debugger
