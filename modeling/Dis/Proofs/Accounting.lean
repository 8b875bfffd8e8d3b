import Dis.Proofs.Answers
/-!
# What a runner counts

A runner counts the steps and the batches made through it, and its machine counts its own steps. A
host calls `runBatch`, `run`, `pause` and `resume` in any order (`RunnerOp`), and interrupts may
strike the batches.

`Counted r r' calls`: between `r` and `r'` the two counts of steps have grown alike, and the count
of batches has grown by those of the `calls` made that found the runner going.

* `runBatch_counted`, `struckRun_counted`: a batch and a run are counted, however they end.
* `session_counted`: so is every sequence of calls.
* `struckRun_paused`: a run while paused changes nothing.
* `runner_accounting`: what a runner built for any machine has counted after any calls, and what the
  `run` command reports of it.
-/
namespace Dis
namespace Runner

structure Counted (r r' : Runner) (calls : List BatchCall) : Prop where
  steps : ∃ n, r'.steps = r.steps + n ∧ r'.machine.steps = r.machine.steps + n
  batches : r'.batches = r.batches + calls.countP BatchCall.runs

theorem Counted.refl (r : Runner) : Counted r r [] :=
  ⟨⟨0, rfl, rfl⟩, rfl⟩

theorem Counted.trans {r r' r'' : Runner} {calls calls' : List BatchCall}
    (h : Counted r r' calls) (h' : Counted r' r'' calls') : Counted r r'' (calls ++ calls') := by
  obtain ⟨n, hsteps, hmachine⟩ := h.steps
  obtain ⟨n', hsteps', hmachine'⟩ := h'.steps
  have hbatches := h.batches
  have hbatches' := h'.batches
  refine ⟨⟨n + n', by omega, by omega⟩, ?_⟩
  rw [List.countP_append]
  omega

/-! ## Batches -/

theorem runBatch_machine_steps (strike : Option Nat) (limit : Option Int) (r : Runner) :
    (r.runBatch strike limit).runner.machine.steps =
      r.machine.steps + (r.runBatch strike limit).executed := by
  by_cases hidle : (r.paused || r.machine.halted) = true
  · rw [runBatch_idle strike limit r hidle]
    rfl
  · unfold runBatch
    simp only [if_neg hidle]
    exact r.machine.runUnder_steps _ _ _

theorem runBatch_counted (strike : Option Nat) (limit : Option Int) (r : Runner) :
    Counted r (r.runBatch strike limit).runner [⟨r, strike, limit⟩] := by
  refine ⟨⟨_, runBatch_steps strike limit r, runBatch_machine_steps strike limit r⟩, ?_⟩
  have hruns : BatchCall.runs ⟨r, strike, limit⟩ = !(r.paused || r.machine.halted) := by
    rw [BatchCall.runs, Bool.not_or]
  by_cases hidle : (r.paused || r.machine.halted) = true
  · rw [runBatch_idle strike limit r hidle]
    simp [hruns, hidle]
  · unfold runBatch
    simp only [if_neg hidle]
    simp [hruns, hidle]

/-- Only an interrupt gets a batch beyond its budget. -/
theorem runBatch_executed_le (limit : Option Int) (r : Runner) :
    (r.runBatch none limit).executed ≤ budget r.batch limit := by
  by_cases hidle : (r.paused || r.machine.halted) = true
  · rw [runBatch_idle none limit r hidle]
    exact Nat.zero_le _
  · obtain ⟨hp, hm⟩ : r.paused = false ∧ r.machine.halted = false := by simpa using hidle
    rw [runBatch_eq limit r hp hm]
    exact r.machine.runFor_le _

/-! ## Runs -/

theorem struckFrom_counted (limit : Option Int) (total : Nat) (strikes : List (Option Nat))
    (events : Array Event) (fuel : Nat) (r : Runner) :
    Counted r (struckFrom limit total strikes events fuel r).call.runner
      (struckFrom limit total strikes events fuel r).batchCalls := by
  induction fuel generalizing total strikes events r with
  | zero => exact .refl r
  | succ fuel ih =>
    have hbatch := runBatch_counted (strikes.headD none) (remaining limit total) r
    rw [struckFrom]
    by_cases hreached : reached limit total = true
    · rw [if_pos hreached]
      exact .refl r
    · rw [if_neg hreached]
      dsimp only
      split
      · split
        · exact hbatch
        · -- the first batch, then the rest of the loop
          exact hbatch.trans (ih _ strikes.tail _ _)
      · exact hbatch

theorem struckRun_counted (patience : Nat) (strikes : List (Option Nat)) (limit : Option Int)
    (r : Runner) :
    Counted r (r.struckRun patience strikes limit).call.runner
      (r.struckRun patience strikes limit).batchCalls :=
  struckFrom_counted limit 0 strikes #[] _ r

theorem struckRun_paused (patience : Nat) (strikes : List (Option Nat)) (limit : Option Int)
    {r : Runner} (hp : r.paused = true) : (r.struckRun patience strikes limit).call.runner = r := by
  unfold struckRun
  cases fuelFor patience limit with
  | zero => rfl
  | succ fuel =>
    rw [struckFrom]
    split
    · rfl
    · -- the one batch of the loop makes no step
      rw [runBatch_idle _ _ r (by simp [hp])]
      simp [stops]

theorem struckRun_batch (patience : Nat) (strikes : List (Option Nat)) (limit : Option Int)
    (r : Runner) : (r.struckRun patience strikes limit).call.runner.batch = r.batch :=
  (struckRun_invariant (P := fun r' => r'.batch = r.batch)
    (fun strike limit r' h => (runBatch_batch strike limit r').trans h) patience strikes limit r
    rfl).1

end Runner

/-! ## Calls of a host -/

open Runner (BatchCall Counted)

/-- A call on a runner, with the interrupts that strike its batches. -/
inductive RunnerOp
  | runBatch (strike : Option Nat) (limit : Option Int)
  | run (patience : Nat) (strikes : List (Option Nat)) (limit : Option Int)
  | pause
  | resume

namespace RunnerOp

def after (r : Runner) : RunnerOp → Runner
  | runBatch strike limit => (r.runBatch strike limit).runner
  | run patience strikes limit => (r.struckRun patience strikes limit).call.runner
  | pause => r.pause
  | resume => r.resume

/-- The batches a call asks for. -/
def batchCalls (r : Runner) : RunnerOp → List BatchCall
  | runBatch strike limit => [⟨r, strike, limit⟩]
  | run patience strikes limit => (r.struckRun patience strikes limit).batchCalls
  | pause => []
  | resume => []

def session (r : Runner) (ops : List RunnerOp) : Runner := ops.foldl after r

def sessionCalls : Runner → List RunnerOp → List BatchCall
  | _, [] => []
  | r, op :: ops => op.batchCalls r ++ sessionCalls (op.after r) ops

theorem after_counted (r : Runner) (op : RunnerOp) : Counted r (op.after r) (op.batchCalls r) := by
  cases op with
  | runBatch strike limit => exact Runner.runBatch_counted strike limit r
  | run patience strikes limit => exact Runner.struckRun_counted patience strikes limit r
  | pause => exact ⟨⟨0, rfl, rfl⟩, rfl⟩
  | resume => exact ⟨⟨0, rfl, rfl⟩, rfl⟩

theorem session_counted (r : Runner) (ops : List RunnerOp) :
    Counted r (session r ops) (sessionCalls r ops) := by
  induction ops generalizing r with
  | nil => exact .refl r
  | cons op ops ih => exact (after_counted r op).trans (ih (op.after r))

theorem after_batch (r : Runner) (op : RunnerOp) : (op.after r).batch = r.batch := by
  cases op with
  | runBatch strike limit => exact Runner.runBatch_batch strike limit r
  | run patience strikes limit => exact Runner.struckRun_batch patience strikes limit r
  | pause => rfl
  | resume => rfl

theorem session_batch (r : Runner) (ops : List RunnerOp) : (session r ops).batch = r.batch := by
  induction ops generalizing r with
  | nil => rfl
  | cons op ops ih => exact (ih (op.after r)).trans (after_batch r op)

/-- A runner that is built has counted nothing yet. -/
theorem session_of_new {m : Machine} {batch : Int} {r : Runner} (hnew : Runner.new m batch = .ok r)
    (ops : List RunnerOp) :
    m.steps + (session r ops).steps = (session r ops).machine.steps ∧
      (session r ops).batches = (sessionCalls r ops).countP BatchCall.runs ∧
      (session r ops).batch = batch := by
  obtain ⟨hbatch, rfl⟩ := Runner.new_eq_ok_iff.1 hnew
  have hcounted := session_counted (.atRest m batch.toNat) ops
  obtain ⟨n, hsteps, hmachine⟩ := hcounted.steps
  refine ⟨?_, ?_, ?_⟩
  · rw [hsteps, hmachine]
    show m.steps + (0 + n) = m.steps + n
    omega
  · rw [hcounted.batches]
    exact Nat.zero_add _
  · rw [session_batch]
    show (batch.toNat : Int) = batch
    omega

theorem after_of_paused {r : Runner} (hp : r.paused = true) (op : RunnerOp) :
    (op.after r).machine = r.machine ∧ (op.after r).steps = r.steps ∧
      (op.after r).batches = r.batches := by
  cases op with
  | runBatch strike limit =>
    rw [after, Runner.runBatch_idle strike limit r (by simp [hp])]
    exact ⟨rfl, rfl, rfl⟩
  | run patience strikes limit =>
    rw [after, Runner.struckRun_paused patience strikes limit hp]
    exact ⟨rfl, rfl, rfl⟩
  | pause => exact ⟨rfl, rfl, rfl⟩
  | resume => exact ⟨rfl, rfl, rfl⟩

end RunnerOp

/-! ## The report of `run` -/

namespace Debugger

variable {ctx : Context} {r : Runner} {args : List String} {limit : Option Int}

theorem struckRun_eq (env : Surroundings) (strikes : List (Option Nat))
    (hr : ctx.runner = some r) (hargs : runSpec.parse none args = .parsed limit)
    {call : RunnerCall} (hcall : (r.struckRun env.patience strikes limit).call = call) :
    struckRun env ctx strikes args =
      runReply ctx r.steps (call.runner, call.ending, call.armed, call.events) := by
  have hloop := struckBatches_eq limit r.steps 0 strikes #[] (Runner.fuelFor env.patience limit) r
    rfl call hcall
  simp only [struckRun, runnerReply, hargs, hr, hloop]

theorem StruckTurn.reply_run (t : StruckTurn) (hr : ctx.runner = some r)
    (hline : lineCommand? ctx t.line = some (.run, args))
    (hargs : runSpec.parse none args = .parsed limit) {call : RunnerCall}
    (hcall : (r.struckRun t.env.patience (t.armed :: t.later) limit).call = call) :
    t.reply ctx = runReply ctx r.steps (call.runner, call.ending, call.armed, call.events) := by
  unfold StruckTurn.reply
  rw [hline]
  exact struckRun_eq t.env (t.armed :: t.later) hr hargs hcall

end Debugger

open Debugger (Turn StruckTurn Context dispatch lineCommand? runSpec runReport)

/-- **A runner counts exactly.** A runner built for any machine has, after any calls, counted the
steps its machine has made since and the batches that found it going. While it is paused no call
changes machine or counts. A batch that is not interrupted keeps to the length of batches and to its
limit. The number that the `run` command reports, interrupted or not, is that of the steps its
machine has made. Interrupts may strike any batch here; where only the first can be struck, the call
is `Runner.run`, the reply that of the command, and the line dispatched as typed. -/
theorem runner_accounting :
    (∀ (m : Machine) (batch : Int) (r₀ : Runner), Runner.new m batch = .ok r₀ →
      ∀ (ops : List RunnerOp) (r : Runner), RunnerOp.session r₀ ops = r →
        m.steps + r.steps = r.machine.steps ∧
        r.batches = (RunnerOp.sessionCalls r₀ ops).countP BatchCall.runs ∧
        (r.paused = true → ∀ op : RunnerOp, (op.after r).machine = r.machine ∧
          (op.after r).steps = r.steps ∧ (op.after r).batches = r.batches) ∧
        (∀ strike limit, (r.runBatch strike limit).runner.machine.steps =
          r.machine.steps + (r.runBatch strike limit).executed) ∧
        (∀ n : Int, ((r.runBatch none (some n)).executed : Int) ≤ min batch (max 0 n)) ∧
        ((r.runBatch none none).executed : Int) ≤ batch) ∧
    (∀ (t : StruckTurn) (ctx : Context) (r : Runner) (args : List String) (limit : Option Int)
        (call : RunnerCall), ctx.runner = some r → lineCommand? ctx t.line = some (.run, args) →
      runSpec.parse none args = .parsed limit →
      (r.struckRun t.env.patience (t.armed :: t.later) limit).call = call →
      (t.reply ctx).context = { ctx with runner := some call.runner } ∧
      ∃ n, call.runner.machine.steps = r.machine.steps + n ∧
        (call.ending = .interrupted →
          (t.reply ctx).events =
            call.events ++ runReport ctx "interrupted" n call.runner.machine) ∧
        (call.ending = .done →
          (t.reply ctx).events = call.events ++
            runReport ctx (if call.runner.machine.halted then "halted" else "stopped") n
              call.runner.machine)) ∧
    (∀ (r : Runner) (patience : Nat) (armed : Option Nat) (limit : Option Int),
      (r.struckRun patience [armed] limit).call = r.run patience armed limit) ∧
    (∀ env (ctx : Context) (armed : Option Nat) (args : List String),
      Debugger.runRun env ctx armed args = .ok (Debugger.struckRun env ctx [armed] args)) ∧
    ∀ (t : Turn) (ctx : Context),
      (⟨t, []⟩ : StruckTurn).reply ctx = dispatch t.env ctx t.armed t.line := by
  refine ⟨?_, ?_, fun r patience armed limit => r.struckRun_single patience armed limit,
    Debugger.runRun_eq, StruckTurn.reply_plain⟩
  · intro m batch r₀ hnew ops r hsession
    subst hsession
    obtain ⟨hsteps, hbatches, hlength⟩ := RunnerOp.session_of_new hnew ops
    generalize RunnerOp.session r₀ ops = r at *
    refine ⟨hsteps, hbatches, RunnerOp.after_of_paused,
      fun strike limit => r.runBatch_machine_steps strike limit, ?_, ?_⟩
    · intro n
      have hle := r.runBatch_executed_le (some n)
      simp only [Runner.budget] at hle
      omega
    · have hle := r.runBatch_executed_le none
      simp only [Runner.budget] at hle
      omega
  · intro t ctx r args limit call hr hline hargs hcall
    have hreply := t.reply_run hr hline hargs hcall
    -- the command reports the growth of the runner's count
    obtain ⟨n, hsteps, hn⟩ :=
      (r.struckRun_counted t.env.patience (t.armed :: t.later) limit).steps
    rw [hcall] at hsteps hn
    have hreported : call.runner.steps - r.steps = n := by omega
    rw [hreply]
    refine ⟨?_, n, hn, ?_, ?_⟩
    · unfold Debugger.runReply
      dsimp only
      split <;> rfl
    · intro hending
      simp only [Debugger.runReply, hending, hreported]
      rfl
    · intro hending
      simp only [Debugger.runReply, hending, hreported]
      rfl

/-- Batches on a machine that never does anything but count, some of them struck. -/
theorem session_of_idle (idle : Nat → Machine) (hgoing : ∀ k, (idle k).halted = false)
    (hrun : ∀ k n, (idle k).runFor n = ⟨idle (k + n), n, .done⟩) :
    let ops : List RunnerOp := [.runBatch (some 1) none, .pause, .runBatch none none,
      .run 0 [] (some 5), .resume, .run 9 [none, some 1] none]
    RunnerOp.session (.atRest (idle 7) 2) ops = ⟨idle 11, 2, false, 4, 3⟩ ∧
    (RunnerOp.sessionCalls (.atRest (idle 7) 2) ops).countP BatchCall.runs = 3 ∧
    ((Runner.atRest (idle 7) 2).struckRun 0 [none, some 1] (some 5)).call =
      ⟨⟨idle 10, 2, false, 3, 2⟩, 3, .interrupted, none, #[.log (.batchRan 1 2 false)]⟩ := by
  simp [RunnerOp.session, RunnerOp.sessionCalls, RunnerOp.batchCalls, RunnerOp.after,
    BatchCall.runs, Runner.struckRun, Runner.struckFrom, Runner.runBatch, Runner.batchEvents,
    Runner.atRest, Runner.pause, Runner.resume, Runner.budget, Runner.fuelFor, Runner.reached,
    Runner.remaining, Runner.stops, Machine.runUnder, Machine.runUntilInterrupt, Machine.run,
    Run.cutOff, hgoing, hrun]

/-- A machine that had made seven steps before: a batch that is struck, calls while paused and a run
whose second batch is struck make four steps in three batches. A `run` of five steps, its second
batch struck, reports three. -/
theorem runner_accounting_struck :
    let m := (Machine.ofImage #[]).drifted 7
    let r₀ := Runner.atRest m 2
    let ops : List RunnerOp := [.runBatch (some 1) none, .pause, .runBatch none none,
      .run 0 [] (some 5), .resume, .run 9 [none, some 1] none]
    let ctx : Context := { runner := some r₀ }
    let t : StruckTurn := ⟨⟨⟨⟨.folder [], [], Path.ofText "", []⟩, 0⟩, none, "run 5"⟩, [some 1]⟩
    (∃ r, Runner.new m 2 = .ok r₀ ∧ RunnerOp.session r₀ ops = r ∧ r.steps = 4 ∧
      r.machine.steps = 7 + 4 ∧ r.batches = 3) ∧
    ∃ call, (r₀.struckRun 0 [none, some 1] (some 5)).call = call ∧ call.ending = .interrupted ∧
      (t.reply ctx).events = call.events ++ runReport ctx "interrupted" 3 call.runner.machine := by
  intro m r₀ ops ctx t
  obtain ⟨hcalls, hreport, -⟩ := runner_accounting
  obtain ⟨hsession, hthree, hcall⟩ := session_of_idle (Machine.ofImage #[]).drifted (fun _ => rfl)
    Machine.runFor_ofImage_empty
  have hnew : Runner.new m 2 = .ok r₀ := Runner.new_eq_ok_iff.2 ⟨by decide, rfl⟩
  obtain ⟨hsteps, hbatches, -⟩ := hcalls m 2 r₀ hnew ops _ hsession
  have hline : lineCommand? ctx t.line = some (.run, ["5"]) := by decide +kernel
  have hargs : runSpec.parse none ["5"] = .parsed (some 5) := rfl
  obtain ⟨-, n, hn, hinterrupted, -⟩ := hreport t ctx r₀ ["5"] (some 5) _ rfl hline hargs hcall
  refine ⟨⟨_, hnew, hsession, rfl, rfl, hbatches.trans hthree⟩, _, hcall, rfl, ?_⟩
  have hnumber : n = 3 := by
    change 0 + 10 = 0 + 7 + n at hn
    omega
  rw [hinterrupted rfl, hnumber]

end Dis
