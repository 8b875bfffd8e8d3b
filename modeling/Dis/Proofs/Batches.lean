import Dis.Runner
import Dis.Proofs.CheckedCycle
/-!
# Running in batches is running

A runner repeats bounded runs and decides after each whether to go on. `Runner.Loop` is that loop
with no bound on the number of batches: a derivation of it is a loop that has ended. All of this
holds by whatever cycle the steps are made.

* `runFrom_loop`, `runFrom_none_loop`: with a limit the bound that `run` puts on its batches is
  never what ends the loop; without one it is, or the loop has ended by itself.
* `loop_follows`: a loop under a limit leaves the machine that a plain run under this limit leaves,
  makes as many steps, ends in the same way and counts its batches (`Run.batchCount`).
* `loop_none_limited`: a loop without limit that has ended is the same under any limit that is high
  enough; `runFrom_none_finishes`: it does end where the plain run stops.
* `runsInBatches`: what this says of `Runner.run` and `Machine.run`; `run_in_batches` says it of the
  cycle that runs and of the one with every check, which breaks off on machines that are not sound.
-/
namespace Dis

/-- The batches of at most `b` steps that a plain run is cut into: the last may be short, and one
in which a step fails counts although nothing of it may be left. -/
def Run.batchCount {ε : Type} (run : Run ε) (b : Nat) : Nat :=
  match run.ending with
  | .fault _ => run.executed / b + 1
  | _ => (run.executed + b - 1) / b

namespace Runner

/-- Whether a limit is reached after `total` steps. -/
def reached (limit : Option Int) (total : Nat) : Bool :=
  limit.any fun (n : Int) => n ≤ total

/-- What is left of a limit after `total` steps. -/
def remaining (limit : Option Int) (total : Nat) : Option Int :=
  limit.map fun (n : Int) => n - total

/-- Whether the loop stops after a batch that is done. -/
def stops {ε : Type} (call : RunnerCall ε) : Bool :=
  call.runner.machine.halted || call.runner.paused || call.executed = 0

/-- The loop of `run` after `total` steps, with an interrupt that may be ready and the records so
far, ends in a call. -/
inductive Loop (cycle : Cycle) (limit : Option Int) :
    Nat → Option Nat → Array Event → Runner → RunnerCall cycle.Fault → Prop
  | reached {total : Nat} {armed : Option Nat} {events : Array Event} {r : Runner}
      (h : reached limit total = true) :
      Loop cycle limit total armed events r ⟨r, total, .done, armed, events⟩
  | last {total : Nat} {armed : Option Nat} {events : Array Event} {r : Runner}
      {call : RunnerCall cycle.Fault}
      (h : reached limit total = false)
      (hcall : r.runBatch armed (remaining limit total) cycle = call)
      (hdone : call.ending = .done) (hstop : stops call = true) :
      Loop cycle limit total armed events r
        ⟨call.runner, total + call.executed, .done, call.armed, events ++ call.events⟩
  | broken {total : Nat} {armed : Option Nat} {events : Array Event} {r : Runner}
      {call : RunnerCall cycle.Fault}
      (h : reached limit total = false)
      (hcall : r.runBatch armed (remaining limit total) cycle = call)
      (hdone : call.ending ≠ .done) :
      Loop cycle limit total armed events r
        ⟨call.runner, total + call.executed, call.ending, call.armed, events ++ call.events⟩
  | again {total : Nat} {armed : Option Nat} {events : Array Event} {r : Runner}
      {call final : RunnerCall cycle.Fault}
      (h : reached limit total = false)
      (hcall : r.runBatch armed (remaining limit total) cycle = call)
      (hdone : call.ending = .done) (hstop : stops call = false)
      (rest : Loop cycle limit (total + call.executed) call.armed (events ++ call.events)
        call.runner final) :
      Loop cycle limit total armed events r final

section AnyCycle

variable {cycle : Cycle}

/-! ## One batch -/

theorem runBatch_idle (armed : Option Nat) (limit : Option Int) (r : Runner)
    (h : (r.paused || r.machine.halted) = true) :
    r.runBatch armed limit cycle = ⟨r, 0, .done, armed, #[]⟩ := by
  unfold runBatch
  exact if_pos h

/-- The run of one batch. -/
def batchRun (r : Runner) (limit : Option Int) (cycle : Cycle := .plain) : Run cycle.Fault :=
  r.machine.runFor (budget r.batch limit) cycle

theorem runBatch_eq (limit : Option Int) (r : Runner) (hp : r.paused = false)
    (hm : r.machine.halted = false) :
    r.runBatch none limit cycle =
      ⟨{ r with
          machine := (r.batchRun limit cycle).machine
          steps := r.steps + (r.batchRun limit cycle).executed
          batches := r.batches + 1 },
        (r.batchRun limit cycle).executed, (r.batchRun limit cycle).ending, none,
        batchEvents cycle (r.batches + 1) (r.batchRun limit cycle)⟩ := by
  have hidle : ¬ (r.paused || r.machine.halted) = true := by simp [hp, hm]
  unfold runBatch
  simp only [if_neg hidle]
  rfl

theorem runBatch_armed (limit : Option Int) (r : Runner) :
    (r.runBatch none limit cycle).armed = none := by
  unfold runBatch
  split
  split <;> rfl

theorem runBatch_congr (armed : Option Nat) {limit limit' : Option Int} (r : Runner)
    (h : budget r.batch limit = budget r.batch limit') :
    r.runBatch armed limit cycle = r.runBatch armed limit' cycle := by
  obtain ⟨machine, batch, paused, steps, batches⟩ := r
  simp only at h
  simp only [runBatch, h]

theorem runBatch_batch (armed : Option Nat) (limit : Option Int) (r : Runner) :
    (r.runBatch armed limit cycle).runner.batch = r.batch := by
  unfold runBatch
  split
  split <;> rfl

theorem runBatch_paused (armed : Option Nat) (limit : Option Int) (r : Runner) :
    (r.runBatch armed limit cycle).runner.paused = r.paused := by
  unfold runBatch
  split
  split <;> rfl

/-- A batch that goes on has found the machine running. -/
theorem running_of_goes {armed : Option Nat} {limit : Option Int} {r : Runner}
    (h : stops (r.runBatch armed limit cycle) = false) : r.machine.halted = false := by
  cases hm : r.machine.halted with
  | true => rw [runBatch_idle armed limit r (by simp [hm])] at h; simp [stops] at h
  | false => rfl

/-- A batch is done and the loop stops: only because the machine has halted in it. -/
theorem halted_of_stops {limit : Option Int} {r : Runner} (hp : r.paused = false)
    (hm : r.machine.halted = false) (hbudget : 0 < budget r.batch limit)
    (hdone : (r.runBatch none limit cycle).ending = .done)
    (hstop : stops (r.runBatch none limit cycle) = true) :
    (r.batchRun limit cycle).machine.halted = true := by
  rw [runBatch_eq limit r hp hm] at hdone hstop
  have hpos := Machine.runFor_pos hm hbudget hdone
  simp only [stops, Bool.or_eq_true, decide_eq_true_eq, hp, Bool.false_eq_true, or_false] at hstop
  rcases hstop with hhalt | h0
  · exact hhalt
  · exact absurd h0 (Nat.pos_iff_ne_zero.1 hpos)

/-- A batch that is not done ran, and a step of it has failed. -/
theorem fault_of_broken {limit : Option Int} {r : Runner} (hp : r.paused = false)
    (hdone : (r.runBatch none limit cycle).ending ≠ .done) :
    r.machine.halted = false ∧ ∃ e, (r.batchRun limit cycle).ending = .fault e := by
  cases hm : r.machine.halted with
  | true => rw [runBatch_idle none limit r (by simp [hm])] at hdone; exact absurd rfl hdone
  | false =>
    rw [runBatch_eq limit r hp hm] at hdone
    rcases Machine.runFor_ending (budget r.batch limit) r.machine cycle with hd | hf
    · exact absurd hd hdone
    · exact ⟨rfl, hf⟩

/-! ## The bound on the batches -/

theorem runFrom_succ (limit : Option Int) (total : Nat) (armed : Option Nat) (events : Array Event)
    (fuel : Nat) (r : Runner) :
    runFrom limit total armed events (fuel + 1) r cycle =
      if reached limit total then ⟨r, total, .done, armed, events⟩
      else
        let call := r.runBatch armed (remaining limit total) cycle
        match call.ending with
        | .done =>
          if stops call then
            ⟨call.runner, total + call.executed, .done, call.armed, events ++ call.events⟩
          else
            runFrom limit (total + call.executed) call.armed (events ++ call.events) fuel
              call.runner cycle
        | ending =>
          ⟨call.runner, total + call.executed, ending, call.armed, events ++ call.events⟩ := by
  rw [runFrom]
  rfl

/-- One turn of the loop, for whatever comes after it. -/
theorem runFrom_succ_loop (limit : Option Int) (total : Nat) (armed : Option Nat)
    (events : Array Event) (fuel : Nat) (r : Runner)
    (hrest : ∀ call, r.runBatch armed (remaining limit total) cycle = call →
      reached limit total = false → call.ending = .done → stops call = false →
      Loop cycle limit (total + call.executed) call.armed (events ++ call.events) call.runner
        (runFrom limit (total + call.executed) call.armed (events ++ call.events) fuel
          call.runner cycle)) :
    Loop cycle limit total armed events r
      (runFrom limit total armed events (fuel + 1) r cycle) := by
  rw [runFrom_succ]
  cases hreached : reached limit total with
  | true => exact .reached hreached
  | false =>
    simp only [Bool.false_eq_true, if_false]
    generalize hcall : r.runBatch armed (remaining limit total) cycle = call
    have hbroken : call.ending ≠ .done → Loop cycle limit total armed events r
        ⟨call.runner, total + call.executed, call.ending, call.armed, events ++ call.events⟩ :=
      .broken hreached hcall
    cases hending : call.ending with
    | done =>
      simp only
      cases hstop : stops call with
      | true => exact .last hreached hcall hending hstop
      | false => exact .again hreached hcall hending hstop (hrest call hcall hreached hending hstop)
    | _ =>
      have hloop := hbroken (by simp [hending])
      rw [hending] at hloop
      exact hloop

/-- Every batch that goes on makes a step, so a limit is reached before the batches run out. -/
theorem runFrom_loop (n : Int) (total : Nat) (armed : Option Nat) (events : Array Event)
    (fuel : Nat) (r : Runner) (hfuel : (n - total).toNat ≤ fuel) :
    Loop cycle (some n) total armed events r
      (runFrom (some n) total armed events fuel r cycle) := by
  induction fuel generalizing total armed events r with
  | zero => exact .reached (by simp only [reached, Option.any_some, decide_eq_true_eq]; omega)
  | succ fuel ih =>
    refine runFrom_succ_loop _ _ _ _ _ _ fun call _ hreached _ hstop => ih _ _ _ _ ?_
    have hpos : call.executed ≠ 0 := by
      simp only [stops, Bool.or_eq_false_iff, decide_eq_false_iff_not] at hstop
      exact hstop.2
    simp only [reached, Option.any_some, decide_eq_false_iff_not] at hreached
    omega

theorem runFrom_none_loop (total : Nat) (armed : Option Nat) (events : Array Event) (fuel : Nat)
    (r : Runner) (h : (runFrom none total armed events fuel r cycle).ending ≠ .unfinished) :
    Loop cycle none total armed events r (runFrom none total armed events fuel r cycle) := by
  induction fuel generalizing total armed events r with
  | zero => exact absurd rfl h
  | succ fuel ih =>
    refine runFrom_succ_loop _ _ _ _ _ _ fun call hcall hreached hdone hstop => ih _ _ _ _ ?_
    rw [runFrom_succ, hreached, hcall] at h
    simpa [hdone, hstop] using h

/-! ## The plain run behind a loop -/

/-- What a call that began after `total` steps has in common with a plain run. -/
structure Follows {ε : Type} (r : Runner) (total : Nat) (call : RunnerCall ε) (run : Run ε) :
    Prop where
  machine : call.runner.machine = run.machine
  executed : call.executed = total + run.executed
  ending : call.ending = run.ending
  steps : call.runner.steps = r.steps + run.executed
  batches : call.runner.batches = r.batches + run.batchCount r.batch

theorem batchCount_zero {ε : Type} (run : Run ε) {b : Nat} (hb : 1 ≤ b) (hdone : run.ending = .done)
    (h0 : run.executed = 0) : run.batchCount b = 0 := by
  unfold Run.batchCount
  rw [hdone, h0]
  exact Nat.div_eq_of_lt (by omega)

/-- A run within one batch. -/
theorem batchCount_one {ε : Type} {run : Run ε} {b : Nat} (hdone : run.ending = .done)
    (hpos : 0 < run.executed) (hle : run.executed ≤ b) : run.batchCount b = 1 := by
  unfold Run.batchCount
  rw [hdone]
  exact Nat.div_eq_of_lt_le (by omega) (by omega)

theorem batchCount_fault {ε : Type} {run : Run ε} {b : Nat} {e : ε} (hf : run.ending = .fault e)
    (hlt : run.executed < b) : run.batchCount b = 1 := by
  unfold Run.batchCount
  rw [hf]
  simp only
  rw [Nat.div_eq_of_lt hlt]

/-- A full batch in front adds one to the count. -/
theorem batchCount_add {ε : Type} (run : Run ε) (b : Nat) (hb : 1 ≤ b) :
    Run.batchCount ⟨run.machine, b + run.executed, run.ending⟩ b = 1 + run.batchCount b := by
  have hfloor : (b + run.executed) / b = 1 + run.executed / b := by
    rw [Nat.add_div_left _ hb, Nat.add_comm]
  have hceil : (b + run.executed + b - 1) / b = 1 + (run.executed + b - 1) / b := by
    rw [show b + run.executed + b - 1 = b + (run.executed + b - 1) by omega,
      Nat.add_div_left _ hb, Nat.add_comm]
  unfold Run.batchCount
  cases run.ending with
  | fault e => simp only [hfloor]; omega
  | _ => simp only [hceil]

/-- A plain run cut after its first `j` steps. -/
theorem runFor_cut {j k : Nat} (m : Machine) (h : j ≤ k) :
    m.runFor k cycle = (m.runFor j cycle).andThen (k - j) cycle := by
  rw [← Machine.runFor_add, Nat.add_sub_cancel' h]

theorem andThen_of_stopped {run : Run cycle.Fault} {k : Nat} {m : Machine}
    (hrun : m.runFor k cycle = run) (h : run.Stopped) (j : Nat) : run.andThen j cycle = run := by
  subst hrun
  rw [← Machine.runFor_add, Machine.runFor_add_of_stopped h]

/-- A machine that has halted is not run at all. -/
theorem follows_of_halted {r : Runner} (hm : r.machine.halted = true) (hb : 1 ≤ r.batch)
    (total k : Nat) (armed : Option Nat) (events : Array Event) :
    Follows r total ⟨r, total + 0, .done, armed, events⟩ (r.machine.runFor k cycle) := by
  have hcount := batchCount_zero (⟨r.machine, 0, .done⟩ : Run cycle.Fault) hb rfl rfl
  rw [Machine.runFor_of_halted _ hm]
  exact ⟨rfl, rfl, rfl, rfl, by rw [hcount]; rfl⟩

/-- The last batch, after which the plain run would have stopped too. -/
theorem follows_of_stopped {r : Runner} {k : Nat} {limit : Option Int} (hp : r.paused = false)
    (hm : r.machine.halted = false) (hk : 0 < k) (hb : 1 ≤ r.batch)
    (hlimit : r.batchRun limit cycle = r.machine.runFor (min r.batch k) cycle)
    (hstopped : (r.batchRun limit cycle).Stopped) (total : Nat) (events : Array Event) :
    Follows r total
      ⟨(r.runBatch none limit cycle).runner, total + (r.runBatch none limit cycle).executed,
        (r.runBatch none limit cycle).ending, none, events⟩ (r.machine.runFor k cycle) := by
  have hcut : r.machine.runFor k cycle = r.batchRun limit cycle := by
    rw [runFor_cut r.machine (Nat.min_le_right r.batch k), ← hlimit]
    exact andThen_of_stopped hlimit.symm hstopped _
  have hcount : (r.batchRun limit cycle).batchCount r.batch = 1 := by
    rw [hlimit]
    have hle := r.machine.runFor_le (min r.batch k) cycle
    rcases r.machine.runFor_ending (min r.batch k) cycle with hdone | ⟨e, he⟩
    · exact batchCount_one hdone (Machine.runFor_pos hm (by omega) hdone) (by omega)
    · have hlt := Machine.runFor_lt_of_fault he
      exact batchCount_fault he (by omega)
  rw [runBatch_eq limit r hp hm, hcut]
  exact ⟨rfl, rfl, rfl, rfl, by rw [hcount]⟩

/-- A batch after which the loop goes on has used its whole budget. -/
theorem batchRun_full {r : Runner} {limit : Option Int} (hp : r.paused = false)
    (hm : r.machine.halted = false) (hdone : (r.runBatch none limit cycle).ending = .done)
    (hstop : stops (r.runBatch none limit cycle) = false) :
    (r.batchRun limit cycle).ending = .done ∧
      (r.batchRun limit cycle).executed = budget r.batch limit := by
  rw [runBatch_eq limit r hp hm] at hdone hstop
  simp only [stops, Bool.or_eq_false_iff] at hstop
  exact ⟨hdone, Machine.runFor_full hdone hstop.1.1⟩

/-- A batch in front of a call that follows the rest of the run. -/
theorem follows_cons {r : Runner} {limit : Option Int} {k total : Nat}
    {final : RunnerCall cycle.Fault} (hb : 1 ≤ r.batch) (hk : 0 < k) (hp : r.paused = false)
    (hm : r.machine.halted = false) (hlimit : budget r.batch limit = min r.batch k)
    (hdone : (r.batchRun limit cycle).ending = .done)
    (hfull : (r.batchRun limit cycle).executed = min r.batch k)
    (hrest : Follows (r.runBatch none limit cycle).runner (total + min r.batch k) final
      ((r.batchRun limit cycle).machine.runFor (k - min r.batch k) cycle)) :
    Follows r total final (r.machine.runFor k cycle) := by
  rw [runBatch_eq limit r hp hm] at hrest
  obtain ⟨hmachine, hexecuted, hending, hsteps, hbatches⟩ := hrest
  have hcut : r.machine.runFor k cycle =
      ⟨((r.batchRun limit cycle).machine.runFor (k - min r.batch k) cycle).machine,
        min r.batch k +
          ((r.batchRun limit cycle).machine.runFor (k - min r.batch k) cycle).executed,
        ((r.batchRun limit cycle).machine.runFor (k - min r.batch k) cycle).ending⟩ := by
    rw [runFor_cut r.machine (Nat.min_le_right r.batch k), ← hlimit]
    show (r.batchRun limit cycle).andThen _ cycle = _
    unfold Run.andThen
    rw [hdone, hlimit, hfull]
  have hcount : (r.machine.runFor k cycle).batchCount r.batch =
      1 + ((r.batchRun limit cycle).machine.runFor (k - min r.batch k) cycle).batchCount
        r.batch := by
    rw [hcut]
    by_cases hbk : r.batch ≤ k
    · rw [Nat.min_eq_left hbk]
      exact batchCount_add _ _ hb
    · -- the limit falls into this batch, and nothing is left to run
      have hzero : k - min r.batch k = 0 := by omega
      rw [hzero, Machine.runFor_zero, batchCount_zero ⟨_, 0, .done⟩ hb rfl rfl]
      exact batchCount_one rfl (by simp only; omega) (by simp only; omega)
  refine ⟨?_, ?_, ?_, ?_, ?_⟩
  · rw [hmachine, hcut]
  · rw [hexecuted, hcut]; simp only; omega
  · rw [hending, hcut]
  · rw [hsteps, hcut, hfull]; simp only; omega
  · rw [hbatches, hcount]; simp only; omega

/-- **The loop under a limit.** It does what the plain run under the limit does. -/
theorem loop_follows {n : Int} {total : Nat} {armed : Option Nat} {events : Array Event}
    {r : Runner} {call : RunnerCall cycle.Fault}
    (h : Loop cycle (some n) total armed events r call)
    (ha : armed = none) (hp : r.paused = false) (hb : 1 ≤ r.batch) :
    Follows r total call (r.machine.runFor (n - total).toNat cycle) := by
  -- by induction on the batches made; `total` grows and the machine moves on with each of them
  induction h with
  | @reached total armed events r hreached =>
    simp only [reached, Option.any_some, decide_eq_true_eq] at hreached
    rw [show (n - total).toNat = 0 by omega, Machine.runFor_zero]
    have hcount := batchCount_zero (⟨r.machine, 0, .done⟩ : Run cycle.Fault) hb rfl rfl
    exact ⟨rfl, rfl, rfl, rfl, by rw [hcount]; rfl⟩
  | @last total armed events r call hreached hcall hdone hstop =>
    subst ha hcall
    simp only [reached, Option.any_some, decide_eq_false_iff_not] at hreached
    cases hm : r.machine.halted with
    | true =>
      rw [runBatch_idle none _ r (by simp [hm])]
      exact follows_of_halted hm hb _ _ _ _
    | false =>
      have hbudget : 0 < budget r.batch (remaining (some n) total) := by
        simp only [budget, remaining, Option.map_some]; omega
      have hrun : (r.batchRun (remaining (some n) total) cycle).Stopped :=
        .inl (halted_of_stops hp hm hbudget hdone hstop)
      have hfollows := follows_of_stopped hp hm (k := (n - total).toNat) (by omega) hb rfl hrun
        total (events ++ (r.runBatch none (remaining (some n) total) cycle).events)
      rw [hdone] at hfollows
      rw [runBatch_armed]
      exact hfollows
  | @broken total armed events r call hreached hcall hdone =>
    subst ha hcall
    simp only [reached, Option.any_some, decide_eq_false_iff_not] at hreached
    obtain ⟨hm, hfault⟩ := fault_of_broken hp hdone
    rw [runBatch_armed]
    exact follows_of_stopped hp hm (k := (n - total).toNat) (by omega) hb rfl (.inr hfault) total _
  | @again total armed events r call final hreached hcall hdone hstop rest ih =>
    subst ha hcall
    simp only [reached, Option.any_some, decide_eq_false_iff_not] at hreached
    have hm := running_of_goes hstop
    obtain ⟨hend, hfull⟩ := batchRun_full hp hm hdone hstop
    have hbudget : budget r.batch (remaining (some n) total) = min r.batch (n - total).toNat := rfl
    rw [hbudget] at hfull
    have hrest := ih (runBatch_armed _ r) ((runBatch_paused _ _ r).trans hp)
      (by rw [runBatch_batch]; exact hb)
    have hexecuted : (r.runBatch none (remaining (some n) total) cycle).executed =
        min r.batch (n - total).toNat := by
      rw [runBatch_eq _ r hp hm]; exact hfull
    have hmachine : (r.runBatch none (remaining (some n) total) cycle).runner.machine =
        (r.batchRun (remaining (some n) total) cycle).machine := by
      rw [runBatch_eq _ r hp hm]
    have hleft : (n - ((total + min r.batch (n - total).toNat : Nat) : Int)).toNat =
        (n - total).toNat - min r.batch (n - total).toNat := by omega
    rw [hexecuted, hmachine, hleft] at hrest
    exact follows_cons hb (by omega) hp hm hbudget hend hfull hrest

/-! ## Loops without a limit -/

theorem loop_total_le {limit : Option Int} {total : Nat} {armed : Option Nat} {events : Array Event}
    {r : Runner} {call : RunnerCall cycle.Fault} (h : Loop cycle limit total armed events r call) :
    total ≤ call.executed := by
  induction h with
  | reached => exact Nat.le_refl _
  | last => exact Nat.le_add_right _ _
  | broken => exact Nat.le_add_right _ _
  | again _ _ _ _ _ ih => omega

/-- A loop that has ended by itself would have ended so under any limit beyond its last batch. -/
theorem loop_none_limited {total : Nat} {armed : Option Nat} {events : Array Event} {r : Runner}
    {call : RunnerCall cycle.Fault} (h : Loop cycle none total armed events r call)
    (hb : 1 ≤ r.batch) (n : Int) (hn : (call.executed : Int) + r.batch ≤ n) :
    Loop cycle (some n) total armed events r call := by
  have hsame : ∀ {total : Nat} {r : Runner} (armed : Option Nat), (total : Int) + r.batch ≤ n →
      r.runBatch armed (remaining (some n) total) cycle =
        r.runBatch armed (remaining none total) cycle := by
    intro total r armed h
    apply runBatch_congr
    simp only [budget, remaining, Option.map_some, Option.map_none]
    omega
  have hopen : ∀ {total b : Nat}, 1 ≤ b → (total : Int) + b ≤ n →
      reached (some n) total = false := by
    intro total b h1 h2
    simp only [reached, Option.any_some, decide_eq_false_iff_not]
    omega
  induction h with
  | reached h => cases h
  | @last total armed events r call h hcall hdone hstop =>
    have hn' : (total : Int) + r.batch ≤ n := by simp only at hn; omega
    exact .last (hopen hb hn') ((hsame armed hn').trans hcall) hdone hstop
  | @broken total armed events r call h hcall hdone =>
    have hn' : (total : Int) + r.batch ≤ n := by simp only at hn; omega
    exact .broken (hopen hb hn') ((hsame armed hn').trans hcall) hdone
  | @again total armed events r call final h hcall hdone hstop rest ih =>
    have hle := loop_total_le rest
    have hn' : (total : Int) + r.batch ≤ n := by omega
    have hbatch : call.runner.batch = r.batch := by rw [← hcall, runBatch_batch]
    exact .again (hopen hb hn') ((hsame armed hn').trans hcall) hdone hstop
      (ih (by rw [hbatch]; exact hb) (by rw [hbatch]; exact hn))

/-- Nothing but a halt or a failed step ends a loop without limit. -/
theorem loop_none_stopped {total : Nat} {armed : Option Nat} {events : Array Event} {r : Runner}
    {call : RunnerCall cycle.Fault} (h : Loop cycle none total armed events r call)
    (ha : armed = none) (hp : r.paused = false) (hb : 1 ≤ r.batch) :
    call.runner.machine.halted = true ∨ ∃ e, call.ending = .fault e := by
  induction h with
  | reached h => cases h
  | @last total armed events r call h hcall hdone hstop =>
    subst ha hcall
    left
    cases hm : r.machine.halted with
    | true => rw [runBatch_idle none _ r (by simp [hm])]; exact hm
    | false =>
      have hbudget : 0 < budget r.batch (remaining none total) := hb
      have hhalted := halted_of_stops hp hm hbudget hdone hstop
      rw [runBatch_eq _ r hp hm]
      exact hhalted
  | @broken total armed events r call h hcall hdone =>
    subst ha hcall
    obtain ⟨hm, hfault⟩ := fault_of_broken hp hdone
    rw [runBatch_eq _ r hp hm]
    exact .inr hfault
  | @again total armed events r call final h hcall hdone hstop rest ih =>
    subst ha hcall
    exact ih (runBatch_armed _ r) ((runBatch_paused _ _ r).trans hp)
      (by rw [runBatch_batch]; exact hb)

/-- After a batch that goes on, a run that stops has a whole batch less to make. -/
theorem stopped_after_batch {p : Nat} {r : Runner} (hp : r.paused = false)
    (hdone : (r.runBatch none none cycle).ending = .done)
    (hstop : stops (r.runBatch none none cycle) = false) (hs : (r.machine.runFor p cycle).Stopped) :
    r.batch ≤ p ∧
      ((r.runBatch none none cycle).runner.machine.runFor (p - r.batch) cycle).Stopped := by
  have hm := running_of_goes hstop
  obtain ⟨hend, -⟩ := batchRun_full hp hm hdone hstop
  rw [runBatch_eq none r hp hm] at hstop ⊢
  have hgoes : ¬ (r.machine.runFor r.batch cycle).Stopped := by
    intro hstopped
    rcases hstopped with hh | ⟨e, he⟩
    · simp only [stops, Bool.or_eq_false_iff] at hstop
      exact absurd (hstop.1.1.symm.trans hh) (by simp)
    · exact absurd (hend.symm.trans he) (by simp)
  have hbp : r.batch ≤ p := by
    apply Nat.le_of_not_lt
    intro hlt
    rw [Machine.runFor_of_stopped hs (Nat.le_of_lt hlt)] at hgoes
    exact hgoes hs
  refine ⟨hbp, ?_⟩
  rw [runFor_cut r.machine hbp] at hs
  change ((r.batchRun none cycle).andThen (p - r.batch) cycle).Stopped at hs
  unfold Run.andThen at hs
  rw [hend] at hs
  exact hs

/-- Where the plain run stops within `p` steps, `p + 1` batches are enough. -/
theorem runFrom_none_finishes (p total : Nat) (events : Array Event) (fuel : Nat) (r : Runner)
    (hp : r.paused = false) (hb : 1 ≤ r.batch) (hs : (r.machine.runFor p cycle).Stopped)
    (hf : p < fuel) : (runFrom none total none events fuel r cycle).ending ≠ .unfinished := by
  -- `p` is what the plain run still has to make; a batch that goes on takes at least one from it
  induction fuel generalizing p total events r with
  | zero => omega
  | succ fuel ih =>
    have hremaining : remaining none total = none := rfl
    rw [runFrom_succ, hremaining, if_neg (by simp [reached])]
    dsimp only
    cases hdone : (r.runBatch none none cycle).ending with
    | done =>
      simp only
      cases hstop : stops (r.runBatch none none cycle) with
      | true => simp
      | false =>
        obtain ⟨hbp, hrest⟩ := stopped_after_batch hp hdone hstop hs
        simp only [Bool.false_eq_true, if_false]
        rw [runBatch_armed]
        exact ih (p - r.batch) _ _ _ ((runBatch_paused _ _ r).trans hp)
          (by rw [runBatch_batch]; exact hb) hrest (by omega)
    | unfinished =>
      obtain ⟨hm, e, he⟩ := fault_of_broken hp (by rw [hdone]; simp)
      rw [runBatch_eq _ r hp hm] at hdone
      exact absurd (he.symm.trans hdone) (by simp)
    | _ => simp

/-! ## The runner and the machine -/

/-- A call on a runner has done what a plain run does: the same machine is left, in the same way,
after the same steps, and the batches counted are those the steps fill, the last one perhaps in
part, or those before a failed step and the one it falls into. -/
structure Replays {ε : Type} (r : Runner) (call : RunnerCall ε) (run : Run ε) : Prop where
  machine : call.runner.machine = run.machine
  executed : call.executed = run.executed
  ending : call.ending = run.ending
  settings : call.runner.batch = r.batch ∧ call.runner.paused = r.paused
  steps : call.runner.steps = r.steps + run.executed
  machineSteps : run.machine.steps = r.machine.steps + run.executed
  batches : run.ending = .done →
    call.runner.batches = r.batches + (run.executed + r.batch - 1) / r.batch
  batchesOfFault : ∀ e, run.ending = .fault e →
    call.runner.batches = r.batches + (run.executed / r.batch + 1)

theorem loop_settings {limit : Option Int} {total : Nat} {armed : Option Nat} {events : Array Event}
    {r : Runner} {call : RunnerCall cycle.Fault} (h : Loop cycle limit total armed events r call) :
    call.runner.batch = r.batch ∧ call.runner.paused = r.paused := by
  induction h with
  | reached => exact ⟨rfl, rfl⟩
  | last _ hcall | broken _ hcall =>
    subst hcall
    exact ⟨runBatch_batch _ _ _, runBatch_paused _ _ _⟩
  | again _ hcall _ _ _ ih =>
    subst hcall
    exact ⟨ih.1.trans (runBatch_batch _ _ _), ih.2.trans (runBatch_paused _ _ _)⟩

theorem Follows.replays {r : Runner} {call : RunnerCall cycle.Fault} {n k : Nat}
    (h : Follows r 0 call (r.machine.runFor n cycle)) {limit : Option Int}
    (hloop : Loop cycle limit 0 none #[] r call)
    (hk : r.machine.runFor k cycle = r.machine.runFor n cycle) :
    Replays r call (r.machine.runFor k cycle) := by
  rw [hk]
  refine ⟨h.machine, ?_, h.ending, loop_settings hloop, h.steps, Machine.runFor_steps _ _ _, ?_, ?_⟩
  · rw [h.executed, Nat.zero_add]
  · intro hdone
    rw [h.batches, Run.batchCount, hdone]
  · intro e he
    rw [h.batches, Run.batchCount, he]

/-- What it is for a runner to run in batches as its machine runs: under a limit the loop of batches
ends, and the call has done what the machine's own run under that limit does. Without a limit the
two end on the same machines, and then the same holds. -/
structure RunsInBatches (cycle : Cycle) (r : Runner) : Prop where
  limited : ∀ (n : Int) (patience p : Nat),
    Loop cycle (some n) 0 none #[] r (r.run patience none (some n) cycle) ∧
    Replays r (r.run patience none (some n) cycle) (r.machine.run p (some n) cycle)
  unlimited : ∀ p patience : Nat, (r.machine.run p none cycle).ending ≠ .unfinished → p < patience →
    Loop cycle none 0 none #[] r (r.run patience none none cycle) ∧
    Replays r (r.run patience none none cycle) (r.machine.run p none cycle)
  ended : ∀ patience : Nat, (r.run patience none none cycle).ending ≠ .unfinished →
    ∃ p, (r.machine.run p none cycle).ending ≠ .unfinished ∧
      Replays r (r.run patience none none cycle) (r.machine.run p none cycle)

theorem runsInBatches (cycle : Cycle) {r : Runner} (hp : r.paused = false) (hb : 1 ≤ r.batch) :
    RunsInBatches cycle r := by
  have hlimited : ∀ {n : Int} {call : RunnerCall cycle.Fault},
      Loop cycle (some n) 0 none #[] r call →
      Follows r 0 call (r.machine.runFor n.toNat cycle) := by
    intro n call hloop
    have h := loop_follows hloop rfl hp hb
    rwa [show (n - ((0 : Nat) : Int)).toNat = n.toNat by omega] at h
  -- a loop without limit that has ended is a loop under a limit that is high enough
  have hunlimited : ∀ {call : RunnerCall cycle.Fault}, Loop cycle none 0 none #[] r call → ∃ k,
      (r.machine.runFor k cycle).Stopped ∧ Follows r 0 call (r.machine.runFor k cycle) := by
    intro call hloop
    have h := hlimited (loop_none_limited hloop hb _ (Int.le_refl _))
    refine ⟨_, ?_, h⟩
    rcases loop_none_stopped hloop rfl hp hb with hm | ⟨e, he⟩
    · exact .inl (by rw [← h.machine]; exact hm)
    · exact .inr ⟨e, by rw [← h.ending]; exact he⟩
  refine ⟨?_, ?_, ?_⟩
  · intro n patience p
    have hloop : Loop cycle (some n) 0 none #[] r (r.run patience none (some n) cycle) :=
      runFrom_loop n 0 none #[] n.toNat r (by omega)
    exact ⟨hloop, (hlimited hloop).replays hloop rfl⟩
  · intro p patience hstops hlt
    have hs := Machine.stopped_of_run_none hstops
    have hloop : Loop cycle none 0 none #[] r (r.run patience none none cycle) :=
      runFrom_none_loop 0 none #[] patience r
        (runFrom_none_finishes p 0 #[] patience r hp hb hs hlt)
    obtain ⟨k, hk, hfollows⟩ := hunlimited hloop
    refine ⟨hloop, ?_⟩
    rw [Machine.run_none_of_stopped hs]
    refine hfollows.replays hloop ?_
    rcases Nat.le_total p k with hpk | hkp
    · exact (Machine.runFor_of_stopped hs hpk).symm
    · exact Machine.runFor_of_stopped hk hkp
  · intro patience hends
    have hloop := runFrom_none_loop 0 none #[] patience r hends
    obtain ⟨k, hk, hfollows⟩ := hunlimited hloop
    refine ⟨k, ?_, ?_⟩
    · rw [Machine.run_none_of_stopped hk, ← hfollows.ending]
      exact hends
    · rw [Machine.run_none_of_stopped hk]
      exact hfollows.replays hloop rfl

end AnyCycle

/-- **Running in batches is running.** For every runner that is not paused, whatever its machine,
and both by the cycle that runs and by the one with every check: there a register or word out of
range makes a step fail, and the runner fails with it on the same machine. -/
theorem run_in_batches (r : Runner) (hp : r.paused = false) (hb : 1 ≤ r.batch) :
    RunsInBatches .plain r ∧ RunsInBatches .checked r :=
  ⟨runsInBatches .plain hp hb, runsInBatches .checked hp hb⟩

/-- Two words that pass, and `input` with a truth value in the queue. Nothing but these three words
is looked at. -/
theorem run_refusing_third {memory : Memory} (hfirst : memory.read 0 = 95)
    (hsecond : memory.read 1 = 95) (hthird : memory.read 2 = 125) :
    Machine.run 3 none ⟨memory, 0, 0, 0, false, .ofList [.truth true], #[], 0, 3⟩ =
      ⟨⟨memory, 0, 2, 2, false, .ofList [], #[], 2, 3⟩, 2,
        .fault (.notWord "register A" .trits (.truth true))⟩ := by
  let passed (n : Nat) : Machine := ⟨memory, 0, n, n, false, .ofList [.truth true], #[], n, 3⟩
  have hpasses : (passed 0).step = .running (passed 1) := by
    simp only [passed, Machine.step, hfirst]
    rfl
  have hagain : (passed 1).step = .running (passed 2) := by
    simp only [passed, Machine.step, hsecond]
    rfl
  have hfails : (passed 2).step = .fault ⟨memory, 0, 2, 2, false, .ofList [], #[], 2, 3⟩
      (.notWord "register A" .trits (.truth true)) := by
    simp only [passed, Machine.step, hthird]
    rfl
  show Machine.run 3 none (passed 0) = _
  rw [Machine.run, (passed 0).runFor_succ 2 rfl, hpasses]
  simp only
  rw [(passed 1).runFor_succ 1 rfl, hagain]
  simp only
  rw [(passed 2).runFor_succ 0 rfl, hfails]

/-- Two steps that pass fill a batch; the input step behind them finds a truth value, which is
taken from the queue, and the batch it falls into counts. With C behind the end of memory the first
checked step fails, and its batch counts too. -/
theorem run_in_batches_failing :
    let loaded := (Machine.ofImage #[95, 95, 125]).setQueue [.truth true]
    let astray : Machine := { Machine.ofImage #[95] with c := 59049 }
    (∃ call, (atRest loaded 2).run 4 none none = call ∧ call.executed = 2 ∧
      call.ending = .fault (.notWord "register A" .trits (.truth true)) ∧
      call.runner.machine.queue.toList = [] ∧ call.runner.batches = 2) ∧
    ∃ call, (atRest astray 2).run 2 none none .checked = call ∧ call.executed = 0 ∧
      call.ending = .fault (.outOfRange 59049) ∧ call.runner.machine = astray ∧
      call.runner.batches = 1 := by
  intro loaded astray
  have hrun : loaded.run 3 none = ⟨⟨Memory.ofImage #[95, 95, 125], 0, 2, 2, false, .ofList [], #[],
      2, 3⟩, 2, .fault (.notWord "register A" .trits (.truth true))⟩ :=
    run_refusing_third (Memory.read_ofImage #[95, 95, 125] (by decide))
      (Memory.read_ofImage #[95, 95, 125] (by decide))
      (Memory.read_ofImage #[95, 95, 125] (by decide))
  have hastray : astray.run 1 none .checked = ⟨astray, 0, .fault (.outOfRange 59049)⟩ := by
    have hfetch : astray.fetch astray.c = .error (astray, .outOfRange 59049) := rfl
    have hstep : Cycle.checked.step astray = .fault astray (.outOfRange 59049) := by
      show Step.ofChecked astray.checkedStep = _
      rw [Machine.checkedStep, if_neg (by decide), hfetch]
      rfl
    rw [Machine.run, astray.runFor_next 0 rfl, hstep]
  constructor
  · have hreplays := ((run_in_batches (atRest loaded 2) rfl (by decide)).1.unlimited 3 4
      (by rw [show (atRest loaded 2).machine = loaded from rfl, hrun]; simp) (by decide)).2
    rw [show (atRest loaded 2).machine = loaded from rfl, hrun] at hreplays
    generalize (atRest loaded 2).run 4 none none = call at hreplays
    refine ⟨call, rfl, hreplays.executed, hreplays.ending, ?_, ?_⟩
    · rw [hreplays.machine]
      rfl
    · rw [hreplays.batchesOfFault _ rfl]
      simp [atRest]
  · have hreplays := ((run_in_batches (atRest astray 2) rfl (by decide)).2.unlimited 1 2
      (by rw [show (atRest astray 2).machine = astray from rfl, hastray]; simp) (by decide)).2
    rw [show (atRest astray 2).machine = astray from rfl, hastray] at hreplays
    refine ⟨_, rfl, hreplays.executed, hreplays.ending, hreplays.machine, ?_⟩
    rw [hreplays.batchesOfFault _ rfl]
    simp [atRest]

end Runner
end Dis
