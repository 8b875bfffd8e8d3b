import Dis.Proofs.Batches
/-!
# Batches struck by interrupts

`Runner.run` knows of one interrupt, which strikes its first batch. Here an interrupt may strike any
batch of a call: `strikes` has one entry for each batch in turn, the number of steps after which
the batch is cut off, or none. `struckFrom` is the loop under such strikes. Beside the call it gives
every call of `runBatch` that was made, with the runner found there (`BatchCall`).

* `struckRun_single`: where only the first batch is struck, the loop is that of `Runner.run`.
* `struckRun_invariant`: what every batch preserves holds of the runner a call leaves and of every
  runner on the way.
* `runBatch_machine_invariant`: what every step preserves, every batch preserves.
-/
namespace Dis
namespace Runner

/-- A call of `runBatch`. -/
structure BatchCall where
  runner : Runner          -- as the call finds it
  strike : Option Nat      -- the interrupt that strikes the batch
  limit : Option Int

/-- The runner is not paused and the machine has not halted. -/
def BatchCall.runs (c : BatchCall) : Bool := !c.runner.paused && !c.runner.machine.halted

/-- What a call of `run` leads to, and the calls of `runBatch` it makes. -/
structure StruckRun where
  call : RunnerCall
  batchCalls : List BatchCall

/-- The loop of `run` after `total` steps, its batches struck in turn. -/
def struckFrom (limit : Option Int) (total : Nat) (strikes : List (Option Nat))
    (events : Array Event) : Nat → Runner → StruckRun
  | 0, r =>
    ⟨⟨r, total, if limit.isNone then .unfinished else .done, strikes.headD none, events⟩, []⟩
  | fuel + 1, r =>
    if reached limit total then ⟨⟨r, total, .done, strikes.headD none, events⟩, []⟩
    else
      let c : BatchCall := ⟨r, strikes.headD none, remaining limit total⟩
      let call := r.runBatch (strikes.headD none) (remaining limit total)
      match call.ending with
      | .done =>
        if stops call then
          ⟨⟨call.runner, total + call.executed, .done, call.armed, events ++ call.events⟩, [c]⟩
        else
          let rest := struckFrom limit (total + call.executed) strikes.tail (events ++ call.events)
            fuel call.runner
          ⟨rest.call, c :: rest.batchCalls⟩
      | ending =>
        ⟨⟨call.runner, total + call.executed, ending, call.armed, events ++ call.events⟩, [c]⟩

def struckRun (patience : Nat) (strikes : List (Option Nat)) (limit : Option Int) (r : Runner) :
    StruckRun :=
  struckFrom limit 0 strikes #[] (fuelFor patience limit) r

/-! ## One batch -/

theorem new_eq_ok_iff {m : Machine} {batch : Int} {r : Runner} :
    new m batch = .ok r ↔ 1 ≤ batch ∧ r = atRest m batch.toNat := by
  unfold new
  split
  · next h => simp; omega
  · next h =>
    constructor
    · intro hr
      cases hr
      exact ⟨by omega, rfl⟩
    · intro ⟨_, hr⟩
      rw [hr]

theorem runBatch_steps (strike : Option Nat) (limit : Option Int) (r : Runner) :
    (r.runBatch strike limit).runner.steps = r.steps + (r.runBatch strike limit).executed := by
  unfold runBatch
  split
  split <;> rfl

/-- A paused runner makes no step, so its loop stops for that reason too. -/
theorem stops_runBatch (strike : Option Nat) (limit : Option Int) (r : Runner) :
    stops (r.runBatch strike limit) =
      ((r.runBatch strike limit).runner.machine.halted ||
        decide ((r.runBatch strike limit).executed = 0)) := by
  cases hp : r.paused with
  | true => rw [runBatch_idle strike limit r (by simp [hp])]; simp [stops]
  | false => simp [stops, runBatch_paused, hp]

/-! ## The first batch alone -/

/-- The interrupt is used up by a batch that goes on, since that batch has run. -/
theorem armed_of_goes {armed : Option Nat} {limit : Option Int} {r : Runner}
    (h : stops (r.runBatch armed limit) = false) : (r.runBatch armed limit).armed = none := by
  by_cases hidle : (r.paused || r.machine.halted) = true
  · rw [runBatch_idle armed limit r hidle] at h
    simp [stops] at h
  · unfold runBatch
    simp only [if_neg hidle]

theorem struckFrom_single (limit : Option Int) (total : Nat) (strikes : List (Option Nat))
    (events : Array Event) (fuel : Nat) (r : Runner) (h : strikes.tail = []) :
    (struckFrom limit total strikes events fuel r).call =
      runFrom limit total (strikes.headD none) events fuel r := by
  induction fuel generalizing total strikes events r with
  | zero => rfl
  | succ fuel ih =>
    rw [runFrom_succ, struckFrom]
    by_cases hreached : reached limit total = true
    · rw [if_pos hreached, if_pos hreached]
    · rw [if_neg hreached, if_neg hreached]
      dsimp only
      cases hending : (r.runBatch (strikes.headD none) (remaining limit total)).ending with
      | done =>
        dsimp only
        by_cases hstop : stops (r.runBatch (strikes.headD none) (remaining limit total)) = true
        · rw [if_pos hstop, if_pos hstop]
        · -- nothing strikes the rest, and there the two loops agree by induction
          rw [if_neg hstop, if_neg hstop, armed_of_goes (by simpa using hstop)]
          dsimp only
          rw [ih _ _ _ _ (by simp [h]), h]
          rfl
      | _ => rfl

theorem struckRun_single (patience : Nat) (armed : Option Nat) (limit : Option Int) (r : Runner) :
    (r.struckRun patience [armed] limit).call = r.run patience armed limit :=
  struckFrom_single limit 0 [armed] #[] _ r rfl

/-! ## What batches preserve -/

theorem struckFrom_invariant {P : Runner → Prop} {Q : Ending → Prop} (hdone : Q .done)
    (hunfinished : Q .unfinished)
    (hbatch : ∀ strike limit r, P r →
      P (r.runBatch strike limit).runner ∧ Q (r.runBatch strike limit).ending)
    (limit : Option Int) (total : Nat) (strikes : List (Option Nat)) (events : Array Event)
    (fuel : Nat) (r : Runner) (h : P r) :
    P (struckFrom limit total strikes events fuel r).call.runner ∧
      Q (struckFrom limit total strikes events fuel r).call.ending ∧
      ∀ c ∈ (struckFrom limit total strikes events fuel r).batchCalls, P c.runner := by
  induction fuel generalizing total strikes events r with
  | zero =>
    refine ⟨h, ?_, by simp [struckFrom]⟩
    cases limit with
    | none => exact hunfinished
    | some n => exact hdone
  | succ fuel ih =>
    obtain ⟨hrunner, hending⟩ := hbatch (strikes.headD none) (remaining limit total) r h
    rw [struckFrom]
    by_cases hreached : reached limit total = true
    · rw [if_pos hreached]
      exact ⟨h, hdone, by simp⟩
    · rw [if_neg hreached]
      dsimp only
      split
      · split
        · exact ⟨hrunner, hdone, by simpa using h⟩
        · obtain ⟨hrest, hrestEnding, hcalls⟩ := ih _ strikes.tail _ _ hrunner
          refine ⟨hrest, hrestEnding, ?_⟩
          intro c hc
          rcases List.mem_cons.1 hc with rfl | hc
          · exact h
          · exact hcalls c hc
      · exact ⟨hrunner, hending, by simpa using h⟩

theorem struckRun_invariant {P : Runner → Prop}
    (hbatch : ∀ strike limit r, P r → P (r.runBatch strike limit).runner) (patience : Nat)
    (strikes : List (Option Nat)) (limit : Option Int) (r : Runner) (h : P r) :
    P (r.struckRun patience strikes limit).call.runner ∧
      ∀ c ∈ (r.struckRun patience strikes limit).batchCalls, P c.runner := by
  obtain ⟨hrunner, -, hcalls⟩ := struckFrom_invariant (Q := fun _ => True) trivial trivial
    (fun strike limit r hr => ⟨hbatch strike limit r hr, trivial⟩) limit 0 strikes #[] _ r h
  exact ⟨hrunner, hcalls⟩

/-- A batch leaves the machine that some number of plain steps leaves. -/
theorem runBatch_machine (strike : Option Nat) (limit : Option Int) (r : Runner) :
    ∃ n, (r.runBatch strike limit).runner.machine = (r.machine.runFor n).machine := by
  by_cases hidle : (r.paused || r.machine.halted) = true
  · rw [runBatch_idle strike limit r hidle]
    exact ⟨0, rfl⟩
  · unfold runBatch
    simp only [if_neg hidle]
    exact r.machine.runUnder_machine _ _ _

theorem runBatch_machine_invariant {P : Machine → Prop} (hstep : ∀ m, P m → P m.step.machine)
    (strike : Option Nat) (limit : Option Int) (r : Runner) (h : P r.machine) :
    P (r.runBatch strike limit).runner.machine := by
  obtain ⟨n, hn⟩ := r.runBatch_machine strike limit
  rw [hn]
  exact Machine.runFor_invariant hstep n r.machine h

end Runner
end Dis
