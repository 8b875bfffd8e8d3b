import Dis.Proofs.Accounting
import Dis.Proofs.Numerals
import Dis.Proofs.TypedLines
/-!
# `step` and `run` with a count

`step` hands its count to the runner; `run` has a loop of its own, which asks for batch after batch
and counts by the runner's steps. With a count and without interrupts the two lines do the same to
the session, and what they print differs in the wording of the report only.

* `Options.Spec.parse_first`: one argument, of a command line that needs no more.
* `lineCommand?_counted`, `parse_count`: the command of a line with a count, and what it reads.
* `Runner.run_counted`, `Runner.runFrom_settled`: what a run counts, and how one with a limit ends.
* `dispatch_step`, `dispatch_run`: the replies to the two lines.
* `step_and_run_agree`: the two lines, in every session with a program and for every count.
* `step_and_run_disagree_aliased`: not so where `step` is an alias for another command.
-/
namespace Dis

/-! ## Counts on a command line -/

namespace Options

variable {σ : Type}

/-- Slots that need no argument stay without one at the end of a run. -/
theorem fillSlots_nil {slots : List (Slot σ)} (h : ∀ slot ∈ slots, slot.required = false)
    (s : State σ) : fillSlots s [] slots = .ok ({ s with slots := [] }, []) := by
  induction slots with
  | nil => rfl
  | cons slot slots ih =>
    have hnone : takeForSlot slot.required ([] : List (Token σ)) = some (none, []) := by
      rw [h slot List.mem_cons_self]
      rfl
    rw [fillSlots, hnone]
    exact ih fun slot' hmem => h slot' (List.mem_cons_of_mem slot hmem)

/-- One argument without a dash in front goes to the first slot, if the others need none. -/
theorem Spec.parse_first (spec : Spec σ) (slot : Slot σ) (others : List (Slot σ))
    (hslots : spec.slots = slot :: others) (hothers : ∀ slot ∈ others, slot.required = false)
    {start record : σ} {text : String} (hdash : text.toList.head? ≠ some '-')
    (htake : slot.take text start = .ok record) : spec.parse start [text] = .parsed record := by
  have hmark : text ≠ mark := by
    rintro rfl
    exact hdash rfl
  have hclass : spec.classify text = .ok (.plain text) := by
    unfold Spec.classify
    split
    · rfl
    · next c cs hcs =>
      have hc : c ≠ '-' := by simpa [hcs] using hdash
      rw [if_pos hc]
  have htokens : spec.classifyAll [text] = .ok [.plain text] := by
    rw [Spec.classifyAll, if_neg hmark, hclass]
    rfl
  have hslot : takeForSlot slot.required [(.plain text : Token σ)] = some (some text, []) := by
    have herase : [text].erase mark = [text] := List.erase_of_not_mem (by simpa using hmark.symm)
    simp [takeForSlot, Token.isDashes, Token.text, herase]
  have hfill : fillSlots ⟨start, [], slot :: others, []⟩ [.plain text] (slot :: others) =
      .ok (⟨record, [], [], []⟩, []) := by
    simp only [fillSlots, hslot, htake]
    exact fillSlots_nil hothers _
  have hconsume : spec.consume ⟨start, [], slot :: others, []⟩ [] [.plain text] =
      .ok ⟨record, [], [], []⟩ := by
    simp only [Spec.consume, List.reverse_singleton, State.consumeRun, hfill]
    rfl
  unfold Spec.parse
  rw [htokens, hslots]
  dsimp only
  rw [hconsume]
  rfl

end Options

namespace Debugger

/-- Digits can be typed as they are. -/
theorem isTypable_digits {text : String} (hne : text.toList ≠ [])
    (hdigits : ∀ c ∈ text.toList, c.isDigit = true) : isTypable text = true := by
  simp only [isTypable, Bool.and_eq_true, List.all_eq_true, decide_eq_true_eq]
  refine ⟨⟨by simpa using hne, fun c hc => ?_⟩, fun hhead => ?_⟩
  · have hc := hdigits c hc
    have hplain : Text.ShellWords.isPlain c = true := by
      simp [Text.ShellWords.isPlain, Text.ne_of_isDigit hc]
    exact ⟨by simp [Text.isBlank_digitOrLetter (Text.isDigitOrLetter_of_isDigit hc)], hplain⟩
  · exact absurd (hdigits '#' (List.mem_of_mem_head? hhead)) (by decide)

theorem isTypable_toString (n : Nat) : isTypable (toString n) = true := by
  refine isTypable_digits ?_ ?_ <;> rw [Text.toList_toString]
  · exact Nat.toDigits_ne_nil
  · exact Text.isDigit_of_mem_toDigits

/-- A name with a count behind it. -/
theorem lineCommand?_counted {ctx : Context} {name : String} {c : Command}
    (hname : name ∈ c.names) (hmeans : ctx.Means name c) (n : Nat) :
    lineCommand? ctx (name ++ " " ++ toString n) = some (c, [toString n]) := by
  rw [lineCommand?_word (isTypable_of_mem_names c hname) (isTypable_toString n), hmeans]
  rfl

/-- A count given to a command that takes one. -/
theorem parse_count (c : Command) {σ : Type} (set : Int → σ → σ) (start : σ) {n : Nat}
    (hn : 1 ≤ n) :
    (c.spec [] [⟨"count", false, Options.positive set⟩]).parse start [toString n] =
      .parsed (set n start) := by
  refine Options.Spec.parse_first _ _ [] rfl (by simp) (fun hhead => ?_) ?_
  · rw [Text.toList_toString] at hhead
    exact absurd (Text.isDigit_of_mem_toDigits '-' (List.mem_of_mem_head? hhead)) (by decide)
  · have hpositive : ¬ (n : Int) < 1 := by omega
    simp only [Options.positive, Text.readInt_decimal, if_neg hpositive]

end Debugger

/-! ## Runs with a limit -/

namespace Runner

theorem runFrom_counted (limit : Option Int) (total : Nat) (armed : Option Nat)
    (events : Array Event) (fuel : Nat) (r : Runner) {start : Nat} (h : r.steps = start + total) :
    (runFrom limit total armed events fuel r).runner.steps =
      start + (runFrom limit total armed events fuel r).executed := by
  induction fuel generalizing total armed events r with
  | zero => exact h
  | succ fuel ih =>
    have hsteps := runBatch_steps armed (remaining limit total) r
    rw [runFrom_succ]
    split
    · exact h
    · dsimp only
      split
      · split
        · rw [hsteps, h, Nat.add_assoc]
        · exact ih _ _ _ _ (by rw [hsteps, h, Nat.add_assoc])
      · rw [hsteps, h, Nat.add_assoc]

theorem run_counted (patience : Nat) (armed : Option Nat) (limit : Option Int) (r : Runner) :
    (r.run patience armed limit).runner.steps = r.steps + (r.run patience armed limit).executed :=
  runFrom_counted limit 0 armed #[] _ r rfl

/-- Done, or cut short by a fault. -/
def Settled (ending : Ending) : Prop :=
  ending = .done ∨ ∃ e, ending = .fault e

theorem runBatch_settled (limit : Option Int) (r : Runner) :
    Settled (r.runBatch none limit).ending := by
  by_cases hidle : (r.paused || r.machine.halted) = true
  · rw [runBatch_idle none limit r hidle]
    exact .inl rfl
  · obtain ⟨hp, hm⟩ : r.paused = false ∧ r.machine.halted = false := by simpa using hidle
    rw [runBatch_eq limit r hp hm]
    exact Machine.runFor_ending _ _

theorem runFrom_settled (n : Int) (total : Nat) (events : Array Event) (fuel : Nat) (r : Runner) :
    Settled (runFrom (some n) total none events fuel r).ending := by
  induction fuel generalizing total events r with
  | zero => exact .inl rfl
  | succ fuel ih =>
    have hbatch := runBatch_settled (remaining (some n) total) r
    rw [runFrom_succ]
    split
    · exact .inl rfl
    · dsimp only
      rw [runBatch_armed]
      split
      · split
        · exact .inl rfl
        · exact ih _ _ _
      · exact hbatch

end Runner
/-! ## The two lines -/

namespace Debugger

/-- What `step` prints about `n` steps that have left the machine `m`. -/
def stepReport (ctx : Context) (n : Nat) (m : Machine) : Array Event :=
  ctx.result s!"Stepped {n} instruction(s); {whereText m}"
    (.obj [("result", .str "stepped"), ("executed", .num n), ("state", stateJson m)])

/-- What an execution that faults prints. -/
def faultReport (ctx : Context) (e : RangeError) : Array Event :=
  ctx.error s!"runtime fault: {e.message}"

section Counted

variable {ctx : Context} {r : Runner} {n : Nat} (env : Surroundings) (armed : Option Nat)
  (hr : ctx.runner = some r) (hn : 1 ≤ n)
include hr hn

theorem dispatch_step (hmeans : ctx.Means "step" .step) :
    dispatch env ctx armed s!"step {n}" =
      stepReply ctx (r.run env.patience armed (some n)) := by
  have hline : lineCommand? ctx s!"step {n}" = some (.step, [toString n]) :=
    @lineCommand?_counted ctx "step" .step List.mem_cons_self hmeans n
  have hargs := parse_count .step (fun n _ => n) 1 hn
  refine dispatch_of_command hline ((runStep_eq env ctx armed _).trans ?_)
  simp only [struckStep, runnerReply, hargs, hr, Runner.struckRun_single]

theorem dispatch_run (hmeans : ctx.Means "run" .run) :
    dispatch env ctx armed s!"run {n}" =
      runReply ctx r.steps ((r.run env.patience armed (some n)).runner,
        (r.run env.patience armed (some n)).ending, (r.run env.patience armed (some n)).armed,
        (r.run env.patience armed (some n)).events) := by
  have hline : lineCommand? ctx s!"run {n}" = some (.run, [toString n]) :=
    @lineCommand?_counted ctx "run" .run List.mem_cons_self hmeans n
  have hargs : runSpec.parse none [toString n] = .parsed (some (n : Int)) :=
    parse_count .run (fun n _ => some n) none hn
  refine dispatch_of_command hline ((runRun_eq env ctx armed _).trans ?_)
  rw [struckRun_eq env [armed] hr hargs (Runner.struckRun_single env.patience armed _ r)]

end Counted

/-- **`step n` and `run n` do the same.** In a session with a program, in which `step` and `run`
keep their meaning, and without interrupts, a line `step n` and a line `run n` have the same outcome
and leave the same session, that of the runner's own run of `n` steps: the same machine and the same
counts of steps and batches. Either that run faults and the lines print the same, or they report the
same number of steps, which is that by which the runner's count has grown. -/
theorem step_and_run_agree (env : Surroundings) {ctx : Context} {r : Runner}
    (hr : ctx.runner = some r) (hstep : ctx.Means "step" .step) (hrun : ctx.Means "run" .run)
    {n : Nat} (hn : 1 ≤ n) {call : RunnerCall}
    (hcall : r.run env.patience none (some n) = call) :
    let stepped := dispatch env ctx none s!"step {n}"
    let ran := dispatch env ctx none s!"run {n}"
    let ctx' : Context := { ctx with runner := some call.runner }
    stepped.outcome = ran.outcome ∧ stepped.context = ctx' ∧ ran.context = ctx' ∧
      call.runner.steps = r.steps + call.executed ∧
      ((∃ e, call.ending = .fault e ∧ stepped.outcome = .status 2 ∧
          stepped.events = call.events ++ faultReport ctx e ∧
          ran.events = call.events ++ faultReport ctx e) ∨
        (call.ending = .done ∧ stepped.outcome = .status 0 ∧
          stepped.events = call.events ++ stepReport ctx call.executed call.runner.machine ∧
          ran.events = call.events ++
            runReport ctx (if call.runner.machine.halted then "halted" else "stopped")
              call.executed call.runner.machine)) := by
  have hsettled : Runner.Settled call.ending := by
    rw [← hcall]
    exact Runner.runFrom_settled n 0 #[] _ r
  have hcounted : call.runner.steps = r.steps + call.executed := by
    rw [← hcall]
    exact r.run_counted env.patience none (some n)
  have hmade : call.runner.steps - r.steps = call.executed := by omega
  intro stepped ran ctx'
  have hstepped : stepped = stepReply ctx call := by
    rw [← hcall]
    exact dispatch_step env none hr hn hstep
  have hran : ran = runReply ctx r.steps (call.runner, call.ending, call.armed, call.events) := by
    rw [← hcall]
    exact dispatch_run env none hr hn hrun
  rcases hsettled with hdone | ⟨e, he⟩
  · have hstepped' : stepped = ⟨ctx', call.armed, .status 0,
        call.events ++ stepReport ctx call.executed call.runner.machine⟩ := by
      rw [hstepped, stepReply]
      simp only [hdone]
      rfl
    have hran' : ran = ⟨ctx', call.armed, .status 0, call.events ++
        runReport ctx (if call.runner.machine.halted then "halted" else "stopped")
          call.executed call.runner.machine⟩ := by
      rw [hran]
      simp only [runReply, hdone, hmade]
      rfl
    rw [hstepped', hran']
    exact ⟨rfl, rfl, rfl, hcounted, .inr ⟨hdone, rfl, rfl, rfl⟩⟩
  · have hstepped' : stepped =
        ⟨ctx', call.armed, .status 2, call.events ++ faultReport ctx e⟩ := by
      rw [hstepped, stepReply]
      simp only [he]
      rfl
    have hran' : ran = ⟨ctx', call.armed, .status 2, call.events ++ faultReport ctx e⟩ := by
      rw [hran]
      simp only [runReply, he]
      rfl
    rw [hstepped', hran']
    exact ⟨rfl, rfl, rfl, hcounted, .inl ⟨e, he, rfl, rfl, rfl⟩⟩

end Debugger

/-- With no program in memory, a run makes as many steps as it is asked for. -/
theorem Runner.run_ofImage_empty (k n patience : Nat) {batch : Nat} (hb : 1 ≤ batch) :
    Replays (atRest ((Machine.ofImage #[]).drifted k) batch)
      ((atRest ((Machine.ofImage #[]).drifted k) batch).run patience none (some n))
      ⟨(Machine.ofImage #[]).drifted (k + n), n, .done⟩ := by
  rw [← Machine.runFor_ofImage_empty]
  exact ((runsInBatches .plain rfl hb).limited n patience 0).2

namespace Debugger

/-- A machine that had made seven steps before, and a count that takes three batches. -/
theorem step_and_run_agree_three_batches :
    ∃ r call, r = Runner.atRest ((Machine.ofImage #[]).drifted 7) 2 ∧
      let env : Surroundings := ⟨⟨.folder [], [], Path.ofText "", []⟩, 0⟩
      let ctx : Context := { aliases := [("go", "run")], runner := some r }
      let stepped := dispatch env ctx none "step 5"
      let ran := dispatch env ctx none "run 5"
      r.run 0 none (some 5) = call ∧ (call.executed = 5 ∧ call.runner.batches = 3) ∧
        stepped.outcome = ran.outcome ∧
        stepped.context = { ctx with runner := some call.runner } ∧
        ran.context = { ctx with runner := some call.runner } ∧
        stepped.events = call.events ++ stepReport ctx 5 call.runner.machine ∧
        ran.events = call.events ++ runReport ctx "stopped" 5 call.runner.machine := by
  have hreplays := Runner.run_ofImage_empty 7 5 0 (show 1 ≤ 2 by decide)
  obtain ⟨r, hr⟩ : ∃ r, r = Runner.atRest ((Machine.ofImage #[]).drifted 7) 2 := ⟨_, rfl⟩
  obtain ⟨call, hcall⟩ : ∃ call, r.run 0 none (some 5) = call := ⟨_, rfl⟩
  rw [← hr] at hreplays
  change Runner.Replays r (r.run 0 none (some 5)) _ at hreplays
  rw [hcall] at hreplays
  have hthree : call.runner.batches = 3 := by
    rw [hreplays.batches rfl, hr]
    simp [Runner.atRest]
  have hgoing : call.runner.machine.halted = false := by rw [hreplays.machine]; rfl
  refine ⟨r, call, hr, ?_⟩
  intro env ctx stepped ran
  obtain ⟨houtcome, hstepped, hran, -, hends⟩ := step_and_run_agree env
    (show ctx.runner = some r from rfl) (by rfl) (by rfl) (show 1 ≤ 5 by decide) hcall
  refine ⟨hcall, ⟨hreplays.executed, hthree⟩, houtcome, hstepped, hran, ?_⟩
  rcases hends with ⟨e, he, -⟩ | ⟨-, -, hsteps, hruns⟩
  · rw [hreplays.ending] at he
    cases he
  · rw [hreplays.executed] at hsteps hruns
    rw [hgoing] at hruns
    exact ⟨hsteps, hruns⟩

/-- Where `step` is an alias for another command, a count given to it makes no steps, while `run`
makes them. -/
theorem step_and_run_disagree_aliased :
    ∃ r, r = Runner.atRest ((Machine.ofImage #[]).drifted 7) 2 ∧
      let env : Surroundings := ⟨⟨.folder [], [], Path.ofText "", []⟩, 0⟩
      let ctx := Context.setAlias { runner := some r } "step" "regs"
      ctx.runner = some r ∧
        (dispatch env ctx none "step 2").context.runner.map (·.steps) = some 0 ∧
        (dispatch env ctx none "run 2").context.runner.map (·.steps) = some 2 := by
  have hreplays := Runner.run_ofImage_empty 7 2 0 (show 1 ≤ 2 by decide)
  obtain ⟨r, hr⟩ : ∃ r, r = Runner.atRest ((Machine.ofImage #[]).drifted 7) 2 := ⟨_, rfl⟩
  rw [← hr] at hreplays
  refine ⟨r, hr, ?_⟩
  intro env ctx
  have hstep : lineCommand? ctx ("step" ++ " " ++ toString 2) = some (.regs, ["2"]) := by
    rw [@lineCommand?_word ctx "step" _ (isTypable_of_mem_names .step List.mem_cons_self)
      (isTypable_toString 2)]
    rfl
  have hstepped := @dispatch_of_command env ctx none _ .regs ["2"] _ hstep rfl
  have hran := @dispatch_run ctx r 2 env none rfl (by decide) rfl
  rw [show "step" ++ " " ++ toString 2 = "step 2" from rfl] at hstepped
  rw [show s!"run {2}" = "run 2" from rfl, hreplays.ending] at hran
  rw [hstepped, hran]
  refine ⟨rfl, ?_, ?_⟩
  · show some r.steps = some 0
    rw [hr]
    rfl
  · exact congrArg some (hreplays.steps.trans (by rw [hr]; rfl))

end Debugger
end Dis
