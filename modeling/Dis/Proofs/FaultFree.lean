import Dis.Interpreter
import Dis.Proofs.Answers
import Dis.Proofs.CheckedCycle
/-!
# Machines on which no step fails

A step fails only on an input value that is no word. `Machine.Safe`: the machine is sound and every
value waiting in its queue is a word. What the front ends queue are bytes.

* `Safe.step`, `Safe.step_ne_fault`: a step of a safe machine does not fail and leaves it safe;
  `Safe.checkedStep`: nor does any check that could be made on the way.
* `Safe.runFor_done`, `Runner.struckRun_safe`: so does a run, plain or in batches.
* `Debugger.Answered.safe`: every command of the debugger keeps its machine safe;
  `Debugger.Answered.failed`: so one that fails has not touched the session.
* `faults_unreachable`: no program run in one go, no run of the interpreter and no debugging session
  meets a step that fails.
-/
namespace Dis

/-! ## Safe machines -/

namespace Machine

/-- Every value waiting in the queue is a word. -/
def Fed (m : Machine) : Prop :=
  ∀ v ∈ m.queue.toList, ∃ word, Radix.trits.word? v = some word

/-- A sound machine that is fed with words. -/
structure Safe (m : Machine) : Prop where
  sound : m.Sound
  fed : m.Fed

theorem word?_byte (b : UInt8) : Radix.trits.word? (.int b.toNat) = some b.toNat := by
  refine (Radix.word?_eq_some_iff _ _ _).2 ⟨rfl, ?_⟩
  have hb := b.toNat_lt
  rw [trits_limit]
  omega

/-- The machine with bytes for its input. -/
def withBytes (m : Machine) (bytes : List UInt8) : Machine :=
  m.setQueue (bytes.map fun b => .int b.toNat)

theorem withBytes_safe {m : Machine} (h : m.Sound) (bytes : List UInt8) :
    (m.withBytes bytes).Safe := by
  refine ⟨{ h with }, ?_⟩
  intro v hv
  simp only [withBytes, setQueue, Queue.toList_ofList, List.mem_map] at hv
  obtain ⟨b, -, rfl⟩ := hv
  exact ⟨_, word?_byte b⟩

theorem load_safe {source : String} {m : Machine} (h : load source = .ok m) : m.Safe := by
  refine ⟨load_sound h, ?_⟩
  obtain ⟨image, -, rfl⟩ := (Program.load_eq_ok_iff source m).1 h
  intro v hv
  simp [ofImage] at hv

theorem Safe.feed {m m' : Machine} (h : m.Safe) {vs : List Value} (hfeed : m.feed vs = .ok m') :
    m'.Safe := by
  obtain ⟨hwords, rfl⟩ := feed_eq_ok hfeed
  refine ⟨{ h.sound with }, ?_⟩
  intro v hv
  rw [Queue.toList_append, List.mem_append] at hv
  rcases hv with hold | hnew
  · exact h.fed v hold
  · exact hwords v hnew

theorem Safe.drain {m : Machine} (h : m.Safe) : m.drain.Safe :=
  ⟨{ h.sound with output := by simp [Machine.drain] }, h.fed⟩

/-- The only value a step takes is the first of the queue. -/
theorem Fed.not_refusing {m : Machine} (h : m.Fed) (v : Value) (rest : Queue Value) :
    ¬ m.Refusing v rest := by
  intro hrefusing
  obtain ⟨-, hq, hw⟩ := hrefusing
  obtain ⟨word, hword⟩ := h v (by rw [Queue.toList_of_next? hq]; exact List.mem_cons_self ..)
  rw [hw] at hword
  cases hword

theorem Safe.step_ne_fault {m : Machine} (h : m.Safe) (m' : Machine) (e : RangeError) :
    m.step ≠ .fault m' e := by
  intro hfault
  cases hm : m.halted with
  | true => rw [m.step_of_halted hm] at hfault; cases hfault
  | false =>
    rcases m.step_cases hm with ⟨_, -, hs⟩ | ⟨-, hs⟩ | ⟨v, rest, hrefusing, -⟩
    · rw [hs] at hfault; cases hfault
    · rw [hs] at hfault; cases hfault
    · exact h.fed.not_refusing v rest hrefusing

theorem Safe.step {m : Machine} (h : m.Safe) : m.step.machine.Safe := by
  refine ⟨step_sound h.sound, ?_⟩
  intro v hv
  exact h.fed v (m.step_keeps.1.subset hv)

/-- No check finds anything, also of those that `step` leaves out. -/
theorem Safe.checkedStep {m : Machine} (h : m.Safe) : m.checkedStep = .ok m.step := by
  rw [checkedStep_eq h.sound]
  cases hs : m.step with
  | running m' => rfl
  | halted m' => rfl
  | fault m' e => exact absurd hs (h.step_ne_fault m' e)

/-! ## Runs -/

theorem Safe.runFor {m : Machine} (h : m.Safe) (n : Nat) : (m.runFor n).machine.Safe :=
  runFor_invariant (fun _ => Safe.step) n m h

theorem Safe.runFor_done {m : Machine} (h : m.Safe) (n : Nat) : (m.runFor n).ending = .done := by
  induction n generalizing m with
  | zero => rfl
  | succ n ih =>
    cases hm : m.halted with
    | true => rw [m.runFor_of_halted hm]
    | false =>
      have hsafe := h.step
      rw [m.runFor_succ n hm]
      cases hs : m.step with
      | running m' => rw [hs] at hsafe; exact ih hsafe
      | halted m' => rfl
      | fault m' e => exact absurd hs (h.step_ne_fault m' e)

theorem Safe.runFor_runFor {m : Machine} (h : m.Safe) (k j : Nat) :
    ((m.runFor k).machine.runFor j).machine = (m.runFor (k + j)).machine := by
  rw [runFor_add, Run.andThen, h.runFor_done k]

theorem Safe.runUnder_ne_fault {m : Machine} (h : m.Safe) (armed : Option Nat) (patience : Nat)
    (limit : Option Int) (e : RangeError) :
    (m.runUnder armed patience limit).ending ≠ .fault e := by
  cases armed with
  | some k => simp [runUnder, runUntilInterrupt, Run.cutOff, h.runFor_done k]
  | none =>
    cases limit with
    | some n => simp [runUnder, run, h.runFor_done n.toNat]
    | none =>
      simp only [runUnder, run, h.runFor_done patience]
      split
      · simp [h.runFor_done patience]
      · simp

end Machine

namespace Runner

/-- A batch of a machine that is on the run of a safe machine leaves it there, without fault. -/
theorem runBatch_safe {m : Machine} (h : m.Safe) (armed : Option Nat) (limit : Option Int)
    (r : Runner) (hr : ∃ n, r.machine = (m.runFor n).machine) :
    (∃ n, (r.runBatch armed limit).runner.machine = (m.runFor n).machine) ∧
      ∀ e, (r.runBatch armed limit).ending ≠ .fault e := by
  obtain ⟨n, hn⟩ := hr
  have hsafe : r.machine.Safe := by rw [hn]; exact h.runFor n
  unfold runBatch
  split
  next machine batch paused steps batches =>
    split
    · exact ⟨⟨n, hn⟩, by simp⟩
    · obtain ⟨k, hk⟩ := machine.runUnder_machine armed 0 (some (budget batch limit))
      -- two runs in a row are one run only because the first has not failed
      refine ⟨⟨n + k, ?_⟩, hsafe.runUnder_ne_fault _ _ _⟩
      dsimp only at hn ⊢
      rw [hk, hn, h.runFor_runFor]

/-- A runner of a safe machine meets no fault, and its machine is one of the plain run, whatever
interrupts strike its batches. -/
theorem struckRun_safe {r : Runner} (h : r.machine.Safe) (patience : Nat)
    (strikes : List (Option Nat)) (limit : Option Int) :
    (∃ n, (r.struckRun patience strikes limit).call.runner.machine =
        (r.machine.runFor n).machine) ∧
      ∀ e, (r.struckRun patience strikes limit).call.ending ≠ .fault e := by
  obtain ⟨hmachine, hending, -⟩ := struckFrom_invariant
    (P := fun r' => ∃ n, r'.machine = (r.machine.runFor n).machine)
    (Q := fun ending => ∀ e, ending ≠ .fault e) (by simp) (by simp) (runBatch_safe h) limit 0
    strikes #[] (fuelFor patience limit) r ⟨0, rfl⟩
  exact ⟨hmachine, hending⟩

theorem struckRun_machine_safe {r : Runner} (h : r.machine.Safe) (patience : Nat)
    (strikes : List (Option Nat)) (limit : Option Int) :
    (r.struckRun patience strikes limit).call.runner.machine.Safe := by
  obtain ⟨⟨n, hn⟩, -⟩ := struckRun_safe h patience strikes limit
  rw [hn]
  exact h.runFor n

theorem run_safe {r : Runner} (h : r.machine.Safe) (patience : Nat) (armed : Option Nat)
    (limit : Option Int) :
    (∃ n, (r.run patience armed limit).runner.machine = (r.machine.runFor n).machine) ∧
      ∀ e, (r.run patience armed limit).ending ≠ .fault e := by
  rw [← struckRun_single]
  exact struckRun_safe h patience [armed] limit

end Runner

/-! ## Programs run in one go -/

theorem runProgram_eq {source : String} {m : Machine} (h : Machine.load source = .ok m)
    (input : List UInt8) (limit : Option Int) {batch : Int} (hb : 1 ≤ batch) (patience : Nat) :
    runProgram patience source input limit batch =
      .ok ((Runner.atRest (m.withBytes input) batch.toNat).run patience none limit) := by
  have hnew : Runner.new (m.withBytes input) batch =
      .ok (.atRest (m.withBytes input) batch.toNat) := Runner.new_eq_ok_iff.2 ⟨hb, rfl⟩
  unfold runProgram
  rw [h, mapError_ok, ok_bind]
  change ((Runner.new (m.withBytes input) batch).mapError RunError.batch >>= _) = _
  rw [hnew, mapError_ok, ok_bind]

theorem runProgram_safe {source : String} {m : Machine} (h : Machine.load source = .ok m)
    (input : List UInt8) (limit : Option Int) {batch : Int} (hb : 1 ≤ batch) (patience : Nat) :
    ∃ call, runProgram patience source input limit batch = .ok call ∧
      (∀ e, call.ending ≠ .fault e) ∧
      ∃ n, call.runner.machine = ((m.withBytes input).runFor n).machine := by
  have hsafe : (Runner.atRest (m.withBytes input) batch.toNat).machine.Safe :=
    Machine.withBytes_safe (Machine.load_sound h) input
  obtain ⟨hmachine, hending⟩ := Runner.run_safe hsafe patience none limit
  exact ⟨_, runProgram_eq h input limit hb patience, hending, hmachine⟩

/-! ## The interpreter -/

namespace Interpreter

theorem setUp_safe {encoding : Value} {source input : String} {m : Machine}
    (h : setUp encoding source input = .ok m) : m.Safe := by
  unfold setUp at h
  obtain ⟨m', hm, h⟩ := bind_eq_ok_iff.1 h
  obtain ⟨e, -, h⟩ := bind_eq_ok_iff.1 h
  obtain ⟨bytes, -, h⟩ := bind_eq_ok_iff.1 h
  cases h
  exact Machine.withBytes_safe (Machine.load_sound (mapError_eq_ok_iff.1 hm)) bytes

theorem execute_finish {m : Machine} (h : m.Safe) (patience : Nat) (s : Arguments) (batch : Int)
    (limit : Option Int) : (execute patience s batch limit m).1 ≠ .status 2 := by
  obtain ⟨-, hending⟩ := Runner.run_safe (r := .atRest m (max 1 batch).toNat) h patience none limit
  unfold execute
  dsimp only
  split
  · next e he => exact absurd he (hending e)
  · simp
  · simp
  · split <;> simp

theorem readAndRun_finish (w : Start) (s : Arguments) : (readAndRun w s).1 ≠ .status 2 := by
  unfold readAndRun
  dsimp only
  split
  · simp
  · simp
  · split
    · simp
    · next hsetUp =>
      split
      · simp
      · exact execute_finish (setUp_safe hsetUp) _ _ _ _

theorem run_finish (w : Start) (args : List String) : (run w args).finish ≠ .status 2 := by
  unfold run
  split
  · simp
  · simp
  · unfold interpret
    split
    · simp
    · exact readAndRun_finish w _

end Interpreter

/-! ## The debugger -/

namespace Debugger

/-- The machine being debugged, if there is one, is safe. -/
def Context.Safe (ctx : Context) : Prop :=
  ∀ r, ctx.runner = some r → r.machine.Safe

/-- `alias` changes nothing but the aliases, and one that is new is no command and stands for one. -/
theorem changeAliases_eq_ok {ctx ctx' : Context} {s : AliasArguments}
    (h : changeAliases .bound ctx s = .ok ctx') :
    ctx' = { ctx with aliases := ctx'.aliases } ∧
      ∀ p ∈ ctx'.aliases, p ∈ ctx.aliases ∨
        (Command.ofName? p.1 = none ∧ (Command.ofName? p.2).isSome = true) := by
  unfold changeAliases at h
  split at h
  · cases h; exact ⟨rfl, by simp⟩
  · split at h
    · cases h; exact ⟨rfl, fun p hp => .inl hp⟩
    · split at h
      · split at h
        · cases h
          exact ⟨rfl, fun p hp => .inl (List.mem_filter.1 hp).1⟩
        · cases h
      · split at h
        · cases h
        · next hcommand =>
          split at h
          · cases h
          · next hname =>
            cases h
            have htarget : (Command.ofName? s.command).isSome = true := by
              simpa [Option.isSome_iff_ne_none] using hcommand
            have hfree : Command.ofName? s.name = none := by simpa using hname
            unfold Context.setAlias
            dsimp only
            split
            · exact ⟨rfl, fun p hp => .inl (List.mem_filter.1 hp).1⟩
            · refine ⟨rfl, ?_⟩
              intro p hp
              rcases List.mem_append.1 hp with hold | hnew
              · exact .inl (List.mem_filter.1 hold).1
              · rw [List.mem_singleton.1 hnew]
                exact .inr ⟨hfree, htarget⟩

variable {env : Surroundings} {ctx : Context} {armed : Option Nat} {args : List String}

/-- Every command keeps the machine being debugged safe. -/
theorem Answered.safe {c : Command} {reply : Reply} (h : ctx.Safe)
    (hanswer : Answered env ctx armed args c reply) : reply.context.Safe := by
  intro r' hr'
  cases hanswer with
  | loaded _ hm hr =>
    obtain ⟨-, rfl⟩ := Runner.new_eq_ok_iff.1 hr
    cases hr'
    exact Machine.load_safe hm
  | fed hr _ _ hm => cases hr'; exact (h _ hr).feed hm
  | drained _ hr => cases hr'; exact (h _ hr).drain
  | aliased hchange =>
    rw [(changeAliases_eq_ok hchange).1] at hr'
    exact h r' hr'
  | stepped hr hcall => cases hr'; subst hcall; exact Runner.struckRun_machine_safe (h _ hr) _ _ _
  | ran hr hcall => cases hr'; subst hcall; exact Runner.struckRun_machine_safe (h _ hr) _ _ _
  | _ => exact h r' hr'

theorem struckAfter_safe (h : ctx.runner = none) (turns : List StruckTurn) :
    (struckAfter ctx turns).Safe := by
  refine struckAfter_invariant (fun _ _ _ _ _ _ h hanswer => hanswer.safe h) ?_ turns
  intro r hr
  rw [h] at hr
  cases hr

theorem contextAfter_safe (h : ctx.runner = none) (turns : List Turn) :
    (contextAfter ctx turns).Safe := by
  rw [contextAfter_eq]
  exact struckAfter_safe h _

theorem stepOutcome_status {ending : Ending} {n : Int} (h : ∀ e, ending ≠ .fault e)
    (hstatus : stepOutcome ending = .status n) : n = 0 := by
  cases ending with
  | done => cases hstatus; rfl
  | fault e => exact absurd rfl (h e)
  | interrupted => cases hstatus
  | unfinished => cases hstatus

theorem runOutcome_status {ending : Ending} {n : Int} (h : ∀ e, ending ≠ .fault e)
    (hstatus : runOutcome ending = .status n) : n = 0 := by
  cases ending with
  | done => cases hstatus; rfl
  | fault e => exact absurd rfl (h e)
  | interrupted => cases hstatus; rfl
  | unfinished => cases hstatus

/-- Where the machine is safe, only what is refused or cannot be read is reported by a number other
than zero. -/
theorem Answered.failed {c : Command} {reply : Reply} {n : Int} (h : ctx.Safe)
    (hanswer : Answered env ctx armed args c reply) (hstatus : reply.outcome = .status n)
    (hn : n ≠ 0) : reply.context = ctx ∧ (n = 1 ∨ c = .load) := by
  cases hanswer with
  | refused => cases hstatus; exact ⟨rfl, .inl rfl⟩
  | unread => exact ⟨rfl, .inr rfl⟩
  | stepped hr hcall =>
    subst hcall
    exact absurd (stepOutcome_status (Runner.struckRun_safe (h _ hr) _ _ _).2 hstatus) hn
  | ran hr hcall =>
    subst hcall
    exact absurd (runOutcome_status (Runner.struckRun_safe (h _ hr) _ _ _).2 hstatus) hn
  | left => cases hstatus
  | _ => cases hstatus; exact absurd rfl hn

/-- Where the machine is safe, only a program file that cannot be read is reported by two. -/
theorem Answered.outcome_two {c : Command} {reply : Reply} (h : ctx.Safe)
    (hanswer : Answered env ctx armed args c reply) (htwo : reply.outcome = .status 2) :
    c = .load := by
  obtain ⟨-, hone | hload⟩ := hanswer.failed h htwo (by decide)
  · cases hone
  · exact hload

/-- A line that reports two is one that loads a program. -/
theorem reply_two (h : ctx.Safe) (t : Turn) (htwo : (t.reply ctx).outcome = .status 2) :
    ∃ args, lineCommand? ctx t.line = some (.load, args) := by
  unfold Turn.reply at htwo
  rcases dispatch_cases t.env ctx t.armed t.line with
    ⟨c, args, reply, hline, hreply, hdispatch⟩ | ⟨n, events, hn, hdispatch, -⟩
  · rw [hdispatch] at htwo
    have hc := (execute_answered hreply).outcome_two h htwo
    exact ⟨args, hc ▸ hline⟩
  · rw [hdispatch] at htwo
    rcases hn with rfl | rfl <;> simp at htwo

end Debugger

open Debugger (Turn contextAfter lineCommand? Command)

/-- **Faults are out of reach.** A text that loads, run in batches on any bytes, meets no step that
fails, and no check that could be made in any step of its run finds anything. No run of the
interpreter ends with status two. In a debugging session that began without a program, whatever the
lines so far, a line that reports two is one that loads a program, and no `step` or `run` does. -/
theorem faults_unreachable :
    (∀ (source : String) (m : Machine), Machine.load source = .ok m →
      ∀ (input : List UInt8) (limit : Option Int) (batch : Int), 1 ≤ batch → ∀ patience : Nat,
        (∃ call, runProgram patience source input limit batch = .ok call ∧
          (∀ e, call.ending ≠ .fault e) ∧
          ∃ n, call.runner.machine = ((m.withBytes input).runFor n).machine) ∧
        ∀ n, ∀ now, ((m.withBytes input).runFor n).machine = now →
          now.checkedStep = .ok now.step ∧ ∀ m' e, now.step ≠ .fault m' e) ∧
    (∀ (w : Interpreter.Start) (args : List String), (Interpreter.run w args).finish ≠ .status 2) ∧
    (∀ ctx : Debugger.Context, ctx.runner = none → ∀ (turns : List Turn) (t : Turn),
      ((t.reply (contextAfter ctx turns)).outcome = .status 2 →
        ∃ args, lineCommand? (contextAfter ctx turns) t.line = some (.load, args)) ∧
      ∀ (c : Command) args reply, c = .step ∨ c = .run →
        c.execute t.env (contextAfter ctx turns) t.armed args = .ok reply →
        reply.outcome ≠ .status 2) := by
  refine ⟨?_, Interpreter.run_finish, ?_⟩
  · intro source m hload input limit batch hb patience
    refine ⟨runProgram_safe hload input limit hb patience, ?_⟩
    intro n now hnow
    subst hnow
    have hsafe := (Machine.withBytes_safe (Machine.load_sound hload) input).runFor n
    exact ⟨hsafe.checkedStep, hsafe.step_ne_fault⟩
  · intro ctx hnone turns t
    have hsafe := Debugger.contextAfter_safe hnone turns
    refine ⟨Debugger.reply_two hsafe t, ?_⟩
    intro c args reply hc hreply htwo
    have hload := (Debugger.execute_answered hreply).outcome_two hsafe htwo
    rcases hc with rfl | rfl <;> cases hload

/-- The program that reads and writes: on the greatest byte, and in a session that loads it,
queues a letter and runs it. -/
theorem faults_unreachable_echo :
    (Machine.load "\x7d\x7b" = .ok (Machine.ofImage #[125, 123]) ∧
      ∃ call, runProgram 0 "\x7d\x7b" [255] (some 7) 2 = .ok call ∧ ∀ e, call.ending ≠ .fault e) ∧
    let env : Debugger.Surroundings := ⟨⟨.folder [], [], Path.ofText "", []⟩, 0⟩
    let now := contextAfter {} [⟨env, none, "source \x7d\x7b"⟩, ⟨env, none, "input A"⟩]
    lineCommand? now "run 5" = some (.run, ["5"]) ∧
      ((⟨env, none, "run 5"⟩ : Turn).reply now).outcome ≠ .status 2 := by
  have hload : Machine.load "\x7d\x7b" = .ok (Machine.ofImage #[125, 123]) :=
    Program.load_commands ['\x7d', '\x7b'] (by simp [Program.commandChars]) (by decide)
  obtain ⟨hprogram, -, hsession⟩ := faults_unreachable
  obtain ⟨⟨call, hcall, hending, -⟩, -⟩ := hprogram _ _ hload [255] (some 7) 2 (by decide) 0
  refine ⟨⟨hload, call, hcall, hending⟩, ?_⟩
  intro env now
  have hline : lineCommand? now "run 5" = some (.run, ["5"]) := by decide +kernel
  refine ⟨hline, ?_⟩
  intro htwo
  obtain ⟨args, hargs⟩ := (hsession {} rfl _ ⟨env, none, "run 5"⟩).1 htwo
  exact absurd (hline.symm.trans hargs) (by simp)

end Dis
