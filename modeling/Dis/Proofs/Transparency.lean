import Dis.Proofs.FaultFree
import Dis.Proofs.RefusedInput
/-!
# Debugging does not disturb execution

A line observes (`lineObserves`) unless it brings in a program or input or clears the output. A
session in which a program has been loaded and input queued, and in which all later lines observe,
has a machine that is on the plain run of the program (`Context.OnRun`).

* `Answered.onRun`: a command that observes leaves the machine on that run.
* `struckAfter_onRun`: so do all lines that observe, wherever interrupts strike.
* `Safe.runFor_executed`: a machine on that run is the one after as many steps as it has made.
* `runProgram_limited`: which is where running the program in one go for so many steps leads.
* `debugging_transparent`: so the machine of the session is the machine of that run.
-/
namespace Dis

/-! ## Plain runs -/

namespace Machine

/-- A run is given by the number of steps it has made. -/
theorem Safe.runFor_executed {m : Machine} (h : m.Safe) (n : Nat) :
    (m.runFor (m.runFor n).executed).machine = (m.runFor n).machine := by
  induction n generalizing m with
  | zero => rfl
  | succ n ih =>
    cases hm : m.halted with
    | true => rw [m.runFor_of_halted hm, m.runFor_of_halted hm]
    | false =>
      have hsafe := h.step
      rw [m.runFor_succ n hm]
      cases hs : m.step with
      | running m' =>
        rw [hs] at hsafe
        dsimp only
        rw [m.runFor_succ _ hm, hs]
        exact ih hsafe
      | halted m' =>
        dsimp only
        rw [m.runFor_succ 0 hm, hs]
      | fault m' e => exact absurd hs (h.step_ne_fault m' e)

theorem feed_bytes (m : Machine) (bytes : List UInt8) :
    m.feed (bytes.map fun b => .int b.toNat) =
      .ok { m with queue := m.queue.append (bytes.map fun b => .int b.toNat) } := by
  refine m.feed_words fun v hv => ?_
  obtain ⟨b, -, rfl⟩ := List.mem_map.1 hv
  exact (Value.isWord_iff _).2 ⟨_, word?_byte b⟩

theorem load_rest {source : String} {m : Machine} (h : load source = .ok m) :
    m.queue = .ofList [] ∧ m.steps = 0 := by
  obtain ⟨image, -, rfl⟩ := (Program.load_eq_ok_iff source m).1 h
  exact ⟨rfl, rfl⟩

end Machine

/-- Running a program for `k` steps leads where `k` plain steps lead. -/
theorem runProgram_limited {source : String} {m : Machine} (h : Machine.load source = .ok m)
    (input : List UInt8) (k : Nat) {batch : Int} (hb : 1 ≤ batch) (patience : Nat) :
    ∃ call, runProgram patience source input (some k) batch = .ok call ∧ call.ending = .done ∧
      call.runner.machine = ((m.withBytes input).runFor k).machine := by
  have hloop : Runner.Loop .plain (some k) 0 none #[] _ _ :=
    Runner.runFrom_loop k 0 none #[] (Runner.fuelFor patience (some k))
      (.atRest (m.withBytes input) batch.toNat) (by simp only [Runner.fuelFor]; omega)
  have hlength : 1 ≤ (Runner.atRest (m.withBytes input) batch.toNat).batch := by
    show 1 ≤ batch.toNat
    omega
  have hfollows := Runner.loop_follows hloop rfl rfl hlength
  rw [show ((k : Int) - ((0 : Nat) : Int)).toNat = k by omega] at hfollows
  refine ⟨_, runProgram_eq h input (some k) hb patience, ?_, hfollows.machine⟩
  exact hfollows.ending.trans
    ((Machine.withBytes_safe (Machine.load_sound h) input).runFor_done k)

/-! ## Lines that observe -/

namespace Debugger

/-- A line that brings in neither program nor input and does not clear the output. -/
def lineObserves (ctx : Context) (line : String) : Bool :=
  match lineCommand? ctx line with
  | none => true
  | some (c, args) =>
    !([.load, .source, .restart, .input].contains c || (c = .output && outputClears args))

/-- Every line observes in the session that it finds. -/
def allObserve : Context → List StruckTurn → Bool
  | _, [] => true
  | ctx, t :: turns => lineObserves ctx t.line && allObserve (t.reply ctx).context turns

/-- The machine being debugged is on the run of `m`. -/
def Context.OnRun (m : Machine) (ctx : Context) : Prop :=
  ∃ r n, ctx.runner = some r ∧ r.machine = (m.runFor n).machine

variable {env : Surroundings} {ctx : Context} {armed : Option Nat} {args : List String} {m : Machine}

theorem struckRun_onRun (hm : m.Safe) {r : Runner} {n : Nat} (hn : r.machine = (m.runFor n).machine)
    (strikes : List (Option Nat)) (limit : Option Int) :
    ∃ n', (r.struckRun env.patience strikes limit).call.runner.machine =
      (m.runFor n').machine := by
  have hsafe : r.machine.Safe := by rw [hn]; exact hm.runFor n
  obtain ⟨⟨k, hk⟩, -⟩ := Runner.struckRun_safe hsafe env.patience strikes limit
  exact ⟨n + k, by rw [hk, hn, hm.runFor_runFor]⟩

theorem Answered.onRun {c : Command} {reply : Reply} (hm : m.Safe) (h : ctx.OnRun m)
    (hanswer : Answered env ctx armed args c reply)
    (hc : c ≠ .load ∧ c ≠ .source ∧ c ≠ .restart ∧ c ≠ .input)
    (hclears : c = .output → outputClears args = false) : reply.context.OnRun m := by
  obtain ⟨hload, hsource, hrestart, hinput⟩ := hc
  obtain ⟨r₀, n, hr₀, hn⟩ := h
  cases hanswer with
  | loaded hcommand =>
    rcases hcommand with rfl | rfl | rfl
    · exact absurd rfl hload
    · exact absurd rfl hsource
    · exact absurd rfl hrestart
  | fed => exact absurd rfl hinput
  | drained hcleared =>
    rw [hclears rfl] at hcleared
    cases hcleared
  | aliased hchange =>
    rw [(changeAliases_eq_ok hchange).1]
    exact ⟨r₀, n, hr₀, hn⟩
  | stepped hr hcall =>
    rw [hr₀] at hr
    cases hr
    subst hcall
    obtain ⟨n', hn'⟩ := struckRun_onRun hm hn _ _
    exact ⟨_, n', rfl, hn'⟩
  | ran hr hcall =>
    rw [hr₀] at hr
    cases hr
    subst hcall
    obtain ⟨n', hn'⟩ := struckRun_onRun hm hn _ _
    exact ⟨_, n', rfl, hn'⟩
  | _ => exact ⟨r₀, n, hr₀, hn⟩

theorem reply_onRun (hm : m.Safe) (h : ctx.OnRun m) (t : StruckTurn)
    (hobserves : lineObserves ctx t.line = true) : (t.reply ctx).context.OnRun m := by
  rcases t.reply_cases ctx with ⟨c, args, hline, hanswer⟩ | ⟨n, events, -, hreply⟩
  · unfold lineObserves at hobserves
    rw [hline] at hobserves
    have hc : (c ≠ .load ∧ c ≠ .source ∧ c ≠ .restart ∧ c ≠ .input) ∧
        (c ≠ .output ∨ outputClears args = false) := by simpa using hobserves
    obtain ⟨hc, hclears⟩ := hc
    exact hanswer.onRun hm h hc fun houtput => hclears.resolve_left (not_not_intro houtput)
  · rw [hreply]
    exact h

theorem struckAfter_onRun (hm : m.Safe) (h : ctx.OnRun m) (turns : List StruckTurn)
    (hobserve : allObserve ctx turns = true) : (struckAfter ctx turns).OnRun m := by
  induction turns generalizing ctx with
  | nil => exact h
  | cons t turns ih =>
    obtain ⟨hline, hrest⟩ := Bool.and_eq_true_iff.1 hobserve
    rw [struckAfter_cons]
    exact ih (reply_onRun hm h t hline) hrest

/-! ## From loading on -/

/-- Input queued behind nothing is the whole input. -/
theorem feedText_withProgram {source : String} (hload : Machine.load source = .ok m) (ctx : Context)
    (path : Option Path) {encoding : Encoding}
    (hencoding : Encoding.find ctx.inputEncoding = .ok encoding) {text : String}
    {bytes : List UInt8} (hdecode : encoding.decode text.toList = .ok bytes) :
    (ctx.withProgram source path m).feedText text =
      .ok (ctx.withProgram source path (m.withBytes bytes), bytes.length) := by
  have hrunner : (ctx.withProgram source path m).requireRunner =
      .ok (.atRest m ctx.batch.toNat) := rfl
  have hsame : (ctx.withProgram source path m).inputEncoding = ctx.inputEncoding := rfl
  have hfeed : m.feed (bytes.map fun b => .int b.toNat) = .ok (m.withBytes bytes) := by
    rw [Machine.feed_bytes, (Machine.load_rest hload).1]
    rfl
  unfold Context.feedText
  rw [hrunner, ok_bind, hsame, hencoding, mapError_ok, ok_bind, hdecode, mapError_ok, ok_bind]
  dsimp only [Runner.atRest]
  rw [hfeed, mapError_ok, ok_bind]
  rfl

/-- **Debugging does not disturb execution.** A program that loads and a text that the input
encoding accepts are loaded and queued. After any lines that observe from then on, with interrupts
striking any batch of any of them, the machine is the one that running the program on the bytes of
the text for as many steps leaves, in batches of any length. Lines of which only the first batch can
be struck are dispatched as typed. -/
theorem debugging_transparent {source : String} {m : Machine} (hload : Machine.load source = .ok m)
    {ctx : Context} (hbatch : 1 ≤ ctx.batch) {encoding : Encoding}
    (hencoding : Encoding.find ctx.inputEncoding = .ok encoding) {text : String}
    {bytes : List UInt8} (hdecode : encoding.decode text.toList = .ok bytes) (path : Option Path) :
    (∃ loaded logged fed, ctx.loadSource source path = .ok (loaded, logged) ∧
      loaded.feedText text = .ok (fed, bytes.length) ∧
      ∀ turns : List StruckTurn, allObserve fed turns = true →
        ∃ r, (struckAfter fed turns).runner = some r ∧
          ∀ (patience : Nat) (batch : Int), 1 ≤ batch →
            ∃ call, runProgram patience source bytes (some r.machine.steps) batch = .ok call ∧
              call.ending = .done ∧ call.runner.machine = r.machine) ∧
    ∀ (t : Turn) (ctx : Context),
      (⟨t, []⟩ : StruckTurn).reply ctx = dispatch t.env ctx t.armed t.line := by
  obtain ⟨logged, hloaded⟩ := loadSource_of_load hload hbatch path
  have hfed := feedText_withProgram hload ctx path hencoding hdecode
  refine ⟨⟨_, logged, _, hloaded, hfed, ?_⟩, StruckTurn.reply_plain⟩
  intro turns hobserve
  have hsafe : (m.withBytes bytes).Safe := Machine.withBytes_safe (Machine.load_sound hload) bytes
  obtain ⟨r, n, hr, hn⟩ := struckAfter_onRun hsafe ⟨_, 0, rfl, rfl⟩ turns hobserve
  refine ⟨r, hr, ?_⟩
  intro patience batch hlength
  obtain ⟨call, hcall, hending, hmachine⟩ :=
    runProgram_limited hload bytes r.machine.steps hlength patience
  -- the machine had made no step when it was loaded, so its count is that of the run
  have hsteps : r.machine.steps = ((m.withBytes bytes).runFor n).executed := by
    have hzero : (m.withBytes bytes).steps = 0 := (Machine.load_rest hload).2
    rw [hn, Machine.runFor_steps, hzero, Nat.zero_add]
  refine ⟨call, hcall, hending, ?_⟩
  rw [hmachine, hsteps, hsafe.runFor_executed, hn]

/-- The program that reads and writes: stepped by an alias and interrupted at once, with a command
that does not exist and a look at the output, then run for three steps, its second batch struck. -/
theorem debugging_transparent_echo :
    let env : Surroundings := ⟨⟨.folder [], [], Path.ofText "", []⟩, 0⟩
    let turns : List StruckTurn := [⟨⟨env, none, "alias go step"⟩, []⟩, ⟨⟨env, some 0, "go"⟩, []⟩,
      ⟨⟨env, none, "nonsense"⟩, []⟩, ⟨⟨env, none, "output"⟩, []⟩,
      ⟨⟨env, none, "run 3"⟩, [some 1]⟩]
    let ctx : Context := { batch := 2 }
    ∃ loaded logged fed, ctx.loadSource "\x7d\x7b" none = .ok (loaded, logged) ∧
      loaded.feedText "A" = .ok (fed, 1) ∧ allObserve fed turns = true ∧
      ∃ r call, (struckAfter fed turns).runner = some r ∧
        runProgram 0 "\x7d\x7b" [65] (some r.machine.steps) 7 = .ok call ∧
        call.runner.machine = r.machine := by
  intro env turns ctx
  have hload : Machine.load "\x7d\x7b" = .ok (Machine.ofImage #[125, 123]) :=
    Program.load_commands ['\x7d', '\x7b'] (by simp [Program.commandChars]) (by decide)
  have hbatch : 1 ≤ ctx.batch := by decide
  have hencoding : Encoding.find ctx.inputEncoding = .ok .utf8 := rfl
  have hdecode : Encoding.utf8.decode "A".toList = .ok [65] := rfl
  obtain ⟨⟨loaded, logged, fed, hloaded, hfed, hlater⟩, -⟩ :=
    debugging_transparent hload hbatch hencoding hdecode none
  have hobserve : allObserve fed turns = true := by
    obtain ⟨logged', hloaded'⟩ := loadSource_of_load hload hbatch none
    rw [hloaded'] at hloaded
    cases hloaded
    rw [feedText_withProgram hload ctx none hencoding hdecode] at hfed
    cases hfed
    decide +kernel
  obtain ⟨r, hr, hprogram⟩ := hlater turns hobserve
  obtain ⟨call, hcall, -, hmachine⟩ := hprogram 0 7 (by decide)
  exact ⟨loaded, logged, fed, hloaded, hfed, hobserve, r, call, hr, hcall, hmachine⟩

end Debugger
end Dis
