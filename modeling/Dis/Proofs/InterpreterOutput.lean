import Dis.Interpreter
import Dis.Proofs.FaultFree
import Dis.Proofs.Spellings
import Dis.Proofs.Traces
/-!
# What the interpreter prints and how it ends

The length of batches, a trace and the closing state are settings of a run that its standard output
and its status do not show. Everything these settings add goes to standard error or to the log
(`Quiet`), and the machine they leave is the one that a plain run leaves.

* `Runner.run_plain`: in batches of any length, a run that stops leaves the machine that the plain
  run leaves.
* `readAndRun_answer`: what the interpreter shows is what the plain run of its machine shows.
* `output_schedule_free`: so it is the same whatever these settings are.
-/
namespace Dis

/-! ## Runs -/

/-- A run comes to its end: it has a limit, or the machine halts within the patience of its
host. -/
def Machine.Ends (m : Machine) (patience : Nat) (limit : Option Int) : Prop :=
  limit = none → ∃ n < patience, (m.runFor n).machine.halted = true

theorem Machine.Ends.run_eq {m : Machine} {patience : Nat} {limit : Option Int}
    (h : m.Ends patience limit) :
    m.run patience limit = m.runFor ((limit.map Int.toNat).getD patience) := by
  cases limit with
  | some n => rfl
  | none =>
    obtain ⟨n, hn, hhalted⟩ := h rfl
    refine run_none_of_stopped ?_
    rw [runFor_of_stopped (.inl hhalted) (Nat.le_of_lt hn)]
    exact .inl hhalted

/-- In batches of any length, a run that ends leaves the machine of the plain run. -/
theorem Runner.run_plain {m : Machine} (hm : m.Safe) {b : Nat} (hb : 1 ≤ b) {patience : Nat}
    {limit : Option Int} (hends : m.Ends patience limit) :
    ((atRest m b).run patience none limit).ending = .done ∧
      ((atRest m b).run patience none limit).runner.machine = (m.run patience limit).machine := by
  have hlimited : ∀ {n : Int} {call : RunnerCall},
      Loop .plain (some n) 0 none #[] (atRest m b) call →
      call.ending = .done ∧ call.runner.machine = (m.runFor n.toNat).machine := by
    intro n call hloop
    have hfollows := loop_follows hloop rfl rfl hb
    rw [show (n - ((0 : Nat) : Int)).toNat = n.toNat by omega] at hfollows
    exact ⟨hfollows.ending.trans (hm.runFor_done _), hfollows.machine⟩
  cases limit with
  | some n => exact hlimited (runFrom_loop n 0 none #[] n.toNat (atRest m b) (by omega))
  | none =>
    obtain ⟨n, hn, hhalted⟩ := hends rfl
    have hstopped : (m.runFor n).Stopped := .inl hhalted
    have hloop := runFrom_none_loop 0 none #[] patience (atRest m b)
      (runFrom_none_finishes n 0 #[] patience (atRest m b) rfl hb hstopped hn)
    obtain ⟨k, hending, hmachine⟩ : ∃ k, ((atRest m b).run patience none none).ending = .done ∧
        ((atRest m b).run patience none none).runner.machine = (m.runFor k).machine :=
      ⟨_, hlimited (loop_none_limited hloop hb _ (Int.le_refl _))⟩
    -- both the loop and the plain run have ended where the machine halts
    have hk : (m.runFor k).machine.halted = true := by
      rw [← hmachine]
      rcases loop_none_stopped hloop rfl rfl hb with hhalted | ⟨e, he⟩
      · exact hhalted
      · exact absurd (hending.symm.trans he) (by simp)
    refine ⟨hending, ?_⟩
    rw [hmachine, Machine.run_none_machine, Machine.runFor_of_stopped hstopped (Nat.le_of_lt hn)]
    rcases Nat.le_total n k with hle | hle
    · rw [Machine.runFor_of_stopped hstopped hle]
    · rw [Machine.runFor_of_stopped (.inl hk) hle]

/-! ## Standard output -/

theorem foldl_outText (events : List Event) (s : String) :
    events.foldl (fun s e => s ++ e.outText) s =
      s ++ events.foldl (fun s e => s ++ e.outText) "" := by
  induction events generalizing s with
  | nil => simp
  | cons e events ih =>
    rw [List.foldl_cons, List.foldl_cons, ih, ih ("" ++ _), String.empty_append,
      String.append_assoc]

theorem outText_append (a b : Array Event) : outText (a ++ b) = outText a ++ outText b := by
  unfold outText
  rw [Array.foldl_append, ← Array.foldl_toList, ← Array.foldl_toList, foldl_outText,
    Array.foldl_toList, Array.foldl_toList]

/-- Nothing of the events goes to standard output. -/
def Quiet (events : Array Event) : Prop :=
  ∀ e ∈ events, e.outText = ""

theorem Quiet.outText_eq {events : Array Event} (h : Quiet events) : outText events = "" := by
  obtain ⟨events⟩ := events
  induction events with
  | nil => rfl
  | cons e events ih =>
    have hrest : outText ⟨events⟩ = "" := ih fun e he => h e (by simp_all)
    unfold outText at hrest ⊢
    simp only [List.foldl_toArray, List.foldl_cons] at hrest ⊢
    rw [foldl_outText, h e (by simp), hrest]
    rfl

theorem Quiet.append {a b : Array Event} (ha : Quiet a) (hb : Quiet b) : Quiet (a ++ b) := by
  intro e he
  rcases Array.mem_append.1 he with he | he
  · exact ha e he
  · exact hb e he

theorem quiet_log (r : Record) : Quiet #[.log r] := by
  intro e he
  obtain rfl : e = .log r := by simpa using he
  rfl

theorem quiet_errLine (text : String) : Quiet #[.errLine text] := by
  intro e he
  obtain rfl : e = .errLine text := by simpa using he
  rfl

theorem quiet_empty : Quiet #[] := by
  intro e he
  simp at he

namespace Runner

theorem runBatch_quiet (armed : Option Nat) (limit : Option Int) (r : Runner) :
    Quiet (r.runBatch armed limit).events := by
  unfold runBatch
  split
  split
  · exact quiet_empty
  · dsimp only [batchEvents]
    split
    · exact quiet_log _
    · exact quiet_log _
    · exact quiet_empty

theorem runFrom_quiet (limit : Option Int) (total : Nat) (armed : Option Nat)
    {events : Array Event} (h : Quiet events) (fuel : Nat) (r : Runner) :
    Quiet (runFrom limit total armed events fuel r).events := by
  induction fuel generalizing total armed events r with
  | zero => exact h
  | succ fuel ih =>
    have hmore := h.append (runBatch_quiet armed (remaining limit total) r)
    rw [runFrom_succ]
    split
    · exact h
    · dsimp only
      split
      · split
        · exact hmore
        · exact ih _ _ hmore _
      · exact hmore

theorem run_quiet (patience : Nat) (armed : Option Nat) (limit : Option Int) (r : Runner) :
    Quiet (r.run patience armed limit).events :=
  runFrom_quiet limit 0 armed quiet_empty _ r

end Runner

namespace Interpreter

/-! ## Settings that only standard error shows -/

/-- A trace adds nothing to the records but traced steps. -/
theorem mem_withTrace {entries : List TraceEntry} {events : List Event} {e : Event}
    (h : e ∈ withTrace entries events) : e ∈ events ∨ ∃ entry, e ∈ traceEvents entry := by
  have htraced : ∀ {entries : List TraceEntry}, e ∈ entries.flatMap traceEvents →
      ∃ entry, e ∈ traceEvents entry := by
    intro entries he
    obtain ⟨entry, -, hentry⟩ := List.mem_flatMap.1 he
    exact ⟨entry, hentry⟩
  fun_induction withTrace entries events with
  | case1 entries => exact .inr (htraced h)
  | case2 entries number executed halted rest ih =>
    rcases List.mem_append.1 h with he | he
    · exact .inr (htraced he)
    · rcases List.mem_cons.1 he with rfl | he
      · exact .inl List.mem_cons_self
      · exact (ih he).imp_left (List.mem_cons_of_mem _)
  | case3 entries e' rest _ =>
    rcases List.mem_append.1 h with he | he
    · exact .inr (htraced he)
    · exact .inl he

theorem runEvents_quiet (trace : Bool) (machine : Machine) (limit : Option Int) (patience : Nat)
    {events : Array Event} (h : Quiet events) :
    Quiet (runEvents trace machine limit patience events) := by
  unfold runEvents
  split
  · intro e he
    rcases mem_withTrace (List.mem_toArray.1 he) with he | ⟨entry, he⟩
    · exact h e (Array.mem_toList_iff.1 he)
    · simp only [traceEvents, List.mem_cons, List.not_mem_nil, or_false] at he
      rcases he with rfl | rfl <;> rfl
  · exact h

theorem closingEvents_quiet (verbose : Bool) (limit : Option Int) (m : Machine) :
    Quiet (closingEvents verbose limit m) := by
  unfold closingEvents
  dsimp only
  refine Quiet.append ?_ ?_
  · split
    · exact quiet_errLine _
    · exact quiet_empty
  · split
    · exact quiet_errLine _
    · exact quiet_empty

theorem cut_quiet (limit : Int) (text : String) : Quiet (cut limit text).2 := by
  unfold cut
  split
  · exact quiet_empty
  · exact quiet_log _

theorem batchLength_value (settings : Settings) {given : Option (Options.Given Int)}
    (h : given ≠ some .dropped) :
    ∃ n events, batchLength settings given = (.value n, events) ∧ Quiet events := by
  unfold batchLength
  split
  · next given =>
    cases given with
    | value n => exact ⟨n, #[], rfl, quiet_empty⟩
    | dropped => exact absurd rfl h
  · exact ⟨_, _, rfl, quiet_empty⟩
  · split
    · exact ⟨_, _, rfl, quiet_empty⟩
    · split
      · exact ⟨_, _, rfl, quiet_empty⟩
      · exact ⟨_, _, rfl, quiet_log _⟩

theorem loadEvents_quiet (source : String) : Quiet (loadEvents source) := by
  unfold loadEvents
  split
  · exact quiet_log _
  · exact quiet_empty

/-! ## The plain run behind what is printed -/

/-- What a result shows outside standard error: how it ended, and standard output. -/
def shown (x : Finish × Array Event) : Finish × String :=
  (x.1, outText x.2)

theorem shown_of_quiet {finish : Finish} {events : Array Event} (h : Quiet events) :
    shown (finish, events) = (finish, "") := by
  rw [shown, h.outText_eq]

theorem shown_append {events : Array Event} (h : Quiet events) (x : Finish × Array Event) :
    shown (x.1, events ++ x.2) = shown x := by
  rw [shown, outText_append, h.outText_eq, String.empty_append, shown]

/-- What is shown of a run that has left a machine. -/
def report (s : Arguments) (m : Machine) : Finish × String :=
  match Encoding.find s.outputEncoding with
  | .error e => (.broken (.codec e), "")
  | .ok encoding => (.status 0, (cut s.outputLimit (encoding.encodeWords m.output.toList)).1)

/-- What the interpreter shows if it simply runs its machine. -/
def answer (w : Start) (s : Arguments) : Finish × String :=
  match readTexts w s with
  | .error (.file _) => (.status 1, "")
  | .error e => (.broken (.document e), "")
  | .ok (source, input) => match setUp s.inputEncoding source input with
    | .error _ => (.status 1, "")
    | .ok m => match runNumbers (.value 1) s.maxSteps with
      | .error e => (.broken e, "")
      | .ok (_, limit) => report s (m.run w.patience limit).machine

/-- If a command line comes to run a machine, the run ends. -/
def Stops (w : Start) (s : Arguments) : Prop :=
  ∀ source input m limit, readTexts w s = .ok (source, input) →
    setUp s.inputEncoding source input = .ok m → s.maxSteps = limit.map .value →
    m.Ends w.patience limit

theorem execute_report {m : Machine} (hm : m.Safe) {patience : Nat} {limit : Option Int}
    (hends : m.Ends patience limit) (s : Arguments) (batch : Int) :
    shown (execute patience s batch limit m) = report s (m.run patience limit).machine := by
  have hb : 1 ≤ (max 1 batch).toNat := by omega
  obtain ⟨hending, hmachine⟩ := Runner.run_plain hm hb hends
  have hquiet := runEvents_quiet s.trace m limit patience
    (Runner.run_quiet patience none limit (.atRest m (max 1 batch).toNat))
  unfold execute report
  dsimp only
  rw [hending, hmachine]
  cases Encoding.find s.outputEncoding with
  | error e => exact shown_of_quiet hquiet
  | ok encoding =>
    generalize (m.run patience limit).machine = m
    have hclosing := closingEvents_quiet s.verbose limit m
    have hcut := cut_quiet s.outputLimit (encoding.encodeWords m.output.toList)
    dsimp only
    rw [shown, outText_append, outText_append, hclosing.outText_eq, String.append_empty,
      (hquiet.append hcut).outText_eq, String.empty_append]
    rfl

theorem runNumbers_value (n : Int) (limit : Option (Options.Given Int)) :
    runNumbers (.value n) limit =
      (runNumbers (.value 1) limit).map fun (_, limit) => (n, limit) := by
  rcases limit with _ | ⟨limit⟩ | _ <;> rfl

theorem runNumbers_eq_ok {n n' : Int} {given : Option (Options.Given Int)} {limit : Option Int}
    (h : runNumbers (.value n) given = .ok (n', limit)) : given = limit.map .value := by
  rcases given with _ | ⟨limit'⟩ | _ <;> cases h <;> rfl

/-- The interpreter shows what a plain run of its machine shows. -/
theorem readAndRun_answer {w : Start} {s : Arguments} (hbatch : s.batch ≠ some .dropped)
    (hstops : Stops w s) : shown (readAndRun w s) = answer w s := by
  obtain ⟨n, events, hlength, hevents⟩ := batchLength_value w.settings hbatch
  unfold readAndRun answer
  rw [hlength]
  dsimp only
  cases htexts : readTexts w s with
  | error e =>
    cases e with
    | file e => exact shown_of_quiet (hevents.append (quiet_errLine _))
    | _ => exact shown_of_quiet hevents
  | ok texts =>
    obtain ⟨source, input⟩ := texts
    have hloaded := hevents.append (loadEvents_quiet source)
    dsimp only
    cases hsetUp : setUp s.inputEncoding source input with
    | error e => exact shown_of_quiet (hloaded.append (quiet_errLine _))
    | ok m =>
      dsimp only
      rw [runNumbers_value]
      cases hnumbers : runNumbers (.value 1) s.maxSteps with
      | error e => exact shown_of_quiet hloaded
      | ok numbers =>
        obtain ⟨one, limit⟩ := numbers
        have hends := hstops source input m limit htexts hsetUp (runNumbers_eq_ok hnumbers)
        exact (shown_append hloaded _).trans (execute_report (setUp_safe hsetUp) hends s n)

/-- The first characters of a text, as many as the limit says; all of them for zero. -/
def kept (limit : Int) (text : String) : String :=
  if limit = 0 then text else String.ofList (text.toList.take limit.toNat)

theorem cut_kept {limit : Int} (h : 0 ≤ limit) (text : String) :
    (cut limit text).1 = kept limit text := by
  unfold cut kept
  by_cases hzero : limit = 0
  · rw [if_pos hzero, if_pos (by simp [hzero])]
  rw [if_neg hzero]
  split
  · next hshort =>
    have hle : text.toList.length ≤ limit.toNat := by
      simp [hzero] at hshort
      rw [String.length_toList]
      omega
    rw [List.take_of_length_le hle, String.ofList_toList]
  · rw [if_neg (by omega), show limit.natAbs = limit.toNat by omega]

/-- The values that a machine has put out. -/
def outputValues (m : Machine) : List Value :=
  m.output.toList.map fun (n : Nat) => .int n

theorem setUp_of_decodeInput {encoding : Value} {source input : String} {m : Machine}
    {bytes : List UInt8} (hload : Machine.load source = .ok m)
    (hbytes : Codec.decodeInput encoding (.text input) = .ok bytes) :
    setUp encoding source input = .ok (m.withBytes bytes) := by
  unfold Codec.decodeInput at hbytes
  obtain ⟨e, he, hbytes⟩ := bind_eq_ok_iff.1 hbytes
  unfold setUp
  rw [hload, mapError_ok, ok_bind, mapError_eq_ok_iff.1 he, mapError_ok, ok_bind,
    mapError_eq_ok_iff.1 hbytes]
  rfl

/-! ## Command lines -/

/-- Nothing is missing to a command line: its log can be set up, its texts are read, its program
loads, its input is decoded, and no switch has lost its value. The machine has the bytes of the
input in its queue. -/
structure Ready (w : Start) (s : Arguments) (m : Machine) (limit : Option Int) : Prop where
  log : ∃ threshold, w.settings.threshold .warning s.logLevel = .ok threshold
  machine : ∃ source input program bytes, readTexts w s = .ok (source, input) ∧
    Machine.load source = .ok program ∧
    Codec.decodeInput s.inputEncoding (.text input) = .ok bytes ∧ m = program.withBytes bytes
  encoding : ∃ e, Encoding.find s.outputEncoding = .ok e
  limit_eq : s.maxSteps = limit.map .value

theorem Ready.answer_eq {w : Start} {s : Arguments} {m : Machine} {limit : Option Int}
    (h : Ready w s m limit) :
    answer w s = report s (m.run w.patience limit).machine := by
  obtain ⟨source, input, program, bytes, htexts, hload, hbytes, rfl⟩ := h.machine
  have hnumbers : runNumbers (.value 1) s.maxSteps = .ok (1, limit) := by
    rw [h.limit_eq]
    cases limit <;> rfl
  unfold answer
  rw [htexts]
  dsimp only
  rw [setUp_of_decodeInput hload hbytes]
  dsimp only
  rw [hnumbers]

/-- The plain run of a command line that stops is done, and its trace is one of this run. -/
theorem Ready.run_done {w : Start} {s : Arguments} {m : Machine} {limit : Option Int}
    (h : Ready w s m limit) (hstops : Stops w s) :
    (m.run w.patience limit).ending = .done ∧
      (m.trace ((limit.map Int.toNat).getD w.patience)).1 = m.run w.patience limit := by
  obtain ⟨source, input, program, bytes, htexts, hload, hbytes, rfl⟩ := h.machine
  have hsetUp := setUp_of_decodeInput hload hbytes
  have hends := hstops source input _ limit htexts hsetUp h.limit_eq
  rw [Machine.trace_run, hends.run_eq]
  exact ⟨(setUp_safe hsetUp).runFor_done _, rfl⟩

theorem interpret_shown {w : Start} {s : Arguments} (hbatch : s.batch ≠ some .dropped)
    (hstops : Stops w s) {threshold : Nat}
    (hlog : w.settings.threshold .warning s.logLevel = .ok threshold) :
    ((interpret w s).finish, outText (interpret w s).events) = answer w s := by
  rw [← readAndRun_answer hbatch hstops]
  unfold interpret
  rw [hlog]
  rfl

/-- **Scheduling and tracing do not show.** Two command lines differ in the length of batches, in
the setting for it, in the trace and in the closing state only, and their run stops. Then they end
in the same way and print the same on standard output. If nothing is missing and the limit of the
output is not negative, they end with status zero and print the output of the plain run in the
output encoding, cut to the limit; and what is traced is that run. -/
theorem output_schedule_free {w : Start} {args args' : List String} {s s' : Arguments}
    (hs : argumentSpec.parse {} args = .parsed s) (hs' : argumentSpec.parse {} args' = .parsed s')
    (hsame : s' = { s with batch := s'.batch, trace := s'.trace, verbose := s'.verbose })
    (hbatch : s.batch ≠ some .dropped) (hbatch' : s'.batch ≠ some .dropped) (hstops : Stops w s)
    (setting : Option String) :
    let x := run w args
    let y := run { w with settings := { w.settings with batch := setting } } args'
    (y.finish = x.finish ∧ outText y.events = outText x.events) ∧
    ∀ m limit, Ready w s m limit → 0 ≤ s.outputLimit →
      let plain := m.run w.patience limit
      plain.ending = .done ∧ x.finish = .status 0 ∧
      (∃ text, Codec.encodeOutput s.outputEncoding (outputValues plain.machine) = .ok text ∧
        outText x.events = kept s.outputLimit text) ∧
      (m.trace ((limit.map Int.toNat).getD w.patience)).1 = plain := by
  intro x y
  have hx : x = interpret w s := by simp only [x, run, hs]
  have hy : y = interpret { w with settings := { w.settings with batch := setting } } s' := by
    simp only [y, run, hs']
  generalize hw' : { w with settings := { w.settings with batch := setting } } = w' at hy
  have hlog' : w'.settings.threshold .warning s'.logLevel =
      w.settings.threshold .warning s.logLevel := by
    rw [← hw', hsame]
    rfl
  have hanswer' : answer w' s' = answer w s := by
    rw [← hw', hsame]
    rfl
  have hstops' : Stops w' s' := by
    rw [← hw', hsame]
    exact hstops
  refine ⟨?_, ?_⟩
  · rw [hx, hy]
    cases hlog : w.settings.threshold .warning s.logLevel with
    | error e =>
      rw [hlog] at hlog'
      unfold interpret
      rw [hlog, hlog']
      exact ⟨rfl, rfl⟩
    | ok threshold =>
      have hshown := interpret_shown hbatch hstops hlog
      have hshown' := interpret_shown hbatch' hstops' (hlog'.trans hlog)
      rw [hanswer', ← hshown, Prod.mk.injEq] at hshown'
      exact hshown'
  · intro m limit hready hpositive plain
    obtain ⟨hdone, htrace⟩ := hready.run_done hstops
    obtain ⟨threshold, hlog⟩ := hready.log
    obtain ⟨e, he⟩ := hready.encoding
    have hshown := interpret_shown hbatch hstops hlog
    rw [hready.answer_eq, report, he, Prod.mk.injEq, cut_kept hpositive] at hshown
    rw [hx]
    exact ⟨hdone, hshown.1, ⟨_, Codec.encodeOutput_words he _, hshown.2⟩, htrace⟩

/-- The program that reads and writes, from standard input: for five steps, with one character of
its output kept, against the same with batches of less than nothing, a setting that is no number,
a trace and the closing state. -/
theorem output_schedule_free_echo :
    let w : Start := ⟨⟨.folder [], [], Path.ofText "", []⟩, {}, 0, "\x7d\x7b"⟩
    let args := ["-", "--input", "AB", "--max-steps", "5", "--output-limit", "1"]
    let x := run w args
    let y := run { w with settings := { w.settings with batch := some "many" } }
      (args ++ ["--batch", "-3", "--trace", "-v"])
    y.finish = x.finish ∧ outText y.events = outText x.events ∧ x.finish = .status 0 ∧
      ∃ m text, Machine.load "\x7d\x7b" = .ok m ∧
        Codec.encodeOutput (.text "utf-8")
          (outputValues ((m.withBytes [65, 66]).run 0 (some 5)).machine) = .ok text ∧
        outText x.events = kept 1 text := by
  intro w args
  let s : Arguments :=
    { program := "-", input := "AB", maxSteps := some (.value 5), outputLimit := 1 }
  have hs : argumentSpec.parse {} args = .parsed s := rfl
  have hs' : argumentSpec.parse {} (args ++ ["--batch", "-3", "--trace", "-v"]) =
      .parsed { s with batch := some (.value (-3)), trace := true, verbose := true } := rfl
  have hlog : w.settings.threshold .warning s.logLevel = .ok 30 := by
    have hlevel : Level.threshold .warning "WARNING" = .ok 30 := by
      unfold Level.threshold
      rw [show String.ofList (Text.upperAscii "WARNING".toList) = "WARNING" by decide]
      rfl
    exact congrArg (Except.mapError Breakdown.level) hlevel
  have htexts : readTexts w s = .ok ("\x7d\x7b", "AB") := by
    have hstdin : String.ofList (Text.unifyNewlines "\x7d\x7b".toList) = "\x7d\x7b" := by decide
    exact congrArg (fun program => Except.ok (program, "AB")) hstdin
  obtain ⟨m, hload⟩ : ∃ m, Machine.load "\x7d\x7b" = .ok m :=
    ⟨_, Program.load_commands ['\x7d', '\x7b'] (by simp [Program.commandChars]) (by decide)⟩
  have hready : Ready w s (m.withBytes [65, 66]) (some 5) :=
    ⟨⟨30, hlog⟩, ⟨_, _, m, [65, 66], htexts, hload, rfl, rfl⟩, ⟨.utf8, rfl⟩, rfl⟩
  have hstops : Stops w s := by
    intro source input m limit _ _ hlimit hnone
    rw [hnone] at hlimit
    cases hlimit
  obtain ⟨⟨hfinish, hout⟩, hprinted⟩ := output_schedule_free hs hs' rfl (by simp [s]) (by simp)
    hstops (some "many")
  obtain ⟨-, hstatus, ⟨text, htext, hkept⟩, -⟩ := hprinted _ _ hready (by decide)
  exact ⟨hfinish, hout, hstatus, m, text, hload, htext, hkept⟩

end Interpreter
end Dis
