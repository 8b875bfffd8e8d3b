import Dis.Proofs.Accounting
import Dis.Proofs.FaultFree
/-!
# What holds in every debugging session

A session begins `fresh`: nothing is loaded and there are no aliases. Lines follow in any number,
and interrupts may strike the batches of any of them.

* `Runner.Backed`: what ties a runner to the text its machine was loaded from; `struckRun_backed`:
  runs keep it.
* `Answered.kept`: every command keeps what `Context.Kept` says of a session.
* `debugging_session_invariant`: so does every sequence of lines; an alias is resolved in one go and
  to a command, and a program that is there can be loaded again.
* `failed_line_changes_nothing`: a line that reports a number other than zero has changed nothing.
-/
namespace Dis

/-! ## Machines with bytes waiting -/

namespace Machine

/-- Every value waiting in the queue is a byte. -/
def FedBytes (m : Machine) : Prop :=
  ∀ v ∈ m.queue.toList, ∃ b : UInt8, v = .int b.toNat

end Machine

/-! ## Runners and their program texts -/

namespace Runner

/-- The machine was loaded from the text, all its steps were made by the runner, and what waits in
its queue are bytes. -/
structure Backed (source : String) (r : Runner) : Prop where
  parsed : ∃ image, Program.parse source.toList = .ok image ∧
    r.machine.programLength = image.size
  counted : r.steps = r.machine.steps
  bytes : r.machine.FedBytes

theorem load_backed {source : String} {m : Machine} (hm : Machine.load source = .ok m)
    (batch : Nat) : (atRest m batch).Backed source := by
  obtain ⟨image, himage, rfl⟩ := (Program.load_eq_ok_iff source m).1 hm
  refine ⟨⟨image, himage, rfl⟩, rfl, ?_⟩
  intro v hv
  simp [atRest, Machine.ofImage] at hv

theorem runBatch_backed {source : String} (strike : Option Nat) (limit : Option Int) (r : Runner)
    (h : r.Backed source) : (r.runBatch strike limit).runner.Backed source := by
  have hmachine := runBatch_machine_invariant
    (P := fun m => m.programLength = r.machine.programLength ∧ m.FedBytes)
    (fun m hm => ?_) strike limit r ⟨rfl, h.bytes⟩
  · obtain ⟨image, himage, hlength⟩ := h.parsed
    obtain ⟨n, hsteps, hmachineSteps⟩ := (runBatch_counted strike limit r).steps
    have hcounted := h.counted
    exact ⟨⟨image, himage, hmachine.1.trans hlength⟩, by omega, hmachine.2⟩
  · obtain ⟨hqueue, hlength⟩ := m.step_keeps
    exact ⟨hlength.trans hm.1, fun v hv => hm.2 v (hqueue.subset hv)⟩

theorem struckRun_backed {source : String} {r : Runner} (h : r.Backed source) (patience : Nat)
    (strikes : List (Option Nat)) (limit : Option Int) :
    (r.struckRun patience strikes limit).call.runner.Backed source :=
  (struckRun_invariant runBatch_backed patience strikes limit r h).1

theorem Backed.feed {source : String} {r : Runner} {m : Machine} {bytes : List UInt8}
    (h : r.Backed source) (hm : r.machine.feed (bytes.map fun b => .int b.toNat) = .ok m) :
    Backed source { r with machine := m } := by
  obtain ⟨-, rfl⟩ := Machine.feed_eq_ok hm
  refine ⟨h.parsed, h.counted, ?_⟩
  intro v hv
  rw [Queue.toList_append, List.mem_append] at hv
  rcases hv with hold | hnew
  · exact h.bytes v hold
  · obtain ⟨b, -, rfl⟩ := List.mem_map.1 hnew
    exact ⟨b, rfl⟩

end Runner

/-! ## Sessions -/

theorem Encoding.find_of_mem_names {name : String} (h : name ∈ Encoding.names) :
    ∃ e, Encoding.find (.text name) = .ok e := by
  have hnames : ∀ name ∈ Encoding.names, (Encoding.ofName? name).isSome = true := by decide
  obtain ⟨e, he⟩ := Option.isSome_iff_exists.1 (hnames name h)
  exact ⟨e, by simp only [Encoding.find, he]⟩

namespace Debugger

/-- A session in which nothing has happened. -/
def Context.fresh (json : Bool) (inputEncoding outputEncoding : Value) (batch : Int) : Context :=
  { json, inputEncoding, outputEncoding, batch }

structure Context.Kept (ctx : Context) : Prop where
  /-- There is a runner exactly when there is a program text. -/
  loaded : ctx.runner.isSome ↔ ctx.source.isSome
  backed : ∀ r source, ctx.runner = some r → ctx.source = some source → r.Backed source
  batch : ctx.source.isSome → 1 ≤ ctx.batch
  input : ∃ e, Encoding.find ctx.inputEncoding = .ok e
  output : ∃ e, Encoding.find ctx.outputEncoding = .ok e
  /-- An alias is no command itself and stands for one. -/
  aliases : ∀ p ∈ ctx.aliases, Command.ofName? p.1 = none ∧ (Command.ofName? p.2).isSome

variable {env : Surroundings} {ctx : Context} {armed : Option Nat} {args : List String}

theorem Context.Kept.withRunner {r r' : Runner} (h : ctx.Kept) (hr : ctx.runner = some r)
    (hr' : ∀ source, r.Backed source → r'.Backed source) :
    Context.Kept { ctx with runner := some r' } := by
  refine { h with loaded := ?_, backed := ?_ }
  · have hloaded := h.loaded
    rw [hr] at hloaded
    exact hloaded
  · intro r'' source hr'' hsource
    cases hr''
    exact hr' source (h.backed r source hr hsource)

/-- Every command keeps a session so. -/
theorem Answered.kept {c : Command} {reply : Reply} (h : ctx.Kept)
    (hanswer : Answered env ctx armed args c reply) : reply.context.Kept := by
  cases hanswer with
  | loaded _ hm hr =>
    obtain ⟨hbatch, rfl⟩ := Runner.new_eq_ok_iff.1 hr
    refine { h with loaded := by simp, backed := ?_, batch := fun _ => hbatch }
    intro r' source hr' hsource
    cases hr'
    cases hsource
    exact Runner.load_backed hm _
  | fed hr _ _ hm => exact h.withRunner hr fun source hbacked => hbacked.feed hm
  | drained _ hr => exact h.withRunner hr fun source hbacked => { hbacked with }
  | readsAs hname => exact { h with input := Encoding.find_of_mem_names hname }
  | writesAs hname => exact { h with output := Encoding.find_of_mem_names hname }
  | aliased hchange =>
    obtain ⟨hsame, hnew⟩ := changeAliases_eq_ok hchange
    rw [hsame]
    refine { h with aliases := ?_ }
    intro p hp
    rcases hnew p hp with hold | hcommand
    · exact h.aliases p hold
    · exact hcommand
  | stepped hr hcall =>
    subst hcall
    exact h.withRunner hr fun source hbacked => Runner.struckRun_backed hbacked _ _ _
  | ran hr hcall =>
    subst hcall
    exact h.withRunner hr fun source hbacked => Runner.struckRun_backed hbacked _ _ _
  | _ => exact h

theorem fresh_kept {json : Bool} {inputEncoding outputEncoding : Value} {batch : Int}
    (hin : ∃ e, Encoding.find inputEncoding = .ok e)
    (hout : ∃ e, Encoding.find outputEncoding = .ok e) :
    (Context.fresh json inputEncoding outputEncoding batch).Kept where
  loaded := by simp [Context.fresh]
  backed := by simp [Context.fresh]
  batch := by simp [Context.fresh]
  input := hin
  output := hout
  aliases := by simp [Context.fresh]

/-! ## Aliases -/

theorem resolveAlias_cases (ctx : Context) (name : String) :
    (∃ p ∈ ctx.aliases, p.1 = name ∧ ctx.resolveAlias name = p.2) ∨
      ((∀ p ∈ ctx.aliases, p.1 ≠ name) ∧ ctx.resolveAlias name = name) := by
  unfold Context.resolveAlias
  cases hfind : ctx.aliases.find? (·.1 = name) with
  | some p =>
    have hname : p.1 = name := by simpa using List.find?_some hfind
    exact .inl ⟨p, List.mem_of_find?_eq_some hfind, hname, rfl⟩
  | none =>
    have hnone : ∀ p ∈ ctx.aliases, p.1 ≠ name := by simpa using hfind
    exact .inr ⟨hnone, rfl⟩

theorem Context.Kept.resolveAlias_isSome (h : ctx.Kept) {p : String × String}
    (hp : p ∈ ctx.aliases) : (Command.ofName? (ctx.resolveAlias p.1)).isSome = true := by
  rcases resolveAlias_cases ctx p.1 with ⟨q, hq, -, hresolve⟩ | ⟨hnone, -⟩
  · rw [hresolve]
    exact (h.aliases q hq).2
  · exact absurd rfl (hnone p hp)

/-- What an alias stands for is a command, and no alias has the name of one. -/
theorem Context.Kept.resolveAlias_idem (h : ctx.Kept) (name : String) :
    ctx.resolveAlias (ctx.resolveAlias name) = ctx.resolveAlias name := by
  rcases resolveAlias_cases ctx name with ⟨p, hp, -, hresolve⟩ | ⟨-, hresolve⟩
  · rw [hresolve]
    rcases resolveAlias_cases ctx p.2 with ⟨q, hq, hname, -⟩ | ⟨-, hresolve'⟩
    · have hfree := (h.aliases q hq).1
      have htarget := (h.aliases p hp).2
      rw [hname] at hfree
      rw [hfree] at htarget
      cases htarget
    · exact hresolve'
  · rw [hresolve, hresolve]

/-! ## Loading again -/

theorem Context.Kept.restart_ok (h : ctx.Kept) (hsource : ctx.source.isSome = true) :
    ∃ ctx' events, ctx.restart = .ok (ctx', events) := by
  obtain ⟨source, hs⟩ := Option.isSome_iff_exists.1 hsource
  obtain ⟨r, hr⟩ := Option.isSome_iff_exists.1 (h.loaded.2 hsource)
  obtain ⟨image, himage, -⟩ := (h.backed r source hr hs).parsed
  have hload := (Program.load_eq_ok_iff source _).2 ⟨image, himage, rfl⟩
  obtain ⟨events, hok⟩ := loadSource_of_load hload (h.batch hsource) ctx.sourcePath
  unfold Context.restart
  rw [hs]
  exact ⟨_, events, hok⟩

theorem Context.Kept.restart_ne_program (h : ctx.Kept) (e : Program.ParseError) :
    ctx.restart ≠ .error (.program e) := by
  cases hs : ctx.source with
  | none =>
    unfold Context.restart
    rw [hs]
    simp
  | some source =>
    obtain ⟨ctx', events, hok⟩ := h.restart_ok (by rw [hs]; rfl)
    rw [hok]
    simp

/-! ## Whole sessions -/

/-- **What holds after every line.** In a session that began with supported encodings there is a
runner exactly when there is a program text; the text parses, the length of the program and the
count of steps agree, what waits in the queue are bytes, both encodings are supported, and no alias
is a command while each stands for one. So an alias is resolved in one go and to a command, and
loading again never meets a syntax error: with a program there, it succeeds. Lines of which only the
first batch can be struck are dispatched as typed. -/
theorem debugging_session_invariant {inputEncoding outputEncoding : Value}
    (hin : ∃ e, Encoding.find inputEncoding = .ok e)
    (hout : ∃ e, Encoding.find outputEncoding = .ok e) (json : Bool) (batch : Int)
    (turns : List StruckTurn) (ctx : Context)
    (hctx : struckAfter (.fresh json inputEncoding outputEncoding batch) turns = ctx) :
    ctx.Kept ∧
      (∀ p ∈ ctx.aliases, (Command.ofName? (ctx.resolveAlias p.1)).isSome = true) ∧
      (∀ name, ctx.resolveAlias (ctx.resolveAlias name) = ctx.resolveAlias name) ∧
      (∀ e, ctx.restart ≠ .error (.program e)) ∧
      (ctx.source.isSome = true → ∃ ctx' events, ctx.restart = .ok (ctx', events)) ∧
      ∀ (t : Turn) (ctx : Context),
        (⟨t, []⟩ : StruckTurn).reply ctx = dispatch t.env ctx t.armed t.line := by
  have hkept : ctx.Kept := by
    rw [← hctx]
    exact struckAfter_invariant (fun _ _ _ _ _ _ h hanswer => hanswer.kept h)
      (fresh_kept hin hout) turns
  exact ⟨hkept, fun p hp => hkept.resolveAlias_isSome hp, hkept.resolveAlias_idem,
    hkept.restart_ne_program, hkept.restart_ok, StruckTurn.reply_plain⟩

/-- With a program loaded and fed, an alias for `run`, and a run by that alias which is cut off at
once. -/
theorem debugging_session_invariant_aliased :
    let env : Surroundings := ⟨⟨.folder [], [], Path.ofText "", []⟩, 0⟩
    let turns : List StruckTurn := [⟨⟨env, none, "source \x7d\x7b"⟩, []⟩,
      ⟨⟨env, none, "input 41ff"⟩, []⟩, ⟨⟨env, none, "alias go run"⟩, []⟩,
      ⟨⟨env, some 0, "go"⟩, []⟩]
    let ctx := struckAfter (.fresh false (.text "BASE16") (.text "utf-8") 2) turns
    ctx.aliases = [("go", "run")] ∧ ctx.Kept ∧ ctx.runner.isSome = true ∧
      (Command.ofName? (ctx.resolveAlias "go")).isSome = true ∧
      ∃ ctx' events, ctx.restart = .ok (ctx', events) := by
  intro env turns ctx
  have haliases : ctx.aliases = [("go", "run")] := by decide +kernel
  have hsource : ctx.source.isSome = true := by decide +kernel
  obtain ⟨hkept, hresolve, -, -, hrestart, -⟩ := debugging_session_invariant
    ⟨.base16, rfl⟩ ⟨.utf8, rfl⟩ false 2 turns ctx rfl
  refine ⟨haliases, hkept, hkept.loaded.2 hsource, ?_, hrestart hsource⟩
  exact hresolve ("go", "run") (by rw [haliases]; exact List.mem_singleton.2 rfl)

/-- **A failed line changes nothing.** A line that reports a number other than zero, after whatever
lines and under whatever interrupts, leaves the whole session as it found it: the machine with its
runner, the program text and where it came from, the encodings and the aliases. Lines of which only
the first batch can be struck are dispatched as typed. -/
theorem failed_line_changes_nothing (json : Bool) (inputEncoding outputEncoding : Value)
    (batch : Int) (turns : List StruckTurn) (ctx : Context)
    (hctx : struckAfter (.fresh json inputEncoding outputEncoding batch) turns = ctx)
    (t : StruckTurn) (n : Int) (hstatus : (t.reply ctx).outcome = .status n) (hn : n ≠ 0) :
    (t.reply ctx).context = ctx ∧
      ∀ (t : Turn) (ctx : Context),
        (⟨t, []⟩ : StruckTurn).reply ctx = dispatch t.env ctx t.armed t.line := by
  refine ⟨?_, StruckTurn.reply_plain⟩
  have hsafe : ctx.Safe := by
    rw [← hctx]
    exact struckAfter_safe rfl turns
  rcases t.reply_cases ctx with ⟨c, args, -, hanswer⟩ | ⟨n', events, -, hreply⟩
  · exact (hanswer.failed hsafe hstatus hn).1
  · rw [hreply]

/-- Input that is no hexadecimal text, for a machine whose run was cut off. -/
theorem failed_line_changes_nothing_input :
    let env : Surroundings := ⟨⟨.folder [], [], Path.ofText "", []⟩, 0⟩
    let turns : List StruckTurn := [⟨⟨env, none, "source \x7d\x7b"⟩, []⟩,
      ⟨⟨env, none, "input 41ff"⟩, []⟩, ⟨⟨env, some 0, "run"⟩, []⟩]
    let ctx := struckAfter (.fresh false (.text "base16") (.text "utf-8") 2) turns
    let t : StruckTurn := ⟨⟨env, none, "input 4G"⟩, []⟩
    (t.reply ctx).outcome = .status 1 ∧ (t.reply ctx).context = ctx := by
  intro env turns ctx t
  have hstatus : (t.reply ctx).outcome = .status 1 := by decide +kernel
  exact ⟨hstatus, (failed_line_changes_nothing false (.text "base16") (.text "utf-8") 2 turns ctx rfl
    t 1 hstatus (by decide)).1⟩

end Debugger
end Dis
