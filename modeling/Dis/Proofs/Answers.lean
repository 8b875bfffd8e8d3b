import Dis.Proofs.Arguments
import Dis.Proofs.StruckCommands
import Dis.Proofs.Words
/-!
# What a debugger command can do

`Answered` lists everything a command can do to a session, with the outcome it reports. Whatever
has to hold of every session is shown once for each of its cases.

* `execute_answered`: a command that gives a reply has done one of the things listed.
* `dispatch_cases`: a line runs the command that `lineCommand?` finds in it, or none.
* `StruckTurn.reply_plain`, `contextAfter_eq`: plain lines are lines under interrupts.
* `struckAfter_invariant`: what every answer preserves, every sequence of lines preserves, whatever
  interrupts strike the batches.
-/
namespace Dis
namespace Debugger

/-! ## Answers -/

/-- What `step` reports. -/
def stepOutcome : Ending → Outcome
  | .done => .status 0
  | .fault _ => .status 2
  | .interrupted => .interrupted
  | .unfinished => .unfinished

/-- What `run` reports: an interrupt is not passed on. -/
def runOutcome : Ending → Outcome
  | .done => .status 0
  | .fault _ => .status 2
  | .interrupted => .status 0
  | .unfinished => .unfinished

/-- Whether `output` is asked to clear. -/
def outputClears (args : List String) : Bool :=
  match (Command.output.spec [{ names := ["--clear"], effect := .mark fun _ => true }] []).parse false
    args with
  | .parsed clear => clear
  | _ => false

/-- What a command with its arguments can do to a session, and what it then reports. -/
inductive Answered (env : Surroundings) (ctx : Context) (armed : Option Nat) (args : List String) :
    Command → Reply → Prop
  /-- Arguments are refused, or what the command needs is missing or wrong. -/
  | refused {c : Command} {events : Array Event} :
      Answered env ctx armed args c ⟨ctx, armed, .status 1, events⟩
  /-- A program file cannot be read. -/
  | unread {events : Array Event} :
      Answered env ctx armed args .load ⟨ctx, armed, .status 2, events⟩
  | shown {c : Command} {events : Array Event} :
      Answered env ctx armed args c ⟨ctx, armed, .status 0, events⟩
  | loaded {c : Command} {source : String} {path : Option Path} {m : Machine} {r : Runner}
      {events : Array Event} (hc : c = .load ∨ c = .source ∨ c = .restart)
      (hm : Machine.load source = .ok m) (hr : Runner.new m ctx.batch = .ok r) :
      Answered env ctx armed args c
        ⟨{ ctx with runner := some r, source := some source, sourcePath := path }, armed, .status 0,
          events⟩
  | fed {r : Runner} {encoding : Encoding} {text : String} {bytes : List UInt8} {m : Machine}
      {events : Array Event} (hr : ctx.runner = some r)
      (he : Encoding.find ctx.inputEncoding = .ok encoding)
      (hb : encoding.decode text.toList = .ok bytes)
      (hm : r.machine.feed (bytes.map fun b => .int b.toNat) = .ok m) :
      Answered env ctx armed args .input
        ⟨{ ctx with runner := some { r with machine := m } }, armed, .status 0, events⟩
  | drained {r : Runner} {events : Array Event} (hclears : outputClears args = true)
      (hr : ctx.runner = some r) :
      Answered env ctx armed args .output
        ⟨{ ctx with runner := some { r with machine := r.machine.drain } }, armed, .status 0,
          events⟩
  | readsAs {name : String} {events : Array Event} (hname : name ∈ Encoding.names) :
      Answered env ctx armed args .enc
        ⟨{ ctx with inputEncoding := .text name }, armed, .status 0, events⟩
  | writesAs {name : String} {events : Array Event} (hname : name ∈ Encoding.names) :
      Answered env ctx armed args .enc
        ⟨{ ctx with outputEncoding := .text name }, armed, .status 0, events⟩
  | aliased {s : AliasArguments} {ctx' : Context} {events : Array Event}
      (h : changeAliases .bound ctx s = .ok ctx') :
      Answered env ctx armed args .aliases ⟨ctx', armed, .status 0, events⟩
  | stepped {r : Runner} {call : RunnerCall} {strikes : List (Option Nat)} {count : Int}
      {events : Array Event} (hr : ctx.runner = some r)
      (hcall : (r.struckRun env.patience strikes (some count)).call = call) :
      Answered env ctx armed args .step
        ⟨{ ctx with runner := some call.runner }, call.armed, stepOutcome call.ending, events⟩
  | ran {r : Runner} {call : RunnerCall} {strikes : List (Option Nat)} {limit : Option Int}
      {events : Array Event} (hr : ctx.runner = some r)
      (hcall : (r.struckRun env.patience strikes limit).call = call) :
      Answered env ctx armed args .run
        ⟨{ ctx with runner := some call.runner }, call.armed, runOutcome call.ending, events⟩
  | left {code : Int} {events : Array Event} :
      Answered env ctx armed args .exit ⟨ctx, armed, .exit code, events⟩

/-- The session with a machine that was loaded from a text. -/
def Context.withProgram (ctx : Context) (source : String) (path : Option Path) (m : Machine) :
    Context :=
  { ctx with runner := some (.atRest m ctx.batch.toNat), source := some source, sourcePath := path }

section Commands

variable {env : Surroundings} {ctx : Context} {armed : Option Nat} {args : List String}
  {reply : Reply}

theorem withArguments_answered {σ : Type} {c : Command} {spec : Options.Spec σ} {start : σ}
    {run : σ → Except Failure Reply} (h : withArguments ctx armed spec start args run = .ok reply)
    (hrun : ∀ s reply, spec.parse start args = .parsed s → run s = .ok reply →
      Answered env ctx armed args c reply) :
    Answered env ctx armed args c reply := by
  unfold withArguments at h
  split at h
  · next hparse => exact hrun _ _ hparse h
  · cases h; exact .refused
  · cases h; exact .refused

theorem requireRunner_eq_ok {r : Runner} (h : ctx.requireRunner = .ok r) : ctx.runner = some r := by
  unfold Context.requireRunner at h
  split at h
  · next hr => cases h; exact hr
  · cases h

theorem loadSource_eq_ok {source : String} {path : Option Path} {ctx' : Context}
    {events : Array Event} (h : ctx.loadSource source path = .ok (ctx', events)) :
    ∃ m r, Machine.load source = .ok m ∧ Runner.new m ctx.batch = .ok r ∧
      ctx' = { ctx with runner := some r, source := some source, sourcePath := path } := by
  unfold Context.loadSource at h
  obtain ⟨m, hm, h⟩ := bind_eq_ok_iff.1 h
  obtain ⟨r, hr, h⟩ := bind_eq_ok_iff.1 h
  cases h
  exact ⟨m, r, mapError_eq_ok_iff.1 hm, mapError_eq_ok_iff.1 hr, rfl⟩

theorem loadSource_of_load {source : String} {m : Machine} (hm : Machine.load source = .ok m)
    (hbatch : 1 ≤ ctx.batch) (path : Option Path) :
    ∃ events, ctx.loadSource source path = .ok (ctx.withProgram source path m, events) := by
  have hnew : Runner.new m ctx.batch = .ok (.atRest m ctx.batch.toNat) :=
    Runner.new_eq_ok_iff.2 ⟨hbatch, rfl⟩
  unfold Context.loadSource
  rw [hm, mapError_ok, ok_bind, hnew, mapError_ok, ok_bind]
  exact ⟨_, rfl⟩

theorem loadFile_eq_ok {files : Files} {path : Path} {ctx' : Context} {events : Array Event}
    (h : ctx.loadFile files path = .ok (ctx', events)) :
    ∃ source path', ctx.loadSource source path' = .ok (ctx', events) := by
  unfold Context.loadFile at h
  obtain ⟨path', -, h⟩ := bind_eq_ok_iff.1 h
  obtain ⟨source, -, h⟩ := bind_eq_ok_iff.1 h
  exact ⟨source, some path', h⟩

theorem restart_eq_ok {ctx' : Context} {events : Array Event}
    (h : ctx.restart = .ok (ctx', events)) :
    ∃ source path, ctx.loadSource source path = .ok (ctx', events) := by
  unfold Context.restart at h
  split at h
  · cases h
  · exact ⟨_, _, h⟩

theorem feedText_eq_ok {text : String} {ctx' : Context} {count : Nat}
    (h : ctx.feedText text = .ok (ctx', count)) :
    ∃ r encoding bytes m, ctx.runner = some r ∧ Encoding.find ctx.inputEncoding = .ok encoding ∧
      encoding.decode text.toList = .ok bytes ∧
      r.machine.feed (bytes.map fun b => .int b.toNat) = .ok m ∧
      ctx' = { ctx with runner := some { r with machine := m } } := by
  unfold Context.feedText at h
  obtain ⟨r, hr, h⟩ := bind_eq_ok_iff.1 h
  obtain ⟨encoding, he, h⟩ := bind_eq_ok_iff.1 h
  obtain ⟨bytes, hb, h⟩ := bind_eq_ok_iff.1 h
  obtain ⟨m, hm, h⟩ := bind_eq_ok_iff.1 h
  cases h
  exact ⟨r, encoding, bytes, m, requireRunner_eq_ok hr, mapError_eq_ok_iff.1 he,
    mapError_eq_ok_iff.1 hb, mapError_eq_ok_iff.1 hm, rfl⟩

theorem loadSource_answered {c : Command} {source : String} {path : Option Path} {ctx' : Context}
    {logged events : Array Event} (hc : c = .load ∨ c = .source ∨ c = .restart)
    (h : ctx.loadSource source path = .ok (ctx', logged)) :
    Answered env ctx armed args c ⟨ctx', armed, .status 0, events⟩ := by
  obtain ⟨m, r, hm, hr, rfl⟩ := loadSource_eq_ok h
  exact .loaded hc hm hr

theorem runLoad_answered (h : runLoad env ctx armed args = .ok reply) :
    Answered env ctx armed args .load reply := by
  unfold runLoad at h
  refine withArguments_answered h fun text reply _ h => ?_
  dsimp only at h
  split at h
  · next hload =>
    obtain ⟨source, path, hsource⟩ := loadFile_eq_ok hload
    cases h
    exact loadSource_answered (.inl rfl) hsource
  · cases h; exact .unread
  · cases h; exact .refused
  · cases h

theorem runSource_answered (h : runSource ctx armed args = .ok reply) :
    Answered env ctx armed args .source reply := by
  unfold runSource at h
  split at h
  · cases h; exact .refused
  · split at h
    · next hload => cases h; exact loadSource_answered (.inr (.inl rfl)) hload
    · cases h; exact .refused
    · cases h

theorem runRestart_answered (h : runRestart ctx armed = .ok reply) :
    Answered env ctx armed args .restart reply := by
  unfold runRestart at h
  split at h
  · next hload =>
    obtain ⟨source, path, hsource⟩ := restart_eq_ok hload
    cases h
    exact loadSource_answered (.inr (.inr rfl)) hsource
  · cases h; exact .refused
  · cases h

theorem runInput_answered (h : runInput ctx armed args = .ok reply) :
    Answered env ctx armed args .input reply := by
  unfold runInput at h
  split at h
  · cases h; exact .refused
  · cases h; exact .refused
  · cases h; exact .refused
  · cases h
  · next hfeed =>
    obtain ⟨r, encoding, bytes, m, hr, he, hb, hm, rfl⟩ := feedText_eq_ok hfeed
    cases h
    exact .fed hr he hb hm

theorem runEnc_answered (h : runEnc ctx armed args = .ok reply) :
    Answered env ctx armed args .enc reply := by
  unfold runEnc at h
  refine withArguments_answered h fun s reply hparse h => ?_
  -- a name is put down only by its slot, which takes nothing but the names of the encodings
  have hnames : ∀ name, s.name = some name → name ∈ Encoding.names := by
    refine Options.Spec.parse_keeps (P := fun s => ∀ name, s.name = some name → name ∈ Encoding.names)
      ⟨by simp [Command.spec], ?_⟩ (by simp) hparse
    intro slot hslot text s₁ s₂ htake hs₁
    simp only [Command.spec, List.mem_cons, List.not_mem_nil, or_false] at hslot
    rcases hslot with rfl | rfl <;> simp only [Options.oneOf] at htake <;> split at htake <;>
      cases htake
    · exact hs₁
    · next hmem =>
      intro name hname
      cases hname
      exact List.contains_iff_mem.1 hmem
  dsimp only at h
  split at h
  · next name _ hname =>
    cases h
    split
    · exact .readsAs (hnames name hname)
    · exact .writesAs (hnames name hname)
  · cases h; exact .refused
  · cases h; exact .shown

theorem runnerReply_answered {σ : Type} {c : Command} {spec : Options.Spec σ} {start : σ}
    {answer : σ → Runner → Reply}
    (h : ∀ s r, ctx.runner = some r → Answered env ctx armed args c (answer s r)) :
    Answered env ctx armed args c (runnerReply ctx armed spec start args answer) := by
  unfold runnerReply
  split
  · split
    · exact .refused
    · next r hr => exact h _ r hr
  · exact .refused
  · exact .refused

theorem struckStep_answered (strikes : List (Option Nat)) :
    Answered env ctx (strikes.headD none) args .step (struckStep env ctx strikes args) := by
  refine runnerReply_answered fun count r hr => ?_
  have hstepped : ∀ events, Answered env ctx (strikes.headD none) args .step
      ⟨{ ctx with runner := some (r.struckRun env.patience strikes (some count)).call.runner },
        (r.struckRun env.patience strikes (some count)).call.armed,
        stepOutcome (r.struckRun env.patience strikes (some count)).call.ending, events⟩ :=
    fun events => .stepped hr rfl
  unfold stepReply
  dsimp only
  split <;> next hending => rw [hending] at hstepped; exact hstepped _

theorem struckRun_answered (strikes : List (Option Nat)) :
    Answered env ctx (strikes.headD none) args .run (struckRun env ctx strikes args) := by
  refine runnerReply_answered fun limit r hr => ?_
  have hran : ∀ events, Answered env ctx (strikes.headD none) args .run
      ⟨{ ctx with runner := some (r.struckRun env.patience strikes limit).call.runner },
        (r.struckRun env.patience strikes limit).call.armed,
        runOutcome (r.struckRun env.patience strikes limit).call.ending, events⟩ :=
    fun events => .ran hr rfl
  rw [struckBatches_eq limit r.steps 0 strikes #[] (Runner.fuelFor env.patience limit) r rfl _ rfl]
  unfold runReply
  dsimp only
  split <;> next hending => rw [Runner.struckRun, hending] at hran; exact hran _

theorem runStep_answered (h : runStep env ctx armed args = .ok reply) :
    Answered env ctx armed args .step reply := by
  rw [runStep_eq] at h
  cases h
  exact struckStep_answered [armed]

theorem runRun_answered (h : runRun env ctx armed args = .ok reply) :
    Answered env ctx armed args .run reply := by
  rw [runRun_eq] at h
  cases h
  exact struckRun_answered [armed]

theorem runRegs_answered (h : runRegs ctx armed = .ok reply) :
    Answered env ctx armed args .regs reply := by
  unfold runRegs at h
  split at h
  · cases h; exact .refused
  · cases h; exact .shown

theorem runMem_answered (h : runMem ctx armed args = .ok reply) :
    Answered env ctx armed args .mem reply := by
  unfold runMem at h
  refine withArguments_answered h fun s reply _ h => ?_
  dsimp only at h
  split at h
  · cases h; exact .refused
  · split at h
    · cases h; exact .refused
    · split at h
      · cases h; exact .refused
      · cases h; exact .shown

theorem runOutput_answered (h : runOutput ctx armed args = .ok reply) :
    Answered env ctx armed args .output reply := by
  unfold runOutput at h
  refine withArguments_answered h fun clear reply hparse h => ?_
  dsimp only at h
  split at h
  · cases h; exact .refused
  · next r hr =>
    split at h
    · cases h
    · cases h
      cases clear with
      | true =>
        have hclears : outputClears args = true := by rw [outputClears, hparse]
        exact .drained hclears (requireRunner_eq_ok hr)
      | false => exact .shown

theorem runStatus_answered (h : runStatus ctx armed = .ok reply) :
    Answered env ctx armed args .status reply := by
  unfold runStatus at h
  split at h
  · cases h; exact .shown
  · cases h; exact .shown

theorem runHelp_answered (h : runHelp .bound ctx armed args = .ok reply) :
    Answered env ctx armed args .help reply := by
  unfold runHelp at h
  split at h
  · cases h; exact .refused
  · split at h
    · cases h; exact .refused
    · cases h; exact .shown
  · cases h; exact .shown

theorem runAlias_answered (h : runAlias .bound ctx armed args = .ok reply) :
    Answered env ctx armed args .aliases reply := by
  unfold runAlias at h
  refine withArguments_answered h fun s reply _ h => ?_
  split at h
  · cases h; exact .refused
  · next hchange => cases h; exact .aliased hchange

theorem runExit_answered (h : runExit ctx armed args = .ok reply) :
    Answered env ctx armed args .exit reply := by
  unfold runExit at h
  refine withArguments_answered h fun code reply _ h => ?_
  cases h
  exact .left

/-- **What a command can do.** -/
theorem execute_answered {c : Command} (h : c.execute env ctx armed args = .ok reply) :
    Answered env ctx armed args c reply := by
  cases c with
  | help => exact runHelp_answered h
  | load => exact runLoad_answered h
  | source => exact runSource_answered h
  | restart => exact runRestart_answered h
  | input => exact runInput_answered h
  | enc => exact runEnc_answered h
  | step => exact runStep_answered h
  | run => exact runRun_answered h
  | regs => exact runRegs_answered h
  | mem => exact runMem_answered h
  | output => exact runOutput_answered h
  | status => exact runStatus_answered h
  | aliases => exact runAlias_answered h
  | exit => exact runExit_answered h

end Commands

/-! ## Lines -/

/-- The command that a line runs and its arguments. -/
def lineCommand? (ctx : Context) (line : String) : Option (Command × List String) :=
  let line := Text.trimmed line
  if line.isEmpty || line.toList.head? = some '#' then none
  else match splitCommand line with
    | [] => none
    | name :: args =>
      if (args.getLast?.filter (parseErrorMark.toList.isPrefixOf ·.toList)).isSome then none
      else (Command.ofName? (ctx.resolveAlias name)).map (·, args)

/-- A line runs its command and passes the reply on, or it leaves the session as it is and reports
zero or one: then it has no command, or one that fails. -/
theorem dispatch_cases (env : Surroundings) (ctx : Context) (armed : Option Nat) (line : String) :
    (∃ c args reply, lineCommand? ctx line = some (c, args) ∧
      c.execute env ctx armed args = .ok reply ∧ dispatch env ctx armed line = reply) ∨
    (∃ n events, (n = 0 ∨ n = 1) ∧
      dispatch env ctx armed line = ⟨ctx, armed, .status n, events⟩ ∧
      ∀ c args, lineCommand? ctx line = some (c, args) →
        ∃ e, c.execute env ctx armed args = .error e) := by
  unfold dispatch lineCommand?
  generalize Text.trimmed line = line
  dsimp only
  by_cases hblank : (line.isEmpty || decide (line.toList.head? = some '#')) = true
  · rw [if_pos hblank, if_pos hblank]
    exact .inr ⟨0, _, .inl rfl, rfl, by simp⟩
  · rw [if_neg hblank, if_neg hblank]
    cases splitCommand line with
    | nil => exact .inr ⟨0, _, .inl rfl, rfl, by simp⟩
    | cons name args =>
      dsimp only
      unfold dispatchWords
      cases args.getLast?.filter (parseErrorMark.toList.isPrefixOf ·.toList) with
      | some mark => exact .inr ⟨1, _, .inr rfl, rfl, by simp⟩
      | none =>
        simp only [Option.isSome_none, Bool.false_eq_true, if_false]
        cases Command.ofName? (ctx.resolveAlias name) with
        | none => exact .inr ⟨1, _, .inr rfl, rfl, by simp⟩
        | some c =>
          dsimp only
          cases hreply : c.execute env ctx armed args with
          | ok reply => exact .inl ⟨c, args, reply, rfl, hreply, rfl⟩
          | error e =>
            refine .inr ⟨1, _, .inr rfl, rfl, ?_⟩
            intro c' args' hc'
            cases hc'
            exact ⟨e, hreply⟩

/-- A line for a debugger, with what it finds around it. -/
structure Turn where
  env : Surroundings
  armed : Option Nat
  line : String

/-- The reply to a line. -/
def Turn.reply (t : Turn) (ctx : Context) : Reply :=
  dispatch t.env ctx t.armed t.line

/-- The session after lines. -/
def contextAfter (ctx : Context) (turns : List Turn) : Context :=
  turns.foldl (fun ctx t => (t.reply ctx).context) ctx

/-! ## Lines under interrupts -/

/-- A line of which every batch may be struck: `armed` strikes the first, `later` those after it. -/
structure StruckTurn extends Turn where
  later : List (Option Nat)

/-- Only `step` and `run` make batches. -/
def StruckTurn.reply (t : StruckTurn) (ctx : Context) : Reply :=
  match lineCommand? ctx t.line with
  | some (.step, args) => struckStep t.env ctx (t.armed :: t.later) args
  | some (.run, args) => struckRun t.env ctx (t.armed :: t.later) args
  | _ => t.toTurn.reply ctx

def struckAfter (ctx : Context) (turns : List StruckTurn) : Context :=
  turns.foldl (fun ctx t => (t.reply ctx).context) ctx

theorem struckAfter_cons (ctx : Context) (t : StruckTurn) (turns : List StruckTurn) :
    struckAfter ctx (t :: turns) = struckAfter (t.reply ctx).context turns := by
  simp only [struckAfter, List.foldl_cons]

theorem Turn.reply_of_command {t : Turn} {ctx : Context} {c : Command} {args : List String}
    {reply : Reply} (hline : lineCommand? ctx t.line = some (c, args))
    (hreply : c.execute t.env ctx t.armed args = .ok reply) : t.reply ctx = reply := by
  rw [Turn.reply]
  rcases dispatch_cases t.env ctx t.armed t.line with
    ⟨c', args', reply', hline', hreply', hdispatch⟩ | ⟨n, events, -, -, hfails⟩
  · rw [hline] at hline'
    cases hline'
    rw [hreply] at hreply'
    cases hreply'
    exact hdispatch
  · obtain ⟨e, he⟩ := hfails c args hline
    rw [hreply] at he
    cases he

/-- With nothing left to strike later batches, the reply is the plain one. -/
theorem StruckTurn.reply_plain (t : Turn) (ctx : Context) :
    (⟨t, []⟩ : StruckTurn).reply ctx = t.reply ctx := by
  unfold StruckTurn.reply
  split
  · next args hline => exact (Turn.reply_of_command hline (runStep_eq t.env ctx t.armed args)).symm
  · next args hline => exact (Turn.reply_of_command hline (runRun_eq t.env ctx t.armed args)).symm
  · rfl

theorem contextAfter_eq (ctx : Context) (turns : List Turn) :
    contextAfter ctx turns = struckAfter ctx (turns.map fun t => ⟨t, []⟩) := by
  simp only [contextAfter, struckAfter, List.foldl_map, StruckTurn.reply_plain]

/-- A line does what its command can do, or it leaves the session as it is. -/
theorem StruckTurn.reply_cases (t : StruckTurn) (ctx : Context) :
    (∃ c args, lineCommand? ctx t.line = some (c, args) ∧
      Answered t.env ctx t.armed args c (t.reply ctx)) ∨
    (∃ n events, (n = 0 ∨ n = 1) ∧ t.reply ctx = ⟨ctx, t.armed, .status n, events⟩) := by
  unfold StruckTurn.reply
  split
  · next args hline => exact .inl ⟨.step, args, hline, struckStep_answered (t.armed :: t.later)⟩
  · next args hline => exact .inl ⟨.run, args, hline, struckRun_answered (t.armed :: t.later)⟩
  · rw [Turn.reply]
    rcases dispatch_cases t.env ctx t.armed t.line with
      ⟨c, args, reply, hline, hreply, hdispatch⟩ | ⟨n, events, hn, hdispatch, -⟩
    · rw [hdispatch]
      exact .inl ⟨c, args, hline, execute_answered hreply⟩
    · exact .inr ⟨n, events, hn, hdispatch⟩

/-- What every answer preserves, every sequence of lines preserves. -/
theorem struckAfter_invariant {P : Context → Prop}
    (hanswer : ∀ env ctx armed args c reply, P ctx → Answered env ctx armed args c reply →
      P reply.context)
    {ctx : Context} (h : P ctx) (turns : List StruckTurn) : P (struckAfter ctx turns) := by
  induction turns generalizing ctx with
  | nil => exact h
  | cons t turns ih =>
    rw [struckAfter_cons]
    apply ih
    rcases t.reply_cases ctx with ⟨c, args, -, hreply⟩ | ⟨n, events, -, hreply⟩
    · exact hanswer _ _ _ _ _ _ h hreply
    · rw [hreply]
      exact h

end Debugger
end Dis
