import Dis.Proofs.Answers
/-!
# JSON changes nothing but what is printed

Two sessions that differ only in whether replies are JSON are run side by side. Nearly every command
looks at that setting, so each is shown to do the same in both (`Alike`): it reports the same
outcome, leaves the same interrupt ready, and leaves sessions that again differ in nothing else.

* `execute_alike`: every command does the same in both.
* `StruckTurn.reply_alike`: so does every line, whatever interrupts strike its batches.
* `json_only_prints`: so does every line of a sequence.
-/
namespace Dis
namespace Debugger

/-! ## The setting -/

namespace Context

/-- The session with its replies in JSON, or not. -/
def withJson (ctx : Context) (json : Bool) : Context :=
  { ctx with json }

variable (ctx : Context) (json : Bool)

theorem withJson_runner : (ctx.withJson json).runner = ctx.runner := rfl

theorem withJson_requireRunner : (ctx.withJson json).requireRunner = ctx.requireRunner := rfl

theorem withJson_renderOutput : (ctx.withJson json).renderOutput = ctx.renderOutput := rfl

theorem withJson_resolveAlias (name : String) :
    (ctx.withJson json).resolveAlias name = ctx.resolveAlias name := rfl

/-- The setting is put down in the session that something leads to. -/
def setJson {α : Type} (x : Except Failure (Context × α)) : Except Failure (Context × α) :=
  x.map fun (ctx, a) => (ctx.withJson json, a)

theorem withJson_loadSource (source : String) (path : Option Path) :
    (ctx.withJson json).loadSource source path = setJson json (ctx.loadSource source path) := by
  have hbatch : (ctx.withJson json).batch = ctx.batch := rfl
  unfold loadSource
  rw [hbatch]
  cases Machine.load source with
  | error e => rfl
  | ok m =>
    rw [mapError_ok, ok_bind, ok_bind]
    cases Runner.new m ctx.batch with
    | error e => rfl
    | ok r => rfl

theorem withJson_loadFile (files : Files) (path : Path) :
    (ctx.withJson json).loadFile files path = setJson json (ctx.loadFile files path) := by
  unfold loadFile
  cases files.expandHome path with
  | error e => rfl
  | ok path =>
    rw [mapError_ok, ok_bind, ok_bind]
    cases files.readText path with
    | error e => rfl
    | ok source => exact withJson_loadSource ctx json source (some path)

theorem withJson_restart : (ctx.withJson json).restart = setJson json ctx.restart := by
  have hsource : (ctx.withJson json).source = ctx.source := rfl
  unfold restart
  rw [hsource]
  cases ctx.source with
  | none => rfl
  | some source => exact withJson_loadSource ctx json source ctx.sourcePath

theorem withJson_feedText (text : String) :
    (ctx.withJson json).feedText text = setJson json (ctx.feedText text) := by
  have hencoding : (ctx.withJson json).inputEncoding = ctx.inputEncoding := rfl
  unfold feedText
  rw [withJson_requireRunner, hencoding]
  cases ctx.requireRunner with
  | error e => rfl
  | ok r =>
    rw [ok_bind, ok_bind]
    cases Encoding.find ctx.inputEncoding with
    | error e => rfl
    | ok encoding =>
      rw [mapError_ok, ok_bind, ok_bind]
      cases encoding.decode text.toList with
      | error e => rfl
      | ok bytes =>
        rw [mapError_ok, ok_bind, ok_bind]
        cases r.machine.feed (bytes.map fun b => .int b.toNat) with
        | error e => rfl
        | ok m => rfl

theorem withJson_removeAlias (name : String) :
    (ctx.withJson json).removeAlias name = (ctx.removeAlias name).withJson json := rfl

theorem withJson_setAlias (name command : String) :
    (ctx.withJson json).setAlias name command = (ctx.setAlias name command).withJson json := by
  unfold setAlias
  rw [withJson_removeAlias]
  dsimp only
  split <;> rfl

end Context

theorem changeAliases_withJson (binding : Binding) (ctx : Context) (json : Bool)
    (s : AliasArguments) :
    changeAliases binding (ctx.withJson json) s =
      (changeAliases binding ctx s).map (·.withJson json) := by
  have haliases : (ctx.withJson json).aliases = ctx.aliases := rfl
  unfold changeAliases
  rw [haliases, Context.withJson_removeAlias, Context.withJson_setAlias]
  split
  · rfl
  split
  · rfl
  split
  · split <;> rfl
  split
  · rfl
  split <;> rfl

/-! ## Commands -/

/-- The second reply does what the first does, in a session with the setting given. -/
structure Reply.Alike (json : Bool) (x y : Reply) : Prop where
  context : y.context = x.context.withJson json
  armed : y.armed = x.armed
  outcome : y.outcome = x.outcome

/-- Both fail alike, or their replies do the same. -/
inductive Alike (json : Bool) : Except Failure Reply → Except Failure Reply → Prop
  | ok {x y : Reply} (h : x.Alike json y) : Alike json (.ok x) (.ok y)
  | error (e : Failure) : Alike json (.error e) (.error e)

section Commands

variable (env : Surroundings) (ctx : Context) (json : Bool) (armed : Option Nat)
  (args : List String)

theorem withArguments_alike {σ : Type} (spec : Options.Spec σ) (start : σ)
    {run run' : σ → Except Failure Reply} (h : ∀ s, Alike json (run s) (run' s)) :
    Alike json (withArguments ctx armed spec start args run)
      (withArguments (ctx.withJson json) armed spec start args run') := by
  unfold withArguments
  cases spec.parse start args with
  | parsed s => exact h s
  | help => exact .ok ⟨rfl, rfl, rfl⟩
  | refused why => exact .ok ⟨rfl, rfl, rfl⟩

theorem runLoad_alike :
    Alike json (runLoad env ctx armed args) (runLoad env (ctx.withJson json) armed args) := by
  unfold runLoad
  refine withArguments_alike _ _ _ _ _ _ fun text => ?_
  dsimp only
  rw [Context.withJson_loadFile]
  cases ctx.loadFile env.files (Path.ofText text) with
  | ok loaded => exact .ok ⟨rfl, rfl, rfl⟩
  | error e =>
    cases e with
    | program e => exact .ok ⟨rfl, rfl, rfl⟩
    | document e => cases e <;> first | exact .error _ | exact .ok ⟨rfl, rfl, rfl⟩
    | _ => exact .error _

theorem runSource_alike :
    Alike json (runSource ctx armed args) (runSource (ctx.withJson json) armed args) := by
  unfold runSource
  rw [Context.withJson_loadSource]
  split
  · exact .ok ⟨rfl, rfl, rfl⟩
  cases ctx.loadSource (" ".intercalate args) none with
  | ok loaded => exact .ok ⟨rfl, rfl, rfl⟩
  | error e =>
    cases e with
    | program e => exact .ok ⟨rfl, rfl, rfl⟩
    | _ => exact .error _

theorem runRestart_alike :
    Alike json (runRestart ctx armed) (runRestart (ctx.withJson json) armed) := by
  unfold runRestart
  rw [Context.withJson_restart]
  cases ctx.restart with
  | ok loaded => exact .ok ⟨rfl, rfl, rfl⟩
  | error e =>
    cases e with
    | noProgram => exact .ok ⟨rfl, rfl, rfl⟩
    | _ => exact .error _

theorem runInput_alike :
    Alike json (runInput ctx armed args) (runInput (ctx.withJson json) armed args) := by
  unfold runInput
  rw [Context.withJson_feedText]
  cases ctx.feedText (" ".intercalate args) with
  | ok fed => exact .ok ⟨rfl, rfl, rfl⟩
  | error e => cases e <;> first | exact .error _ | exact .ok ⟨rfl, rfl, rfl⟩

theorem runEnc_alike :
    Alike json (runEnc ctx armed args) (runEnc (ctx.withJson json) armed args) := by
  unfold runEnc
  refine withArguments_alike _ _ _ _ _ _ fun s => ?_
  dsimp only
  cases s.direction with
  | none => exact .ok ⟨rfl, rfl, rfl⟩
  | some direction =>
    cases s.name with
    | none => exact .ok ⟨rfl, rfl, rfl⟩
    | some name =>
      refine .ok ⟨?_, rfl, rfl⟩
      dsimp only
      split <;> rfl

theorem runRegs_alike : Alike json (runRegs ctx armed) (runRegs (ctx.withJson json) armed) := by
  unfold runRegs
  rw [Context.withJson_requireRunner]
  cases ctx.requireRunner with
  | error e => exact .ok ⟨rfl, rfl, rfl⟩
  | ok r => exact .ok ⟨rfl, rfl, rfl⟩

theorem runMem_alike :
    Alike json (runMem ctx armed args) (runMem (ctx.withJson json) armed args) := by
  unfold runMem
  refine withArguments_alike _ _ _ _ _ _ fun s => ?_
  rw [Context.withJson_requireRunner]
  cases ctx.requireRunner with
  | error e => exact .ok ⟨rfl, rfl, rfl⟩
  | ok r =>
    dsimp only
    cases addressOf r.machine (s.address.getD "C") with
    | none => exact .ok ⟨rfl, rfl, rfl⟩
    | some start =>
      dsimp only
      split <;> exact .ok ⟨rfl, rfl, rfl⟩

theorem runOutput_alike :
    Alike json (runOutput ctx armed args) (runOutput (ctx.withJson json) armed args) := by
  unfold runOutput
  refine withArguments_alike _ _ _ _ _ _ fun clear => ?_
  rw [Context.withJson_requireRunner, Context.withJson_renderOutput]
  cases ctx.requireRunner with
  | error e => exact .ok ⟨rfl, rfl, rfl⟩
  | ok r =>
    dsimp only
    cases ctx.renderOutput with
    | error e => exact .error e
    | ok text => cases clear <;> exact .ok ⟨rfl, rfl, rfl⟩

theorem runStatus_alike :
    Alike json (runStatus ctx armed) (runStatus (ctx.withJson json) armed) := by
  unfold runStatus
  rw [Context.withJson_runner]
  cases ctx.runner with
  | none => exact .ok ⟨rfl, rfl, rfl⟩
  | some r => exact .ok ⟨rfl, rfl, rfl⟩

theorem runHelp_alike (binding : Binding) :
    Alike json (runHelp binding ctx armed args)
      (runHelp binding (ctx.withJson json) armed args) := by
  unfold runHelp
  cases binding with
  | unbound => exact .ok ⟨rfl, rfl, rfl⟩
  | bound =>
    cases args with
    | nil => exact .ok ⟨rfl, rfl, rfl⟩
    | cons name rest =>
      dsimp only
      rw [Context.withJson_resolveAlias]
      cases Command.ofName? (ctx.resolveAlias name) with
      | none => exact .ok ⟨rfl, rfl, rfl⟩
      | some c => exact .ok ⟨rfl, rfl, rfl⟩

theorem runAlias_alike (binding : Binding) :
    Alike json (runAlias binding ctx armed args)
      (runAlias binding (ctx.withJson json) armed args) := by
  unfold runAlias
  refine withArguments_alike _ _ _ _ _ _ fun s => ?_
  rw [changeAliases_withJson]
  cases changeAliases binding ctx s with
  | error message => exact .ok ⟨rfl, rfl, rfl⟩
  | ok ctx' => exact .ok ⟨rfl, rfl, rfl⟩

theorem runExit_alike :
    Alike json (runExit ctx armed args) (runExit (ctx.withJson json) armed args) := by
  unfold runExit
  exact withArguments_alike _ _ _ _ _ _ fun code => .ok ⟨rfl, rfl, rfl⟩

/-! ## Commands that execute -/

theorem runnerReply_alike {σ : Type} (spec : Options.Spec σ) (start : σ)
    {answer answer' : σ → Runner → Reply} (h : ∀ s r, (answer s r).Alike json (answer' s r)) :
    (runnerReply ctx armed spec start args answer).Alike json
      (runnerReply (ctx.withJson json) armed spec start args answer') := by
  unfold runnerReply
  rw [Context.withJson_runner]
  cases spec.parse start args with
  | parsed s =>
    cases ctx.runner with
    | none => exact ⟨rfl, rfl, rfl⟩
    | some r => exact h s r
  | help => exact ⟨rfl, rfl, rfl⟩
  | refused why => exact ⟨rfl, rfl, rfl⟩

theorem struckStep_alike (strikes : List (Option Nat)) :
    (struckStep env ctx strikes args).Alike json
      (struckStep env (ctx.withJson json) strikes args) := by
  refine runnerReply_alike _ _ _ _ _ _ fun count r => ?_
  unfold stepReply
  dsimp only
  cases (r.struckRun env.patience strikes (some count)).call.ending with
  | _ => exact ⟨rfl, rfl, rfl⟩

theorem struckRun_alike (strikes : List (Option Nat)) :
    (struckRun env ctx strikes args).Alike json
      (struckRun env (ctx.withJson json) strikes args) := by
  refine runnerReply_alike _ _ _ _ _ _ fun limit r => ?_
  generalize struckBatches limit r.steps strikes #[] (Runner.fuelFor env.patience limit) r = loop
  obtain ⟨r', ending, armed, events⟩ := loop
  cases ending with
  | _ => exact ⟨rfl, rfl, rfl⟩

theorem runStep_alike :
    Alike json (runStep env ctx armed args) (runStep env (ctx.withJson json) armed args) := by
  rw [runStep_eq, runStep_eq]
  exact .ok (struckStep_alike env ctx json args [armed])

theorem runRun_alike :
    Alike json (runRun env ctx armed args) (runRun env (ctx.withJson json) armed args) := by
  rw [runRun_eq, runRun_eq]
  exact .ok (struckRun_alike env ctx json args [armed])

/-- Every command does the same, whether its reply is JSON or not. -/
theorem execute_alike (c : Command) :
    Alike json (c.execute env ctx armed args) (c.execute env (ctx.withJson json) armed args) := by
  cases c with
  | help => exact runHelp_alike ctx json armed args .bound
  | load => exact runLoad_alike env ctx json armed args
  | source => exact runSource_alike ctx json armed args
  | restart => exact runRestart_alike ctx json armed
  | input => exact runInput_alike ctx json armed args
  | enc => exact runEnc_alike ctx json armed args
  | step => exact runStep_alike env ctx json armed args
  | run => exact runRun_alike env ctx json armed args
  | regs => exact runRegs_alike ctx json armed
  | mem => exact runMem_alike ctx json armed args
  | output => exact runOutput_alike ctx json armed args
  | status => exact runStatus_alike ctx json armed
  | aliases => exact runAlias_alike ctx json armed args .bound
  | exit => exact runExit_alike ctx json armed args

/-! ## Lines -/

theorem dispatchWords_alike (name : String) :
    (dispatchWords env ctx armed name args).Alike json
      (dispatchWords env (ctx.withJson json) armed name args) := by
  unfold dispatchWords
  rw [Context.withJson_resolveAlias]
  cases args.getLast?.filter (parseErrorMark.toList.isPrefixOf ·.toList) with
  | some mark => exact ⟨rfl, rfl, rfl⟩
  | none =>
    dsimp only
    cases Command.ofName? (ctx.resolveAlias name) with
    | none => exact ⟨rfl, rfl, rfl⟩
    | some c =>
      dsimp only
      generalize hx : c.execute env ctx armed args = x
      generalize hy : c.execute env (ctx.withJson json) armed args = y
      have halike := execute_alike env ctx json armed args c
      rw [hx, hy] at halike
      cases halike with
      | ok h => exact h
      | error e => exact ⟨rfl, rfl, rfl⟩

theorem dispatch_alike (line : String) :
    (dispatch env ctx armed line).Alike json (dispatch env (ctx.withJson json) armed line) := by
  unfold dispatch
  dsimp only
  split
  · exact ⟨rfl, rfl, rfl⟩
  · cases splitCommand (Text.trimmed line) with
    | nil => exact ⟨rfl, rfl, rfl⟩
    | cons name args => exact dispatchWords_alike env ctx json armed args name

end Commands

theorem lineCommand?_withJson (ctx : Context) (json : Bool) (line : String) :
    lineCommand? (ctx.withJson json) line = lineCommand? ctx line := by
  simp only [lineCommand?, Context.withJson_resolveAlias]

theorem StruckTurn.reply_alike (t : StruckTurn) (ctx : Context) (json : Bool) :
    (t.reply ctx).Alike json (t.reply (ctx.withJson json)) := by
  unfold StruckTurn.reply
  rw [lineCommand?_withJson]
  split
  · next args _ => exact struckStep_alike t.env ctx json args (t.armed :: t.later)
  · next args _ => exact struckRun_alike t.env ctx json args (t.armed :: t.later)
  · exact dispatch_alike t.env ctx json t.armed t.line

theorem struckAfter_withJson (ctx : Context) (json : Bool) (turns : List StruckTurn) :
    struckAfter (ctx.withJson json) turns = (struckAfter ctx turns).withJson json := by
  induction turns generalizing ctx with
  | nil => rfl
  | cons t turns ih => rw [struckAfter_cons, struckAfter_cons, (t.reply_alike ctx json).context, ih]

/-- **JSON changes only what is printed.** Two sessions that differ in that setting alone are given
the same lines, in the same surroundings and with the same interrupts. They differ in that setting
alone at every point, and the next line reports the same in both and leaves the same interrupt
ready. Lines of which only the first batch can be struck are dispatched as typed. -/
theorem json_only_prints (ctx : Context) (json : Bool) (turns : List StruckTurn) (t : StruckTurn) :
    struckAfter (ctx.withJson json) turns = (struckAfter ctx turns).withJson json ∧
      (t.reply (struckAfter (ctx.withJson json) turns)).outcome =
        (t.reply (struckAfter ctx turns)).outcome ∧
      (t.reply (struckAfter (ctx.withJson json) turns)).armed =
        (t.reply (struckAfter ctx turns)).armed ∧
      (t.reply (struckAfter (ctx.withJson json) turns)).context =
        (t.reply (struckAfter ctx turns)).context.withJson json ∧
      ∀ (t : Turn) (ctx : Context),
        (⟨t, []⟩ : StruckTurn).reply ctx = dispatch t.env ctx t.armed t.line := by
  have hafter := struckAfter_withJson ctx json turns
  have halike := t.reply_alike (struckAfter ctx turns) json
  rw [hafter]
  exact ⟨rfl, halike.outcome, halike.armed, halike.context, StruckTurn.reply_plain⟩

end Debugger
end Dis
