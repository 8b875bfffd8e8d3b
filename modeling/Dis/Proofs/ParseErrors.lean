import Dis.Proofs.InterpreterOutput
import Dis.Proofs.Quotation
import Dis.Proofs.TypedLines
/-!
# Parse errors

A line that cannot be cut into words is handed on as two words, the second a mark with the reason,
and the mark is looked for in the last argument of every line. So a line is reported as a parse
error in two cases: it cannot be cut, or it can and its last argument looks like the mark. Every
other line is looked up and run with the words it was cut into.

* `execute_reporting`: no command reports a parse error of its own. With status one it prints an
  error message, or nothing.
* `dispatch_of_uncut`, `dispatch_of_cut`: what becomes of a line in either case.
* `parse_error_iff`: when a line is reported as a parse error, and what is done with the others.
* `mark_typed_as_comment`: a line that can be cut is reported.
-/
namespace Dis
namespace Debugger

open Text (trim)
open Text.ShellWords (split Closed)

/-! ## Reports -/

/-- Status one, and what is printed begins as a parse error does. -/
def Reply.ReportsParseError (reply : Reply) : Prop :=
  reply.outcome = .status 1 ∧ "Parse error: ".toList <+: (outText reply.events).toList

instance (reply : Reply) : Decidable reply.ReportsParseError :=
  inferInstanceAs (Decidable (_ ∧ _))

theorem outText_outLine (text : String) : outText #[.outLine text] = text ++ "\n" := by
  simp [outText, Event.outText, Event.outLine]

theorem outText_log_outLine (r : Record) (text : String) :
    outText #[.log r, .outLine text] = text ++ "\n" := by
  simp [outText, Event.outText, Event.outLine]

/-- A text begins as its first piece does. -/
theorem head?_append {s : String} {c : Char} (h : s.toList.head? = some c) (t : String) :
    (s ++ t).toList.head? = some c := by
  rw [String.toList_append, List.head?_append, h, Option.some_or]

theorem not_reportsParseError_of_head? {reply : Reply} {text : String} {c : Char}
    (htext : outText reply.events = text ++ "\n") (hhead : text.toList.head? = some c)
    (hc : c ≠ 'P') : ¬ reply.ReportsParseError := by
  rintro ⟨-, behind, hbehind⟩
  have hfirst := head?_append hhead "\n"
  rw [← htext, ← hbehind] at hfirst
  exact hc (Option.some.inj hfirst).symm

theorem reportsParseError_outLine (ctx : Context) (armed : Option Nat) (reason : String) :
    (Reply.only ctx armed 1 #[.outLine s!"Parse error: {reason}"]).ReportsParseError := by
  refine ⟨rfl, ?_⟩
  change _ <+: (outText #[.outLine ("Parse error: " ++ reason)]).toList
  rw [outText_outLine, String.append_assoc, String.toList_append]
  exact List.prefix_append _ _

/-! ## Commands -/

/-- With status one, a command prints an error message, or nothing. -/
inductive Reporting (ctx : Context) : Except Failure Reply → Prop
  | failed (e : Failure) : Reporting ctx (.error e)
  | refused (armed : Option Nat) (status : Int) (message : String) :
      Reporting ctx (.ok (.refuse ctx armed status message))
  | silent {reply : Reply} (h : Quiet reply.events) : Reporting ctx (.ok reply)
  | answered {reply : Reply} (h : reply.outcome ≠ .status 1) : Reporting ctx (.ok reply)

theorem head?_bracketed {left : String} {c : Char} (h : left.toList.head? = some c) (right : String)
    (depth : Nat) (pieces : List String) :
    (Json.bracketed left right depth pieces).toList.head? = some c := by
  unfold Json.bracketed
  split
  · exact head?_append h _
  · exact head?_append (head?_append (head?_append (head?_append h _) _) _) _

/-- An error message begins with a brace or with `error`. -/
theorem refuse_not_reportsParseError (ctx : Context) (armed : Option Nat) (status : Int)
    (message : String) : ¬ (Reply.refuse ctx armed status message).ReportsParseError := by
  unfold Reply.refuse Context.error errorEvents
  split
  · refine not_reportsParseError_of_head? (outText_outLine _) ?_ (show '\x7b' ≠ 'P' by decide)
    rw [Json.render, Json.renderAt]
    exact head?_bracketed rfl _ _ _
  · exact not_reportsParseError_of_head? (outText_outLine _) (head?_append rfl _)
      (show 'e' ≠ 'P' by decide)

theorem Reporting.not_reportsParseError {ctx : Context} {reply : Reply}
    (h : Reporting ctx (.ok reply)) : ¬ reply.ReportsParseError := by
  cases h with
  | refused armed status message => exact refuse_not_reportsParseError ctx armed status message
  | silent hquiet =>
    rintro ⟨-, hprefix⟩
    rw [hquiet.outText_eq] at hprefix
    exact absurd hprefix (by decide)
  | answered houtcome => exact fun hreports => houtcome hreports.1

section Commands

variable (env : Surroundings) (ctx : Context) (armed : Option Nat) (args : List String)

theorem withArguments_reporting {σ : Type} (spec : Options.Spec σ) (start : σ)
    {run : σ → Except Failure Reply} (hrun : ∀ s, Reporting ctx (run s)) :
    Reporting ctx (withArguments ctx armed spec start args run) := by
  unfold withArguments
  split
  · exact hrun _
  · exact .silent quiet_empty
  · next why =>
    refine .silent fun e he => ?_
    simp only [Reply.only, Options.Spec.complain, List.mem_toArray, List.mem_cons,
      List.not_mem_nil, or_false] at he
    rcases he with rfl | rfl <;> rfl

theorem runLoad_reporting : Reporting ctx (runLoad env ctx armed args) := by
  refine withArguments_reporting _ _ _ _ _ fun text => ?_
  dsimp only
  split
  · exact .answered nofun
  · exact .refused ..
  · exact .refused ..
  · exact .failed _

theorem runSource_reporting : Reporting ctx (runSource ctx armed args) := by
  unfold runSource
  split
  · exact .refused ..
  split
  · exact .answered nofun
  · exact .refused ..
  · exact .failed _

theorem runRestart_reporting : Reporting ctx (runRestart ctx armed) := by
  unfold runRestart
  split
  · exact .answered nofun
  · exact .refused ..
  · exact .failed _

theorem runInput_reporting : Reporting ctx (runInput ctx armed args) := by
  unfold runInput
  split
  · exact .refused ..
  · exact .refused ..
  · exact .refused ..
  · exact .failed _
  · exact .answered nofun

theorem runEnc_reporting : Reporting ctx (runEnc ctx armed args) := by
  refine withArguments_reporting _ _ _ _ _ fun s => ?_
  dsimp only
  split
  · exact .answered nofun
  · exact .refused ..
  · exact .answered nofun

theorem runStep_reporting : Reporting ctx (runStep env ctx armed args) := by
  refine withArguments_reporting _ _ _ _ _ fun count => ?_
  split
  · exact .refused ..
  dsimp only
  split <;> exact .answered nofun

theorem runRun_reporting : Reporting ctx (runRun env ctx armed args) := by
  refine withArguments_reporting _ _ _ _ _ fun limit => ?_
  split
  · exact .refused ..
  dsimp only
  split <;> exact .answered nofun

theorem runRegs_reporting : Reporting ctx (runRegs ctx armed) := by
  unfold runRegs
  split
  · exact .refused ..
  · exact .answered nofun

theorem runMem_reporting : Reporting ctx (runMem ctx armed args) := by
  refine withArguments_reporting _ _ _ _ _ fun s => ?_
  split
  · exact .refused ..
  dsimp only
  split
  · exact .refused ..
  split
  · exact .refused ..
  · exact .answered nofun

theorem runOutput_reporting : Reporting ctx (runOutput ctx armed args) := by
  refine withArguments_reporting _ _ _ _ _ fun clear => ?_
  split
  · exact .refused ..
  split
  · exact .failed _
  · exact .answered nofun

theorem runStatus_reporting : Reporting ctx (runStatus ctx armed) := by
  unfold runStatus
  split <;> exact .answered nofun

theorem runHelp_reporting (binding : Binding) : Reporting ctx (runHelp binding ctx armed args) := by
  unfold runHelp
  split
  · exact .refused ..
  · split
    · exact .refused ..
    · exact .answered nofun
  · exact .answered nofun

theorem runAlias_reporting (binding : Binding) :
    Reporting ctx (runAlias binding ctx armed args) := by
  refine withArguments_reporting _ _ _ _ _ fun s => ?_
  split
  · exact .refused ..
  · exact .answered nofun

theorem runExit_reporting : Reporting ctx (runExit ctx armed args) :=
  withArguments_reporting _ _ _ _ _ fun _ => .answered nofun

theorem execute_reporting (c : Command) : Reporting ctx (c.execute env ctx armed args) := by
  cases c with
  | help => exact runHelp_reporting ctx armed args .bound
  | load => exact runLoad_reporting env ctx armed args
  | source => exact runSource_reporting ctx armed args
  | restart => exact runRestart_reporting ctx armed
  | input => exact runInput_reporting ctx armed args
  | enc => exact runEnc_reporting ctx armed args
  | step => exact runStep_reporting env ctx armed args
  | run => exact runRun_reporting env ctx armed args
  | regs => exact runRegs_reporting ctx armed
  | mem => exact runMem_reporting ctx armed args
  | output => exact runOutput_reporting ctx armed args
  | status => exact runStatus_reporting ctx armed
  | aliases => exact runAlias_reporting ctx armed args .bound
  | exit => exact runExit_reporting ctx armed args

end Commands

/-! ## Words -/

/-- The last argument looks like the mark of a line that cannot be cut. -/
def Marked (args : List String) : Prop :=
  ∃ mark, args.getLast? = some mark ∧ parseErrorMark.toList <+: mark.toList

/-- What is answered to a name with arguments: what the command it stands for replies, or that the
command failed, or that there is none. -/
inductive LookedUp (env : Surroundings) (ctx : Context) (armed : Option Nat) (name : String)
    (args : List String) : Reply → Prop
  | ran {c : Command} {reply : Reply} (hc : ctx.Means name c)
      (h : c.execute env ctx armed args = .ok reply) : LookedUp env ctx armed name args reply
  | failed {c : Command} {e : Failure} (hc : ctx.Means name c)
      (h : c.execute env ctx armed args = .error e) :
      LookedUp env ctx armed name args (.only ctx armed 1 #[.log .commandFailed,
        .outLine s!"Command '{ctx.resolveAlias name}' failed: {e.message}"])
  | unknown (h : ∀ c, ¬ ctx.Means name c) :
      LookedUp env ctx armed name args
        (.only ctx armed 1 #[.outLine s!"Unknown command: {ctx.resolveAlias name}"])

section Words

variable {env : Surroundings} {ctx : Context} {armed : Option Nat} {name : String}
  {args : List String}

theorem LookedUp.not_reportsParseError {reply : Reply}
    (h : LookedUp env ctx armed name args reply) : ¬ reply.ReportsParseError := by
  cases h with
  | @ran c reply hc h =>
    have hreporting := execute_reporting env ctx armed args c
    rw [h] at hreporting
    exact hreporting.not_reportsParseError
  | failed hc h =>
    exact not_reportsParseError_of_head? (outText_log_outLine _ _)
      (head?_append (head?_append (head?_append rfl _) _) _) (show 'C' ≠ 'P' by decide)
  | unknown h =>
    exact not_reportsParseError_of_head? (outText_outLine _) (head?_append rfl _)
      (show 'U' ≠ 'P' by decide)

theorem dispatchWords_of_mark {mark : String} (hlast : args.getLast? = some mark)
    (hmark : parseErrorMark.toList <+: mark.toList) :
    dispatchWords env ctx armed name args =
      .only ctx armed 1 #[.outLine s!"Parse error: {afterColon mark}"] := by
  have hfilter : args.getLast?.filter (parseErrorMark.toList.isPrefixOf ·.toList) = some mark := by
    rw [hlast, Option.filter_some, if_pos (List.isPrefixOf_iff_prefix.2 hmark)]
  unfold dispatchWords
  rw [hfilter]

theorem dispatchWords_lookedUp (hmarked : ¬ Marked args) :
    LookedUp env ctx armed name args (dispatchWords env ctx armed name args) := by
  have hfilter : args.getLast?.filter (parseErrorMark.toList.isPrefixOf ·.toList) = none := by
    cases hlast : args.getLast? with
    | none => rfl
    | some mark =>
      refine Option.filter_eq_none_iff.2 fun w hw hmark => hmarked ⟨w, ?_, ?_⟩
      · rw [hlast, hw]
      · exact List.isPrefixOf_iff_prefix.1 hmark
  unfold dispatchWords
  rw [hfilter]
  dsimp only
  cases hname : Command.ofName? (ctx.resolveAlias name) with
  | none => exact .unknown fun c hc => by rw [Context.Means, hname] at hc; cases hc
  | some c =>
    dsimp only
    cases hreply : c.execute env ctx armed args with
    | ok reply => exact .ran hname hreply
    | error e => exact .failed hname hreply

end Words

/-! ## Lines -/

/-- What stands behind the mark of a line that cannot be cut is the reason. -/
theorem afterColon_mark (e : Text.ShellWords.SplitError) :
    afterColon (parseErrorMark ++ ":" ++ e.message) = e.message := by
  cases e <;> decide +kernel

section Lines

variable {env : Surroundings} {ctx : Context} {armed : Option Nat} {line : String}
  (hline : trim line.toList ≠ [])
include hline

theorem words_ne_nil_of_trim {words : List String}
    (hsplit : split (trim line.toList) = .ok words) : words ≠ [] := by
  obtain ⟨c, cs, hcs⟩ := List.exists_cons_of_ne_nil hline
  have hblank : Text.isBlank c = false := by
    refine (Text.trim_trimmed line.toList).first c ?_
    rw [hcs]
    rfl
  have hsep : Text.ShellWords.isSeparator c = false := by
    cases hc : Text.ShellWords.isSeparator c with
    | false => rfl
    | true => rw [Text.isBlank_of_isSeparator hc] at hblank; cases hblank
  rw [hcs] at hsplit
  exact Text.ShellWords.ne_nil_of_split hsep hsplit

variable (hcomment : (trim line.toList).head? ≠ some '#')
include hcomment

theorem dispatch_of_words {name : String} {args : List String}
    (hwords : splitCommand (Text.trimmed line) = name :: args) :
    dispatch env ctx armed line = dispatchWords env ctx armed name args := by
  unfold dispatch
  dsimp only
  rw [trimmed_not_skipped hline hcomment, if_neg (by simp), hwords]

/-- A line that cannot be cut is reported with the reason. -/
theorem dispatch_of_uncut {e : Text.ShellWords.SplitError}
    (hsplit : split (trim line.toList) = .error e) :
    dispatch env ctx armed line = .only ctx armed 1 #[.outLine s!"Parse error: {e.message}"] := by
  have hwords : splitCommand (Text.trimmed line) =
      [Text.trimmed (Text.trimmed line), parseErrorMark ++ ":" ++ e.message] := by
    rw [splitCommand, Text.trimmed, String.toList_ofList, hsplit]
  have hmark : parseErrorMark.toList <+: (parseErrorMark ++ ":" ++ e.message).toList := by
    rw [String.append_assoc, String.toList_append]
    exact List.prefix_append _ _
  rw [dispatch_of_words hline hcomment hwords, dispatchWords_of_mark rfl hmark, afterColon_mark]

/-- A line that can be cut has a first word, and that one is dispatched with the others. -/
theorem dispatch_of_cut {words : List String} (hsplit : split (trim line.toList) = .ok words) :
    ∃ name args, words = name :: args ∧
      dispatch env ctx armed line = dispatchWords env ctx armed name args := by
  have hwords : splitCommand (Text.trimmed line) = words := by
    rw [splitCommand, Text.trimmed, String.toList_ofList, hsplit]
  obtain ⟨name, args, rfl⟩ := List.exists_cons_of_ne_nil (words_ne_nil_of_trim hline hsplit)
  exact ⟨name, args, rfl, dispatch_of_words hline hcomment hwords⟩

theorem dispatch_lookedUp {words : List String} (hsplit : split (trim line.toList) = .ok words) :
    ∃ name args, words = name :: args ∧
      (¬ Marked args → LookedUp env ctx armed name args (dispatch env ctx armed line)) := by
  obtain ⟨name, args, hwords, hdispatch⟩ := dispatch_of_cut hline hcomment hsplit
  refine ⟨name, args, hwords, fun hmarked => ?_⟩
  rw [hdispatch]
  exact dispatchWords_lookedUp hmarked

end Lines

/-- **Parse errors.** A line, trimmed, is cut unless a quotation in it is not closed or nothing
stands behind a backslash. It is reported as a parse error if it cannot be cut, and then with the
reason, or if its last argument begins with the mark of such lines. Any other line is looked up by
its first word and run with exactly the other words. -/
theorem parse_error_iff (env : Surroundings) (ctx : Context) (armed : Option Nat) {line : String}
    (hline : trim line.toList ≠ []) (hcomment : (trim line.toList).head? ≠ some '#') :
    ((∃ e, split (trim line.toList) = .error e) ↔ ¬ Closed (trim line.toList)) ∧
    ((dispatch env ctx armed line).ReportsParseError ↔
      (∃ e, split (trim line.toList) = .error e) ∨
        ∃ name args, split (trim line.toList) = .ok (name :: args) ∧ Marked args) ∧
    (∀ e, split (trim line.toList) = .error e →
      dispatch env ctx armed line = .only ctx armed 1 #[.outLine s!"Parse error: {e.message}"]) ∧
    (∀ words, split (trim line.toList) = .ok words → ∃ name args, words = name :: args ∧
      (¬ Marked args → LookedUp env ctx armed name args (dispatch env ctx armed line))) := by
  refine ⟨Text.ShellWords.split_eq_error_iff _, ⟨fun hreports => ?_, ?_⟩,
    fun e => dispatch_of_uncut hline hcomment, fun words => dispatch_lookedUp hline hcomment⟩
  · cases hsplit : split (trim line.toList) with
    | error e => exact .inl ⟨e, rfl⟩
    | ok words =>
      obtain ⟨name, args, rfl, hunmarked⟩ := dispatch_lookedUp hline hcomment hsplit
      refine .inr ⟨name, args, rfl, Classical.byContradiction fun hmarked => ?_⟩
      exact (hunmarked hmarked).not_reportsParseError hreports
  · rintro (⟨e, hsplit⟩ | ⟨name, args, hsplit, hmarked⟩)
    · rw [dispatch_of_uncut hline hcomment hsplit]
      exact reportsParseError_outLine ctx armed e.message
    · obtain ⟨mark, hlast, hmark⟩ := hmarked
      obtain ⟨name', args', hwords, hdispatch⟩ := dispatch_of_cut hline hcomment hsplit
      cases hwords
      rw [hdispatch, dispatchWords_of_mark hlast hmark]
      exact reportsParseError_outLine ctx armed (afterColon mark)

/-- The mark quoted in front of another argument is an argument like any other. -/
theorem parse_error_iff_quoted_mark :
    let env : Surroundings := ⟨⟨.folder [], [], Path.ofText "", []⟩, 0⟩
    let line := " mem \"#parse-error:\\\"\" 'C'\t"
    trim line.toList ≠ [] ∧ (trim line.toList).head? ≠ some '#' ∧ Closed (trim line.toList) ∧
      ¬ (dispatch env {} none line).ReportsParseError ∧
      LookedUp env {} none "mem" ["#parse-error:\"", "C"] (dispatch env {} none line) := by
  intro env line
  have hline : trim line.toList ≠ [] := by decide +kernel
  have hcomment : (trim line.toList).head? ≠ some '#' := by decide +kernel
  have htrim : trim line.toList = "mem \"#parse-error:\\\"\" 'C'".toList := by decide +kernel
  have hsplit : split (trim line.toList) = .ok ["mem", "#parse-error:\"", "C"] := by rw [htrim]; rfl
  have hmarked : ¬ Marked ["#parse-error:\"", "C"] := by
    rintro ⟨mark, hlast, hmark⟩
    cases hlast
    exact absurd hmark (by decide +kernel)
  obtain ⟨-, -, -, hcut⟩ := parse_error_iff env {} none hline hcomment
  obtain ⟨name, args, hwords, hlookedUp⟩ := hcut _ hsplit
  cases hwords
  exact ⟨hline, hcomment, (Text.ShellWords.split_eq_ok_iff _).1 ⟨_, hsplit⟩,
    (hlookedUp hmarked).not_reportsParseError, hlookedUp hmarked⟩

/-- A comment behind a program text that happens to name the mark: the line can be cut, but it is
reported as a parse error and not run. -/
theorem mark_typed_as_comment :
    let env : Surroundings := ⟨⟨.folder [], [], Path.ofText "", []⟩, 0⟩
    let line := "source _ (see #parse-error)"
    split (trim line.toList) = .ok ["source", "_", "(see", "#parse-error)"] ∧
      (dispatch env {} none line).ReportsParseError ∧
      ¬ LookedUp env {} none "source" ["_", "(see", "#parse-error)"]
        (dispatch env {} none line) := by
  intro env line
  have hreports : (dispatch env {} none line).ReportsParseError := by decide +kernel
  have htrim : trim line.toList = "source _ (see #parse-error)".toList := by decide +kernel
  exact ⟨by rw [htrim]; rfl, hreports, fun h => h.not_reportsParseError hreports⟩

end Debugger
end Dis
