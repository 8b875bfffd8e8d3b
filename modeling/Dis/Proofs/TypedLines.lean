import Dis.Proofs.Answers
import Dis.Proofs.Lines
import Dis.Proofs.PlainWords
/-!
# Lines as they are typed

A line with a command name in front and plain text behind it runs the command that the name stands
for, with the words of that text as arguments.

* `Context.Means`: what a name stands for in a session; aliases come first.
* `trim_typed`: trimming a line takes nothing from its name.
* `lineCommand?_typed`, `lineCommand?_bare`: the command of a line and its arguments.
* `dispatch_of_command`: what the command replies, the line replies.
-/
namespace Dis

/-! ## Separators -/

namespace Text

theorem isBlank_of_isSeparator {c : Char} (h : ShellWords.isSeparator c = true) :
    isBlank c = true := by
  simp only [ShellWords.isSeparator, Bool.or_eq_true, decide_eq_true_eq] at h
  rcases h with ((rfl | rfl) | rfl) | rfl <;> decide

end Text

namespace Debugger

open Text (trim trimRight isBlank)
open Text.ShellWords (isPlain isSeparator)

/-! ## Names -/

/-- A name that can be typed as it is: not empty, without blanks, quotes and backslashes, and with
no `#` in front. -/
def isTypable (name : String) : Bool :=
  !name.toList.isEmpty && name.toList.all (fun c => !isBlank c && isPlain c) &&
    name.toList.head? ≠ some '#'

/-- Every name of every command can be typed. -/
theorem isTypable_of_mem_names (c : Command) {name : String} (h : name ∈ c.names) :
    isTypable name = true := by
  have hall : c.names.all isTypable = true := by cases c <;> decide +kernel
  exact List.all_eq_true.1 hall name h

/-- A name stands for a command in a session. -/
def Context.Means (ctx : Context) (name : String) (c : Command) : Prop :=
  Command.ofName? (ctx.resolveAlias name) = some c

instance (ctx : Context) (name : String) (c : Command) : Decidable (ctx.Means name c) :=
  inferInstanceAs (Decidable (_ = _))

section Typed

variable {name : String} (hname : isTypable name = true)
include hname

theorem isTypable_ne_nil : name.toList ≠ [] := by
  intro h
  simp [isTypable, h] at hname

theorem isTypable_head? : name.toList.head? ≠ some '#' := by
  simp only [isTypable, Bool.and_eq_true, decide_eq_true_eq] at hname
  exact hname.2

theorem not_isBlank_of_isTypable : ∀ c ∈ name.toList, isBlank c = false := by
  simp only [isTypable, Bool.and_eq_true, List.all_eq_true] at hname
  intro c hc
  simpa using (hname.1.2 c hc).1

theorem isPlain_of_isTypable : ∀ c ∈ name.toList, isPlain c = true := by
  simp only [isTypable, Bool.and_eq_true, List.all_eq_true] at hname
  intro c hc
  exact (hname.1.2 c hc).2

theorem words_name : Text.ShellWords.words name.toList = [name.toList] := by
  refine Text.ShellWords.words_unbroken (fun c hc => ?_) (isTypable_ne_nil hname)
  cases hsep : isSeparator c with
  | false => rfl
  | true =>
    have hblank := not_isBlank_of_isTypable hname c hc
    rw [Text.isBlank_of_isSeparator hsep] at hblank
    cases hblank

/-- Trimming takes nothing from the name, and from the text behind it what is blank at its end. -/
theorem trim_typed (rest : List Char) :
    trim (name.toList ++ ' ' :: rest) =
      if trimRight rest = [] then name.toList else name.toList ++ ' ' :: trimRight rest := by
  have hblank := not_isBlank_of_isTypable hname
  rw [trim, Text.trimLeft_append_of_ne_nil (isTypable_ne_nil hname) _ fun c hc =>
    hblank c (List.mem_of_mem_head? hc)]
  split
  · next hrest =>
    exact Text.trimRight_append_of_nil (Text.trimRight_cons_of_nil (by decide) hrest) fun c hc =>
      hblank c (List.mem_of_mem_getLast? hc)
  · next hrest =>
    have hspace := Text.trimRight_append_of_ne_nil [' '] hrest
    rw [List.singleton_append, List.singleton_append] at hspace
    rw [Text.trimRight_append_of_ne_nil _ (by rw [hspace]; simp), hspace]

end Typed

/-! ## Commands of lines -/

/-- A line that is not blank and does not start with `#` is not passed over. -/
theorem trimmed_not_skipped {line : String} (hline : trim line.toList ≠ [])
    (hcomment : (trim line.toList).head? ≠ some '#') :
    ((Text.trimmed line).isEmpty || decide ((Text.trimmed line).toList.head? = some '#')) =
      false := by
  have htrimmed : (Text.trimmed line).toList = trim line.toList := by
    rw [Text.trimmed, String.toList_ofList]
  have hne : Text.trimmed line ≠ "" := by
    intro hempty
    rw [← htrimmed, hempty] at hline
    exact hline rfl
  rw [htrimmed]
  simp [hne, hcomment]

/-- A plain line whose last word is no mark of a line that cannot be cut runs the command that its
first word stands for. -/
theorem lineCommand?_of_words {ctx : Context} {line name : String} {ws : List (List Char)}
    (hhead : (trim line.toList).head? ≠ some '#')
    (hplain : ∀ c ∈ trim line.toList, isPlain c = true)
    (hwords : Text.ShellWords.words (trim line.toList) = name.toList :: ws)
    (hmark : ∀ w, ws.getLast? = some w → ¬ parseErrorMark.toList <+: w) :
    lineCommand? ctx line =
      (Command.ofName? (ctx.resolveAlias name)).map (·, ws.map String.ofList) := by
  have hline : trim line.toList ≠ [] := by
    intro hempty
    rw [hempty] at hwords
    cases hwords
  have hsplit : splitCommand (Text.trimmed line) = name :: ws.map String.ofList := by
    rw [splitCommand, Text.trimmed, String.toList_ofList, Text.ShellWords.split_plain hplain, hwords,
      List.map_cons, String.ofList_toList]
  have hlast : (ws.map String.ofList).getLast?.filter (parseErrorMark.toList.isPrefixOf ·.toList) =
      none := by
    rw [List.getLast?_map]
    cases hw : ws.getLast? with
    | none => rfl
    | some w => simpa using hmark w hw
  unfold lineCommand?
  dsimp only
  rw [trimmed_not_skipped hline hhead, if_neg (by simp), hsplit]
  dsimp only
  rw [hlast]
  rfl

/-- A name and text behind it. -/
theorem lineCommand?_typed {ctx : Context} {name : String} (hname : isTypable name = true)
    {rest : String} (hplain : ∀ c ∈ rest.toList, isPlain c = true)
    (hmark : ∀ w, (Text.ShellWords.words (trimRight rest.toList)).getLast? = some w →
      ¬ parseErrorMark.toList <+: w) :
    lineCommand? ctx (name ++ " " ++ rest) = (Command.ofName? (ctx.resolveAlias name)).map
      (·, (Text.ShellWords.words (trimRight rest.toList)).map String.ofList) := by
  have hline : (name ++ " " ++ rest).toList = name.toList ++ ' ' :: rest.toList := by
    rw [String.toList_append, String.toList_append, List.append_assoc]
    rfl
  have htrim := trim_typed hname rest.toList
  have hnonempty := isTypable_ne_nil hname
  rw [← hline] at htrim
  refine lineCommand?_of_words ?_ ?_ ?_ hmark
  · rw [htrim]
    split
    · exact isTypable_head? hname
    · rw [List.head?_append, Option.or_of_isSome (by simpa using hnonempty)]
      exact isTypable_head? hname
  · intro c hc
    have hmem := Text.mem_of_mem_trim hc
    rw [hline, List.mem_append, List.mem_cons] at hmem
    rcases hmem with hc | rfl | hc
    · exact isPlain_of_isTypable hname c hc
    · decide
    · exact hplain c hc
  · rw [htrim]
    split
    · next hrest => rw [words_name hname, hrest]; rfl
    · rw [Text.ShellWords.words_append (by decide), words_name hname]; rfl

/-- A name alone. -/
theorem lineCommand?_bare {ctx : Context} {name : String} (hname : isTypable name = true) :
    lineCommand? ctx name = (Command.ofName? (ctx.resolveAlias name)).map (·, []) := by
  have hblank := not_isBlank_of_isTypable hname
  have htrim : trim name.toList = name.toList := Text.trim_eq_self
    ⟨fun c hc => hblank c (List.mem_of_mem_head? hc),
      fun c hc => hblank c (List.mem_of_mem_getLast? hc)⟩
  have hline := @lineCommand?_of_words ctx name name []
  rw [htrim] at hline
  exact hline (isTypable_head? hname) (isPlain_of_isTypable hname) (words_name hname) (by simp)

/-- A name and one word. -/
theorem lineCommand?_word {ctx : Context} {name word : String} (hname : isTypable name = true)
    (hword : isTypable word = true) :
    lineCommand? ctx (name ++ " " ++ word) =
      (Command.ofName? (ctx.resolveAlias name)).map (·, [word]) := by
  have htrim : trimRight word.toList = word.toList := by
    have hend := @Text.trimRight_append_of_nil word.toList [] rfl fun c hc =>
      not_isBlank_of_isTypable hword c (List.mem_of_mem_getLast? hc)
    rwa [List.append_nil] at hend
  have hline := @lineCommand?_typed ctx name hname word (isPlain_of_isTypable hword)
  rw [htrim, words_name hword, List.map_singleton, String.ofList_toList] at hline
  refine hline fun w hw hmark => ?_
  obtain rfl : word.toList = w := by simpa using hw
  obtain ⟨behind, hbehind⟩ := hmark
  exact isTypable_head? hword (by rw [← hbehind]; rfl)

theorem dispatch_of_command {env : Surroundings} {ctx : Context} {armed : Option Nat}
    {line : String} {c : Command} {args : List String} {reply : Reply}
    (hline : lineCommand? ctx line = some (c, args))
    (hreply : c.execute env ctx armed args = .ok reply) : dispatch env ctx armed line = reply :=
  @Turn.reply_of_command ⟨env, armed, line⟩ ctx c args reply hline hreply

end Debugger
end Dis
