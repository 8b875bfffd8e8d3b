import Dis.Debugger.Completion
import Dis.Proofs.Literals
import Dis.Proofs.TypedLines
import Dis.Proofs.WordsUnderWay
/-!
# Completions, accepted

A completion that is offered says how many characters at the end of the line it replaces: as many as
the word under way has, quotes and escapes left out. These are the characters that were typed for
the word only if it was typed as it is.

* `mem_completeWord`, `offered_of_completeWith`: what is offered, names and paths apart.
* `bare_of_lower`: the word under way is bare if something that starts like it is offered.
* `accepted_completion_iff`: which lines get the completion for the word under way.
* `accepted_completion_misses`: one that does not.
-/
namespace Dis

/-! ## Letter case -/

namespace Text

theorem mem_lowerFrom_of_done {x : Char} {done : List Char} (h : x ∈ done) (before cs : List Char) :
    x ∈ lowerFrom done before cs := by
  induction cs generalizing done before with
  | nil => exact List.mem_reverse.2 h
  | cons c cs ih => exact ih (List.mem_append_right _ h) (c :: before)

theorem mem_lowerFrom {c : Char} (hascii : c.toNat < 128) {cs : List Char} (hc : c ∈ cs)
    (done before : List Char) : c.toLower ∈ lowerFrom done before cs := by
  induction cs generalizing done before with
  | nil => cases hc
  | cons d cs ih =>
    rw [lowerFrom]
    rcases List.mem_cons.1 hc with rfl | hc
    · rw [lowerAt_ascii hascii]
      exact mem_lowerFrom_of_done (by simp) _ _
    · exact ih hc _ _

/-- The small letter of an ASCII character of a text is in the text made small. -/
theorem mem_lower {c : Char} (hascii : c.toNat < 128) {cs : List Char} (hc : c ∈ cs) :
    c.toLower ∈ lower cs :=
  mem_lowerFrom hascii hc [] []

/-- Quotes, backslashes and separators are ASCII characters without letter case. -/
theorem toLower_of_not_isBare {c : Char} (h : ShellWords.isBare c = false) :
    c.toNat < 128 ∧ c.toLower = c := by
  have hc : c = '\\' ∨ c = '\'' ∨ c = '"' ∨ c = ' ' ∨ c = '\t' ∨ c = '\r' ∨ c = '\n' := by
    simp only [ShellWords.isBare, ShellWords.isPlain, ShellWords.isSeparator] at h
    grind
  rcases hc with rfl | rfl | rfl | rfl | rfl | rfl | rfl <;> decide

/-- A text that starts like a bare one, in any letter case, is bare. -/
theorem bare_of_lower {cs ds : List Char} (hstarts : lower cs <+: lower ds)
    (hbare : ∀ c ∈ lower ds, ShellWords.isBare c = true) : ∀ c ∈ cs, ShellWords.isBare c = true := by
  intro c hc
  by_contra hnot
  obtain ⟨hascii, hsmall⟩ := toLower_of_not_isBare (Bool.eq_false_iff.2 hnot)
  have hmem := mem_lower hascii hc
  rw [hsmall] at hmem
  exact hnot (hbare c (hstarts.subset hmem))

end Text

namespace Debugger

open Text.ShellWords (isBare isSeparator split Closed)
open Text.ShellWords.State (after)

/-! ## What is offered -/

theorem mem_sortedOnce {text : String} {texts : List String} :
    text ∈ sortedOnce texts ↔ text ∈ texts := by
  rw [sortedOnce, List.mem_mergeSort, List.mem_eraseDups]

theorem mem_completeWord {candidates : List String} {word : String} {o : Completion} :
    o ∈ completeWord candidates word ↔ o.text ∈ candidates ∧
      Text.lower word.toList <+: Text.lower o.text.toList ∧ o.back = word.length := by
  simp only [completeWord, List.mem_map, List.mem_filter, mem_sortedOnce, List.isPrefixOf_iff_prefix]
  constructor
  · rintro ⟨text, ⟨htext, hstarts⟩, rfl⟩
    exact ⟨htext, hstarts, rfl⟩
  · rintro ⟨htext, hstarts, hback⟩
    exact ⟨o.text, ⟨htext, hstarts⟩, by rw [← hback]⟩

/-- A text that can be typed for a word as it is, in small letters too. -/
def isOfferable (text : String) : Bool :=
  !text.toList.isEmpty && text.toList.all isBare && (Text.lower text.toList).all isBare

theorem isOfferable_of_mem_allNames {name : String} (h : name ∈ Command.allNames) :
    isOfferable name = true := by
  rw [Command.allNames, List.mem_mergeSort, List.mem_flatMap] at h
  obtain ⟨c, -, hname⟩ := h
  have hall : c.names.all isOfferable = true := by cases c <;> decide +kernel
  exact List.all_eq_true.1 hall name hname

/-- A path is completed: the first word of several stands for `load`. -/
def CompletesPath (ctx : Context) (line : List Char) : Prop :=
  ∃ first second rest, typedWords line = first :: second :: rest ∧
    commandTyped ctx first = some .load

/-- What is offered, but for paths, can be typed as it is, and starts like the word under way. -/
theorem offered_of_completeWith {paths : PathCompleter} {ctx : Context} {line : List Char}
    {offers : List Completion} (h : completeWith paths ctx line = .ok offers)
    (hpath : ¬ CompletesPath ctx line) {o : Completion} (ho : o ∈ offers) :
    ∃ candidates : List String, (∀ text ∈ candidates, isOfferable text = true) ∧
      o ∈ completeWord candidates ((typedWords line).getLast?.getD "") := by
  have hdirections : ∀ text ∈ ["in", "out"], isOfferable text = true := by decide +kernel
  have hencodings : ∀ text ∈ Encoding.names, isOfferable text = true := by decide +kernel
  have hregisters : ∀ text ∈ ["C", "D"], isOfferable text = true := by decide +kernel
  unfold completeWith at h
  split at h
  · next hwords =>
    cases h
    exact ⟨_, fun _ => isOfferable_of_mem_allNames, by rw [hwords]; exact ho⟩
  · next word hwords =>
    cases h
    exact ⟨_, fun _ => isOfferable_of_mem_allNames, by rw [hwords]; exact ho⟩
  · next first rest hsingle hwords =>
    obtain ⟨second, others, rfl⟩ : ∃ second others, rest = second :: others := by
      cases rest with
      | nil => exact (hsingle rfl).elim
      | cons second others => exact ⟨second, others, rfl⟩
    rw [hwords, List.getLast?_cons_cons]
    split at h
    · next hload => exact absurd ⟨first, second, others, hwords, hload⟩ hpath
    · cases h
      refine ⟨_, fun text htext => ?_, ho⟩
      split at htext
      · exact hdirections text htext
      · exact hencodings text htext
    · cases h
      split at ho
      · exact ⟨_, hregisters, ho⟩
      · cases ho
    · cases h
      cases ho

/-! ## Accepting -/

/-- The line with a completion accepted at its end. -/
def Completion.accept (o : Completion) (line : List Char) : List Char :=
  line.take (line.length - o.back) ++ o.text.toList

/-- Whether the line ends in a blank, so that a new word is under way. -/
def endsBlank (line : List Char) : Bool := line.getLast?.any Text.isBlank

/-- The words of a line in which the word under way has been replaced. -/
def replaced (line : List Char) (ws : List String) (text : String) : List String :=
  (if endsBlank line then ws else ws.dropLast) ++ [text]

/-- The word under way can be seen at the end of the line: it is the end of the line as it is, or it
is new and a separator that is neither quoted nor escaped stands before it. -/
def InSight (line : List Char) (ws : List String) : Prop :=
  if endsBlank line then ∃ before c, line = before ++ [c] ∧ isSeparator c = true ∧ Closed before
  else (ws.getLast?.getD "").toList <:+ line

theorem getLast?_typedWords {line : List Char} {ws : List String} (hsplit : split line = .ok ws) :
    (typedWords line).getLast?.getD "" = if endsBlank line then "" else ws.getLast?.getD "" := by
  unfold typedWords endsBlank
  rw [hsplit]
  dsimp only
  split <;> simp

section Accepted

variable {line : List Char} {ws : List String} (hsplit : split line = .ok ws) {text : String}
  (hbare : ∀ c ∈ text.toList, isBare c = true) (hne : text.toList ≠ [])
include hsplit hbare hne

/-- A word is added behind a blank exactly if the blank separates words. -/
theorem split_behind_blank_iff (hend : endsBlank line = true) :
    split (line ++ text.toList) = .ok (ws ++ [text]) ↔
      ∃ before c, line = before ++ [c] ∧ isSeparator c = true ∧ Closed before := by
  have hextended := Text.ShellWords.split_extended_iff hsplit hbare hne
  rw [String.ofList_toList] at hextended
  rw [hextended]
  constructor
  · intro hmode
    rcases Text.ShellWords.eq_nil_or_closed hmode with rfl | hclosed
    · cases hend
    · exact hclosed
  · rintro ⟨before, c, rfl, hseparates⟩
    exact (Text.ShellWords.mode_after_eq_between_iff before c).2 hseparates

/-- The last word is replaced exactly if the line ends in it as it is. -/
theorem split_in_word_iff (hend : endsBlank line = false)
    (hword : ∀ c ∈ (ws.getLast?.getD "").toList, isBare c = true) :
    split (line.take (line.length - (ws.getLast?.getD "").length) ++ text.toList) =
        .ok (ws.dropLast ++ [text]) ↔
      (ws.getLast?.getD "").toList <:+ line := by
  rcases Text.ShellWords.split_eq_ok_cases.1 hsplit with ⟨hmode, rfl⟩ | ⟨hmode, rfl⟩
  · -- between words, only an empty line does not end in a blank
    rcases Text.ShellWords.eq_nil_or_closed hmode with rfl | ⟨before, c, rfl, hc, -⟩
    · have hextended := Text.ShellWords.split_extended_iff hsplit hbare hne
      rw [String.ofList_toList] at hextended
      exact iff_of_true (hextended.2 rfl) List.nil_suffix
    · rw [endsBlank, List.getLast?_concat, Option.any_some, Text.isBlank_of_isSeparator hc] at hend
      cases hend
  · rw [List.getLast?_concat, Option.getD_some, String.toList_ofList] at hword
    have hreplaced := Text.ShellWords.split_replaced_iff hbare hne hmode (by simpa using hword)
    rw [List.getLast?_concat, Option.getD_some, List.dropLast_concat, String.toList_ofList,
      String.length_ofList, List.length_reverse]
    rwa [String.ofList_toList] at hreplaced

end Accepted

/-- **Accepting a completion.** Let a line that can be cut be completed, and not to a path; what
completes the paths does not matter. With the completion accepted the line is cut into the same
words, but with the completion for the word under way, if and only if this word can be seen at the
end of the line. -/
theorem accepted_completion_iff {paths : PathCompleter} {ctx : Context} {line : List Char}
    {ws : List String} (hsplit : split line = .ok ws) {offers : List Completion}
    (hoffers : completeWith paths ctx line = .ok offers) (hpath : ¬ CompletesPath ctx line)
    {o : Completion} (ho : o ∈ offers) :
    split (o.accept line) = .ok (replaced line ws o.text) ↔ InSight line ws := by
  obtain ⟨candidates, hofferable, hmem⟩ := offered_of_completeWith hoffers hpath ho
  obtain ⟨htext, hstarts, hback⟩ := mem_completeWord.1 hmem
  obtain ⟨⟨hne, hbare⟩, hlower⟩ : (o.text.toList ≠ [] ∧ ∀ c ∈ o.text.toList, isBare c = true) ∧
      ∀ c ∈ Text.lower o.text.toList, isBare c = true := by
    simpa [isOfferable] using hofferable o.text htext
  rw [getLast?_typedWords hsplit] at hstarts hback
  unfold Completion.accept replaced InSight
  cases hend : endsBlank line with
  | true =>
    rw [hend, if_pos rfl] at hback
    rw [hback, if_pos rfl, if_pos rfl]
    simpa using split_behind_blank_iff hsplit hbare hne hend
  | false =>
    rw [hend, if_neg (by simp)] at hback hstarts
    rw [hback, if_neg (by simp), if_neg (by simp)]
    exact split_in_word_iff hsplit hbare hne hend (Text.bare_of_lower hstarts hlower)

/-- The third word of a line, typed as it is in capitals, behind quoted ones; the first is an alias
of `enc`. -/
theorem accepted_completion_iff_alias :
    let files : Files := ⟨.folder [], [], Path.ofText "", []⟩
    let ctx : Context := { aliases := [("code", "enc")] }
    let line := ['"', 'c', 'o', 'd', 'e', '"', ' ', '\'', 'i', 'n', '\'', ' ', 'B', 'A']
    let o : Completion := ⟨"base64", 2⟩
    (split line = .ok ["code", "in", "BA"] ∧
      complete files ctx line = .ok (completeWord Encoding.names "BA") ∧
      ¬ CompletesPath ctx line ∧ o ∈ completeWord Encoding.names "BA") ∧
    InSight line ["code", "in", "BA"] ∧ split (o.accept line) = .ok ["code", "in", "base64"] := by
  intro files ctx line o
  have hsplit : split line = .ok ["code", "in", "BA"] := rfl
  have hoffers : complete files ctx line = .ok (completeWord Encoding.names "BA") := rfl
  have hpath : ¬ CompletesPath ctx line := by
    rintro ⟨first, second, rest, hwords, hload⟩
    obtain rfl : "code" = first := by
      have hhead := congrArg List.head? hwords
      exact Option.some.inj hhead
    exact absurd hload (by decide +kernel)
  have ho : o ∈ completeWord Encoding.names "BA" :=
    mem_completeWord.2 ⟨by decide, by decide +kernel, rfl⟩
  have hsight : InSight line ["code", "in", "BA"] := by
    rw [InSight, if_neg (by decide +kernel)]
    decide +kernel
  exact ⟨⟨hsplit, hoffers, hpath, ho⟩, hsight,
    (@accepted_completion_iff (completePath files) ctx line _ hsplit _ hoffers hpath o ho).2 hsight⟩

/-- The last two characters of a quoted word are not the word: with them replaced, the quotation
stays open. -/
theorem accepted_completion_misses :
    let files : Files := ⟨.folder [], [], Path.ofText "", []⟩
    let ctx : Context := {}
    let line := ['"', 's', 't', '"']
    let o : Completion := ⟨"status", 2⟩
    split line = .ok ["st"] ∧ complete files ctx line = .ok (completeWord Command.allNames "st") ∧
      o ∈ completeWord Command.allNames "st" ∧ replaced line ["st"] o.text = ["status"] ∧
      split (o.accept line) = .error .openQuotation := by
  intro files ctx line o
  have hname : "status" ∈ Command.allNames := by
    rw [Command.allNames, List.mem_mergeSort]
    decide +kernel
  have haccept : o.accept line = ['"', 's', 's', 't', 'a', 't', 'u', 's'] := by decide +kernel
  exact ⟨rfl, rfl, mem_completeWord.2 ⟨hname, by decide +kernel, rfl⟩, rfl, by rw [haccept]; rfl⟩

end Debugger
end Dis
