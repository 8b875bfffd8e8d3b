import Dis.Proofs.Quotation
/-!
# The word under way

How a line is cut when the word at its end is replaced or a word is added behind it. The splitter
drops quotes and escapes, so the word it has gathered may be shorter than what was typed for it, and
cutting as many characters from the line as the word has may cut too few.

* `State.accept_cases`: a character closes the word under way, or adds one character to it at most.
* `words_of_gathered`: a piece that is no longer than the word at its end lies within that word;
  `word_of_gained`: and if it makes the word longer by its whole length, every character of it has
  been taken as it is.
* `split_append_bare_iff`: what comes out when bare characters are added to a line.
* `split_replaced_iff`: the word at the end is replaced exactly if the line ends in it as it is.
* `split_extended_iff`: a word is added exactly if the last character separates words.
-/
namespace Dis.Text.ShellWords

/-- A character that stands for itself outside quotes: no quote, no backslash and no separator. -/
def isBare (c : Char) : Bool := isPlain c && !isSeparator c

/-- Outside quotes, behind a backslash or not. -/
def Mode.isOutside : Mode → Bool
  | between | word | escaped => true
  | single | double | escapedDouble => false

namespace State

/-- The splitter at the end of a line. -/
def after (cs : List Char) : State := cs.foldl accept ⟨.between, [], []⟩

theorem after_append (cs ds : List Char) : after (cs ++ ds) = ds.foldl accept (after cs) :=
  List.foldl_append

/-- How many characters the word under way has, with the backslash in double quotes that may turn
out to belong to it. -/
def gathered (s : State) : Nat :=
  s.word.length + if s.mode = .escapedDouble then 1 else 0

/-! ## One character -/

/-- A character closes the word under way, or adds one character to it at most. -/
theorem accept_cases (s : State) (c : Char) :
    (s.mode = .word ∧ isSeparator c = true ∧ s.accept c = s.close) ∨
      ((s.accept c).words = s.words ∧ (s.accept c).gathered ≤ s.gathered + 1) := by
  obtain ⟨mode, word, done⟩ := s
  cases mode with
  | word =>
    by_cases hc : isSeparator c = true
    · exact .inl ⟨rfl, hc, by simp [accept, hc]⟩
    · refine .inr ?_
      simp only [accept, hc, Bool.false_eq_true, if_false]
      repeat' split
      all_goals simp [push, gathered]
  | between | single | double | escaped | escapedDouble =>
    refine .inr ?_
    simp only [accept]
    repeat' split
    all_goals simp [push, gathered]

theorem gathered_close (s : State) : s.close.gathered = 0 := rfl

/-- Outside quotes, only a character that is taken as it is makes the word longer. -/
theorem accept_of_gained {s : State} {c : Char} (hout : s.mode.isOutside = true)
    (h : s.word.length < (s.accept c).gathered) : s.accept c = ⟨.word, c :: s.word, s.words⟩ := by
  obtain ⟨mode, word, done⟩ := s
  cases mode with
  | between | word =>
    simp only [accept] at h ⊢
    repeat' split at h
    all_goals simp_all [push, close, gathered]
  | escaped => rfl
  | single | double | escapedDouble => cases hout

theorem accept_outside {s : State} {c : Char} (hout : s.mode.isOutside = true)
    (hc : isBare c = true) : s.accept c = ⟨.word, c :: s.word, s.words⟩ := by
  obtain ⟨mode, word, done⟩ := s
  simp only [isBare, isPlain, Bool.and_eq_true, decide_eq_true_eq, Bool.not_eq_true'] at hc
  cases mode with
  | between | word => simp [accept, push, hc]
  | escaped => rfl
  | single | double | escapedDouble => cases hout

theorem accept_inside {s : State} {c : Char} (hin : s.mode.isOutside = false)
    (hc : isBare c = true) : (s.accept c).mode.isOutside = false := by
  obtain ⟨mode, word, done⟩ := s
  simp only [isBare, isPlain, Bool.and_eq_true, decide_eq_true_eq, Bool.not_eq_true'] at hc
  cases mode with
  | between | word | escaped => cases hin
  | single | double => simp [accept, push, hc, Mode.isOutside]
  | escapedDouble =>
    simp only [accept]
    split <;> rfl

/-! ## Pieces of a line -/

theorem gathered_foldl_le (cs : List Char) (s : State) :
    (cs.foldl accept s).gathered ≤ s.gathered + cs.length := by
  induction cs generalizing s with
  | nil => exact Nat.le_refl _
  | cons c cs ih =>
    have hrest := ih (s.accept c)
    rw [List.foldl_cons, List.length_cons]
    rcases s.accept_cases c with ⟨-, -, hclose⟩ | ⟨-, hle⟩
    · rw [hclose, gathered_close] at hrest
      rw [hclose]
      omega
    · omega

/-- A word has no more characters than were typed. -/
theorem length_word_after (line : List Char) : (after line).word.length ≤ line.length := by
  have hgathered := gathered_foldl_le line ⟨.between, [], []⟩
  have hempty : gathered ⟨.between, [], []⟩ = 0 := rfl
  rw [hempty, Nat.zero_add] at hgathered
  exact Nat.le_trans (Nat.le_add_right _ _) hgathered

/-- A piece that is no longer than the word at its end lies within that word. -/
theorem words_of_gathered {cs : List Char} {s : State}
    (h : cs.length ≤ (cs.foldl accept s).gathered) : (cs.foldl accept s).words = s.words := by
  induction cs generalizing s with
  | nil => rfl
  | cons c cs ih =>
    rw [List.foldl_cons, List.length_cons] at h
    rw [List.foldl_cons]
    rcases s.accept_cases c with ⟨-, -, hclose⟩ | ⟨hwords, -⟩
    · -- behind the end of a word there is not enough left
      have hrest := gathered_foldl_le cs s.close
      rw [gathered_close] at hrest
      rw [hclose] at h
      omega
    · rw [ih (by omega), hwords]

/-- Outside quotes, a piece that makes the word longer by its whole length has been taken as it
is. -/
theorem word_of_gained {cs : List Char} {s : State} (hout : s.mode.isOutside = true)
    (h : (cs.foldl accept s).gathered = s.word.length + cs.length) :
    (cs.foldl accept s).word = cs.reverse ++ s.word := by
  induction cs generalizing s with
  | nil => rfl
  | cons c cs ih =>
    rw [List.foldl_cons, List.length_cons] at h
    have hrest := gathered_foldl_le cs (s.accept c)
    have htaken := accept_of_gained hout (show s.word.length < (s.accept c).gathered by omega)
    rw [htaken] at h
    rw [List.foldl_cons, htaken, ih rfl (by rw [h, List.length_cons]; omega), List.reverse_cons,
      List.append_assoc, List.singleton_append]

section Bare

variable {cs : List Char} (hbare : ∀ c ∈ cs, isBare c = true) {s : State}
include hbare

theorem foldl_outside (hne : cs ≠ []) (hout : s.mode.isOutside = true) :
    cs.foldl accept s = ⟨.word, cs.reverse ++ s.word, s.words⟩ := by
  induction cs generalizing s with
  | nil => exact absurd rfl hne
  | cons c cs ih =>
    have hcs : ∀ c' ∈ cs, isBare c' = true := fun c' hc' => hbare c' (List.mem_cons_of_mem c hc')
    rw [List.foldl_cons, accept_outside hout (hbare c List.mem_cons_self)]
    by_cases hnil : cs = []
    · rw [hnil]
      rfl
    · rw [ih hcs hnil rfl, List.reverse_cons, List.append_assoc, List.singleton_append]

theorem foldl_inside (hin : s.mode.isOutside = false) :
    (cs.foldl accept s).mode.isOutside = false := by
  induction cs generalizing s with
  | nil => exact hin
  | cons c cs ih =>
    exact ih (fun c' hc' => hbare c' (List.mem_cons_of_mem c hc'))
      (accept_inside hin (hbare c List.mem_cons_self))

/-- If bare characters are all there is of a word, they were read outside quotes and from its
beginning. -/
theorem fresh_of_foldl (hmode : (cs.foldl accept s).mode = .word)
    (hword : (cs.foldl accept s).word = cs.reverse) :
    s.mode.isOutside = true ∧ s.word = [] := by
  by_cases hnil : cs = []
  · subst hnil
    exact ⟨by rw [show s.mode = .word from hmode]; rfl, hword⟩
  · cases hout : s.mode.isOutside with
    | true =>
      rw [foldl_outside hbare hnil hout] at hword
      exact ⟨rfl, by simpa using hword⟩
    | false =>
      have hin := foldl_inside hbare hout
      rw [hmode] at hin
      cases hin

end Bare

theorem finish_inside {s : State} (hin : s.mode.isOutside = false) (ws : List String) :
    s.finish ≠ .ok ws := by
  obtain ⟨mode, word, done⟩ := s
  cases mode with
  | between | word | escaped => cases hin
  | single | double | escapedDouble => simp [finish]

/-- A line can be cut if it ends between words or in a word. -/
theorem finish_eq_ok_iff (s : State) (ws : List String) :
    s.finish = .ok ws ↔ (s.mode = .between ∧ ws = s.words.reverse) ∨
      (s.mode = .word ∧ ws = s.words.reverse ++ [String.ofList s.word.reverse]) := by
  obtain ⟨mode, word, done⟩ := s
  cases mode with
  | between | word => simp [finish, close, eq_comm]
  | single | double | escaped | escapedDouble => simp [finish]

theorem mode_accept_eq_between_iff (s : State) (c : Char) :
    (s.accept c).mode = .between ↔ isSeparator c = true ∧ (s.mode = .between ∨ s.mode = .word) := by
  obtain ⟨mode, word, done⟩ := s
  cases mode with
  | between | word =>
    simp only [accept]
    repeat' split
    all_goals simp_all [push, close]
  | single | double | escaped | escapedDouble =>
    simp only [accept]
    repeat' split
    all_goals simp [push]

/-- Between words there is no word under way. -/
theorem word_foldl {cs : List Char} {s : State} (hs : s.mode = .between → s.word = [])
    (h : (cs.foldl accept s).mode = .between) : (cs.foldl accept s).word = [] := by
  induction cs generalizing s with
  | nil => exact hs h
  | cons c cs ih =>
    refine ih (fun hmode => ?_) h
    obtain ⟨hc, hbetween | hword⟩ := (s.mode_accept_eq_between_iff c).1 hmode
    · simp [accept, hbetween, hc, hs hbetween]
    · simp [accept, hword, hc, close]

theorem word_after {cs : List Char} (h : (after cs).mode = .between) : (after cs).word = [] :=
  word_foldl (fun _ => rfl) h

end State

/-! ## Lines with bare characters behind them -/

open State (after after_append)

theorem split_eq_ok_cases {line : List Char} {ws : List String} :
    split line = .ok ws ↔ ((after line).mode = .between ∧ ws = (after line).words.reverse) ∨
      ((after line).mode = .word ∧
        ws = (after line).words.reverse ++ [String.ofList (after line).word.reverse]) :=
  State.finish_eq_ok_iff (after line) ws

/-- Bare characters become the end of the word under way, unless a quotation is open. -/
theorem split_append_bare_iff {line cs : List Char} (hbare : ∀ c ∈ cs, isBare c = true)
    (hne : cs ≠ []) (ws : List String) :
    split (line ++ cs) = .ok ws ↔ (after line).mode.isOutside = true ∧
      ws = (after line).words.reverse ++ [String.ofList ((after line).word.reverse ++ cs)] := by
  have hsplit : split (line ++ cs) = (cs.foldl State.accept (after line)).finish := by
    rw [← after_append]
    rfl
  rw [hsplit]
  cases hout : (after line).mode.isOutside with
  | true =>
    rw [State.foldl_outside hbare hne hout]
    simp [State.finish, State.close, eq_comm]
  | false => simp [State.finish_inside (State.foldl_inside hbare hout)]

section Replaced

variable {cs : List Char} (hbare : ∀ c ∈ cs, isBare c = true) (hne : cs ≠ [])
include hbare hne

/-- If a line ends in a word and in a piece that is as long as this word, others can be written for
the piece to replace the word exactly if the piece is the word. -/
theorem split_exchanged_iff {before piece : List Char} {s : State}
    (hs : after (before ++ piece) = s) (hmode : s.mode = .word)
    (hword : ∀ c ∈ s.word, isBare c = true) (hlength : piece.length = s.word.length) :
    split (before ++ cs) = .ok (s.words.reverse ++ [String.ofList cs]) ↔
      s.word.reverse = piece := by
  have hgathered : s.gathered = piece.length := by simp [State.gathered, hmode, hlength]
  rw [after_append] at hs
  subst hs
  -- the piece is read within the word
  have hwords := State.words_of_gathered (Nat.le_of_eq hgathered.symm)
  have hfresh : split (before ++ cs) =
        .ok ((piece.foldl State.accept (after before)).words.reverse ++ [String.ofList cs]) ↔
      (after before).mode.isOutside = true ∧ (after before).word = [] := by
    rw [split_append_bare_iff hbare hne, hwords]
    simp only [List.append_cancel_left_eq, List.cons.injEq, and_true, String.ofList_inj,
      List.self_eq_append_left, List.reverse_eq_nil_iff]
  rw [hfresh]
  constructor
  · rintro ⟨hout, hempty⟩
    have hgained := State.word_of_gained hout (by rw [hgathered, hempty, List.length_nil, Nat.zero_add])
    rw [hgained, hempty, List.append_nil, List.reverse_reverse]
  · intro hpiece
    have hplain : ∀ c ∈ piece, isBare c = true := by
      intro c hc
      rw [← hpiece, List.mem_reverse] at hc
      exact hword c hc
    exact State.fresh_of_foldl hplain hmode (List.reverse_eq_iff.1 hpiece)

/-- The word at the end of a line is replaced, by cutting as many characters as it has and writing
others, exactly if the line ends in the word as it is. -/
theorem split_replaced_iff {line : List Char} (hmode : (after line).mode = .word)
    (hword : ∀ c ∈ (after line).word, isBare c = true) :
    split (line.take (line.length - (after line).word.length) ++ cs) =
        .ok ((after line).words.reverse ++ [String.ofList cs]) ↔
      (after line).word.reverse <:+ line := by
  have hle := State.length_word_after line
  rw [List.suffix_iff_eq_drop, List.length_reverse]
  refine split_exchanged_iff hbare hne ?_ hmode hword ?_
  · rw [List.take_append_drop]
  · rw [List.length_drop]
    omega

end Replaced

/-- A word is added behind a line exactly if the splitter stands between words there. -/
theorem split_extended_iff {line cs : List Char} {ws : List String} (hsplit : split line = .ok ws)
    (hbare : ∀ c ∈ cs, isBare c = true) (hne : cs ≠ []) :
    split (line ++ cs) = .ok (ws ++ [String.ofList cs]) ↔ (after line).mode = .between := by
  rw [split_append_bare_iff hbare hne]
  rcases split_eq_ok_cases.1 hsplit with ⟨hbetween, rfl⟩ | ⟨hword, rfl⟩
  · rw [hbetween, State.word_after hbetween]
    simp [Mode.isOutside]
  · -- the new characters join the word at the end
    rw [hword]
    simp

/-- The splitter stands between words behind a separator that is neither quoted nor escaped. -/
theorem mode_after_eq_between_iff (before : List Char) (c : Char) :
    (after (before ++ [c])).mode = .between ↔ isSeparator c = true ∧ Closed before := by
  have hclosed : Closed before ↔ (after before).mode = .between ∨ (after before).mode = .word := by
    simp only [← split_eq_ok_iff, split_eq_ok_cases, exists_or, exists_and_left, exists_eq, and_true]
  rw [hclosed, after_append, List.foldl_cons, List.foldl_nil, State.mode_accept_eq_between_iff]

theorem eq_nil_or_closed {line : List Char} (hmode : (after line).mode = .between) :
    line = [] ∨ ∃ before c, line = before ++ [c] ∧ isSeparator c = true ∧ Closed before := by
  rcases List.eq_nil_or_concat line with hnil | ⟨before, c, hline⟩
  · exact .inl hnil
  · rw [List.concat_eq_append] at hline
    rw [hline] at hmode
    exact .inr ⟨before, c, hline, (mode_after_eq_between_iff before c).1 hmode⟩

end Dis.Text.ShellWords
