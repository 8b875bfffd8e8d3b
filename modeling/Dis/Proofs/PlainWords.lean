import Dis.Text.ShellWords
/-!
# Lines without quotes

A line in which no quote and no backslash stands is cut at its separators and nowhere else. `words`
says what comes out, the maximal runs of characters between separators.

* `split_plain`: the splitter gives the words of a plain line, and never fails on one.
* `words_append`, `words_unbroken`: the words of two pieces with a separator between them, and of a
  piece without one.
* `flatten_words`: the words of a line, put together, are the line without its separators;
  `filter_intercalate`: and so is any line made of them by putting separators between.
-/
namespace Dis.Text.ShellWords

/-- Neither quote nor backslash. -/
def isPlain (c : Char) : Bool :=
  c ≠ '\\' && c ≠ '\'' && c ≠ '"'

/-- The maximal runs of characters that are no separators, `word` being the run under way, last
character first. -/
def wordsFrom (word : List Char) : List Char → List (List Char)
  | [] => if word.isEmpty then [] else [word.reverse]
  | c :: cs =>
    if isSeparator c then
      if word.isEmpty then wordsFrom [] cs else word.reverse :: wordsFrom [] cs
    else wordsFrom (c :: word) cs

/-- The maximal runs of characters that are no separators. -/
def words (cs : List Char) : List (List Char) := wordsFrom [] cs

/-! ## The splitter -/

/-- The splitter outside quotes, with a word under way or between words. -/
def State.unquoted (word : List Char) (done : List String) : State :=
  ⟨if word.isEmpty then .between else .word, word, done⟩

theorem accept_separator {c : Char} (hc : isSeparator c = true) (word : List Char)
    (done : List String) :
    (State.unquoted word done).accept c =
      .unquoted [] (if word.isEmpty then done else String.ofList word.reverse :: done) := by
  cases word <;> simp [State.unquoted, State.accept, State.close, hc]

theorem accept_plain {c : Char} (hc : isSeparator c = false) (hplain : isPlain c = true)
    (word : List Char) (done : List String) :
    (State.unquoted word done).accept c = .unquoted (c :: word) done := by
  obtain ⟨⟨hescape, hsingle⟩, hdouble⟩ :
      (c ≠ '\\' ∧ c ≠ '\'') ∧ c ≠ '"' := by simpa [isPlain] using hplain
  cases word <;> simp [State.unquoted, State.accept, State.push, hc, hescape, hsingle, hdouble]

theorem finish_unquoted (word : List Char) (done : List String) :
    (State.unquoted word done).finish =
      .ok (done.reverse ++ (wordsFrom word []).map String.ofList) := by
  cases word <;> simp [State.unquoted, State.finish, State.close, wordsFrom]

theorem finish_foldl_accept {cs : List Char} (hplain : ∀ c ∈ cs, isPlain c = true)
    (word : List Char) (done : List String) :
    (cs.foldl State.accept (.unquoted word done)).finish =
      .ok (done.reverse ++ (wordsFrom word cs).map String.ofList) := by
  induction cs generalizing word done with
  | nil => exact finish_unquoted word done
  | cons c cs ih =>
    have hcs : ∀ c ∈ cs, isPlain c = true := fun c' hc' => hplain c' (List.mem_cons_of_mem c hc')
    rw [List.foldl_cons, wordsFrom]
    cases hc : isSeparator c with
    | true =>
      rw [accept_separator hc, ih hcs, if_pos rfl]
      cases word <;> simp
    | false =>
      rw [accept_plain hc (hplain c List.mem_cons_self), ih hcs, if_neg (by simp)]

/-- A plain line is cut into its words. -/
theorem split_plain {cs : List Char} (hplain : ∀ c ∈ cs, isPlain c = true) :
    split cs = .ok ((words cs).map String.ofList) := by
  have h := finish_foldl_accept hplain [] []
  rwa [List.reverse_nil, List.nil_append] at h

/-! ## Words -/

theorem wordsFrom_append {c : Char} (hc : isSeparator c = true) (word cs ds : List Char) :
    wordsFrom word (cs ++ c :: ds) = wordsFrom word cs ++ wordsFrom [] ds := by
  induction cs generalizing word with
  | nil => cases word <;> simp [wordsFrom, hc]
  | cons b cs ih =>
    rw [List.cons_append, wordsFrom, wordsFrom]
    split
    · split
      · exact ih []
      · rw [ih [], List.cons_append]
    · exact ih (b :: word)

/-- The words of two pieces with a separator between them. -/
theorem words_append {c : Char} (hc : isSeparator c = true) (cs ds : List Char) :
    words (cs ++ c :: ds) = words cs ++ words ds :=
  wordsFrom_append hc [] cs ds

theorem wordsFrom_unbroken {cs : List Char} (h : ∀ c ∈ cs, isSeparator c = false)
    (word : List Char) : wordsFrom word cs = wordsFrom (cs.reverse ++ word) [] := by
  induction cs generalizing word with
  | nil => rfl
  | cons c cs ih =>
    have hstep : wordsFrom word (c :: cs) = wordsFrom (c :: word) cs := by
      rw [wordsFrom, h c List.mem_cons_self, if_neg (by simp)]
    rw [hstep, ih (fun c' hc' => h c' (List.mem_cons_of_mem c hc')), List.reverse_cons,
      List.append_assoc, List.singleton_append]

/-- A piece without separators is a word. -/
theorem words_unbroken {cs : List Char} (h : ∀ c ∈ cs, isSeparator c = false) (hne : cs ≠ []) :
    words cs = [cs] := by
  rw [words, wordsFrom_unbroken h, wordsFrom, if_neg (by simpa using hne)]
  simp

theorem flatten_wordsFrom (word cs : List Char) :
    (wordsFrom word cs).flatten = word.reverse ++ cs.filter (!isSeparator ·) := by
  induction cs generalizing word with
  | nil => cases word <;> simp [wordsFrom]
  | cons c cs ih =>
    rw [wordsFrom]
    cases hc : isSeparator c with
    | true =>
      rw [if_pos rfl, List.filter_cons_of_neg (by simp [hc])]
      cases word <;> simp [ih]
    | false =>
      rw [if_neg (by simp), ih, List.filter_cons_of_pos (by simp [hc])]
      simp

/-- Putting the words of a line together removes its separators and nothing else. -/
theorem flatten_words (cs : List Char) : (words cs).flatten = cs.filter (!isSeparator ·) :=
  flatten_wordsFrom [] cs

theorem not_isSeparator_of_mem_words {cs w : List Char} (hw : w ∈ words cs) :
    ∀ c ∈ w, isSeparator c = false := by
  intro c hc
  have hmem : c ∈ (words cs).flatten := List.mem_flatten.2 ⟨w, hw, hc⟩
  rw [flatten_words] at hmem
  simpa using (List.mem_filter.1 hmem).2

/-- Separators put between words are removed with the others. -/
theorem filter_intercalate {sep : List Char} (hsep : ∀ c ∈ sep, isSeparator c = true)
    {ws : List (List Char)} (hws : ∀ w ∈ ws, ∀ c ∈ w, isSeparator c = false) :
    (sep.intercalate ws).filter (!isSeparator ·) = ws.flatten := by
  have hgone : sep.filter (!isSeparator ·) = [] := by simpa using hsep
  have hkept : ∀ w ∈ ws, w.filter (!isSeparator ·) = w := by
    intro w hw
    exact List.filter_eq_self.2 fun c hc => by simp [hws w hw c hc]
  induction ws with
  | nil => rfl
  | cons w ws ih =>
    have hw := hkept w List.mem_cons_self
    have hrest := ih (fun w' hw' => hws w' (List.mem_cons_of_mem w hw'))
      (fun w' hw' => hkept w' (List.mem_cons_of_mem w hw'))
    cases ws with
    | nil => simpa using hw
    | cons w' ws =>
      rw [List.intercalate_cons_cons, List.filter_append, List.filter_append, hw, hgone, hrest]
      simp

end Dis.Text.ShellWords
