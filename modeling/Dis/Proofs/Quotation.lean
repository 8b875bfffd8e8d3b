import Dis.Proofs.PlainWords
/-!
# Lines that can be cut

The splitter fails on a line with a quotation that is not closed, or with nothing behind a
backslash, and on no other line. `Closed` says which lines these are without running the splitter:
a closed line is put together from plain characters, escaped characters and closed quotations.

* `Mode.closes_cons`: reading one character keeps whether the rest can be read to its end.
* `split_eq_ok_iff`: so exactly the closed lines can be cut.
* `ne_nil_of_split`: a line that does not begin with a separator has a first word.
-/
namespace Dis.Text.ShellWords

/-! ## Closed lines -/

/-- What can stand between double quotes: a double quote or a backslash only where a backslash
escapes it, and something behind every backslash. -/
inductive DoubleQuoted : List Char → Prop
  | nil : DoubleQuoted []
  | plain {c : Char} {cs : List Char} (hquote : c ≠ '"') (hescape : c ≠ '\\')
      (h : DoubleQuoted cs) : DoubleQuoted (c :: cs)
  | escape (c : Char) {cs : List Char} (h : DoubleQuoted cs) : DoubleQuoted ('\\' :: c :: cs)

/-- Every quotation is closed, and a character stands behind every backslash that is not in single
quotes. -/
inductive Closed : List Char → Prop
  | nil : Closed []
  | plain {c : Char} {cs : List Char} (hplain : isPlain c = true) (h : Closed cs) :
      Closed (c :: cs)
  | escape (c : Char) {cs : List Char} (h : Closed cs) : Closed ('\\' :: c :: cs)
  | single {inner cs : List Char} (hinner : '\'' ∉ inner) (h : Closed cs) :
      Closed ('\'' :: (inner ++ '\'' :: cs))
  | double {inner cs : List Char} (hinner : DoubleQuoted inner) (h : Closed cs) :
      Closed ('"' :: (inner ++ '"' :: cs))

/-- What is left of a line can be read to its end, by a splitter that stands where the mode says. -/
def Mode.Closes : Mode → List Char → Prop
  | between, cs => Closed cs
  | word, cs => Closed cs
  | single, cs => ∃ inner rest, '\'' ∉ inner ∧ Closed rest ∧ cs = inner ++ '\'' :: rest
  | double, cs => ∃ inner rest, DoubleQuoted inner ∧ Closed rest ∧ cs = inner ++ '"' :: rest
  | escaped, cs => ∃ c rest, Closed rest ∧ cs = c :: rest
  | escapedDouble, cs =>
    ∃ c inner rest, DoubleQuoted inner ∧ Closed rest ∧ cs = c :: (inner ++ '"' :: rest)

/-! ## One character -/

section Cons

variable {c : Char} {cs : List Char}

theorem closed_cons_plain (hc : isPlain c = true) : Closed (c :: cs) ↔ Closed cs := by
  constructor
  · intro h
    cases h with
    | plain _ h => exact h
    | escape | single | double => cases hc
  · exact .plain hc

theorem closed_cons_escape : Closed ('\\' :: cs) ↔ Mode.escaped.Closes cs := by
  constructor
  · intro h
    cases h with
    | plain hc => cases hc
    | escape c h => exact ⟨c, _, h, rfl⟩
  · rintro ⟨c, rest, h, rfl⟩
    exact .escape c h

theorem closed_cons_single : Closed ('\'' :: cs) ↔ Mode.single.Closes cs := by
  constructor
  · intro h
    cases h with
    | plain hc => cases hc
    | single hinner h => exact ⟨_, _, hinner, h, rfl⟩
  · rintro ⟨inner, rest, hinner, h, rfl⟩
    exact .single hinner h

theorem closed_cons_double : Closed ('"' :: cs) ↔ Mode.double.Closes cs := by
  constructor
  · intro h
    cases h with
    | plain hc => cases hc
    | double hinner h => exact ⟨_, _, hinner, h, rfl⟩
  · rintro ⟨inner, rest, hinner, h, rfl⟩
    exact .double hinner h

theorem single_closes_cons :
    Mode.single.Closes (c :: cs) ↔ if c = '\'' then Closed cs else Mode.single.Closes cs := by
  constructor
  · rintro ⟨inner, rest, hinner, h, heq⟩
    cases inner with
    | nil => cases heq; exact h
    | cons d inner =>
      cases heq
      obtain ⟨hd, hinner⟩ : '\'' ≠ c ∧ '\'' ∉ inner := by simpa using hinner
      rw [if_neg (Ne.symm hd)]
      exact ⟨inner, rest, hinner, h, rfl⟩
  · split
    · next hc => exact fun h => ⟨[], cs, List.not_mem_nil, h, by rw [hc]; rfl⟩
    · next hc =>
      rintro ⟨inner, rest, hinner, h, rfl⟩
      exact ⟨c :: inner, rest, by simpa using ⟨Ne.symm hc, hinner⟩, h, rfl⟩

theorem double_closes_cons :
    Mode.double.Closes (c :: cs) ↔
      if c = '"' then Closed cs
      else if c = '\\' then Mode.escapedDouble.Closes cs
      else Mode.double.Closes cs := by
  constructor
  · rintro ⟨inner, rest, hinner, h, heq⟩
    cases hinner with
    | nil => cases heq; exact h
    | plain hquote hescape hinner =>
      cases heq
      rw [if_neg hquote, if_neg hescape]
      exact ⟨_, rest, hinner, h, rfl⟩
    | escape d hinner => cases heq; exact ⟨d, _, rest, hinner, h, rfl⟩
  · split
    · next hc => exact fun h => ⟨[], cs, .nil, h, by rw [hc]; rfl⟩
    · next hquote =>
      split
      · next hc =>
        rintro ⟨d, inner, rest, hinner, h, rfl⟩
        exact ⟨'\\' :: d :: inner, rest, .escape d hinner, h, by rw [hc]; rfl⟩
      · next hescape =>
        rintro ⟨inner, rest, hinner, h, rfl⟩
        exact ⟨c :: inner, rest, .plain hquote hescape hinner, h, rfl⟩

end Cons

theorem isPlain_of_isSeparator {c : Char} (hc : isSeparator c = true) : isPlain c = true := by
  simp only [isSeparator, Bool.or_eq_true, decide_eq_true_eq] at hc
  rcases hc with ((rfl | rfl) | rfl) | rfl <;> decide

/-- Reading a character keeps whether the line can be read to its end. -/
theorem Mode.closes_cons (s : State) (c : Char) (cs : List Char) :
    s.mode.Closes (c :: cs) ↔ (s.accept c).mode.Closes cs := by
  obtain ⟨mode, word, done⟩ := s
  cases mode with
  | between | word =>
    change Closed (c :: cs) ↔ _
    simp only [State.accept]
    split
    · next hc => exact closed_cons_plain (isPlain_of_isSeparator hc)
    split
    · next hc => rw [hc]; exact closed_cons_escape
    split
    · next hc => rw [hc]; exact closed_cons_single
    split
    · next hc => rw [hc]; exact closed_cons_double
    · next hescape hsingle hdouble =>
      exact closed_cons_plain (by simp [isPlain, hescape, hsingle, hdouble])
  | single =>
    rw [single_closes_cons]
    simp only [State.accept]
    split <;> rfl
  | double =>
    rw [double_closes_cons]
    simp only [State.accept]
    split
    · rfl
    split <;> rfl
  | escaped =>
    constructor
    · rintro ⟨d, rest, h, heq⟩
      cases heq
      exact h
    · exact fun h => ⟨c, cs, h, rfl⟩
  | escapedDouble =>
    have hmode : (State.accept ⟨.escapedDouble, word, done⟩ c).mode = .double := by
      simp only [State.accept]
      split <;> rfl
    rw [hmode]
    constructor
    · rintro ⟨d, inner, rest, hinner, h, heq⟩
      cases heq
      exact ⟨inner, rest, hinner, h, rfl⟩
    · rintro ⟨inner, rest, hinner, h, rfl⟩
      exact ⟨c, inner, rest, hinner, h, rfl⟩

/-! ## Whole lines -/

theorem exists_finish_iff (s : State) : (∃ words, s.finish = .ok words) ↔ s.mode.Closes [] := by
  obtain ⟨mode, word, done⟩ := s
  cases mode with
  | between | word => exact ⟨fun _ => .nil, fun _ => ⟨_, rfl⟩⟩
  | single | double | escaped | escapedDouble => simp [State.finish, Mode.Closes]

theorem exists_finish_foldl_iff (cs : List Char) (s : State) :
    (∃ words, (cs.foldl State.accept s).finish = .ok words) ↔ s.mode.Closes cs := by
  induction cs generalizing s with
  | nil => exact exists_finish_iff s
  | cons c cs ih => rw [List.foldl_cons, ih, Mode.closes_cons]

/-- Exactly the closed lines can be cut into words. -/
theorem split_eq_ok_iff (cs : List Char) : (∃ words, split cs = .ok words) ↔ Closed cs :=
  exists_finish_foldl_iff cs ⟨.between, [], []⟩

theorem split_eq_error_iff (cs : List Char) : (∃ e, split cs = .error e) ↔ ¬ Closed cs := by
  rw [← split_eq_ok_iff]
  cases split cs <;> simp

/-- A word is under way or done. -/
def State.Started (s : State) : Prop := s.mode ≠ .between ∨ s.words ≠ []

theorem State.Started.accept {s : State} (h : s.Started) (c : Char) : (s.accept c).Started := by
  obtain ⟨mode, word, done⟩ := s
  cases mode with
  | between =>
    have hdone : done ≠ [] := by simpa [State.Started] using h
    refine .inr ?_
    simp only [State.accept]
    (repeat' split) <;> exact hdone
  | word =>
    simp only [State.accept]
    split
    · exact .inr (List.cons_ne_nil _ _)
    · refine .inl ?_
      (repeat' split) <;> simp [State.push]
  | single | double | escaped | escapedDouble =>
    refine .inl ?_
    simp only [State.accept]
    (repeat' split) <;> simp [State.push]

theorem State.Started.foldl {s : State} (h : s.Started) (cs : List Char) :
    (cs.foldl State.accept s).Started := by
  induction cs generalizing s with
  | nil => exact h
  | cons c cs ih => exact ih (h.accept c)

theorem State.Started.ne_nil {s : State} (h : s.Started) {words : List String}
    (hwords : s.finish = .ok words) : words ≠ [] := by
  obtain ⟨mode, word, done⟩ := s
  cases mode with
  | between =>
    cases hwords
    have hdone : done ≠ [] := by simpa [State.Started] using h
    simpa using hdone
  | word => cases hwords; simp [State.close]
  | single | double | escaped | escapedDouble => cases hwords

/-- A line that does not begin with a separator has a first word. -/
theorem ne_nil_of_split {c : Char} {cs : List Char} (hc : isSeparator c = false)
    {words : List String} (h : split (c :: cs) = .ok words) : words ≠ [] := by
  have hstarted : (State.accept ⟨.between, [], []⟩ c).Started := by
    refine .inl ?_
    simp only [State.accept, hc, Bool.false_eq_true, if_false]
    (repeat' split) <;> simp [State.push]
  exact (hstarted.foldl cs).ne_nil h

end Dis.Text.ShellWords
