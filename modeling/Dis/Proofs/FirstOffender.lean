import Dis.Proofs.Grammar
/-!
# Where a text is refused

A text that does not load is refused at its first offender: the first character outside comments
that is neither blank nor command nor opens a comment, or the command that finds memory full. Only
a text without an offender can be refused for a comment without an end.

`Row other s cmds` reads a text as commands, comments and other characters with the property
`other`; `Outside` lets every other character pass, so it says no more than that the text ends
outside comments and which commands it has there.

* `Row.split`: a text that ends outside comments can be cut off from any longer row.
* `Reader.Stands`: what the reader knows of the text it has read, its place included;
  `accept_stands_inside` and `accept_stands_outside` are one character more, `refused_of_readAll` is
  the rest of the text.
* `parse_error_iff_first_offender`: which error a text is refused with, and that nothing appended
  to a text with an offender changes it.
-/
namespace Dis.Program

/-- A row of commands, comments and other characters, and its commands. -/
inductive Row (other : Char → Prop) : List Char → List Char → Prop
  | nil : Row other [] []
  | command {c : Char} {s cmds : List Char} (hc : c ∈ commandChars) (h : Row other s cmds) :
      Row other (c :: s) (c :: cmds)
  | other {c : Char} {s cmds : List Char} (hc : c ∉ commandChars) (ho : c ≠ '(') (hother : other c)
      (h : Row other s cmds) : Row other (c :: s) cmds
  | comment {body s cmds : List Char} (hb : ')' ∉ body) (h : Row other s cmds) :
      Row other ('(' :: (body ++ ')' :: s)) cmds

/-- The text ends outside comments, and these are the commands it has outside them. -/
def Outside (s cmds : List Char) : Prop :=
  Row (fun _ => True) s cmds

/-- What is wrong with a character outside comments that has `count` commands before it. -/
inductive Offends (count : Nat) (c : Char) : Refusal → Prop
  | notInstruction (hb : c.toNat ∉ blankCodes) (hc : c ∉ commandChars) (ho : c ≠ '(') :
      Offends count c (.notInstruction c)
  | tooLong (hc : c ∈ commandChars) (hcount : count = 59049) : Offends count c .tooLong

/-- The character behind `before` stands outside comments and offends. -/
def OffenderAt (s before : List Char) (why : Refusal) : Prop :=
  ∃ c after cmds, s = before ++ c :: after ∧ Outside before cmds ∧ Offends cmds.length c why

/-- No offender stands before this one. -/
structure FirstOffender (s before : List Char) (why : Refusal) : Prop where
  offends : OffenderAt s before why
  first : ∀ earlier why', OffenderAt s earlier why' → before.length ≤ earlier.length

/-- The comment that opens behind `before` has no end. -/
def Unclosed (s before : List Char) : Prop :=
  ∃ body cmds, s = before ++ '(' :: body ∧ Outside before cmds ∧ ')' ∉ body

/-- The place of the character behind `before`: line feeds are counted wherever they stand, and
nothing else starts a line. -/
def placeAfter (before : List Char) : Place where
  line := 1 + before.count '\n'
  column := 1 + (before.reverse.takeWhile (· ≠ '\n')).length

/-! ## Rows -/

theorem written_iff_row (s cmds : List Char) :
    Written s cmds ↔ Row (fun c => c.toNat ∈ blankCodes) s cmds := by
  constructor
  · intro h
    induction h with
    | nil => exact .nil
    | blank hc _ ih =>
      refine .other (fun hcmd => command_not_blank hcmd hc) ?_ hc ih
      rintro rfl
      revert hc
      decide
    | command hc _ ih => exact .command hc ih
    | comment hb _ ih => exact .comment hb ih
  · intro h
    induction h with
    | nil => exact .nil
    | command hc _ ih => exact .command hc ih
    | other _ _ hc _ ih => exact .blank hc ih
    | comment hb _ ih => exact .comment hb ih

theorem Written.outside {s cmds : List Char} (h : Written s cmds) : Outside s cmds := by
  have hrow := (written_iff_row s cmds).1 h
  clear h
  unfold Outside
  induction hrow with
  | nil => exact .nil
  | command hc _ ih => exact .command hc ih
  | other hc ho _ _ ih => exact .other hc ho trivial ih
  | comment hb _ ih => exact .comment hb ih

theorem Written.append {s t cmds cmds' : List Char} (h : Written s cmds) (h' : Written t cmds') :
    Written (s ++ t) (cmds ++ cmds') := by
  induction h with
  | nil => exact h'
  | blank hc _ ih => exact .blank hc ih
  | command hc _ ih => exact .command hc ih
  | comment hb _ ih =>
    rw [List.cons_append, List.append_assoc]
    exact .comment hb ih

/-- The first closing parenthesis is where a comment ends. -/
theorem comment_end {body body' rest rest' : List Char} (h : ')' ∉ body) (h' : ')' ∉ body')
    (heq : body ++ ')' :: rest = body' ++ ')' :: rest') : body = body' ∧ rest = rest' := by
  induction body generalizing body' with
  | nil =>
    cases body' with
    | nil => simpa using heq
    | cons x body' =>
      injection heq with hx
      simp [← hx] at h'
  | cons x body ih =>
    cases body' with
    | nil =>
      injection heq with hx
      simp [hx] at h
    | cons y body' =>
      injection heq with hx heq
      simp only [List.mem_cons, not_or] at h h'
      obtain ⟨rfl, rfl⟩ := ih h.2 h'.2 heq
      exact ⟨by rw [hx], rfl⟩

/-- The first character of a row decides what comes first. -/
theorem row_cons {other : Char → Prop} {c : Char} {s cmds : List Char}
    (h : Row other (c :: s) cmds) :
    (c ∈ commandChars ∧ ∃ rest, cmds = c :: rest ∧ Row other s rest) ∨
    (c ∉ commandChars ∧ c ≠ '(' ∧ Row other s cmds) ∨
    (c = '(' ∧ ∃ body rest, ')' ∉ body ∧ s = body ++ ')' :: rest ∧ Row other rest cmds) := by
  cases h with
  | command hc h => exact .inl ⟨hc, _, rfl, h⟩
  | other hc ho _ h => exact .inr (.inl ⟨hc, ho, h⟩)
  | comment hb h => exact .inr (.inr ⟨rfl, _, _, hb, rfl, h⟩)

/-- A text that ends outside comments can be cut off from any longer row. -/
theorem Row.split {other other' : Char → Prop} {s t cmds cmds' : List Char} (h : Row other s cmds)
    (h' : Row other' (s ++ t) cmds') : ∃ more, cmds' = cmds ++ more ∧ Row other' t more := by
  have hopen : '(' ∉ commandChars := by decide
  induction h generalizing cmds' with
  | nil => exact ⟨cmds', rfl, h'⟩
  | command hc _ ih =>
    rw [List.cons_append] at h'
    rcases row_cons h' with ⟨-, rest, rfl, htail⟩ | ⟨hc', -⟩ | ⟨rfl, -⟩
    · obtain ⟨more, rfl, hmore⟩ := ih htail
      exact ⟨more, rfl, hmore⟩
    · exact absurd hc hc'
    · exact absurd hc hopen
  | other hc ho _ _ ih =>
    rw [List.cons_append] at h'
    rcases row_cons h' with ⟨hc', -⟩ | ⟨-, -, htail⟩ | ⟨rfl, -⟩
    · exact absurd hc' hc
    · exact ih htail
    · exact absurd rfl ho
  | comment hb _ ih =>
    rw [List.cons_append, List.append_assoc, List.cons_append] at h'
    rcases row_cons h' with ⟨hc', -⟩ | ⟨-, ho, -⟩ | ⟨-, body', rest, hb', heq, htail⟩
    · exact absurd hc' hopen
    · exact absurd rfl ho
    · obtain ⟨rfl, rfl⟩ := comment_end hb hb' heq
      exact ih htail

/-- A text that ends inside a comment does not end outside. -/
theorem not_outside_of_open {before body cmds : List Char} (h : Outside before cmds)
    (hb : ')' ∉ body) (cmds' : List Char) : ¬ Outside (before ++ '(' :: body) cmds' := by
  intro hopen
  obtain ⟨more, -, hrow⟩ := Row.split h hopen
  rcases row_cons hrow with ⟨hc, -⟩ | ⟨-, ho, -⟩ | ⟨-, body', rest, -, rfl, -⟩
  · revert hc; decide
  · exact ho rfl
  · simp at hb

/-- Among blanks, commands and comments no character offends, as long as memory has room. -/
theorem Written.not_offends {before rest earlier cmds cmds' : List Char} {c : Char} {why : Refusal}
    (h : Written before cmds) (hlen : cmds.length ≤ 59049) (hsplit : before = earlier ++ c :: rest)
    (hout : Outside earlier cmds') : ¬ Offends cmds'.length c why := by
  subst hsplit
  obtain ⟨more, rfl, hrow⟩ := Row.split hout ((written_iff_row _ _).1 h)
  have hw : Written (c :: rest) more := (written_iff_row _ _).2 hrow
  rw [written_cons_iff] at hw
  intro hoffends
  cases hoffends with
  | notInstruction hb hc ho =>
    rcases hw with ⟨hblank, -⟩ | ⟨hcmd, -⟩ | ⟨hopen, -⟩
    · exact hb hblank
    · exact hc hcmd
    · exact ho hopen
  | tooLong hc hcount =>
    rcases hw with ⟨hblank, -⟩ | ⟨-, tail, rfl, -⟩ | ⟨rfl, -⟩
    · exact command_not_blank hc hblank
    · rw [List.length_append, List.length_cons] at hlen
      omega
    · revert hc; decide

theorem Offends.unique {count : Nat} {c : Char} {why why' : Refusal} (h : Offends count c why)
    (h' : Offends count c why') : why = why' := by
  cases h with
  | notInstruction _ hc _ =>
    cases h' with
    | notInstruction _ _ _ => rfl
    | tooLong hc' _ => exact absurd hc' hc
  | tooLong hc _ =>
    cases h' with
    | notInstruction _ hc' _ => exact absurd hc hc'
    | tooLong _ _ => rfl

/-! ## The reader -/

/-- What the reader knows when it has read `before`. -/
structure Reader.Stands (r : Reader) (before : List Char) : Prop where
  line : r.line = 1 + before.count '\n'
  column : r.column = (before.reverse.takeWhile (· ≠ '\n')).length
  room : r.image.size ≤ capacity
  outside : r.comment = none → ∃ cmds, Written before cmds ∧ r.image.size = cmds.length
  inside : ∀ p, r.comment = some p → ∃ outer body cmds, before = outer ++ '(' :: body ∧
    ')' ∉ body ∧ Written outer cmds ∧ r.image.size = cmds.length ∧ p = placeAfter outer

/-- The place of the last character read is that of the character behind what was read before. -/
theorem advance_place {r : Reader} {before : List Char} {c : Char} (h : r.Stands before)
    (hc : c ≠ '\n') : (r.advance c).place = placeAfter before := by
  unfold Reader.advance Reader.place placeAfter
  rw [if_neg hc]
  simp only [h.line, h.column, Place.mk.injEq, true_and]
  omega

theorem advance_line {r : Reader} {before : List Char} (h : r.Stands before) (c : Char) :
    (r.advance c).line = 1 + (before ++ [c]).count '\n' := by
  unfold Reader.advance
  by_cases hc : c = '\n'
  · subst hc
    simp [h.line]
    omega
  · simp [hc, h.line]

theorem advance_column {r : Reader} {before : List Char} (h : r.Stands before) (c : Char) :
    (r.advance c).column = ((before ++ [c]).reverse.takeWhile (· ≠ '\n')).length := by
  unfold Reader.advance
  by_cases hc : c = '\n'
  · subst hc
    simp
  · simp [hc, h.column]

/-- The text is refused at its first offender, or for a comment without an end. -/
inductive Refused (s : List Char) : ParseError → Prop
  | offender {before after cmds : List Char} {c : Char} {why : Refusal}
      (hs : s = before ++ c :: after) (hw : Written before cmds) (hlen : cmds.length ≤ 59049)
      (ho : Offends cmds.length c why) : Refused s ⟨why, placeAfter before⟩
  | unclosed {before body cmds : List Char} (hs : s = before ++ '(' :: body)
      (hw : Written before cmds) (hlen : cmds.length ≤ 59049) (hb : ')' ∉ body) :
      Refused s ⟨.openComment, placeAfter before⟩

theorem ne_newline_of_not_blank {c : Char} (h : c.toNat ∉ blankCodes) : c ≠ '\n' := by
  rintro rfl
  exact h (by decide)

/-- Inside a comment one character more is read, whatever it is. -/
theorem accept_stands_inside {r : Reader} {before : List Char} {p : Place} (h : r.Stands before)
    (hr : r.comment = some p) (c : Char) :
    ∃ r', (r.advance c).accept c = .ok r' ∧ r'.Stands (before ++ [c]) := by
  obtain ⟨outer, body, cmds, rfl, hb, hw, hsize, hp⟩ := h.inside p hr
  have hcomment : (r.advance c).comment = some p := by rw [advance_comment, hr]
  have himage : (r.advance c).image = r.image := advance_image r c
  refine ⟨_, accept_in_comment _ c hcomment, ?_⟩
  by_cases hclose : c = ')'
  · rw [if_pos hclose]
    refine ⟨advance_line h c, advance_column h c, himage ▸ h.room, ?_, by simp⟩
    intro _
    have hwritten := hw.append (Written.comment hb .nil)
    exact ⟨cmds, by simpa [hclose] using hwritten, himage ▸ hsize⟩
  · rw [if_neg hclose]
    refine ⟨advance_line h c, advance_column h c, himage ▸ h.room, by simp [hr], ?_⟩
    intro p' hp'
    rw [hcomment] at hp'
    cases hp'
    exact ⟨outer, body ++ [c], cmds, by simp, by simp [hb, Ne.symm hclose], hw, himage ▸ hsize, hp⟩

/-- Outside comments one character more is read, or it is an offender. -/
theorem accept_stands_outside {r : Reader} {before : List Char} (h : r.Stands before)
    (hr : r.comment = none) (c : Char) :
    (∃ r', (r.advance c).accept c = .ok r' ∧ r'.Stands (before ++ [c])) ∨
    (∃ cmds why, (r.advance c).accept c = .error ⟨why, placeAfter before⟩ ∧
      Written before cmds ∧ cmds.length ≤ 59049 ∧ Offends cmds.length c why) := by
  obtain ⟨cmds, hw, hsize⟩ := h.outside hr
  have hcomment : (r.advance c).comment = none := by rw [advance_comment, hr]
  have himage : (r.advance c).image = r.image := advance_image r c
  have hroom := h.room
  rw [capacity_eq] at hroom
  by_cases hblank : c.toNat ∈ blankCodes
  · left
    refine ⟨_, accept_blank _ hcomment hblank, advance_line h c, advance_column h c,
      himage ▸ h.room, ?_, by simp [hr]⟩
    intro _
    have hwritten := hw.append (Written.blank hblank .nil)
    exact ⟨cmds, by simpa using hwritten, himage ▸ hsize⟩
  have hplace := advance_place h (ne_newline_of_not_blank hblank)
  by_cases hopen : c = '('
  · left
    subst hopen
    refine ⟨_, accept_open _ hcomment, advance_line h _, advance_column h _, himage ▸ h.room,
      by simp, ?_⟩
    intro p hp
    cases hp
    exact ⟨before, [], cmds, rfl, by simp, hw, himage ▸ hsize, hplace⟩
  by_cases hcmd : c ∈ commandChars
  · rw [accept_command _ hcomment hcmd, himage, capacity_eq]
    by_cases hfull : 59049 ≤ r.image.size
    · right
      rw [if_pos hfull, hplace]
      exact ⟨cmds, .tooLong, rfl, hw, by omega, .tooLong hcmd (by omega)⟩
    · left
      rw [if_neg hfull]
      refine ⟨_, rfl, advance_line h c, advance_column h c, ?_, ?_, by simp [hr]⟩
      · rw [capacity_eq, Array.size_push]
        omega
      · intro _
        have hwritten := hw.append (Written.command hcmd .nil)
        exact ⟨cmds ++ [c], hwritten, by simp [hsize]⟩
  · right
    refine ⟨cmds, .notInstruction c, ?_, hw, by omega, .notInstruction hblank hcmd hopen⟩
    rw [accept_other _ hcomment hblank hcmd hopen, hplace]

theorem stands_new : ({} : Reader).Stands [] where
  line := rfl
  column := rfl
  room := Nat.zero_le _
  outside := fun _ => ⟨[], .nil, rfl⟩
  inside := by simp

/-- The rest of a text, from wherever the reader stands. -/
theorem refused_of_readAll {r : Reader} {before rest : List Char} {e : ParseError}
    (h : r.Stands before) (herror : r.readAll rest = .error e) : Refused (before ++ rest) e := by
  induction rest generalizing r before with
  | nil =>
    cases hr : r.comment with
    | none => simp [Reader.readAll, hr] at herror
    | some p =>
      obtain ⟨outer, body, cmds, rfl, hb, hw, hsize, rfl⟩ := h.inside p hr
      have hroom := h.room
      rw [capacity_eq] at hroom
      simp only [Reader.readAll, hr, Except.error.injEq] at herror
      subst herror
      rw [List.append_nil]
      exact .unclosed rfl hw (by omega) hb
  | cons c rest ih =>
    rw [readAll_cons] at herror
    have hnext : ∀ r', (r.advance c).accept c = .ok r' → r'.Stands (before ++ [c]) →
        Refused (before ++ c :: rest) e := by
      intro r' hok hstands
      rw [hok] at herror
      have hrefused := ih hstands herror
      rwa [List.append_assoc, List.singleton_append] at hrefused
    cases hr : r.comment with
    | some p =>
      obtain ⟨r', hok, hstands⟩ := accept_stands_inside h hr c
      exact hnext r' hok hstands
    | none =>
      rcases accept_stands_outside h hr c with ⟨r', hok, hstands⟩ | ⟨cmds, why, hstop, hw, hlen, ho⟩
      · exact hnext r' hok hstands
      · rw [hstop] at herror
        cases herror
        exact .offender rfl hw hlen ho

theorem refused_of_parse {s : List Char} {e : ParseError} (h : parse s = .error e) : Refused s e :=
  refused_of_readAll stands_new h

/-- What stands behind an offender is not read. -/
theorem readAll_append {r : Reader} {s : List Char} {e : ParseError} (h : r.readAll s = .error e)
    (he : e.why ≠ .openComment) (t : List Char) : r.readAll (s ++ t) = .error e := by
  induction s generalizing r with
  | nil =>
    cases hr : r.comment with
    | none => simp [Reader.readAll, hr] at h
    | some p =>
      simp only [Reader.readAll, hr, Except.error.injEq] at h
      exact absurd (h ▸ rfl) he
  | cons c s ih =>
    rw [List.cons_append, readAll_cons]
    rw [readAll_cons] at h
    cases haccept : (r.advance c).accept c with
    | error e' => rw [haccept] at h; exact h
    | ok r' => rw [haccept] at h; exact ih h

/-! ## The error of a text -/

/-- The error a text is to be refused with. -/
inductive Reported (s : List Char) : ParseError → Prop
  | offender {before : List Char} {why : Refusal} (h : FirstOffender s before why) :
      Reported s ⟨why, placeAfter before⟩
  | unclosed {before : List Char} (hnone : ∀ before why, ¬ OffenderAt s before why)
      (h : Unclosed s before) : Reported s ⟨.openComment, placeAfter before⟩

/-- No offender stands in the part of a text that was read. -/
theorem offender_behind {s before rest cmds earlier : List Char} {why : Refusal}
    (hs : s = before ++ rest) (hw : Written before cmds) (hlen : cmds.length ≤ 59049)
    (h : OffenderAt s earlier why) : before.length ≤ earlier.length := by
  obtain ⟨c, after, cmds', hs', hout, ho⟩ := h
  rw [hs] at hs'
  rcases List.append_eq_append_iff.1 hs' with ⟨x, rfl, -⟩ | ⟨x, hx, hrest⟩
  · simp
  · cases x with
    | nil => simp [hx]
    | cons y x =>
      injection hrest with hy
      subst hy
      exact absurd ho (hw.not_offends hlen hx hout)

theorem Offends.ne_open {count : Nat} {why : Refusal} : ¬ Offends count '(' why := by
  intro h
  cases h with
  | notInstruction _ _ ho => exact ho rfl
  | tooLong hc _ => revert hc; decide

/-- A text that ends inside a comment, and was read up to there, has no offender. -/
theorem no_offender_of_unclosed {s before body cmds : List Char} (hs : s = before ++ '(' :: body)
    (hw : Written before cmds) (hlen : cmds.length ≤ 59049) (hb : ')' ∉ body)
    (earlier : List Char) (why : Refusal) : ¬ OffenderAt s earlier why := by
  intro h
  have hbehind := offender_behind hs hw hlen h
  obtain ⟨c, after, cmds', hs', hout, ho⟩ := h
  rw [hs] at hs'
  rcases List.append_eq_append_iff.1 hs' with ⟨x, rfl, hx⟩ | ⟨x, rfl, hx⟩
  · cases x with
    | nil =>
      injection hx with hc
      exact Offends.ne_open (hc ▸ ho)
    | cons y x =>
      injection hx with hy hbody
      subst hy
      have hx' : ')' ∉ x := fun hmem => hb (by simp [hbody, hmem])
      exact not_outside_of_open hw.outside hx' cmds' hout
  · cases x with
    | nil =>
      injection hx with hc
      exact Offends.ne_open (hc ▸ ho)
    | cons y x =>
      rw [List.length_append, List.length_cons] at hbehind
      omega

theorem Refused.reported {s : List Char} {e : ParseError} (h : Refused s e) : Reported s e := by
  cases h with
  | offender hs hw hlen ho =>
    refine .offender ⟨⟨_, _, _, hs, hw.outside, ho⟩, ?_⟩
    intro earlier why' hearlier
    exact offender_behind hs hw hlen hearlier
  | unclosed hs hw hlen hb =>
    exact .unclosed (no_offender_of_unclosed hs hw hlen hb) ⟨_, _, hs, hw.outside, hb⟩

theorem FirstOffender.unique {s before before' : List Char} {why why' : Refusal}
    (h : FirstOffender s before why) (h' : FirstOffender s before' why') :
    before = before' ∧ why = why' := by
  have hlen : before.length = before'.length :=
    Nat.le_antisymm (h.first _ _ h'.offends) (h'.first _ _ h.offends)
  obtain ⟨c, after, cmds, hs, hout, ho⟩ := h.offends
  obtain ⟨c', after', cmds', hs', hout', ho'⟩ := h'.offends
  obtain ⟨rfl, hrest⟩ := List.append_inj (hs.symm.trans hs') hlen
  injection hrest with hc
  subst hc
  obtain ⟨more, hmore, hnil⟩ := Row.split (t := []) hout (by rwa [List.append_nil])
  cases hnil
  rw [List.append_nil] at hmore
  exact ⟨rfl, ho.unique (hmore ▸ ho')⟩

theorem Unclosed.unique {s before before' : List Char} (h : Unclosed s before)
    (h' : Unclosed s before') : before = before' := by
  obtain ⟨body, cmds, hs, hout, hb⟩ := h
  obtain ⟨body', cmds', hs', hout', hb'⟩ := h'
  rw [hs] at hs'
  rcases List.append_eq_append_iff.1 hs' with ⟨x, rfl, hx⟩ | ⟨x, rfl, hx⟩
  · cases x with
    | nil => simp
    | cons y x =>
      injection hx with hy hbody
      subst hy
      have hx' : ')' ∉ x := fun hmem => hb (by simp [hbody, hmem])
      exact absurd hout' (not_outside_of_open hout hx' cmds')
  · cases x with
    | nil => simp
    | cons y x =>
      injection hx with hy hbody
      subst hy
      have hx' : ')' ∉ x := fun hmem => hb' (by simp [hbody, hmem])
      exact absurd hout (not_outside_of_open hout' hx' cmds)

theorem Reported.unique {s : List Char} {e e' : ParseError} (h : Reported s e)
    (h' : Reported s e') : e = e' := by
  cases h with
  | offender h =>
    cases h' with
    | offender h' =>
      obtain ⟨rfl, rfl⟩ := h.unique h'
      rfl
    | unclosed hnone _ => exact absurd h.offends (hnone _ _)
  | unclosed hnone h =>
    cases h' with
    | offender h' => exact absurd h'.offends (hnone _ _)
    | unclosed _ h' => rw [h.unique h']

/-- A text that loads has nothing to report. -/
theorem not_reported_of_written {s cmds : List Char} (hw : Written s cmds)
    (hlen : cmds.length ≤ 59049) (e : ParseError) : ¬ Reported s e := by
  intro h
  cases h with
  | offender h =>
    obtain ⟨c, after, cmds', hs, hout, ho⟩ := h.offends
    exact hw.not_offends hlen hs hout ho
  | unclosed _ h =>
    obtain ⟨body, cmds', rfl, hout, hb⟩ := h
    exact not_outside_of_open hout hb cmds hw.outside

theorem parse_eq_error_iff (s : List Char) (e : ParseError) :
    parse s = .error e ↔ Reported s e := by
  constructor
  · intro h
    exact (refused_of_parse h).reported
  · intro h
    cases hparse : parse s with
    | ok image =>
      obtain ⟨cmds, hw, -, hlen⟩ := (parse_eq_ok_iff s image).1 hparse
      exact absurd h (not_reported_of_written hw hlen e)
    | error e' => rw [(refused_of_parse hparse).reported.unique h]

/-- **The error of a text.** A text is refused exactly with the error of its first offender, in the
order of the text, and only if it has none for a comment without an end, at the place where that
comment opens. The line is one more than the line feeds before, comments included, and the column
one more than the characters behind the last of them. What is appended to a text with an offender
does not change its error. -/
theorem parse_error_iff_first_offender (s : List Char) (e : ParseError) :
    (parse s = .error e ↔
      (∃ before, FirstOffender s before e.why ∧ e.place = placeAfter before) ∨
      ((∀ before why, ¬ OffenderAt s before why) ∧ e.why = .openComment ∧
        ∃ before, Unclosed s before ∧ e.place = placeAfter before)) ∧
    (parse s = .error e → e.why ≠ .openComment → ∀ t, parse (s ++ t) = .error e) ∧
    e.message = s!"{e.why.message} (line {e.place.line}, column {e.place.column})" ∧
    (∀ c, (Refusal.notInstruction c).message =
      s!"not a valid instruction: {Text.quote c.toString}") ∧
    Refusal.tooLong.message = "program too long" ∧
    Refusal.openComment.message = "unterminated comment" := by
  obtain ⟨why, place⟩ := e
  refine ⟨?_, ?_, ?_, ?_, ?_, ?_⟩
  · rw [parse_eq_error_iff]
    constructor
    · intro h
      cases h with
      | offender h => exact .inl ⟨_, h, rfl⟩
      | unclosed hnone h => exact .inr ⟨hnone, rfl, _, h, rfl⟩
    · rintro (⟨before, h, rfl⟩ | ⟨hnone, rfl, before, h, rfl⟩)
      · exact .offender h
      · exact .unclosed hnone h
  · intro h he t
    exact readAll_append h he t
  · rfl
  · intro c
    rfl
  · rfl
  · rfl

end Dis.Program
