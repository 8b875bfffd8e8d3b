import Dis.Text.Blank
/-!
# Trimmed texts and lines

* `Trimmed`: no blank at either end; `trim_trimmed`, `trim_eq_self`: trimming makes a text so, and
  leaves it alone when it is.
* `trimRight_append_of_ne_nil`, `trim_between`: what is trimmed from texts put together.
* `toNat_toLower`, `isBlank_toLower`: the small letters of ASCII; blanks have none.
* `isLineBreak_iff`: the ten characters that end a line; all of them are blank, so in a trimmed text
  they stand inside (`Trimmed.hasInnerBreak_iff`).
* `not_lineBreak_of_mem_lines`, `lines_closed`: no line has a break in it, and texts without breaks,
  each closed by a line feed, are the lines they make.
* `unifyNewlines_eq_self`: a text without carriage returns is read as it is.
-/
namespace Dis.Text

/-! ## Trimming -/

/-- Neither end is blank. -/
structure Trimmed (cs : List Char) : Prop where
  first : ∀ c, cs.head? = some c → isBlank c = false
  last : ∀ c, cs.getLast? = some c → isBlank c = false

theorem dropWhile_eq_self {p : Char → Bool} {cs : List Char}
    (h : ∀ c, cs.head? = some c → p c = false) : cs.dropWhile p = cs := by
  cases cs with
  | nil => rfl
  | cons c cs => simp [h c rfl]

theorem head?_dropWhile {p : Char → Bool} {cs : List Char} {c : Char}
    (h : (cs.dropWhile p).head? = some c) : p c = false := by
  have hnot := List.head?_dropWhile_not p cs
  rw [h] at hnot
  exact hnot

theorem trimRight_isPrefix (cs : List Char) : trimRight cs <+: cs := by
  unfold trimRight
  rw [← List.reverse_suffix, List.reverse_reverse]
  exact List.dropWhile_suffix isBlank

theorem trim_trimmed (cs : List Char) : Trimmed (trim cs) := by
  constructor
  · intro c hc
    -- what is trimmed from the right leaves the first character
    obtain ⟨rest, hrest⟩ := trimRight_isPrefix (trimLeft cs)
    have hhead : (trimLeft cs).head? = some c := by
      rw [← hrest, List.head?_append, show (trimRight (trimLeft cs)).head? = some c from hc]
      rfl
    exact head?_dropWhile hhead
  · intro c hc
    unfold trim trimRight at hc
    rw [List.getLast?_reverse] at hc
    exact head?_dropWhile hc

theorem trim_eq_self {cs : List Char} (h : Trimmed cs) : trim cs = cs := by
  have hlast : ∀ c, cs.reverse.head? = some c → isBlank c = false := by
    intro c hc
    rw [List.head?_reverse] at hc
    exact h.last c hc
  unfold trim trimLeft trimRight
  rw [dropWhile_eq_self h.first, dropWhile_eq_self hlast, List.reverse_reverse]

theorem mem_of_mem_trim {cs : List Char} {c : Char} (h : c ∈ trim cs) : c ∈ cs :=
  (List.dropWhile_suffix isBlank).mem ((trimRight_isPrefix (trimLeft cs)).mem h)

theorem trimRight_append_of_ne_nil (cs : List Char) {ds : List Char} (h : trimRight ds ≠ []) :
    trimRight (cs ++ ds) = cs ++ trimRight ds := by
  have hdrop : ds.reverse.dropWhile isBlank ≠ [] := by simpa [trimRight] using h
  rw [trimRight, trimRight, List.reverse_append, List.dropWhile_append,
    if_neg (by simpa using hdrop), List.reverse_append, List.reverse_reverse]

theorem trimRight_append_of_nil {cs ds : List Char} (h : trimRight ds = [])
    (hlast : ∀ c, cs.getLast? = some c → isBlank c = false) : trimRight (cs ++ ds) = cs := by
  have hdrop : ds.reverse.dropWhile isBlank = [] := by simpa [trimRight] using h
  rw [trimRight, List.reverse_append, List.dropWhile_append, if_pos (by simp [hdrop]),
    dropWhile_eq_self (by simpa using hlast), List.reverse_reverse]

theorem trimRight_cons_of_nil {c : Char} (hc : isBlank c = true) {cs : List Char}
    (h : trimRight cs = []) : trimRight (c :: cs) = [] := by
  have hdrop : cs.reverse.dropWhile isBlank = [] := by simpa [trimRight] using h
  rw [trimRight, List.reverse_cons, List.dropWhile_append, if_pos (by simp [hdrop])]
  simp [hc]

theorem trimLeft_append_of_ne_nil {cs : List Char} (hne : cs ≠ []) (ds : List Char)
    (hfirst : ∀ c, cs.head? = some c → isBlank c = false) : trimLeft (cs ++ ds) = cs ++ ds := by
  refine dropWhile_eq_self fun c hc => hfirst c ?_
  cases cs with
  | nil => exact absurd rfl hne
  | cons b cs => exact hc

/-- Blanks around a text are trimmed, and nothing else. -/
theorem trim_between {before cs after : List Char} (hbefore : ∀ c ∈ before, isBlank c = true)
    (hafter : ∀ c ∈ after, isBlank c = true) (hcs : Trimmed cs) (hne : cs ≠ []) :
    trim (before ++ cs ++ after) = cs := by
  have hleft : trimLeft (before ++ cs ++ after) = cs ++ after := by
    rw [List.append_assoc, trimLeft, List.dropWhile_append_of_pos hbefore]
    exact trimLeft_append_of_ne_nil hne after hcs.first
  have hnone : trimRight after = [] := by
    rw [trimRight, ← List.append_nil after.reverse,
      List.dropWhile_append_of_pos (by simpa using hafter)]
    rfl
  rw [trim, hleft, trimRight_append_of_nil hnone hcs.last]

/-! ## Letter case -/

/-- What lower case does to code points. -/
theorem toNat_toLower (c : Char) :
    c.toLower.toNat = if 65 ≤ c.toNat ∧ c.toNat ≤ 90 then c.toNat + 32 else c.toNat := by
  by_cases h : 65 ≤ c.toNat ∧ c.toNat ≤ 90
  · have hupper : c.val ≥ 'A'.val ∧ c.val ≤ 'Z'.val := h
    have hlower : c.toLower = ⟨c.val + ('a'.val - 'A'.val), _⟩ := dif_pos hupper
    have hval : c.val.toNat ≤ 90 := h.2
    rw [if_pos h, hlower]
    show (c.val + 32).toNat = c.toNat + 32
    rw [UInt32.toNat_add]
    exact Nat.mod_eq_of_lt (show c.val.toNat + 32 < 4294967296 by omega)
  · have hother : ¬ (c.val ≥ 'A'.val ∧ c.val ≤ 'Z'.val) := h
    have hlower : c.toLower = c := dif_neg hother
    rw [if_neg h, hlower]

theorem isBlank_toLower (c : Char) : isBlank c.toLower = isBlank c := by
  unfold isBlank
  rw [toNat_toLower]
  grind

/-! ## Line breaks -/

/-- The characters at which a text is cut into lines. -/
def lineBoundaries : List Char :=
  ['\n', '\r', '\x0b', '\x0c', '\x1c', '\x1d', '\x1e', '\u0085', '\u2028', '\u2029']

theorem isLineBreak_iff (c : Char) : isLineBreak c = true ↔ c ∈ lineBoundaries := by
  have hlow : ∀ n : Nat, (10 ≤ n ∧ n ≤ 13) ↔ n = 10 ∨ n = 11 ∨ n = 12 ∨ n = 13 := by omega
  have hmid : ∀ n : Nat, (28 ≤ n ∧ n ≤ 30) ↔ n = 28 ∨ n = 29 ∨ n = 30 := by omega
  have hmem : c ∈ lineBoundaries ↔ c.toNat ∈ lineBoundaries.map Char.toNat := by
    constructor
    · intro h
      exact List.mem_map_of_mem h
    · intro h
      obtain ⟨c', hc', heq⟩ := List.mem_map.1 h
      rw [← Char.toNat_inj.1 heq]
      exact hc'
  have hcodes : lineBoundaries.map Char.toNat =
      [10, 13, 11, 12, 28, 29, 30, 0x85, 0x2028, 0x2029] := by decide
  rw [hmem, hcodes]
  simp only [isLineBreak, Bool.or_eq_true, Bool.and_eq_true, decide_eq_true_eq, beq_iff_eq,
    List.mem_cons, List.not_mem_nil, or_false, hlow, hmid]
  omega

theorem isBlank_of_isLineBreak {c : Char} (h : isLineBreak c = true) : isBlank c = true := by
  simp only [isLineBreak, Bool.or_eq_true, Bool.and_eq_true, decide_eq_true_eq, beq_iff_eq] at h
  simp only [isBlank, Bool.or_eq_true, Bool.and_eq_true, decide_eq_true_eq, beq_iff_eq]
  omega

/-- A line boundary with something on either side of it. -/
def HasInnerBreak (cs : List Char) : Prop :=
  ∃ before c after, cs = before ++ c :: after ∧ before ≠ [] ∧ after ≠ [] ∧ c ∈ lineBoundaries

/-- In a trimmed text every line break is an inner one. -/
theorem Trimmed.hasInnerBreak_iff {cs : List Char} (h : Trimmed cs) :
    HasInnerBreak cs ↔ ∃ c ∈ cs, isLineBreak c = true := by
  constructor
  · intro hinner
    obtain ⟨before, c, after, rfl, -, -, hc⟩ := hinner
    exact ⟨c, by simp, (isLineBreak_iff c).2 hc⟩
  · intro hbreak
    obtain ⟨c, hmem, hc⟩ := hbreak
    have hblank := isBlank_of_isLineBreak hc
    obtain ⟨before, after, rfl⟩ := List.append_of_mem hmem
    refine ⟨before, c, after, rfl, ?_, ?_, (isLineBreak_iff c).1 hc⟩
    · rintro rfl
      have hfirst := h.first c rfl
      rw [hblank] at hfirst
      cases hfirst
    · rintro rfl
      have hlast := h.last c (by simp)
      rw [hblank] at hlast
      cases hlast

/-! ## Lines -/

theorem linesFrom_of_not_lineBreak {c : Char} (hc : isLineBreak c = false) (line cs : List Char) :
    linesFrom line (c :: cs) = linesFrom (c :: line) cs := by
  have hreturn : c ≠ '\r' := by
    rintro rfl
    revert hc
    decide
  rw [linesFrom]
  · simp [hc]
  · intro rest h _
    exact absurd h hreturn

theorem linesFrom_lineFeed (line cs : List Char) :
    linesFrom line ('\n' :: cs) = line.reverse :: linesFrom [] cs := rfl

theorem not_lineBreak_of_mem_linesFrom {line cs l : List Char}
    (hline : ∀ c ∈ line, isLineBreak c = false) (h : l ∈ linesFrom line cs) :
    ∀ c ∈ l, isLineBreak c = false := by
  fun_induction linesFrom line cs with
  | case1 line hempty => cases h
  | case2 line hempty =>
    rw [List.mem_singleton.1 h]
    simpa using hline
  | case3 line cs ih =>
    rcases List.mem_cons.1 h with rfl | h
    · simpa using hline
    · exact ih (by simp) h
  | case4 line c cs _ hc ih =>
    rcases List.mem_cons.1 h with rfl | h
    · simpa using hline
    · exact ih (by simp) h
  | case5 line c cs _ hc ih =>
    refine ih ?_ h
    simpa [hc] using hline

theorem not_lineBreak_of_mem_lines {cs l : List Char} (h : l ∈ lines cs) :
    ∀ c ∈ l, isLineBreak c = false :=
  not_lineBreak_of_mem_linesFrom (by simp) h

theorem linesFrom_closed {text : List Char} (h : ∀ c ∈ text, isLineBreak c = false)
    (line cs : List Char) :
    linesFrom line (text ++ '\n' :: cs) = (line.reverse ++ text) :: linesFrom [] cs := by
  induction text generalizing line with
  | nil => rw [List.nil_append, linesFrom_lineFeed, List.append_nil]
  | cons c text ih =>
    have hc : isLineBreak c = false := h c (by simp)
    have htext : ∀ c ∈ text, isLineBreak c = false := fun c' hc' => h c' (by simp [hc'])
    rw [List.cons_append, linesFrom_of_not_lineBreak hc, ih htext]
    simp

/-- Texts without breaks, each closed by a line feed, are the lines they make. -/
theorem lines_closed {texts : List (List Char)} (h : ∀ t ∈ texts, ∀ c ∈ t, isLineBreak c = false) :
    lines (texts.flatMap (· ++ ['\n'])) = texts := by
  unfold lines
  induction texts with
  | nil => rfl
  | cons t texts ih =>
    have ht : ∀ c ∈ t, isLineBreak c = false := h t (by simp)
    have htexts : ∀ t ∈ texts, ∀ c ∈ t, isLineBreak c = false := fun t' ht' => h t' (by simp [ht'])
    rw [List.flatMap_cons, List.append_assoc, List.singleton_append, linesFrom_closed ht, ih htexts]
    rfl

/-! ## Newlines -/

theorem push_of_ne {c : Char} (hc : c ≠ '\r') (written : List Char) :
    NewlineState.push ⟨written, false⟩ c = ⟨c :: written, false⟩ := by
  simp [NewlineState.push, hc]

theorem foldl_push {cs : List Char} (h : '\r' ∉ cs) (written : List Char) :
    cs.foldl NewlineState.push ⟨written, false⟩ = ⟨cs.reverse ++ written, false⟩ := by
  induction cs generalizing written with
  | nil => rfl
  | cons c cs ih =>
    have hc : c ≠ '\r' := fun heq => h (by simp [heq])
    have hcs : '\r' ∉ cs := fun hmem => h (by simp [hmem])
    rw [List.foldl_cons, push_of_ne hc, ih hcs]
    simp

theorem unifyNewlines_eq_self {cs : List Char} (h : '\r' ∉ cs) : unifyNewlines cs = cs := by
  unfold unifyNewlines
  rw [foldl_push h]
  simp

end Dis.Text
