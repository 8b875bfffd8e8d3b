import Dis.Proofs.Lines
import Dis.Text.Align
import Dis.Text.Numeral
/-!
# Numerals

A numeral of a base is a row of digits, most significant first, with zeros in front or not. Digits
are written as `Nat.digitChar` writes them, so there are numerals of bases up to sixteen.

* `IsNumeral b n cs`: the row `cs` stands for `n`. The shortest numeral of a number is one
  (`isNumeral_toDigits`), and zeros in front make no difference (`IsNumeral.padded`).
* `IsNumeral.readDigits`: what is read from a numeral is its number.
* `readAuto_toDigits`: the decimal numeral of a number has no zero in front, so no base mark is seen
  in it; `readAuto_marked`: behind the mark of base sixteen, numerals of this base are read.
* `readInt_of_readUnsigned`: digits and letters are neither trimmed nor taken for a sign.
* `zeroPadded_inj`: numbers with zeros in front are told apart; `readAuto_zeroPadded`: which of them
  are read.
-/
namespace Dis.Text

/-! ## Digits and letters -/

theorem toNat_of_isDigit {c : Char} (h : c.isDigit = true) : 48 ≤ c.toNat ∧ c.toNat ≤ 57 := by
  simpa [Char.isDigit, UInt32.le_iff_toNat_le] using h

theorem ne_of_isDigit {c d : Char} (hc : c.isDigit = true) (hd : d.isDigit = false) : c ≠ d := by
  rintro rfl
  rw [hc] at hd
  cases hd

/-- An ASCII digit or letter. -/
def isDigitOrLetter (c : Char) : Bool := (digitValue? c).isSome

theorem isDigitOrLetter_of_isDigit {c : Char} (h : c.isDigit = true) :
    isDigitOrLetter c = true := by
  have hrange := toNat_of_isDigit h
  simp [isDigitOrLetter, digitValue?, hrange]

theorem isDigitOrLetter_digitChar {d : Nat} (h : d < 16) :
    isDigitOrLetter (Nat.digitChar d) = true := by
  revert d
  decide

section DigitOrLetter

variable {c : Char} (h : isDigitOrLetter c = true)
include h

theorem toNat_of_isDigitOrLetter : 48 ≤ c.toNat ∧ c.toNat ≤ 122 := by
  simp only [isDigitOrLetter, digitValue?] at h
  grind

theorem isBlank_digitOrLetter : isBlank c = false := by
  have hrange := toNat_of_isDigitOrLetter h
  simp only [isBlank, Bool.or_eq_false_iff, Bool.and_eq_false_iff, decide_eq_false_iff_not,
    beq_eq_false_iff_ne]
  omega

theorem isNumeralBlank_digitOrLetter : isNumeralBlank c = false := by
  have hrange := toNat_of_isDigitOrLetter h
  simp only [isNumeralBlank, Bool.or_eq_false_iff, Bool.and_eq_false_iff, decide_eq_false_iff_not,
    beq_eq_false_iff_ne]
  omega

theorem plainDigit_digitOrLetter : plainDigit c = c := by
  have hascii : c.toNat < 128 := by have := toNat_of_isDigitOrLetter h; omega
  rw [plainDigit, if_pos hascii]

theorem ne_of_isDigitOrLetter {d : Char} (hd : d.toNat < 48) : c ≠ d := by
  rintro rfl
  have hrange := toNat_of_isDigitOrLetter h
  omega

end DigitOrLetter

/-! ## Rows of digits -/

theorem digitValue?_digitChar {d : Nat} (h : d < 16) : digitValue? (Nat.digitChar d) = some d := by
  revert d
  decide

theorem digitChar_ne_underscore {d : Nat} (h : d < 16) : Nat.digitChar d ≠ '_' := by
  revert d
  decide

/-- The number that digits stand for behind a number, most significant first. -/
def evalFrom (base value : Nat) (ds : List Nat) : Nat :=
  ds.foldl (fun v d => v * base + d) value

theorem evalFrom_append (base value : Nat) (ds es : List Nat) :
    evalFrom base value (ds ++ es) = evalFrom base (evalFrom base value ds) es :=
  List.foldl_append

/-- A row of characters is a numeral of `n`: digits of the base, one at least, that stand for it. -/
def IsNumeral (base n : Nat) (cs : List Char) : Prop :=
  ∃ ds : List Nat, ds ≠ [] ∧ (∀ d ∈ ds, d < base) ∧ cs = ds.map Nat.digitChar ∧
    evalFrom base 0 ds = n

theorem readDigitsFrom_digitChars {base : Nat} (hbase : base ≤ 16) {ds : List Nat}
    (hds : ∀ d ∈ ds, d < base) (value : Nat) (needDigit : Bool)
    (hneed : ds ≠ [] ∨ needDigit = false) :
    readDigitsFrom base value needDigit (ds.map Nat.digitChar) = some (evalFrom base value ds) := by
  induction ds generalizing value needDigit with
  | nil =>
    have hdone : needDigit = false := hneed.resolve_left (by simp)
    rw [List.map_nil, readDigitsFrom, hdone, if_neg (by simp)]
    rfl
  | cons d ds ih =>
    have hd : d < base := hds d List.mem_cons_self
    have hd16 : d < 16 := by omega
    rw [List.map_cons, readDigitsFrom, if_neg (digitChar_ne_underscore hd16),
      digitValue?_digitChar hd16]
    dsimp only
    rw [if_pos hd, ih (fun e he => hds e (List.mem_cons_of_mem d he)) _ _ (.inr rfl)]
    rfl

section IsNumeral

variable {base n : Nat} {cs : List Char}

theorem IsNumeral.ne_nil (h : IsNumeral base n cs) : cs ≠ [] := by
  obtain ⟨ds, hne, -, rfl, -⟩ := h
  simpa using hne

theorem IsNumeral.isDigitOrLetter (hbase : base ≤ 16) (h : IsNumeral base n cs) :
    ∀ c ∈ cs, isDigitOrLetter c = true := by
  obtain ⟨ds, -, hds, rfl, -⟩ := h
  intro c hc
  obtain ⟨d, hd, rfl⟩ := List.mem_map.1 hc
  have := hds d hd
  exact isDigitOrLetter_digitChar (by omega)

/-- What is read from a numeral is its number. -/
theorem IsNumeral.readDigits (hbase : base ≤ 16) (h : IsNumeral base n cs) :
    readDigits base cs = some n := by
  obtain ⟨ds, hne, hds, rfl, rfl⟩ := h
  exact readDigitsFrom_digitChars hbase hds 0 true (.inl hne)

theorem evalFrom_zeros (base k : Nat) (ds : List Nat) :
    evalFrom base 0 (List.replicate k 0 ++ ds) = evalFrom base 0 ds := by
  induction k with
  | zero => rfl
  | succ k ih =>
    rw [List.replicate_succ, List.cons_append, evalFrom, List.foldl_cons, Nat.zero_mul]
    exact ih

/-- Zeros in front make no difference. -/
theorem IsNumeral.padded (hbase : 0 < base) (h : IsNumeral base n cs) (k : Nat) :
    IsNumeral base n (List.replicate k '0' ++ cs) := by
  obtain ⟨ds, hne, hds, rfl, heval⟩ := h
  refine ⟨List.replicate k 0 ++ ds, by simp [hne], fun d hd => ?_, ?_, ?_⟩
  · rcases List.mem_append.1 hd with hd | hd
    · rw [List.eq_of_mem_replicate hd]
      exact hbase
    · exact hds d hd
  · rw [List.map_append, List.map_replicate]
    rfl
  · rw [evalFrom_zeros, heval]

/-- The shortest numeral of a number. -/
theorem isNumeral_toDigits (hbase : 1 < base) (n : Nat) :
    IsNumeral base n (Nat.toDigits base n) := by
  induction n using Nat.strongRecOn with
  | ind n ih =>
    rw [Nat.toDigits_eq_if hbase]
    split
    · next hlt => exact ⟨[n], by simp, by simpa using hlt, rfl, by simp [evalFrom]⟩
    · next hge =>
      have hquot : n / base < n := Nat.div_lt_self (by omega) hbase
      obtain ⟨ds, -, hds, hdigits, heval⟩ := ih (n / base) hquot
      refine ⟨ds ++ [n % base], by simp, fun d hd => ?_, by simp [hdigits], ?_⟩
      · rcases List.mem_append.1 hd with hd | hd
        · exact hds d hd
        · rw [List.mem_singleton.1 hd]
          exact Nat.mod_lt n (by omega)
      · rw [evalFrom_append, heval]
        exact Nat.div_add_mod' n base

end IsNumeral

/-! ## Marks, signs and blanks -/

theorem isDigit_of_mem_toDigits {n : Nat} : ∀ c ∈ Nat.toDigits 10 n, c.isDigit = true :=
  fun _ hc => Nat.isDigit_of_mem_toDigits (by decide) (by decide) hc

theorem toList_toString (n : Nat) : (toString n).toList = Nat.toDigits 10 n := by
  rw [Nat.toString_eq_repr, Nat.toList_repr]

/-- The numeral of a number begins with a zero only if the number is zero. -/
theorem head?_toDigits {n : Nat} (hn : n ≠ 0) : (Nat.toDigits 10 n).head? ≠ some '0' := by
  induction n using Nat.strongRecOn with
  | ind n ih =>
    rw [Nat.toDigits_eq_if (by decide)]
    split
    · simpa using hn
    · have hquot : n / 10 ≠ 0 := by omega
      rw [List.head?_append, Option.or_of_isSome (by simp)]
      exact ih (n / 10) (by omega) hquot

theorem readAuto_toDigits (n : Nat) : readAuto (Nat.toDigits 10 n) = some n := by
  by_cases hn : n = 0
  · subst hn
    decide
  · have hhead := head?_toDigits hn
    have hread := (isNumeral_toDigits (by decide) n).readDigits (by decide : 10 ≤ 16)
    cases hdigits : Nat.toDigits 10 n with
    | nil => exact absurd hdigits Nat.toDigits_ne_nil
    | cons c cs =>
      rw [hdigits] at hhead hread
      have hc : c ≠ '0' := fun heq => hhead (by rw [heq]; rfl)
      rw [← hread]
      unfold readAuto
      split <;> first | rfl | (next heq => injection heq with heq; exact absurd heq hc)

/-- Behind a base mark, a row of digits is read as it is without one. -/
theorem readMarked_of_readDigits {base n : Nat} {cs : List Char} (h : readDigits base cs = some n) :
    readMarked base cs = some n := by
  unfold readMarked
  split
  · simp [readDigits, readDigitsFrom] at h
  · exact h

theorem readAuto_marked {n : Nat} {cs : List Char} (h : IsNumeral 16 n cs) :
    readAuto ('0' :: 'x' :: cs) = some n :=
  readMarked_of_readDigits (h.readDigits (by decide))

theorem trimNumeral_digitsOrLetters {cs : List Char} (h : ∀ c ∈ cs, isDigitOrLetter c = true) :
    trimNumeral cs = cs := by
  have hfirst : ∀ {ds : List Char}, (∀ c ∈ ds, isDigitOrLetter c = true) →
      ds.dropWhile isNumeralBlank = ds := fun hds =>
    dropWhile_eq_self fun c hc => isNumeralBlank_digitOrLetter (hds c (List.mem_of_mem_head? hc))
  rw [trimNumeral, hfirst h, hfirst (by simpa using h), List.reverse_reverse]

theorem readSigned_digitsOrLetters {cs : List Char} (h : ∀ c ∈ cs, isDigitOrLetter c = true)
    (base : Base) : readSigned base cs = (readUnsigned base cs).map Int.ofNat := by
  unfold readSigned
  split
  · exact absurd rfl (ne_of_isDigitOrLetter (h '+' List.mem_cons_self) (by decide))
  · exact absurd rfl (ne_of_isDigitOrLetter (h '-' List.mem_cons_self) (by decide))
  · rfl

/-- Digits and letters are neither trimmed nor taken for a sign. -/
theorem readSigned_typed {cs : List Char} (hcs : ∀ c ∈ cs, isDigitOrLetter c = true)
    (base : Base) :
    readSigned base ((trimNumeral (String.ofList cs).toList).map plainDigit) =
      (readUnsigned base cs).map Int.ofNat := by
  have hplain : cs.map plainDigit = cs := by
    conv => rhs; rw [← List.map_id cs]
    exact List.map_congr_left fun c hc => plainDigit_digitOrLetter (hcs c hc)
  rw [String.toList_ofList, trimNumeral_digitsOrLetters hcs, hplain,
    readSigned_digitsOrLetters hcs]

theorem readInt_of_readUnsigned {base : Base} {cs : List Char} {n : Nat}
    (hcs : ∀ c ∈ cs, isDigitOrLetter c = true) (h : readUnsigned base cs = some n) :
    readInt base (String.ofList cs) = .ok (n : Int) := by
  rw [readInt, readSigned_typed hcs, h]
  rfl

theorem readInt_of_not_readUnsigned {base : Base} {cs : List Char}
    (hcs : ∀ c ∈ cs, isDigitOrLetter c = true) (h : readUnsigned base cs = none) :
    readInt base (String.ofList cs) = .error ⟨base, String.ofList cs⟩ := by
  rw [readInt, readSigned_typed hcs, h]
  rfl

/-- What is read from the decimal numeral of a number is the number. -/
theorem readInt_decimal (n : Nat) : readInt .auto (toString n) = .ok (n : Int) := by
  rw [Nat.toString_eq_ofList_toDigits]
  exact readInt_of_readUnsigned
    (fun c hc => isDigitOrLetter_of_isDigit (isDigit_of_mem_toDigits c hc)) (readAuto_toDigits n)

/-! ## Widths -/

theorem toList_zeroPadded (width n : Nat) :
    (zeroPadded width n).toList =
      List.replicate (width - (toString n).length) '0' ++ Nat.toDigits 10 n := by
  rw [zeroPadded, String.toList_append, String.toList_ofList, toList_toString]

theorem isDigit_of_mem_zeroPadded {width n : Nat} {c : Char}
    (hc : c ∈ (zeroPadded width n).toList) : c.isDigit = true := by
  rw [toList_zeroPadded] at hc
  rcases List.mem_append.1 hc with hc | hc
  · rw [List.eq_of_mem_replicate hc]
    decide
  · exact isDigit_of_mem_toDigits c hc

theorem isNumeral_zeroPadded (width n : Nat) : IsNumeral 10 n (zeroPadded width n).toList := by
  rw [toList_zeroPadded]
  exact (isNumeral_toDigits (by decide) n).padded (by decide) _

/-- Numbers with zeros in front are told apart. -/
theorem zeroPadded_inj {width n m : Nat} (h : zeroPadded width n = zeroPadded width m) : n = m := by
  have heq := (isNumeral_zeroPadded width n).readDigits (by decide)
  rw [h, (isNumeral_zeroPadded width m).readDigits (by decide)] at heq
  exact (Option.some.inj heq).symm

theorem IsNumeral.isDigit {n : Nat} {cs : List Char} (h : IsNumeral 10 n cs) :
    ∀ c ∈ cs, c.isDigit = true := by
  have hdigit : ∀ d < 10, (Nat.digitChar d).isDigit = true := by decide
  obtain ⟨ds, -, hds, rfl, -⟩ := h
  intro c hc
  obtain ⟨d, hd, rfl⟩ := List.mem_map.1 hc
  exact hdigit d (hds d hd)

/-- In automatic base, a decimal numeral with a zero in front has to be zero. -/
theorem readAuto_leadingZero {n : Nat} {cs : List Char} (h : IsNumeral 10 n ('0' :: cs)) :
    readAuto ('0' :: cs) = (some n).filter (· = 0) := by
  -- no base mark is seen behind the zero, as a digit stands there
  have hmark : ∀ {c : Char} {rest : List Char}, c.isDigit = false → '0' :: cs ≠ '0' :: c :: rest := by
    intro c rest hc heq
    rw [heq] at h
    exact ne_of_isDigit (h.isDigit c (by simp)) hc rfl
  rw [← h.readDigits (by decide)]
  unfold readAuto
  split
  iterate 6 next heq => exact absurd heq (hmark (by decide))
  · next heq => cases heq; rfl
  · next hother => exact absurd rfl (hother cs)

/-- A number with zeros in front is read in automatic base exactly if there was nothing to put in
front, or the number is zero. -/
theorem readAuto_zeroPadded (width n : Nat) :
    readAuto (zeroPadded width n).toList =
      if n = 0 ∨ width ≤ (toString n).length then some n else none := by
  have hnumeral := isNumeral_zeroPadded width n
  rw [toList_zeroPadded] at hnumeral ⊢
  cases hzeros : width - (toString n).length with
  | zero =>
    rw [if_pos (.inr (by omega)), List.replicate_zero, List.nil_append, readAuto_toDigits]
  | succ k =>
    rw [hzeros, List.replicate_succ, List.cons_append] at hnumeral
    rw [List.replicate_succ, List.cons_append, readAuto_leadingZero hnumeral]
    by_cases hn : n = 0
    · rw [if_pos (.inl hn), hn]
      rfl
    · rw [if_neg (by omega), Option.filter_some_neg (by simpa using hn)]

end Dis.Text
