import Dis.Proofs.DigitTexts
/-!
# Addresses and counts as they are typed

An address is typed as a decimal numeral, or in base sixteen behind `0x`, or in base three behind
`0t`. Capital letters and blanks around it make no difference.

* `Spells text literal`: the text is the literal, its letters in either case, with blanks around it.
* `lower_ascii`: an ASCII text is made small character by character; `Spells.lower_trim`: so what is
  left of a text when it is trimmed and made small is the literal.
* `readAddress_auto`, `readAddress_ternary`: which reader a literal goes to.
* `typed_literals_read_back`: the number of every literal is read from every text that spells it;
  so is every word of base three from `0t` and its digits.
-/
namespace Dis.Text

/-! ## Letter case and blanks -/

/-- The text is the literal, its letters in either case, with blanks around it. -/
def Spells (text : String) (literal : List Char) : Prop :=
  ∃ before body after : List Char, text.toList = before ++ body ++ after ∧
    (∀ c ∈ before, isBlank c = true) ∧ (∀ c ∈ after, isBlank c = true) ∧
    body.map Char.toLower = literal.map Char.toLower

/-- A literal as it is written without capitals: small letters and digits. -/
structure Small (literal : List Char) : Prop where
  ne_nil : literal ≠ []
  chars : ∀ c ∈ literal, isDigitOrLetter c = true
  toLower_eq : literal.map Char.toLower = literal

theorem lowerAt_ascii {c : Char} (h : c.toNat < 128) (before after : List Char) :
    lowerAt before c after = [c.toLower] := by
  rw [lowerAt, if_neg (by simp; omega), lowerChar, if_pos h]

theorem lowerFrom_ascii {cs : List Char} (h : ∀ c ∈ cs, c.toNat < 128) (done before : List Char) :
    lowerFrom done before cs = done.reverse ++ cs.map Char.toLower := by
  induction cs generalizing done before with
  | nil => simp [lowerFrom]
  | cons c cs ih =>
    rw [lowerFrom, lowerAt_ascii (h c List.mem_cons_self),
      ih fun c' hc' => h c' (List.mem_cons_of_mem c hc')]
    simp

theorem lower_ascii {cs : List Char} (h : ∀ c ∈ cs, c.toNat < 128) :
    lower cs = cs.map Char.toLower := by
  rw [lower, lowerFrom_ascii h, List.reverse_nil, List.nil_append]

/-- A text that spells a literal is the literal once it is trimmed and made small. -/
theorem Spells.lower_trim {text : String} {literal : List Char} (h : Spells text literal)
    (hsmall : Small literal) : lower (trim text.toList) = literal := by
  obtain ⟨before, body, after, htext, hbefore, hafter, hbody⟩ := h
  rw [hsmall.toLower_eq] at hbody
  -- a character whose small letter is a digit or letter of ASCII is ASCII, and no blank
  have hcs : ∀ c ∈ body, isDigitOrLetter c.toLower = true := by
    intro c hc
    exact hsmall.chars _ (hbody ▸ List.mem_map_of_mem hc)
  have hascii : ∀ c ∈ body, c.toNat < 128 := by
    intro c hc
    have hrange := toNat_of_isDigitOrLetter (hcs c hc)
    rw [toNat_toLower] at hrange
    split at hrange <;> omega
  have hblank : ∀ c ∈ body, isBlank c = false := by
    intro c hc
    rw [← isBlank_toLower, isBlank_digitOrLetter (hcs c hc)]
  have hne : body ≠ [] := by
    rintro rfl
    exact hsmall.ne_nil hbody.symm
  rw [htext, trim_between hbefore hafter ⟨fun c hc => hblank c (List.mem_of_mem_head? hc),
    fun c hc => hblank c (List.mem_of_mem_getLast? hc)⟩ hne, lower_ascii hascii, hbody]

/-! ## Literals -/

theorem toLower_digitChar {d : Nat} (h : d < 16) : (Nat.digitChar d).toLower = Nat.digitChar d := by
  revert d
  decide

theorem IsNumeral.small {base n : Nat} {cs : List Char} (hbase : base ≤ 16)
    (h : IsNumeral base n cs) : Small cs := by
  refine ⟨h.ne_nil, h.isDigitOrLetter hbase, ?_⟩
  obtain ⟨ds, -, hds, rfl, -⟩ := h
  rw [List.map_map]
  refine List.map_congr_left fun d hd => ?_
  have := hds d hd
  exact toLower_digitChar (by omega)

theorem Small.cons {c : Char} {cs : List Char} (hc : isDigitOrLetter c = true)
    (hlower : c.toLower = c) (h : Small cs) : Small (c :: cs) :=
  ⟨by simp, List.forall_mem_cons.2 ⟨hc, h.chars⟩, by
    rw [List.map_cons, hlower, h.toLower_eq]⟩

/-- A literal without the mark of base three is read in automatic base. -/
theorem readAddress_auto {text : String} {literal : List Char} {n : Nat} (hsmall : Small literal)
    (hspells : Spells text literal) (hmark : ∀ cs, literal ≠ '0' :: 't' :: cs)
    (hread : readAuto literal = some n) : readAddress text = .ok (n : Int) := by
  rw [readAddress, hspells.lower_trim hsmall]
  split
  · next cs => exact absurd rfl (hmark cs)
  · exact readInt_of_readUnsigned hsmall.chars hread

/-- Behind its mark, base three has zeros in front or not. -/
theorem readAddress_ternary {text : String} {cs : List Char} {n : Nat} (h : IsNumeral 3 n cs)
    (hspells : Spells text ('0' :: 't' :: cs)) : readAddress text = .ok (n : Int) := by
  have hsmall := h.small (by decide)
  have hmarked := (hsmall.cons (c := 't') (by decide) (by decide)).cons (c := '0') (by decide)
    (by decide)
  rw [readAddress, hspells.lower_trim hmarked]
  exact readInt_of_readUnsigned hsmall.chars (h.readDigits (by decide))

theorem spells_self (literal : List Char) : Spells (String.ofList literal) literal :=
  ⟨[], literal, [], by simp, by simp, by simp, rfl⟩

/-- The number of a literal is read from every text that spells it: of its decimal numeral, of its
numeral of base sixteen behind `0x`, and of its numeral of base three, with any number of zeros in
front, behind `0t`. So every word of base three, whatever its number of digits, is read from `0t`
and the digits that are written for it. -/
theorem typed_literals_read_back :
    (∀ (n : Nat) text, Spells text (Nat.toDigits 10 n) → readAddress text = .ok (n : Int)) ∧
    (∀ (n : Nat) text, Spells text ('0' :: 'x' :: Nat.toDigits 16 n) →
      readAddress text = .ok (n : Int)) ∧
    (∀ (n k : Nat) text, Spells text ('0' :: 't' :: (List.replicate k '0' ++ Nat.toDigits 3 n)) →
      readAddress text = .ok (n : Int)) ∧
    ∀ N x : Nat, 1 ≤ N → x < Radix.limit ⟨3, N⟩ →
      ∃ digits, Radix.checkedFormat ⟨3, N⟩ (.int x) = .ok digits ∧
        readAddress ("0t" ++ digits) = .ok (x : Int) := by
  refine ⟨fun n text h => ?_, fun n text h => ?_, fun n k text h => ?_, fun N x hN hx => ?_⟩
  · refine readAddress_auto ((isNumeral_toDigits (by decide) n).small (by decide)) h ?_
      (readAuto_toDigits n)
    intro cs hcs
    have hletter : 't' ∈ Nat.toDigits 10 n := by simp [hcs]
    exact absurd (isDigit_of_mem_toDigits 't' hletter) (by decide)
  · have hnumeral := isNumeral_toDigits (by decide : 1 < 16) n
    exact readAddress_auto (((hnumeral.small (by decide)).cons (by decide) (by decide)).cons
      (by decide) (by decide)) h (by simp) (readAuto_marked hnumeral)
  · exact readAddress_ternary ((isNumeral_toDigits (by decide) n).padded (by decide) k) h
  · have hnumeral := Radix.isNumeral_format ⟨3, N⟩ (show 0 < 3 by decide)
      (show 3 ≤ 10 by decide) hN hx
    refine ⟨Radix.format ⟨3, N⟩ x, Radix.checkedFormat_word _ hx, readAddress_ternary hnumeral ?_⟩
    have htext : "0t" ++ Radix.format ⟨3, N⟩ x =
        String.ofList ('0' :: 't' :: (Radix.format ⟨3, N⟩ x).toList) :=
      String.toList_inj.1 (by simp)
    rw [htext]
    exact spells_self _

/-- Blanks around each literal, capital letters and zeros in front, and a word of four digits. -/
theorem typed_literals_read_back_capitals :
    (Spells " 42\n" (Nat.toDigits 10 42) ∧ readAddress " 42\n" = .ok 42) ∧
    (Spells "\t0XfF " ('0' :: 'x' :: Nat.toDigits 16 255) ∧ readAddress "\t0XfF " = .ok 255) ∧
    (Spells "0T0012" ('0' :: 't' :: (List.replicate 2 '0' ++ Nat.toDigits 3 5)) ∧
      readAddress "0T0012" = .ok 5) ∧
    5 < Radix.limit ⟨3, 4⟩ ∧
      ∃ digits, Radix.checkedFormat ⟨3, 4⟩ (.int 5) = .ok digits ∧
        readAddress ("0t" ++ digits) = .ok 5 := by
  obtain ⟨hdecimal, hhex, hternary, hword⟩ := typed_literals_read_back
  have h42 : Spells " 42\n" (Nat.toDigits 10 42) :=
    ⟨[' '], ['4', '2'], ['\n'], by decide, by simp; decide, by simp; decide, by decide⟩
  have h255 : Spells "\t0XfF " ('0' :: 'x' :: Nat.toDigits 16 255) :=
    ⟨['\t'], ['0', 'X', 'f', 'F'], [' '], by decide, by simp; decide, by simp; decide, by decide⟩
  have h5 : Spells "0T0012" ('0' :: 't' :: (List.replicate 2 '0' ++ Nat.toDigits 3 5)) :=
    ⟨[], ['0', 'T', '0', '0', '1', '2'], [], by decide, by simp, by simp, by decide⟩
  have hlimit : 5 < Radix.limit ⟨3, 4⟩ := by decide
  exact ⟨⟨h42, hdecimal 42 _ h42⟩, ⟨h255, hhex 255 _ h255⟩, ⟨h5, hternary 5 2 _ h5⟩, hlimit,
    hword 4 5 (by decide) hlimit⟩

end Dis.Text
