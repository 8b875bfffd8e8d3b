import Dis.Proofs.Digits
import Dis.Proofs.Numerals
/-!
# Words written digit by digit

`format` writes the digits of a word one after the other, each as a decimal number. Up to base ten
that is a numeral of fixed width. In greater bases some digits take two characters or more, and
nothing marks where one ends.

* `isNumeral_format`: up to base ten, what is written is a numeral of the word.
* `length_format_eq_iff`: a word takes one character for each digit exactly if no digit of it is ten
  or more.
* `format_ambiguous_of_two`, `format_ambiguous_of_three`: two words with one text, from base twelve
  on with two digits and from base eleven on with three.
* `format_faithful_iff`: for which bases and numbers of digits the width is fixed, and for which the
  text tells the word.
-/
namespace Dis.Radix

/-! ## Texts of digit lists -/

/-- The digits of a list as text, the last one first. -/
def digitText (ds : List Nat) : List Char :=
  ds.reverse.flatMap (Nat.toDigits 10)

theorem toList_format (r : Radix) (x : Nat) : (r.format x).toList = digitText (r.toDigits x) := by
  rw [format, String.toList_join, List.flatMap_map]
  simp only [Text.toList_toString, digitText]

theorem checkedFormat_word (r : Radix) {x : Nat} (hx : x < r.limit) :
    r.checkedFormat (.int x) = .ok (r.format x) := by
  rw [checkedFormat, r.check_word "value" x hx]
  rfl

theorem digitText_append (ds es : List Nat) :
    digitText (ds ++ es) = digitText es ++ digitText ds := by
  rw [digitText, List.reverse_append, List.flatMap_append]
  rfl

theorem digitText_cons (d : Nat) (ds : List Nat) :
    digitText (d :: ds) = digitText ds ++ Nat.toDigits 10 d := by
  rw [← List.singleton_append, digitText_append]
  simp [digitText]

theorem digitText_of_lt_ten {ds : List Nat} (h : ∀ d ∈ ds, d < 10) :
    digitText ds = ds.reverse.map Nat.digitChar := by
  induction ds with
  | nil => rfl
  | cons d ds ih =>
    rw [digitText_cons, ih fun e he => h e (List.mem_cons_of_mem d he),
      Nat.toDigits_of_lt_base (h d List.mem_cons_self), List.reverse_cons, List.map_append]
    rfl

theorem toDigits_inj {n m : Nat} (h : Nat.toDigits 10 n = Nat.toDigits 10 m) : n = m := by
  have hvalue := congrArg (fun cs => Nat.ofDigitChars 10 cs 0) h
  simpa using hvalue

/-! ## Up to base ten -/

theorem evalFrom_reverse (r : Radix) (ds : List Nat) :
    Text.evalFrom r.base 0 ds.reverse = r.ofDigits ds := by
  induction ds with
  | nil => rfl
  | cons d ds ih =>
    rw [List.reverse_cons, Text.evalFrom_append, ih, ofDigits, Nat.add_comm, Nat.mul_comm r.base]
    rfl

/-- Up to base ten, the text of a word is a numeral of it. -/
theorem isNumeral_format (r : Radix) (hlow : 0 < r.base) (hten : r.base ≤ 10) (hd : 1 ≤ r.digits)
    {x : Nat} (hx : x < r.limit) : Text.IsNumeral r.base x (r.format x).toList := by
  have hlt : ∀ d ∈ r.toDigits x, d < r.base := fun d hd => r.lt_of_mem_toDigits hlow hd
  refine ⟨(r.toDigits x).reverse, fun hnil => ?_, by simpa using hlt, ?_, ?_⟩
  · have hlength := congrArg List.length hnil
    rw [List.length_reverse, length_toDigits, List.length_nil] at hlength
    omega
  · rw [toList_format, digitText_of_lt_ten fun d hd => by have := hlt d hd; omega]
  · rw [evalFrom_reverse, r.ofDigits_toDigits hx]

/-! ## Widths -/

theorem length_digitText_le (ds : List Nat) : ds.length ≤ (digitText ds).length := by
  induction ds with
  | nil => exact Nat.le_refl 0
  | cons d ds ih =>
    have hpos : 0 < (Nat.toDigits 10 d).length := Nat.length_toDigits_pos
    rw [digitText_cons, List.length_append, List.length_cons]
    omega

theorem length_digitText_eq_iff (ds : List Nat) :
    (digitText ds).length = ds.length ↔ ∀ d ∈ ds, d < 10 := by
  induction ds with
  | nil => simp [digitText]
  | cons d ds ih =>
    have hpos : 0 < (Nat.toDigits 10 d).length := Nat.length_toDigits_pos
    have hone : (Nat.toDigits 10 d).length ≤ 1 ↔ d < 10 :=
      Nat.length_toDigits_le_iff (by decide) (by decide)
    have hle := length_digitText_le ds
    rw [digitText_cons, List.length_append, List.length_cons, List.forall_mem_cons, ← ih, ← hone]
    omega

/-- A word takes one character for each digit exactly if no digit of it is ten or more. -/
theorem length_format_eq_iff (r : Radix) (x : Nat) :
    (r.format x).length = r.digits ↔ ∀ d ∈ r.toDigits x, d < 10 := by
  rw [← length_digitText_eq_iff, length_toDigits, ← toList_format, String.length_toList]

theorem length_format_iff (r : Radix) (hb : 2 ≤ r.base) (hd : 1 ≤ r.digits) :
    (∀ x < r.limit, (r.format x).length = r.digits) ↔ r.base ≤ 10 := by
  constructor
  · intro hwidth
    -- in a greater base, ten is a word whose lowest digit is ten
    by_contra hbase
    have hten : 10 < r.limit := by
      have hpow : r.base ^ 1 ≤ r.base ^ r.digits := Nat.pow_le_pow_right (by omega) hd
      rw [Nat.pow_one] at hpow
      exact Nat.lt_of_lt_of_le (by omega) hpow
    have hmem : 10 ∈ r.toDigits 10 := by
      refine List.mem_map.2 ⟨0, List.mem_range.2 hd, ?_⟩
      rw [digit_zero, Nat.mod_eq_of_lt (by omega)]
    have := (r.length_format_eq_iff 10).1 (hwidth 10 hten) 10 hmem
    omega
  · intro hten x _
    refine (r.length_format_eq_iff x).2 fun d hd => ?_
    have := r.lt_of_mem_toDigits (by omega) hd
    omega

/-! ## Words with one text -/

/-- The text of every word is the text of that word only. -/
def Unambiguous (r : Radix) : Prop :=
  ∀ x < r.limit, ∀ y < r.limit, r.format x = r.format y → x = y

/-- Two lists of digits with one text, zeros put behind both, are two words with one text. -/
theorem not_unambiguous (r : Radix) (hb : 2 ≤ r.base) {ds es : List Nat}
    (hlength : ds.length = es.length) (hfit : ds.length ≤ r.digits) (hds : ∀ d ∈ ds, d < r.base)
    (hes : ∀ d ∈ es, d < r.base) (hne : ds ≠ es) (htext : digitText ds = digitText es) :
    ¬ r.Unambiguous := by
  let zeros := List.replicate (r.digits - ds.length) 0
  have hlt : ∀ {fs : List Nat}, (∀ d ∈ fs, d < r.base) → ∀ d ∈ fs ++ zeros, d < r.base := by
    intro fs hfs d hd
    rcases List.mem_append.1 hd with hd | hd
    · exact hfs d hd
    · rw [List.eq_of_mem_replicate hd]
      omega
  have hfull : ∀ {fs : List Nat}, fs.length = ds.length → (fs ++ zeros).length = r.digits := by
    intro fs hfs
    rw [List.length_append, List.length_replicate]
    omega
  have hlimit : ∀ {fs : List Nat}, fs.length = ds.length → (∀ d ∈ fs, d < r.base) →
      r.ofDigits (fs ++ zeros) < r.limit :=
    fun hlen hfs => ofDigits_lt ⟨hfull hlen, hlt hfs⟩ hb
  have hdigits := r.toDigits_ofDigits (hfull rfl) (hlt hds)
  have hdigits' := r.toDigits_ofDigits (hfull hlength.symm) (hlt hes)
  have hformat : r.format (r.ofDigits (ds ++ zeros)) = r.format (r.ofDigits (es ++ zeros)) := by
    rw [← String.toList_inj, toList_format, toList_format, hdigits, hdigits', digitText_append,
      digitText_append, htext]
  intro hinj
  have hwords := hinj _ (hlimit rfl hds) _ (hlimit hlength.symm hes) hformat
  rw [hwords, hdigits'] at hdigits
  exact hne (List.append_cancel_right hdigits).symm

/-- From base twelve on, `1` and `10` next to each other read as `11` and `0`. -/
theorem format_ambiguous_of_two (r : Radix) (hb : 12 ≤ r.base) (hd : 2 ≤ r.digits) :
    ¬ r.Unambiguous := by
  refine @not_unambiguous r (by omega) [10, 1] [0, 11] rfl hd ?_ ?_ (by decide) (by decide)
  · simp only [List.forall_mem_cons]
    exact ⟨by omega, by omega, by simp⟩
  · simp only [List.forall_mem_cons]
    exact ⟨by omega, by omega, by simp⟩

/-- In base eleven it takes three digits: `1`, `0` and `10` read as `10`, `1` and `0`. -/
theorem format_ambiguous_of_three (r : Radix) (hb : 11 ≤ r.base) (hd : 3 ≤ r.digits) :
    ¬ r.Unambiguous := by
  refine @not_unambiguous r (by omega) [10, 0, 1] [0, 1, 10] rfl hd ?_ ?_ (by decide) (by decide)
  · simp only [List.forall_mem_cons]
    exact ⟨by omega, by omega, by omega, by simp⟩
  · simp only [List.forall_mem_cons]
    exact ⟨by omega, by omega, by omega, by simp⟩

/-! ## Words told apart -/

theorem unambiguous_of_le_ten (r : Radix) (hb : 2 ≤ r.base) (hten : r.base ≤ 10)
    (hd : 1 ≤ r.digits) : r.Unambiguous := by
  intro x hx y hy h
  have hread : ∀ {z : Nat}, z < r.limit → Text.readDigits r.base (r.format z).toList = some z :=
    fun hz => (r.isNumeral_format (by omega) hten hd hz).readDigits (by omega)
  have heq := hread hx
  rw [h, hread hy] at heq
  exact (Option.some.inj heq).symm

/-- One digit is a decimal number, whatever the base. -/
theorem unambiguous_of_one (r : Radix) (hd : r.digits = 1) : r.Unambiguous := by
  have htext : ∀ {z : Nat}, z < r.limit → (r.format z).toList = Nat.toDigits 10 z := by
    intro z hz
    have hbase : z < r.base := by simpa [limit, weight, hd] using hz
    rw [toList_format, toDigits, hd]
    simp [digitText, digit_zero, Nat.mod_eq_of_lt hbase]
  intro x hx y hy h
  have hchars := congrArg String.toList h
  rw [htext hx, htext hy] at hchars
  exact toDigits_inj hchars

/-- A digit ten in front is not taken for a `1` with another digit behind: that digit would begin
with a zero and have more characters. -/
theorem ten_append_ne {c d : Nat} (hc : c < 10) {cs : List Char} (hcs : cs ≠ []) :
    Nat.toDigits 10 10 ++ cs ≠ Nat.toDigits 10 c ++ Nat.toDigits 10 d := by
  intro h
  rw [Nat.toDigits_of_lt_base hc] at h
  have hbehind : '0' :: cs = Nat.toDigits 10 d := (List.cons.inj h).2
  have hzero : d = 0 := by
    by_contra hd
    exact Text.head?_toDigits hd (by rw [← hbehind]; rfl)
  rw [hzero, Nat.toDigits_zero] at hbehind
  exact hcs (List.cons.inj hbehind).2

/-- Two digits of base eleven. -/
theorem pair_inj {a b c d : Nat} (ha : a < 11) (hc : c < 11)
    (h : Nat.toDigits 10 a ++ Nat.toDigits 10 b = Nat.toDigits 10 c ++ Nat.toDigits 10 d) :
    a = c ∧ b = d := by
  have hfirst : Nat.toDigits 10 a = Nat.toDigits 10 c := by
    by_cases ha' : a < 10
    · by_cases hc' : c < 10
      · rw [Nat.toDigits_of_lt_base ha', Nat.toDigits_of_lt_base hc'] at h ⊢
        rw [(List.cons.inj h).1]
      · obtain rfl : c = 10 := by omega
        exact absurd h.symm (ten_append_ne ha' Nat.toDigits_ne_nil)
    · obtain rfl : a = 10 := by omega
      by_cases hc' : c < 10
      · exact absurd h (ten_append_ne hc' Nat.toDigits_ne_nil)
      · rw [show c = 10 by omega]
  rw [hfirst] at h
  exact ⟨toDigits_inj hfirst, toDigits_inj (List.append_cancel_left h)⟩

theorem unambiguous_of_eleven (r : Radix) (hb : r.base = 11) (hd : r.digits = 2) :
    r.Unambiguous := by
  have htext : ∀ {z : Nat}, z < r.limit →
      (r.format z).toList = Nat.toDigits 10 (z / 11) ++ Nat.toDigits 10 (z % 11) ∧ z / 11 < 11 := by
    intro z hz
    have hquot : z / 11 < 11 := by
      have hz : z < 11 * 11 := by simpa [limit, weight, hb, hd] using hz
      omega
    refine ⟨?_, hquot⟩
    rw [toList_format, toDigits, hd]
    simp [digitText, digit, weight, hb, List.range_succ, Nat.mod_eq_of_lt hquot]
  intro x hx y hy h
  have hchars := congrArg String.toList h
  rw [(htext hx).1, (htext hy).1] at hchars
  obtain ⟨hquot, hrem⟩ := pair_inj (htext hx).2 (htext hy).2 hchars
  omega

/-! ## Where a text is faithful -/

/-- Every word of every radix can be written. The text has one character for each digit in all bases
up to ten and in no other. It tells the word in these bases, and beyond them only where there is a
single digit, or two in base eleven. -/
theorem format_faithful_iff (r : Radix) (hb : 2 ≤ r.base) (hd : 1 ≤ r.digits) :
    (∀ x < r.limit, r.checkedFormat (.int x) = .ok (r.format x)) ∧
      ((∀ x < r.limit, (r.format x).length = r.digits) ↔ r.base ≤ 10) ∧
      ((∀ x < r.limit, ∀ y < r.limit, r.format x = r.format y → x = y) ↔
        r.base ≤ 10 ∨ r.digits = 1 ∨ (r.base = 11 ∧ r.digits = 2)) := by
  refine ⟨fun x hx => r.checkedFormat_word hx, r.length_format_iff hb hd, fun hinj => ?_, ?_⟩
  · by_contra hother
    obtain ⟨hbase, hone, heleven⟩ :
        ¬ r.base ≤ 10 ∧ r.digits ≠ 1 ∧ ¬ (r.base = 11 ∧ r.digits = 2) := by
      simpa only [not_or] using hother
    by_cases htwelve : 12 ≤ r.base
    · exact r.format_ambiguous_of_two htwelve (by omega) hinj
    · exact r.format_ambiguous_of_three (by omega) (by omega) hinj
  · rintro (hten | hone | ⟨heleven, htwo⟩)
    · exact r.unambiguous_of_le_ten hb hten hd
    · exact r.unambiguous_of_one hone
    · exact r.unambiguous_of_eleven heleven htwo

/-- Two digits of base eleven: the width varies, and still the text tells the word. -/
theorem format_faithful_iff_eleven :
    (¬ ∀ x < limit ⟨11, 2⟩, (format ⟨11, 2⟩ x).length = 2) ∧
      ∀ x < limit ⟨11, 2⟩, ∀ y < limit ⟨11, 2⟩, format ⟨11, 2⟩ x = format ⟨11, 2⟩ y → x = y := by
  obtain ⟨-, hwidth, hwords⟩ := format_faithful_iff ⟨11, 2⟩ (by decide) (by decide)
  exact ⟨fun h => absurd (hwidth.1 h) (by decide), hwords.2 (.inr (.inr ⟨rfl, rfl⟩))⟩

/-- Two digits of base twelve: two words have one text, and it has three characters. -/
theorem format_collides_in_base_twelve :
    checkedFormat ⟨12, 2⟩ (.int 22) = .ok "110" ∧ checkedFormat ⟨12, 2⟩ (.int 132) = .ok "110" ∧
      (22 < limit ⟨12, 2⟩ ∧ 132 < limit ⟨12, 2⟩ ∧ "110".length ≠ 2) ∧
      ¬ ∀ r : Radix, 2 ≤ r.base → 1 ≤ r.digits → ∀ x < r.limit, ∀ y < r.limit,
        (r.format x).length = r.digits ∧ (r.format x = r.format y → x = y) := by
  refine ⟨rfl, rfl, by decide, fun hall => ?_⟩
  have hword := (hall ⟨12, 2⟩ (by decide) (by decide) 22 (by decide) 132 (by decide)).2 rfl
  exact absurd hword (by decide)

end Dis.Radix
