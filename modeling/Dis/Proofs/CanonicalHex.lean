import Dis.Proofs.Base64Bits
/-!
# Base 16 and its canonical texts

A text in base 16 is looked at without its blanks. What is left is refused at the first character
that is no hexadecimal digit, whatever it may look like; otherwise it has a canonical form, with
capital letters and without a last digit that has no partner, and this form is what writing its
bytes gives.

* `flatten_words`: the words of a text, joined again, are the text without its blanks.
* `FirstStray.decode`: a text with other characters than digits is refused at the first of them.
* `encode_bytes`: pairs of digits are written back as they were read, in capital letters.
* `canonical_text_decides_bytes`: which texts are refused and where, and which of the others are
  read as the same bytes.
-/
namespace Dis

theorem Text.flatten_wordsFrom (word cs : List Char) :
    (wordsFrom word cs).flatten = word.reverse ++ cs.filter (!isBlank ·) := by
  induction cs generalizing word with
  | nil => cases word <;> simp [wordsFrom]
  | cons c cs ih =>
    rw [wordsFrom]
    cases hc : isBlank c with
    | false =>
      rw [if_neg (by simp), ih, List.filter_cons_of_pos (by simp [hc])]
      simp
    | true =>
      rw [if_pos rfl, List.filter_cons_of_neg (by simp [hc])]
      split
      · next hword => rw [ih, List.isEmpty_iff.1 hword]
      · rw [List.flatten_cons, ih, List.reverse_nil, List.nil_append]

/-- Joining the words of a text removes its blanks and nothing else. -/
theorem Text.flatten_words (cs : List Char) : (words cs).flatten = cs.filter (!isBlank ·) :=
  flatten_wordsFrom [] cs

namespace Codec.Base16

/-! ## Digits -/

/-- The hexadecimal digits, with the letters in either case. -/
def hexDigits : List Char :=
  ['0', '1', '2', '3', '4', '5', '6', '7', '8', '9',
   'a', 'b', 'c', 'd', 'e', 'f', 'A', 'B', 'C', 'D', 'E', 'F']

/-- A hexadecimal digit has a value, and is written as a capital for it. -/
theorem nibble?_of_mem {c : Char} (h : c ∈ hexDigits) :
    ∃ n < 16, nibble? c = some n ∧ digit n = c.toUpper := by
  have hall : hexDigits.all (fun c => (List.range 16).any fun n =>
      nibble? c == some n && digit n == c.toUpper) = true := by decide +kernel
  obtain ⟨n, hn, hc⟩ := List.any_eq_true.1 (List.all_eq_true.1 hall c h)
  obtain ⟨hvalue, hcapital⟩ := Bool.and_eq_true_iff.1 hc
  exact ⟨n, List.mem_range.1 hn, eq_of_beq hvalue, eq_of_beq hcapital⟩

theorem nibble?_of_not_mem {c : Char} (h : c ∉ hexDigits) : nibble? c = none := by
  have hback : Char.ofNat c.toNat = c := Char.ofNat_toNat c
  have hall : (List.range 103).all (fun n =>
      (nibble? (Char.ofNat n)).isNone || hexDigits.contains (Char.ofNat n)) = true := by
    decide +kernel
  by_cases hlow : c.toNat < 103
  · have hc := List.all_eq_true.1 hall c.toNat (List.mem_range.2 hlow)
    rw [hback] at hc
    simpa [h] using hc
  · unfold nibble?
    grind

/-- Digits stand before offset `i`, and a character that is none stands there. -/
structure FirstStray (cs : List Char) (i : Nat) (x : Char) : Prop where
  place : cs[i]? = some x
  stray : x ∉ hexDigits
  before : ∀ y ∈ cs.take i, y ∈ hexDigits

theorem digits_or_firstStray (cs : List Char) :
    (∀ x ∈ cs, x ∈ hexDigits) ∨ ∃ i x, FirstStray cs i x := by
  refine (letters_or_first_other hexDigits cs).imp_right ?_
  rintro ⟨before, x, after, rfl, hbefore, hx⟩
  refine ⟨before.length, x, by simp, hx, ?_⟩
  rwa [List.take_left]

/-- The reader stops at the first character that is no digit. -/
theorem FirstStray.refused {cs : List Char} {i : Nat} {x : Char} (h : FirstStray cs i x) :
    nibbles 0 [] cs = .error ⟨x, i⟩ := by
  obtain ⟨hi, hx⟩ := List.getElem?_eq_some_iff.1 h.place
  have hsplit : cs = cs.take i ++ x :: cs.drop (i + 1) := by
    rw [← hx, ← List.drop_eq_getElem_cons hi, List.take_append_drop]
  have hdigits : ∀ y ∈ cs.take i, (nibble? y).isSome = true := by
    intro y hy
    obtain ⟨n, -, hn, -⟩ := nibble?_of_mem (h.before y hy)
    rw [hn]
    rfl
  have hread : nibbles 0 [] (cs.take i ++ x :: cs.drop (i + 1)) =
      .error ⟨x, 0 + (cs.take i).length⟩ := by
    refine read_until_bad ?_ ?_ hdigits (nibble?_of_not_mem h.stray) _ 0 []
    · intro offset done c cs n hc
      rw [nibbles, hc]
    · intro offset done c cs hc
      rw [nibbles, hc]
  rwa [← hsplit, Nat.zero_add, List.length_take_of_le (Nat.le_of_lt hi)] at hread

/-! ## Pairs -/

/-- Digits in capital letters, without a last one that has no partner. -/
def canonical (cs : List Char) : List Char :=
  (if cs.length % 2 = 1 then cs.dropLast else cs).map Char.toUpper

theorem canonical_pair (x y : Char) (cs : List Char) :
    canonical (x :: y :: cs) = x.toUpper :: y.toUpper :: canonical cs := by
  have hparity : (x :: y :: cs).length % 2 = cs.length % 2 := by
    simp only [List.length_cons]
    omega
  unfold canonical
  rw [hparity]
  split
  · next hodd =>
    have hne : cs ≠ [] := by
      rintro rfl
      simp at hodd
    rw [List.dropLast_cons_of_ne_nil (by simp), List.dropLast_cons_of_ne_nil hne, List.map_cons,
      List.map_cons]
  · rw [List.map_cons, List.map_cons]

theorem encode_pair {a b : Nat} (ha : a < 16) (hb : b < 16) (bs : List UInt8) :
    encode (UInt8.ofNat (a * 16 + b) :: bs) = digit a :: digit b :: encode bs := by
  have hbyte : (UInt8.ofNat (a * 16 + b)).toNat = a * 16 + b := by
    rw [UInt8.toNat_ofNat']
    exact Nat.mod_eq_of_lt (by omega)
  rw [encode, List.flatMap_cons, hbyte, show (a * 16 + b) / 16 = a by omega,
    show (a * 16 + b) % 16 = b by omega]
  rfl

/-- The bytes of digits are written as the canonical form of the digits. -/
theorem encode_bytes : ∀ {cs : List Char}, (∀ x ∈ cs, x ∈ hexDigits) →
    ∃ ns, cs.map nibble? = ns.map some ∧ encode (bytes ns) = canonical cs
  | [], _ => ⟨[], rfl, rfl⟩
  | [x], h => by
    obtain ⟨a, -, hx, -⟩ := nibble?_of_mem (h x List.mem_cons_self)
    exact ⟨[a], by simp [hx], rfl⟩
  | x :: y :: cs, h => by
    simp only [List.forall_mem_cons] at h
    obtain ⟨hx, hy, hcs⟩ := h
    obtain ⟨a, ha, hxa, hxupper⟩ := nibble?_of_mem hx
    obtain ⟨b, hb, hyb, hyupper⟩ := nibble?_of_mem hy
    obtain ⟨ns, hns, hwritten⟩ := encode_bytes hcs
    refine ⟨a :: b :: ns, by simp [hxa, hyb, hns], ?_⟩
    rw [bytes, encode_pair ha hb, hwritten, canonical_pair, hxupper, hyupper]

theorem encode_injective {bs bs' : List UInt8} (h : encode bs = encode bs') : bs = bs' := by
  have hbs : decode (encode bs) = .ok bs := decode_respelled (respelled_refl _)
  have hbs' : decode (encode bs') = .ok bs' := decode_respelled (respelled_refl _)
  rw [h, hbs'] at hbs
  exact (Except.ok.inj hbs).symm

/-! ## Reading -/

theorem decode_of_digits {text : List Char} (h : ∀ x ∈ compact text, x ∈ hexDigits) :
    ∃ bs, Encoding.base16.decode text = .ok bs ∧ encode bs = canonical (compact text) := by
  obtain ⟨ns, hns, hwritten⟩ := encode_bytes h
  refine ⟨bytes ns, ?_, hwritten⟩
  unfold Encoding.decode
  rw [decode_of_map hns]
  rfl

theorem FirstStray.decode {text : List Char} {i : Nat} {x : Char}
    (h : FirstStray (compact text) i x) :
    Encoding.base16.decode text = .error (.base16 x i) := by
  unfold Encoding.decode Base16.decode
  rw [h.refused]
  rfl

/-- What was read as bytes is what these bytes are written as, in its canonical form. -/
theorem encode_of_decode {text : List Char} {bs : List UInt8}
    (h : Encoding.base16.decode text = .ok bs) : encode bs = canonical (compact text) := by
  rcases digits_or_firstStray (compact text) with hdigits | ⟨i, x, hstray⟩
  · obtain ⟨bs', hbs', hwritten⟩ := decode_of_digits hdigits
    rw [h] at hbs'
    rw [Except.ok.inj hbs', hwritten]
  · rw [hstray.decode] at h
    cases h

theorem decode_eq_error_iff {text : List Char} {e : CodecError} :
    Encoding.base16.decode text = .error e ↔
      ∃ i x, FirstStray (compact text) i x ∧ e = .base16 x i := by
  constructor
  · intro he
    rcases digits_or_firstStray (compact text) with hdigits | ⟨i, x, hstray⟩
    · obtain ⟨bs, hbs, -⟩ := decode_of_digits hdigits
      rw [hbs] at he
      cases he
    · rw [hstray.decode] at he
      exact ⟨i, x, hstray, (Except.error.inj he).symm⟩
  · rintro ⟨i, x, hstray, rfl⟩
    exact hstray.decode

/-- **Base 16 by its canonical texts.** Let `c` be a text without its blanks, which is its words
joined. It is refused exactly if `c` has a character that is no hexadecimal digit of ASCII, and the
error and its text name the first of them with its offset in `c`. Otherwise the bytes it is read as
are written as `c` in capital letters, without its last digit if their number is odd; so two texts
are read as the same bytes exactly if these forms are the same. -/
theorem canonical_text_decides_bytes (text : List Char) :
    let c := (Text.words text).flatten
    c = text.filter (!Text.isBlank ·) ∧
    ((∃ e, Encoding.base16.decode text = .error e) ↔ ∃ x ∈ c, x ∉ hexDigits) ∧
    (∀ e, Encoding.base16.decode text = .error e ↔
      ∃ i x, FirstStray c i x ∧ e = .base16 x i ∧
        e.message = s!"non-hex character {Text.quote x.toString} at offset {i}") ∧
    ((∀ x ∈ c, x ∈ hexDigits) → ∃ bs, Encoding.base16.decode text = .ok bs ∧
      Encoding.base16.encode bs = canonical c) ∧
    ∀ other bs bs', Encoding.base16.decode text = .ok bs →
      Encoding.base16.decode other = .ok bs' →
      (bs = bs' ↔ canonical c = canonical (Text.words other).flatten) := by
  intro c
  have hc : c = compact text := Text.flatten_words text
  rw [hc]
  refine ⟨rfl, ?_, ?_, decode_of_digits, ?_⟩
  · constructor
    · rintro ⟨e, he⟩
      obtain ⟨i, x, hstray, -⟩ := decode_eq_error_iff.1 he
      exact ⟨x, List.mem_of_getElem? hstray.place, hstray.stray⟩
    · rintro ⟨x, hx, hbad⟩
      rcases digits_or_firstStray (compact text) with hdigits | ⟨i, y, hstray⟩
      · exact absurd (hdigits x hx) hbad
      · exact ⟨_, hstray.decode⟩
  · intro e
    constructor
    · intro he
      obtain ⟨i, x, hstray, rfl⟩ := decode_eq_error_iff.1 he
      exact ⟨i, x, hstray, rfl, rfl⟩
    · rintro ⟨i, x, hstray, rfl, -⟩
      exact hstray.decode
  · intro other bs bs' hbs hbs'
    have hother : (Text.words other).flatten = compact other := Text.flatten_words other
    rw [hother, ← encode_of_decode hbs, ← encode_of_decode hbs']
    exact ⟨congrArg encode, encode_injective⟩

-- the full-width four is no digit here, and its offset does not count the wide blank before it
example : Encoding.base16.decode ['4', '\u2003', 'a', '４', '!'] = .error (.base16 '４' 2) := rfl

end Codec.Base16
end Dis
