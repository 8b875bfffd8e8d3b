import Dis.Proofs.Lines
import Dis.Proofs.Spellings
import Mathlib.Algebra.Group.Nat.Defs
import Mathlib.Tactic.Conv
/-!
# Base 64, bit by bit

What a text in base 64 is read as, said of its bits. `Compacted` is what is left of a text when
URL-safe letters are standard ones and blanks and the padding behind are gone; each letter of it
stands for the six bits of its place in the `alphabet`.

* `bitsOf_append`, `flatMap_bitsOf`: a row of numbers has the bits of one number, so the same bits
  can be cut into sixes or into eights (`byteBits_regrouped`).
* `read_until_bad`: a reader that goes from digit to digit stops at the first that is none.
* `bits_bytes`, `bytes_wholeBytes`: the reader keeps the leading whole bytes of the row, for every
  number of letters and whatever the bits behind them are.
* `padded_paddedText`: cut to whole bytes and padded to groups of four, the letters are regular text
  for the same bytes.
* `decode_reads_leading_bytes`: which texts are refused and where, and the bytes of all others.
-/
namespace Dis.Codec

/-! ## Rows of bits -/

/-- The `k` lowest bits of a number, the highest of them first. -/
def bitsOf : Nat → Nat → List Bool
  | 0, _ => []
  | k + 1, n => n.testBit k :: bitsOf k n

@[simp] theorem length_bitsOf (k n : Nat) : (bitsOf k n).length = k := by
  induction k with
  | zero => rfl
  | succ k ih => simp [bitsOf, ih]

theorem bitsOf_congr {k m n : Nat} (h : ∀ i < k, m.testBit i = n.testBit i) :
    bitsOf k m = bitsOf k n := by
  induction k with
  | zero => rfl
  | succ k ih =>
    rw [bitsOf, bitsOf, h k (by omega), ih fun i hi => h i (by omega)]

theorem bitsOf_append (j : Nat) {k b : Nat} (a : Nat) (hb : b < 2 ^ k) :
    bitsOf (j + k) (2 ^ k * a + b) = bitsOf j a ++ bitsOf k b := by
  induction j with
  | zero =>
    rw [Nat.zero_add, bitsOf, List.nil_append]
    refine bitsOf_congr fun i hi => ?_
    rw [Nat.testBit_two_pow_mul_add a hb, if_pos hi]
  | succ j ih =>
    rw [Nat.succ_add, bitsOf, ih, Nat.testBit_two_pow_mul_add a hb, if_neg (by omega),
      Nat.add_sub_cancel, bitsOf, List.cons_append]

/-- The leading bits of a number are those of its quotient. -/
theorem take_bitsOf (j k n : Nat) : (bitsOf (j + k) n).take j = bitsOf j (n / 2 ^ k) := by
  have hsplit := bitsOf_append j (n / 2 ^ k) (Nat.mod_lt n (Nat.two_pow_pos k))
  rw [Nat.div_add_mod] at hsplit
  rw [hsplit]
  exact List.take_left' (length_bitsOf j _)

/-- The number whose digits stand in a row, `w` bits each, behind the number `v`. -/
def rowValue (w v : Nat) (ns : List Nat) : Nat :=
  ns.foldl (fun v n => 2 ^ w * v + n) v

theorem bitsOf_append_flatMap {w : Nat} {ns : List Nat} (h : ∀ n ∈ ns, n < 2 ^ w) (j v : Nat) :
    bitsOf j v ++ ns.flatMap (bitsOf w) = bitsOf (j + ns.length * w) (rowValue w v ns) := by
  induction ns generalizing j v with
  | nil => simp [rowValue]
  | cons n ns ih =>
    have hn : n < 2 ^ w := h n List.mem_cons_self
    have hlength : j + (n :: ns).length * w = j + w + ns.length * w := by
      rw [List.length_cons, Nat.succ_mul]; omega
    rw [List.flatMap_cons, ← List.append_assoc, ← bitsOf_append j v hn,
      ih (fun m hm => h m (List.mem_cons_of_mem _ hm)), hlength]
    rfl

/-- A row of numbers of `w` bits each is one number. -/
theorem flatMap_bitsOf {w : Nat} {ns : List Nat} (h : ∀ n ∈ ns, n < 2 ^ w) :
    ns.flatMap (bitsOf w) = bitsOf (ns.length * w) (rowValue w 0 ns) := by
  have hrow := bitsOf_append_flatMap h 0 0
  rwa [bitsOf, List.nil_append, Nat.zero_add] at hrow

/-- The bits of a byte sequence. -/
def byteBits (bs : List UInt8) : List Bool :=
  bs.flatMap fun b => bitsOf 8 b.toNat

theorem byteBits_append (as bs : List UInt8) : byteBits (as ++ bs) = byteBits as ++ byteBits bs :=
  List.flatMap_append

theorem byteBits_ofNat {ns : List Nat} (h : ∀ n ∈ ns, n < 256) :
    byteBits (ns.map UInt8.ofNat) = bitsOf (ns.length * 8) (rowValue 8 0 ns) := by
  have hbits : ∀ n ∈ ns, bitsOf 8 (UInt8.ofNat n).toNat = bitsOf 8 n := by
    intro n hn
    rw [UInt8.toNat_ofNat', Nat.mod_eq_of_lt (h n hn)]
  rw [← flatMap_bitsOf h, byteBits, List.flatMap_map, List.flatMap_def, List.flatMap_def,
    List.map_congr_left hbits]

/-! ## Readers -/

/-- A reader that goes from digit to digit stops at the first character that is none, wherever it
began. -/
theorem read_until_bad {value : Char → Option Nat}
    {read : Nat → List Nat → List Char → Except Base64.BadChar (List Nat)}
    (hdigit : ∀ offset done c cs n, value c = some n →
      read offset done (c :: cs) = read (offset + 1) (n :: done) cs)
    (hbad : ∀ offset done c cs, value c = none → read offset done (c :: cs) = .error ⟨c, offset⟩)
    {before : List Char} (h : ∀ c ∈ before, (value c).isSome = true) {c : Char}
    (hc : value c = none) (after : List Char) (offset : Nat) (done : List Nat) :
    read offset done (before ++ c :: after) = .error ⟨c, offset + before.length⟩ := by
  induction before generalizing offset done with
  | nil => exact hbad offset done c after hc
  | cons c₀ before ih =>
    obtain ⟨n, hn⟩ := Option.isSome_iff_exists.1 (h c₀ List.mem_cons_self)
    rw [List.cons_append, hdigit offset done c₀ _ n hn,
      ih (fun x hx => h x (List.mem_cons_of_mem _ hx)), List.length_cons, Nat.add_right_comm,
      Nat.add_assoc]

/-- A text has letters of an alphabet only, or a first character that is none of them. -/
theorem letters_or_first_other (alphabet cs : List Char) :
    (∀ x ∈ cs, x ∈ alphabet) ∨
      ∃ before c after, cs = before ++ c :: after ∧ (∀ x ∈ before, x ∈ alphabet) ∧
        c ∉ alphabet := by
  cases hfind : cs.find? (fun x => decide (x ∉ alphabet)) with
  | none =>
    left
    simpa using hfind
  | some c =>
    right
    obtain ⟨hc, before, after, hcs, hbefore⟩ := List.find?_eq_some_iff_append.1 hfind
    exact ⟨before, c, after, hcs, by simpa using hbefore, by simpa using hc⟩

namespace Base64

/-! ## Sixes and eights -/

/-- A row of sixes that begins with the same bits as a row of eights. -/
theorem byteBits_regrouped {ms ns : List Nat} (k : Nat) (hms : ∀ m ∈ ms, m < 256)
    (hns : ∀ n ∈ ns, n < 64) (hlength : ns.length * 6 = ms.length * 8 + k)
    (hvalue : rowValue 8 0 ms = rowValue 6 0 ns / 2 ^ k) :
    byteBits (ms.map UInt8.ofNat) = (ns.flatMap (bitsOf 6)).take (8 * ms.length) := by
  rw [byteBits_ofNat hms, flatMap_bitsOf hns, hlength, hvalue, Nat.mul_comm 8, take_bitsOf]

theorem length_bytes : ∀ ns : List Nat, (bytes ns).length = 6 * ns.length / 8
  | [] => by simp [bytes]
  | [_] => by simp [bytes]
  | [_, _] => by simp [bytes]
  | [_, _, _] => by simp [bytes]
  | _ :: _ :: _ :: _ :: rest => by
    have := length_bytes rest
    simp only [bytes, List.length_cons]
    omega

theorem bits_four {a b c d : Nat} (ha : a < 64) (hb : b < 64) (hc : c < 64) (hd : d < 64) :
    byteBits [UInt8.ofNat (a * 4 + b / 16), UInt8.ofNat (b % 16 * 16 + c / 4),
      UInt8.ofNat (c % 4 * 64 + d)] = [a, b, c, d].flatMap (bitsOf 6) := by
  have hbytes : ∀ m ∈ [a * 4 + b / 16, b % 16 * 16 + c / 4, c % 4 * 64 + d], m < 256 := by
    simp; omega
  have hsixes : ∀ n ∈ [a, b, c, d], n < 64 := by simp; omega
  have hvalue : rowValue 8 0 [a * 4 + b / 16, b % 16 * 16 + c / 4, c % 4 * 64 + d] =
      rowValue 6 0 [a, b, c, d] / 2 ^ 0 := by
    simp only [rowValue, List.foldl, Nat.pow_zero, Nat.div_one]
    omega
  have hregrouped := byteBits_regrouped 0 hbytes hsixes (by simp) hvalue
  rw [List.take_of_length_le (by simp)] at hregrouped
  exact hregrouped

/-- The bytes of a row of six-bit values have the leading bits of the row. -/
theorem bits_bytes : ∀ {ns : List Nat}, (∀ n ∈ ns, n < 64) →
    byteBits (bytes ns) = (ns.flatMap (bitsOf 6)).take (8 * (bytes ns).length)
  | [], _ => rfl
  | [_], _ => by simp [bytes, byteBits]
  | [a, b], h => by
    have hbyte : ∀ m ∈ [a * 4 + b / 16], m < 256 := by simp at h ⊢; omega
    have hvalue : rowValue 8 0 [a * 4 + b / 16] = rowValue 6 0 [a, b] / 2 ^ 4 := by
      simp only [rowValue, List.foldl]; omega
    exact byteBits_regrouped 4 hbyte h (by simp) hvalue
  | [a, b, c], h => by
    have hbytes : ∀ m ∈ [a * 4 + b / 16, b % 16 * 16 + c / 4], m < 256 := by simp at h ⊢; omega
    have hvalue : rowValue 8 0 [a * 4 + b / 16, b % 16 * 16 + c / 4] =
        rowValue 6 0 [a, b, c] / 2 ^ 2 := by
      simp only [rowValue, List.foldl]; omega
    exact byteBits_regrouped 2 hbytes h (by simp) hvalue
  | a :: b :: c :: d :: rest, h => by
    simp only [List.forall_mem_cons] at h
    obtain ⟨ha, hb, hc, hd, hrest⟩ := h
    have hlength : ([a, b, c, d].flatMap (bitsOf 6)).length = 24 := by simp
    calc byteBits (bytes (a :: b :: c :: d :: rest))
        = byteBits [UInt8.ofNat (a * 4 + b / 16), UInt8.ofNat (b % 16 * 16 + c / 4),
            UInt8.ofNat (c % 4 * 64 + d)] ++ byteBits (bytes rest) := by
          rw [← byteBits_append]; rfl
      _ = [a, b, c, d].flatMap (bitsOf 6) ++
            (rest.flatMap (bitsOf 6)).take (8 * (bytes rest).length) := by
          rw [bits_four ha hb hc hd, bits_bytes hrest]
      _ = (([a, b, c, d] ++ rest).flatMap (bitsOf 6)).take (24 + 8 * (bytes rest).length) := by
          rw [List.flatMap_append, ← hlength, List.take_length_add_append]
      _ = ((a :: b :: c :: d :: rest).flatMap (bitsOf 6)).take
            (8 * (bytes (a :: b :: c :: d :: rest)).length) := by
          rw [bytes, List.length_cons, List.length_cons, List.length_cons, Nat.add_comm 24]
          rfl

/-! ## Letters -/

/-- The letters of base 64, in the order of what they stand for. -/
def alphabet : List Char :=
  ['A', 'B', 'C', 'D', 'E', 'F', 'G', 'H', 'I', 'J', 'K', 'L', 'M',
   'N', 'O', 'P', 'Q', 'R', 'S', 'T', 'U', 'V', 'W', 'X', 'Y', 'Z',
   'a', 'b', 'c', 'd', 'e', 'f', 'g', 'h', 'i', 'j', 'k', 'l', 'm',
   'n', 'o', 'p', 'q', 'r', 's', 't', 'u', 'v', 'w', 'x', 'y', 'z',
   '0', '1', '2', '3', '4', '5', '6', '7', '8', '9', '+', '/']

theorem sextet?_of_mem {c : Char} (h : c ∈ alphabet) : sextet? c = some (alphabet.idxOf c) := by
  have hall : alphabet.all (fun c => sextet? c == some (alphabet.idxOf c)) = true := by
    decide +kernel
  exact eq_of_beq (List.all_eq_true.1 hall c h)

theorem idxOf_lt {c : Char} (h : c ∈ alphabet) : alphabet.idxOf c < 64 := by
  have hlength : alphabet.length = 64 := by decide +kernel
  rw [← hlength]
  exact List.idxOf_lt_length_of_mem h

theorem letter_mem {n : Nat} (h : n < 64) : letter n ∈ alphabet := by
  have hall : (List.range 64).all (fun n => letter n ∈ alphabet) = true := by decide +kernel
  exact of_decide_eq_true (List.all_eq_true.1 hall n (List.mem_range.2 h))

/-- A character with a value is the letter of this value. -/
theorem eq_letter_of_sextet? {c : Char} {n : Nat} (h : sextet? c = some n) :
    n < 64 ∧ letter n = c := by
  have hback : Char.ofNat c.toNat = c := Char.ofNat_toNat c
  unfold sextet? at h
  unfold letter
  grind

theorem sextet?_of_not_mem {c : Char} (h : c ∉ alphabet) : sextet? c = none := by
  cases hc : sextet? c with
  | none => rfl
  | some n =>
    obtain ⟨hn, rfl⟩ := eq_letter_of_sextet? hc
    exact absurd (letter_mem hn) h

theorem sextets_of_letters {cs : List Char} (h : ∀ x ∈ cs, x ∈ alphabet) :
    sextets 0 [] cs = .ok (cs.map alphabet.idxOf) := by
  refine sextets_of_map ?_
  rw [List.map_map]
  exact List.map_congr_left fun x hx => sextet?_of_mem (h x hx)

/-- Behind `before`, which has letters only, stands a character that is none. -/
structure FirstBad (cs before : List Char) (c : Char) : Prop where
  place : ∃ after, cs = before ++ c :: after
  letters : ∀ x ∈ before, x ∈ alphabet
  bad : c ∉ alphabet

theorem letters_or_firstBad (cs : List Char) :
    (∀ x ∈ cs, x ∈ alphabet) ∨ ∃ before c, FirstBad cs before c := by
  refine (letters_or_first_other alphabet cs).imp_right ?_
  rintro ⟨before, c, after, hcs, hbefore, hc⟩
  exact ⟨before, c, ⟨after, hcs⟩, hbefore, hc⟩

theorem FirstBad.refused {cs before : List Char} {c : Char} (h : FirstBad cs before c) :
    sextets 0 [] cs = .error ⟨c, before.length⟩ := by
  obtain ⟨after, rfl⟩ := h.place
  have hletters : ∀ x ∈ before, (sextet? x).isSome = true := by
    intro x hx
    rw [sextet?_of_mem (h.letters x hx)]
    rfl
  have hread : sextets 0 [] (before ++ c :: after) = .error ⟨c, 0 + before.length⟩ := by
    refine read_until_bad ?_ ?_ hletters (sextet?_of_not_mem h.bad) after 0 []
    · intro offset done c cs n hc
      rw [sextets, hc]
    · intro offset done c cs hc
      rw [sextets, hc]
  rwa [Nat.zero_add] at hread

/-! ## What is read of a text -/

/-- The second text is the first with standard letters for the URL-safe ones, without blanks, and
without the padding behind. -/
structure Compacted (text c : List Char) : Prop where
  kept : ∃ padding, ((text.map fun x => if x = '-' then '+' else if x = '_' then '/' else x).filter
    (!Text.isBlank ·)) = c ++ List.replicate padding '='
  unpadded : c.getLast? ≠ some '='

theorem unpadded_append (text : List Char) :
    ∃ padding, text = unpadded text ++ List.replicate padding '=' := by
  have hpadding : ∀ x ∈ text.reverse.takeWhile (· = '='), x = '=' := by
    intro x hx
    have hall := List.all_takeWhile (p := (· = '=')) (l := text.reverse)
    exact of_decide_eq_true (List.all_eq_true.1 hall x hx)
  have hsplit := List.takeWhile_append_dropWhile (p := (· = '=')) (l := text.reverse)
  refine ⟨(text.reverse.takeWhile (· = '=')).length, ?_⟩
  conv_lhs => rw [← List.reverse_reverse text, ← hsplit]
  rw [List.reverse_append, unpadded, List.eq_replicate_of_mem hpadding, List.reverse_replicate,
    List.length_replicate]

theorem compact_compacted (text : List Char) : Compacted text (compact text) := by
  constructor
  · exact unpadded_append _
  · intro hlast
    rw [compact, List.getLast?_reverse] at hlast
    exact absurd (Text.head?_dropWhile hlast) (by decide)

/-- The bits that letters stand for, six for each. -/
def letterBits (cs : List Char) : List Bool :=
  cs.flatMap fun x => bitsOf 6 (alphabet.idxOf x)

theorem length_letterBits (cs : List Char) : (letterBits cs).length = cs.length * 6 := by
  simp [letterBits, List.map_const']

/-- The leading whole bytes of the bits of letters. -/
structure WholeBytes (cs : List Char) (bs : List UInt8) : Prop where
  length : bs.length = 6 * cs.length / 8
  bits : byteBits bs = (letterBits cs).take (8 * bs.length)

theorem bytes_wholeBytes {cs : List Char} (h : ∀ x ∈ cs, x ∈ alphabet) :
    WholeBytes cs (bytes (cs.map alphabet.idxOf)) := by
  have hsixes : ∀ n ∈ cs.map alphabet.idxOf, n < 64 := by
    intro n hn
    obtain ⟨x, hx, rfl⟩ := List.mem_map.1 hn
    exact idxOf_lt (h x hx)
  constructor
  · rw [length_bytes, List.length_map]
  · rw [bits_bytes hsixes, letterBits, List.flatMap_map]

/-- Regular text: letters, and padding up to whole groups of four. -/
inductive PaddedText : List Char → List UInt8 → Prop
  | mk {cs : List Char} {padding : Nat} {bs : List UInt8} (hletters : ∀ x ∈ cs, x ∈ alphabet)
      (hpadding : padding ≤ 2) (hgroups : (cs.length + padding) % 4 = 0)
      (hbytes : WholeBytes cs bs) : PaddedText (cs ++ List.replicate padding '=') bs

/-- Letters without a last one that completes no byte. -/
def whole (cs : List Char) : List Char :=
  if cs.length % 4 = 1 then cs.dropLast else cs

/-- Letters cut to whole bytes and padded to whole groups of four. -/
def padded (cs : List Char) : List Char :=
  whole cs ++ List.replicate ((4 - (whole cs).length % 4) % 4) '='

/-- The letter that is cut off has no bits in a whole byte. -/
theorem WholeBytes.whole {cs : List Char} {bs : List UInt8} (h : WholeBytes cs bs) :
    WholeBytes (whole cs) bs := by
  have hlength := h.length
  unfold Base64.whole
  split
  · next hone =>
    have hbits : letterBits cs = letterBits cs.dropLast ++ letterBits [cs.getLast (by grind)] := by
      conv_lhs => rw [← List.dropLast_concat_getLast (l := cs) (by grind)]
      exact List.flatMap_append
    refine ⟨by rw [List.length_dropLast]; omega, ?_⟩
    rw [h.bits, hbits, List.take_append_of_le_length]
    rw [length_letterBits, List.length_dropLast]
    omega
  · exact h

theorem padded_paddedText {cs : List Char} {bs : List UInt8} (h : ∀ x ∈ cs, x ∈ alphabet)
    (hbytes : WholeBytes cs bs) : PaddedText (padded cs) bs := by
  have hone : (whole cs).length % 4 ≠ 1 := by
    unfold whole
    split
    · rw [List.length_dropLast]; omega
    · assumption
  refine .mk (fun x hx => h x ?_) (by omega) (by omega) hbytes.whole
  unfold whole at hx
  split at hx
  · exact List.dropLast_subset cs hx
  · exact hx

/-! ## Reading -/

theorem decode_of_letters {text : List Char} (h : ∀ x ∈ compact text, x ∈ alphabet) :
    Encoding.base64.decode text = .ok (bytes ((compact text).map alphabet.idxOf)) := by
  unfold Encoding.decode decode
  rw [sextets_of_letters h]
  rfl

theorem FirstBad.decode {text before : List Char} {c : Char}
    (h : FirstBad (compact text) before c) :
    Encoding.base64.decode text = .error (.base64 c before.length) := by
  unfold Encoding.decode Base64.decode
  rw [h.refused]
  rfl

/-- **Base 64 is read as the leading whole bytes of its bits.** Let `c` be a text with standard
letters for URL-safe ones, without blanks and without the padding behind. It is refused exactly if
`c` has a character that is no letter, padding inside included, and the error and its text name the
first of them with its offset in `c`. Otherwise it is read as the bytes that the bits of its letters
fill, whatever the bits behind them are; cut to these bytes and padded to groups of four, the
letters are regular text for them. -/
theorem decode_reads_leading_bytes (text : List Char) :
    ∃ c, Compacted text c ∧
      ((∃ e, Encoding.base64.decode text = .error e) ↔ ∃ x ∈ c, x ∉ alphabet) ∧
      (∀ e, Encoding.base64.decode text = .error e ↔
        ∃ before x, FirstBad c before x ∧ e = .base64 x before.length ∧
          e.message =
            s!"non-base64 character {Text.quote x.toString} at offset {before.length}") ∧
      ((∀ x ∈ c, x ∈ alphabet) → ∃ bs, Encoding.base64.decode text = .ok bs ∧
        WholeBytes c bs ∧ PaddedText (padded c) bs) := by
  refine ⟨compact text, compact_compacted text, ?_, ?_, ?_⟩
  · rcases letters_or_firstBad (compact text) with hletters | ⟨before, x, hbad⟩
    · rw [decode_of_letters hletters]
      simpa using hletters
    · obtain ⟨after, hplace⟩ := hbad.place
      have hx : x ∈ compact text := by simp [hplace]
      exact ⟨fun _ => ⟨x, hx, hbad.bad⟩, fun _ => ⟨_, hbad.decode⟩⟩
  · intro e
    constructor
    · intro he
      rcases letters_or_firstBad (compact text) with hletters | ⟨before, x, hbad⟩
      · rw [decode_of_letters hletters] at he
        cases he
      · rw [hbad.decode] at he
        obtain rfl := Except.error.inj he
        exact ⟨before, x, hbad, rfl, rfl⟩
    · rintro ⟨before, x, hbad, rfl, -⟩
      exact hbad.decode
  · intro hletters
    have hbytes := bytes_wholeBytes hletters
    exact ⟨_, decode_of_letters hletters, hbytes, padded_paddedText hletters hbytes⟩

end Base64
end Dis.Codec
