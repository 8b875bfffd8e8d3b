import Dis.Codec
import Dis.Proofs.Lines
import Dis.Proofs.Words
/-!
# Base 64 and base 16 texts, however they are spelled

What is written in base 64 or base 16 is read back, and so is every text that differs from it only
in what readers pass over. `Text.Respelled` is such a difference: every character may give way to
one that stands for it, and blanks may be put in anywhere.

* `Base64.decode_respelled`: URL-safe letters, blanks, and more or less padding behind make no
  difference to what a text in base 64 is read as, nor to whether it is refused.
* `Base64.decode_encode`: what is written in base 64 is read back.
* `Base16.decode_respelled`: what is written in base 16 is read back, in any letter case and with
  blanks anywhere.
* `decodeInput_respelled`: so integers written in either encoding come back modulo 256, from every
  such spelling of the text.
-/
namespace Dis

/-- The second text is the first with blanks put in and characters replaced by ones that stand for
them. -/
inductive Text.Respelled (stands : Char → Char → Prop) : List Char → List Char → Prop
  | nil : Respelled stands [] []
  | blank {b : Char} {written text : List Char} (hb : isBlank b = true)
      (h : Respelled stands written text) : Respelled stands written (b :: text)
  | char {c c' : Char} {written text : List Char} (hc : stands c c')
      (h : Respelled stands written text) : Respelled stands (c :: written) (c' :: text)

theorem Text.Respelled.refl {stands : Char → Char → Prop} (h : ∀ c, stands c c) (text : List Char) :
    Respelled stands text text := by
  induction text with
  | nil => exact .nil
  | cons c text ih => exact .char (h c) ih

/-- Readers that drop blanks and look at the rest through `view` see no difference. -/
theorem Text.Respelled.filter_map {stands : Char → Char → Prop} {α : Type} {view : Char → α}
    {written text : List Char} (h : Respelled stands written text)
    (hview : ∀ c c', stands c c' → view c' = view c)
    (hblank : ∀ c c', stands c c' → isBlank c' = isBlank c) :
    (text.filter (!isBlank ·)).map view = (written.filter (!isBlank ·)).map view := by
  induction h with
  | nil => rfl
  | blank hb _ ih => rw [List.filter_cons_of_neg (by simp [hb]), ih]
  | @char c c' written text hc _ ih =>
    have hsame := hblank c c' hc
    cases hb : isBlank c with
    | true =>
      rw [List.filter_cons_of_neg (by simp [hsame, hb]), List.filter_cons_of_neg (by simp [hb]), ih]
    | false =>
      rw [List.filter_cons_of_pos (by simp [hsame, hb]), List.filter_cons_of_pos (by simp [hb]),
        List.map_cons, List.map_cons, ih, hview c c' hc]

/-- A number that is a byte's value makes that byte. -/
theorem byte_of_toNat (b : UInt8) {n : Nat} (h : n = b.toNat) : UInt8.ofNat n = b := by
  rw [h, UInt8.ofNat_toNat]

namespace Codec

/-- A reader that goes from digit to digit, and collects their values last first, reads a text of
digits to its end. -/
theorem read_of_map {ε : Type} {value : Char → Option Nat}
    {read : Nat → List Nat → List Char → Except ε (List Nat)}
    (hend : ∀ offset done, read offset done [] = .ok done.reverse)
    (hdigit : ∀ offset done c cs n, value c = some n →
      read offset done (c :: cs) = read (offset + 1) (n :: done) cs)
    {cs : List Char} {ns : List Nat} (h : cs.map value = ns.map some) (offset : Nat)
    (done : List Nat) : read offset done cs = .ok (done.reverse ++ ns) := by
  induction cs generalizing ns offset done with
  | nil =>
    obtain rfl : ns = [] := by simpa using h.symm
    rw [hend, List.append_nil]
  | cons c cs ih =>
    cases ns with
    | nil => cases h
    | cons n ns =>
      obtain ⟨hc, hcs⟩ := List.cons.inj h
      rw [hdigit offset done c cs n hc, ih hcs, List.reverse_cons, List.append_assoc,
        List.singleton_append]

/-! ## Base 64 -/

namespace Base64

/-- A URL-safe letter stands for its standard one, and every character for itself. -/
def StandsFor (c c' : Char) : Prop :=
  c' = c ∨ (c = '+' ∧ c' = '-') ∨ (c = '/' ∧ c' = '_')

/-- The second text is a spelling of the first: other padding behind it, then URL-safe letters for
standard ones and blanks anywhere. -/
def Respelled (written text : List Char) : Prop :=
  ∃ body less more, written = body ++ List.replicate less '=' ∧
    Text.Respelled StandsFor (body ++ List.replicate more '=') text

theorem standard_of_standsFor {c c' : Char} (h : StandsFor c c') : standard c' = standard c := by
  rcases h with rfl | ⟨rfl, rfl⟩ | ⟨rfl, rfl⟩ <;> rfl

theorem isBlank_of_standsFor {c c' : Char} (h : StandsFor c c') :
    Text.isBlank c' = Text.isBlank c := by
  rcases h with rfl | ⟨rfl, rfl⟩ | ⟨rfl, rfl⟩ <;> rfl

theorem isBlank_standard (c : Char) : Text.isBlank (standard c) = Text.isBlank c := by
  unfold standard
  split
  · next h => rw [h]; rfl
  · split
    · next h => rw [h]; rfl
    · rfl

/-- The standard letters of a text, without its blanks. -/
def letters (text : List Char) : List Char :=
  (text.filter (!Text.isBlank ·)).map standard

/-- A text without the padding behind it. -/
def unpadded (text : List Char) : List Char :=
  (text.reverse.dropWhile (· = '=')).reverse

theorem compact_eq (text : List Char) : compact text = unpadded (letters text) := by
  have hfilter : (text.map standard).filter (!Text.isBlank ·) = letters text := by
    rw [List.filter_map, letters]
    congr 2
    funext c
    simp [isBlank_standard]
  rw [compact, hfilter, unpadded]

theorem unpadded_append_replicate (text : List Char) (n : Nat) :
    unpadded (text ++ List.replicate n '=') = unpadded text := by
  have hpadding : ∀ c ∈ List.replicate n '=', decide (c = '=') = true := by
    intro c hc
    rw [List.eq_of_mem_replicate hc]
    rfl
  unfold unpadded
  rw [List.reverse_append, List.reverse_replicate, List.dropWhile_append_of_pos hpadding]

theorem unpadded_of_ne {text : List Char} (h : ∀ c ∈ text, c ≠ '=') : unpadded text = text := by
  unfold unpadded
  cases hlast : text.reverse with
  | nil => rw [← List.reverse_reverse text, hlast]; rfl
  | cons c rest =>
    have hc : c ∈ text := by rw [← List.mem_reverse, hlast]; exact List.mem_cons_self ..
    rw [List.dropWhile_cons_of_neg (by simpa using h c hc), ← hlast, List.reverse_reverse]

theorem letters_append_replicate (text : List Char) (n : Nat) :
    letters (text ++ List.replicate n '=') = letters text ++ List.replicate n '=' := by
  have hblank : (!Text.isBlank '=') = true := rfl
  have hstandard : standard '=' = '=' := rfl
  simp [letters, hblank, hstandard]

/-- No spelling of a text makes a difference to what is read. -/
theorem compact_respelled {written text : List Char} (h : Respelled written text) :
    compact text = compact written := by
  obtain ⟨body, less, more, rfl, hspelled⟩ := h
  have hletters : letters text = letters (body ++ List.replicate more '=') :=
    hspelled.filter_map (fun _ _ => standard_of_standsFor) (fun _ _ => isBlank_of_standsFor)
  rw [compact_eq, compact_eq, hletters, letters_append_replicate, letters_append_replicate,
    unpadded_append_replicate, unpadded_append_replicate]

theorem decode_respelled {written text : List Char} (h : Respelled written text) :
    decode text = decode written := by
  rw [decode, decode, compact_respelled h]

theorem respelled_refl (text : List Char) : Respelled text text :=
  ⟨text, 0, 0, by simp, by simpa using Text.Respelled.refl (fun _ => .inl rfl) text⟩

theorem sextet?_letter {n : Nat} (h : n < 64) : sextet? (letter n) = some n := by
  revert n
  decide

theorem letter_plain {n : Nat} (h : n < 64) :
    standard (letter n) = letter n ∧ Text.isBlank (letter n) = false ∧ letter n ≠ '=' := by
  revert n
  decide

/-- The six-bit values that a byte sequence is written with. -/
def digits : List UInt8 → List Nat
  | a :: b :: c :: rest =>
    a.toNat / 4 :: (a.toNat % 4 * 16 + b.toNat / 16) :: (b.toNat % 16 * 4 + c.toNat / 64) ::
      c.toNat % 64 :: digits rest
  | [a, b] => [a.toNat / 4, a.toNat % 4 * 16 + b.toNat / 16, b.toNat % 16 * 4]
  | [a] => [a.toNat / 4, a.toNat % 4 * 16]
  | [] => []

theorem digits_lt (bs : List UInt8) : ∀ n ∈ digits bs, n < 64 := by
  fun_induction digits bs with
  | case1 a b c rest ih =>
    have ha := a.toNat_lt
    have hb := b.toNat_lt
    have hc := c.toNat_lt
    intro n hn
    simp only [List.mem_cons] at hn
    rcases hn with rfl | rfl | rfl | rfl | hn
    · omega
    · omega
    · omega
    · omega
    · exact ih n hn
  | case2 a b =>
    have ha := a.toNat_lt
    have hb := b.toNat_lt
    intro n hn
    simp only [List.mem_cons, List.not_mem_nil, or_false] at hn
    rcases hn with rfl | rfl | rfl <;> omega
  | case3 a =>
    have ha := a.toNat_lt
    intro n hn
    simp only [List.mem_cons, List.not_mem_nil, or_false] at hn
    rcases hn with rfl | rfl <;> omega
  | case4 => simp

theorem encode_eq (bs : List UInt8) :
    ∃ padding, encode bs = (digits bs).map letter ++ List.replicate padding '=' := by
  fun_induction encode bs with
  | case1 a b c rest ih =>
    obtain ⟨padding, hrest⟩ := ih
    exact ⟨padding, by simp [digits, hrest]⟩
  | case2 a b => exact ⟨1, rfl⟩
  | case3 a => exact ⟨2, rfl⟩
  | case4 => exact ⟨0, rfl⟩

theorem bytes_digits (bs : List UInt8) : bytes (digits bs) = bs := by
  fun_induction digits bs with
  | case1 a b c rest ih =>
    have hb := b.toNat_lt
    have hc := c.toNat_lt
    rw [bytes, ih, byte_of_toNat a (by omega), byte_of_toNat b (by omega),
      byte_of_toNat c (by omega)]
  | case2 a b =>
    have hb := b.toNat_lt
    rw [bytes, byte_of_toNat a (by omega), byte_of_toNat b (by omega)]
  | case3 a => rw [bytes, byte_of_toNat a (by omega)]
  | case4 => rfl

theorem sextets_of_map {cs : List Char} {ns : List Nat} (h : cs.map sextet? = ns.map some) :
    sextets 0 [] cs = .ok ns := by
  refine read_of_map (fun _ _ => rfl) ?_ h 0 []
  intro offset done c cs n hc
  rw [sextets, hc]

theorem compact_encode (bs : List UInt8) : compact (encode bs) = (digits bs).map letter := by
  obtain ⟨padding, hencode⟩ := encode_eq bs
  have hplain : ∀ c ∈ (digits bs).map letter,
      standard c = c ∧ Text.isBlank c = false ∧ c ≠ '=' := by
    intro c hc
    obtain ⟨n, hn, rfl⟩ := List.mem_map.1 hc
    exact letter_plain (digits_lt bs n hn)
  generalize (digits bs).map letter = cs at hencode hplain
  have hletters : letters cs = cs := by
    rw [letters, List.filter_eq_self.2 fun c hc => by simp [(hplain c hc).2.1]]
    exact (List.map_congr_left fun c hc => (hplain c hc).1).trans (List.map_id' cs)
  rw [compact_eq, hencode, letters_append_replicate, unpadded_append_replicate, hletters,
    unpadded_of_ne fun c hc => (hplain c hc).2.2]

theorem decode_encode (bs : List UInt8) : decode (encode bs) = .ok bs := by
  have hsextets : ((digits bs).map letter).map sextet? = (digits bs).map some := by
    rw [List.map_map]
    exact List.map_congr_left fun n hn => sextet?_letter (digits_lt bs n hn)
  rw [decode, compact_encode, sextets_of_map hsextets]
  exact congrArg Except.ok (bytes_digits bs)

end Base64

/-! ## Base 16 -/

namespace Base16

/-- A letter stands for the same letter in the other case, and every character for itself. -/
def StandsFor (c c' : Char) : Prop :=
  c'.toLower = c.toLower

/-- The second text is a spelling of the first: letters in either case, and blanks anywhere. -/
def Respelled (written text : List Char) : Prop :=
  Text.Respelled StandsFor written text

theorem respelled_refl (text : List Char) : Respelled text text := by
  have hself : ∀ c, StandsFor c c := fun _ => rfl
  exact .refl hself text

theorem nibble?_toLower (c : Char) : nibble? c.toLower = nibble? c := by
  unfold nibble?
  rw [Text.toNat_toLower]
  grind

theorem nibble?_digit {n : Nat} (h : n < 16) : nibble? (digit n) = some n := by
  revert n
  decide

theorem isBlank_digit {n : Nat} (h : n < 16) : Text.isBlank (digit n) = false := by
  revert n
  decide

/-- The values of the two digits that a byte is written with. -/
def digits (bs : List UInt8) : List Nat :=
  bs.flatMap fun b => [b.toNat / 16, b.toNat % 16]

theorem digits_lt (bs : List UInt8) : ∀ n ∈ digits bs, n < 16 := by
  intro n hn
  obtain ⟨b, -, hb⟩ := List.mem_flatMap.1 hn
  have hlt := b.toNat_lt
  simp only [List.mem_cons, List.not_mem_nil, or_false] at hb
  rcases hb with rfl | rfl <;> omega

theorem encode_eq (bs : List UInt8) : encode bs = (digits bs).map digit := by
  simp [encode, digits, List.map_flatMap]

theorem bytes_digits (bs : List UInt8) : bytes (digits bs) = bs := by
  induction bs with
  | nil => rfl
  | cons b bs ih =>
    show UInt8.ofNat (b.toNat / 16 * 16 + b.toNat % 16) :: bytes (digits bs) = b :: bs
    rw [byte_of_toNat b (by omega), ih]

theorem nibbles_of_map {cs : List Char} {ns : List Nat} (h : cs.map nibble? = ns.map some) :
    nibbles 0 [] cs = .ok ns := by
  refine read_of_map (fun _ _ => rfl) ?_ h 0 []
  intro offset done c cs n hc
  rw [nibbles, hc]

theorem decode_of_map {text : List Char} {ns : List Nat}
    (h : (compact text).map nibble? = ns.map some) : decode text = .ok (bytes ns) := by
  rw [decode, nibbles_of_map h]
  rfl

theorem map_nibble?_encode (bs : List UInt8) :
    (compact (encode bs)).map nibble? = (digits bs).map some := by
  have hkept : compact (encode bs) = (digits bs).map digit := by
    rw [encode_eq, compact]
    refine List.filter_eq_self.2 fun c hc => ?_
    obtain ⟨n, hn, rfl⟩ := List.mem_map.1 hc
    simp [isBlank_digit (digits_lt bs n hn)]
  rw [hkept, List.map_map]
  exact List.map_congr_left fun n hn => nibble?_digit (digits_lt bs n hn)

theorem decode_respelled {bs : List UInt8} {text : List Char} (h : Respelled (encode bs) text) :
    decode text = .ok bs := by
  have hview : (compact text).map nibble? = (compact (encode bs)).map nibble? := by
    refine Text.Respelled.filter_map h ?_ ?_
    · intro c c' hc
      rw [← nibble?_toLower c', hc, nibble?_toLower]
    · intro c c' hc
      rw [← Text.isBlank_toLower c', hc, Text.isBlank_toLower]
  rw [decode_of_map (hview.trans (map_nibble?_encode bs)), bytes_digits]

end Base16

/-! ## By name -/

theorem toNat_lowByte (n : Int) : ((Encoding.lowByte n).toNat : Int) = n % 256 := by
  unfold Encoding.lowByte
  rw [UInt8.toNat_ofNat']
  have hemod : n.emod 256 = n % 256 := rfl
  omega

theorem lowBytes_ints (vs : List Int) :
    lowBytes (vs.map .int) = .ok (vs.map Encoding.lowByte) := by
  unfold lowBytes
  induction vs with
  | nil => rfl
  | cons v vs ih =>
    rw [List.map_cons, List.mapM_cons, ih]
    rfl

theorem encodeOutput_ints {name : Value} {e : Encoding} (h : Encoding.find name = .ok e)
    (vs : List Int) :
    encodeOutput name (vs.map .int) = .ok (String.ofList (e.encode (vs.map Encoding.lowByte))) := by
  unfold encodeOutput
  rw [h, lowBytes_ints]
  rfl

/-- Words are written by their low bytes. -/
theorem encodeOutput_words {name : Value} {e : Encoding} (h : Encoding.find name = .ok e)
    (words : List Nat) :
    encodeOutput name (words.map fun (n : Nat) => .int n) = .ok (e.encodeWords words) := by
  have hvalues : (words.map fun (n : Nat) => Value.int n) =
      (words.map fun (n : Nat) => (n : Int)).map .int := by
    rw [List.map_map]
    rfl
  rw [hvalues, encodeOutput_ints h, Encoding.encodeWords, List.map_map]
  rfl

theorem decodeInput_text {name : Value} {e : Encoding} (h : Encoding.find name = .ok e)
    (text : String) : decodeInput name (.text text) = (e.decode text.toList).mapError .codec := by
  unfold decodeInput
  rw [h]
  rfl

/-- **Every spelling is read back.** Integers of any size and sign are written by their low bytes.
The text in base 64 gives these bytes back, also with URL-safe letters in it, blanks anywhere, and
more or less padding behind; so does the text in base 16, in any letter case and with blanks
anywhere. -/
theorem decodeInput_respelled (vs : List Int) :
    ∃ bytes : List UInt8, bytes.map (fun b => (b.toNat : Int)) = vs.map (· % 256) ∧
      (∃ written, encodeOutput (.text "base64") (vs.map .int) = .ok written ∧
        decodeInput (.text "base64") (.text written) = .ok bytes ∧
        ∀ text : String, Base64.Respelled written.toList text.toList →
          decodeInput (.text "base64") (.text text) = .ok bytes) ∧
      (∃ written, encodeOutput (.text "base16") (vs.map .int) = .ok written ∧
        decodeInput (.text "base16") (.text written) = .ok bytes ∧
        ∀ text : String, Base16.Respelled written.toList text.toList →
          decodeInput (.text "base16") (.text text) = .ok bytes) := by
  have h64 : ∀ text : String,
      Base64.Respelled (Base64.encode (vs.map Encoding.lowByte)) text.toList →
      decodeInput (.text "base64") (.text text) = .ok (vs.map Encoding.lowByte) := by
    intro text hspelled
    rw [decodeInput_text rfl, Encoding.decode, Base64.decode_respelled hspelled,
      Base64.decode_encode]
    rfl
  have h16 : ∀ text : String,
      Base16.Respelled (Base16.encode (vs.map Encoding.lowByte)) text.toList →
      decodeInput (.text "base16") (.text text) = .ok (vs.map Encoding.lowByte) := by
    intro text hspelled
    rw [decodeInput_text rfl, Encoding.decode, Base16.decode_respelled hspelled]
    rfl
  refine ⟨vs.map Encoding.lowByte, ?_, ⟨_, encodeOutput_ints rfl vs, ?_⟩,
    ⟨_, encodeOutput_ints rfl vs, ?_⟩⟩
  · rw [List.map_map]
    exact List.map_congr_left fun n _ => toNat_lowByte n
  · rw [String.toList_ofList]
    exact ⟨h64 _ (by rw [String.toList_ofList]; exact Base64.respelled_refl _), h64⟩
  · rw [String.toList_ofList]
    exact ⟨h16 _ (by rw [String.toList_ofList]; exact Base16.respelled_refl _), h16⟩

/-- Two bytes with both letters of their own in base 64, written loosely. -/
theorem decodeInput_respelled_loosely :
    decodeInput (.text "base64") (.text " -_\t8= ==") = .ok [251, 255] ∧
      decodeInput (.text "base16") (.text "fB Ff\n") = .ok [251, 255] := by
  obtain ⟨bytes, -, ⟨w64, hw64, hread, h64⟩, ⟨w16, hw16, -, h16⟩⟩ :=
    decodeInput_respelled [-5, 511]
  obtain rfl : "+/8=" = w64 := by
    have hwritten : encodeOutput (.text "base64") [.int (-5), .int 511] = .ok "+/8=" := by rfl
    exact Except.ok.inj (hwritten.symm.trans hw64)
  obtain rfl : "FBFF" = w16 := by
    have hwritten : encodeOutput (.text "base16") [.int (-5), .int 511] = .ok "FBFF" := by rfl
    exact Except.ok.inj (hwritten.symm.trans hw16)
  obtain rfl : [251, 255] = bytes := by
    have hplain : decodeInput (.text "base64") (.text "+/8=") = .ok [251, 255] := by rfl
    exact Except.ok.inj (hplain.symm.trans hread)
  refine ⟨h64 _ ⟨"+/8".toList, 1, 3, by rfl, ?_⟩, h16 _ ?_⟩
  · have hplus : Base64.StandsFor '+' '-' := .inr (.inl ⟨rfl, rfl⟩)
    have hslash : Base64.StandsFor '/' '_' := .inr (.inr ⟨rfl, rfl⟩)
    exact .blank rfl <| .char hplus <| .char hslash <| .blank rfl <| .char (.inl rfl) <|
      .char (.inl rfl) <| .blank rfl <| .char (.inl rfl) <| .char (.inl rfl) .nil
  · unfold Base16.Respelled
    exact .char rfl <| .char rfl <| .blank rfl <| .char rfl <| .char rfl <| .blank rfl .nil

end Codec
end Dis
