import Dis.Proofs.Spellings
/-!
# Well-formed UTF-8, and what becomes of the rest

`rows` is the table of the byte sequences that are characters, one row for each shape; a byte
sequence is well-formed when it is characters one after another. Where no character begins, the
bytes up to where the character begun goes wrong are a `MaximalPart`: the longest part that begins
a character, or one byte when none does. `Replaced` says what lossy decoding is to answer: each
character for its bytes, and one replacement character for each maximal part.

* `firstPiece_cases`: the first piece is the character in front, or else the maximal part there.
* `replaced_iff`: lossy decoding gives the one answer that `Replaced` allows.
* `decodeLossy_encode`, `encode_decodeLossy_iff`: a text comes back from its bytes, and bytes from
  their text exactly if they are well-formed.
* `encodeOutput_utf8_lossless`: the same for the encoding by its name.
-/
namespace Dis.Utf8

/-! ## The table of characters -/

/-- A range of bytes, its ends included. -/
structure ByteRange where
  low : Nat
  high : Nat
  deriving DecidableEq

def ByteRange.Holds (r : ByteRange) (b : UInt8) : Prop :=
  r.low ≤ b.toNat ∧ b.toNat ≤ r.high

instance (r : ByteRange) (b : UInt8) : Decidable (r.Holds b) :=
  inferInstanceAs (Decidable (_ ∧ _))

/-- The bytes that continue a character where nothing more is asked. -/
def tail : ByteRange := ⟨0x80, 0xBF⟩

/-- The well-formed characters. Overlong forms are left out after `E0` and `F0`, surrogates after
`ED`, and what lies beyond the last code point after `F4`. -/
def rows : List (List ByteRange) :=
  [[⟨0x00, 0x7F⟩],
   [⟨0xC2, 0xDF⟩, tail],
   [⟨0xE0, 0xE0⟩, ⟨0xA0, 0xBF⟩, tail],
   [⟨0xE1, 0xEC⟩, tail, tail],
   [⟨0xED, 0xED⟩, ⟨0x80, 0x9F⟩, tail],
   [⟨0xEE, 0xEF⟩, tail, tail],
   [⟨0xF0, 0xF0⟩, ⟨0x90, 0xBF⟩, tail, tail],
   [⟨0xF1, 0xF3⟩, tail, tail, tail],
   [⟨0xF4, 0xF4⟩, ⟨0x80, 0x8F⟩, tail, tail]]

/-- The bytes lie in the ranges of a row, one in each. -/
inductive Fills : List ByteRange → List UInt8 → Prop
  | nil : Fills [] []
  | cons {r : ByteRange} {row : List ByteRange} {b : UInt8} {bytes : List UInt8} (hb : r.Holds b)
      (h : Fills row bytes) : Fills (r :: row) (b :: bytes)

/-- The bytes are one character. -/
def IsChar (bytes : List UInt8) : Prop :=
  ∃ row ∈ rows, Fills row bytes

/-- The bytes begin a character. -/
def IsStart (bytes : List UInt8) : Prop :=
  ∃ more, IsChar (bytes ++ more)

/-- The bytes are characters one after another. -/
def WellFormed (bytes : List UInt8) : Prop :=
  ∃ chars : List (List UInt8), (∀ char ∈ chars, IsChar char) ∧ chars.flatten = bytes

/-- The bytes have no character in front, and `part` is the longest part in front that begins one,
or a single byte. -/
structure MaximalPart (part bytes : List UInt8) : Prop where
  front : part <+: bytes
  no_char : ∀ char, char <+: bytes → ¬ IsChar char
  begun : part.length = 1 ∨ 1 < part.length ∧ IsStart part
  longest : ∀ start, start <+: bytes → IsStart start → start.length ≤ part.length

/-- Lossy decoding as it should be: characters are kept, and each maximal part where there is none
gives way to one replacement character. -/
inductive Replaced : List UInt8 → List Char → Prop
  | nil : Replaced [] []
  | char (c : Char) {rest : List UInt8} {text : List Char} (h : Replaced rest text) :
      Replaced (String.utf8EncodeChar c ++ rest) (c :: text)
  | part {part rest : List UInt8} {text : List Char} (hpart : MaximalPart part (part ++ rest))
      (h : Replaced rest text) : Replaced (part ++ rest) (replacement :: text)

/-! ## Characters and their bytes -/

theorem toNat_valid (c : Char) : c.toNat < 0xD800 ∨ 0xDFFF < c.toNat ∧ c.toNat < 0x110000 :=
  c.valid

theorem toNat_charOfNat {n : Nat} (h : n < 0xD800 ∨ 0xDFFF < n ∧ n < 0x110000) :
    (Char.ofNat n).toNat = n := by
  have hvalid : n.isValidChar := h
  rw [Char.ofNat, dif_pos hvalid]
  rfl

theorem encodeChar_eq (c : Char) : encodeChar c = String.utf8EncodeChar c := by
  have hvalid := toNat_valid c
  have hval : c.val.toNat = c.toNat := rfl
  unfold encodeChar String.utf8EncodeChar
  rw [hval]
  generalize c.toNat = n at hvalid
  dsimp only
  by_cases h1 : n < 0x80
  · rw [if_pos h1, if_pos (by omega)]
  by_cases h2 : n < 0x800
  · rw [if_neg h1, if_pos h2, if_neg (by omega), if_pos (by omega), Nat.add_comm 0xC0,
      Nat.add_comm 0x80, Nat.mod_eq_of_lt (show n / 64 < 0x20 by omega)]
  by_cases h3 : n < 0x10000
  · rw [if_neg h1, if_neg h2, if_pos h3, if_neg (by omega), if_neg (by omega), if_pos (by omega),
      Nat.add_comm 0xE0, Nat.add_comm 0x80, Nat.add_comm 0x80,
      Nat.mod_eq_of_lt (show n / 4096 < 0x10 by omega)]
  · rw [if_neg h1, if_neg h2, if_neg h3, if_neg (by omega), if_neg (by omega), if_neg (by omega),
      Nat.add_comm 0xF0, Nat.add_comm 0x80, Nat.add_comm 0x80, Nat.add_comm 0x80,
      Nat.mod_eq_of_lt (show n / 262144 < 0x08 by omega)]

/-- No character's bytes begin another's. -/
theorem utf8EncodeChar_append_inj {c c' : Char} {rest rest' : List UInt8}
    (h : String.utf8EncodeChar c ++ rest = String.utf8EncodeChar c' ++ rest') : c = c' := by
  have hdecode : ∀ (c : Char) (rest : List UInt8),
      ((String.utf8EncodeChar c ++ rest).toByteArray).utf8DecodeChar? 0 = some c := by
    intro c rest
    rw [List.toByteArray_append]
    exact ByteArray.utf8DecodeChar?_utf8EncodeChar_append
  have hsame := hdecode c rest
  rw [h, hdecode c' rest'] at hsame
  exact (Option.some.inj hsame).symm

theorem Fills.cons_ofNat {low high n : Nat} {row : List ByteRange} {bytes : List UInt8}
    (hn : low ≤ n ∧ n ≤ high ∧ n < 256) (h : Fills row bytes) :
    Fills (⟨low, high⟩ :: row) (UInt8.ofNat n :: bytes) := by
  have htoNat : (UInt8.ofNat n).toNat = n := by
    rw [UInt8.toNat_ofNat']
    omega
  refine .cons ?_ h
  rw [ByteRange.Holds, htoNat]
  exact ⟨hn.1, hn.2.1⟩

theorem isChar_encodeChar (c : Char) : IsChar (encodeChar c) := by
  have hvalid := toNat_valid c
  unfold encodeChar
  generalize c.toNat = n at hvalid
  dsimp only
  have htail : Fills [tail] [UInt8.ofNat (0x80 + n % 64)] := .cons_ofNat (by omega) .nil
  have htails : Fills [tail, tail]
      [UInt8.ofNat (0x80 + n / 64 % 64), UInt8.ofNat (0x80 + n % 64)] :=
    .cons_ofNat (by omega) htail
  -- the first byte picks the row
  split
  · exact ⟨[⟨0x00, 0x7F⟩], by decide, .cons_ofNat (by omega) .nil⟩
  split
  · exact ⟨[⟨0xC2, 0xDF⟩, tail], by decide, .cons_ofNat (by omega) htail⟩
  split
  · by_cases hE0 : n / 4096 = 0
    · exact ⟨[⟨0xE0, 0xE0⟩, ⟨0xA0, 0xBF⟩, tail], by decide,
        .cons_ofNat (by omega) (.cons_ofNat (by omega) htail)⟩
    by_cases hEC : n / 4096 < 0xD
    · exact ⟨[⟨0xE1, 0xEC⟩, tail, tail], by decide, .cons_ofNat (by omega) htails⟩
    by_cases hED : n / 4096 = 0xD
    · exact ⟨[⟨0xED, 0xED⟩, ⟨0x80, 0x9F⟩, tail], by decide,
        .cons_ofNat (by omega) (.cons_ofNat (by omega) htail)⟩
    · exact ⟨[⟨0xEE, 0xEF⟩, tail, tail], by decide, .cons_ofNat (by omega) htails⟩
  · by_cases hF0 : n / 262144 = 0
    · exact ⟨[⟨0xF0, 0xF0⟩, ⟨0x90, 0xBF⟩, tail, tail], by decide,
        .cons_ofNat (by omega) (.cons_ofNat (by omega) htails)⟩
    by_cases hF3 : n / 262144 < 4
    · exact ⟨[⟨0xF1, 0xF3⟩, tail, tail, tail], by decide,
        .cons_ofNat (by omega) (.cons_ofNat (by omega) htails)⟩
    · exact ⟨[⟨0xF4, 0xF4⟩, ⟨0x80, 0x8F⟩, tail, tail], by decide,
        .cons_ofNat (by omega) (.cons_ofNat (by omega) htails)⟩

/-! ## Rows by their first byte -/

/-- The ranges that the reader checks after a first byte. -/
def Lead.row (l : Lead) : List ByteRange :=
  ⟨l.low.toNat, l.high.toNat⟩ :: List.replicate (l.more - 1) tail

def row? (b : UInt8) : Option (List ByteRange) :=
  if b < 0x80 then some [] else (lead? b).map Lead.row

/-- What a first byte contributes to the code point. -/
def payload (b : UInt8) : Nat :=
  if b < 0x80 then b.toNat else (lead? b).elim 0 Lead.payload

/-- The rest of a row whose first range holds the byte. -/
def rest? (b : UInt8) : List ByteRange → Option (List ByteRange)
  | [] => none
  | r :: row => if r.Holds b then some row else none

/-- The reader follows the only row of the table that takes the byte. -/
theorem filterMap_rest?_rows (b : UInt8) : rows.filterMap (rest? b) = (row? b).toList := by
  have hall : ∀ n < 256,
      rows.filterMap (rest? (UInt8.ofNat n)) = (row? (UInt8.ofNat n)).toList := by
    decide +kernel
  simpa using hall b.toNat b.toNat_lt

theorem row?_eq_some_iff {b : UInt8} {row : List ByteRange} :
    row? b = some row ↔ ∃ r, r :: row ∈ rows ∧ r.Holds b := by
  rw [← Option.mem_toList, ← filterMap_rest?_rows, List.mem_filterMap]
  constructor
  · rintro ⟨_ | ⟨r, row'⟩, hmem, hrest⟩
    · cases hrest
    · rw [rest?] at hrest
      split at hrest
      · next hr =>
        cases hrest
        exact ⟨r, hmem, hr⟩
      · cases hrest
  · rintro ⟨r, hmem, hr⟩
    exact ⟨r :: row, hmem, by rw [rest?, if_pos hr]⟩

theorem isChar_cons_iff {b : UInt8} {bytes : List UInt8} :
    IsChar (b :: bytes) ↔ ∃ row, row? b = some row ∧ Fills row bytes := by
  constructor
  · rintro ⟨_, hmem, _ | ⟨hb, hfills⟩⟩
    exact ⟨_, row?_eq_some_iff.2 ⟨_, hmem, hb⟩, hfills⟩
  · rintro ⟨row, hrow, hfills⟩
    obtain ⟨r, hmem, hb⟩ := row?_eq_some_iff.1 hrow
    exact ⟨r :: row, hmem, .cons hb hfills⟩

theorem not_isChar_nil : ¬ IsChar [] := by
  have hrows : [] ∉ rows := by decide
  rintro ⟨_, hmem, _ | _⟩
  exact hrows hmem

/-- The bytes lie in the first ranges of a row. -/
inductive Begins : List ByteRange → List UInt8 → Prop
  | nil (row : List ByteRange) : Begins row []
  | cons {r : ByteRange} {row : List ByteRange} {b : UInt8} {bytes : List UInt8} (hb : r.Holds b)
      (h : Begins row bytes) : Begins (r :: row) (b :: bytes)

theorem Fills.begins {row : List ByteRange} {bytes : List UInt8} (h : Fills row bytes) :
    Begins row bytes := by
  induction h with
  | nil => exact .nil []
  | cons hb _ ih => exact .cons hb ih

theorem Fills.length_eq {row : List ByteRange} {bytes : List UInt8} (h : Fills row bytes) :
    bytes.length = row.length := by
  induction h with
  | nil => rfl
  | cons _ _ ih => exact congrArg Nat.succ ih

theorem Begins.of_append {row : List ByteRange} {bytes more : List UInt8}
    (h : Begins row (bytes ++ more)) : Begins row bytes := by
  induction bytes generalizing row with
  | nil => exact .nil row
  | cons b bytes ih =>
    obtain _ | ⟨hb, hrest⟩ := h
    exact .cons hb (ih hrest)

/-- Every row can be gone through to its end. -/
theorem Begins.completion {row : List ByteRange} {bytes : List UInt8} (h : Begins row bytes)
    (hrow : ∀ r ∈ row, ∃ b, r.Holds b) : ∃ more, Fills row (bytes ++ more) := by
  induction h with
  | nil row =>
    induction row with
    | nil => exact ⟨[], .nil⟩
    | cons r row ih =>
      obtain ⟨b, hb⟩ := hrow r List.mem_cons_self
      obtain ⟨more, hmore⟩ := ih fun r hr => hrow r (List.mem_cons_of_mem _ hr)
      exact ⟨b :: more, .cons hb hmore⟩
  | cons hb _ ih =>
    obtain ⟨more, hmore⟩ := ih fun r hr => hrow r (List.mem_cons_of_mem _ hr)
    exact ⟨more, .cons hb hmore⟩

theorem isStart_cons_iff {b : UInt8} {bytes : List UInt8} :
    IsStart (b :: bytes) ↔ ∃ row, row? b = some row ∧ Begins row bytes := by
  constructor
  · rintro ⟨more, hchar⟩
    obtain ⟨row, hrow, hfills⟩ := isChar_cons_iff.1 hchar
    exact ⟨row, hrow, hfills.begins.of_append⟩
  · rintro ⟨row, hrow, hbegins⟩
    have hlow : ∀ row ∈ rows, ∀ r ∈ row, r.Holds (UInt8.ofNat r.low) := by decide
    obtain ⟨r, hmem, -⟩ := row?_eq_some_iff.1 hrow
    obtain ⟨more, hmore⟩ := hbegins.completion fun r' hr' =>
      ⟨_, hlow _ hmem r' (List.mem_cons_of_mem _ hr')⟩
    exact ⟨more, isChar_cons_iff.2 ⟨row, hrow, hmore⟩⟩

theorem IsChar.isStart {bytes : List UInt8} (h : IsChar bytes) : IsStart bytes :=
  ⟨[], by rwa [List.append_nil]⟩

/-! ## Reading one piece -/

/-- The bytes go along the row for `part` and leave it there. -/
structure Leaves (row : List ByteRange) (bytes part : List UInt8) : Prop where
  front : part <+: bytes
  begun : Begins row part
  short : part.length < row.length
  longest : ∀ start, start <+: bytes → Begins row start → start.length ≤ part.length

theorem leaves_end (r : ByteRange) (row : List ByteRange) : Leaves (r :: row) [] [] where
  front := List.prefix_rfl
  begun := .nil _
  short := Nat.succ_pos _
  longest _ hstart _ := hstart.length_le

theorem leaves_at {r : ByteRange} (row : List ByteRange) {b : UInt8} (bytes : List UInt8)
    (hb : ¬ r.Holds b) : Leaves (r :: row) (b :: bytes) [] where
  front := List.nil_prefix
  begun := .nil _
  short := Nat.succ_pos _
  longest start hstart hbegins := by
    obtain _ | ⟨hb', -⟩ := hbegins
    · exact Nat.le_refl _
    · obtain ⟨rfl, -⟩ := List.cons_prefix_cons.1 hstart
      exact absurd hb' hb

theorem Leaves.cons {r : ByteRange} {row : List ByteRange} {b : UInt8} {bytes part : List UInt8}
    (hb : r.Holds b) (h : Leaves row bytes part) : Leaves (r :: row) (b :: bytes) (b :: part) where
  front := List.cons_prefix_cons.2 ⟨rfl, h.front⟩
  begun := .cons hb h.begun
  short := Nat.succ_lt_succ h.short
  longest start hstart hbegins := by
    obtain _ | ⟨-, hbegins⟩ := hbegins
    · exact Nat.zero_le _
    · exact Nat.succ_le_succ (h.longest _ (List.cons_prefix_cons.1 hstart).2 hbegins)

/-- The code point of a character, from what its first byte contributes and its other bytes. -/
def codePoint (payload : Nat) (part : List UInt8) : Nat :=
  part.foldl (fun n b => n * 64 + (b.toNat - 0x80)) payload

theorem holds_iff (low high b : UInt8) :
    ByteRange.Holds ⟨low.toNat, high.toNat⟩ b ↔ (low ≤ b && b ≤ high) = true := by
  simp [ByteRange.Holds, UInt8.le_iff_toNat_le]

theorem gather_cases (taken : List UInt8) (n more : Nat) (bytes : List UInt8) :
    (∃ part, part <+: bytes ∧ Fills (List.replicate more tail) part ∧
      gather taken n more bytes = .char (Char.ofNat (codePoint n part)) (taken.reverse ++ part)) ∨
    (∃ why part, Leaves (List.replicate more tail) bytes part ∧
      gather taken n more bytes = .bad why (taken.reverse ++ part)) := by
  fun_induction gather taken n more bytes with
  | case1 => exact .inl ⟨[], List.nil_prefix, .nil, by simp [codePoint]⟩
  | case2 taken n more => exact .inr ⟨.cutShort, [], leaves_end tail _, by simp⟩
  | case3 taken n more b bytes hb ih =>
    have htail : tail.Holds b := (holds_iff 0x80 0xBF b).2 hb
    rcases ih with ⟨part, hfront, hfills, heq⟩ | ⟨why, part, hpart, heq⟩
    · exact .inl ⟨b :: part, List.cons_prefix_cons.2 ⟨rfl, hfront⟩, .cons htail hfills,
        by simp [heq, codePoint]⟩
    · exact .inr ⟨why, b :: part, hpart.cons htail, by simp [heq]⟩
  | case4 taken n more b bytes hb =>
    have htail : ¬ tail.Holds b := fun h => hb ((holds_iff 0x80 0xBF b).1 h)
    exact .inr ⟨.badContinuation, [], leaves_at _ bytes htail, by simp⟩

/-- The first piece by the row of its first byte. -/
theorem firstPiece_follows (b : UInt8) (rest : List UInt8) :
    (row? b = none ∧ ∃ why, firstPiece b rest = .bad why [b]) ∨
    ∃ row, row? b = some row ∧
      ((∃ part, part <+: rest ∧ Fills row part ∧
        firstPiece b rest = .char (Char.ofNat (codePoint (payload b) part)) (b :: part)) ∨
      (∃ why part, Leaves row rest part ∧ firstPiece b rest = .bad why (b :: part))) := by
  by_cases hascii : b < 0x80
  · refine .inr ⟨[], by rw [row?, if_pos hascii], .inl ⟨[], List.nil_prefix, .nil, ?_⟩⟩
    rw [firstPiece, if_pos hascii, payload, if_pos hascii]
    rfl
  rw [row?, if_neg hascii, firstPiece, if_neg hascii, payload, if_neg hascii]
  cases hlead : lead? b with
  | none => exact .inl ⟨rfl, .badStart, rfl⟩
  | some l =>
    refine .inr ⟨l.row, rfl, ?_⟩
    cases rest with
    | nil => exact .inr ⟨.cutShort, [], leaves_end _ _, rfl⟩
    | cons b2 rest =>
      dsimp only
      split
      · next hb2 =>
        have hholds := (holds_iff l.low l.high b2).2 hb2
        rcases gather_cases [b2, b] (l.payload * 64 + (b2.toNat - 0x80)) (l.more - 1) rest with
          ⟨part, hfront, hfills, heq⟩ | ⟨why, part, hpart, heq⟩
        · exact .inl ⟨b2 :: part, List.cons_prefix_cons.2 ⟨rfl, hfront⟩, .cons hholds hfills,
            by simp [heq, codePoint]⟩
        · exact .inr ⟨why, b2 :: part, hpart.cons hholds, by simp [heq]⟩
      · next hb2 =>
        have hholds := fun h => hb2 ((holds_iff l.low l.high b2).1 h)
        exact .inr ⟨.badContinuation, [], leaves_at _ rest hholds, rfl⟩

/-! ## The code point of a character's bytes -/

theorem payload_eq (b : UInt8) :
    (b.toNat < 0x80 → payload b = b.toNat) ∧
    (0xC2 ≤ b.toNat ∧ b.toNat ≤ 0xDF → payload b = b.toNat - 0xC0) ∧
    (0xE0 ≤ b.toNat ∧ b.toNat ≤ 0xEF → payload b = b.toNat - 0xE0) ∧
    (0xF0 ≤ b.toNat ∧ b.toNat ≤ 0xF4 → payload b = b.toNat - 0xF0) := by
  have hall : ∀ n < 256,
      (n < 0x80 → payload (UInt8.ofNat n) = n) ∧
      (0xC2 ≤ n ∧ n ≤ 0xDF → payload (UInt8.ofNat n) = n - 0xC0) ∧
      (0xE0 ≤ n ∧ n ≤ 0xEF → payload (UInt8.ofNat n) = n - 0xE0) ∧
      (0xF0 ≤ n ∧ n ≤ 0xF4 → payload (UInt8.ofNat n) = n - 0xF0) := by
    decide +kernel
  simpa using hall b.toNat b.toNat_lt

theorem encodeChar_one {b : UInt8} (hb : b.toNat ≤ 0x7F) :
    encodeChar (Char.ofNat (codePoint (payload b) [])) = [b] := by
  have hn : codePoint (payload b) [] = b.toNat := (payload_eq b).1 (by omega)
  rw [hn, encodeChar, toNat_charOfNat (by omega), if_pos (by omega), UInt8.ofNat_toNat]

theorem encodeChar_two {b x : UInt8} (hb : 0xC2 ≤ b.toNat ∧ b.toNat ≤ 0xDF) (hx : tail.Holds x) :
    encodeChar (Char.ofNat (codePoint (payload b) [x])) = [b, x] := by
  have hn : codePoint (payload b) [x] = (b.toNat - 0xC0) * 64 + (x.toNat - 0x80) := by
    rw [(payload_eq b).2.1 hb]
    rfl
  simp only [tail, ByteRange.Holds] at hx
  generalize codePoint (payload b) [x] = n at hn
  rw [encodeChar, toNat_charOfNat (by omega), if_neg (by omega), if_pos (by omega),
    byte_of_toNat b (by omega), byte_of_toNat x (by omega)]

theorem encodeChar_three {b x y : UInt8} (hb : 0xE0 ≤ b.toNat ∧ b.toNat ≤ 0xEF)
    (hx : 0x80 ≤ x.toNat ∧ x.toNat ≤ 0xBF) (hy : tail.Holds y)
    (hlong : b.toNat = 0xE0 → 0xA0 ≤ x.toNat) (hsurrogate : b.toNat = 0xED → x.toNat ≤ 0x9F) :
    encodeChar (Char.ofNat (codePoint (payload b) [x, y])) = [b, x, y] := by
  have hn : codePoint (payload b) [x, y] =
      ((b.toNat - 0xE0) * 64 + (x.toNat - 0x80)) * 64 + (y.toNat - 0x80) := by
    rw [(payload_eq b).2.2.1 hb]
    rfl
  simp only [tail, ByteRange.Holds] at hy
  generalize codePoint (payload b) [x, y] = n at hn
  rw [encodeChar, toNat_charOfNat (by omega), if_neg (by omega), if_neg (by omega),
    if_pos (by omega), byte_of_toNat b (by omega), byte_of_toNat x (by omega),
    byte_of_toNat y (by omega)]

theorem encodeChar_four {b x y z : UInt8} (hb : 0xF0 ≤ b.toNat ∧ b.toNat ≤ 0xF4)
    (hx : 0x80 ≤ x.toNat ∧ x.toNat ≤ 0xBF) (hy : tail.Holds y) (hz : tail.Holds z)
    (hlong : b.toNat = 0xF0 → 0x90 ≤ x.toNat) (hlast : b.toNat = 0xF4 → x.toNat ≤ 0x8F) :
    encodeChar (Char.ofNat (codePoint (payload b) [x, y, z])) = [b, x, y, z] := by
  have hn : codePoint (payload b) [x, y, z] =
      (((b.toNat - 0xF0) * 64 + (x.toNat - 0x80)) * 64 + (y.toNat - 0x80)) * 64 +
        (z.toNat - 0x80) := by
    rw [(payload_eq b).2.2.2 hb]
    rfl
  simp only [tail, ByteRange.Holds] at hy hz
  generalize codePoint (payload b) [x, y, z] = n at hn
  rw [encodeChar, toNat_charOfNat (by omega), if_neg (by omega), if_neg (by omega),
    if_neg (by omega), byte_of_toNat b (by omega), byte_of_toNat x (by omega),
    byte_of_toNat y (by omega), byte_of_toNat z (by omega)]

/-- The code point of a character's bytes has these bytes. -/
theorem utf8EncodeChar_codePoint {b : UInt8} {row : List ByteRange} {part : List UInt8}
    (hrow : row? b = some row) (h : Fills row part) :
    String.utf8EncodeChar (Char.ofNat (codePoint (payload b) part)) = b :: part := by
  rw [← encodeChar_eq]
  obtain ⟨r, hmem, hb⟩ := row?_eq_some_iff.1 hrow
  simp only [rows, List.mem_cons, List.not_mem_nil, or_false, List.cons.injEq] at hmem
  -- one goal a row: one byte, two bytes, four rows of three and three rows of four
  rcases hmem with ⟨rfl, rfl⟩ | ⟨rfl, rfl⟩ | ⟨rfl, rfl⟩ | ⟨rfl, rfl⟩ | ⟨rfl, rfl⟩ | ⟨rfl, rfl⟩ |
    ⟨rfl, rfl⟩ | ⟨rfl, rfl⟩ | ⟨rfl, rfl⟩ <;> simp only [ByteRange.Holds] at hb
  · obtain _ | _ := h
    exact encodeChar_one hb.2
  · obtain _ | ⟨hx, _ | _⟩ := h
    exact encodeChar_two hb hx
  iterate 4
    · obtain _ | ⟨hx, _ | ⟨hy, _ | _⟩⟩ := h
      simp only [tail, ByteRange.Holds] at hx
      exact encodeChar_three (by omega) (by omega) hy (by omega) (by omega)
  iterate 3
    · obtain _ | ⟨hx, _ | ⟨hy, _ | ⟨hz, _ | _⟩⟩⟩ := h
      simp only [tail, ByteRange.Holds] at hx
      exact encodeChar_four (by omega) (by omega) hy hz (by omega) (by omega)

theorem isChar_iff {bytes : List UInt8} : IsChar bytes ↔ ∃ c, encodeChar c = bytes := by
  constructor
  · intro hchar
    cases bytes with
    | nil => exact absurd hchar not_isChar_nil
    | cons b part =>
      obtain ⟨row, hrow, hfills⟩ := isChar_cons_iff.1 hchar
      exact ⟨_, (encodeChar_eq _).trans (utf8EncodeChar_codePoint hrow hfills)⟩
  · rintro ⟨c, rfl⟩
    exact isChar_encodeChar c

/-! ## Lossy decoding -/

/-- Where no row takes the first byte, that byte is the maximal part. -/
theorem maximalPart_singleton {b : UInt8} (rest : List UInt8) (hnone : row? b = none) :
    MaximalPart [b] (b :: rest) := by
  have hstart : ∀ start, start <+: b :: rest → IsStart start → start = [] := by
    intro start hfront hstart
    cases start with
    | nil => rfl
    | cons b' start =>
      obtain ⟨rfl, -⟩ := List.cons_prefix_cons.1 hfront
      obtain ⟨row, hrow, -⟩ := isStart_cons_iff.1 hstart
      rw [hnone] at hrow
      cases hrow
  refine ⟨⟨rest, rfl⟩, ?_, .inl rfl, ?_⟩
  · intro char hfront hchar
    obtain rfl := hstart char hfront hchar.isStart
    exact not_isChar_nil hchar
  · intro start hfront hbegun
    rw [hstart start hfront hbegun]
    exact Nat.zero_le _

/-- Where the bytes leave the row of the first byte, they leave the maximal part behind. -/
theorem maximalPart_cons {b : UInt8} {row : List ByteRange} {rest part : List UInt8}
    (hrow : row? b = some row) (h : Leaves row rest part) :
    MaximalPart (b :: part) (b :: rest) := by
  have hstart : ∀ start, start <+: b :: rest → IsStart start →
      start.length ≤ part.length + 1 := by
    intro start hfront hstart
    cases start with
    | nil => exact Nat.zero_le _
    | cons b' start =>
      obtain ⟨rfl, hrest⟩ := List.cons_prefix_cons.1 hfront
      obtain ⟨row', hrow', hbegins⟩ := isStart_cons_iff.1 hstart
      obtain rfl : row' = row := Option.some.inj (hrow'.symm.trans hrow)
      exact Nat.succ_le_succ (h.longest start hrest hbegins)
  refine ⟨List.cons_prefix_cons.2 ⟨rfl, h.front⟩, ?_, ?_, hstart⟩
  · intro char hfront hchar
    have hlength := hstart char hfront hchar.isStart
    cases char with
    | nil => exact not_isChar_nil hchar
    | cons b' char =>
      obtain ⟨rfl, -⟩ := List.cons_prefix_cons.1 hfront
      obtain ⟨row', hrow', hfills⟩ := isChar_cons_iff.1 hchar
      obtain rfl : row' = row := Option.some.inj (hrow'.symm.trans hrow)
      have hfull := hfills.length_eq
      have hshort := h.short
      rw [List.length_cons] at hlength
      omega
  · cases part with
    | nil => exact .inl rfl
    | cons b2 part =>
      exact .inr ⟨Nat.succ_lt_succ (Nat.succ_pos _), isStart_cons_iff.2 ⟨row, hrow, h.begun⟩⟩

/-- The first piece is the character in front, or else the maximal part in front. -/
theorem firstPiece_cases (b : UInt8) (rest : List UInt8) :
    (∃ c, String.utf8EncodeChar c <+: b :: rest ∧
      firstPiece b rest = .char c (String.utf8EncodeChar c)) ∨
    (∃ why part, MaximalPart part (b :: rest) ∧ firstPiece b rest = .bad why part) := by
  rcases firstPiece_follows b rest with ⟨hnone, why, heq⟩ |
    ⟨row, hrow, ⟨part, hfront, hfills, heq⟩ | ⟨why, part, hpart, heq⟩⟩
  · exact .inr ⟨why, [b], maximalPart_singleton rest hnone, heq⟩
  · rw [← utf8EncodeChar_codePoint hrow hfills] at heq
    refine .inl ⟨_, ?_, heq⟩
    rw [utf8EncodeChar_codePoint hrow hfills]
    exact List.cons_prefix_cons.2 ⟨rfl, hfront⟩
  · exact .inr ⟨why, b :: part, maximalPart_cons hrow hpart, heq⟩

theorem MaximalPart.ne_nil {part bytes : List UInt8} (h : MaximalPart part bytes) : part ≠ [] := by
  rintro rfl
  rcases h.begun with hone | ⟨hmore, -⟩
  · cases hone
  · cases hmore

/-- There is one maximal part in front at most. -/
theorem MaximalPart.unique {part part' bytes : List UInt8} (h : MaximalPart part bytes)
    (h' : MaximalPart part' bytes) : part = part' := by
  have hle : ∀ {part part' : List UInt8}, MaximalPart part bytes → MaximalPart part' bytes →
      part.length ≤ part'.length := by
    intro part part' h h'
    rcases h.begun with hone | ⟨-, hstart⟩
    · rw [hone]
      exact List.length_pos_iff.2 h'.ne_nil
    · exact h'.longest part h.front hstart
  exact (List.prefix_of_prefix_length_le h.front h'.front (hle h h')).eq_of_length_le (hle h' h)

theorem isChar_utf8EncodeChar (c : Char) : IsChar (String.utf8EncodeChar c) :=
  isChar_iff.2 ⟨c, encodeChar_eq c⟩

theorem utf8EncodeChar_ne_nil (c : Char) : String.utf8EncodeChar c ≠ [] := by
  intro hnil
  exact not_isChar_nil (hnil ▸ isChar_utf8EncodeChar c)

theorem piecesFrom_eq (done : List Piece) (bytes : List UInt8) :
    piecesFrom done bytes = done.reverse ++ pieces bytes := by
  -- by length, since the pieces behind the first are read with another `done`
  induction hn : bytes.length using Nat.strongRecOn generalizing done bytes with
  | ind n ih =>
    cases bytes with
    | nil => simp [pieces, piecesFrom]
    | cons b rest =>
      have hlt : (rest.drop ((firstPiece b rest).bytes.length - 1)).length < n := by
        rw [List.length_cons] at hn
        rw [List.length_drop]
        omega
      rw [pieces, piecesFrom, piecesFrom, ih _ hlt _ _ rfl, ih _ hlt [_] _ rfl]
      simp

theorem decodeLossy_nil : decodeLossy [] = [] := by
  simp [decodeLossy, pieces, piecesFrom]

/-- The pieces go on behind the first. -/
theorem pieces_of_firstPiece {b : UInt8} {tail rest : List UInt8} {piece : Piece}
    (hpiece : firstPiece b tail = piece) (hbytes : piece.bytes ++ rest = b :: tail)
    (hne : piece.bytes ≠ []) : pieces (b :: tail) = piece :: pieces rest := by
  have hrest : tail.drop (piece.bytes.length - 1) = rest := by
    cases hcons : piece.bytes with
    | nil => exact absurd hcons hne
    | cons b' part =>
      rw [hcons] at hbytes
      obtain ⟨-, rfl⟩ := List.cons.inj hbytes
      exact List.drop_left
  rw [pieces, piecesFrom, hpiece, piecesFrom_eq, hrest]
  rfl

theorem pieces_char (c : Char) (rest : List UInt8) :
    pieces (String.utf8EncodeChar c ++ rest) =
      .char c (String.utf8EncodeChar c) :: pieces rest := by
  cases hbytes : String.utf8EncodeChar c ++ rest with
  | nil => exact absurd (List.append_eq_nil_iff.1 hbytes).1 (utf8EncodeChar_ne_nil c)
  | cons b tail =>
    rcases firstPiece_cases b tail with ⟨c', ⟨rest', hrest'⟩, hpiece⟩ | ⟨why, part, hpart, -⟩
    · obtain rfl : c = c' := utf8EncodeChar_append_inj (hbytes.trans hrest'.symm)
      exact pieces_of_firstPiece hpiece hbytes (utf8EncodeChar_ne_nil c)
    · exact absurd (isChar_utf8EncodeChar c) (hpart.no_char _ ⟨rest, hbytes⟩)

theorem decodeLossy_char (c : Char) (rest : List UInt8) :
    decodeLossy (String.utf8EncodeChar c ++ rest) = c :: decodeLossy rest := by
  rw [decodeLossy, pieces_char]
  rfl

theorem decodeLossy_part {part rest : List UInt8} (h : MaximalPart part (part ++ rest)) :
    decodeLossy (part ++ rest) = replacement :: decodeLossy rest := by
  cases hbytes : part ++ rest with
  | nil => exact absurd (List.append_eq_nil_iff.1 hbytes).1 h.ne_nil
  | cons b tail =>
    rw [hbytes] at h
    rcases firstPiece_cases b tail with ⟨c, hfront, -⟩ | ⟨why, part', hpart', hpiece⟩
    · exact absurd (isChar_utf8EncodeChar c) (h.no_char _ hfront)
    · obtain rfl := h.unique hpart'
      rw [decodeLossy, pieces_of_firstPiece hpiece hbytes h.ne_nil]
      rfl

theorem replaced_decodeLossy (bytes : List UInt8) : Replaced bytes (decodeLossy bytes) := by
  induction hn : bytes.length using Nat.strongRecOn generalizing bytes with
  | ind n ih =>
    cases bytes with
    | nil =>
      rw [decodeLossy_nil]
      exact .nil
    | cons b tail =>
      have hshorter : ∀ {piece rest : List UInt8}, piece ≠ [] → piece ++ rest = b :: tail →
          rest.length < n := by
        intro piece rest hne hbytes
        have hpos := List.length_pos_iff.2 hne
        rw [← hn, ← hbytes, List.length_append]
        omega
      rcases firstPiece_cases b tail with ⟨c, ⟨rest, hrest⟩, -⟩ | ⟨why, part, hpart, -⟩
      · have hlt := hshorter (utf8EncodeChar_ne_nil c) hrest
        rw [← hrest, decodeLossy_char]
        exact .char c (ih _ hlt rest rfl)
      · obtain ⟨rest, hrest⟩ := hpart.front
        have hlt := hshorter hpart.ne_nil hrest
        rw [← hrest] at hpart ⊢
        rw [decodeLossy_part hpart]
        exact .part hpart (ih _ hlt rest rfl)

/-- Lossy decoding gives the one answer there should be. -/
theorem replaced_iff {bytes : List UInt8} {text : List Char} :
    Replaced bytes text ↔ text = decodeLossy bytes := by
  constructor
  · intro h
    induction h with
    | nil => exact decodeLossy_nil.symm
    | char c _ ih => rw [decodeLossy_char, ih]
    | part hpart _ ih => rw [decodeLossy_part hpart, ih]
  · rintro rfl
    exact replaced_decodeLossy bytes

theorem encode_cons (c : Char) (text : List Char) :
    encode (c :: text) = String.utf8EncodeChar c ++ encode text := by
  rw [encode, List.flatMap_cons, encodeChar_eq, encode]

theorem decodeLossy_encode (text : List Char) : decodeLossy (encode text) = text := by
  induction text with
  | nil => exact decodeLossy_nil
  | cons c text ih => rw [encode_cons, decodeLossy_char, ih]

theorem collect_encode (position : Nat) (done text : List Char) :
    collect position done (pieces (encode text)) = .ok (done.reverse ++ text) := by
  induction text generalizing position done with
  | nil => simp [encode, pieces, piecesFrom, collect]
  | cons c text ih =>
    rw [encode_cons, pieces_char, collect, ih]
    simp

/-- Strict decoding accepts what was encoded. -/
theorem decode_encode (text : List Char) : decode (encode text) = .ok text :=
  collect_encode 0 [] text

theorem wellFormed_encode (text : List Char) : WellFormed (encode text) := by
  refine ⟨text.map encodeChar, ?_, (List.flatMap_def ..).symm⟩
  intro char hmem
  obtain ⟨c, -, rfl⟩ := List.mem_map.1 hmem
  exact isChar_encodeChar c

theorem exists_encode_eq {bytes : List UInt8} (h : WellFormed bytes) :
    ∃ text, encode text = bytes := by
  obtain ⟨chars, hchars, rfl⟩ := h
  induction chars with
  | nil => exact ⟨[], rfl⟩
  | cons char chars ih =>
    obtain ⟨text, htext⟩ := ih fun char hmem => hchars char (List.mem_cons_of_mem _ hmem)
    obtain ⟨c, rfl⟩ := isChar_iff.1 (hchars _ List.mem_cons_self)
    exact ⟨c :: text, by rw [List.flatten_cons, ← htext]; rfl⟩

theorem encode_decodeLossy_iff (bytes : List UInt8) :
    encode (decodeLossy bytes) = bytes ↔ WellFormed bytes := by
  constructor
  · intro h
    rw [← h]
    exact wellFormed_encode _
  · intro h
    obtain ⟨text, rfl⟩ := exists_encode_eq h
    rw [decodeLossy_encode]

end Dis.Utf8

namespace Dis.Codec

/-- The values of bytes. -/
def byteValues (bytes : List UInt8) : List Value :=
  bytes.map fun b => .int b.toNat

theorem encodeOutput_byteValues {name : Value} {e : Encoding} (h : Encoding.find name = .ok e)
    (bytes : List UInt8) :
    encodeOutput name (byteValues bytes) = .ok (String.ofList (e.encode bytes)) := by
  have hvalues : byteValues bytes = (bytes.map UInt8.toNat).map fun (n : Nat) => .int n := by
    rw [byteValues, List.map_map]
    rfl
  have hlow : (bytes.map UInt8.toNat).map (fun n => UInt8.ofNat (n % 256)) = bytes := by
    rw [List.map_map]
    refine (List.map_congr_left fun b _ => ?_).trans (List.map_id' bytes)
    exact byte_of_toNat b (Nat.mod_eq_of_lt b.toNat_lt)
  rw [hvalues, encodeOutput_words h, Encoding.encodeWords, hlow]

/-- **UTF-8 loses nothing but what is ill-formed.** A text comes back from its bytes. Bytes come
back from their text exactly if they are well-formed. The text has each character of the bytes in
its place, and one replacement character for each maximal part that is none. -/
theorem encodeOutput_utf8_lossless :
    (∀ text : String, ∃ bytes, decodeInput (.text "utf-8") (.text text) = .ok bytes ∧
      encodeOutput (.text "utf-8") (byteValues bytes) = .ok text) ∧
    ∀ bytes : List UInt8, ∃ text : String,
      encodeOutput (.text "utf-8") (byteValues bytes) = .ok text ∧
      (decodeInput (.text "utf-8") (.text text) = .ok bytes ↔ Utf8.WellFormed bytes) ∧
      ∀ cs, Utf8.Replaced bytes cs ↔ cs = text.toList := by
  refine ⟨fun text => ⟨Utf8.encode text.toList, rfl, ?_⟩, fun bytes =>
    ⟨_, encodeOutput_byteValues rfl bytes, ?_, ?_⟩⟩
  · rw [encodeOutput_byteValues rfl, Encoding.encode, Utf8.decodeLossy_encode, String.ofList_toList]
  · have hback : decodeInput (.text "utf-8") (.text (String.ofList (Encoding.utf8.encode bytes))) =
        .ok (Utf8.encode (Utf8.decodeLossy bytes)) := by
      rw [decodeInput_text rfl, String.toList_ofList]
      rfl
    rw [hback, ← Utf8.encode_decodeLossy_iff]
    exact ⟨Except.ok.inj, congrArg Except.ok⟩
  · intro cs
    rw [String.toList_ofList]
    exact Utf8.replaced_iff

-- a character cut short, one that is kept, and the three bytes of a surrogate
example : Utf8.decodeLossy [0xF0, 0x9F, 0x41, 0xED, 0xA0, 0x80] =
    [Utf8.replacement, 'A', Utf8.replacement, Utf8.replacement, Utf8.replacement] := by
  decide +kernel

end Dis.Codec
