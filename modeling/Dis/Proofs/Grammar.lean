import Dis.Machine
import Dis.Proofs.Words
/-!
# The language of program texts

A program text is a row of blanks, command characters and comments. `Written s cmds` says that
`s` is such a row and that `cmds` are its command characters, in order; it is said without the
reader, whose state is a flag and a count.

* `written_cons_iff`: how the first character of a text decides what comes first.
* `readAll_eq_ok_iff`: what the reader loads from the rest of a text, in either of its two modes.
* `parse_eq_ok_iff`: a text loads exactly when it is written with at most as many commands as
  memory has words, and then its codes are loaded.
* `load_exactly_written`: the same for a machine and its memory.
-/
namespace Dis.Program

/-- The code points of the characters that may stand between commands. -/
def blankCodes : List Nat :=
  [0x09, 0x0A, 0x0B, 0x0C, 0x0D, 0x20, 0xA0, 0x1680, 0x2000, 0x2001, 0x2002, 0x2003, 0x2004, 0x2005,
    0x2006, 0x2007, 0x2008, 0x2009, 0x200A, 0x2028, 0x2029, 0x202F, 0x205F, 0x3000, 0xFEFF]

/-- The command characters. -/
def commandChars : List Char := ['!', '*', '>', '^', '_', '\x7b', '|', '\x7d']

/-- The text is a row of blanks, commands and comments, and these are its commands. -/
inductive Written : List Char → List Char → Prop
  | nil : Written [] []
  | blank {c : Char} {s cmds : List Char} (hc : c.toNat ∈ blankCodes) (h : Written s cmds) :
      Written (c :: s) cmds
  | command {c : Char} {s cmds : List Char} (hc : c ∈ commandChars) (h : Written s cmds) :
      Written (c :: s) (c :: cmds)
  | comment {body s cmds : List Char} (hb : ')' ∉ body) (h : Written s cmds) :
      Written ('(' :: (body ++ ')' :: s)) cmds

/-- The rest of a text that begins inside a comment. -/
def WrittenInComment (s cmds : List Char) : Prop :=
  ∃ body rest, ')' ∉ body ∧ s = body ++ ')' :: rest ∧ Written rest cmds

theorem capacity_eq : capacity = 59049 := rfl

/-! ## The characters -/

theorem isSkipped_iff (c : Char) : isSkipped c = true ↔ c.toNat ∈ blankCodes := by
  -- the two ranges are written out first, so that both sides are rows of equations
  have hlow : ∀ n : Nat, (9 ≤ n ∧ n ≤ 13) ↔ n = 9 ∨ n = 10 ∨ n = 11 ∨ n = 12 ∨ n = 13 := by omega
  have hwide : ∀ n : Nat, (0x2000 ≤ n ∧ n ≤ 0x200A) ↔
      n = 0x2000 ∨ n = 0x2001 ∨ n = 0x2002 ∨ n = 0x2003 ∨ n = 0x2004 ∨ n = 0x2005 ∨ n = 0x2006 ∨
        n = 0x2007 ∨ n = 0x2008 ∨ n = 0x2009 ∨ n = 0x200A := by omega
  simp only [isSkipped, blankCodes, Bool.or_eq_true, Bool.and_eq_true, decide_eq_true_eq,
    beq_iff_eq, List.mem_cons, List.not_mem_nil, or_false, hlow, hwide, or_assoc]

/-- A character stands for an instruction exactly when it is a command character, and then the
code of the instruction is the code point. -/
theorem ofChar?_iff (c : Char) :
    (∃ i, Instruction.ofChar? c = some i ∧ i.code = c.toNat) ↔ c ∈ commandChars := by
  constructor
  · intro hstands
    obtain ⟨i, -, hi⟩ := hstands
    have hc : i.char = c := Char.toNat_inj.1 hi
    rw [← hc]
    cases i <;> decide
  · intro h
    simp only [commandChars, List.mem_cons, List.not_mem_nil, or_false] at h
    rcases h with rfl | rfl | rfl | rfl | rfl | rfl | rfl | rfl <;>
      exact ⟨_, rfl, rfl⟩

theorem ofChar?_eq_none (c : Char) (h : c ∉ commandChars) : Instruction.ofChar? c = none := by
  cases hi : Instruction.ofChar? c with
  | none => rfl
  | some i =>
    exact absurd ((ofChar?_iff c).1 ⟨i, hi, Instruction.code_of_ofCode? hi⟩) h

theorem command_not_blank {c : Char} (h : c ∈ commandChars) : c.toNat ∉ blankCodes := by
  simp only [commandChars, List.mem_cons, List.not_mem_nil, or_false] at h
  rcases h with rfl | rfl | rfl | rfl | rfl | rfl | rfl | rfl <;> decide

/-! ## The first character -/

theorem written_nil_iff (cmds : List Char) : Written [] cmds ↔ cmds = [] := by
  constructor
  · intro h; cases h; rfl
  · rintro rfl; exact .nil

theorem written_cons_iff (c : Char) (s cmds : List Char) :
    Written (c :: s) cmds ↔
      (c.toNat ∈ blankCodes ∧ Written s cmds) ∨
      (c ∈ commandChars ∧ ∃ rest, cmds = c :: rest ∧ Written s rest) ∨
      (c = '(' ∧ WrittenInComment s cmds) := by
  constructor
  · intro h
    cases h with
    | blank hc h => exact .inl ⟨hc, h⟩
    | command hc h => exact .inr (.inl ⟨hc, _, rfl, h⟩)
    | comment hb h => exact .inr (.inr ⟨rfl, _, _, hb, rfl, h⟩)
  · intro hcases
    rcases hcases with ⟨hc, h⟩ | ⟨hc, rest, rfl, h⟩ | ⟨rfl, body, rest, hb, rfl, h⟩
    · exact .blank hc h
    · exact .command hc h
    · exact .comment hb h

theorem written_blank_iff {c : Char} (hc : c.toNat ∈ blankCodes) (s cmds : List Char) :
    Written (c :: s) cmds ↔ Written s cmds := by
  have hcmd : c ∉ commandChars := fun h => command_not_blank h hc
  have hopen : c ≠ '(' := by rintro rfl; revert hc; decide
  simp [written_cons_iff, hc, hcmd, hopen]

theorem written_command_iff {c : Char} (hc : c ∈ commandChars) (s cmds : List Char) :
    Written (c :: s) cmds ↔ ∃ rest, cmds = c :: rest ∧ Written s rest := by
  have hopen : c ≠ '(' := by rintro rfl; revert hc; decide
  simp [written_cons_iff, hc, command_not_blank hc, hopen]

theorem written_open_iff (s cmds : List Char) :
    Written ('(' :: s) cmds ↔ WrittenInComment s cmds := by
  have hblank : '('.toNat ∉ blankCodes := by decide
  have hcmd : '(' ∉ commandChars := by decide
  rw [written_cons_iff]
  simp only [hblank, hcmd, false_and, false_or, true_and]

theorem writtenInComment_nil (cmds : List Char) : ¬ WrittenInComment [] cmds := by
  intro hwritten
  obtain ⟨body, rest, -, hs, -⟩ := hwritten
  cases body <;> cases hs

theorem writtenInComment_close_iff (s cmds : List Char) :
    WrittenInComment (')' :: s) cmds ↔ Written s cmds := by
  constructor
  · intro hwritten
    obtain ⟨body, rest, hb, hs, h⟩ := hwritten
    cases body with
    | nil => cases hs; exact h
    | cons x body => cases hs; simp at hb
  · intro h; exact ⟨[], s, by simp, rfl, h⟩

theorem writtenInComment_cons_iff {c : Char} (hc : c ≠ ')') (s cmds : List Char) :
    WrittenInComment (c :: s) cmds ↔ WrittenInComment s cmds := by
  constructor
  · intro hwritten
    obtain ⟨body, rest, hb, hs, h⟩ := hwritten
    cases body with
    | nil => cases hs; exact absurd rfl hc
    | cons x body =>
      cases hs
      exact ⟨body, rest, fun hm => hb (List.mem_cons_of_mem _ hm), rfl, h⟩
  · intro hwritten
    obtain ⟨body, rest, hb, rfl, h⟩ := hwritten
    exact ⟨c :: body, rest, by simp [hb, Ne.symm hc], rfl, h⟩

/-! ## The reader -/

@[simp] theorem advance_comment (r : Reader) (c : Char) : (r.advance c).comment = r.comment := by
  unfold Reader.advance; split <;> rfl

@[simp] theorem advance_image (r : Reader) (c : Char) : (r.advance c).image = r.image := by
  unfold Reader.advance; split <;> rfl

theorem accept_blank (r : Reader) {c : Char} (hr : r.comment = none) (hc : c.toNat ∈ blankCodes) :
    r.accept c = .ok r := by
  unfold Reader.accept
  rw [hr]
  simp only [(isSkipped_iff c).2 hc, if_true]

theorem accept_open (r : Reader) (hr : r.comment = none) :
    r.accept '(' = .ok { r with comment := some r.place } := by
  have hblank : isSkipped '(' = false := by decide
  unfold Reader.accept
  rw [hr]
  simp [hblank]

/-- A command is loaded as long as there is room. -/
theorem accept_command (r : Reader) {c : Char} (hr : r.comment = none) (hc : c ∈ commandChars) :
    r.accept c = if capacity ≤ r.image.size then .error ⟨.tooLong, r.place⟩
      else .ok { r with image := r.image.push c.toNat } := by
  obtain ⟨i, hi, hcode⟩ := (ofChar?_iff c).2 hc
  have hblank : isSkipped c = false := by
    rw [← Bool.not_eq_true, isSkipped_iff]; exact command_not_blank hc
  have hopen : c ≠ '(' := by rintro rfl; revert hc; decide
  unfold Reader.accept
  rw [hr]
  simp [hblank, hopen, hi, hcode]

theorem accept_other (r : Reader) {c : Char} (hr : r.comment = none) (hb : c.toNat ∉ blankCodes)
    (hc : c ∉ commandChars) (ho : c ≠ '(') : r.accept c = .error ⟨.notInstruction c, r.place⟩ := by
  have hblank : isSkipped c = false := by rw [← Bool.not_eq_true, isSkipped_iff]; exact hb
  unfold Reader.accept
  rw [hr]
  simp [hblank, ho, ofChar?_eq_none c hc]

theorem accept_in_comment (r : Reader) (c : Char) {p : Place} (hr : r.comment = some p) :
    r.accept c = .ok (if c = ')' then { r with comment := none } else r) := by
  unfold Reader.accept; rw [hr]

/-- What is loaded on top of `before` when `cmds` are the commands still to come. -/
def loadedOn (before : Array Nat) (cmds : List Char) : Array Nat :=
  before ++ (cmds.map Char.toNat).toArray

@[simp] theorem loadedOn_nil (before : Array Nat) : loadedOn before [] = before := by
  simp [loadedOn]

@[simp] theorem loadedOn_cons (before : Array Nat) (c : Char) (cmds : List Char) :
    loadedOn before (c :: cmds) = loadedOn (before.push c.toNat) cmds := by
  simp [loadedOn]

theorem loadedOn_size (before : Array Nat) (cmds : List Char) :
    (loadedOn before cmds).size = before.size + cmds.length := by
  simp [loadedOn]

theorem readAll_cons (r : Reader) (c : Char) (s : List Char) :
    r.readAll (c :: s) = match (r.advance c).accept c with
      | .error e => .error e
      | .ok r => r.readAll s := rfl

/-- Which grammar a reader follows: inside a comment, or outside. -/
def Reader.Reads (r : Reader) (s cmds : List Char) : Prop :=
  match r.comment with
  | none => Written s cmds
  | some _ => WrittenInComment s cmds

/-- The reader loads from the rest of a text exactly what is written there. -/
theorem readAll_eq_ok_iff (r : Reader) (s : List Char) (image : Array Nat)
    (hr : r.image.size ≤ capacity) :
    r.readAll s = .ok image ↔
      ∃ cmds, r.Reads s cmds ∧ image = loadedOn r.image cmds ∧ image.size ≤ capacity := by
  induction s generalizing r with
  | nil =>
    cases hc : r.comment with
    | some p => simp [Reader.readAll, Reader.Reads, hc, writtenInComment_nil]
    | none =>
      simp only [Reader.readAll, Reader.Reads, hc, written_nil_iff, Except.ok.injEq]
      constructor
      · rintro rfl; exact ⟨[], rfl, by simp, hr⟩
      · rintro ⟨cmds, rfl, rfl, -⟩; simp
  | cons c s ih =>
    have hadv : (r.advance c).image.size ≤ capacity := by simpa using hr
    rw [readAll_cons]
    cases hc : r.comment with
    | some p =>
      rw [accept_in_comment _ c (by simpa using hc)]
      by_cases hclose : c = ')'
      · subst hclose
        simp only [if_true]
        rw [ih _ (by simpa using hr)]
        simp [Reader.Reads, hc, writtenInComment_close_iff]
      · simp only [if_neg hclose]
        rw [ih _ hadv]
        simp [Reader.Reads, hc, writtenInComment_cons_iff hclose]
    | none =>
      have hadvc : (r.advance c).comment = none := by simpa using hc
      by_cases hblank : c.toNat ∈ blankCodes
      · rw [accept_blank _ hadvc hblank]
        simp only
        rw [ih _ hadv]
        simp [Reader.Reads, hc, written_blank_iff hblank]
      by_cases hopen : c = '('
      · subst hopen
        rw [accept_open _ hadvc]
        simp only
        rw [ih _ (by simpa using hr)]
        simp [Reader.Reads, hc, written_open_iff]
      by_cases hcmd : c ∈ commandChars
      · rw [accept_command _ hadvc hcmd]
        simp only [Reader.Reads, hc, written_command_iff hcmd, advance_image]
        by_cases hfull : capacity ≤ r.image.size
        · rw [if_pos hfull]
          simp only [reduceCtorEq, false_iff]
          intro hwritten
          obtain ⟨cmds, ⟨rest, rfl, -⟩, rfl, hsize⟩ := hwritten
          rw [loadedOn_size, List.length_cons] at hsize
          omega
        · rw [if_neg hfull]
          simp only
          rw [ih _ (by simp; omega)]
          simp only [Reader.Reads, hadvc]
          constructor
          · intro hwritten
            obtain ⟨rest, hw, rfl, hsize⟩ := hwritten
            exact ⟨c :: rest, ⟨rest, rfl, hw⟩, by simp, hsize⟩
          · intro hwritten
            obtain ⟨cmds, ⟨rest, rfl, hw⟩, rfl, hsize⟩ := hwritten
            exact ⟨rest, hw, by simp, hsize⟩
      · rw [accept_other _ hadvc hblank hcmd hopen]
        simp only [reduceCtorEq, false_iff, Reader.Reads, hc]
        intro hwritten
        obtain ⟨cmds, hw, -⟩ := hwritten
        rw [written_cons_iff] at hw
        simp [hblank, hopen, hcmd] at hw

/-- A text loads exactly when it is written with few enough commands, and then as their codes. -/
theorem parse_eq_ok_iff (s : List Char) (image : Array Nat) :
    parse s = .ok image ↔
      ∃ cmds, Written s cmds ∧ image = (cmds.map Char.toNat).toArray ∧ cmds.length ≤ capacity := by
  unfold parse
  rw [readAll_eq_ok_iff _ _ _ (Nat.zero_le _)]
  constructor
  · intro hwritten
    obtain ⟨cmds, hw, rfl, hsize⟩ := hwritten
    exact ⟨cmds, hw, by simp [loadedOn], by simpa [loadedOn] using hsize⟩
  · intro hwritten
    obtain ⟨cmds, hw, rfl, hsize⟩ := hwritten
    exact ⟨cmds, hw, by simp [loadedOn], by simpa [loadedOn] using hsize⟩

/-! ## The machine loaded with a text -/

theorem written_commands {s cmds : List Char} (h : Written s cmds) :
    ∀ c ∈ cmds, c ∈ commandChars := by
  induction h with
  | nil => simp
  | blank _ _ ih => exact ih
  | command hc _ ih => simpa [hc] using ih
  | comment _ _ ih => exact ih

theorem command_lt {c : Char} (h : c ∈ commandChars) : c.toNat < Radix.trits.limit := by
  simp only [commandChars, List.mem_cons, List.not_mem_nil, or_false] at h
  rcases h with rfl | rfl | rfl | rfl | rfl | rfl | rfl | rfl <;> decide

/-- The codes of commands pass the checks that memory makes of any image. -/
theorem ofValues_commands {cmds : List Char} (hc : ∀ c ∈ cmds, c ∈ commandChars)
    (hlen : cmds.length ≤ capacity) :
    Memory.ofValues (cmds.map fun c => .int c.toNat) =
      .ok (Memory.ofImage (cmds.map Char.toNat).toArray) := by
  have hwords : Memory.checkWords "memory word" #[] (cmds.map fun c => .int c.toNat) =
      .ok (cmds.map Char.toNat).toArray := by
    refine (Memory.checkWords_eq_ok_iff _ _ _ _).2 ⟨cmds.map Char.toNat, ?_, by simp⟩
    rw [List.map_map, List.map_map, Function.comp_def, Function.comp_def]
    apply List.map_congr_left
    intro c h
    exact Radix.word?_natCast Radix.trits c.toNat (command_lt (hc c h))
  have hsize : ¬ Memory.size < (cmds.map Char.toNat).toArray.size := by
    rw [capacity_eq] at hlen
    rw [memory_size, List.size_toArray, List.length_map]
    omega
  unfold Memory.ofValues
  rw [hwords]
  simp only [bind, Except.bind]
  rw [if_neg hsize]

theorem load_eq_ok_iff (s : String) (m : Machine) :
    Machine.load s = .ok m ↔ ∃ image, parse s.toList = .ok image ∧ m = Machine.ofImage image := by
  unfold Machine.load
  cases parse s.toList <;> simp [Except.map, eq_comm]

/-- A row of commands and nothing else is loaded as it stands. -/
theorem load_commands (cmds : List Char) (hcmds : ∀ c ∈ cmds, c ∈ commandChars)
    (hlen : cmds.length ≤ 59049) :
    Machine.load (String.ofList cmds) = .ok (Machine.ofImage (cmds.map Char.toNat).toArray) := by
  have hw : Written cmds cmds := by
    induction cmds with
    | nil => exact .nil
    | cons c cmds ih =>
      exact .command (hcmds c (List.mem_cons_self ..))
        (ih (fun c' hc' => hcmds c' (List.mem_cons_of_mem c hc')) (Nat.le_of_succ_le hlen))
  refine (load_eq_ok_iff _ _).2 ⟨_, (parse_eq_ok_iff _ _).2 ⟨cmds, ?_, rfl, hlen⟩, rfl⟩
  rw [String.toList_ofList]
  exact hw

/-- **The language of program texts.** A text loads exactly when it is a row of blanks, commands
and comments with at most 59049 commands; its image is then the code points of the commands, which
memory accepts, and memory holds the image and zeros behind it. -/
theorem load_exactly_written (s : String) :
    ((∃ image, parse s.toList = .ok image) ↔
      ∃ cmds, Written s.toList cmds ∧ cmds.length ≤ 59049) ∧
    ((∃ m, Machine.load s = .ok m) ↔ ∃ image, parse s.toList = .ok image) ∧
    ∀ cmds, Written s.toList cmds → cmds.length ≤ 59049 →
      parse s.toList = .ok (cmds.map Char.toNat).toArray ∧
      ∃ m, Machine.load s = .ok m ∧
        Memory.ofValues (cmds.map fun c => .int c.toNat) = .ok m.memory ∧
        m.memory.words.toList = cmds.map Char.toNat ++ List.replicate (59049 - cmds.length) 0 ∧
        m.memory.words.size = 59049 ∧ m.programLength = cmds.length := by
  refine ⟨?_, ?_, ?_⟩
  · constructor
    · intro hparsed
      obtain ⟨image, h⟩ := hparsed
      obtain ⟨cmds, hw, -, hlen⟩ := (parse_eq_ok_iff _ _).1 h
      exact ⟨cmds, hw, hlen⟩
    · intro hwritten
      obtain ⟨cmds, hw, hlen⟩ := hwritten
      exact ⟨_, (parse_eq_ok_iff _ _).2 ⟨cmds, hw, rfl, hlen⟩⟩
  · constructor
    · intro hloaded
      obtain ⟨m, hm⟩ := hloaded
      obtain ⟨image, h, -⟩ := (load_eq_ok_iff s m).1 hm
      exact ⟨image, h⟩
    · intro hparsed
      obtain ⟨image, h⟩ := hparsed
      exact ⟨_, (load_eq_ok_iff s _).2 ⟨image, h, rfl⟩⟩
  · intro cmds hw hlen
    have hparse := (parse_eq_ok_iff _ _).2 ⟨cmds, hw, rfl, hlen⟩
    refine ⟨hparse, _, (load_eq_ok_iff s _).2 ⟨_, hparse, rfl⟩,
      ofValues_commands (written_commands hw) hlen, ?_, ?_, ?_⟩
    · simp [Machine.ofImage, Memory.ofImage]
    · simp only [Machine.ofImage, Memory.ofImage, memory_size, Array.size_append, List.size_toArray,
        List.length_map, Array.size_replicate]
      omega
    · simp [Machine.ofImage]

/-- A comment that opens another, a byte-order mark and two commands. -/
theorem load_exactly_written_sample :
    Written "(*(!)\uFEFF\x7d\x7b".toList ['\x7d', '\x7b'] ∧
      parse "(*(!)\uFEFF\x7d\x7b".toList = .ok #[125, 123] := by
  have hs : "(*(!)\uFEFF\x7d\x7b".toList =
      '(' :: (['*', '(', '!'] ++ ')' :: ['\uFEFF', '\x7d', '\x7b']) := by
    simp
  have hw : Written "(*(!)\uFEFF\x7d\x7b".toList ['\x7d', '\x7b'] := by
    rw [hs]
    exact .comment (by decide)
      (.blank (by decide) (.command (by decide) (.command (by decide) .nil)))
  exact ⟨hw, ((load_exactly_written _).2.2 _ hw (by decide)).1⟩

end Dis.Program
