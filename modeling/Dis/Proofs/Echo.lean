import Dis.Proofs.Feeding
import Dis.Proofs.InterpreterOutput
import Dis.Proofs.WellFormedUtf8
import Mathlib.Data.List.TakeWhile
/-!
# The program that echoes its input

Two commands, `input` and `output`, and nothing but zeros behind them. Zeros are no instructions, so
C and D run through them and around the end of memory, and the next value is read. The program stops
when A holds the greatest word: because it was read, or because there was nothing to read.

* `AtTop.round`: a word that is read and put out costs a whole way through memory.
* `AtTop.finish`: both ways to stop take two steps.
* `AtTop.echoed`: by induction on the input, what the program has done when it stops.
* `echo_copies_input`: this for the program text, and for texts in UTF-8 from end to end.
-/
namespace Dis

namespace Machine

/-! ## The program -/

/-- The program stands in memory and is about to read. -/
structure AtTop (m : Machine) : Prop where
  first : m.memory.read 0 = 125
  second : m.memory.read 1 = 123
  behind : ∀ address, 2 ≤ address → m.memory.read address = 0
  going : m.halted = false
  c : m.c = 0
  d : m.d = 0

theorem atTop_ofImage : (ofImage #[125, 123]).AtTop where
  first := Memory.read_ofImage #[125, 123] (by decide)
  second := Memory.read_ofImage #[125, 123] (by decide)
  behind _ h := Memory.read_ofImage_behind #[125, 123] h
  going := rfl
  c := rfl
  d := rfl

variable {m : Machine}

theorem AtTop.withQueue (h : m.AtTop) (q : Queue Value) : { m with queue := q }.AtTop :=
  { h with }

theorem AtTop.instruction?_eq (h : m.AtTop) : m.instruction? = some .input := by
  rw [instruction?_eq_input_iff, h.c, h.first]

/-- The machine with a value taken from the queue into A. -/
def taking (m : Machine) (x : Nat) (rest : Queue Value) : Machine :=
  { m with a := x, queue := rest }

/-- The machine that has read `x` and put it out. -/
def echoedOnce (m : Machine) (x : Nat) (rest : Queue Value) : Machine :=
  { m with
    a := x
    c := 2
    d := 2
    queue := rest
    output := m.output.push x
    steps := m.steps + 2 }

/-- Having read, the machine stands before `output`. -/
theorem AtTop.second_instruction (h : m.AtTop) (x : Nat) (rest : Queue Value) :
    (m.taking x rest).advance.instruction? = some .output := by
  unfold instruction? advance taking
  simp only [h.c, memory_size]
  rw [h.second]
  rfl

theorem AtTop.reaches_taking (h : m.AtTop) {x : Nat} {rest : Queue Value}
    (hact : Act m (some .input) (m.taking x rest)) : m.Reaches 1 (m.taking x rest).advance := by
  refine reaches_of_act h.going ?_
  rw [h.instruction?_eq]
  exact hact

theorem AtTop.reaches_echoedOnce (h : m.AtTop) {x : Nat} {rest : Queue Value}
    (hq : m.queue.next? = some (.int x, rest)) (hx : x < 59048) :
    m.Reaches 2 (m.echoedOnce x rest) := by
  have hword : Radix.trits.word? (.int x) = some x :=
    Radix.trits.word?_natCast x (by rw [trits_limit]; omega)
  have hne : x ≠ Radix.trits.greatest := by
    rw [trits_greatest]
    omega
  have hput : Act (m.taking x rest).advance (m.taking x rest).advance.instruction?
      { (m.taking x rest).advance with output := m.output.push x } := by
    rw [h.second_instruction]
    exact .output hne
  have hreaches := (h.reaches_taking (.taken _ rest x hq hword)).trans
    (reaches_of_act (m := (m.taking x rest).advance) h.going hput)
  simpa [advance, taking, echoedOnce, h.c, h.d, Nat.add_assoc] using hreaches

/-- All words behind the program are zeros, and the last of them leads back to its top. -/
theorem AtTop.reaches_top (h : m.AtTop) (x : Nat) (rest : Queue Value) :
    (m.echoedOnce x rest).Reaches 59047 ((m.echoedOnce x rest).drifted 59047) := by
  have hsize : 2 < Memory.size := by
    rw [memory_size]
    omega
  refine reaches_drifted (m := m.echoedOnce x rest) h.going hsize hsize 59047 ?_
  intro k hk
  have hc : ((m.echoedOnce x rest).drifted k).c = 2 + k :=
    Nat.mod_eq_of_lt (show 2 + k < Memory.size by rw [memory_size]; omega)
  have hzero : m.memory.read (2 + k) = 0 := h.behind _ (Nat.le_add_right 2 k)
  unfold instruction?
  rw [hc]
  show Instruction.ofCode? (m.memory.read (2 + k)) = none
  rw [hzero]
  rfl

/-- The machine at the top of the program again, with `x` echoed. -/
def backAtTop (m : Machine) (x : Nat) (rest : Queue Value) : Machine :=
  { m with
    a := x
    queue := rest
    output := m.output.push x
    steps := m.steps + 59049 }

theorem AtTop.backAtTop (h : m.AtTop) (x : Nat) (rest : Queue Value) :
    (m.backAtTop x rest).AtTop :=
  { h with }

theorem AtTop.drifted_eq (h : m.AtTop) (x : Nat) (rest : Queue Value) :
    (m.echoedOnce x rest).drifted 59047 = m.backAtTop x rest := by
  have hsteps : m.steps + 2 + 59047 = m.steps + 59049 := by omega
  have hplace : (2 + 59047) % Memory.size = 0 := by rw [memory_size]
  simp only [drifted, echoedOnce, Machine.backAtTop, hsteps, hplace, h.c, h.d]

/-- A word that is read and put out costs as many steps as memory has words. -/
theorem AtTop.round (h : m.AtTop) {x : Nat} {rest : Queue Value}
    (hq : m.queue.next? = some (.int x, rest)) (hx : x < 59048) :
    m.Reaches 59049 (m.backAtTop x rest) := by
  rw [← h.drifted_eq x rest]
  exact (h.reaches_echoedOnce hq hx).trans (h.reaches_top x rest)

/-- Reading the greatest word and finding nothing to read end alike. -/
theorem AtTop.finish (h : m.AtTop) {rest : Queue Value}
    (hact : Act m (some .input) (m.taking 59048 rest)) :
    m.Reaches 2 { m with
      a := 59048
      c := 1
      d := 1
      halted := true
      queue := rest
      steps := m.steps + 2 } := by
  have hstopping : (m.taking 59048 rest).advance.Stopping :=
    .inr ⟨h.second_instruction 59048 rest, trits_greatest.symm⟩
  have hreaches := (h.reaches_taking hact).trans
    (reaches_of_stopping (m := (m.taking 59048 rest).advance) h.going hstopping)
  simpa [advance, taking, stop, h.c, h.d, Nat.add_assoc] using hreaches

/-- The program has stopped on the input `xs`: what stood before the first greatest word has been put
out, and what stands behind it is still in the queue. -/
structure Echoed (m : Machine) (xs : List Nat) (m' : Machine) : Prop where
  halted : m'.halted = true
  output : m'.output.toList = m.output.toList ++ xs.takeWhile (· ≠ 59048)
  unread : m'.queue.toList = ((xs.dropWhile (· ≠ 59048)).drop 1).map fun (x : Nat) => .int x
  memory : m'.memory = m.memory
  a : m'.a = 59048
  c : m'.c = 1
  d : m'.d = 1

theorem AtTop.echoed (h : m.AtTop) {xs : List Nat}
    (hq : m.queue.toList = xs.map fun (x : Nat) => .int x) (hxs : ∀ x ∈ xs, x ≤ 59048) :
    ∃ m', m.Reaches (59049 * (xs.takeWhile (· ≠ 59048)).length + 2) m' ∧ Echoed m xs m' := by
  induction xs generalizing m with
  | nil =>
    have hact : Act m (some .input) (m.taking 59048 m.queue) := by
      have hstarved := Act.starved (Queue.next?_eq_none_iff.2 hq)
      rwa [trits_greatest] at hstarved
    exact ⟨_, h.finish hact, rfl, (List.append_nil _).symm, hq, rfl, rfl, rfl, rfl⟩
  | cons x xs ih =>
    obtain ⟨rest, hnext, hrest⟩ := Queue.next?_of_cons hq
    by_cases hx : x = 59048
    · subst hx
      have hword : Radix.trits.word? (.int (59048 : Nat)) = some 59048 :=
        Radix.trits.word?_natCast 59048 (by rw [trits_limit]; omega)
      have hact : Act m (some .input) (m.taking 59048 rest) := .taken _ rest 59048 hnext hword
      rw [List.takeWhile_cons_of_neg (by simp)]
      refine ⟨_, h.finish hact, rfl, ?_, ?_, rfl, rfl, rfl, rfl⟩
      · rw [List.takeWhile_cons_of_neg (by simp), List.append_nil]
      · rw [List.dropWhile_cons_of_neg (by simp)]
        exact hrest
    · have hlt : x < 59048 := by
        have := hxs x List.mem_cons_self
        omega
      obtain ⟨m', hreaches, hechoed⟩ := ih (h.backAtTop x rest) hrest
        fun y hy => hxs y (List.mem_cons_of_mem _ hy)
      refine ⟨m', ?_, hechoed.halted, ?_, ?_, hechoed.memory, hechoed.a, hechoed.c, hechoed.d⟩
      · have hcost : 59049 * ((x :: xs).takeWhile (· ≠ 59048)).length + 2 =
            59049 + (59049 * (xs.takeWhile (· ≠ 59048)).length + 2) := by
          rw [List.takeWhile_cons_of_pos (by simpa using hx), List.length_cons]
          omega
        rw [hcost]
        exact (h.round hnext hlt).trans hreaches
      · have hpushed : (m.backAtTop x rest).output.toList = m.output.toList ++ [x] :=
          Array.toList_push
        rw [hechoed.output, hpushed, List.takeWhile_cons_of_pos (by simpa using hx), List.append_assoc,
          List.singleton_append]
      · rw [hechoed.unread, List.dropWhile_cons_of_pos (by simpa using hx)]

end Machine

/-- The text of the program is loaded with nothing but zeros behind it. -/
theorem load_echo : Machine.load "\x7d\x7b" = .ok (Machine.ofImage #[125, 123]) :=
  Program.load_commands ['\x7d', '\x7b'] (by simp [Program.commandChars]) (by decide)

theorem takeWhile_bytes (bytes : List UInt8) :
    (bytes.map UInt8.toNat).takeWhile (· ≠ 59048) = bytes.map UInt8.toNat := by
  refine List.takeWhile_eq_self_iff.2 fun x hx => ?_
  obtain ⟨b, -, rfl⟩ := List.mem_map.1 hx
  have hb := b.toNat_lt
  exact decide_eq_true (by omega)

/-- Run in one go on bytes, in batches of any length, the program puts these bytes out. -/
theorem runProgram_echo (bytes : List UInt8) {batch : Int} (hbatch : 1 ≤ batch) {patience : Nat}
    (hpatience : 59049 * bytes.length + 2 < patience) :
    ∃ call, runProgram patience "\x7d\x7b" bytes none batch = .ok call ∧ call.ending = .done ∧
      call.runner.machine.output.toList = bytes.map UInt8.toNat := by
  have hsafe := Machine.withBytes_safe (Machine.load_sound load_echo) bytes
  have htop : ((Machine.ofImage #[125, 123]).withBytes bytes).AtTop :=
    Machine.atTop_ofImage.withQueue _
  have hqueue : ((Machine.ofImage #[125, 123]).withBytes bytes).queue.toList =
      (bytes.map UInt8.toNat).map fun (x : Nat) => .int x := by
    rw [List.map_map]
    exact Queue.toList_ofList _
  have hwords : ∀ x ∈ bytes.map UInt8.toNat, x ≤ 59048 := by
    intro x hx
    obtain ⟨b, -, rfl⟩ := List.mem_map.1 hx
    have hb := b.toNat_lt
    omega
  obtain ⟨m', hreaches, hechoed⟩ := htop.echoed hqueue hwords
  rw [takeWhile_bytes, List.length_map] at hreaches
  have hends : ((Machine.ofImage #[125, 123]).withBytes bytes).Ends patience none := by
    intro _
    refine ⟨_, hpatience, ?_⟩
    rw [hreaches]
    exact hechoed.halted
  obtain ⟨hending, hmachine⟩ := Runner.run_plain hsafe (show 1 ≤ batch.toNat by omega) hends
  refine ⟨_, runProgram_eq load_echo bytes none hbatch patience, hending, ?_⟩
  rw [hmachine, hreaches.run_none hechoed.halted (Nat.le_of_lt hpatience), hechoed.output,
    takeWhile_bytes]
  rfl

/-- **The echo program copies its input.** On every list of words the program stops: it has put out
the longest beginning without the greatest word, has made one way through memory for each of these
words and two steps more, and leaves unread what stands behind the word that stopped it. Memory is
as it was loaded. So every text comes back from its bytes in UTF-8. -/
theorem echo_copies_input :
    (∀ xs : List Nat, (∀ x ∈ xs, x ≤ 59048) →
      ∃ m fed m', Machine.load "\x7d\x7b" = .ok m ∧
        m.feed (xs.map fun (x : Nat) => .int x) = .ok fed ∧
        (∀ patience, 59049 * (xs.takeWhile (· ≠ 59048)).length + 2 ≤ patience →
          fed.run patience none =
            ⟨m', 59049 * (xs.takeWhile (· ≠ 59048)).length + 2, .done⟩) ∧
        m'.halted = true ∧ m'.output.toList = xs.takeWhile (· ≠ 59048) ∧
        m'.a = 59048 ∧ m'.c = 1 ∧ m'.d = 1 ∧ m'.memory = m.memory ∧
        m'.queue.toList = ((xs.dropWhile (· ≠ 59048)).drop 1).map fun (x : Nat) => .int x) ∧
    ∀ text : String, ∃ bytes,
      Codec.decodeInput (.text "utf-8") (.text text) = .ok bytes ∧
      ∀ (batch : Int) (patience : Nat), 1 ≤ batch → 59049 * bytes.length + 2 < patience →
        ∃ call, runProgram patience "\x7d\x7b" bytes none batch = .ok call ∧
          call.ending = .done ∧
          Codec.encodeOutput (.text "utf-8")
            (call.runner.machine.output.toList.map fun (x : Nat) => .int x) = .ok text := by
  constructor
  · intro xs hxs
    have hvalues : ∀ v ∈ xs.map (fun (x : Nat) => Value.int x), v.IsWord := by
      intro v hv
      obtain ⟨x, hx, rfl⟩ := List.mem_map.1 hv
      exact ⟨x, rfl, hxs x hx⟩
    have hfeed := (Machine.ofImage #[125, 123]).feed_words hvalues
    have hqueue : ((Machine.ofImage #[125, 123]).queue.append
        (xs.map fun (x : Nat) => Value.int x)).toList = xs.map fun (x : Nat) => .int x :=
      Queue.toList_append _ _
    obtain ⟨m', hreaches, hechoed⟩ := (Machine.atTop_ofImage.withQueue _).echoed hqueue hxs
    refine ⟨_, _, m', load_echo, hfeed, ?_, hechoed.halted, hechoed.output, hechoed.a, hechoed.c,
      hechoed.d, hechoed.memory, hechoed.unread⟩
    intro patience hpatience
    exact hreaches.run_none hechoed.halted hpatience
  · intro text
    refine ⟨Utf8.encode text.toList, rfl, ?_⟩
    intro batch patience hbatch hpatience
    obtain ⟨call, hcall, hending, houtput⟩ := runProgram_echo _ hbatch hpatience
    refine ⟨call, hcall, hending, ?_⟩
    have hwritten : Codec.encodeOutput (.text "utf-8")
        (Codec.byteValues (Utf8.encode text.toList)) = _ := Codec.encodeOutput_byteValues rfl _
    rw [Encoding.encode, Utf8.decodeLossy_encode, String.ofList_toList] at hwritten
    rw [houtput, List.map_map]
    exact hwritten

/-- The greatest word stops the program between two words, and the second is never read. -/
theorem echo_copies_input_stopped :
    (∀ x ∈ [5, 59048, 7], x ≤ 59048) ∧
      ∃ m fed m', Machine.load "\x7d\x7b" = .ok m ∧
        m.feed [.int 5, .int 59048, .int 7] = .ok fed ∧
        fed.run 60000 none = ⟨m', 59051, .done⟩ ∧
        m'.output.toList = [5] ∧ m'.queue.toList = [.int 7] := by
  have hwords : ∀ x ∈ [5, 59048, 7], x ≤ 59048 := by decide
  obtain ⟨m, fed, m', hload, hfeed, hrun, -, houtput, -, -, -, -, hunread⟩ :=
    echo_copies_input.1 [5, 59048, 7] hwords
  exact ⟨hwords, m, fed, m', hload, hfeed, hrun 60000 (by decide), houtput, hunread⟩

end Dis
