import Dis.Proofs.Soundness
/-!
# What a host can do to a machine

A host steps and runs a machine, reads and writes its memory, sets its registers, replaces or
extends its input and takes its output away, with any values and in any order. `HostOp.after` is
the machine after one such operation, also after one that is refused or that breaks off: a refused
write leaves the machine as it was, and a step that fails leaves what `Step.fault` holds.

* `after_sound`, `after_later`: one operation keeps a machine sound and takes nothing back.
* `session_sound`, `session_later`: so does every sequence of operations.
* `host_session_invariant`: what this says of a machine loaded with any program text.
-/
namespace Dis

/-- An operation of a host. -/
inductive HostOp
  | step
  /-- A run, possibly without limit, that the host may cut off. -/
  | run (armed : Option Nat) (patience : Nat) (limit : Option Int)
  | read (key : Value)
  | readSlice (s : Stretch)
  | write (key v : Value)
  | writeSlice (s : Stretch) (v : Value)
  | setRegister (reg : Register) (v : Value)
  | replaceInput (vs : List Value)
  | feed (vs : List Value)
  | drain

namespace HostOp

/-- The machine an operation that can be refused leaves behind. -/
def kept {ε : Type} (m : Machine) : Except ε Machine → Machine
  | .ok m' => m'
  | .error _ => m

/-- The machine after an operation. -/
def after (m : Machine) : HostOp → Machine
  | step => m.step.machine
  | run armed patience limit => (m.runUnder armed patience limit).machine
  | read _ => m
  | readSlice _ => m
  | write key v => kept m (m.setMemory key v)
  | writeSlice s v => kept m ((m.memory.setSlice s v).map fun memory => { m with memory })
  | setRegister reg v => kept m (m.setRegister reg v)
  | replaceInput vs => m.setQueue vs
  | feed vs => kept m (m.feed vs)
  | drain => m.drain

/-- The machine after a sequence of operations. -/
def session (m : Machine) (ops : List HostOp) : Machine := ops.foldl after m

end HostOp

/-! ## Checked writes -/

namespace Machine

theorem setMemory_eq_ok {m m' : Machine} {key v : Value} (h : m.setMemory key v = .ok m') :
    ∃ address word, Radix.trits.word? v = some word ∧
      m' = { m with memory := m.memory.write address word } := by
  unfold setMemory Memory.set at h
  obtain ⟨memory, hset, h⟩ := bind_eq_ok_iff.1 h
  obtain ⟨address, -, hset⟩ := bind_eq_ok_iff.1 hset
  obtain ⟨word, hword, hset⟩ := bind_eq_ok_iff.1 hset
  cases hset
  cases h
  exact ⟨address, word, (Radix.check_eq_ok_iff _ _ _ _).1 (mapError_eq_ok_iff.1 hword), rfl⟩

/-- The machine with a word in a register. -/
def withRegister (m : Machine) (word : Nat) : Register → Machine
  | .a => { m with a := word }
  | .c => { m with c := word }
  | .d => { m with d := word }

theorem setRegister_eq_ok {m m' : Machine} {reg : Register} {v : Value}
    (h : m.setRegister reg v = .ok m') :
    ∃ word, Radix.trits.word? v = some word ∧ m' = m.withRegister word reg := by
  unfold setRegister at h
  obtain ⟨word, hword, h⟩ := bind_eq_ok_iff.1 h
  refine ⟨word, (Radix.check_eq_ok_iff _ _ _ _).1 hword, ?_⟩
  cases reg <;> cases h <;> rfl

theorem feed_eq_ok {m m' : Machine} {vs : List Value} (h : m.feed vs = .ok m') :
    (∀ v ∈ vs, ∃ word, Radix.trits.word? v = some word) ∧
      m' = { m with queue := m.queue.append vs } := by
  unfold feed at h
  obtain ⟨words, hwords, h⟩ := bind_eq_ok_iff.1 h
  cases h
  obtain ⟨new, hnew, -⟩ := (Memory.checkWords_eq_ok_iff _ _ _ _).1 hwords
  refine ⟨?_, rfl⟩
  intro v hmem
  have hword : Radix.trits.word? v ∈ new.map some := hnew ▸ List.mem_map_of_mem hmem
  obtain ⟨word, -, hw⟩ := List.mem_map.1 hword
  exact ⟨word, hw.symm⟩

end Machine

/-! ## Operations and sessions -/

namespace HostOp

open Machine

/-- What holds of a machine and of everything an operation leads to holds of what it leaves. -/
theorem kept_of {ε : Type} {P : Machine → Prop} {m : Machine} (x : Except ε Machine) (hm : P m)
    (hok : ∀ m', x = .ok m' → P m') : P (kept m x) := by
  cases x with
  | ok m' => exact hok m' rfl
  | error e => exact hm

theorem after_sound {m : Machine} (h : m.Sound) (op : HostOp) : (op.after m).Sound := by
  cases op with
  | step => exact step_sound h
  | run armed patience limit => exact runUnder_sound h armed patience limit
  | read key => exact h
  | readSlice s => exact h
  | write key v =>
    refine kept_of _ h fun m' hok => ?_
    obtain ⟨address, word, hw, rfl⟩ := setMemory_eq_ok hok
    exact { h with memory := h.memory.write _ _ ((Radix.word?_eq_some_iff _ _ _).1 hw).2 }
  | writeSlice s v => exact h
  | setRegister reg v =>
    refine kept_of _ h fun m' hok => ?_
    obtain ⟨word, hw, rfl⟩ := setRegister_eq_ok hok
    have hword := ((Radix.word?_eq_some_iff _ _ _).1 hw).2
    cases reg with
    | a => exact { h with a := hword }
    | c => exact { h with c := hword }
    | d => exact { h with d := hword }
  | replaceInput vs => exact { h with }
  | feed vs =>
    refine kept_of _ h fun m' hok => ?_
    obtain ⟨-, rfl⟩ := feed_eq_ok hok
    exact { h with }
  | drain => exact { h with output := by simp [after, Machine.drain] }

theorem after_later (m : Machine) (op : HostOp) : Later m (op.after m) := by
  cases op with
  | step => exact step_later m
  | run armed patience limit => exact runUnder_later armed patience limit m
  | write key v =>
    refine kept_of _ (Later.refl m) fun m' hok => ?_
    obtain ⟨address, word, -, rfl⟩ := setMemory_eq_ok hok
    exact ⟨Nat.le_refl _, id⟩
  | setRegister reg v =>
    refine kept_of _ (Later.refl m) fun m' hok => ?_
    obtain ⟨word, -, rfl⟩ := setRegister_eq_ok hok
    cases reg <;> exact ⟨Nat.le_refl _, id⟩
  | feed vs =>
    refine kept_of _ (Later.refl m) fun m' hok => ?_
    obtain ⟨-, rfl⟩ := feed_eq_ok hok
    exact ⟨Nat.le_refl _, id⟩
  | _ => exact ⟨Nat.le_refl _, id⟩

theorem session_sound {m : Machine} (h : m.Sound) (ops : List HostOp) : (session m ops).Sound := by
  induction ops generalizing m with
  | nil => exact h
  | cons op ops ih => exact ih (after_sound h op)

theorem session_later (m : Machine) (ops : List HostOp) : Later m (session m ops) := by
  induction ops generalizing m with
  | nil => exact Later.refl m
  | cons op ops ih => exact (after_later m op).trans (ih (op.after m))

/-- A halted machine is not changed by running it, however that is done. -/
theorem after_of_halted {m : Machine} (h : m.halted = true) :
    step.after m = m ∧ ∀ armed patience limit, (run armed patience limit).after m = m := by
  constructor
  · show m.step.machine = m
    rw [m.step_of_halted h]; rfl
  · intro armed patience limit
    obtain ⟨n, hn⟩ := runUnder_machine armed patience limit m
    show (m.runUnder armed patience limit).machine = m
    rw [hn, m.runFor_of_halted h]

theorem int_of_word? {v : Value} {word : Nat} (h : Radix.trits.word? v = some word) :
    ∃ n : Nat, v = .int n ∧ n ≤ 59048 := by
  obtain ⟨rfl, hlt⟩ := (Radix.word?_eq_some_iff _ _ _).1 h
  exact ⟨word, rfl, Nat.le_of_lt_succ hlt⟩

/-- **What no host can break.** After any operations on a machine loaded with a text, whether they
succeed or not: memory is 59049 words in range, the registers are words, no output is the greatest
word, and what memory and registers accept are integers in range, never truth values. Whatever
operations follow, steps do not decrease, a halt stays, and a halted machine is not changed at all
by stepping or running it. -/
theorem host_session_invariant (source : String) (m₀ : Machine) (h : Machine.load source = .ok m₀)
    (ops more : List HostOp) :
    let m := session m₀ ops
    (m.memory.words.size = 59049 ∧ ∀ w ∈ m.memory.words, w ≤ 59048) ∧
    (m.a ≤ 59048 ∧ m.c ≤ 59048 ∧ m.d ≤ 59048) ∧
    (∀ w ∈ m.output, w ≤ 59047) ∧
    (∀ key v, ¬ (∃ n : Nat, v = .int n ∧ n ≤ 59048) → (write key v).after m = m) ∧
    (∀ reg v, ¬ (∃ n : Nat, v = .int n ∧ n ≤ 59048) → (setRegister reg v).after m = m) ∧
    m.steps ≤ (session m more).steps ∧
    (m.halted = true → (session m more).halted = true) ∧
    (m.halted = true →
      step.after m = m ∧ ∀ armed patience limit, (run armed patience limit).after m = m) := by
  intro m
  have hs : m.Sound := session_sound (Machine.load_sound h) ops
  have hl : Later m (session m more) := session_later m more
  refine ⟨⟨hs.memory.size, ?_⟩, ⟨?_, ?_, ?_⟩, ?_, ?_, ?_, hl.steps, hl.halted, after_of_halted⟩
  · intro w hw
    exact Nat.le_of_lt_succ (hs.memory.words w hw)
  · exact Nat.le_of_lt_succ hs.a
  · exact Nat.le_of_lt_succ hs.c
  · exact Nat.le_of_lt_succ hs.d
  · intro w hw
    exact Nat.le_of_lt_succ (hs.output w hw)
  · intro key v hv
    refine kept_of (P := fun m' => m' = m) _ rfl fun m' hok => ?_
    obtain ⟨_, _, hw, -⟩ := setMemory_eq_ok hok
    exact absurd (int_of_word? hw) hv
  · intro reg v hv
    refine kept_of (P := fun m' => m' = m) _ rfl fun m' hok => ?_
    obtain ⟨_, hw, -⟩ := setRegister_eq_ok hok
    exact absurd (int_of_word? hw) hv

/-- A step that fails on a queue nobody checked, between writes that are refused. -/
theorem host_session_invariant_refusals :
    Machine.load "\x7d\x7b" = .ok (Machine.ofImage #[125, 123]) ∧
    ∃ m, session (Machine.ofImage #[125, 123])
      [.write (.int 0) (.truth true), .replaceInput [.int (-1), .int 7], .step,
        .run none 0 (some 2), .setRegister .c (.int 59049), .write (.int (-1)) (.int 5),
        .feed [.int 3, .null]] = m ∧
      m.memory.words.size = 59049 ∧ m.a ≤ 59048 ∧ m.c ≤ 59048 ∧ m.d ≤ 59048 ∧
      (write (.int 0) (.truth false)).after m = m := by
  have hload : Machine.load "\x7d\x7b" = .ok (Machine.ofImage #[125, 123]) :=
    Program.load_commands ['\x7d', '\x7b'] (by simp [Program.commandChars]) (by decide)
  obtain ⟨⟨hsize, -⟩, ⟨ha, hc, hd⟩, -, hwrite, -⟩ := host_session_invariant _ _ hload
    [.write (.int 0) (.truth true), .replaceInput [.int (-1), .int 7], .step, .run none 0 (some 2),
      .setRegister .c (.int 59049), .write (.int (-1)) (.int 5), .feed [.int 3, .null]] []
  refine ⟨hload, _, rfl, hsize, ha, hc, hd, hwrite _ _ ?_⟩
  intro hint
  obtain ⟨n, hn, -⟩ := hint
  cases hn

end HostOp
end Dis
