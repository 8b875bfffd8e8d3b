import Dis.Proofs.CheckedCycle
/-!
# Input that is no word

The queue of a machine may hold anything, since a host can replace it unchecked. A value is looked
at when `input` takes it into A, and by then it has left the queue: this is the one place where a
step can fail, and what is lost in it is that value alone.

* `feed_words`: feeding looks at values before it queues them, and queues words as they are.
* `Balks`: the machine has not halted, stands on `input`, and the front of its queue is no word.
  `step_fault_iff`: a step fails exactly then, and leaves the machine without that front.
* `Takes`: what `input` does with each kind of queue; `takes_step`.
* `runFor_fault`: a run that fails has made the steps before the failure and none after it, so the
  next run begins with the same `input` and the next value.
* `fault_iff_front_refused`: the whole of it, for every machine a host can bring about, and for the
  cycle with every check.
-/
namespace Dis

/-- An integer that is a word; a truth value is no integer. -/
def Value.IsWord (v : Value) : Prop :=
  ∃ n : Nat, v = .int n ∧ n ≤ 59048

theorem Value.isWord_iff (v : Value) : v.IsWord ↔ ∃ word, Radix.trits.word? v = some word := by
  constructor
  · intro hword
    obtain ⟨n, rfl, hn⟩ := hword
    exact ⟨n, (Radix.word?_eq_some_iff _ _ _).2 ⟨rfl, by rw [trits_limit]; omega⟩⟩
  · intro hword
    obtain ⟨n, hn⟩ := hword
    exact HostOp.int_of_word? hn

theorem Value.word?_eq_none_iff (v : Value) : Radix.trits.word? v = none ↔ ¬ v.IsWord := by
  rw [v.isWord_iff]
  cases Radix.trits.word? v <;> simp

/-- What A answers to a value that is no word. -/
def refusalOf (v : Value) : RangeError :=
  .notWord "register A" Radix.trits v

namespace Queue

variable {α : Type}

theorem next?_of_cons {q : Queue α} {x : α} {xs : List α} (h : q.toList = x :: xs) :
    ∃ rest, q.next? = some (x, rest) ∧ rest.toList = xs := by
  have hmap := q.next?_map_toList
  rw [h] at hmap
  cases hq : q.next? with
  | none => rw [hq] at hmap; cases hmap
  | some p =>
    have hl := toList_of_next? hq
    rw [h] at hl
    injection hl with hx hxs
    exact ⟨p.2, by rw [hx], hxs.symm⟩

theorem next?_eq_none_iff {q : Queue α} : q.next? = none ↔ q.toList = [] := by
  constructor
  · intro h
    cases hl : q.toList with
    | nil => rfl
    | cons x xs =>
      obtain ⟨rest, hnext, -⟩ := next?_of_cons hl
      rw [h] at hnext
      cases hnext
  · intro h
    cases hq : q.next? with
    | none => rfl
    | some p =>
      rw [toList_of_next? hq] at h
      cases h

end Queue

namespace Machine

/-- Words are queued as they are. -/
theorem feed_words (m : Machine) {vs : List Value} (h : ∀ v ∈ vs, v.IsWord) :
    m.feed vs = .ok { m with queue := m.queue.append vs } := by
  have hwords : ∃ ws : List Nat, vs.map Radix.trits.word? = ws.map some := by
    induction vs with
    | nil => exact ⟨[], rfl⟩
    | cons v vs ih =>
      obtain ⟨ws, hws⟩ := ih fun v hv => h v (List.mem_cons_of_mem _ hv)
      obtain ⟨w, hw⟩ := v.isWord_iff.1 (h v List.mem_cons_self)
      exact ⟨w :: ws, by rw [List.map_cons, List.map_cons, hw, hws]⟩
  obtain ⟨ws, hws⟩ := hwords
  have hchecked := (Memory.checkWords_eq_ok_iff "input value" vs #[] _).2 ⟨ws, hws, rfl⟩
  unfold feed
  rw [hchecked, ok_bind]

/-- The machine is about to take `v`, which is no word, and `rest` waits behind it. -/
structure Balks (m : Machine) (v : Value) (rest : List Value) : Prop where
  going : m.halted = false
  input : m.memory.read m.c = 125
  front : m.queue.toList = v :: rest
  refused : ¬ v.IsWord

/-- The front of the queue is gone, and nothing else has changed. -/
structure Shed (m : Machine) (v : Value) (m' : Machine) : Prop where
  front : m.queue.toList = v :: m'.queue.toList
  same : m' = { m with queue := m'.queue }

/-- What `input` leads to, by what stands first in the queue. -/
inductive Takes (m : Machine) : Step → Prop
  | starved (h : m.queue.toList = []) : Takes m (.running { m with a := 59048 }.advance)
  | taken (n : Nat) (rest : Queue Value) (h : m.queue.toList = .int n :: rest.toList)
      (hn : n ≤ 59048) : Takes m (.running { m with a := n, queue := rest }.advance)
  | refused (v : Value) (rest : Queue Value) (h : m.queue.toList = v :: rest.toList)
      (hv : ¬ v.IsWord) : Takes m (.fault { m with queue := rest } (refusalOf v))

/-! ## One step -/

theorem instruction?_eq_input_iff (m : Machine) :
    m.instruction? = some .input ↔ m.memory.read m.c = 125 := by
  unfold instruction?
  constructor
  · intro h
    exact (Instruction.code_of_ofCode? h).symm
  · intro h
    rw [h]; rfl

/-- A machine that stands on `input` does one of the three things `Takes` lists. -/
theorem takes_step {m : Machine} (hm : m.halted = false) (hi : m.memory.read m.c = 125) :
    Takes m m.step := by
  have hinput := m.instruction?_eq_input_iff.2 hi
  rcases m.step_cases hm with ⟨m', hact, hs⟩ | ⟨hstop, -⟩ | ⟨v, rest, ⟨-, hq, hw⟩, hs⟩
  · rw [hs]
    rw [hinput] at hact
    cases hact with
    | starved hq => exact .starved (Queue.next?_eq_none_iff.1 hq)
    | taken v rest word hq hw =>
      obtain ⟨rfl, hlt⟩ := (Radix.word?_eq_some_iff _ _ _).1 hw
      rw [trits_limit] at hlt
      exact .taken word rest (Queue.toList_of_next? hq) (by omega)
  · unfold Stopping at hstop
    rw [hinput] at hstop
    simp at hstop
  · rw [hs]
    exact .refused v rest (Queue.toList_of_next? hq) (v.word?_eq_none_iff.1 hw)

/-- A step that fails has met a value that is no word, and that value is gone. -/
theorem balks_of_fault {m m' : Machine} {e : RangeError} (h : m.step = .fault m' e) :
    ∃ v, m.Balks v m'.queue.toList ∧ m.Shed v m' ∧ e = refusalOf v := by
  cases hm : m.halted with
  | true => rw [m.step_of_halted hm] at h; cases h
  | false =>
    rcases m.step_cases hm with ⟨_, -, hs⟩ | ⟨-, hs⟩ | ⟨v, rest, ⟨hi, hq, hw⟩, hs⟩ <;>
      rw [hs] at h <;> cases h
    have hfront : m.queue.toList = v :: rest.toList := Queue.toList_of_next? hq
    have hinput : m.memory.read m.c = 125 := m.instruction?_eq_input_iff.1 hi
    exact ⟨v, ⟨hm, hinput, hfront, v.word?_eq_none_iff.1 hw⟩, ⟨hfront, rfl⟩, rfl⟩

theorem fault_of_balks {m : Machine} {v : Value} {rest : List Value} (h : m.Balks v rest) :
    ∃ m', m.step = .fault m' (refusalOf v) := by
  have htakes := takes_step h.going h.input
  generalize m.step = s at htakes
  cases htakes with
  | starved hq =>
    rw [h.front] at hq
    cases hq
  | taken n rest' hq hn =>
    rw [h.front] at hq
    injection hq with hv
    exact absurd ⟨n, hv, hn⟩ h.refused
  | refused v' rest' hq hv =>
    rw [h.front] at hq
    injection hq with hv'
    exact ⟨_, by rw [hv']⟩

theorem step_fault_iff (m : Machine) :
    (∃ m' e, m.step = .fault m' e) ↔ ∃ v rest, m.Balks v rest := by
  constructor
  · intro hfault
    obtain ⟨m', e, h⟩ := hfault
    obtain ⟨v, hbalks, -, -⟩ := balks_of_fault h
    exact ⟨v, _, hbalks⟩
  · intro hbalks
    obtain ⟨v, rest, h⟩ := hbalks
    obtain ⟨m', h⟩ := fault_of_balks h
    exact ⟨m', _, h⟩

/-- The checked cycle breaks off exactly where the plain one does. -/
theorem checkedStep_eq_error_iff {m m' : Machine} {e : AccessError} (h : m.Sound) :
    m.checkedStep = .error (m', e) ↔ ∃ e', m.step = .fault m' e' ∧ e = .value e' := by
  rw [checkedStep_eq h]
  cases m.step with
  | running m₁ => simp [Step.checked]
  | halted m₁ => simp [Step.checked]
  | fault m₁ e₁ =>
    constructor
    · intro hstop
      cases hstop
      exact ⟨e₁, rfl, rfl⟩
    · intro hfault
      obtain ⟨e', hfault, rfl⟩ := hfault
      cases hfault
      rfl

/-! ## Runs that fail -/

end Machine

/-- A run of `n` more steps behind a first one. -/
def Step.thenRun (s : Step) (n : Nat) : Run :=
  match s with
  | .running m => ⟨(m.runFor n).machine, (m.runFor n).executed + 1, (m.runFor n).ending⟩
  | .halted m => ⟨m, 1, .done⟩
  | .fault m e => ⟨m, 0, .fault e⟩

namespace Machine

theorem runFor_succ_eq (n : Nat) {m : Machine} (h : m.halted = false) :
    m.runFor (n + 1) = m.step.thenRun n := by
  rw [m.runFor_succ n h]
  cases m.step <;> rfl

/-- A run that fails has made the steps it counts, and the next one failed. -/
theorem runFor_fault {n : Nat} {m : Machine} {e : RangeError}
    (h : (m.runFor n).ending = .fault e) :
    ∃ m₁, m.runFor (m.runFor n).executed = ⟨m₁, (m.runFor n).executed, .done⟩ ∧
      m₁.step = .fault (m.runFor n).machine e := by
  induction n generalizing m with
  | zero => cases h
  | succ n ih =>
    cases hm : m.halted with
    | true => rw [m.runFor_of_halted hm] at h; cases h
    | false =>
      rw [runFor_succ_eq n hm] at h ⊢
      cases hs : m.step with
      | running m' =>
        rw [hs] at h
        obtain ⟨m₁, hrun, hstep⟩ := ih h
        refine ⟨m₁, ?_, hstep⟩
        show m.runFor ((m'.runFor n).executed + 1) = _
        rw [runFor_succ_eq _ hm, hs]
        show Run.mk _ _ _ = _
        rw [hrun]
        rfl
      | halted m' => rw [hs] at h; cases h
      | fault m' e' =>
        rw [hs] at h
        cases h
        exact ⟨m, m.runFor_zero, hs⟩

/-- A limit, a patience or an interrupt makes no difference to a run that fails. -/
theorem runUnder_fault {armed : Option Nat} {patience : Nat} {limit : Option Int} {m : Machine}
    {e : RangeError} (h : (m.runUnder armed patience limit).ending = .fault e) :
    ∃ n, m.runUnder armed patience limit = m.runFor n := by
  cases armed with
  | some k =>
    refine ⟨k, ?_⟩
    simp only [runUnder, runUntilInterrupt, Run.cutOff] at h ⊢
    split at h
    · cases h
    · rfl
  | none =>
    cases limit with
    | some n => exact ⟨n.toNat, rfl⟩
    | none =>
      refine ⟨patience, ?_⟩
      rcases m.runFor_ending patience with hd | ⟨e', he⟩
      · simp only [runUnder, run, hd] at h ⊢
        split at h
        · rw [hd] at h; cases h
        · cases h
      · simp only [runUnder, run, he]

/-- Where a run failed, the machine stands before the same `input` with the next value in front. -/
theorem Shed.balked {m m' : Machine} {v : Value} {rest : List Value} (hshed : m.Shed v m')
    (h : m.Balks v rest) : m'.halted = false ∧ m'.memory.read m'.c = 125 := by
  rw [hshed.same]
  exact ⟨h.going, h.input⟩

end Machine

namespace HostOp

open Machine

/-- **The one way to fail.** Whatever a host has done to a machine loaded with a text, a step fails
exactly when the machine has not halted, the word at C is 125 and the queue begins with a value
that is no word; no other check, wherever one is made, finds anything. The failure is a range
error, and it takes the front of the queue and changes nothing else. So a run that fails has made
exactly the steps it counts, and a further run begins with the same instruction and the value that
is next. -/
theorem fault_iff_front_refused (source : String) (m₀ : Machine) (h : Machine.load source = .ok m₀)
    (ops : List HostOp) :
    let m := session m₀ ops
    ((∃ m' e, m.checkedStep = .error (m', e)) ↔ ∃ v rest, m.Balks v rest) ∧
    ((∃ m' e, m.step = .fault m' e) ↔ ∃ v rest, m.Balks v rest) ∧
    (∀ m' e, m.checkedStep = .error (m', e) →
      ∃ v, m.step = .fault m' (refusalOf v) ∧ e = .value (refusalOf v) ∧ m.Shed v m') ∧
    (∀ armed patience limit r e, m.runUnder armed patience limit = r → r.ending = .fault e →
      ∃ m₁ v, m.runFor r.executed = ⟨m₁, r.executed, .done⟩ ∧
        r.machine.steps = m.steps + r.executed ∧
        m₁.step = .fault r.machine e ∧ e = refusalOf v ∧ m₁.Shed v r.machine ∧
        r.machine.memory.read r.machine.c = 125 ∧ r.machine.Takes r.machine.step ∧
        ∀ n, r.machine.runFor (n + 1) = r.machine.step.thenRun n) := by
  intro m
  have hs : m.Sound := session_sound (Machine.load_sound h) ops
  refine ⟨?_, m.step_fault_iff, ?_, ?_⟩
  · rw [← m.step_fault_iff]
    constructor
    · intro hstop
      obtain ⟨m', e, hstop⟩ := hstop
      obtain ⟨e', hfault, -⟩ := (checkedStep_eq_error_iff hs).1 hstop
      exact ⟨m', e', hfault⟩
    · intro hfault
      obtain ⟨m', e, hfault⟩ := hfault
      exact ⟨m', _, (checkedStep_eq_error_iff hs).2 ⟨e, hfault, rfl⟩⟩
  · intro m' e hstop
    obtain ⟨e', hfault, rfl⟩ := (checkedStep_eq_error_iff hs).1 hstop
    obtain ⟨v, -, hshed, rfl⟩ := balks_of_fault hfault
    exact ⟨v, hfault, rfl, hshed⟩
  · rintro armed patience limit r e rfl hfault
    obtain ⟨n, hn⟩ := runUnder_fault hfault
    rw [hn] at hfault ⊢
    obtain ⟨m₁, hrun, hstep⟩ := runFor_fault hfault
    obtain ⟨v, hbalks, hshed, rfl⟩ := balks_of_fault hstep
    obtain ⟨hgoing, hinput⟩ := hshed.balked hbalks
    exact ⟨m₁, v, hrun, m.runFor_steps n, hstep, rfl, hshed, hinput, takes_step hgoing hinput,
      fun k => runFor_succ_eq k hgoing⟩

/-- A truth value in front of a word, in a queue nobody checked. -/
theorem fault_iff_front_refused_truth :
    Machine.load "\x7d\x7b" = .ok (Machine.ofImage #[125, 123]) ∧
    ∃ m, session (Machine.ofImage #[125, 123]) [.replaceInput [.truth true, .int 7]] = m ∧
      m.Balks (.truth true) [.int 7] ∧ ∃ m' e, m.checkedStep = .error (m', e) := by
  have hload : Machine.load "\x7d\x7b" = .ok (Machine.ofImage #[125, 123]) :=
    Program.load_commands ['\x7d', '\x7b'] (by simp [Program.commandChars]) (by decide)
  obtain ⟨hiff, -⟩ := fault_iff_front_refused _ _ hload [.replaceInput [.truth true, .int 7]]
  have hbalks : (session (Machine.ofImage #[125, 123]) [.replaceInput [.truth true, .int 7]]).Balks
      (.truth true) [.int 7] := by
    refine ⟨rfl, Memory.read_ofImage #[125, 123] (by decide), rfl, ?_⟩
    intro hword
    obtain ⟨n, hn, -⟩ := hword
    cases hn
  exact ⟨hload, _, rfl, hbalks, hiff.2 ⟨_, _, hbalks⟩⟩

end HostOp
end Dis
