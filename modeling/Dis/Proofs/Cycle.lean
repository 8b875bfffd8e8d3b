import Dis.Machine
/-!
# One step and a run

What a step can do, said once, and how runs are put together.

* `Act m i m'`: instruction `i` turns `m` into `m'` before C and D move on. `step_cases` says that
  a step of a machine that has not halted is such an act and the move, a stop, or the refusal of
  an input value; `step_of_act`, `step_of_stopping`, `step_of_refusing` are the converse.
* `runFor_next`: the first step of a run, by whatever cycle. What follows from it alone is said of
  every cycle; what uses the instructions is said of the one that runs.
* `runFor_add`: a run of `k + j` steps is a run of `k` steps and a run of `j` more.
* `runFor_ending`, `runFor_le`, `runFor_lt_of_fault`, `runFor_full`, `runFor_steps`: how a run ends
  and how many steps it makes.
* `runFor_of_stopped`: a run that has stopped is the same under any higher limit.
* `step_keeps`: a step adds nothing to the queue and leaves the length of the program.
* `runFor_invariant`: what every step preserves, every run preserves.
* `Reaches`: so many steps lead from one machine to another, none of them failing;
  `reaches_drifted`: a stretch of words that are no instructions moves C and D on, around the end of
  memory, and does nothing else.
* `runUnder_machine`, `runUnder_steps`: whatever limit, patience or interrupt a run has, it leaves
  the machine that a run of some number of steps leaves, and it counts the steps of that machine.
-/
namespace Dis

/-- The next element of a queue is the first of its elements. -/
theorem Queue.toList_of_next? {α : Type} {q rest : Queue α} {x : α}
    (h : q.next? = some (x, rest)) : q.toList = x :: rest.toList := by
  have hq := q.next?_map_toList
  rw [h] at hq
  cases hl : q.toList with
  | nil => rw [hl] at hq; simp at hq
  | cons y ys =>
    rw [hl] at hq
    simp only [Option.map_some, Option.some.injEq, Prod.mk.injEq] at hq
    rw [hq.1, hq.2]

namespace Machine

/-- The instruction the machine is about to execute, if the word at C is one. -/
def instruction? (m : Machine) : Option Instruction :=
  Instruction.ofCode? (m.memory.read m.c)

/-- What an instruction that does not stop the machine does before C and D move on. -/
inductive Act (m : Machine) : Option Instruction → Machine → Prop
  | load : Act m (some .load) { m with d := m.memory.read m.d }
  | rotate : Act m (some .rotate) (m.store (Radix.trits.rotateOnce (m.memory.read m.d)))
  | jump : Act m (some .jump) { m with c := m.memory.read m.d }
  | output (h : m.a ≠ Radix.trits.greatest) :
      Act m (some .output) { m with output := m.output.push m.a }
  | subtract : Act m (some .subtract) (m.store (Radix.trits.subtract m.a (m.memory.read m.d)))
  | starved (h : m.queue.next? = none) : Act m (some .input) { m with a := Radix.trits.greatest }
  | taken (v : Value) (rest : Queue Value) (word : Nat) (hq : m.queue.next? = some (v, rest))
      (hw : Radix.trits.word? v = some word) :
      Act m (some .input) { m with a := word, queue := rest }
  | pass : Act m (some .pass) m
  | idle : Act m none m

/-- What stops the machine: `halt`, or `output` of the greatest word. -/
def Stopping (m : Machine) : Prop :=
  m.instruction? = some .halt ∨ (m.instruction? = some .output ∧ m.a = Radix.trits.greatest)

/-- The next input value is not a word, and `rest` is the queue behind it. -/
def Refusing (m : Machine) (v : Value) (rest : Queue Value) : Prop :=
  m.instruction? = some .input ∧ m.queue.next? = some (v, rest) ∧ Radix.trits.word? v = none

/-! ## One step -/

theorem step_of_halted (m : Machine) (h : m.halted = true) : m.step = .halted m := by
  unfold step; rw [if_pos h]

theorem takeInput_cases (m : Machine) (hi : m.instruction? = some .input) :
    (∃ m', Act m (some .input) m' ∧ m.takeInput = .running m'.advance) ∨
    (∃ v rest, m.Refusing v rest ∧
      m.takeInput = .fault { m with queue := rest } (.notWord "register A" Radix.trits v)) := by
  unfold takeInput
  cases hq : m.queue.next? with
  | none => exact .inl ⟨_, .starved hq, rfl⟩
  | some p =>
    obtain ⟨v, rest⟩ := p
    cases hw : Radix.trits.word? v with
    | none =>
      right
      refine ⟨v, rest, ⟨hi, hq, hw⟩, ?_⟩
      simp only [Radix.check, hw]
    | some word =>
      left
      refine ⟨_, .taken v rest word hq hw, ?_⟩
      simp only [Radix.check, hw]

/-- Everything a step of a machine that has not halted can do. -/
theorem step_cases (m : Machine) (h : m.halted = false) :
    (∃ m', Act m m.instruction? m' ∧ m.step = .running m'.advance) ∨
    (m.Stopping ∧ m.step = .halted m.stop) ∨
    (∃ v rest, m.Refusing v rest ∧
      m.step = .fault { m with queue := rest } (.notWord "register A" Radix.trits v)) := by
  unfold step
  rw [if_neg (by simp [h])]
  change (∃ m', Act m (Instruction.ofCode? (m.memory.read m.c)) m' ∧ _) ∨ _
  cases hi : Instruction.ofCode? (m.memory.read m.c) with
  | none => exact .inl ⟨m, .idle, rfl⟩
  | some i =>
    cases i with
    | halt => exact .inr (.inl ⟨.inl hi, rfl⟩)
    | load => exact .inl ⟨_, .load, rfl⟩
    | rotate => exact .inl ⟨_, .rotate, rfl⟩
    | jump => exact .inl ⟨_, .jump, rfl⟩
    | pass => exact .inl ⟨m, .pass, rfl⟩
    | output =>
      by_cases ha : m.a = Radix.trits.greatest
      · exact .inr (.inl ⟨.inr ⟨hi, ha⟩, if_pos ha⟩)
      · exact .inl ⟨_, .output ha, if_neg ha⟩
    | subtract => exact .inl ⟨_, .subtract, rfl⟩
    | input =>
      rcases m.takeInput_cases hi with hact | hfault
      · exact .inl hact
      · exact .inr (.inr hfault)

theorem step_of_act {m m' : Machine} (h : m.halted = false) (hact : Act m m.instruction? m') :
    m.step = .running m'.advance := by
  unfold instruction? at hact
  unfold step
  rw [if_neg (by simp [h])]
  generalize Instruction.ofCode? (m.memory.read m.c) = i at hact ⊢
  cases hact with
  | output ha => exact if_neg ha
  | starved hq => simp only [takeInput, hq]
  | taken v rest word hq hw => simp only [takeInput, hq, Radix.check, hw]
  | _ => rfl

theorem step_of_stopping {m : Machine} (h : m.halted = false) (hstop : m.Stopping) :
    m.step = .halted m.stop := by
  unfold Stopping instruction? at hstop
  unfold step
  rw [if_neg (by simp [h])]
  rcases hstop with hi | ⟨hi, ha⟩
  · rw [hi]
  · rw [hi]
    exact if_pos ha

theorem step_of_refusing {m : Machine} {v : Value} {rest : Queue Value} (h : m.halted = false)
    (hrefusing : m.Refusing v rest) :
    m.step = .fault { m with queue := rest } (.notWord "register A" Radix.trits v) := by
  obtain ⟨hi, hq, hw⟩ := hrefusing
  unfold instruction? at hi
  unfold step
  rw [if_neg (by simp [h]), hi]
  simp only [takeInput, hq, Radix.check, hw]

theorem Act.steps_eq {m m' : Machine} {i : Option Instruction} (h : Act m i m') :
    m'.steps = m.steps := by
  cases h <;> rfl

/-! ## Runs -/

section Runs

variable {cycle : Cycle}

theorem runFor_zero (m : Machine) : m.runFor 0 cycle = ⟨m, 0, .done⟩ := rfl

/-- What was counted before a run is added to what the run counts. -/
theorem runFrom_eq (executed n : Nat) (m : Machine) :
    runFrom cycle executed n m =
      ⟨(m.runFor n cycle).machine, executed + (m.runFor n cycle).executed,
        (m.runFor n cycle).ending⟩ := by
  induction n generalizing executed m with
  | zero => rfl
  | succ n ih =>
    unfold runFor runFrom
    split
    · rfl
    · cases cycle.step m with
      | running m' =>
        simp only
        rw [ih (executed + 1) m', ih (0 + 1) m', Nat.zero_add, Nat.add_assoc]
      | halted m' => simp
      | fault m' e => simp

theorem runFor_of_halted (m : Machine) (h : m.halted = true) (n : Nat) :
    m.runFor n cycle = ⟨m, 0, .done⟩ := by
  cases n with
  | zero => rfl
  | succ n => unfold runFor runFrom; rw [if_pos h]

/-- The first step of a run, and the rest of it. -/
theorem runFor_next (n : Nat) (m : Machine) (h : m.halted = false) (cycle : Cycle) :
    m.runFor (n + 1) cycle = match cycle.step m with
      | .running m' => ⟨(m'.runFor n cycle).machine, (m'.runFor n cycle).executed + 1,
          (m'.runFor n cycle).ending⟩
      | .halted m' => ⟨m', 1, .done⟩
      | .fault m' e => ⟨m', 0, .fault e⟩ := by
  unfold runFor
  rw [runFrom, if_neg (by simp [h])]
  cases cycle.step m with
  | running m' =>
    simp only
    rw [runFrom_eq (0 + 1) n m', Nat.zero_add, Nat.add_comm]
    rfl
  | halted m' => simp
  | fault m' e => simp

theorem runFor_succ (n : Nat) (m : Machine) (h : m.halted = false) :
    m.runFor (n + 1) = match m.step with
      | .running m' => ⟨(m'.runFor n).machine, (m'.runFor n).executed + 1, (m'.runFor n).ending⟩
      | .halted m' => ⟨m', 1, .done⟩
      | .fault m' e => ⟨m', 0, .fault e⟩ := by
  rw [m.runFor_next n h, show Cycle.plain.step m = m.step from rfl]
  cases m.step <;> rfl

end Runs

end Machine

/-- A run that goes on for `n` steps more, unless it has failed. -/
def Run.andThen (n : Nat) (cycle : Cycle := .plain) (r : Run cycle.Fault) : Run cycle.Fault :=
  match r.ending with
  | .done => ⟨(r.machine.runFor n cycle).machine, r.executed + (r.machine.runFor n cycle).executed,
      (r.machine.runFor n cycle).ending⟩
  | _ => r

/-- The machine has halted or a step has failed: a higher limit would make no difference. -/
def Run.Stopped {ε : Type} (r : Run ε) : Prop :=
  r.machine.halted = true ∨ ∃ e, r.ending = .fault e

namespace Machine

section Runs

variable {cycle : Cycle}

theorem runFor_add (k j : Nat) (m : Machine) :
    m.runFor (k + j) cycle = (m.runFor k cycle).andThen j cycle := by
  induction k generalizing m with
  | zero => simp [runFor_zero, Run.andThen]
  | succ k ih =>
    cases hm : m.halted with
    | true =>
      rw [m.runFor_of_halted hm, m.runFor_of_halted hm]
      simp only [Run.andThen, m.runFor_of_halted hm]
    | false =>
      rw [show k + 1 + j = (k + j) + 1 by omega, m.runFor_next _ hm, m.runFor_next _ hm]
      cases hs : cycle.step m with
      | running m' =>
        simp only [ih m']
        unfold Run.andThen
        cases he : (m'.runFor k cycle).ending with
        | done => simp only [Run.mk.injEq, true_and, and_true]; omega
        | _ => simp only [he]
      | halted m' => simp [Run.andThen, m'.runFor_of_halted (cycle.halts hs)]
      | fault m' e => rfl

/-- A plain run is done or has failed: nobody interrupts it, and it has a limit. -/
theorem runFor_ending (n : Nat) (m : Machine) (cycle : Cycle := .plain) :
    (m.runFor n cycle).ending = .done ∨ ∃ e, (m.runFor n cycle).ending = .fault e := by
  induction n generalizing m with
  | zero => exact .inl rfl
  | succ n ih =>
    cases hm : m.halted with
    | true => rw [m.runFor_of_halted hm]; exact .inl rfl
    | false =>
      rw [m.runFor_next n hm]
      cases cycle.step m with
      | running m' => exact ih m'
      | halted m' => exact .inl rfl
      | fault m' e => exact .inr ⟨e, rfl⟩

theorem runFor_le (n : Nat) (m : Machine) (cycle : Cycle := .plain) :
    (m.runFor n cycle).executed ≤ n := by
  induction n generalizing m with
  | zero => exact Nat.le_refl 0
  | succ n ih =>
    cases hm : m.halted with
    | true => rw [m.runFor_of_halted hm]; exact Nat.zero_le _
    | false =>
      rw [m.runFor_next n hm]
      cases cycle.step m with
      | running m' => exact Nat.succ_le_succ (ih m')
      | halted m' => simp
      | fault m' e => simp

/-- The step that fails is attempted but not counted. -/
theorem runFor_lt_of_fault {n : Nat} {m : Machine} {e : cycle.Fault}
    (h : (m.runFor n cycle).ending = .fault e) : (m.runFor n cycle).executed < n := by
  induction n generalizing m with
  | zero => cases h
  | succ n ih =>
    cases hm : m.halted with
    | true => rw [m.runFor_of_halted hm] at h; cases h
    | false =>
      rw [m.runFor_next n hm] at h ⊢
      cases hs : cycle.step m with
      | running m' => rw [hs] at h; exact Nat.succ_lt_succ (ih h)
      | halted m' => rw [hs] at h; cases h
      | fault m' e' => simp

/-- A run that is done has made all its steps, unless the machine has halted. -/
theorem runFor_full {n : Nat} {m : Machine} (h : (m.runFor n cycle).ending = .done)
    (hr : (m.runFor n cycle).machine.halted = false) : (m.runFor n cycle).executed = n := by
  induction n generalizing m with
  | zero => rfl
  | succ n ih =>
    cases hm : m.halted with
    | true => rw [m.runFor_of_halted hm] at hr; simp [hm] at hr
    | false =>
      rw [m.runFor_next n hm] at h hr ⊢
      cases hs : cycle.step m with
      | running m' => rw [hs] at h hr; simp only at h hr ⊢; rw [ih h hr]
      | halted m' => rw [hs] at hr; simp [cycle.halts hs] at hr
      | fault m' e => rw [hs] at h; cases h

theorem runFor_pos {n : Nat} {m : Machine} (hm : m.halted = false) (hn : 0 < n)
    (h : (m.runFor n cycle).ending = .done) : 0 < (m.runFor n cycle).executed := by
  obtain ⟨k, rfl⟩ : ∃ k, n = k + 1 := ⟨n - 1, by omega⟩
  rw [m.runFor_next k hm] at h ⊢
  cases hs : cycle.step m with
  | running m' => simp
  | halted m' => simp
  | fault m' e => rw [hs] at h; cases h

/-- The count of a run is the growth of the machine's own count. -/
theorem runFor_steps (n : Nat) (m : Machine) (cycle : Cycle := .plain) :
    (m.runFor n cycle).machine.steps = m.steps + (m.runFor n cycle).executed := by
  induction n generalizing m with
  | zero => rfl
  | succ n ih =>
    cases hm : m.halted with
    | true => rw [m.runFor_of_halted hm]; rfl
    | false =>
      have hsteps := cycle.counts hm
      rw [m.runFor_next n hm]
      cases hs : cycle.step m with
      | running m' =>
        rw [hs] at hsteps
        simp only [Step.machine, Step.made] at hsteps ⊢
        rw [ih m', hsteps]; omega
      | halted m' => rw [hs] at hsteps; exact hsteps
      | fault m' e => rw [hs] at hsteps; exact hsteps

end Runs

/-! ## What steps preserve -/

theorem Act.keeps {m m' : Machine} {i : Option Instruction} (h : Act m i m') :
    m'.queue.toList <:+ m.queue.toList ∧ m'.programLength = m.programLength := by
  cases h with
  | taken v rest word hq hw =>
    rw [Queue.toList_of_next? hq]
    exact ⟨List.suffix_cons v _, rfl⟩
  | _ => exact ⟨List.suffix_refl _, rfl⟩

/-- What a step leaves in the queue was there before, and it does not touch the length of the
program. -/
theorem step_keeps (m : Machine) :
    m.step.machine.queue.toList <:+ m.queue.toList ∧
      m.step.machine.programLength = m.programLength := by
  cases hm : m.halted with
  | true =>
    rw [m.step_of_halted hm]
    exact ⟨List.suffix_refl _, rfl⟩
  | false =>
    rcases m.step_cases hm with ⟨m', hact, hs⟩ | ⟨-, hs⟩ | ⟨v, rest, ⟨-, hq, -⟩, hs⟩
    · rw [hs]
      exact hact.keeps
    · rw [hs]
      exact ⟨List.suffix_refl _, rfl⟩
    · rw [hs, Queue.toList_of_next? hq]
      exact ⟨List.suffix_cons v _, rfl⟩

/-- What every step preserves, every run preserves, also one that fails. -/
theorem runFor_invariant {P : Machine → Prop} (hstep : ∀ m, P m → P m.step.machine) (n : Nat)
    (m : Machine) (h : P m) : P (m.runFor n).machine := by
  induction n generalizing m with
  | zero => exact h
  | succ n ih =>
    cases hm : m.halted with
    | true => rw [m.runFor_of_halted hm]; exact h
    | false =>
      rw [m.runFor_succ n hm]
      have hs := hstep m h
      cases e : m.step with
      | running m' => rw [e] at hs; exact ih m' hs
      | halted m' => rw [e] at hs; exact hs
      | fault m' e' => rw [e] at hs; exact hs

/-! ## Runs that have stopped -/

section Stopped

variable {cycle : Cycle}

theorem runFor_add_of_stopped {k : Nat} {m : Machine} (h : (m.runFor k cycle).Stopped) (j : Nat) :
    m.runFor (k + j) cycle = m.runFor k cycle := by
  rw [runFor_add]
  unfold Run.andThen
  rcases h with hm | ⟨e, he⟩
  · rcases m.runFor_ending k cycle with hd | ⟨e, he⟩
    · rw [hd, runFor_of_halted _ hm]
      simp only [← hd, Nat.add_zero]
    · rw [he]
  · rw [he]

theorem runFor_of_stopped {k j : Nat} {m : Machine} (h : (m.runFor k cycle).Stopped) (hj : k ≤ j) :
    m.runFor j cycle = m.runFor k cycle := by
  obtain ⟨i, rfl⟩ := Nat.exists_eq_add_of_le hj
  exact runFor_add_of_stopped h i

theorem run_none_of_stopped {n : Nat} {m : Machine} (h : (m.runFor n cycle).Stopped) :
    m.run n none cycle = m.runFor n cycle := by
  simp only [run]
  rcases m.runFor_ending n cycle with hd | ⟨e, he⟩
  · rcases h with hm | ⟨e, he⟩
    · rw [hd]; simp [hm]
    · rw [hd] at he; cases he
  · rw [he]

theorem stopped_of_run_none {n : Nat} {m : Machine}
    (h : (m.run n none cycle).ending ≠ .unfinished) : (m.runFor n cycle).Stopped := by
  rcases m.runFor_ending n cycle with hd | hf
  · cases hm : (m.runFor n cycle).machine.halted with
    | true => exact .inl hm
    | false => simp [run, hd, hm] at h
  · exact .inr hf

end Stopped

/-! ## Counted runs -/

/-- Exactly `n` steps lead from `m` to `m'`. -/
def Reaches (m : Machine) (n : Nat) (m' : Machine) : Prop :=
  m.runFor n = ⟨m', n, .done⟩

theorem Reaches.trans {m₁ m₂ m₃ : Machine} {k j : Nat} (h : m₁.Reaches k m₂)
    (h' : m₂.Reaches j m₃) : m₁.Reaches (k + j) m₃ := by
  unfold Reaches at *
  rw [runFor_add, h]
  simp only [Run.andThen, h']

theorem reaches_of_act {m m' : Machine} (h : m.halted = false) (hact : Act m m.instruction? m') :
    m.Reaches 1 m'.advance := by
  unfold Reaches
  rw [m.runFor_succ 0 h, step_of_act h hact]
  rfl

theorem reaches_of_stopping {m : Machine} (h : m.halted = false) (hstop : m.Stopping) :
    m.Reaches 1 m.stop := by
  unfold Reaches
  rw [m.runFor_succ 0 h, step_of_stopping h hstop]

/-- A run without limit ends where the machine has halted. -/
theorem Reaches.run_none {m m' : Machine} {n patience : Nat} (h : m.Reaches n m')
    (hhalted : m'.halted = true) (hn : n ≤ patience) : m.run patience none = ⟨m', n, .done⟩ := by
  have hstopped : (m.runFor n).Stopped := by
    rw [h]
    exact .inl hhalted
  have hsame : m.runFor patience = m.runFor n := runFor_of_stopped hstopped hn
  rw [run_none_of_stopped (by rw [hsame]; exact hstopped), hsame]
  exact h

/-! ## Stretches without instructions -/

/-- The machine with C and D `n` words further on, around the end of memory. -/
def drifted (m : Machine) (n : Nat) : Machine :=
  { m with
    c := (m.c + n) % Memory.size
    d := (m.d + n) % Memory.size
    steps := m.steps + n }

theorem drifted_drifted (m : Machine) (k n : Nat) :
    (m.drifted k).drifted n = m.drifted (k + n) := by
  simp only [drifted, Nat.mod_add_mod, Nat.add_assoc]

theorem drifted_succ (m : Machine) (n : Nat) : m.drifted (n + 1) = (m.drifted n).advance := by
  simp only [drifted, advance, Nat.mod_add_mod, Nat.add_assoc]

theorem reaches_drifted {m : Machine} (h : m.halted = false) (hc : m.c < Memory.size)
    (hd : m.d < Memory.size) (n : Nat) (hidle : ∀ k < n, (m.drifted k).instruction? = none) :
    m.Reaches n (m.drifted n) := by
  induction n with
  | zero =>
    have hhere : m.drifted 0 = m := by
      simp only [drifted, Nat.add_zero, Nat.mod_eq_of_lt hc, Nat.mod_eq_of_lt hd]
    rw [hhere]
    exact m.runFor_zero
  | succ n ih =>
    have hact : Act (m.drifted n) (m.drifted n).instruction? (m.drifted n) := by
      rw [hidle n (Nat.lt_succ_self n)]
      exact .idle
    rw [drifted_succ]
    exact (ih fun k hk => hidle k (Nat.lt_succ_of_lt hk)).trans (reaches_of_act h hact)

/-! ## Runs with a host -/

theorem cutOff_machine {ε : Type} (r : Run ε) : r.cutOff.machine = r.machine := by
  unfold Run.cutOff; split <;> rfl

theorem run_none_machine (patience : Nat) (m : Machine) :
    (m.run patience none).machine = (m.runFor patience).machine := by
  simp only [run]
  split
  · split <;> rfl
  · rfl

theorem runUnder_machine (armed : Option Nat) (patience : Nat) (limit : Option Int) (m : Machine) :
    ∃ n, (m.runUnder armed patience limit).machine = (m.runFor n).machine := by
  cases armed with
  | some k => exact ⟨k, cutOff_machine _⟩
  | none =>
    cases limit with
    | some n => exact ⟨n.toNat, rfl⟩
    | none => exact ⟨patience, run_none_machine patience m⟩

theorem cutOff_executed {ε : Type} (r : Run ε) : r.cutOff.executed = r.executed := by
  unfold Run.cutOff; split <;> rfl

/-- However a run ends, its count is the growth of the machine's own count. -/
theorem runUnder_steps (armed : Option Nat) (patience : Nat) (limit : Option Int) (m : Machine) :
    (m.runUnder armed patience limit).machine.steps =
      m.steps + (m.runUnder armed patience limit).executed := by
  cases armed with
  | some k =>
    show (m.runFor k).cutOff.machine.steps = m.steps + (m.runFor k).cutOff.executed
    rw [cutOff_machine, cutOff_executed, runFor_steps]
  | none =>
    cases limit with
    | some n => exact m.runFor_steps n.toNat
    | none =>
      have hsteps := m.runFor_steps patience
      simp only [runUnder, run]
      split
      · split <;> exact hsteps
      · exact hsteps

end Machine
end Dis
