import Dis.Proofs.RefusedInput
import Dis.Proofs.Traffic
/-!
# Feeding early or late

A host may queue input before a run or after it. Until the run finds the queue empty (`Starves`)
this makes no difference: two machines of which one has more behind its queue (`Ahead`) make the
same steps, fail on the same values and halt together.

* `Act.ahead`, `Ahead.step`: one instruction and one step of both machines.
* `Ahead.runFor`, `Ahead.run`: whole runs, as long as the machine with less in its queue does not
  starve.
* `feeding_early_or_late`: so feeding and running can be exchanged.
-/
namespace Dis

namespace Machine

/-- The machine is about to take input and there is none. -/
structure Starves (m : Machine) : Prop where
  going : m.halted = false
  input : m.memory.read m.c = 125
  empty : m.queue.toList = []

/-- None of the first `n` steps of a run starves. -/
def FedFor (m : Machine) (n : Nat) : Prop :=
  ∀ k < n, ¬ (m.runFor k).machine.Starves

/-- The second machine is the first with `vs` behind its queue. -/
inductive Ahead (vs : List Value) (m : Machine) : Machine → Prop
  | mk (q : Queue Value) (h : q.toList = m.queue.toList ++ vs) : Ahead vs m { m with queue := q }

/-- The same machine: how a queue keeps what is in it makes no difference. -/
def Same (m m' : Machine) : Prop :=
  m.setQueue m.queue.toList = m'.setQueue m'.queue.toList

/-! ## One step -/

/-- A step that starves is made, with the greatest word for what is missing. -/
theorem Starves.step {m : Machine} (h : m.Starves) : ∃ m', m.step = .running m' := by
  have hact : Act m m.instruction? { m with a := Radix.trits.greatest } := by
    rw [m.instruction?_eq_input_iff.2 h.input]
    exact .starved (Queue.next?_eq_none_iff.2 h.empty)
  exact ⟨_, step_of_act h.going hact⟩

variable {vs : List Value} {m m' : Machine}

theorem Ahead.halted (h : Ahead vs m m') : m'.halted = m.halted := by
  cases h
  rfl

theorem Ahead.instruction? (h : Ahead vs m m') : m'.instruction? = m.instruction? := by
  cases h
  rfl

theorem Ahead.advance (h : Ahead vs m m') : Ahead vs m.advance m'.advance := by
  obtain ⟨q, hq⟩ := h
  exact .mk q hq

theorem Ahead.stop (h : Ahead vs m m') : Ahead vs m.stop m'.stop := by
  obtain ⟨q, hq⟩ := h
  exact .mk q hq

theorem Ahead.stopping (h : Ahead vs m m') (hstop : m.Stopping) : m'.Stopping := by
  obtain ⟨q, hq⟩ := h
  exact hstop

/-- Only `input` looks at the queue, and it looks at the front. -/
theorem Act.ahead {m₁ : Machine} {i : Option Instruction} (hact : Act m i m₁) (h : Ahead vs m m')
    (hfed : i = some .input → m.queue.toList ≠ []) : ∃ m₁', Act m' i m₁' ∧ Ahead vs m₁ m₁' := by
  obtain ⟨q, hq⟩ := h
  cases hact with
  | load => exact ⟨_, .load, .mk q hq⟩
  | rotate => exact ⟨_, .rotate, .mk q hq⟩
  | jump => exact ⟨_, .jump, .mk q hq⟩
  | output ha => exact ⟨_, .output ha, .mk q hq⟩
  | subtract => exact ⟨_, .subtract, .mk q hq⟩
  | starved hnone => exact absurd (Queue.next?_eq_none_iff.1 hnone) (hfed rfl)
  | taken v rest word hnext hw =>
    rw [Queue.toList_of_next? hnext, List.cons_append] at hq
    obtain ⟨rest', hnext', hrest'⟩ := Queue.next?_of_cons hq
    exact ⟨_, .taken v rest' word hnext' hw, .mk rest' hrest'⟩
  | pass => exact ⟨_, .pass, .mk q hq⟩
  | idle => exact ⟨_, .idle, .mk q hq⟩

theorem Ahead.refusing {v : Value} {rest : Queue Value} (h : Ahead vs m m')
    (hrefusing : m.Refusing v rest) :
    ∃ rest', m'.Refusing v rest' ∧ Ahead vs { m with queue := rest } { m' with queue := rest' } := by
  obtain ⟨hi, hnext, hw⟩ := hrefusing
  have hinput : m'.instruction? = some .input := h.instruction?.trans hi
  obtain ⟨q, hq⟩ := h
  rw [Queue.toList_of_next? hnext, List.cons_append] at hq
  obtain ⟨rest', hnext', hrest'⟩ := Queue.next?_of_cons hq
  exact ⟨rest', ⟨hinput, hnext', hw⟩, .mk rest' hrest'⟩

/-- Both steps go on, both halt, or both fail with the same error, and the second machine is still
ahead. -/
inductive InStep (vs : List Value) : Step → Step → Prop
  | running {m m' : Machine} (h : Ahead vs m m') : InStep vs (.running m) (.running m')
  | halted {m m' : Machine} (h : Ahead vs m m') : InStep vs (.halted m) (.halted m')
  | fault {m m' : Machine} (h : Ahead vs m m') (e : RangeError) :
      InStep vs (.fault m e) (.fault m' e)

theorem Ahead.step (h : Ahead vs m m') (hfed : ¬ m.Starves) : InStep vs m.step m'.step := by
  cases hm : m.halted with
  | true =>
    rw [m.step_of_halted hm, m'.step_of_halted (h.halted.trans hm)]
    exact .halted h
  | false =>
    have hm' : m'.halted = false := h.halted.trans hm
    rcases m.step_cases hm with ⟨m₁, hact, hs⟩ | ⟨hstop, hs⟩ | ⟨v, rest, hrefusing, hs⟩
    · have hqueue : m.instruction? = some .input → m.queue.toList ≠ [] := by
        intro hi hempty
        exact hfed ⟨hm, m.instruction?_eq_input_iff.1 hi, hempty⟩
      obtain ⟨m₁', hact', hahead⟩ := hact.ahead h hqueue
      rw [← h.instruction?] at hact'
      rw [hs, step_of_act hm' hact']
      exact .running hahead.advance
    · rw [hs, step_of_stopping hm' (h.stopping hstop)]
      exact .halted h.stop
    · obtain ⟨rest', hrefusing', hahead⟩ := h.refusing hrefusing
      rw [hs, step_of_refusing hm' hrefusing']
      exact .fault hahead _

/-! ## Runs -/

/-- The two runs make as many steps, end in the same way, and leave the second machine ahead. -/
structure Abreast (vs : List Value) (r r' : Run) : Prop where
  machine : Ahead vs r.machine r'.machine
  executed : r'.executed = r.executed
  ending : r'.ending = r.ending

theorem Ahead.runFor (h : Ahead vs m m') (n : Nat) (hfed : m.FedFor (m.runFor n).executed) :
    Abreast vs (m.runFor n) (m'.runFor n) := by
  induction n generalizing m m' with
  | zero => exact ⟨h, rfl, rfl⟩
  | succ n ih =>
    cases hm : m.halted with
    | true =>
      rw [m.runFor_of_halted hm, m'.runFor_of_halted (h.halted.trans hm)]
      exact ⟨h, rfl, rfl⟩
    | false =>
      rw [m.runFor_succ n hm] at hfed ⊢
      rw [m'.runFor_succ n (h.halted.trans hm)]
      have hfirst : ¬ m.Starves := by
        intro hstarves
        obtain ⟨m₁, hs⟩ := hstarves.step
        rw [hs] at hfed
        exact hfed 0 (Nat.succ_pos _) hstarves
      have hsteps := h.step hfirst
      cases hs : m.step with
      | running m₁ =>
        rw [hs] at hfed hsteps
        generalize m'.step = s at hsteps ⊢
        cases hsteps with
        | running hahead =>
          have hrest : m₁.FedFor (m₁.runFor n).executed := by
            intro k hk
            have hlater := hfed (k + 1) (Nat.succ_lt_succ hk)
            rwa [m.runFor_succ k hm, hs] at hlater
          have habreast := ih hahead hrest
          exact ⟨habreast.machine, congrArg (· + 1) habreast.executed, habreast.ending⟩
      | halted m₁ =>
        rw [hs] at hsteps
        generalize m'.step = s at hsteps ⊢
        cases hsteps with
        | halted hahead => exact ⟨hahead, rfl, rfl⟩
      | fault m₁ e =>
        rw [hs] at hsteps
        generalize m'.step = s at hsteps ⊢
        cases hsteps with
        | fault hahead e => exact ⟨hahead, rfl, rfl⟩

theorem run_none_executed (patience : Nat) (m : Machine) :
    (m.run patience none).executed = (m.runFor patience).executed := by
  simp only [run]
  split
  · split <;> rfl
  · rfl

theorem Ahead.run (h : Ahead vs m m') (patience : Nat) (limit : Option Int)
    (hfed : m.FedFor (m.run patience limit).executed) :
    Abreast vs (m.run patience limit) (m'.run patience limit) := by
  cases limit with
  | some n => exact h.runFor n.toNat hfed
  | none =>
    rw [run_none_executed] at hfed
    have habreast := h.runFor patience hfed
    refine ⟨?_, ?_, ?_⟩
    · rw [run_none_machine, run_none_machine]
      exact habreast.machine
    · rw [run_none_executed, run_none_executed]
      exact habreast.executed
    · simp only [Machine.run]
      rw [habreast.ending, habreast.machine.halted]
      split
      · split
        · exact habreast.ending
        · rfl
      · exact habreast.ending

/-! ## Feeding -/

theorem ahead_append (vs : List Value) (m : Machine) :
    Ahead vs m { m with queue := m.queue.append vs } :=
  .mk _ (m.queue.toList_append vs)

/-- What is ahead by `vs` is what feeding `vs` leads to. -/
theorem Ahead.same (h : Ahead vs m m') : Same m' { m with queue := m.queue.append vs } := by
  obtain ⟨q, hq⟩ := h
  simp only [Same, Machine.setQueue, Queue.toList_append, hq]

/-- **Feeding early or late is the same unless the program starves.** Whatever a machine is and
whatever its queue holds: if no step of a run takes input from an empty queue, then feeding words
before the run and feeding them after it lead to the same machine, after the same number of steps
and with the same failure, if there is one. In every run, starving or not, what is left of the queue
is an end of what was there, and the output before is a beginning of the output after. -/
theorem feeding_early_or_late (m : Machine) (patience : Nat) (limit : Option Int) :
    (∀ vs : List Value, (∀ v ∈ vs, v.IsWord) → m.FedFor (m.run patience limit).executed →
      ∃ early late, m.feed vs = .ok early ∧ (m.run patience limit).machine.feed vs = .ok late ∧
        (early.run patience limit).executed = (m.run patience limit).executed ∧
        (early.run patience limit).ending = (m.run patience limit).ending ∧
        (early.run patience limit).machine.Same late) ∧
    ∀ armed : Option Nat,
      (m.runUnder armed patience limit).machine.queue.toList <:+ m.queue.toList ∧
      m.output.toList <+: (m.runUnder armed patience limit).machine.output.toList := by
  constructor
  · intro vs hwords hfed
    have habreast := (ahead_append vs m).run patience limit hfed
    exact ⟨_, _, m.feed_words hwords, feed_words _ hwords, habreast.executed, habreast.ending,
      habreast.machine.same⟩
  · intro armed
    obtain ⟨n, hn⟩ := m.runUnder_machine armed patience limit
    obtain ⟨taken, put, htraffic⟩ := m.runFor_traffic n
    rw [hn]
    exact ⟨⟨taken, htraffic.queue.symm⟩, ⟨put, htraffic.output.symm⟩⟩

/-- A program that reads, writes and reads, with a word and a truth value in the queue: its first
step, and a run of nine. Nothing but the three commands is looked at. -/
theorem runFor_relay_refusing {memory : Memory} (hfirst : memory.read 0 = 125)
    (hsecond : memory.read 1 = 123) (hthird : memory.read 2 = 125) :
    let m : Machine := ⟨memory, 0, 0, 0, false, .ofList [.int 5, .truth true], #[], 0, 3⟩
    m.runFor 1 = ⟨⟨memory, 5, 1, 1, false, .ofList [.truth true], #[], 1, 3⟩, 1, .done⟩ ∧
    m.runFor 9 = ⟨⟨memory, 5, 2, 2, false, .ofList [], #[5], 2, 3⟩, 2,
      .fault (refusalOf (.truth true))⟩ := by
  intro m
  have hreads : m.step = .running ⟨memory, 5, 1, 1, false, .ofList [.truth true], #[], 1, 3⟩ := by
    simp only [m, step, hfirst]
    rfl
  have hwrites : step ⟨memory, 5, 1, 1, false, .ofList [.truth true], #[], 1, 3⟩ =
      .running ⟨memory, 5, 2, 2, false, .ofList [.truth true], #[5], 2, 3⟩ := by
    simp only [step, hsecond]
    rfl
  have hfails : step ⟨memory, 5, 2, 2, false, .ofList [.truth true], #[5], 2, 3⟩ =
      .fault ⟨memory, 5, 2, 2, false, .ofList [], #[5], 2, 3⟩ (refusalOf (.truth true)) := by
    simp only [step, hthird]
    rfl
  constructor
  · rw [m.runFor_succ 0 rfl, hreads]
    rfl
  · rw [m.runFor_succ 8 rfl, hreads]
    simp only
    rw [runFor_succ 7 _ rfl, hwrites]
    simp only
    rw [runFor_succ 6 _ rfl, hfails]

/-- A word that is echoed and a truth value on which the run fails; the word fed before or after
waits behind it. -/
theorem feeding_early_or_late_failing :
    let m := (ofImage #[125, 123, 125]).setQueue [.int 5, .truth true]
    m.FedFor (m.run 0 (some 9)).executed ∧
    ∃ early late, m.feed [.int 7] = .ok early ∧
      (m.run 0 (some 9)).machine.feed [.int 7] = .ok late ∧
      (early.run 0 (some 9)).executed = 2 ∧
      (early.run 0 (some 9)).ending = .fault (refusalOf (.truth true)) ∧
      (early.run 0 (some 9)).machine.Same late := by
  intro m
  obtain ⟨hone, hnine⟩ := runFor_relay_refusing (Memory.read_ofImage #[125, 123, 125] (by decide))
    (Memory.read_ofImage #[125, 123, 125] (by decide))
    (Memory.read_ofImage #[125, 123, 125] (by decide))
  change m.runFor 1 = _ at hone
  change m.run 0 (some 9) = _ at hnine
  have hfed : m.FedFor (m.run 0 (some 9)).executed := by
    rw [hnine]
    intro k hk hstarves
    obtain rfl | rfl : k = 0 ∨ k = 1 := by simp only at hk; omega
    · exact absurd hstarves.empty (by simp [runFor_zero, m, setQueue])
    · rw [hone] at hstarves
      exact absurd hstarves.empty (by simp)
  have hword : ∀ v ∈ [Value.int 7], v.IsWord := by
    intro v hv
    obtain rfl := List.mem_singleton.1 hv
    exact ⟨7, rfl, by decide⟩
  obtain ⟨early, late, hearly, hlate, hcount, hend, hsame⟩ :=
    (feeding_early_or_late m 0 (some 9)).1 _ hword hfed
  refine ⟨hfed, early, late, hearly, hlate, hcount.trans ?_, hend.trans ?_, hsame⟩
  · rw [hnine]
  · rw [hnine]

end Machine
end Dis
