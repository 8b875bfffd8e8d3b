import Dis.Proofs.Soundness
/-!
# What a run takes in and puts out

A run takes values from the front of the queue and adds words to the end of the output: `Traffic`
names both. All that a program can do beyond that goes through `rotate` and `subtract`, which are
the only instructions that write to memory and the only ones that compute. `Relayed`: memory is as
it was, and every word put out was in A from the start or came out of the queue.

* `Act.traffic`, `step_traffic`, `runFor_traffic`: one instruction, one step, a run.
* `Relayed.trans`: the greatest word is what an empty queue puts into A, and it is never put out, so
  where a word comes from is known across steps that starve.
* `runFor_relayed`: no word of memory being 62 or 124, whole runs relay.
* `storeless_run_relays`: whatever limit, patience or interrupt they have.
-/
namespace Dis

/-- Every word that is read stands in memory, except for the zero read outside of it. -/
theorem Memory.read_mem (m : Memory) (address : Nat) :
    m.read address ∈ m.words ∨ m.read address = 0 := by
  unfold read
  rw [Array.getD_eq_getD_getElem?]
  by_cases h : address < m.words.size
  · left
    rw [Array.getElem?_eq_getElem h]
    exact Array.getElem_mem h
  · right
    rw [Array.getElem?_eq_none (Nat.le_of_not_lt h)]
    rfl

namespace Machine

/-- Between two machines, `taken` has left the queue and `put` has been added to the output. -/
structure Traffic (m m' : Machine) (taken : List Value) (put : List Nat) : Prop where
  queue : m.queue.toList = taken ++ m'.queue.toList
  output : m'.output.toList = m.output.toList ++ put

theorem Traffic.refl (m : Machine) : Traffic m m [] [] :=
  ⟨rfl, (List.append_nil _).symm⟩

theorem Traffic.trans {m₁ m₂ m₃ : Machine} {taken taken' : List Value} {put put' : List Nat}
    (h : Traffic m₁ m₂ taken put) (h' : Traffic m₂ m₃ taken' put') :
    Traffic m₁ m₃ (taken ++ taken') (put ++ put') :=
  ⟨by rw [h.queue, h'.queue, List.append_assoc], by rw [h'.output, h.output, List.append_assoc]⟩

/-- Memory is as it was, what was put out was in A or came out of the queue, and so did what is in A
now, unless it is the greatest word. -/
structure Relayed (m m' : Machine) (taken : List Value) (put : List Nat) : Prop where
  memory : m'.memory = m.memory
  source : ∀ w ∈ put, w ≠ 59048 ∧ (w = m.a ∨ .int w ∈ taken)
  accumulator : m'.a = 59048 ∨ m'.a = m.a ∨ .int m'.a ∈ taken

theorem Relayed.refl (m : Machine) : Relayed m m [] [] :=
  ⟨rfl, by simp, .inr (.inl rfl)⟩

theorem Relayed.trans {m₁ m₂ m₃ : Machine} {taken taken' : List Value} {put put' : List Nat}
    (h : Relayed m₁ m₂ taken put) (h' : Relayed m₂ m₃ taken' put') :
    Relayed m₁ m₃ (taken ++ taken') (put ++ put') := by
  -- a word that was in A between the two, unless it is the greatest
  have hbetween : m₂.a ≠ 59048 → m₂.a = m₁.a ∨ .int m₂.a ∈ taken ++ taken' := by
    intro hne
    rcases h.accumulator.resolve_left hne with ha | ha
    · exact .inl ha
    · exact .inr (List.mem_append_left _ ha)
  refine ⟨h'.memory.trans h.memory, ?_, ?_⟩
  · intro w hw
    rcases List.mem_append.1 hw with hw | hw
    · obtain ⟨hne, hsource⟩ := h.source w hw
      exact ⟨hne, hsource.imp_right (List.mem_append_left _)⟩
    · obtain ⟨hne, rfl | hsource⟩ := h'.source w hw
      · exact ⟨hne, hbetween hne⟩
      · exact ⟨hne, .inr (List.mem_append_right _ hsource)⟩
  · by_cases hne : m₃.a = 59048
    · exact .inl hne
    · right
      rcases h'.accumulator.resolve_left hne with ha | ha
      · rw [ha] at hne ⊢
        exact hbetween hne
      · exact .inr (List.mem_append_right _ ha)

/-! ## One step -/

/-- The machine is about to write to memory. -/
def Storing (m : Machine) : Prop :=
  m.instruction? = some .rotate ∨ m.instruction? = some .subtract

theorem Act.traffic {m m' : Machine} {i : Option Instruction} (h : Act m i m') :
    ∃ taken put, Traffic m m' taken put ∧
      (i ≠ some .rotate ∧ i ≠ some .subtract → Relayed m m' taken put) := by
  have hnothing : Traffic m m [] [] := .refl m
  cases h with
  | load => exact ⟨[], [], { hnothing with }, fun _ => ⟨rfl, by simp, .inr (.inl rfl)⟩⟩
  | rotate => exact ⟨[], [], { hnothing with }, fun h => absurd rfl h.1⟩
  | jump => exact ⟨[], [], { hnothing with }, fun _ => ⟨rfl, by simp, .inr (.inl rfl)⟩⟩
  | output ha =>
    refine ⟨[], [m.a], ⟨rfl, by simp⟩, fun _ => ⟨rfl, ?_, .inr (.inl rfl)⟩⟩
    intro w hw
    obtain rfl := List.mem_singleton.1 hw
    rw [trits_greatest] at ha
    exact ⟨ha, .inl rfl⟩
  | subtract => exact ⟨[], [], { hnothing with }, fun h => absurd rfl h.2⟩
  | starved hq => exact ⟨[], [], { hnothing with }, fun _ => ⟨rfl, by simp, .inl trits_greatest⟩⟩
  | taken v rest word hq hw =>
    obtain ⟨rfl, -⟩ := (Radix.word?_eq_some_iff _ _ _).1 hw
    refine ⟨[.int word], [], ⟨Queue.toList_of_next? hq, by simp⟩, fun _ => ⟨rfl, by simp, ?_⟩⟩
    exact .inr (.inr List.mem_cons_self)
  | pass => exact ⟨[], [], hnothing, fun _ => .refl m⟩
  | idle => exact ⟨[], [], hnothing, fun _ => .refl m⟩

/-- What a step takes in and puts out, and that it relays unless it writes to memory. -/
theorem step_traffic (m : Machine) :
    ∃ taken put, Traffic m m.step.machine taken put ∧
      (¬ m.Storing → Relayed m m.step.machine taken put) := by
  cases hm : m.halted with
  | true =>
    rw [m.step_of_halted hm]
    exact ⟨[], [], .refl m, fun _ => .refl m⟩
  | false =>
    rcases m.step_cases hm with ⟨m', hact, hs⟩ | ⟨-, hs⟩ | ⟨v, rest, ⟨-, hq, -⟩, hs⟩
    · rw [hs]
      obtain ⟨taken, put, htraffic, hrelayed⟩ := hact.traffic
      refine ⟨taken, put, { htraffic with }, fun hstoring => ?_⟩
      exact { hrelayed (not_or.1 hstoring) with }
    · rw [hs]
      exact ⟨[], [], { Traffic.refl m with }, fun _ => { Relayed.refl m with }⟩
    · rw [hs]
      refine ⟨[v], [], ⟨Queue.toList_of_next? hq, (List.append_nil _).symm⟩, fun _ => ?_⟩
      exact ⟨rfl, by simp, .inr (.inl rfl)⟩

/-! ## Runs -/

theorem runFor_traffic (n : Nat) (m : Machine) :
    ∃ taken put, Traffic m (m.runFor n).machine taken put := by
  refine runFor_invariant (P := fun m' => ∃ taken put, Traffic m m' taken put) ?_ n m
    ⟨[], [], .refl m⟩
  rintro m' ⟨taken, put, htraffic⟩
  obtain ⟨taken', put', hstep, -⟩ := m'.step_traffic
  exact ⟨_, _, htraffic.trans hstep⟩

theorem not_storing {m : Machine} (h : ∀ w ∈ m.memory.words, w ≠ 62 ∧ w ≠ 124) : ¬ m.Storing := by
  have hread : m.memory.read m.c ≠ 62 ∧ m.memory.read m.c ≠ 124 := by
    rcases m.memory.read_mem m.c with hmem | hzero
    · exact h _ hmem
    · rw [hzero]
      decide
  rintro (hrotate | hsubtract)
  · exact hread.1 (Instruction.code_of_ofCode? hrotate).symm
  · exact hread.2 (Instruction.code_of_ofCode? hsubtract).symm

/-- Memory stays what it was, so no later step writes to it either. -/
theorem runFor_relayed {m : Machine} (h : ∀ w ∈ m.memory.words, w ≠ 62 ∧ w ≠ 124) (n : Nat) :
    ∃ taken put, Traffic m (m.runFor n).machine taken put ∧
      Relayed m (m.runFor n).machine taken put := by
  refine runFor_invariant
    (P := fun m' => ∃ taken put, Traffic m m' taken put ∧ Relayed m m' taken put) ?_ n m
    ⟨[], [], .refl m, .refl m⟩
  rintro m' ⟨taken, put, htraffic, hrelayed⟩
  obtain ⟨taken', put', hstep, hrelays⟩ := m'.step_traffic
  have hstoreless : ¬ m'.Storing := by
    apply not_storing
    rw [hrelayed.memory]
    exact h
  exact ⟨_, _, htraffic.trans hstep, hrelayed.trans (hrelays hstoreless)⟩

/-- **Without stores a machine only relays.** If no word of memory is 62 or 124, every run leaves
memory as it is, whatever its length and however it ends. Every word that it adds to the output is
what A held before the run or a value that the run took from the queue, and never the greatest
word, which an empty queue puts into A. -/
theorem storeless_run_relays (m : Machine) (h : ∀ w ∈ m.memory.words, w ≠ 62 ∧ w ≠ 124)
    (armed : Option Nat) (patience : Nat) (limit : Option Int) :
    let r := m.runUnder armed patience limit
    r.machine.memory = m.memory ∧
    ∃ taken put, m.queue.toList = taken ++ r.machine.queue.toList ∧
      r.machine.output.toList = m.output.toList ++ put ∧
      ∀ w ∈ put, w ≠ 59048 ∧ (w = m.a ∨ .int w ∈ taken) := by
  intro r
  obtain ⟨n, hn⟩ := m.runUnder_machine armed patience limit
  obtain ⟨taken, put, htraffic, hrelayed⟩ := runFor_relayed h n
  rw [← hn] at htraffic hrelayed
  exact ⟨hrelayed.memory, taken, put, htraffic.queue, htraffic.output, hrelayed.source⟩

/-- Five commands that write and read in turn, with nine in A and a five in the queue. Nothing but
these commands is looked at. -/
theorem run_relay_starving {memory : Memory} (hfirst : memory.read 0 = 123)
    (hsecond : memory.read 1 = 125) (hthird : memory.read 2 = 123) (hfourth : memory.read 3 = 125)
    (hfifth : memory.read 4 = 123) :
    run 8 none ⟨memory, 9, 0, 0, false, .ofList [.int 5], #[1], 0, 5⟩ =
      ⟨⟨memory, 59048, 4, 4, true, .ofList [], #[1, 9, 5], 5, 5⟩, 5, .done⟩ := by
  have hwrites : step ⟨memory, 9, 0, 0, false, .ofList [.int 5], #[1], 0, 5⟩ =
      .running ⟨memory, 9, 1, 1, false, .ofList [.int 5], #[1, 9], 1, 5⟩ := by
    simp only [step, hfirst]
    rfl
  have hreads : step ⟨memory, 9, 1, 1, false, .ofList [.int 5], #[1, 9], 1, 5⟩ =
      .running ⟨memory, 5, 2, 2, false, .ofList [], #[1, 9], 2, 5⟩ := by
    simp only [step, hsecond]
    rfl
  have hrelays : step ⟨memory, 5, 2, 2, false, .ofList [], #[1, 9], 2, 5⟩ =
      .running ⟨memory, 5, 3, 3, false, .ofList [], #[1, 9, 5], 3, 5⟩ := by
    simp only [step, hthird]
    rfl
  have hstarves : step ⟨memory, 5, 3, 3, false, .ofList [], #[1, 9, 5], 3, 5⟩ =
      .running ⟨memory, 59048, 4, 4, false, .ofList [], #[1, 9, 5], 4, 5⟩ := by
    simp only [step, hfourth]
    rfl
  have hstops : step ⟨memory, 59048, 4, 4, false, .ofList [], #[1, 9, 5], 4, 5⟩ =
      .halted ⟨memory, 59048, 4, 4, true, .ofList [], #[1, 9, 5], 5, 5⟩ := by
    simp only [step, hfifth]
    rfl
  rw [run, runFor_succ 7 _ rfl, hwrites]
  simp only
  rw [runFor_succ 6 _ rfl, hreads]
  simp only
  rw [runFor_succ 5 _ rfl, hrelays]
  simp only
  rw [runFor_succ 4 _ rfl, hstarves]
  simp only
  rw [runFor_succ 3 _ rfl, hstops]
  rfl

/-- What A holds is put out, then the one value of the queue; then the queue is empty, and the
greatest word stops the machine. -/
theorem storeless_run_relays_starving :
    let image := #[123, 125, 123, 125, 123]
    let m : Machine := { ofImage image with a := 9, queue := .ofList [.int 5], output := #[1] }
    (∀ w ∈ m.memory.words, w ≠ 62 ∧ w ≠ 124) ∧ ∃ r, m.runUnder none 8 none = r ∧ r.executed = 5 ∧
      r.machine.a = 59048 ∧ r.machine.output = #[1, 9, 5] ∧ r.machine.memory = m.memory ∧
      ∃ taken put, m.queue.toList = taken ++ r.machine.queue.toList ∧
        r.machine.output.toList = m.output.toList ++ put ∧
        ∀ w ∈ put, w ≠ 59048 ∧ (w = m.a ∨ .int w ∈ taken) := by
  intro image m
  have hstoreless : ∀ w ∈ m.memory.words, w ≠ 62 ∧ w ≠ 124 := by
    intro w hw
    rcases Array.mem_append.1 hw with himage | hzero
    · exact (show ∀ w ∈ image, w ≠ 62 ∧ w ≠ 124 by decide) w himage
    · rw [(Array.mem_replicate.1 hzero).2]
      decide
  have hread : ∀ {address}, address < 5 →
      (Memory.ofImage image).read address = image.getD address 0 := Memory.read_ofImage image
  have hrun := run_relay_starving (hread (show 0 < 5 by decide)) (hread (by decide))
    (hread (by decide)) (hread (by decide)) (hread (by decide))
  change m.runUnder none 8 none = _ at hrun
  obtain ⟨hmemory, hrelays⟩ := storeless_run_relays m hstoreless none 8 none
  rw [hrun] at hmemory hrelays
  exact ⟨hstoreless, _, hrun, rfl, rfl, rfl, hmemory, hrelays⟩

end Machine
end Dis
