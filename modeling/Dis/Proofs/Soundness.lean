import Dis.Proofs.Cycle
import Dis.Proofs.Grammar
/-!
# Sound machines

`Machine.Sound`: memory is a full row of words, the registers are words, and no output is the
greatest word. Programs rewrite their own memory and jump through it, so the invariant is about
every word at once.

* `load_sound`: a machine loaded with a text is sound.
* `Act.sound`, `step_sound`, `runFor_sound`: every instruction, every step and every run keeps a
  machine sound, also a step that fails.
* `Later`: steps are never taken back and a halt is for good; `step_later`, `runFor_later`.
-/
namespace Dis

/-! ## Memory -/

namespace Memory

/-- A full row of words. -/
structure Sound (m : Memory) : Prop where
  size : m.words.size = Memory.size
  words : ∀ w ∈ m.words, w < Memory.size

theorem Sound.read_lt {m : Memory} (h : m.Sound) (address : Nat) :
    m.read address < Memory.size := by
  unfold read
  by_cases ha : address < m.words.size
  · rw [Array.getD_eq_getD_getElem?, Array.getElem?_eq_getElem ha]
    exact h.words _ (Array.getElem_mem ha)
  · rw [Array.getD_eq_getD_getElem?, Array.getElem?_eq_none (Nat.le_of_not_lt ha)]
    simp

theorem Sound.write {m : Memory} (h : m.Sound) (address word : Nat) (hw : word < Memory.size) :
    (m.write address word).Sound := by
  refine ⟨?_, ?_⟩
  · simpa [Memory.write] using h.size
  · intro w hmem
    rcases Array.mem_or_eq_of_mem_setIfInBounds hmem with hold | rfl
    · exact h.words w hold
    · exact hw

theorem read_ofImage (image : Array Nat) {address : Nat} (h : address < image.size) :
    (ofImage image).read address = image.getD address 0 := by
  unfold read ofImage
  rw [Array.getD_eq_getD_getElem?, Array.getD_eq_getD_getElem?, Array.getElem?_append_left h]

/-- Behind its image, memory is zero. -/
theorem read_ofImage_behind (image : Array Nat) {address : Nat} (h : image.size ≤ address) :
    (ofImage image).read address = 0 := by
  unfold read ofImage
  rw [Array.getD_eq_getD_getElem?, Array.getElem?_append_right h, Array.getElem?_replicate]
  split <;> rfl

theorem ofImage_sound (image : Array Nat) (hsize : image.size ≤ Memory.size)
    (hwords : ∀ w ∈ image, w < Memory.size) : (ofImage image).Sound := by
  refine ⟨?_, ?_⟩
  · simp only [ofImage, Array.size_append, Array.size_replicate]; omega
  · intro w hmem
    rcases Array.mem_append.1 hmem with himage | hzero
    · exact hwords w himage
    · rw [(Array.mem_replicate.1 hzero).2]; simp

end Memory

/-! ## The invariant -/

namespace Machine

/-- Words everywhere, and an output without the greatest word. -/
structure Sound (m : Machine) : Prop where
  memory : m.memory.Sound
  a : m.a < Memory.size
  c : m.c < Memory.size
  d : m.d < Memory.size
  output : ∀ w ∈ m.output, w < Radix.trits.greatest

theorem ofImage_sound (image : Array Nat) (hsize : image.size ≤ Memory.size)
    (hwords : ∀ w ∈ image, w < Memory.size) : (ofImage image).Sound where
  memory := Memory.ofImage_sound image hsize hwords
  a := by simp [ofImage]
  c := by simp [ofImage]
  d := by simp [ofImage]
  output := by simp [ofImage]

/-- With no program in memory C and D move on, and nothing else ever happens. -/
theorem runFor_ofImage_empty (k n : Nat) :
    ((ofImage #[]).drifted k).runFor n = ⟨(ofImage #[]).drifted (k + n), n, .done⟩ := by
  rw [← drifted_drifted]
  refine reaches_drifted rfl (Nat.mod_lt _ (by simp)) (Nat.mod_lt _ (by simp)) n fun j _ => ?_
  exact congrArg Instruction.ofCode? (Memory.read_ofImage_behind #[] (Nat.zero_le _))

theorem load_sound {source : String} {m : Machine} (h : load source = .ok m) : m.Sound := by
  obtain ⟨image, hparse, rfl⟩ := (Program.load_eq_ok_iff source m).1 h
  obtain ⟨cmds, hw, rfl, hlen⟩ := (Program.parse_eq_ok_iff _ _).1 hparse
  rw [Program.capacity_eq] at hlen
  refine ofImage_sound _ (by simpa using hlen) ?_
  intro w hmem
  simp only [List.mem_toArray, List.mem_map] at hmem
  obtain ⟨c, hc, rfl⟩ := hmem
  exact Program.command_lt (Program.written_commands hw c hc)

theorem Sound.store {m : Machine} (h : m.Sound) (word : Nat) (hw : word < Memory.size) :
    (m.store word).Sound where
  memory := h.memory.write m.d word hw
  a := hw
  c := h.c
  d := h.d
  output := h.output

theorem Sound.advance {m : Machine} (h : m.Sound) : m.advance.Sound where
  memory := h.memory
  a := h.a
  c := Nat.mod_lt _ (by simp)
  d := Nat.mod_lt _ (by simp)
  output := h.output

theorem Sound.stop {m : Machine} (h : m.Sound) : m.stop.Sound where
  memory := h.memory
  a := h.a
  c := h.c
  d := h.d
  output := h.output

/-- One instruction, whatever the program has made of its memory. -/
theorem Act.sound {m m' : Machine} {i : Option Instruction} (h : m.Sound) (hact : Act m i m') :
    m'.Sound := by
  cases hact with
  | load => exact { h with d := h.memory.read_lt m.d }
  | rotate =>
    exact h.store _ (Radix.rotateOnce_lt Radix.trits _ (by decide) (h.memory.read_lt m.d))
  | jump => exact { h with c := h.memory.read_lt m.d }
  | output ha =>
    refine { h with output := ?_ }
    intro w hmem
    rcases Array.mem_push.1 hmem with hold | rfl
    · exact h.output w hold
    · have := h.a
      simp only [memory_size, trits_greatest] at this ha ⊢
      omega
  | subtract => exact h.store _ (Radix.subtract_lt Radix.trits (by decide) _ _)
  | starved => exact { h with a := by simp }
  | taken v rest word hq hw => exact { h with a := ((Radix.word?_eq_some_iff _ _ _).1 hw).2 }
  | pass => exact h
  | idle => exact h

theorem step_sound {m : Machine} (h : m.Sound) : m.step.machine.Sound := by
  cases hm : m.halted with
  | true => rw [m.step_of_halted hm]; exact h
  | false =>
    rcases m.step_cases hm with ⟨m', hact, hs⟩ | ⟨-, hs⟩ | ⟨v, rest, -, hs⟩
    · rw [hs]; exact (hact.sound h).advance
    · rw [hs]; exact h.stop
    · rw [hs]; exact { h with }

theorem runFor_sound {m : Machine} (h : m.Sound) (n : Nat) : (m.runFor n).machine.Sound :=
  runFor_invariant (fun _ => step_sound) n m h

theorem runUnder_sound {m : Machine} (h : m.Sound) (armed : Option Nat) (patience : Nat)
    (limit : Option Int) : (m.runUnder armed patience limit).machine.Sound := by
  obtain ⟨n, hn⟩ := runUnder_machine armed patience limit m
  rw [hn]; exact runFor_sound h n

/-! ## Later machines -/

/-- No step was taken back, and a halt has stayed. -/
structure Later (m m' : Machine) : Prop where
  steps : m.steps ≤ m'.steps
  halted : m.halted = true → m'.halted = true

theorem Later.refl (m : Machine) : Later m m := ⟨Nat.le_refl _, id⟩

theorem Later.trans {m₁ m₂ m₃ : Machine} (h : Later m₁ m₂) (h' : Later m₂ m₃) : Later m₁ m₃ :=
  ⟨Nat.le_trans h.steps h'.steps, fun hm => h'.halted (h.halted hm)⟩

theorem step_later (m : Machine) : Later m m.step.machine := by
  cases hm : m.halted with
  | true => rw [m.step_of_halted hm]; exact Later.refl m
  | false =>
    have hfalse : m.halted = true → ∀ b, b = true := by simp [hm]
    rcases m.step_cases hm with ⟨m', hact, hs⟩ | ⟨-, hs⟩ | ⟨v, rest, -, hs⟩
    · rw [hs]
      refine ⟨?_, fun h => hfalse h _⟩
      show m.steps ≤ m'.steps + 1
      rw [hact.steps_eq]; omega
    · rw [hs]; exact ⟨Nat.le_succ _, fun _ => rfl⟩
    · rw [hs]; exact ⟨Nat.le_refl _, fun h => hfalse h _⟩

theorem runFor_later (n : Nat) (m : Machine) : Later m (m.runFor n).machine :=
  runFor_invariant (fun m' h => h.trans (step_later m')) n m (Later.refl m)

theorem runUnder_later (armed : Option Nat) (patience : Nat) (limit : Option Int) (m : Machine) :
    Later m (m.runUnder armed patience limit).machine := by
  obtain ⟨n, hn⟩ := runUnder_machine armed patience limit m
  rw [hn]; exact runFor_later n m

end Machine
end Dis
