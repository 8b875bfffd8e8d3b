import Dis.Proofs.HostSession
/-!
# The instruction cycle with every check

`Machine.step` checks one thing only, the input value that goes into A. `checkedStep` is the cycle
in which nothing is taken on trust: every address is checked when memory is read or written, every
word when it goes into a register or back to memory, and every operand when it is rotated,
subtracted or incremented. What a check refuses comes with the machine as it then stands.

* `checkedStep_made`: on any machine, sound or not, a checked step is counted unless it breaks off,
  so it makes a `Cycle`, `Cycle.checked`, and what is said of runs by any cycle holds of it.
* `checkedStep_eq`: on a sound machine the two cycles are the same, so the checks that `step`
  leaves out never find anything.
-/
namespace Dis

/-- The result of a step as a checked cycle gives it. -/
def Step.checked : Step → Except (Machine × AccessError) Step
  | .running m => .ok (.running m)
  | .halted m => .ok (.halted m)
  | .fault m e => .error (m, .value e)

namespace Machine

/-- A check made while the machine is as given. -/
def guarded {α : Type} (m : Machine) (x : Except AccessError α) :
    Except (Machine × AccessError) α :=
  x.mapError fun e => (m, e)

/-- Set a register to a checked value. -/
def assign (m : Machine) (reg : Register) (v : Value) : Except (Machine × AccessError) Machine :=
  m.guarded ((m.setRegister reg v).mapError .value)

/-- The word at a checked address. -/
def fetch (m : Machine) (address : Nat) : Except (Machine × AccessError) Nat :=
  m.guarded (m.memory.get (.int address))

/-- The result of an operation on checked words. -/
def compute (m : Machine) (x : Except RangeError Nat) : Except (Machine × AccessError) Nat :=
  m.guarded (x.mapError .value)

/-- Put a checked result into A and back to the word at D. -/
def checkedStore (m : Machine) (word : Nat) : Except (Machine × AccessError) Machine := do
  let m ← m.assign .a (.int word)
  m.guarded (m.setMemory (.int m.d) (.int word))

/-- Move C and D on by one, each checked, and count the step. -/
def checkedAdvance (m : Machine) : Except (Machine × AccessError) Step := do
  let c ← m.compute (Radix.trits.checkedIncrement (.int m.c) (.int 1))
  let m ← m.assign .c (.int c)
  let d ← m.compute (Radix.trits.checkedIncrement (.int m.d) (.int 1))
  let m ← m.assign .d (.int d)
  .ok (.running { m with steps := m.steps + 1 })

/-- Take the next input value into A; it has left the queue when it is checked. -/
def checkedInput (m : Machine) : Except (Machine × AccessError) Machine :=
  match m.queue.next? with
  | none => m.assign .a (.int Radix.trits.greatest)
  | some (v, rest) => { m with queue := rest }.assign .a v

/-- Execute one instruction with every check. -/
def checkedStep (m : Machine) : Except (Machine × AccessError) Step :=
  if m.halted then .ok (.halted m)
  else do
    let word ← m.fetch m.c
    match Instruction.ofCode? word with
    | some .halt => .ok (.halted m.stop)
    | some .load => do
      let m ← m.assign .d (.int (← m.fetch m.d))
      m.checkedAdvance
    | some .rotate => do
      let word ← m.compute (Radix.trits.checkedRotate (.int (← m.fetch m.d)) (.int 1))
      let m ← m.checkedStore word
      m.checkedAdvance
    | some .jump => do
      let m ← m.assign .c (.int (← m.fetch m.d))
      m.checkedAdvance
    | some .output =>
      if m.a = Radix.trits.greatest then .ok (.halted m.stop)
      else Machine.checkedAdvance { m with output := m.output.push m.a }
    | some .subtract => do
      let word ← m.compute (Radix.trits.checkedSubtract (.int m.a) (.int (← m.fetch m.d)))
      let m ← m.checkedStore word
      m.checkedAdvance
    | some .input => do
      let m ← m.checkedInput
      m.checkedAdvance
    | some .pass => m.checkedAdvance
    | none => m.checkedAdvance

/-! ## What is counted -/

/-- A step of a machine that had made `n` steps: it is counted, or it has broken off before that. -/
inductive Made (n : Nat) : Except (Machine × AccessError) Step → Prop
  | running {m : Machine} (h : m.steps = n + 1) : Made n (.ok (.running m))
  | halted {m : Machine} (hm : m.halted = true) (h : m.steps = n + 1) : Made n (.ok (.halted m))
  | refused {m : Machine} {e : AccessError} (h : m.steps = n) : Made n (.error (m, e))

/-- A part of a step, which is not counted by itself. -/
inductive Uncounted (n : Nat) : Except (Machine × AccessError) Machine → Prop
  | ok {m : Machine} (h : m.steps = n) : Uncounted n (.ok m)
  | refused {m : Machine} {e : AccessError} (h : m.steps = n) : Uncounted n (.error (m, e))

theorem Uncounted.bind {n : Nat} {x : Except (Machine × AccessError) Machine}
    {f : Machine → Except (Machine × AccessError) Step} (hx : Uncounted n x)
    (hf : ∀ m, m.steps = n → Made n (f m)) : Made n (x >>= f) := by
  cases hx with
  | ok h => exact hf _ h
  | refused h => exact .refused h

theorem made_guarded {α : Type} {n : Nat} {m : Machine} (hm : m.steps = n)
    {f : α → Except (Machine × AccessError) Step} (hf : ∀ a, Made n (f a))
    (x : Except AccessError α) : Made n (m.guarded x >>= f) := by
  cases x with
  | ok a => exact hf a
  | error e => exact .refused hm

theorem uncounted_assign {n : Nat} {m : Machine} (hm : m.steps = n) (reg : Register) (v : Value) :
    Uncounted n (m.assign reg v) := by
  unfold assign guarded
  cases hset : m.setRegister reg v with
  | ok m' =>
    obtain ⟨word, -, rfl⟩ := setRegister_eq_ok hset
    refine .ok ?_
    cases reg <;> exact hm
  | error e => exact .refused hm

theorem uncounted_checkedStore {n : Nat} {m : Machine} (hm : m.steps = n) (word : Nat) :
    Uncounted n (m.checkedStore word) := by
  unfold checkedStore
  have hassign := uncounted_assign hm .a (.int word)
  generalize m.assign .a (.int word) = x at hassign
  cases hassign with
  | refused h => exact .refused h
  | @ok m' h =>
    rw [ok_bind]
    unfold guarded
    cases hset : m'.setMemory (.int m'.d) (.int word) with
    | ok m'' =>
      obtain ⟨address, word', -, rfl⟩ := setMemory_eq_ok hset
      exact .ok h
    | error e => exact .refused h

theorem uncounted_checkedInput {n : Nat} {m : Machine} (hm : m.steps = n) :
    Uncounted n m.checkedInput := by
  unfold checkedInput
  split
  · exact uncounted_assign hm _ _
  · refine uncounted_assign ?_ _ _
    exact hm

theorem made_checkedAdvance {n : Nat} {m : Machine} (hm : m.steps = n) :
    Made n m.checkedAdvance := by
  unfold checkedAdvance
  refine made_guarded hm (fun c => ?_) _
  refine (uncounted_assign hm _ _).bind fun m₁ h₁ => ?_
  refine made_guarded h₁ (fun d => ?_) _
  refine (uncounted_assign h₁ _ _).bind fun m₂ h₂ => ?_
  exact .running (congrArg (· + 1) h₂)

/-- A checked step is counted, unless it breaks off. -/
theorem checkedStep_made {m : Machine} (hm : m.halted = false) : Made m.steps m.checkedStep := by
  unfold checkedStep
  rw [if_neg (by simp [hm])]
  refine made_guarded rfl (fun word => ?_) _
  cases Instruction.ofCode? word with
  | none => exact made_checkedAdvance rfl
  | some i =>
    cases i with
    | halt => exact .halted rfl rfl
    | pass => exact made_checkedAdvance rfl
    | load | jump =>
      refine made_guarded rfl (fun operand => ?_) _
      exact (uncounted_assign rfl _ _).bind fun _ => made_checkedAdvance
    | rotate | subtract =>
      refine made_guarded rfl (fun operand => ?_) _
      refine made_guarded rfl (fun result => ?_) _
      exact (uncounted_checkedStore rfl result).bind fun _ => made_checkedAdvance
    | output =>
      simp only
      split
      · exact .halted rfl rfl
      · exact made_checkedAdvance rfl
    | input => exact (uncounted_checkedInput rfl).bind fun _ => made_checkedAdvance

end Machine

/-- The step that a checked one is, with whatever it was refused for. -/
def Step.ofChecked : Except (Machine × AccessError) Step → Step AccessError
  | .ok (.running m) => .running m
  | .ok (.halted m) => .halted m
  | .ok (.fault m e) => .fault m (.value e)
  | .error (m, e) => .fault m e

/-- Only a value that is no word is a range error. -/
def AccessError.isRange : AccessError → Bool
  | .value _ => true
  | _ => false

theorem Step.ofChecked_halted {m m' : Machine} (h : Step.ofChecked m.checkedStep = .halted m') :
    m'.halted = true := by
  cases hm : m.halted with
  | true =>
    rw [Machine.checkedStep, if_pos hm] at h
    cases h
    exact hm
  | false =>
    have hmade := Machine.checkedStep_made hm
    generalize m.checkedStep = x at h hmade
    cases hmade with
    | running _ => cases h
    | halted hm' _ => cases h; exact hm'
    | refused _ => cases h

theorem Step.ofChecked_steps {m : Machine} (hm : m.halted = false) :
    (Step.ofChecked m.checkedStep).machine.steps =
      m.steps + (Step.ofChecked m.checkedStep).made := by
  have hmade := Machine.checkedStep_made hm
  generalize m.checkedStep = x at hmade
  cases hmade with
  | running h => exact h
  | halted _ h => exact h
  | refused h => exact h

/-- The cycle that checks everything. -/
@[reducible] def Cycle.checked : Cycle where
  Fault := AccessError
  step m := .ofChecked m.checkedStep
  logged := AccessError.isRange
  halts := Step.ofChecked_halted
  counts := Step.ofChecked_steps

namespace Machine

/-! ## Checks that pass -/

theorem setRegister_word (m : Machine) (reg : Register) {word : Nat} (h : word < Memory.size) :
    m.setRegister reg (.int word) = .ok (m.withRegister word reg) := by
  unfold setRegister
  rw [Radix.check_word _ _ word h, ok_bind]
  cases reg <;> rfl

theorem assign_word (m : Machine) (reg : Register) {word : Nat} (h : word < Memory.size) :
    m.assign reg (.int word) = .ok (m.withRegister word reg) := by
  unfold assign guarded
  rw [m.setRegister_word reg h, mapError_ok, mapError_ok]

theorem address_word {address : Nat} (h : address < Memory.size) :
    Memory.address (.int address) = .ok address := by
  simp only [Memory.address]
  split
  · rename_i hrange
    simp only [Bool.or_eq_true, decide_eq_true_eq] at hrange
    omega
  · rw [Int.toNat_natCast]

theorem fetch_word (m : Machine) {address : Nat} (h : address < Memory.size) :
    m.fetch address = .ok (m.memory.read address) := by
  unfold fetch guarded Memory.get
  rw [address_word h, ok_bind, mapError_ok]

theorem setMemory_word (m : Machine) {address word : Nat} (ha : address < Memory.size)
    (hw : word < Memory.size) :
    m.setMemory (.int address) (.int word) =
      .ok { m with memory := m.memory.write address word } := by
  unfold setMemory Memory.set
  rw [address_word ha, ok_bind, Radix.check_word _ _ word hw, mapError_ok, ok_bind, ok_bind]

theorem checkedStore_word (m : Machine) {word : Nat} (hd : m.d < Memory.size)
    (hw : word < Memory.size) : m.checkedStore word = .ok (m.store word) := by
  unfold checkedStore
  rw [m.assign_word .a hw, ok_bind]
  simp only [withRegister, guarded]
  rw [setMemory_word _ hd hw, mapError_ok]
  rfl

theorem compute_ok (m : Machine) {x : Except RangeError Nat} {word : Nat} (h : x = .ok word) :
    m.compute x = .ok word := by
  unfold compute guarded
  rw [h, mapError_ok, mapError_ok]

theorem checkedAdvance_eq (m : Machine) (hc : m.c < Memory.size) (hd : m.d < Memory.size) :
    m.checkedAdvance = .ok (.running m.advance) := by
  have hmod : ∀ x, x % Radix.trits.limit < Memory.size := fun x => Nat.mod_lt x (by simp)
  unfold checkedAdvance
  rw [m.compute_ok (Radix.checkedIncrement_word Radix.trits m.c hc), ok_bind,
    m.assign_word .c (hmod (m.c + 1)), ok_bind]
  simp only [withRegister]
  rw [compute_ok _ (Radix.checkedIncrement_word Radix.trits m.d hd), ok_bind,
    assign_word _ .d (hmod (m.d + 1)), ok_bind]
  rfl

theorem Sound.checkedAdvance {m : Machine} (h : m.Sound) :
    m.checkedAdvance = .ok (.running m.advance) :=
  m.checkedAdvance_eq h.c h.d

/-- Taking input is the one place where the checked cycle can break off, and it does so where
`takeInput` does. -/
theorem checkedInput_eq {m : Machine} (h : m.Sound) :
    (m.checkedInput >>= Machine.checkedAdvance) = m.takeInput.checked := by
  unfold checkedInput takeInput
  cases m.queue.next? with
  | none =>
    simp only
    rw [assign_word _ .a (by simp), ok_bind]
    exact checkedAdvance_eq _ h.c h.d
  | some p =>
    obtain ⟨v, rest⟩ := p
    simp only
    cases hv : Radix.trits.word? v with
    | none =>
      have hcheck := Radix.check_eq_error Radix.trits "register A" v hv
      have hset : Machine.setRegister { m with queue := rest } .a v =
          .error (.notWord "register A" Radix.trits v) := by
        show (Radix.trits.check "register A" v >>= _) = _
        rw [hcheck, error_bind]
      unfold assign guarded
      rw [hset, hcheck, mapError_error, mapError_error, error_bind]
      rfl
    | some word =>
      obtain ⟨rfl, hw⟩ := (Radix.word?_eq_some_iff _ _ _).1 hv
      rw [assign_word _ .a hw, ok_bind, Radix.check_word _ _ word hw]
      exact checkedAdvance_eq _ h.c h.d

/-- **The checks that are left out.** On a sound machine the cycle with every check is the one that
runs. -/
theorem checkedStep_eq {m : Machine} (h : m.Sound) : m.checkedStep = m.step.checked := by
  -- the move of C and D is checked on the machine the instruction leaves, which is sound again
  unfold checkedStep step
  by_cases hm : m.halted = true
  · rw [if_pos hm, if_pos hm]; rfl
  · rw [if_neg hm, if_neg hm, m.fetch_word h.c, ok_bind]
    have hread := h.memory.read_lt m.d
    cases hi : Instruction.ofCode? (m.memory.read m.c) with
    | none => exact h.checkedAdvance
    | some i =>
      cases i with
      | halt => rfl
      | load =>
        simp only
        rw [m.fetch_word h.d, ok_bind, m.assign_word .d hread, ok_bind]
        exact (Act.load.sound h).checkedAdvance
      | rotate =>
        simp only
        rw [m.fetch_word h.d, ok_bind,
          m.compute_ok (Radix.checkedRotate_word Radix.trits _ (by decide) hread), ok_bind,
          m.checkedStore_word h.d (Radix.rotateOnce_lt Radix.trits _ (by decide) hread), ok_bind]
        exact (Act.rotate.sound h).checkedAdvance
      | jump =>
        simp only
        rw [m.fetch_word h.d, ok_bind, m.assign_word .c hread, ok_bind]
        exact (Act.jump.sound h).checkedAdvance
      | pass => exact h.checkedAdvance
      | output =>
        simp only
        by_cases ha : m.a = Radix.trits.greatest
        · rw [if_pos ha, if_pos ha]; rfl
        · rw [if_neg ha, if_neg ha]
          exact ((Act.output ha).sound h).checkedAdvance
      | subtract =>
        simp only
        rw [m.fetch_word h.d, ok_bind,
          m.compute_ok (Radix.checkedSubtract_word Radix.trits _ _ h.a hread), ok_bind,
          m.checkedStore_word h.d (Radix.subtract_lt Radix.trits (by decide) _ _), ok_bind]
        exact (Act.subtract.sound h).checkedAdvance
      | input => exact checkedInput_eq h

end Machine
end Dis
