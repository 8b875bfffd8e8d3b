import Dis.Memory
import Dis.Program
import Dis.Queue
/-!
# The machine

A machine has memory, three registers, a queue of input, a row of output, a halt flag and a count
of its steps. It never runs by itself: a host calls `step`, or one of the runs that repeat it.

* Register C is where the next instruction is read, D is where it finds its operand, A is the
  accumulator. After every step that does not halt, C and D move on by one, around the end of
  memory.
* The host may put anything into the queue. The one step that can fail is taking a value into A
  that is no word; that value has then left the queue, and nothing else has changed.
* `step` looks at nothing else, since memory and registers hold words only. How steps are made is
  a parameter of the runs, a `Cycle`, so that they can be said of a cycle that checks more as well.
* `runFor` is the plain run. `run` adds a limit that may be absent, and then gives up after
  `patience` steps; `runUntilInterrupt` is a run cut off by its host; `trace` also records what
  every step saw.
-/
namespace Dis

/-- A machine loaded with a program.
mirrors `Machine` -/
structure Machine where
  memory : Memory
  a : Nat                  -- the accumulator
  c : Nat                  -- where the next instruction is
  d : Nat                  -- where its operand is
  halted : Bool
  queue : Queue Value      -- input not yet taken
  output : Array Nat       -- what was put out, first first
  steps : Nat
  programLength : Nat

/-- What a host is told that tries to set the halt flag, which only steps set.
mirrors `Machine.halt` -/
def haltRefusal : String := "property 'halt' of 'Machine' object has no setter"

/-- One of the registers a host can set. -/
inductive Register
  | a
  | c
  | d
  deriving DecidableEq, Repr

/-- The name of a register in messages. -/
def Register.name : Register → String
  | .a => "A"
  | .c => "C"
  | .d => "D"

/-- What one step leads to; `ε` is what a step can fail with. -/
inductive Step (ε : Type := RangeError)
  | running (m : Machine)
  | halted (m : Machine)
  | fault (m : Machine) (e : ε)

/-- The machine after a step. -/
def Step.machine {ε : Type} : Step ε → Machine
  | .running m => m
  | .halted m => m
  | .fault m _ => m

/-- How many steps were made: one that fails is none. -/
def Step.made {ε : Type} : Step ε → Nat
  | .fault _ _ => 0
  | _ => 1

/-- How a run ended. -/
inductive Ending (ε : Type := RangeError)
  /-- The machine halted or the limit was reached. -/
  | done
  /-- A step failed. -/
  | fault (e : ε)
  /-- The host cut the run off. -/
  | interrupted
  /-- A run without limit did not halt within the patience of its host. -/
  | unfinished

/-- A run: the machine after it, the number of steps made, and how it ended. -/
structure Run (ε : Type := RangeError) where
  machine : Machine
  executed : Nat
  ending : Ending ε

/-- The run cut off by its host, unless a step failed before. -/
def Run.cutOff {ε : Type} (r : Run ε) : Run ε :=
  match r.ending with
  | .done => { r with ending := .interrupted }
  | _ => r

/-- What a trace shows of a step about to be made. -/
structure TraceEntry where
  a : Nat
  c : Nat
  d : Nat
  word : Nat       -- the word at C
  operand : Nat    -- the word at D
  deriving DecidableEq, Repr

namespace Machine

/-- A machine with a given image in memory and everything else at rest. -/
def ofImage (image : Array Nat) : Machine where
  memory := Memory.ofImage image
  a := 0
  c := 0
  d := 0
  halted := false
  queue := .ofList []
  output := #[]
  steps := 0
  programLength := image.size

/-- A machine loaded with a program text.
mirrors `Machine.__init__` -/
def load (source : String) : Except Program.ParseError Machine :=
  (Program.parse source.toList).map ofImage

/-! ## What a host can do -/

/-- The value of a register. -/
def register (m : Machine) : Register → Nat
  | .a => m.a
  | .c => m.c
  | .d => m.d

/-- Set a register to a checked value.
mirrors `Machine.a`, `Machine.c`, `Machine.d` -/
def setRegister (m : Machine) (reg : Register) (v : Value) : Except RangeError Machine := do
  let word ← Radix.trits.check s!"register {reg.name}" v
  match reg with
  | .a => .ok { m with a := word }
  | .c => .ok { m with c := word }
  | .d => .ok { m with d := word }

/-- Write a checked value to a checked address. -/
def setMemory (m : Machine) (key v : Value) : Except AccessError Machine := do
  let memory ← m.memory.set key v
  .ok { m with memory }

/-- Replace the queue by any values, unchecked.
mirrors `Machine.input_buffer` -/
def setQueue (m : Machine) (vs : List Value) : Machine :=
  { m with queue := .ofList vs }

/-- Append checked values to the queue: all of them, or none if one is no word.
mirrors `Machine.feed` -/
def feed (m : Machine) (vs : List Value) : Except RangeError Machine := do
  let _ ← Memory.checkWords "input value" #[] vs
  .ok { m with queue := m.queue.append vs }

/-- The machine with its output taken away.
mirrors `Machine.drain_output` -/
def drain (m : Machine) : Machine :=
  { m with output := #[] }

/-! ## Steps -/

/-- Move C and D on by one and count the step. -/
def advance (m : Machine) : Machine :=
  { m with
    c := (m.c + 1) % Memory.size
    d := (m.d + 1) % Memory.size
    steps := m.steps + 1 }

/-- Halt and count the step. -/
def stop (m : Machine) : Machine :=
  { m with halted := true, steps := m.steps + 1 }

/-- Put a result into A and back to the word at D. -/
def store (m : Machine) (word : Nat) : Machine :=
  { m with a := word, memory := m.memory.write m.d word }

/-- Take the next input value into A, or the greatest word if there is none. -/
def takeInput (m : Machine) : Step :=
  match m.queue.next? with
  | none => .running { m with a := Radix.trits.greatest }.advance
  | some (v, rest) => match Radix.trits.check "register A" v with
    | .ok word => .running { m with a := word, queue := rest }.advance
    | .error e => .fault { m with queue := rest } e

/-- Execute one instruction. A halted machine stays as it is.
mirrors `Machine.step` -/
def step (m : Machine) : Step :=
  if m.halted then .halted m
  else match Instruction.ofCode? (m.memory.read m.c) with
    | some .halt => .halted m.stop
    | some .load => .running { m with d := m.memory.read m.d }.advance
    | some .rotate => .running (m.store (Radix.trits.rotateOnce (m.memory.read m.d))).advance
    | some .jump => .running { m with c := m.memory.read m.d }.advance
    | some .output =>
      if m.a = Radix.trits.greatest then .halted m.stop
      else .running { m with output := m.output.push m.a }.advance
    | some .subtract => .running (m.store (Radix.trits.subtract m.a (m.memory.read m.d))).advance
    | some .input => m.takeInput
    | some .pass => .running m.advance
    | none => .running m.advance

/-- A step that says the machine has halted leaves it halted. -/
theorem step_halted {m m' : Machine} (h : m.step = .halted m') : m'.halted = true := by
  unfold step takeInput at h
  by_cases hm : m.halted = true
  · rw [if_pos hm] at h
    cases h
    exact hm
  · rw [if_neg hm] at h
    repeat' split at h
    all_goals cases h
    all_goals rfl

/-- A step that goes on, or halts a machine that had not, is counted; one that fails is not. -/
theorem step_steps {m : Machine} (h : m.halted = false) :
    m.step.machine.steps = m.steps + m.step.made := by
  unfold step takeInput
  rw [if_neg (by simp [h])]
  repeat' split
  all_goals rfl

end Machine

/-- A way to make steps. -/
structure Cycle where
  /-- What a step can fail with. -/
  Fault : Type
  step : Machine → Step Fault
  /-- The faults that a runner logs. -/
  logged : Fault → Bool
  halts : ∀ {m m' : Machine}, step m = .halted m' → m'.halted = true
  counts : ∀ {m : Machine}, m.halted = false →
    (step m).machine.steps = m.steps + (step m).made

/-- The cycle that runs. -/
@[reducible] def Cycle.plain : Cycle where
  Fault := RangeError
  step := Machine.step
  logged _ := true
  halts := Machine.step_halted
  counts := Machine.step_steps

namespace Machine

/-! ## Runs -/

/-- At most `n` more steps of a run that has made `executed`.
mirrors the loop of `Machine.run` -/
def runFrom (cycle : Cycle) (executed : Nat) : Nat → Machine → Run cycle.Fault
  | 0, m => ⟨m, executed, .done⟩
  | n + 1, m =>
    if m.halted then ⟨m, executed, .done⟩
    else match cycle.step m with
      | .running m => runFrom cycle (executed + 1) n m
      | .halted m => ⟨m, executed + 1, .done⟩
      | .fault m e => ⟨m, executed, .fault e⟩

/-- Step until the machine halts or has made `n` steps. -/
def runFor (n : Nat) (m : Machine) (cycle : Cycle := .plain) : Run cycle.Fault :=
  runFrom cycle 0 n m

/-- Step until the machine halts or reaches the limit, if there is one.
mirrors `Machine.run` -/
def run (patience : Nat) (limit : Option Int) (m : Machine) (cycle : Cycle := .plain) :
    Run cycle.Fault :=
  match limit with
  | some n => m.runFor n.toNat cycle
  | none =>
    let r := m.runFor patience cycle
    match r.ending with
    | .done => if r.machine.halted then r else { r with ending := .unfinished }
    | _ => r

/-- A run that its host cuts off after `k` steps, unless a step fails before. -/
def runUntilInterrupt (k : Nat) (m : Machine) (cycle : Cycle := .plain) : Run cycle.Fault :=
  (m.runFor k cycle).cutOff

/-- A run under a host that may have an interrupt ready. The interrupt overrides the limit. -/
def runUnder (armed : Option Nat) (patience : Nat) (limit : Option Int) (m : Machine)
    (cycle : Cycle := .plain) : Run cycle.Fault :=
  match armed with
  | some k => m.runUntilInterrupt k cycle
  | none => m.run patience limit cycle

/-! ## Traces -/

/-- What a trace shows before the next step.
mirrors `Machine._log` -/
def entry (m : Machine) : TraceEntry :=
  ⟨m.a, m.c, m.d, m.memory.read m.c, m.memory.read m.d⟩

/-- `runFrom` with the entries of the steps attempted, added to `entries`. -/
def traceFrom (entries : Array TraceEntry) (executed : Nat) : Nat → Machine → Run × Array TraceEntry
  | 0, m => (⟨m, executed, .done⟩, entries)
  | n + 1, m =>
    if m.halted then (⟨m, executed, .done⟩, entries)
    else
      let entries := entries.push m.entry
      match m.step with
      | .running m => traceFrom entries (executed + 1) n m
      | .halted m => (⟨m, executed + 1, .done⟩, entries)
      | .fault m e => (⟨m, executed, .fault e⟩, entries)

/-- `runFor` with the entries of the steps attempted. -/
def trace (n : Nat) (m : Machine) : Run × Array TraceEntry :=
  traceFrom #[] 0 n m

/-- `runUnder` with the entries of the steps attempted. -/
def traceUnder (armed : Option Nat) (limit : Int) (m : Machine) : Run × Array TraceEntry :=
  match armed with
  | some k =>
    let (r, entries) := m.trace k
    (r.cutOff, entries)
  | none => m.trace limit.toNat

end Machine
end Dis
