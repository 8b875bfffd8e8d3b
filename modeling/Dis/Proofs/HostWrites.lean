import Dis.Proofs.RefusedInput
/-!
# Writes of a host

A host writes to a machine in four ways: a word of memory, a stretch of memory, a register, or input
behind the queue. Each looks at all it is given before it changes anything.

* `perform_of_refused`, `changes_of_valid`: what a write does with each kind of key and value.
* `perform_eq_error_iff`: a write is refused exactly when a key or a value is not valid, and the
  first of them that is not decides the error.
* `read_after`: what one write leaves at an address; `read_session`: so each word is the last one
  written there, however many writes of whatever kind there are.
* `host_writes_all_or_nothing`: the whole of it, for every machine a host can bring about.
-/
namespace Dis

/-- A write of a host. -/
inductive HostWrite
  | word (key v : Value)
  | stretch (s : Stretch) (v : Value)
  | register (reg : Register) (v : Value)
  | input (vs : List Value)

namespace HostWrite

/-- The operation a write is. -/
def op : HostWrite → HostOp
  | word key v => .write key v
  | stretch s v => .writeSlice s v
  | register reg v => .setRegister reg v
  | input vs => .feed vs

/-- What the machine answers to a write. -/
def perform (m : Machine) : HostWrite → Except AccessError Machine
  | word key v => m.setMemory key v
  | stretch s v => (m.memory.setSlice s v).map fun memory => { m with memory }
  | register reg v => (m.setRegister reg v).mapError .value
  | input vs => (m.feed vs).mapError .value

/-- Keys are positions of memory and values are words; a stretch is never written. -/
def Valid : HostWrite → Prop
  | word key v => key.IsWord ∧ v.IsWord
  | stretch _ _ => False
  | register _ v => v.IsWord
  | input vs => ∀ v ∈ vs, v.IsWord

/-- Why a write is refused: a key that is no integer, an integer that is no position, a stretch, or
else the first value that is no word. -/
inductive Refused : HostWrite → AccessError → Prop
  | kind {key v : Value} (h : ∀ k, key ≠ .int k) : Refused (.word key v) (.address key.kindName)
  | position {k : Int} {v : Value} (h : k < 0 ∨ 59048 < k) :
      Refused (.word (.int k) v) (.outOfRange k)
  | word {k : Nat} {v : Value} (hk : k ≤ 59048) (hv : ¬ v.IsWord) :
      Refused (.word (.int k) v) (.value (.notWord s!"memory[{k}]" Radix.trits v))
  | stretch {s : Stretch} {v : Value} : Refused (.stretch s v) .rangeWrite
  | register {reg : Register} {v : Value} (hv : ¬ v.IsWord) :
      Refused (.register reg v) (.value (.notWord s!"register {reg.name}" Radix.trits v))
  | input {before rest : List Value} {v : Value} (hbefore : ∀ v ∈ before, v.IsWord)
      (hv : ¬ v.IsWord) :
      Refused (.input (before ++ v :: rest)) (.value (.notWord "input value" Radix.trits v))

/-- What a write changes, and that it changes nothing else. -/
inductive Changes (m m' : Machine) : HostWrite → Prop
  | word {k n : Nat} (hk : k ≤ 59048) (hn : n ≤ 59048) (hword : m'.memory.read k = n)
      (hothers : ∀ j, j ≠ k → m'.memory.read j = m.memory.read j)
      (hsize : m'.memory.words.size = m.memory.words.size)
      (hrest : m' = { m with memory := m'.memory }) : Changes m m' (.word (.int k) (.int n))
  | register {reg : Register} {n : Nat} (hn : n ≤ 59048) (hword : m'.register reg = n)
      (hothers : ∀ reg', reg' ≠ reg → m'.register reg' = m.register reg')
      (hrest : m' = { m with a := m'.a, c := m'.c, d := m'.d }) :
      Changes m m' (.register reg (.int n))
  | input {vs : List Value} (hvs : ∀ v ∈ vs, v.IsWord)
      (hqueue : m'.queue.toList = m.queue.toList ++ vs)
      (hrest : m' = { m with queue := m'.queue }) : Changes m m' (.input vs)

end HostWrite

/-! ## Keys and values -/

namespace Memory

theorem address_of_kind {key : Value} (h : ∀ k, key ≠ .int k) :
    address key = .error (.address key.kindName) := by
  cases key with
  | int k => exact absurd rfl (h k)
  | _ => rfl

theorem address_of_position {k : Int} (h : k < 0 ∨ 59048 < k) :
    address (.int k) = .error (.outOfRange k) := by
  have hout : (decide (k < 0) || decide ((size : Int) ≤ k)) = true := by
    rw [memory_size]
    simp only [Bool.or_eq_true, decide_eq_true_eq]
    omega
  rw [address, if_pos hout]

theorem read_write (m : Memory) (address word j : Nat) (h : address < m.words.size) :
    (m.write address word).read j = if j = address then word else m.read j := by
  unfold read write
  rw [Array.getD_eq_getD_getElem?, Array.getD_eq_getD_getElem?]
  by_cases hj : j = address
  · subst hj
    rw [if_pos rfl, Array.getElem?_setIfInBounds_self_of_lt h]
    rfl
  · rw [if_neg hj, Array.getElem?_setIfInBounds_ne (Ne.symm hj)]

@[simp] theorem size_write (m : Memory) (address word : Nat) :
    (m.write address word).words.size = m.words.size := by
  simp [write]

end Memory

theorem Value.check_of_not_isWord {v : Value} (h : ¬ v.IsWord) (what : String) :
    Radix.trits.check what v = .error (.notWord what Radix.trits v) :=
  Radix.check_eq_error _ what v (v.word?_eq_none_iff.2 h)

/-- A list of values is checked up to the first that is no word. -/
theorem Memory.checkWords_of_not_isWord (what : String) {before rest : List Value} {v : Value}
    (hbefore : ∀ v ∈ before, v.IsWord) (hv : ¬ v.IsWord) (done : Array Nat) :
    checkWords what done (before ++ v :: rest) = .error (.notWord what Radix.trits v) := by
  induction before generalizing done with
  | nil =>
    rw [List.nil_append, checkWords, v.check_of_not_isWord hv]
  | cons w before ih =>
    obtain ⟨n, hn⟩ := w.isWord_iff.1 (hbefore w List.mem_cons_self)
    rw [List.cons_append, checkWords, (Radix.check_eq_ok_iff _ what w n).2 hn]
    exact ih (fun v hmem => hbefore v (List.mem_cons_of_mem _ hmem)) _

/-- Among values that are not all words there is a first that is none. -/
theorem Value.first_not_isWord {vs : List Value} (h : ¬ ∀ v ∈ vs, v.IsWord) :
    ∃ before v rest, vs = before ++ v :: rest ∧ (∀ v ∈ before, v.IsWord) ∧ ¬ v.IsWord := by
  induction vs with
  | nil => exact absurd (by simp) h
  | cons v vs ih =>
    by_cases hv : v.IsWord
    · have hvs : ¬ ∀ v ∈ vs, v.IsWord := fun hvs => h (by simpa [hv] using hvs)
      obtain ⟨before, w, rest, rfl, hbefore, hw⟩ := ih hvs
      exact ⟨v :: before, w, rest, rfl, by simpa [hv] using hbefore, hw⟩
    · exact ⟨[], v, vs, rfl, by simp, hv⟩

/-! ## One write -/

namespace HostWrite

variable {m m' : Machine} {w : HostWrite}

theorem perform_of_refused {e : AccessError} (h : w.Refused e) (m : Machine) :
    w.perform m = .error e := by
  cases h with
  | kind h =>
    rw [perform, Machine.setMemory, Memory.set, Memory.address_of_kind h, error_bind, error_bind]
  | position h =>
    rw [perform, Machine.setMemory, Memory.set, Memory.address_of_position h, error_bind,
      error_bind]
  | word hk hv =>
    have hkey := Machine.address_word (show _ < Memory.size from Nat.lt_succ_of_le hk)
    rw [perform, Machine.setMemory, Memory.set, hkey, ok_bind, Value.check_of_not_isWord hv,
      mapError_error, error_bind, error_bind]
  | stretch => rfl
  | register hv =>
    rw [perform, Machine.setRegister, Value.check_of_not_isWord hv, error_bind, mapError_error]
  | input hbefore hv =>
    rw [perform, Machine.feed, Memory.checkWords_of_not_isWord _ hbefore hv, error_bind,
      mapError_error]

theorem refused_of_not_valid (h : ¬ w.Valid) : ∃ e, w.Refused e := by
  cases w with
  | word key v =>
    by_cases hint : ∃ k, key = .int k
    · obtain ⟨k, rfl⟩ := hint
      by_cases hk : k < 0 ∨ 59048 < k
      · exact ⟨_, .position hk⟩
      · obtain ⟨n, rfl⟩ : ∃ n : Nat, k = n := ⟨k.toNat, by omega⟩
        have hn : n ≤ 59048 := by omega
        exact ⟨_, .word hn fun hv => h ⟨⟨n, rfl, hn⟩, hv⟩⟩
    · exact ⟨_, .kind fun k hk => hint ⟨k, hk⟩⟩
  | stretch s v => exact ⟨_, .stretch⟩
  | register reg v => exact ⟨_, .register h⟩
  | input vs =>
    obtain ⟨before, v, rest, rfl, hbefore, hv⟩ := Value.first_not_isWord h
    exact ⟨_, .input hbefore hv⟩

/-- A valid write is made, and changes what it says. -/
theorem changes_of_valid (h : w.Valid) (hm : m.Sound) :
    ∃ m', w.perform m = .ok m' ∧ w.Changes m m' := by
  cases w with
  | word key v =>
    obtain ⟨⟨k, rfl, hk⟩, ⟨n, rfl, hn⟩⟩ := h
    have hin : k < m.memory.words.size := by rw [hm.memory.size, memory_size]; omega
    refine ⟨_, Machine.setMemory_word m (by rw [memory_size]; omega) (by rw [memory_size]; omega),
      ?_⟩
    refine .word hk hn ?_ ?_ (Memory.size_write ..) rfl
    · exact (m.memory.read_write k n k hin).trans (if_pos rfl)
    · intro j hj
      exact (m.memory.read_write k n j hin).trans (if_neg hj)
  | stretch s v => exact absurd h id
  | register reg v =>
    obtain ⟨n, rfl, hn⟩ := h
    have hset : m.setRegister reg (.int n) = .ok (m.withRegister n reg) :=
      Machine.setRegister_word m reg (by rw [memory_size]; omega)
    refine ⟨m.withRegister n reg, by rw [perform, hset, mapError_ok], .register hn ?_ ?_ ?_⟩
    · cases reg <;> rfl
    · intro reg' hreg
      cases reg <;> cases reg' <;> first | rfl | exact absurd rfl hreg
    · cases reg <;> rfl
  | input vs =>
    refine ⟨_, by rw [perform, m.feed_words h, mapError_ok], .input h ?_ rfl⟩
    exact Queue.toList_append m.queue vs

/-- A write is refused exactly when a key or a value is not valid. -/
theorem perform_eq_error_iff (hm : m.Sound) : (∃ e, w.perform m = .error e) ↔ ¬ w.Valid := by
  constructor
  · intro herror hvalid
    obtain ⟨e, herror⟩ := herror
    obtain ⟨m', hok, -⟩ := changes_of_valid hvalid hm
    rw [herror] at hok
    cases hok
  · intro hvalid
    obtain ⟨e, hrefused⟩ := refused_of_not_valid hvalid
    exact ⟨e, perform_of_refused hrefused m⟩

theorem refused_of_perform {e : AccessError} (hm : m.Sound) (h : w.perform m = .error e) :
    w.Refused e := by
  obtain ⟨e', hrefused⟩ := refused_of_not_valid ((perform_eq_error_iff hm).1 ⟨e, h⟩)
  rw [perform_of_refused hrefused m] at h
  cases h
  exact hrefused

theorem changes_of_perform (hm : m.Sound) (h : w.perform m = .ok m') : w.Changes m m' := by
  have hvalid : w.Valid := by
    refine Classical.byContradiction fun hnot => ?_
    obtain ⟨e, herror⟩ := (perform_eq_error_iff hm).2 hnot
    rw [h] at herror
    cases herror
  obtain ⟨m₁, hok, hchanges⟩ := changes_of_valid hvalid hm
  rw [h] at hok
  cases hok
  exact hchanges

theorem kept_mapError {ε ε' : Type} (m : Machine) (f : ε → ε') (x : Except ε Machine) :
    HostOp.kept m (x.mapError f) = HostOp.kept m x := by
  cases x <;> rfl

/-- What a write leaves is the machine it leads to, or the one before if it is refused. -/
theorem after_eq (m : Machine) (w : HostWrite) : w.op.after m = HostOp.kept m (w.perform m) := by
  cases w with
  | register reg v => exact (kept_mapError m _ (m.setRegister reg v)).symm
  | input vs => exact (kept_mapError m _ (m.feed vs)).symm
  | _ => rfl

/-! ## Sequences of writes -/

/-- The word that a write puts at an address. -/
def wordAt (k : Nat) : HostWrite → Option Nat
  | word (.int key) (.int n) => if key = k ∧ 0 ≤ n ∧ n ≤ 59048 then some n.toNat else none
  | _ => none

/-- The last word that writes put at an address. -/
def lastAt (k : Nat) (ws : List HostWrite) : Option Nat := (ws.filterMap (wordAt k)).getLast?

theorem wordAt_word (k j n : Nat) (hn : n ≤ 59048) :
    wordAt k (.word (.int j) (.int n)) = if k = j then some n else none := by
  have hiff : ((j : Int) = k ∧ 0 ≤ (n : Int) ∧ (n : Int) ≤ 59048) ↔ k = j := by omega
  simp only [wordAt, hiff, Int.toNat_natCast]

theorem wordAt_of_not_valid {k : Nat} (hk : k ≤ 59048) (h : ¬ w.Valid) : wordAt k w = none := by
  unfold wordAt
  split
  · next key n =>
    refine if_neg fun hn => h ⟨⟨k, by rw [hn.1], hk⟩, ⟨n.toNat, ?_, ?_⟩⟩
    · rw [Int.toNat_of_nonneg hn.2.1]
    · omega
  · rfl

/-- What one write leaves at an address: the word it puts there, or what was there before. -/
theorem read_after {k : Nat} (hk : k ≤ 59048) (hm : m.Sound) (w : HostWrite) :
    (w.op.after m).memory.read k = (wordAt k w).getD (m.memory.read k) := by
  rw [after_eq]
  cases hperform : w.perform m with
  | error e =>
    rw [wordAt_of_not_valid hk ((perform_eq_error_iff hm).1 ⟨e, hperform⟩)]
    rfl
  | ok m' =>
    show m'.memory.read k = _
    cases changes_of_perform hm hperform with
    | @word j n hj hn hword hothers hsize hrest =>
      rw [wordAt_word k j n hn]
      by_cases heq : k = j
      · rw [if_pos heq, heq, hword]; rfl
      · rw [if_neg heq, hothers k heq]; rfl
    | register hn hword hothers hrest => rw [hrest]; rfl
    | input hvs hqueue hrest => rw [hrest]; rfl

/-- After any writes, each word of memory is the last one written there, or what it was. -/
theorem read_session {k : Nat} (hk : k ≤ 59048) (hm : m.Sound) (ws : List HostWrite) :
    (HostOp.session m (ws.map op)).memory.read k = (lastAt k ws).getD (m.memory.read k) := by
  induction ws generalizing m with
  | nil => rfl
  | cons w ws ih =>
    have hlast : lastAt k (w :: ws) = (lastAt k ws).or (wordAt k w) := by
      unfold lastAt
      cases hw : wordAt k w with
      | none => rw [List.filterMap_cons_none hw, Option.or_none]
      | some n =>
        rw [List.filterMap_cons_some hw, List.getLast?_cons]
        cases (ws.filterMap (wordAt k)).getLast? <;> rfl
    calc (HostOp.session m ((w :: ws).map op)).memory.read k
        = (lastAt k ws).getD ((w.op.after m).memory.read k) := ih (HostOp.after_sound hm w.op)
      _ = (lastAt k ws).getD ((wordAt k w).getD (m.memory.read k)) := by rw [read_after hk hm]
      _ = (lastAt k (w :: ws)).getD (m.memory.read k) := by
        rw [hlast]
        cases lastAt k ws <;> rfl

/-- **Writes of a host are all or nothing.** Whatever a host has done to a machine loaded with a
text, a write is refused exactly when its key or one of its values is not valid: a key that is no
integer or a stretch, an integer that is no position, or a value anywhere that is no word. A refused
write leaves the whole machine as it was; any other changes the word, the register or the queue it
names and nothing else. So after any writes each word of memory is the last one written there, or
what it was before them. -/
theorem host_writes_all_or_nothing (source : String) (m₀ : Machine)
    (h : Machine.load source = .ok m₀) (ops : List HostOp) :
    let m := HostOp.session m₀ ops
    (∀ w : HostWrite, ((∃ e, w.perform m = .error e) ↔ ¬ w.Valid) ∧
      (∀ e, w.perform m = .error e → w.Refused e ∧ w.op.after m = m) ∧
      (∀ m', w.perform m = .ok m' → w.Changes m m' ∧ w.op.after m = m')) ∧
    ∀ (ws : List HostWrite) (k : Nat), k ≤ 59048 →
      (HostOp.session m (ws.map op)).memory.read k = (lastAt k ws).getD (m.memory.read k) := by
  intro m
  have hm : m.Sound := HostOp.session_sound (Machine.load_sound h) ops
  refine ⟨?_, fun ws k hk => read_session hk hm ws⟩
  intro w
  refine ⟨perform_eq_error_iff hm, ?_, ?_⟩
  · intro e herror
    exact ⟨refused_of_perform hm herror, by rw [after_eq, herror]; rfl⟩
  · intro m' hok
    exact ⟨changes_of_perform hm hok, by rw [after_eq, hok]; rfl⟩

/-- Two words for one position, with writes between and behind them that are refused: a truth value,
a number below zero, a position behind the last, and input with its last value missing. -/
theorem host_writes_all_or_nothing_mixed :
    Machine.load "\x7d\x7b" = .ok (Machine.ofImage #[125, 123]) ∧
    let m := Machine.ofImage #[125, 123]
    (input [.int 3, .null]).op.after m = m ∧
    (HostOp.session m ([word (.int 5) (.int 7), word (.int 5) (.truth true),
      word (.int 59049) (.int 1), word (.int 5) (.int 9), input [.int 3, .null],
      word (.int 5) (.int (-1)), register .c (.int 5)].map op)).memory.read 5 = 9 := by
  have hload : Machine.load "\x7d\x7b" = .ok (Machine.ofImage #[125, 123]) :=
    Program.load_commands ['\x7d', '\x7b'] (by simp [Program.commandChars]) (by decide)
  obtain ⟨hwrite, hread⟩ := host_writes_all_or_nothing _ _ hload []
  refine ⟨hload, ?_, ?_⟩
  · have hnull : ¬ (Value.null).IsWord := by
      rintro ⟨n, hn, -⟩
      cases hn
    obtain ⟨hiff, hrefused, -⟩ := hwrite (input [.int 3, .null])
    obtain ⟨e, he⟩ := hiff.2 fun hvalid => hnull (hvalid _ (by simp))
    exact (hrefused e he).2
  · exact (hread _ 5 (by decide)).trans rfl

end HostWrite
end Dis
