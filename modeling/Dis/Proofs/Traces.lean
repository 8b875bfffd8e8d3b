import Dis.Listing
import Dis.Proofs.Cycle
import Dis.Proofs.Numerals
/-!
# Traces

A run with a trace is the run without one, and what it writes can be read back.

* `Machine.trace_run`: a traced run is a plain run.
* `Machine.getElem?_entries`: entry `i` of a trace is there if step `i` was attempted, and shows the
  machine that a plain run of `i` steps leaves; `Machine.length_entries`: how many there are.
* `Listing.traceLine_entry`: its line shows A, C, D and the words at C and D, each in its field.
* `Listing.traceLine_inj`: two entries with the same line are the same, whatever their values.
* `Listing.traceText_inj`: so the text of a trace gives back its entries.
* `Machine.trace_shows_attempts`: all of this, for every machine and every limit.
-/
namespace Dis

/-! ## The run of a trace -/

namespace Machine

theorem traceFrom_run (entries : Array TraceEntry) (executed n : Nat) (m : Machine) :
    (traceFrom entries executed n m).1 = runFrom .plain executed n m := by
  induction n generalizing entries executed m with
  | zero => rfl
  | succ n ih =>
    rw [traceFrom, runFrom, show Cycle.plain.step m = m.step from rfl]
    split
    · rfl
    · dsimp only
      cases m.step with
      | running m' => exact ih _ _ m'
      | halted m' => rfl
      | fault m' e => rfl

theorem trace_run (n : Nat) (m : Machine) : (m.trace n).1 = m.runFor n :=
  traceFrom_run #[] 0 n m

/-! ## The entries of a trace -/

/-- The entries of the steps that a run attempts, first first. -/
def entries (n : Nat) (m : Machine) : List TraceEntry := (m.trace n).2.toList

/-- What was recorded before stays in front. -/
theorem traceFrom_entries (before : Array TraceEntry) (executed n : Nat) (m : Machine) :
    (traceFrom before executed n m).2.toList = before.toList ++ m.entries n := by
  induction n generalizing before executed m with
  | zero => simp [entries, trace, traceFrom]
  | succ n ih =>
    unfold entries trace traceFrom
    split
    · simp
    · dsimp only
      cases m.step with
      | running m' => simp [ih]
      | halted m' => simp
      | fault m' e => simp

theorem entries_of_halted {m : Machine} (h : m.halted = true) (n : Nat) : m.entries n = [] := by
  cases n with
  | zero => rfl
  | succ n => unfold entries trace traceFrom; rw [if_pos h]

/-- The first entry, and those of the rest of the run if it goes on. -/
theorem entries_succ {m : Machine} (h : m.halted = false) (n : Nat) :
    m.entries (n + 1) = m.entry :: match m.step with
      | .running m' => m'.entries n
      | _ => [] := by
  unfold entries trace
  rw [traceFrom, if_neg (by simp [h])]
  cases m.step with
  | running m' => exact traceFrom_entries _ _ n m'
  | halted m' => rfl
  | fault m' e => rfl

end Machine

/-- The steps a run attempts: those it makes, and the one that fails. -/
def Run.attempts (r : Run) : Nat :=
  match r.ending with
  | .fault _ => r.executed + 1
  | _ => r.executed

namespace Machine

theorem length_entries (n : Nat) (m : Machine) : (m.entries n).length = (m.runFor n).attempts := by
  induction n generalizing m with
  | zero => rfl
  | succ n ih =>
    cases hm : m.halted with
    | true => rw [entries_of_halted hm, m.runFor_of_halted hm]; rfl
    | false =>
      rw [entries_succ hm, m.runFor_succ n hm, List.length_cons]
      cases m.step with
      | running m' =>
        simp only [ih m', Run.attempts]
        split <;> rfl
      | halted m' => rfl
      | fault m' e => rfl

/-- Step `i` of a run is attempted if the limit allows it and the steps before have neither halted
the machine nor failed. Its entry shows the machine these steps leave. -/
theorem getElem?_entries (n : Nat) (m : Machine) (i : Nat) (e : TraceEntry) :
    (m.entries n)[i]? = some e ↔
      i < n ∧ ¬ (m.runFor i).Stopped ∧ (m.runFor i).machine.entry = e := by
  induction n generalizing m i with
  | zero => simp [entries, trace, traceFrom]
  | succ n ih =>
    cases hm : m.halted with
    | true =>
      have hstopped : (m.runFor i).Stopped := .inl (by rw [m.runFor_of_halted hm]; exact hm)
      simp [entries_of_halted hm, hstopped]
    | false =>
      rw [entries_succ hm]
      cases i with
      | zero => simp [Run.Stopped, runFor_zero, hm]
      | succ i =>
        rw [List.getElem?_cons_succ, m.runFor_succ i hm]
        cases hs : m.step with
        | running m' => simp only [ih m' i, Nat.add_lt_add_iff_right, Run.Stopped]
        | halted m' => simp [Run.Stopped, step_halted hs]
        | fault m' e => simp [Run.Stopped]

end Machine

/-! ## Lines read back -/

/-- A text is cut at the first `c` in it in one way. -/
theorem Text.append_cons_inj {c : Char} {xs ys rest rest' : List Char} (hxs : c ∉ xs) (hys : c ∉ ys)
    (h : xs ++ c :: rest = ys ++ c :: rest') : xs = ys ∧ rest = rest' := by
  induction xs generalizing ys with
  | nil =>
    cases ys with
    | nil => exact ⟨rfl, List.cons.inj h |>.2⟩
    | cons y ys => exact absurd (List.cons.inj h).1 fun hc => hys (hc ▸ List.mem_cons_self)
  | cons x xs ih =>
    cases ys with
    | nil => exact absurd (List.cons.inj h).1 fun hc => hxs (hc ▸ List.mem_cons_self)
    | cons y ys =>
      obtain ⟨rfl, htails⟩ := List.cons.inj h
      obtain ⟨rfl, hrest⟩ := ih (fun hmem => hxs (List.mem_cons_of_mem x hmem))
        (fun hmem => hys (List.mem_cons_of_mem x hmem)) htails
      exact ⟨rfl, hrest⟩

namespace Listing

theorem isDigit_of_mem_number {n : Nat} {c : Char} (hc : c ∈ (number n).toList) :
    c.isDigit = true :=
  Text.isDigit_of_mem_zeroPadded hc

theorem not_mem_number (n : Nat) {c : Char} (hc : c.isDigit = false) : c ∉ (number n).toList := by
  intro hmem
  rw [isDigit_of_mem_number hmem] at hc
  cases hc

theorem number_inj {n m : Nat} (h : (number n).toList = (number m).toList) : n = m :=
  Text.zeroPadded_inj (String.toList_inj.1 h)

/-- The word at C as a trace shows it: described if it is a code, and else a number. -/
def shownCode (word : Nat) : String :=
  if (Instruction.ofCode? word).isSome then describe word else number word

theorem shownCode_of_some {word : Nat} {i : Instruction} (h : Instruction.ofCode? word = some i) :
    (shownCode word).toList = '\'' :: i.char :: '\'' :: ' ' :: i.mnemonic.toList := by
  have hdescribe : shownCode word = "'" ++ String.singleton i.char ++ "' " ++ i.mnemonic := by
    rw [shownCode, h, if_pos (by rfl), describe, h]
    rfl
  have hmiddle : "' ".toList = ['\'', ' '] := rfl
  rw [hdescribe, String.toList_append, String.toList_append, String.toList_append, hmiddle,
    String.toList_singleton]
  rfl

theorem shownCode_of_none {word : Nat} (h : Instruction.ofCode? word = none) :
    shownCode word = number word := by
  simp [shownCode, h]

/-- A description starts with a quote, a number with a digit, and both tell their word. -/
theorem shownCode_inj {word word' : Nat}
    (h : (shownCode word).toList = (shownCode word').toList) : word = word' := by
  have hquote : ∀ {n : Nat} {cs : List Char}, (number n).toList ≠ '\'' :: cs := by
    intro n cs heq
    exact not_mem_number n (by decide) (heq ▸ List.mem_cons_self : '\'' ∈ (number n).toList)
  cases hi : Instruction.ofCode? word with
  | none =>
    cases hj : Instruction.ofCode? word' with
    | none =>
      rw [shownCode_of_none hi, shownCode_of_none hj] at h
      exact number_inj h
    | some j =>
      rw [shownCode_of_none hi, shownCode_of_some hj] at h
      exact absurd h hquote
  | some i =>
    cases hj : Instruction.ofCode? word' with
    | none =>
      rw [shownCode_of_some hi, shownCode_of_none hj] at h
      exact absurd h.symm hquote
    | some j =>
      rw [shownCode_of_some hi, shownCode_of_some hj] at h
      obtain ⟨hchar, -⟩ := List.cons.inj (List.cons.inj h).2
      rw [← Instruction.code_of_ofCode? hi, ← Instruction.code_of_ofCode? hj, Instruction.code,
        hchar]
      rfl

theorem not_mem_shownCode (word : Nat) {c : Char} (hc : c = '[' ∨ c = '\n') :
    c ∉ (shownCode word).toList := by
  cases hi : Instruction.ofCode? word with
  | none =>
    rw [shownCode_of_none hi]
    exact not_mem_number word (by rcases hc with rfl | rfl <;> decide)
  | some i =>
    rw [shownCode_of_some hi]
    rcases hc with rfl | rfl <;> cases i <;> decide

/-- A number in decimal, with zeros in front to five digits. -/
def fiveDigits (n : Nat) : String :=
  String.ofList (List.replicate (5 - (Nat.toDigits 10 n).length) '0' ++ Nat.toDigits 10 n)

/-- The word at C in a trace: the command in quotes and its mnemonic, or the number of a word that
is no command. -/
def commandField : Nat → String
  | 33 => "'!' HALT"
  | 42 => "'*' LOAD"
  | 62 => "'>' ROT"
  | 94 => "'^' JMP"
  | 95 => "'_' NOP"
  | 123 => "'\x7b' OUT"
  | 124 => "'|' SUB"
  | 125 => "'\x7d' IN"
  | word => fiveDigits word

theorem number_eq_fiveDigits (n : Nat) : number n = fiveDigits n := by
  have hlength : (toString n).length = (Nat.toDigits 10 n).length := by
    rw [← String.length_toList, Text.toList_toString]
  rw [← String.toList_inj, number, Text.toList_zeroPadded, fiveDigits, String.toList_ofList,
    hlength]

theorem shownCode_eq_commandField (word : Nat) : shownCode word = commandField word := by
  cases h : Instruction.ofCode? word with
  | none =>
    rw [shownCode_of_none h, number_eq_fiveDigits]
    unfold commandField
    split <;> first | rfl | cases h
  | some i =>
    rw [← Instruction.code_of_ofCode? h]
    cases i <;> decide +kernel

/-- The line of a machine about to make a step. -/
theorem traceLine_entry (m : Machine) :
    traceLine m.entry = "[TRACE] C=" ++ fiveDigits m.c ++ " D=" ++ fiveDigits m.d ++ " A=" ++
      fiveDigits m.a ++ " op=" ++ commandField (m.memory.read m.c) ++ " [D]=" ++
      fiveDigits (m.memory.read m.d) := by
  simp only [← number_eq_fiveDigits, ← shownCode_eq_commandField]
  rfl

/-- The characters of a line: four fields that a space ends, a fifth that `[` ends, and the last. -/
theorem toList_traceLine (e : TraceEntry) :
    (traceLine e).toList = "[TRACE] C=".toList ++ ((number e.c).toList ++ ' ' ::
      ("D=".toList ++ ((number e.d).toList ++ ' ' ::
      ("A=".toList ++ ((number e.a).toList ++ ' ' ::
      ("op=".toList ++ ((shownCode e.word).toList ++ [' '] ++ '[' ::
      ("D]=".toList ++ (number e.operand).toList)))))))) := by
  have hline : traceLine e = "[TRACE] C=" ++ number e.c ++ " D=" ++ number e.d ++ " A=" ++
      number e.a ++ " op=" ++ shownCode e.word ++ " [D]=" ++ number e.operand := rfl
  have hd : " D=".toList = ' ' :: "D=".toList := rfl
  have ha : " A=".toList = ' ' :: "A=".toList := rfl
  have hop : " op=".toList = ' ' :: "op=".toList := rfl
  have hoperand : " [D]=".toList = ' ' :: '[' :: "D]=".toList := rfl
  rw [hline]
  simp only [String.toList_append, hd, ha, hop, hoperand, List.append_assoc, List.cons_append,
    List.nil_append]

/-- A line tells all five values, however great they are. -/
theorem traceLine_inj {e e' : TraceEntry} (h : traceLine e = traceLine e') : e = e' := by
  have hspace : ∀ n, ' ' ∉ (number n).toList := fun n => not_mem_number n (by decide)
  have hbracket : ∀ word, '[' ∉ (shownCode word).toList ++ [' '] := fun word => by
    simpa using not_mem_shownCode word (.inl rfl)
  have hchars := congrArg String.toList h
  rw [toList_traceLine, toList_traceLine] at hchars
  obtain ⟨hc, hchars⟩ :=
    Text.append_cons_inj (hspace _) (hspace _) (List.append_cancel_left hchars)
  obtain ⟨hd, hchars⟩ :=
    Text.append_cons_inj (hspace _) (hspace _) (List.append_cancel_left hchars)
  obtain ⟨ha, hchars⟩ :=
    Text.append_cons_inj (hspace _) (hspace _) (List.append_cancel_left hchars)
  obtain ⟨hword, hchars⟩ :=
    Text.append_cons_inj (hbracket _) (hbracket _) (List.append_cancel_left hchars)
  cases e
  cases e'
  rw [TraceEntry.mk.injEq]
  exact ⟨number_inj ha, number_inj hc, number_inj hd,
    shownCode_inj (List.append_cancel_right hword), number_inj (List.append_cancel_left hchars)⟩

theorem newline_not_mem_traceLine (e : TraceEntry) : '\n' ∉ (traceLine e).toList := by
  have hnumber : ∀ n, '\n' ∉ (number n).toList := fun n => not_mem_number n (by decide)
  have hword := not_mem_shownCode e.word (.inr rfl : '\n' = '[' ∨ '\n' = '\n')
  rw [toList_traceLine]
  simp [hnumber, hword]

/-- What a trace file holds: the lines of the entries, each ended by a newline. -/
def traceText (es : List TraceEntry) : String :=
  String.join (es.map fun e => traceLine e ++ "\n")

theorem toList_traceText_cons (e : TraceEntry) (es : List TraceEntry) :
    (traceText (e :: es)).toList = (traceLine e).toList ++ '\n' :: (traceText es).toList := by
  rw [traceText, List.map_cons, String.join_cons, String.toList_append, String.toList_append,
    List.append_assoc]
  rfl

/-- A trace file gives back the entries it was written from. -/
theorem traceText_inj {es es' : List TraceEntry} (h : traceText es = traceText es') : es = es' := by
  replace h := congrArg String.toList h
  induction es generalizing es' with
  | nil =>
    cases es' with
    | nil => rfl
    | cons e' es' => rw [toList_traceText_cons] at h; simp [traceText] at h
  | cons e es ih =>
    cases es' with
    | nil => rw [toList_traceText_cons] at h; simp [traceText] at h
    | cons e' es' =>
      rw [toList_traceText_cons, toList_traceText_cons] at h
      obtain ⟨hline, hrest⟩ := Text.append_cons_inj (newline_not_mem_traceLine e)
        (newline_not_mem_traceLine e') h
      rw [traceLine_inj (String.toList_inj.1 hline), ih hrest]

end Listing

/-- A run of at most `n` steps with a trace ends as the run without one does. Its lines are one for
every step attempted, also for the one that fails: line `i` is there if `i` is below the limit and
the plain run of `i` steps has neither halted nor failed, and shows C, D, A, the word at C and the
word at D of the machine which that run leaves. And the lines can be read back: a line tells its
five values and a trace file all its entries. -/
theorem Machine.trace_shows_attempts (patience : Nat) (n : Int) (m : Machine) :
    (m.traceUnder none n).1 = m.run patience (some n) ∧
    ((m.traceUnder none n).2.toList.map Listing.traceLine).length =
      (m.run patience (some n)).attempts ∧
    (∀ (i : Nat) line, ((m.traceUnder none n).2.toList.map Listing.traceLine)[i]? = some line ↔
      (i : Int) < n ∧ ¬ (m.runFor i).Stopped ∧ ∃ now, now = (m.runFor i).machine ∧
        line = "[TRACE] C=" ++ Listing.fiveDigits now.c ++ " D=" ++ Listing.fiveDigits now.d ++
          " A=" ++ Listing.fiveDigits now.a ++
          " op=" ++ Listing.commandField (now.memory.read now.c) ++
          " [D]=" ++ Listing.fiveDigits (now.memory.read now.d)) ∧
    (∀ e e', Listing.traceLine e = Listing.traceLine e' ↔
      e.a = e'.a ∧ e.c = e'.c ∧ e.d = e'.d ∧ e.word = e'.word ∧ e.operand = e'.operand) ∧
    ∀ es es', Listing.traceText es = Listing.traceText es' ↔ es = es' := by
  have hentries : (m.traceUnder none n).2.toList = m.entries n.toNat := rfl
  refine ⟨m.trace_run n.toNat, ?_, fun i line => ?_, fun e e' => ⟨fun h => ?_, fun h => ?_⟩,
    fun es es' => ⟨Listing.traceText_inj, congrArg _⟩⟩
  · rw [hentries, List.length_map, length_entries]
    rfl
  · rw [hentries, List.getElem?_map, Option.map_eq_some_iff]
    simp only [getElem?_entries, Int.lt_toNat]
    constructor
    · rintro ⟨_, ⟨hi, hgoes, rfl⟩, rfl⟩
      exact ⟨hi, hgoes, _, rfl, Listing.traceLine_entry _⟩
    · rintro ⟨hi, hgoes, _, rfl, rfl⟩
      exact ⟨_, ⟨hi, hgoes, rfl⟩, Listing.traceLine_entry _⟩
  · rw [Listing.traceLine_inj h]
    exact ⟨rfl, rfl, rfl, rfl, rfl⟩
  · cases e
    cases e'
    simp_all

end Dis
