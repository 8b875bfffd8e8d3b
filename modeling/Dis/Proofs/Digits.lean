import Dis.Proofs.Words
import Mathlib.Data.Nat.Digits.Defs
/-!
# Words and their digits

A word and the list of its digits determine each other, so an operation on words is known when the
digits of its result are.

* `digit_ofDigits`, `toDigits_ofDigits`: a list of digits evaluates to a number with these digits.
* `ofDigits_toDigits`: a word is the value of its digits; `eq_of_digits`: words with the same digits
  are the same.
* `addDigits_digits`, `ofDigitValues_digits`: the checked reader adds up every full list of digits;
  `ofDigitValues_refuses_iff`: and refuses every other list.
* `words_are_digit_lists`: so words and full lists of digits are in bijection.
-/
namespace Dis.Radix

/-! ## Single digits -/

theorem digit_zero (r : Radix) (x : Nat) : r.digit x 0 = x % r.base := by
  unfold digit
  rw [weight_zero, Nat.div_one]

theorem digit_succ (r : Radix) (x i : Nat) : r.digit x (i + 1) = r.digit (x / r.base) i := by
  unfold digit
  rw [weight_succ, Nat.div_div_eq_div_mul]

theorem digit_lt (r : Radix) (hb : 0 < r.base) (x i : Nat) : r.digit x i < r.base :=
  Nat.mod_lt _ hb

theorem digit_of_zero (r : Radix) (i : Nat) : r.digit 0 i = 0 := by
  simp [digit]

@[simp] theorem length_toDigits (r : Radix) (x : Nat) : (r.toDigits x).length = r.digits := by
  simp [toDigits]

theorem getElem?_toDigits (r : Radix) (x : Nat) {i : Nat} (hi : i < r.digits) :
    (r.toDigits x)[i]? = some (r.digit x i) := by
  simp [toDigits, hi]

theorem lt_of_mem_toDigits (r : Radix) (hb : 0 < r.base) {x d : Nat} (h : d ∈ r.toDigits x) :
    d < r.base := by
  obtain ⟨i, -, rfl⟩ := List.mem_map.1 h
  exact r.digit_lt hb x i

/-! ## Values of digit lists -/

/-- The number a digit list stands for, least significant digit first. -/
def ofDigits (r : Radix) : List Nat → Nat
  | [] => 0
  | d :: ds => d + r.base * r.ofDigits ds

theorem ofDigits_eq (r : Radix) (ds : List Nat) : r.ofDigits ds = Nat.ofDigits r.base ds := by
  induction ds with
  | nil => rfl
  | cons d ds ih => rw [ofDigits, ih, Nat.ofDigits_cons]

theorem ofDigits_concat (r : Radix) (ds : List Nat) (d : Nat) :
    r.ofDigits (ds ++ [d]) = r.ofDigits ds + r.weight ds.length * d := by
  rw [ofDigits_eq, ofDigits_eq, Nat.ofDigits_append, Nat.ofDigits_singleton]
  rfl

theorem ofDigits_cons_mod (r : Radix) {d : Nat} (hd : d < r.base) (ds : List Nat) :
    r.ofDigits (d :: ds) % r.base = d := by
  rw [ofDigits, Nat.add_mul_mod_self_left, Nat.mod_eq_of_lt hd]

theorem ofDigits_cons_div (r : Radix) {d : Nat} (hd : d < r.base) (ds : List Nat) :
    r.ofDigits (d :: ds) / r.base = r.ofDigits ds := by
  rw [ofDigits, Nat.add_mul_div_left _ _ (by omega), Nat.div_eq_of_lt hd, Nat.zero_add]

theorem digit_ofDigits (r : Radix) {ds : List Nat} (h : ∀ d ∈ ds, d < r.base) {i d : Nat}
    (hi : ds[i]? = some d) : r.digit (r.ofDigits ds) i = d := by
  induction ds generalizing i with
  | nil => simp at hi
  | cons d₀ ds ih =>
    have hd₀ : d₀ < r.base := h d₀ List.mem_cons_self
    cases i with
    | zero =>
      obtain rfl : d₀ = d := by simpa using hi
      rw [digit_zero, r.ofDigits_cons_mod hd₀]
    | succ i =>
      rw [digit_succ, r.ofDigits_cons_div hd₀]
      exact ih (fun e he => h e (List.mem_cons_of_mem _ he)) (by simpa using hi)

theorem toDigits_ofDigits (r : Radix) {ds : List Nat} (hlen : ds.length = r.digits)
    (h : ∀ d ∈ ds, d < r.base) : r.toDigits (r.ofDigits ds) = ds := by
  apply List.ext_getElem?
  intro i
  by_cases hi : i < r.digits
  · obtain ⟨d, hd⟩ : ∃ d, ds[i]? = some d := ⟨_, List.getElem?_eq_getElem (hlen ▸ hi)⟩
    rw [r.getElem?_toDigits _ hi, hd, r.digit_ofDigits h hd]
  · rw [List.getElem?_eq_none (by simpa using hi), List.getElem?_eq_none (by omega)]

/-- The `n` lowest digits are those of the remainder. -/
theorem ofDigits_map_digit (r : Radix) (x n : Nat) :
    r.ofDigits ((List.range n).map (r.digit x)) = x % r.weight n := by
  induction n with
  | zero => simp [ofDigits, Nat.mod_one]
  | succ n ih =>
    rw [List.range_succ, List.map_append, List.map_singleton, ofDigits_concat, ih, List.length_map,
      List.length_range]
    exact Nat.mod_pow_succ.symm

theorem ofDigits_toDigits (r : Radix) {x : Nat} (hx : x < r.limit) :
    r.ofDigits (r.toDigits x) = x := by
  rw [toDigits, ofDigits_map_digit]
  exact Nat.mod_eq_of_lt hx

theorem eq_of_digits (r : Radix) {x y : Nat} (hx : x < r.limit) (hy : y < r.limit)
    (h : ∀ i < r.digits, r.digit x i = r.digit y i) : x = y := by
  have hdigits : r.toDigits x = r.toDigits y :=
    List.map_congr_left fun i hi => h i (List.mem_range.1 hi)
  rw [← r.ofDigits_toDigits hx, hdigits, r.ofDigits_toDigits hy]

/-! ## Checked digit lists -/

theorem digit?_eq_some_iff (r : Radix) (v : Value) (d : Nat) :
    r.digit? v = some d ↔ v = .int d ∧ d < r.base := by
  cases v with
  | int n =>
    simp only [digit?, Bool.and_eq_true, decide_eq_true_eq, Option.ite_none_right_eq_some,
      Option.some.injEq, Value.int.injEq]
    omega
  | _ => simp [digit?]

/-- The loop adds the digits of the places that are left, from the weight of `index` on. -/
theorem addDigits_digits (r : Radix) {ds : List Nat} (h : ∀ d ∈ ds, d < r.base)
    (index value : Nat) :
    r.addDigits index value (ds.map fun (d : Nat) => .int d) =
      .ok (value + r.weight index * r.ofDigits ds) := by
  induction ds generalizing index value with
  | nil => rfl
  | cons d ds ih =>
    have hd : r.digit? (.int d) = some d :=
      (r.digit?_eq_some_iff _ d).2 ⟨rfl, h d List.mem_cons_self⟩
    rw [List.map_cons, addDigits, hd]
    dsimp only
    rw [ih (fun e he => h e (List.mem_cons_of_mem d he)), ofDigits, weight_succ, Nat.mul_add,
      Nat.mul_comm d, Nat.mul_comm r.base, Nat.mul_assoc, Nat.add_assoc]

theorem ofDigitValues_digits (r : Radix) {ds : List Nat} (hlen : ds.length = r.digits)
    (h : ∀ d ∈ ds, d < r.base) :
    r.ofDigitValues (ds.map fun (d : Nat) => .int d) = .ok (r.ofDigits ds) := by
  unfold ofDigitValues
  rw [if_neg (by simpa using hlen), r.addDigits_digits h, weight_zero, Nat.zero_add, Nat.one_mul]

/-- A value that is no digit: a truth value, anything else that is no integer, or an integer that is
negative or too large. -/
def NoDigit (r : Radix) (v : Value) : Prop :=
  (∃ b, v = .truth b) ∨ (∀ n, v ≠ .int n) ∨ ∃ n : Int, v = .int n ∧ (n < 0 ∨ r.base ≤ n)

theorem digit?_eq_none_iff (r : Radix) (v : Value) : r.digit? v = none ↔ r.NoDigit v := by
  cases v with
  | int n =>
    simp only [digit?, NoDigit, Bool.and_eq_true, decide_eq_true_eq, ite_eq_right_iff, reduceCtorEq,
      imp_false, Value.int.injEq, exists_false, false_or, exists_eq_left', ne_eq, forall_eq']
    omega
  | _ => simp [digit?, NoDigit]

/-- The loop breaks off at a value that is no digit, and nowhere else. -/
theorem addDigits_refuses_iff (r : Radix) (index value : Nat) (vs : List Value) :
    (∃ e, r.addDigits index value vs = .error e) ↔ ∃ v ∈ vs, r.NoDigit v := by
  induction vs generalizing index value with
  | nil => simp [addDigits]
  | cons v vs ih =>
    simp only [addDigits, List.mem_cons, exists_eq_or_imp]
    rw [← r.digit?_eq_none_iff v]
    cases hv : r.digit? v with
    | none => simp
    | some d => simpa using ih (index + 1) (value + d * r.weight index)

theorem ofDigitValues_refuses_iff (r : Radix) (vs : List Value) :
    (∃ e, r.ofDigitValues vs = .error e) ↔ vs.length ≠ r.digits ∨ ∃ v ∈ vs, r.NoDigit v := by
  unfold ofDigitValues
  split
  · next hlen => simp [hlen]
  · next hlen => rw [addDigits_refuses_iff, or_iff_right hlen]

theorem mapError_range_iff (x : Except RangeError Nat) :
    (∃ e, x.mapError DigitsError.range = .error (.range e)) ↔ ∃ e, x = .error e := by
  cases x <;> simp

/-! ## Words and digit lists -/

/-- A full list of digits. -/
def IsDigits (r : Radix) (ds : List Nat) : Prop :=
  ds.length = r.digits ∧ ∀ d ∈ ds, d < r.base

instance (r : Radix) (ds : List Nat) : Decidable (r.IsDigits ds) :=
  inferInstanceAs (Decidable (_ ∧ _))

/-- A list of digits as a host hands it over. -/
def digitValues (ds : List Nat) : Value := .list (ds.map fun (d : Nat) => .int d)

theorem isDigits_toDigits (r : Radix) (hb : 0 < r.base) (x : Nat) : r.IsDigits (r.toDigits x) :=
  ⟨r.length_toDigits x, fun _ hd => r.lt_of_mem_toDigits hb hd⟩

theorem checkedToDigits_word (r : Radix) {x : Nat} (hx : x < r.limit) :
    r.checkedToDigits (.int x) = .ok (r.toDigits x) := by
  unfold checkedToDigits
  rw [r.check_word _ x hx, ok_bind]

section IsDigits

variable {r : Radix} {ds : List Nat} (h : r.IsDigits ds)
include h

theorem ofDigits_lt (hb : 1 < r.base) : r.ofDigits ds < r.limit := by
  rw [ofDigits_eq, limit, ← h.1]
  exact Nat.ofDigits_lt_base_pow_length hb h.2

theorem ofDigitValue_digits : r.ofDigitValue (digitValues ds) = .ok (r.ofDigits ds) := by
  rw [digitValues, ofDigitValue, r.ofDigitValues_digits h.1 h.2, mapError_ok]

end IsDigits

/-- **Words and digit lists are in bijection.** In every base and for every number of digits, the
digits of a word are a full list of digits, from which the word is read back; and every full list of
digits is read as a word, which has these digits. A list is refused as out of range exactly if it has
another length or holds something that is no digit, and a text always is. -/
theorem words_are_digit_lists (r : Radix) (hb : 2 ≤ r.base) (hn : 1 ≤ r.digits) :
    (∀ x : Nat, x < r.base ^ r.digits →
      ∃ ds, r.checkedToDigits (.int x) = .ok ds ∧ r.IsDigits ds ∧
        r.ofDigitValue (digitValues ds) = .ok x) ∧
    (∀ ds, r.IsDigits ds →
      ∃ x, r.ofDigitValue (digitValues ds) = .ok x ∧ x < r.base ^ r.digits ∧
        r.checkedToDigits (.int x) = .ok ds) ∧
    (∀ vs, (∃ e, r.ofDigitValue (.list vs) = .error (.range e)) ↔
      vs.length ≠ r.digits ∨ ∃ v ∈ vs, r.NoDigit v) ∧
    ∀ s, ∃ e, r.ofDigitValue (.text s) = .error (.range e) := by
  refine ⟨fun x hx => ?_, fun ds hds => ?_, fun vs => ?_, fun s => ?_⟩
  · have hdigits := r.isDigits_toDigits (by omega) x
    refine ⟨r.toDigits x, r.checkedToDigits_word hx, hdigits, ?_⟩
    rw [ofDigitValue_digits hdigits, r.ofDigits_toDigits hx]
  · have hlt := ofDigits_lt hds hb
    refine ⟨r.ofDigits ds, ofDigitValue_digits hds, hlt, ?_⟩
    rw [r.checkedToDigits_word hlt, r.toDigits_ofDigits hds.1 hds.2]
  · rw [ofDigitValue, mapError_range_iff, ofDigitValues_refuses_iff]
  · rw [ofDigitValue, mapError_range_iff, ofDigitValues_refuses_iff]
    -- a text with the right number of characters has one, and a character is no digit
    rw [List.length_map, Decidable.or_iff_not_imp_left, not_not]
    intro hlen
    obtain ⟨c, hc⟩ := List.exists_mem_of_length_pos (show 0 < s.toList.length by omega)
    exact ⟨_, List.mem_map_of_mem hc, .inr (.inl fun n => by simp)⟩

/-- Three digits of base five: the word 86, its digits, and a list with a truth value in it. -/
theorem words_are_digit_lists_quinary :
    let r : Radix := ⟨5, 3⟩
    (2 ≤ r.base ∧ 1 ≤ r.digits ∧ 86 < r.base ^ r.digits ∧ r.IsDigits [1, 2, 3]) ∧
      (∃ ds, r.checkedToDigits (.int 86) = .ok ds ∧ r.IsDigits ds ∧
        r.ofDigitValue (digitValues ds) = .ok 86) ∧
      (∃ x, r.ofDigitValue (digitValues [1, 2, 3]) = .ok x ∧ x < r.base ^ r.digits ∧
        r.checkedToDigits (.int x) = .ok [1, 2, 3]) ∧
      (∃ e, r.ofDigitValue (.list [.int 1, .truth true, .int 3]) = .error (.range e)) ∧
      ∃ e, r.ofDigitValue (.text "123") = .error (.range e) := by
  intro r
  have hb : 2 ≤ r.base := by decide
  have hn : 1 ≤ r.digits := by decide
  have hx : 86 < r.base ^ r.digits := by decide
  have hds : r.IsDigits [1, 2, 3] := by decide
  obtain ⟨hword, hlist, hrefused, htext⟩ := words_are_digit_lists r hb hn
  exact ⟨⟨hb, hn, hx, hds⟩, hword 86 hx, hlist [1, 2, 3] hds,
    (hrefused _).2 (.inr ⟨.truth true, by simp, .inl ⟨true, rfl⟩⟩), htext "123"⟩

end Dis.Radix
