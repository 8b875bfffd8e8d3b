import Dis.Memory
/-!
# Words stay words

The operations of a radix lead from words to words, and a checked value is accepted exactly when
it is an integer below the limit.

* `ok_bind`, `bind_eq_ok_iff` and their kin: how a sequence of checks goes on.
* `rotateOnce_lt`, `subtract_lt`: rotation and digitwise difference stay below the limit.
* `word?_eq_some_iff`, `check_eq_ok_iff`: which values a check lets through.
* `checkedIncrement_word`, `checkedRotate_word`, `checkedSubtract_word`: on words the checked
  operations are the plain ones.
* `checkWords_eq_ok_iff`: a list of values passes exactly when every one of them is a word.
-/
namespace Dis

/-! ## Results of checks -/

section Results

variable {ε ε' α β : Type}

@[simp] theorem ok_bind (a : α) (f : α → Except ε β) : (Except.ok a >>= f) = f a := rfl

@[simp] theorem error_bind (e : ε) (f : α → Except ε β) : (Except.error e >>= f) = .error e := rfl

@[simp] theorem mapError_ok (f : ε → ε') (a : α) : (Except.ok a).mapError f = .ok a := rfl

@[simp] theorem mapError_error (f : ε → ε') (e : ε) :
    (Except.error e : Except ε α).mapError f = .error (f e) := rfl

theorem bind_eq_ok_iff {x : Except ε α} {f : α → Except ε β} {b : β} :
    (x >>= f) = .ok b ↔ ∃ a, x = .ok a ∧ f a = .ok b := by
  cases x <;> simp

theorem mapError_eq_ok_iff {x : Except ε α} {f : ε → ε'} {a : α} :
    x.mapError f = .ok a ↔ x = .ok a := by
  cases x <;> simp

end Results

@[simp] theorem trits_limit : Radix.trits.limit = 59049 := rfl

@[simp] theorem trits_greatest : Radix.trits.greatest = 59048 := rfl

@[simp] theorem memory_size : Memory.size = 59049 := rfl

namespace Radix

/-! ## Closure -/

@[simp] theorem weight_zero (r : Radix) : r.weight 0 = 1 := rfl

theorem weight_succ (r : Radix) (i : Nat) : r.weight (i + 1) = r.base * r.weight i :=
  Nat.mul_comm (r.weight i) r.base

theorem limit_succ (r : Radix) (n : Nat) (hd : r.digits = n + 1) :
    r.limit = r.base * r.weight n := by
  unfold limit
  rw [hd, weight_succ]

theorem top_eq (r : Radix) (n : Nat) (hb : 0 < r.base) (hd : r.digits = n + 1) :
    r.top = r.weight n := by
  unfold top
  rw [r.limit_succ n hd, Nat.mul_div_cancel_left _ hb]

theorem base_pos (r : Radix) (x : Nat) (hd : 0 < r.digits) (hx : x < r.limit) : 0 < r.base := by
  obtain ⟨n, hn⟩ : ∃ n, r.digits = n + 1 := ⟨r.digits - 1, by omega⟩
  rcases Nat.eq_zero_or_pos r.base with h0 | h0
  · rw [r.limit_succ n hn, h0, Nat.zero_mul] at hx
    omega
  · exact h0

/-- The digit that leaves at the bottom comes back with the weight of the top. -/
theorem rotateOnce_lt (r : Radix) (x : Nat) (hd : 0 < r.digits) (hx : x < r.limit) :
    r.rotateOnce x < r.limit := by
  have hb := r.base_pos x hd hx
  obtain ⟨n, hn⟩ : ∃ n, r.digits = n + 1 := ⟨r.digits - 1, by omega⟩
  have hlimit := r.limit_succ n hn
  have hquot : x / r.base < r.weight n := Nat.div_lt_of_lt_mul (hlimit ▸ hx)
  have hdigit : x % r.base + 1 ≤ r.base := Nat.mod_lt x hb
  unfold rotateOnce
  rw [r.top_eq n hb hn, hlimit]
  calc x / r.base + x % r.base * r.weight n
      < r.weight n + x % r.base * r.weight n := by omega
    _ = (x % r.base + 1) * r.weight n := by rw [Nat.succ_mul, Nat.add_comm]
    _ ≤ r.base * r.weight n := Nat.mul_le_mul_right _ hdigit

theorem digitDifference_lt (r : Radix) (hb : 0 < r.base) (dx dy : Nat) :
    r.digitDifference dx dy < r.base :=
  Nat.mod_lt _ hb

/-- What has been gathered stays below the weight of the digit that comes next. -/
theorem subtractFrom_lt (r : Radix) (hb : 0 < r.base) (n x y : Nat) {result place : Nat}
    (h : result < place) : r.subtractFrom result place n x y < place * r.weight n := by
  induction n generalizing x y result place with
  | zero => simpa [subtractFrom] using h
  | succ n ih =>
    have hdigit := r.digitDifference_lt hb (x % r.base) (y % r.base)
    have hnext : result + r.digitDifference (x % r.base) (y % r.base) * place < place * r.base :=
      calc result + r.digitDifference (x % r.base) (y % r.base) * place
          < place + r.digitDifference (x % r.base) (y % r.base) * place := by omega
        _ = (r.digitDifference (x % r.base) (y % r.base) + 1) * place := by
          rw [Nat.succ_mul, Nat.add_comm]
        _ ≤ r.base * place := Nat.mul_le_mul_right _ hdigit
        _ = place * r.base := Nat.mul_comm _ _
    rw [subtractFrom, weight_succ, ← Nat.mul_assoc]
    exact ih (x / r.base) (y / r.base) hnext

theorem subtract_lt (r : Radix) (hb : 0 < r.base) (x y : Nat) : r.subtract x y < r.limit := by
  have h := r.subtractFrom_lt hb r.digits x y Nat.zero_lt_one
  rwa [Nat.one_mul] at h

/-! ## Checks -/

theorem word?_eq_some_iff (r : Radix) (v : Value) (w : Nat) :
    r.word? v = some w ↔ v = .int w ∧ w < r.limit := by
  cases v with
  | int n =>
    simp only [word?, Bool.and_eq_true, decide_eq_true_eq, Option.ite_none_right_eq_some,
      Option.some.injEq, Value.int.injEq]
    omega
  | _ => simp [word?]

@[simp] theorem word?_natCast (r : Radix) (w : Nat) (h : w < r.limit) :
    r.word? (.int w) = some w :=
  (r.word?_eq_some_iff _ w).2 ⟨rfl, h⟩

theorem check_eq_ok_iff (r : Radix) (what : String) (v : Value) (w : Nat) :
    r.check what v = .ok w ↔ r.word? v = some w := by
  unfold check
  cases r.word? v <;> simp

theorem check_word (r : Radix) (what : String) (w : Nat) (h : w < r.limit) :
    r.check what (.int w) = .ok w :=
  (r.check_eq_ok_iff what _ w).2 (r.word?_natCast w h)

theorem check_eq_error (r : Radix) (what : String) (v : Value) (h : r.word? v = none) :
    r.check what v = .error (.notWord what r v) := by
  unfold check; rw [h]

theorem checkedIncrement_word (r : Radix) (x : Nat) (hx : x < r.limit) :
    r.checkedIncrement (.int x) (.int 1) = .ok ((x + 1) % r.limit) := by
  unfold checkedIncrement
  rw [r.check_word _ x hx, ok_bind]
  simp only [increment]
  rw [show ((x : Int) + 1).emod r.limit = ((x + 1) % r.limit : Nat) by push_cast; rfl,
    Int.toNat_natCast]

theorem checkedRotate_word (r : Radix) (x : Nat) (hd : 1 < r.digits) (hx : x < r.limit) :
    r.checkedRotate (.int x) (.int 1) = .ok (r.rotateOnce x) := by
  have hcount : ((1 : Int).emod r.digits).toNat = 1 := by
    rw [show (1 : Int).emod r.digits = 1 from Int.emod_eq_of_lt (by omega) (by omega)]; rfl
  unfold checkedRotate
  rw [r.check_word _ x hx, ok_bind]
  simp only [rotate, hcount]
  rfl

theorem checkedSubtract_word (r : Radix) (x y : Nat) (hx : x < r.limit) (hy : y < r.limit) :
    r.checkedSubtract (.int x) (.int y) = .ok (r.subtract x y) := by
  unfold checkedSubtract
  rw [r.check_word _ x hx, ok_bind, r.check_word _ y hy, ok_bind]

end Radix

namespace Memory

/-- Checking a list adds the words it stands for to what is done, all of them or none. -/
theorem checkWords_eq_ok_iff (what : String) (vs : List Value) (done ws : Array Nat) :
    checkWords what done vs = .ok ws ↔
      ∃ new : List Nat, vs.map Radix.trits.word? = new.map some ∧ ws = done ++ new.toArray := by
  induction vs generalizing done with
  | nil =>
    simp only [checkWords, Except.ok.injEq, List.map_nil]
    constructor
    · intro h
      exact ⟨[], rfl, by simp [h]⟩
    · intro hwords
      obtain ⟨new, hnew, rfl⟩ := hwords
      have : new = [] := by simpa using hnew.symm
      simp [this]
  | cons v vs ih =>
    unfold checkWords
    cases hv : Radix.trits.word? v with
    | none =>
      rw [Radix.check_eq_error _ _ _ hv]
      simp only [reduceCtorEq, false_iff]
      intro hwords
      obtain ⟨new, hnew, -⟩ := hwords
      cases new <;> simp [hv] at hnew
    | some w =>
      rw [(Radix.check_eq_ok_iff _ _ _ w).2 hv]
      simp only [ih]
      constructor
      · intro hwords
        obtain ⟨new, hnew, rfl⟩ := hwords
        exact ⟨w :: new, by simp [hv, hnew], by simp⟩
      · intro hwords
        obtain ⟨new, hnew, rfl⟩ := hwords
        cases new with
        | nil => simp at hnew
        | cons w' new =>
          simp only [List.map_cons, hv, List.cons.injEq, Option.some.injEq] at hnew
          obtain ⟨rfl, hnew⟩ := hnew
          exact ⟨new, hnew, by simp⟩

end Memory
end Dis
