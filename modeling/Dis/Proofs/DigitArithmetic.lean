import Dis.Proofs.Digits
import Mathlib.Data.List.Rotate
/-!
# Rotation and difference, digit by digit

Rotation is a cyclic shift of the digits and subtraction a difference of digits at each place, in
every base and for every number of digits. All laws of the two operations follow place by place.

* `subtractFrom_eq`: the loop that peels digits adds up the differences of all places;
  `digit_subtract`: so each digit of the result is one such difference.
* `subtract_meets_difference`: the loop and the way through the digit lists give the same outcome
  for any two values, and what this outcome is (`Difference`).
* `toDigits_rotateOnce`, `toDigits_rotateTimes`, `digit_rotate`: the digits after one turn, after
  some turns, and after any integer number of them.
* `rotation_is_cyclic`: where each digit comes from, and what follows for turns one after another.
* `difference_laws`: the difference undoes itself, may be taken in either order, and commutes with
  rotation.
-/
namespace Dis.Radix

/-! ## Differences of digits -/

theorem digitDifference_eq (r : Radix) {dx dy : Nat} (hx : dx < r.base) (hy : dy < r.base) :
    r.digitDifference dx dy = if dy ≤ dx then dx - dy else r.base + dx - dy := by
  unfold digitDifference
  split
  · rw [show r.base + dx - dy = r.base + (dx - dy) by omega, Nat.add_mod_left]
    exact Nat.mod_eq_of_lt (by omega)
  · exact Nat.mod_eq_of_lt (by omega)

theorem digitDifference_cast (r : Radix) {dx dy : Nat} (hy : dy < r.base) :
    (r.digitDifference dx dy : Int) = ((dx : Int) - dy) % r.base := by
  have hsub : ((r.base + dx - dy : Nat) : Int) = r.base + ((dx : Int) - dy) := by omega
  unfold digitDifference
  rw [Int.natCast_emod, hsub, Int.add_emod_left]

theorem digitDifference_zero (r : Radix) {d : Nat} (h : d < r.base) :
    r.digitDifference d 0 = d := by
  rw [r.digitDifference_eq h (by omega), if_pos (by omega), Nat.sub_zero]

theorem digitDifference_self (r : Radix) {d : Nat} (h : d < r.base) :
    r.digitDifference d d = 0 := by
  rw [r.digitDifference_eq h h, if_pos (by omega), Nat.sub_self]

theorem digitDifference_twice (r : Radix) {dx dy : Nat} (hx : dx < r.base) (hy : dy < r.base) :
    r.digitDifference dx (r.digitDifference dx dy) = dy := by
  rw [r.digitDifference_eq hx (r.digitDifference_lt (by omega) _ _), r.digitDifference_eq hx hy]
  split <;> split <;> omega

theorem digitDifference_exchange (r : Radix) {dx dy dz : Nat} (hx : dx < r.base) (hy : dy < r.base)
    (hz : dz < r.base) :
    r.digitDifference (r.digitDifference dx dy) dz =
      r.digitDifference (r.digitDifference dx dz) dy := by
  rw [r.digitDifference_eq (r.digitDifference_lt (by omega) _ _) hz,
    r.digitDifference_eq (r.digitDifference_lt (by omega) _ _) hy,
    r.digitDifference_eq hx hy, r.digitDifference_eq hx hz]
  split <;> split <;> split <;> split <;> omega

/-! ## The difference of words -/

/-- The loop adds the differences of the places that are left, from the weight `place` on. -/
theorem subtractFrom_eq (r : Radix) (result place n x y : Nat) :
    r.subtractFrom result place n x y =
      result + place * r.ofDigits
        ((List.range n).map fun i => r.digitDifference (r.digit x i) (r.digit y i)) := by
  induction n generalizing result place x y with
  | zero => simp [subtractFrom, ofDigits]
  | succ n ih =>
    -- the place peeled off is the first of the list, and the others are those of the quotients
    have hrest : (fun i => r.digitDifference (r.digit (x / r.base) i) (r.digit (y / r.base) i)) =
        (fun i => r.digitDifference (r.digit x i) (r.digit y i)) ∘ Nat.succ := by
      funext i
      simp only [Function.comp_apply, Nat.succ_eq_add_one, digit_succ]
    rw [subtractFrom, ih, hrest, List.range_succ_eq_map, List.map_cons, List.map_map, ofDigits,
      digit_zero, digit_zero, Nat.mul_add, Nat.mul_comm place (r.digitDifference _ _),
      Nat.mul_assoc, Nat.add_assoc]

theorem subtract_eq (r : Radix) (x y : Nat) :
    r.subtract x y = r.ofDigits
      ((List.range r.digits).map fun i => r.digitDifference (r.digit x i) (r.digit y i)) := by
  rw [subtract, subtractFrom_eq, Nat.zero_add, Nat.one_mul]

theorem digit_subtract (r : Radix) (hb : 0 < r.base) (x y : Nat) {i : Nat} (hi : i < r.digits) :
    r.digit (r.subtract x y) i = r.digitDifference (r.digit x i) (r.digit y i) := by
  rw [subtract_eq]
  refine r.digit_ofDigits ?_ (by simp [hi])
  intro d hd
  obtain ⟨j, -, rfl⟩ := List.mem_map.1 hd
  exact r.digitDifference_lt hb _ _

/-- What is to come out when one value is subtracted from another: the word with the differences of
the digits, modulo the base, or the refusal of the first value that is no word. -/
inductive Difference (r : Radix) : Value → Value → Except RangeError Nat → Prop
  | words {x y w : Nat} (hx : x < r.limit) (hy : y < r.limit) (hw : w < r.limit)
      (hdigits : ∀ i < r.digits,
        (r.digit w i : Int) = ((r.digit x i : Int) - r.digit y i) % r.base) :
      Difference r (.int x) (.int y) (.ok w)
  | left {x y : Value} (hx : ∀ n : Nat, n < r.limit → x ≠ .int n) :
      Difference r x y (.error (.notWord "value" r x))
  | right {x : Nat} {y : Value} (hx : x < r.limit) (hy : ∀ n : Nat, n < r.limit → y ≠ .int n) :
      Difference r (.int x) y (.error (.notWord "value" r y))

theorem Difference.unique {r : Radix} {x y : Value} {a b : Except RangeError Nat}
    (ha : r.Difference x y a) (hb : r.Difference x y b) : a = b := by
  cases ha with
  | words hx hy hw hdigits =>
    cases hb with
    | words _ _ hw' hdigits' =>
      refine congrArg Except.ok (r.eq_of_digits hw hw' fun i hi => ?_)
      have := hdigits i hi
      have := hdigits' i hi
      omega
    | left hx' => exact absurd rfl (hx' _ hx)
    | right _ hy' => exact absurd rfl (hy' _ hy)
  | left hx =>
    cases hb with
    | words hx' => exact absurd rfl (hx _ hx')
    | left => rfl
    | right hx' => exact absurd rfl (hx _ hx')
  | right hx hy =>
    cases hb with
    | words _ hy' => exact absurd rfl (hy _ hy')
    | left hx' => exact absurd rfl (hx' _ hx)
    | right => rfl

theorem ne_word_of_word? {r : Radix} {v : Value} (h : r.word? v = none) :
    ∀ n : Nat, n < r.limit → v ≠ .int n := by
  rintro n hn rfl
  rw [r.word?_natCast n hn] at h
  cases h

theorem checkedSubtract_difference (r : Radix) (hb : 0 < r.base) (x y : Value) :
    r.Difference x y (r.checkedSubtract x y) := by
  unfold checkedSubtract
  cases hx : r.word? x with
  | none =>
    rw [r.check_eq_error _ _ hx, error_bind]
    exact .left (ne_word_of_word? hx)
  | some m =>
    obtain ⟨rfl, hm⟩ := (r.word?_eq_some_iff x m).1 hx
    rw [r.check_word _ m hm, ok_bind]
    cases hy : r.word? y with
    | none =>
      rw [r.check_eq_error _ _ hy, error_bind]
      exact .right hm (ne_word_of_word? hy)
    | some n =>
      obtain ⟨rfl, hn⟩ := (r.word?_eq_some_iff y n).1 hy
      rw [r.check_word _ n hn, ok_bind]
      refine .words hm hn (r.subtract_lt hb m n) fun i hi => ?_
      rw [r.digit_subtract hb m n hi, r.digitDifference_cast (r.digit_lt hb n i)]

/-- The reader of digit lists takes the differences of all places, and they make the same word as
the loop. -/
theorem ofDigitValues_differences (r : Radix) (hb : 0 < r.base) (x y : Nat) :
    r.ofDigitValues (List.zipWith (fun dx dy => .int (r.digitDifference dx dy)) (r.toDigits x)
      (r.toDigits y)) = .ok (r.subtract x y) := by
  have hvalues : List.zipWith (fun dx dy => Value.int (r.digitDifference dx dy)) (r.toDigits x)
        (r.toDigits y) =
      ((List.range r.digits).map fun i => r.digitDifference (r.digit x i) (r.digit y i)).map
        fun (d : Nat) => .int d := by
    rw [toDigits, toDigits, List.zipWith_map, List.zipWith_self, List.map_map]
    rfl
  rw [hvalues, subtract_eq]
  refine r.ofDigitValues_digits (by simp) fun d hd => ?_
  obtain ⟨i, -, rfl⟩ := List.mem_map.1 hd
  exact r.digitDifference_lt hb _ _

theorem checkedSubtractByDigits_eq (r : Radix) (hb : 0 < r.base) (x y : Value) :
    r.checkedSubtractByDigits x y = r.checkedSubtract x y := by
  unfold checkedSubtractByDigits checkedSubtract checkedToDigits
  cases r.check "value" x with
  | error e => rfl
  | ok m =>
    cases r.check "value" y with
    | error e => rfl
    | ok n => exact r.ofDigitValues_differences hb m n

/-- **One difference, computed in two ways.** For any two values, words or not, the loop that peels
digits and the way through the digit lists have the same outcome. It is the only one that fits: the
word whose digits are the differences modulo the base, or else the refusal of the first value that
is no word. -/
theorem subtract_meets_difference (r : Radix) (hb : 2 ≤ r.base) (x y : Value) :
    r.checkedSubtractByDigits x y = r.checkedSubtract x y ∧
      ∀ outcome, r.Difference x y outcome ↔ r.checkedSubtract x y = outcome := by
  have hmeets := r.checkedSubtract_difference (by omega) x y
  refine ⟨r.checkedSubtractByDigits_eq (by omega) x y, fun outcome => ⟨hmeets.unique, ?_⟩⟩
  rintro rfl
  exact hmeets

/-- Two digits of base three, the lower of which borrows nothing from the higher one, and a value
that is no word. -/
theorem subtract_meets_difference_borrowless :
    checkedSubtractByDigits ⟨3, 2⟩ (.int 3) (.int 1) = .ok 5 ∧
      checkedSubtract ⟨3, 2⟩ (.int 3) (.int 1) = .ok 5 ∧
      checkedSubtractByDigits ⟨3, 2⟩ (.int 3) (.truth true) =
        .error (.notWord "value" ⟨3, 2⟩ (.truth true)) := by
  obtain ⟨halike, hfits⟩ := subtract_meets_difference ⟨3, 2⟩ (by decide) (.int 3) (.int 1)
  obtain ⟨halike', hfits'⟩ := subtract_meets_difference ⟨3, 2⟩ (by decide) (.int 3) (.truth true)
  have hfive := (hfits (.ok 5)).1 (.words (by decide) (by decide) (by decide) (by decide))
  have hrefused := (hfits' _).1 (.right (by decide) fun n _ => Value.noConfusion)
  exact ⟨halike.trans hfive, hfive, halike'.trans hrefused⟩

/-! ## Rotation -/

/-- The lowest digit of a list moves behind the highest one. -/
theorem rotateOnce_ofDigits (r : Radix) {d : Nat} {ds : List Nat} (hd : d < r.base)
    (hlen : ds.length + 1 = r.digits) :
    r.rotateOnce (r.ofDigits (d :: ds)) = r.ofDigits (ds ++ [d]) := by
  have htop := r.top_eq ds.length (by omega) hlen.symm
  rw [rotateOnce, r.ofDigits_cons_div hd, r.ofDigits_cons_mod hd, htop, ofDigits_concat,
    Nat.mul_comm d]

theorem toDigits_rotateOnce (r : Radix) (hd : 0 < r.digits) {x : Nat} (hx : x < r.limit) :
    r.toDigits (r.rotateOnce x) = (r.toDigits x).rotate 1 := by
  have hb := r.base_pos x hd hx
  have hlt : ∀ d ∈ r.toDigits x, d < r.base := fun d => r.lt_of_mem_toDigits hb
  have hlen := r.length_toDigits x
  have hvalue := r.ofDigits_toDigits hx
  generalize r.toDigits x = ds at hlt hlen hvalue
  cases ds with
  | nil => simp at hlen; omega
  | cons d ds =>
    rw [← hvalue, r.rotateOnce_ofDigits (hlt d List.mem_cons_self) hlen, List.rotate_cons_succ,
      List.rotate_zero]
    refine r.toDigits_ofDigits (by simpa using hlen) fun e he => hlt e ?_
    simpa [or_comm] using he

theorem rotateTimes_lt (r : Radix) (hd : 0 < r.digits) (n : Nat) {x : Nat} (hx : x < r.limit) :
    r.rotateTimes n x < r.limit := by
  induction n generalizing x with
  | zero => exact hx
  | succ n ih => exact ih (r.rotateOnce_lt x hd hx)

theorem toDigits_rotateTimes (r : Radix) (hd : 0 < r.digits) (n : Nat) {x : Nat}
    (hx : x < r.limit) : r.toDigits (r.rotateTimes n x) = (r.toDigits x).rotate n := by
  induction n generalizing x with
  | zero => rw [List.rotate_zero]; rfl
  | succ n ih =>
    rw [rotateTimes, ih (r.rotateOnce_lt x hd hx), r.toDigits_rotateOnce hd hx, List.rotate_rotate,
      Nat.add_comm 1 n]

theorem rotate_lt (r : Radix) (hd : 0 < r.digits) {x : Nat} (hx : x < r.limit) (y : Int) :
    r.rotate x y < r.limit :=
  r.rotateTimes_lt hd _ hx

/-- Counting on from `i` by an integer, around `n` places. -/
theorem add_toNat_emod (i : Nat) (y : Int) {n : Nat} (hn : 0 < n) :
    (i + (y % n).toNat) % n = ((i + y) % n).toNat := by
  have hy : 0 ≤ y % n := Int.emod_nonneg y (by omega)
  have hsum : 0 ≤ (i + y) % n := Int.emod_nonneg _ (by omega)
  apply Int.ofNat.inj
  show (((i + (y % n).toNat) % n : Nat) : Int) = (((i + y) % n).toNat : Int)
  rw [Int.toNat_of_nonneg hsum, Int.natCast_emod, Int.natCast_add, Int.toNat_of_nonneg hy,
    Int.add_emod_emod]

theorem toNat_emod_lt (y : Int) {n : Nat} (hn : 0 < n) : (y % n).toNat < n := by
  have hlt : y % n < n := Int.emod_lt_of_pos y (by omega)
  omega

theorem digit_rotate (r : Radix) {x i : Nat} (hx : x < r.limit) (y : Int) (hi : i < r.digits) :
    r.digit (r.rotate x y) i = r.digit x ((i + y) % r.digits).toNat := by
  have hd : 0 < r.digits := by omega
  have hplace := toNat_emod_lt (i + y) hd
  have hdigit := r.getElem?_toDigits (r.rotate x y) hi
  rw [rotate, r.toDigits_rotateTimes hd _ hx, List.getElem?_rotate (by simpa using hi),
    length_toDigits] at hdigit
  rw [show y.emod r.digits = y % r.digits from rfl, add_toNat_emod i y hd,
    r.getElem?_toDigits x hplace] at hdigit
  exact (Option.some.inj hdigit).symm

theorem rotate_rotate (r : Radix) (hd : 0 < r.digits) {x : Nat} (hx : x < r.limit) (y z : Int) :
    r.rotate (r.rotate x y) z = r.rotate x (y + z) := by
  have hy := r.rotate_lt hd hx y
  apply r.eq_of_digits (r.rotate_lt hd hy z) (r.rotate_lt hd hx (y + z))
  intro i hi
  have hnonneg : 0 ≤ ((i : Int) + z) % r.digits := Int.emod_nonneg _ (by omega)
  have hplace : ((i : Int) + z) % r.digits < r.digits := Int.emod_lt_of_pos _ (by omega)
  rw [r.digit_rotate hy z hi, r.digit_rotate hx y (by omega), r.digit_rotate hx (y + z) hi,
    Int.toNat_of_nonneg hnonneg, Int.emod_add_emod, Int.add_assoc, Int.add_comm z y]

theorem rotate_of_dvd (r : Radix) (hd : 0 < r.digits) {x : Nat} (hx : x < r.limit) {y : Int}
    (hy : (r.digits : Int) ∣ y) : r.rotate x y = x := by
  apply r.eq_of_digits (r.rotate_lt hd hx y) hx
  intro i hi
  have hplace : ((i : Int) + y) % r.digits = i := by
    rw [Int.add_emod, Int.emod_eq_zero_of_dvd hy, Int.add_zero, Int.emod_emod_of_dvd _ (dvd_refl _)]
    exact Int.emod_eq_of_lt (by omega) (by omega)
  rw [r.digit_rotate hx y hi, hplace, Int.toNat_natCast]

theorem checkedRotate_int (r : Radix) {x : Nat} (hx : x < r.limit) (y : Int) :
    r.checkedRotate (.int x) (.int y) = .ok (r.rotate x y) := by
  unfold checkedRotate
  rw [r.check_word _ x hx, ok_bind]

/-- **Rotation is a cyclic shift.** Rotating a word right by any integer `y` gives a word, and digit
`i` of it is digit `i + y` of the old one, counted around. So turns add up, a full turn changes
nothing, and turning back undoes a turn. -/
theorem rotation_is_cyclic (r : Radix) (hd : 1 ≤ r.digits) (x : Nat) (hx : x < r.limit)
    (y z : Int) :
    ∃ w, r.checkedRotate (.int x) (.int y) = .ok w ∧ w < r.limit ∧
      (∀ i < r.digits, r.digit w i = r.digit x ((i + y) % r.digits).toNat) ∧
      r.checkedRotate (.int w) (.int z) = r.checkedRotate (.int x) (.int (y + z)) ∧
      r.checkedRotate (.int x) (.int r.digits) = .ok x ∧
      r.checkedRotate (.int w) (.int (-y)) = .ok x := by
  have hw := r.rotate_lt hd hx y
  refine ⟨r.rotate x y, r.checkedRotate_int hx y, hw, fun i hi => r.digit_rotate hx y hi, ?_, ?_,
    ?_⟩
  · rw [r.checkedRotate_int hw, r.checkedRotate_int hx, r.rotate_rotate hd hx]
  · rw [r.checkedRotate_int hx, r.rotate_of_dvd hd hx (dvd_refl _)]
  · rw [r.checkedRotate_int hw, r.rotate_rotate hd hx, Int.add_right_neg,
      r.rotate_of_dvd hd hx (dvd_zero _)]

/-- Three decimal digits, turned left five times and back. -/
theorem rotation_is_cyclic_leftwards :
    checkedRotate ⟨10, 3⟩ (.int 120) (.int (-5)) = .ok 12 ∧
      checkedRotate ⟨10, 3⟩ (.int 12) (.int 5) = .ok 120 := by
  obtain ⟨w, hw, -, -, -, -, hback⟩ := rotation_is_cyclic ⟨10, 3⟩ (by decide) 120 (by decide) (-5) 0
  have hturned : checkedRotate ⟨10, 3⟩ (.int 120) (.int (-5)) = .ok 12 := by rfl
  obtain rfl : 12 = w := Except.ok.inj (hturned.symm.trans hw)
  exact ⟨hturned, hback⟩

/-! ## Laws of the difference -/

theorem subtract_zero (r : Radix) (hb : 0 < r.base) {x : Nat} (hx : x < r.limit) :
    r.subtract x 0 = x := by
  apply r.eq_of_digits (r.subtract_lt hb x 0) hx
  intro i hi
  rw [r.digit_subtract hb x 0 hi, digit_of_zero, r.digitDifference_zero (r.digit_lt hb x i)]

theorem subtract_self (r : Radix) (hb : 0 < r.base) {x : Nat} (hx : x < r.limit) :
    r.subtract x x = 0 := by
  apply r.eq_of_digits (r.subtract_lt hb x x) (by omega)
  intro i hi
  rw [r.digit_subtract hb x x hi, digit_of_zero, r.digitDifference_self (r.digit_lt hb x i)]

theorem subtract_subtract_self (r : Radix) (hb : 0 < r.base) (x : Nat) {y : Nat}
    (hy : y < r.limit) : r.subtract x (r.subtract x y) = y := by
  apply r.eq_of_digits (r.subtract_lt hb x _) hy
  intro i hi
  rw [r.digit_subtract hb x _ hi, r.digit_subtract hb x y hi,
    r.digitDifference_twice (r.digit_lt hb x i) (r.digit_lt hb y i)]

theorem subtract_exchange (r : Radix) (hb : 0 < r.base) (x y z : Nat) :
    r.subtract (r.subtract x y) z = r.subtract (r.subtract x z) y := by
  apply r.eq_of_digits (r.subtract_lt hb _ z) (r.subtract_lt hb _ y)
  intro i hi
  rw [r.digit_subtract hb _ z hi, r.digit_subtract hb x y hi, r.digit_subtract hb _ y hi,
    r.digit_subtract hb x z hi,
    r.digitDifference_exchange (r.digit_lt hb x i) (r.digit_lt hb y i) (r.digit_lt hb z i)]

theorem rotate_subtract (r : Radix) (hb : 0 < r.base) (hd : 0 < r.digits) {x y : Nat}
    (hx : x < r.limit) (hy : y < r.limit) (k : Int) :
    r.rotate (r.subtract x y) k = r.subtract (r.rotate x k) (r.rotate y k) := by
  have hxy := r.subtract_lt hb x y
  apply r.eq_of_digits (r.rotate_lt hd hxy k) (r.subtract_lt hb _ _)
  intro i hi
  have hplace := toNat_emod_lt (i + k) hd
  rw [r.digit_rotate hxy k hi, r.digit_subtract hb x y hplace, r.digit_subtract hb _ _ hi,
    r.digit_rotate hx k hi, r.digit_rotate hy k hi]

/-- **Laws of the digitwise difference.** It leads from words to words. Taking away zero changes
nothing, and a word less itself is zero. Taking away the difference gives what was taken away, two
words may be taken away in either order, and the difference of rotated words is the rotated
difference. -/
theorem difference_laws (r : Radix) (hb : 2 ≤ r.base) (hd : 1 ≤ r.digits) (x y z : Nat)
    (hx : x < r.limit) (hy : y < r.limit) (hz : z < r.limit) (k : Int) :
    ∃ d, r.checkedSubtract (.int x) (.int y) = .ok d ∧ d < r.limit ∧
      r.checkedSubtract (.int x) (.int 0) = .ok x ∧
      r.checkedSubtract (.int x) (.int x) = .ok 0 ∧
      r.checkedSubtract (.int x) (.int d) = .ok y ∧
      (∃ e w, r.checkedSubtract (.int x) (.int z) = .ok e ∧
        r.checkedSubtract (.int d) (.int z) = .ok w ∧
        r.checkedSubtract (.int e) (.int y) = .ok w) ∧
      ∃ x' y' w, r.checkedRotate (.int x) (.int k) = .ok x' ∧
        r.checkedRotate (.int y) (.int k) = .ok y' ∧
        r.checkedRotate (.int d) (.int k) = .ok w ∧
        r.checkedSubtract (.int x') (.int y') = .ok w := by
  have hbase : 0 < r.base := by omega
  have hxy := r.subtract_lt hbase x y
  have hxz := r.subtract_lt hbase x z
  refine ⟨_, r.checkedSubtract_word x y hx hy, hxy, ?_, ?_, ?_, ?_, ?_⟩
  · have hzero := r.checkedSubtract_word x 0 hx (by omega)
    rwa [r.subtract_zero hbase hx] at hzero
  · rw [r.checkedSubtract_word x x hx hx, r.subtract_self hbase hx]
  · rw [r.checkedSubtract_word x _ hx hxy, r.subtract_subtract_self hbase x hy]
  · refine ⟨_, _, r.checkedSubtract_word x z hx hz, r.checkedSubtract_word _ z hxy hz, ?_⟩
    rw [r.checkedSubtract_word _ y hxz hy, r.subtract_exchange hbase x y z]
  · refine ⟨_, _, _, r.checkedRotate_int hx k, r.checkedRotate_int hy k, r.checkedRotate_int hxy k,
      ?_⟩
    rw [r.checkedSubtract_word _ _ (r.rotate_lt hd hx k) (r.rotate_lt hd hy k),
      r.rotate_subtract hbase hd hx hy k]

/-- Three decimal digits, each smaller than the one taken away from it. -/
theorem difference_laws_decimal :
    checkedSubtract ⟨10, 3⟩ (.int 120) (.int 345) = .ok 885 ∧
      checkedSubtract ⟨10, 3⟩ (.int 120) (.int 885) = .ok 345 := by
  obtain ⟨d, hd, -, -, -, hback, -⟩ :=
    difference_laws ⟨10, 3⟩ (by decide) (by decide) 120 345 999 (by decide) (by decide) (by decide)
      (-1)
  have hdifference : checkedSubtract ⟨10, 3⟩ (.int 120) (.int 345) = .ok 885 := by rfl
  obtain rfl : 885 = d := Except.ok.inj (hdifference.symm.trans hd)
  exact ⟨hdifference, hback⟩

end Dis.Radix
