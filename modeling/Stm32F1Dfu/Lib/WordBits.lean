import Mathlib.Data.Nat.Bitwise

namespace WordBits

/-!
# Bits of 32-bit words

What the operators of C on `uint32_t` do to single bits, and flags that are set and cleared under
a mask.

* `testBit_not32`, `testBit_shl32`, `testBit_shr32` — the operators, bit by bit;
* `and_one_shl32_ne_zero` — the test of one bit;
* `set_clear`, `set_and`, `clear_and` — flags under a mask: a flag set and cleared again, and what
  this does to the flags of another mask.
-/

/-! ### Single bits -/

theorem testBit_not32 (x : UInt32) {n : Nat} (hn : n < 32) :
    (~~~x).toNat.testBit n = !x.toNat.testBit n := by
  have hnot : (~~~x).toNat = 2 ^ 32 - (x.toNat + 1) := by
    rw [UInt32.toNat_not, UInt32.size]
    omega
  rw [hnot, Nat.testBit_two_pow_sub_succ x.toNat_lt, decide_eq_true hn, Bool.true_and]

theorem testBit_shl32 (x : UInt32) {k : UInt32} (hk : k.toNat < 32) {n : Nat} (hn : n < 32) :
    (x <<< k).toNat.testBit n = (decide (k.toNat ≤ n) && x.toNat.testBit (n - k.toNat)) := by
  rw [UInt32.toNat_shiftLeft, Nat.mod_eq_of_lt hk, Nat.testBit_mod_two_pow, decide_eq_true hn,
    Bool.true_and, Nat.testBit_shiftLeft]

theorem testBit_shr32 (x : UInt32) {k : UInt32} (hk : k.toNat < 32) (n : Nat) :
    (x >>> k).toNat.testBit n = x.toNat.testBit (n + k.toNat) := by
  rw [UInt32.toNat_shiftRight, Nat.mod_eq_of_lt hk, Nat.testBit_shiftRight, Nat.add_comm]

/-- A single bit. -/
theorem testBit_one_shl32 {k : UInt32} (hk : k.toNat < 32) {n : Nat} (hn : n < 32) :
    ((1 : UInt32) <<< k).toNat.testBit n = decide (n = k.toNat) := by
  rw [testBit_shl32 1 hk hn, show (1 : UInt32).toNat = 2 ^ 0 from rfl, Nat.testBit_two_pow,
    ← Bool.decide_and]
  exact decide_eq_decide.mpr (by omega)

/-- The test of a single bit. -/
theorem and_one_shl32_ne_zero (x : UInt32) {k : UInt32} (hk : k.toNat < 32) :
    x &&& ((1 : UInt32) <<< k) ≠ 0 ↔ x.toNat.testBit k.toNat = true := by
  have hone : ((1 : UInt32) <<< k).toNat = 2 ^ k.toNat := by
    have hlt : 2 ^ k.toNat < 2 ^ 32 := Nat.pow_lt_pow_right (by omega) hk
    rw [UInt32.toNat_shiftLeft, Nat.mod_eq_of_lt hk, show (1 : UInt32).toNat = 1 from rfl,
      Nat.one_shiftLeft, Nat.mod_eq_of_lt hlt]
  have hand :
      (x &&& ((1 : UInt32) <<< k)).toNat = (x.toNat.testBit k.toNat).toNat * 2 ^ k.toNat := by
    rw [UInt32.toNat_and, hone, Nat.and_two_pow]
  rw [ne_eq, ← UInt32.toNat_inj, hand]
  cases x.toNat.testBit k.toNat with
  | true => simp
  | false => simp

/-! ### Flags under a mask -/

/-- Words are equal when their bits are. -/
theorem ext32 {x y : UInt32} (h : ∀ n < 32, x.toNat.testBit n = y.toNat.testBit n) : x = y := by
  rw [← UInt32.toNat_inj]
  refine Nat.eq_of_testBit_eq fun n => ?_
  by_cases hn : n < 32
  · exact h n hn
  · have hpow : 2 ^ 32 ≤ 2 ^ n := Nat.pow_le_pow_right (by decide) (by omega)
    rw [Nat.testBit_lt_two_pow (Nat.lt_of_lt_of_le x.toNat_lt hpow),
      Nat.testBit_lt_two_pow (Nat.lt_of_lt_of_le y.toNat_lt hpow)]

/-- No flag of the mask: every bit of it is off. -/
theorem and_eq_zero_iff {x m : UInt32} :
    x &&& m = 0 ↔ ∀ n < 32, x.toNat.testBit n = true → m.toNat.testBit n = false := by
  constructor
  · intro h n _ hx
    have hbit : (x &&& m).toNat.testBit n = false := by rw [h]; exact Nat.zero_testBit n
    rwa [UInt32.toNat_and, Nat.testBit_and, hx, Bool.true_and] at hbit
  · intro h
    refine ext32 fun n hn => ?_
    rw [UInt32.toNat_and, Nat.testBit_and, UInt32.toNat_zero, Nat.zero_testBit]
    cases hx : x.toNat.testBit n with
    | true => rw [h n hn hx, Bool.true_and]
    | false => rw [Bool.false_and]

/-- A flag that was off, set and cleared again. -/
theorem set_clear {x m : UInt32} (h : x &&& m = 0) : (x ||| m) &&& ~~~m = x := by
  refine ext32 fun n hn => ?_
  rw [UInt32.toNat_and, Nat.testBit_and, UInt32.toNat_or, Nat.testBit_or, testBit_not32 m hn]
  cases hx : x.toNat.testBit n with
  | true => rw [and_eq_zero_iff.mp h n hn hx]; rfl
  | false => cases m.toNat.testBit n <;> rfl

/-- A flag that is off stays off when it is cleared. -/
theorem clear_of_off {x m : UInt32} (h : x &&& m = 0) : x &&& ~~~m = x := by
  refine ext32 fun n hn => ?_
  rw [UInt32.toNat_and, Nat.testBit_and, testBit_not32 m hn]
  cases hx : x.toNat.testBit n with
  | true => rw [and_eq_zero_iff.mp h n hn hx]; rfl
  | false => rfl

/-- A flag that is set is on. -/
theorem set_and_self (x m : UInt32) : (x ||| m) &&& m = m := by
  refine ext32 fun n _ => ?_
  rw [UInt32.toNat_and, Nat.testBit_and, UInt32.toNat_or, Nat.testBit_or]
  cases x.toNat.testBit n <;> cases m.toNat.testBit n <;> rfl

/-- A flag that is cleared is off. -/
theorem clear_and_self (x m : UInt32) : x &&& ~~~m &&& m = 0 := by
  rw [UInt32.and_assoc, UInt32.not_and_self, UInt32.and_zero]

/-- Setting a flag of another mask. -/
theorem set_and {x m k : UInt32} (h : m &&& k = 0) : (x ||| m) &&& k = x &&& k := by
  refine ext32 fun n hn => ?_
  rw [UInt32.toNat_and, Nat.testBit_and, UInt32.toNat_or, Nat.testBit_or, UInt32.toNat_and,
    Nat.testBit_and]
  cases hm : m.toNat.testBit n with
  | true => rw [and_eq_zero_iff.mp h n hn hm, Bool.and_false, Bool.and_false]
  | false => rw [Bool.or_false]

/-- Clearing a flag of another mask. -/
theorem clear_and {x m k : UInt32} (h : m &&& k = 0) : (x &&& ~~~m) &&& k = x &&& k := by
  refine ext32 fun n hn => ?_
  rw [UInt32.toNat_and, Nat.testBit_and, UInt32.toNat_and, Nat.testBit_and, testBit_not32 m hn,
    UInt32.toNat_and, Nat.testBit_and]
  cases hm : m.toNat.testBit n with
  | true => rw [and_eq_zero_iff.mp h n hn hm, Bool.and_false, Bool.and_false]
  | false => rw [Bool.not_false, Bool.and_true]

end WordBits
