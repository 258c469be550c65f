import Mathlib.Data.UInt

namespace XorFold

/-!
# Folding words with exclusive or

`xorFold x f n` is `x ^ f 0 ^ … ^ f (n - 1)`, the running value of an XOR checksum.

* `xorFold_add` — a fold over `m + n` words is one over `m` words followed by one over `n`;
* `xorFold_xor` — the start value can be taken out;
* `xorFold_update` — what replacing one word does to the fold;
* `xorFold_of_zero` — where the fold over `n` words is zero, the fold over `w` words is that
  of the words between the two lengths, and zero exactly when that is;
* `xorFold_diff`, `xorFold_neighbours` — the folds of two contents, and of contents that differ in
  two neighbours;
* `xorFold_perm` — the order of the words does not matter.
-/

/-- The value after folding the words `f 0`, …, `f (n - 1)` into `x`. -/
def xorFold (x : UInt32) (f : Nat → UInt32) : Nat → UInt32
  | 0     => x
  | n + 1 => xorFold x f n ^^^ f n

@[simp] theorem xorFold_zero (x : UInt32) (f : Nat → UInt32) : xorFold x f 0 = x := rfl

theorem xorFold_succ (x : UInt32) (f : Nat → UInt32) (n : Nat) :
    xorFold x f (n + 1) = xorFold x f n ^^^ f n := rfl

/-- Words that agree fold to the same value. -/
theorem xorFold_congr {x : UInt32} {f g : Nat → UInt32} {n : Nat} (h : ∀ i < n, f i = g i) :
    xorFold x f n = xorFold x g n := by
  induction n with
  | zero => rfl
  | succ n ih =>
    rw [xorFold_succ, xorFold_succ, ih fun i hi => h i (by omega), h n (by omega)]

/-- **Two parts.**  The fold over `m + n` words goes on after the first `m`. -/
theorem xorFold_add (x : UInt32) (f : Nat → UInt32) (m n : Nat) :
    xorFold x f (m + n) = xorFold (xorFold x f m) (fun i => f (m + i)) n := by
  induction n with
  | zero => rfl
  | succ n ih => rw [← Nat.add_assoc, xorFold_succ, xorFold_succ, ih]

/-- **The start value** can be taken out of a fold. -/
theorem xorFold_xor (x y : UInt32) (f : Nat → UInt32) (n : Nat) :
    xorFold (x ^^^ y) f n = x ^^^ xorFold y f n := by
  induction n with
  | zero => rfl
  | succ n ih => rw [xorFold_succ, xorFold_succ, ih, UInt32.xor_assoc]

/-- A fold from any start is that start and the fold from zero. -/
theorem xorFold_start (x : UInt32) (f : Nat → UInt32) (n : Nat) :
    xorFold x f n = x ^^^ xorFold 0 f n := by
  rw [← xorFold_xor, UInt32.xor_zero]

/-- **One word replaced.**  The fold changes by the old and the new word. -/
theorem xorFold_update (x : UInt32) (f : Nat → UInt32) {i n : Nat} (h : i < n) (v : UInt32) :
    xorFold x (Function.update f i v) n = xorFold x f n ^^^ (f i ^^^ v) := by
  induction n with
  | zero => omega
  | succ n ih =>
    rw [xorFold_succ, xorFold_succ]
    rcases Nat.lt_succ_iff_lt_or_eq.mp h with hlt | rfl
    · have hne : n ≠ i := by omega
      rw [ih hlt, Function.update_of_ne hne, UInt32.xor_assoc, UInt32.xor_comm _ (f n),
        ← UInt32.xor_assoc]
    · -- the replaced word is the last one
      have hbefore : xorFold x (Function.update f i v) i = xorFold x f i := by
        apply xorFold_congr
        intro j hj
        exact Function.update_of_ne (by omega) _ _
      rw [hbefore, Function.update_self, UInt32.xor_assoc, ← UInt32.xor_assoc (f i),
        UInt32.xor_self, UInt32.zero_xor]

/-- The words from `m` up to `n`, folded from zero. -/
def xorBetween (f : Nat → UInt32) (m n : Nat) : UInt32 := xorFold 0 (fun i => f (m + i)) (n - m)

/-- The fold goes on from `m` to `n`. -/
theorem xorFold_le (x : UInt32) (f : Nat → UInt32) {m n : Nat} (h : m ≤ n) :
    xorFold x f n = xorFold x f m ^^^ xorBetween f m n := by
  obtain ⟨k, rfl⟩ := Nat.exists_eq_add_of_le h
  rw [xorFold_add, xorFold_start, xorBetween, Nat.add_sub_cancel_left]

/-- **Two lengths.**  Where the fold over `n` words is zero, the fold over `w` words is the
    fold of the words between the two lengths. -/
theorem xorFold_of_zero {x : UInt32} {f : Nat → UInt32} {n : Nat} (h : xorFold x f n = 0)
    (w : Nat) : xorFold x f w = xorBetween f (min w n) (max w n) := by
  rcases Nat.le_total w n with hwn | hnw
  · rw [Nat.min_eq_left hwn, Nat.max_eq_right hwn, ← UInt32.xor_eq_zero_iff,
      ← xorFold_le x f hwn, h]
  · rw [Nat.min_eq_right hnw, Nat.max_eq_left hnw, xorFold_le x f hnw, h, UInt32.zero_xor]

/-- It is zero exactly when these are. -/
theorem xorFold_eq_zero_iff {x : UInt32} {f : Nat → UInt32} {n : Nat} (h : xorFold x f n = 0)
    (w : Nat) : xorFold x f w = 0 ↔ xorBetween f (min w n) (max w n) = 0 := by
  rw [xorFold_of_zero h w]

/-- **Two contents.**  Their folds differ by the fold of the differences. -/
theorem xorFold_diff (x : UInt32) (f g : Nat → UInt32) (n : Nat) :
    xorFold x f n ^^^ xorFold x g n = xorFold 0 (fun i => f i ^^^ g i) n := by
  induction n with
  | zero => exact UInt32.xor_self
  | succ n ih =>
    rw [xorFold_succ, xorFold_succ, xorFold_succ, ← ih, UInt32.xor_assoc,
      ← UInt32.xor_assoc (f n), UInt32.xor_comm (f n), UInt32.xor_assoc _ (f n), ← UInt32.xor_assoc]

/-- The fold of words that are zero but for two neighbours. -/
theorem xorFold_neighbours {f : Nat → UInt32} {q n : Nat}
    (h : ∀ i < n, i ≠ q → i ≠ q + 1 → f i = 0) :
    xorFold 0 f n = (if q < n then f q else 0) ^^^ (if q + 1 < n then f (q + 1) else 0) := by
  induction n with
  | zero => rw [xorFold_zero, if_neg (by omega), if_neg (by omega), UInt32.xor_self]
  | succ n ih =>
    rw [xorFold_succ, ih fun i hi => h i (by omega)]
    by_cases hq : n = q
    · subst hq
      rw [if_neg (by omega), if_neg (by omega), if_pos (by omega), if_neg (by omega),
        UInt32.xor_zero, UInt32.zero_xor, UInt32.xor_zero]
    · by_cases hq' : n = q + 1
      · subst hq'
        rw [if_pos (by omega), if_neg (by omega), if_pos (by omega), if_pos (by omega),
          UInt32.xor_zero]
      · rw [h n (by omega) hq hq', UInt32.xor_zero,
          if_congr (show q < n ↔ q < n + 1 by omega) rfl rfl,
          if_congr (show q + 1 < n ↔ q + 1 < n + 1 by omega) rfl rfl]

/-- A fold over the list of the words. -/
theorem xorFold_foldl (x : UInt32) (f : Nat → UInt32) (n : Nat) :
    xorFold x f n = ((List.range n).map f).foldl (· ^^^ ·) x := by
  induction n with
  | zero => rfl
  | succ n ih => rw [xorFold_succ, ih, List.range_succ, List.map_append, List.foldl_append]; rfl

/-- **The order** of the words does not matter. -/
theorem xorFold_perm (x : UInt32) {f g : Nat → UInt32} {n : Nat}
    (h : ((List.range n).map g).Perm ((List.range n).map f)) : xorFold x g n = xorFold x f n := by
  have hcomm : RightCommutative (fun a b : UInt32 => a ^^^ b) :=
    ⟨fun a b c => by rw [UInt32.xor_assoc, UInt32.xor_comm b, ← UInt32.xor_assoc]⟩
  rw [xorFold_foldl, xorFold_foldl]
  exact h.foldl_eq x

end XorFold
