import Stm32F1Dfu.Corruption
import Stm32F1Dfu.Lib.WordBits

namespace Stm32F1Dfu

open LittleEndian WordBits XorFold

/-!
# What the checksum sees of an error

The bits of the application as they lie in the flash, the lowest of each byte first.

* `appWord_testBit` — the bits of a word;
* `burst_refused` — an error within 32 bits, wherever they begin, is always noticed;
* `reordered_accepted` — the order of the words never is.
-/

/-- Bit `k` of the application. -/
def appBit (m : UInt32 → UInt8) (k : Nat) : Bool :=
  (m (startAddr + UInt32.ofNat (k / 8))).toNat.testBit (k % 8)

/-- The bits of an assembled word. -/
theorem word_testBit (b : Nat → UInt8) {n : Nat} (hn : n < 32) :
    (word (b 0) (b 1) (b 2) (b 3)).toNat.testBit n = (b (n / 8)).toNat.testBit (n % 8) := by
  have hlt (i : Nat) : (b i).toNat < 2 ^ 8 := (b i).toNat_lt
  -- byte by byte, from the lowest up
  have hvalue : (word (b 0) (b 1) (b 2) (b 3)).toNat
      = 2 ^ 8 * (2 ^ 8 * (2 ^ 8 * (b 3).toNat + (b 2).toNat) + (b 1).toNat) + (b 0).toNat := by
    rw [word_toNat]
    omega
  rw [hvalue, Nat.testBit_two_pow_mul_add _ (hlt 0)]
  split
  · rw [show n / 8 = 0 by omega, show n % 8 = n by omega]
  · rw [Nat.testBit_two_pow_mul_add _ (hlt 1)]
    split
    · rw [show n / 8 = 1 by omega, show n % 8 = n - 8 by omega]
    · rw [Nat.testBit_two_pow_mul_add _ (hlt 2)]
      split
      · rw [show n / 8 = 2 by omega, show n % 8 = n - 8 - 8 by omega]
      · rw [show n / 8 = 3 by omega, show n % 8 = n - 8 - 8 - 8 by omega]

/-- The bits of a word of the application. -/
theorem appWord_testBit (m : UInt32 → UInt8) (i : Nat) {n : Nat} (hn : n < 32) :
    (appWord m i).toNat.testBit n = appBit m (32 * i + n) := by
  have hoff (j : Nat) : startAddr + 4 * UInt32.ofNat i + UInt32.ofNat j
      = startAddr + UInt32.ofNat (4 * i + j) := windowByte startAddr i j
  rw [appWord_of_bytes (fun j => m (startAddr + UInt32.ofNat (4 * i + j)))
    fun j _ => by rw [hoff], word_testBit (fun j => m (startAddr + UInt32.ofNat (4 * i + j))) hn]
  simp only [appBit]
  rw [show (32 * i + n) / 8 = 4 * i + n / 8 by omega, show (32 * i + n) % 8 = n % 8 by omega]

/-- Words with the same bits. -/
theorem appWord_congr {m m' : UInt32 → UInt8} {i : Nat}
    (h : ∀ n < 32, appBit m' (32 * i + n) = appBit m (32 * i + n)) : appWord m' i = appWord m i :=
  ext32 fun n hn => by rw [appWord_testBit m' i hn, appWord_testBit m i hn, h n hn]

/-- Words that cancel, one in the bits from `r` on and one in the bits below. -/
theorem eq_zero_of_apart {x y : UInt32} (h : x ^^^ y = 0) {r : Nat}
    (hx : ∀ j < 32, x.toNat.testBit j = true → r ≤ j)
    (hy : ∀ j < 32, y.toNat.testBit j = true → j < r) : x = 0 := by
  obtain rfl := UInt32.xor_eq_zero_iff.mp h
  refine ext32 fun j hj => ?_
  rw [UInt32.toNat_zero, Nat.zero_testBit, ← Bool.not_eq_true]
  intro hbit
  have hge := hx j hj hbit
  have hlt := hy j hj hbit
  omega

/-- Two applications that differ within 32 bits, and whose differences fold to zero, have the same
    words: the first word they differ in would differ in its high bits, the second in its low
    ones. -/
theorem burst_words {m m' : UInt32 → UInt8} {n p : Nat} (hn : n ≤ 30720)
    (hsame : ∀ k < 32 * 30720, k < p ∨ p + 32 ≤ k → appBit m' k = appBit m k)
    (hfold : xorFold 0 (fun i => appWord m' i ^^^ appWord m i) n = 0) :
    ∀ i < n, appWord m' i = appWord m i := by
  have hother : ∀ i < n, i ≠ p / 32 → i ≠ p / 32 + 1 → appWord m' i ^^^ appWord m i = 0 := by
    intro i hi hq hq'
    rw [appWord_congr fun j hj => hsame _ (by omega) (by omega), UInt32.xor_self]
  rw [xorFold_neighbours hother] at hfold
  have hbit {i j : Nat} (hi : i < n) (hj : j < 32)
      (hset : (appWord m' i ^^^ appWord m i).toNat.testBit j = true) :
      p ≤ 32 * i + j ∧ 32 * i + j < p + 32 := by
    by_contra hout
    rw [UInt32.toNat_xor, Nat.testBit_xor, appWord_testBit m' _ hj, appWord_testBit m _ hj,
      hsame _ (by omega) (by omega), Bool.xor_self] at hset
    exact Bool.false_ne_true hset
  intro i hi
  by_cases hq : p / 32 < n
  · rw [if_pos hq] at hfold
    have hzero := eq_zero_of_apart (r := p % 32) hfold
      (fun j hj hset => by have := hbit hq hj hset; omega) (by
        intro j hj hset
        split at hset
        · rename_i hq'
          have := hbit hq' hj hset
          omega
        · rw [UInt32.toNat_zero, Nat.zero_testBit] at hset
          exact absurd hset Bool.false_ne_true)
    rw [hzero, UInt32.zero_xor] at hfold
    by_cases hi₁ : i = p / 32
    · rw [hi₁]
      exact UInt32.xor_eq_zero_iff.mp hzero
    · by_cases hi₂ : i = p / 32 + 1
      · rw [hi₂] at hi ⊢
        rw [if_pos hi] at hfold
        exact UInt32.xor_eq_zero_iff.mp hfold
      · exact UInt32.xor_eq_zero_iff.mp (hother i hi hi₁ hi₂)
  · exact UInt32.xor_eq_zero_iff.mp (hother i hi (by omega) (by omega))

/-- **A burst.**  Where the boot decision passes, a flash that differs within 32 bits of the
    application, wherever they begin, is refused, if the size word is the same and one of the bits
    that differ is among those counted. -/
theorem burst_refused (m m' : UInt32 → UInt8) (hgate : bootGate m = true) (p : Nat)
    (hsame : ∀ k < 32 * 30720, k < p ∨ p + 32 ≤ k → appBit m' k = appBit m k)
    (hsize : imagesize m' = imagesize m)
    (hdiff : ∃ k < 32 * (imagesize m).toNat, appBit m' k ≠ appBit m k) : bootGate m' = false := by
  rw [Bool.eq_false_iff]
  intro hgate'
  obtain ⟨hle, -, hsum⟩ := (bootGate_iff m).mp hgate
  obtain ⟨-, -, hsum'⟩ := (bootGate_iff m').mp hgate'
  rw [show appWord m' 8 = appWord m 8 from hsize] at hsum'
  have hn : (appWord m 8).toNat = (imagesize m).toNat := rfl
  rw [hn] at hle hsum hsum'
  have hfold : xorFold 0 (fun i => appWord m' i ^^^ appWord m i) (imagesize m).toNat = 0 := by
    rw [← xorFold_diff, hsum, hsum', UInt32.xor_self]
  obtain ⟨k, hk, hne⟩ := hdiff
  apply hne
  have hword := burst_words hle hsame hfold (k / 32) (by omega)
  have hlast := appWord_testBit m' (k / 32) (n := k % 32) (by omega)
  rw [hword, appWord_testBit m (k / 32) (by omega), show 32 * (k / 32) + k % 32 = k by omega]
    at hlast
  exact hlast.symm

/-- The twelve words with four bytes changed, from the middle of a word on. -/
def burstWords : UInt32 → UInt8 := fun b =>
  if appAddress.toNat + 38 ≤ b.toNat ∧ b.toNat < appAddress.toNat + 42 then twelveWords b ^^^ 0x5A
  else twelveWords b

theorem burst_refused_twelveWords : bootGate burstWords = false := by
  refine burst_refused twelveWords burstWords (by decide +kernel) (8 * 38) ?_ (by decide +kernel)
    ⟨8 * 38 + 1, by decide +kernel, by decide +kernel⟩
  intro k hlt hk
  have haddr : (startAddr + UInt32.ofNat (k / 8)).toNat = appAddress.toNat + k / 8 :=
    toNat_add_ofNat (by rw [startAddr_toNat]; omega)
  have hsame : burstWords (startAddr + UInt32.ofNat (k / 8))
      = twelveWords (startAddr + UInt32.ofNat (k / 8)) := by
    rw [burstWords, haddr, if_neg (by omega)]
  rw [appBit, appBit, hsame]

/-- **The order of the words** is not noticed: a flash whose counted words are those of another in
    another order is accepted exactly when that one is, if the first word and the size word are in
    their places. -/
theorem reordered_accepted (m m' : UInt32 → UInt8) (hsize : imagesize m' = imagesize m)
    (hfirst : appWord m' 0 = appWord m 0)
    (hperm : ((List.range (imagesize m).toNat).map (appWord m')).Perm
      ((List.range (imagesize m).toNat).map (appWord m))) : bootGate m' = bootGate m := by
  have hsum : xorFold checksumXorStart (appWord m') (appWord m 8).toNat
      = xorFold checksumXorStart (appWord m) (appWord m 8).toNat := xorFold_perm _ hperm
  rw [Bool.eq_iff_iff, bootGate_iff, bootGate_iff, hfirst,
    show appWord m' 8 = appWord m 8 from hsize, hsum]

/-- The twelve words with the last two of those that matter in each other's place. -/
def swappedWords : UInt32 → UInt8 :=
  replaceWord (replaceWord twelveWords 9 6) 10 0x94DC0FE4

theorem reordered_accepted_twelveWords : bootGate swappedWords = bootGate twelveWords :=
  reordered_accepted twelveWords swappedWords (by decide +kernel) (by decide +kernel)
    (by decide +kernel)

end Stm32F1Dfu
