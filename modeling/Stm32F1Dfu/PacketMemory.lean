import Stm32F1Dfu.Lib.LittleEndian
import Mathlib.Logic.Function.Basic

namespace Stm32F1Dfu

open LittleEndian

/-!
# The packet memory area

The packet memory as the processor sees it through a `uint16_t` pointer: logical word
`k` of a buffer at local address `base` is slot `base + 2 * k`, and the odd slots are not
used (`PMA_WORD`).

`copyToPm` and `copyFromPm` are `st_usbfs_copy_to_pm` and `st_usbfs_copy_from_pm` with
their unrolled loops.  `copyToPm_eq` and `copyFromPm_eq` give their effect in closed form
(`pmImage`, `pmByte`), which is also what the peripheral stores and sends; the two are
inverse (`pmByte_pmImage`).  The unrolled loops are the plain ones (`copyToPm_plain`,
`copyFromPm_plain`), and `copyRoutines_inverse` puts the two routines together.
-/

/-- `st_usbfs_copy_to_pm` up to the odd byte: two words a round, then the single one.
    Returns the memory, `src` (as an offset) and `idx`. -/
def copyToPmWords (pm : Nat → UInt16) (base : Nat) (buf : Nat → UInt8) (src idx : Nat) :
    Nat → (Nat → UInt16) × Nat × Nat
  | words + 2 =>
      let w0 := half (buf src) (buf (src + 1))
      let w1 := half (buf (src + 2)) (buf (src + 3))
      let pm := Function.update pm (base + 2 * idx) w0
      let pm := Function.update pm (base + 2 * (idx + 1)) w1
      copyToPmWords pm base buf (src + 4) (idx + 2) words
  | 1 =>
      (Function.update pm (base + 2 * idx) (half (buf src) (buf (src + 1))), src + 2, idx + 1)
  | 0 => (pm, src, idx)

/-- `st_usbfs_copy_to_pm`. -/
def copyToPm (pm : Nat → UInt16) (vPM : Nat) (buf : Nat → UInt8) (len : Nat) :
    Nat → UInt16 :=
  if len = 0 then pm
  else
    let (pm, src, idx) := copyToPmWords pm vPM buf 0 0 (len / 2)
    if len % 2 = 1 then Function.update pm (vPM + 2 * idx) (buf src).toUInt16 else pm

/-- A `uint16_t` store at half-word `i` of a byte buffer. -/
def storeHalf (buf : Nat → UInt8) (i : Nat) (w : UInt16) : Nat → UInt8 :=
  Function.update (Function.update buf (2 * i) w.toUInt8) (2 * i + 1) (w >>> 8).toUInt8

/-- `st_usbfs_copy_from_pm` up to the odd byte.  Returns the buffer, `dst` (in
    half-words) and `idx`. -/
def copyFromPmWords (buf : Nat → UInt8) (pm : Nat → UInt16) (base dst idx : Nat) :
    Nat → (Nat → UInt8) × Nat × Nat
  | words + 2 =>
      let w0 := pm (base + 2 * idx)
      let w1 := pm (base + 2 * (idx + 1))
      copyFromPmWords (storeHalf (storeHalf buf dst w0) (dst + 1) w1) pm base (dst + 2)
        (idx + 2) words
  | 1 => (storeHalf buf dst (pm (base + 2 * idx)), dst + 1, idx + 1)
  | 0 => (buf, dst, idx)

/-- `st_usbfs_copy_from_pm`. -/
def copyFromPm (buf : Nat → UInt8) (pm : Nat → UInt16) (vPM len : Nat) : Nat → UInt8 :=
  let (buf, dst, idx) := copyFromPmWords buf pm vPM 0 0 (len / 2)
  if len % 2 = 1 then Function.update buf (2 * dst) (pm (vPM + 2 * idx)).toUInt8 else buf

/-! ### Closed forms -/

/-- Logical word `k` of a buffer of `len` bytes: an odd last byte has a zero high byte. -/
def packWord (buf : Nat → UInt8) (len k : Nat) : UInt16 :=
  if 2 * k + 1 < len then half (buf (2 * k)) (buf (2 * k + 1)) else (buf (2 * k)).toUInt16

/-- The packet memory with the `len` bytes of `buf` at `base`. -/
def pmImage (pm : Nat → UInt16) (base : Nat) (buf : Nat → UInt8) (len : Nat) :
    Nat → UInt16 :=
  fun s => if base ≤ s ∧ (s - base) % 2 = 0 ∧ s - base < len
    then packWord buf len ((s - base) / 2) else pm s

/-- Byte `i` of the buffer at `base`. -/
def pmByte (pm : Nat → UInt16) (base i : Nat) : UInt8 :=
  if i % 2 = 0 then (pm (base + 2 * (i / 2))).toUInt8
  else (pm (base + 2 * (i / 2)) >>> 8).toUInt8

/-- The word loop stores the words from `idx` on and nothing else. -/
theorem copyToPmWords_spec (base : Nat) (buf : Nat → UInt8) (words : Nat) :
    ∀ (pm : Nat → UInt16) (idx : Nat),
      copyToPmWords pm base buf (2 * idx) idx words
        = (fun s => if base + 2 * idx ≤ s ∧ (s - base) % 2 = 0 ∧ s < base + 2 * (idx + words)
            then half (buf (s - base)) (buf (s - base + 1)) else pm s,
           2 * (idx + words), idx + words) := by
  induction words using Nat.twoStepInduction with
  | zero =>
    intro pm idx
    simp only [copyToPmWords, Nat.add_zero, Prod.mk.injEq, and_true]
    funext s
    rw [if_neg (by omega)]
  | one =>
    intro pm idx
    simp only [copyToPmWords, Prod.mk.injEq, and_true]
    refine ⟨?_, by omega⟩
    funext s
    by_cases hs : s = base + 2 * idx
    · subst hs
      rw [Function.update_self, if_pos (by omega)]
      congr 2 <;> omega
    · rw [Function.update_of_ne hs, if_neg (by omega)]
  | more words ih _ =>
    intro pm idx
    have hsrc : 2 * idx + 4 = 2 * (idx + 2) := by omega
    simp only [copyToPmWords]
    rw [hsrc, ih]
    simp only [Prod.mk.injEq]
    refine ⟨?_, by omega, by omega⟩
    funext s
    by_cases hin : base + 2 * (idx + 2) ≤ s ∧ (s - base) % 2 = 0
        ∧ s < base + 2 * (idx + 2 + words)
    · rw [if_pos hin, if_pos (by omega)]
    · rw [if_neg hin]
      by_cases h1 : s = base + 2 * (idx + 1)
      · subst h1
        rw [Function.update_self, if_pos (by omega)]
        congr 2 <;> omega
      · rw [Function.update_of_ne h1]
        by_cases h0 : s = base + 2 * idx
        · subst h0
          rw [Function.update_self, if_pos (by omega)]
          congr 2 <;> omega
        · rw [Function.update_of_ne h0, if_neg (by omega)]

/-- **`st_usbfs_copy_to_pm` in closed form.** -/
theorem copyToPm_eq (pm : Nat → UInt16) (base : Nat) (buf : Nat → UInt8) (len : Nat) :
    copyToPm pm base buf len = pmImage pm base buf len := by
  funext s
  unfold copyToPm
  by_cases h0 : len = 0
  · simp [h0, pmImage]
  · have hwords := copyToPmWords_spec base buf (len / 2) pm 0
    simp only [Nat.mul_zero] at hwords
    simp only [h0, if_false, hwords, pmImage, packWord]
    have heven (k : Nat) (hk : k % 2 = 0) : 2 * (k / 2) = k := by omega
    -- an odd last byte has a slot of its own, behind the words
    by_cases hodd : len % 2 = 1
    · rw [if_pos hodd]
      by_cases hs : s = base + 2 * (0 + len / 2)
      · subst hs
        rw [Function.update_self, if_pos (by omega), if_neg (by omega)]
        congr 2
        omega
      · rw [Function.update_of_ne hs]
        by_cases hin : base ≤ s ∧ (s - base) % 2 = 0 ∧ s - base < len
        · rw [if_pos hin, if_pos (by omega), if_pos (by omega), heven _ hin.2.1]
        · rw [if_neg hin, if_neg (by omega)]
    · rw [if_neg hodd]
      by_cases hin : base ≤ s ∧ (s - base) % 2 = 0 ∧ s - base < len
      · rw [if_pos hin, if_pos (by omega), if_pos (by omega), heven _ hin.2.1]
      · rw [if_neg hin, if_neg (by omega)]

/-- A stored half-word, byte by byte. -/
theorem storeHalf_apply (buf : Nat → UInt8) (i : Nat) (w : UInt16) (j : Nat) :
    storeHalf buf i w j
      = if j / 2 = i then (if j % 2 = 0 then w.toUInt8 else (w >>> 8).toUInt8) else buf j := by
  unfold storeHalf
  by_cases h1 : j = 2 * i + 1
  · subst h1
    rw [Function.update_self, if_pos (by omega), if_neg (by omega)]
  · rw [Function.update_of_ne h1]
    by_cases h0 : j = 2 * i
    · subst h0
      rw [Function.update_self, if_pos (by omega), if_pos (by omega)]
    · rw [Function.update_of_ne h0, if_neg (by omega)]

/-- The word loop fills the bytes of the words from `idx` on and nothing else. -/
theorem copyFromPmWords_spec (pm : Nat → UInt16) (base : Nat) (words : Nat) :
    ∀ (buf : Nat → UInt8) (idx : Nat),
      copyFromPmWords buf pm base idx idx words
        = (fun j => if 2 * idx ≤ j ∧ j < 2 * (idx + words) then pmByte pm base j else buf j,
           idx + words, idx + words) := by
  induction words using Nat.twoStepInduction with
  | zero =>
    intro buf idx
    simp only [copyFromPmWords, Nat.add_zero, Prod.mk.injEq, and_true]
    funext j
    rw [if_neg (by omega)]
  | one =>
    intro buf idx
    simp only [copyFromPmWords, Prod.mk.injEq, and_true]
    funext j
    rw [storeHalf_apply]
    by_cases hj : j / 2 = idx
    · rw [if_pos hj, if_pos (by omega : 2 * idx ≤ j ∧ j < 2 * (idx + 1)), pmByte, hj]
    · rw [if_neg hj, if_neg (by omega)]
  | more words ih _ =>
    intro buf idx
    simp only [copyFromPmWords]
    rw [ih]
    simp only [Prod.mk.injEq]
    refine ⟨?_, by omega, by omega⟩
    -- the bytes of the later rounds, then those of the two words of this one
    funext j
    by_cases hin : 2 * (idx + 2) ≤ j ∧ j < 2 * (idx + 2 + words)
    · rw [if_pos hin, if_pos (by omega)]
    · rw [if_neg hin, storeHalf_apply, storeHalf_apply]
      by_cases h1 : j / 2 = idx + 1
      · have hout : 2 * idx ≤ j ∧ j < 2 * (idx + (words + 2)) := by omega
        rw [if_pos h1, if_pos hout, pmByte, h1]
      · rw [if_neg h1]
        by_cases h0 : j / 2 = idx
        · have hout : 2 * idx ≤ j ∧ j < 2 * (idx + (words + 2)) := by omega
          rw [if_pos h0, if_pos hout, pmByte, h0]
        · rw [if_neg h0, if_neg (by omega)]

/-- **`st_usbfs_copy_from_pm` in closed form.** -/
theorem copyFromPm_eq (buf : Nat → UInt8) (pm : Nat → UInt16) (base len : Nat) :
    copyFromPm buf pm base len = fun j => if j < len then pmByte pm base j else buf j := by
  funext j
  have hwords := copyFromPmWords_spec pm base (len / 2) buf 0
  simp only [copyFromPm, hwords]
  -- an odd last byte goes where the words end
  by_cases hodd : len % 2 = 1
  · rw [if_pos hodd]
    by_cases hj : j = 2 * (0 + len / 2)
    · subst hj
      rw [Function.update_self, if_pos (by omega), pmByte, if_pos (by omega)]
      congr 3
      omega
    · rw [Function.update_of_ne hj]
      by_cases hlt : j < len
      · rw [if_pos hlt, if_pos (by omega)]
      · rw [if_neg hlt, if_neg (by omega)]
  · rw [if_neg hodd]
    by_cases hlt : j < len
    · rw [if_pos hlt, if_pos (by omega)]
    · rw [if_neg hlt, if_neg (by omega)]

/-- **Round trip.**  The bytes put into the packet memory are read back. -/
theorem pmByte_pmImage (pm : Nat → UInt16) (base : Nat) (buf : Nat → UInt8) {len i : Nat}
    (hi : i < len) : pmByte (pmImage pm base buf len) base i = buf i := by
  have hslot : pmImage pm base buf len (base + 2 * (i / 2)) = packWord buf len (i / 2) := by
    rw [pmImage, if_pos (by omega)]
    congr 1
    omega
  simp only [pmByte, hslot, packWord]
  -- the low byte of the slot, or the high one, which an odd last byte does not have
  obtain hr | hr : i = 2 * (i / 2) ∨ i = 2 * (i / 2) + 1 := by omega
  · rw [if_pos (by omega)]
    split
    · rw [half_low, ← hr]
    · rw [UInt8.toUInt8_toUInt16, ← hr]
  · rw [if_neg (by omega), if_pos (by omega), half_high, ← hr]

/-- A slot outside the buffer keeps its value. -/
theorem pmImage_of_not_mem {pm : Nat → UInt16} {base : Nat} {buf : Nat → UInt8}
    {len s : Nat} (h : s < base ∨ base + len ≤ s) : pmImage pm base buf len s = pm s :=
  if_neg (by omega)

/-! ### The plain loops -/

/-- One word a round into the packet memory. -/
def plainToPmWords (pm : Nat → UInt16) (base : Nat) (buf : Nat → UInt8) (src idx : Nat) :
    Nat → (Nat → UInt16) × Nat × Nat
  | words + 1 =>
      plainToPmWords (Function.update pm (base + 2 * idx) (half (buf src) (buf (src + 1)))) base
        buf (src + 2) (idx + 1) words
  | 0 => (pm, src, idx)

/-- Into the packet memory by the plain loop. -/
def plainToPm (pm : Nat → UInt16) (base : Nat) (buf : Nat → UInt8) (len : Nat) :
    Nat → UInt16 :=
  let (pm, src, idx) := plainToPmWords pm base buf 0 0 (len / 2)
  if len % 2 = 1 then Function.update pm (base + 2 * idx) (buf src).toUInt16 else pm

/-- One word a round out of the packet memory. -/
def plainFromPmWords (buf : Nat → UInt8) (pm : Nat → UInt16) (base dst idx : Nat) :
    Nat → (Nat → UInt8) × Nat × Nat
  | words + 1 =>
      plainFromPmWords (storeHalf buf dst (pm (base + 2 * idx))) pm base (dst + 1) (idx + 1) words
  | 0 => (buf, dst, idx)

/-- Out of the packet memory by the plain loop. -/
def plainFromPm (buf : Nat → UInt8) (pm : Nat → UInt16) (base len : Nat) : Nat → UInt8 :=
  let (buf, dst, idx) := plainFromPmWords buf pm base 0 0 (len / 2)
  if len % 2 = 1 then Function.update buf (2 * dst) (pm (base + 2 * idx)).toUInt8 else buf

/-- Two plain rounds are one unrolled round. -/
theorem copyToPmWords_plain (base : Nat) (buf : Nat → UInt8) (words : Nat) :
    ∀ (pm : Nat → UInt16) (src idx : Nat),
      copyToPmWords pm base buf src idx words = plainToPmWords pm base buf src idx words := by
  induction words using Nat.twoStepInduction with
  | zero =>
    intro pm src idx
    rfl
  | one =>
    intro pm src idx
    rfl
  | more words ih _ =>
    intro pm src idx
    simp only [copyToPmWords, plainToPmWords]
    exact ih _ _ _

theorem copyFromPmWords_plain (pm : Nat → UInt16) (base : Nat) (words : Nat) :
    ∀ (buf : Nat → UInt8) (dst idx : Nat),
      copyFromPmWords buf pm base dst idx words = plainFromPmWords buf pm base dst idx words := by
  induction words using Nat.twoStepInduction with
  | zero =>
    intro buf dst idx
    rfl
  | one =>
    intro buf dst idx
    rfl
  | more words ih _ =>
    intro buf dst idx
    simp only [copyFromPmWords, plainFromPmWords]
    exact ih _ _ _

theorem copyToPm_plain (pm : Nat → UInt16) (base : Nat) (buf : Nat → UInt8) (len : Nat) :
    copyToPm pm base buf len = plainToPm pm base buf len := by
  unfold copyToPm plainToPm
  by_cases h0 : len = 0
  · -- the early return: the plain loop makes no round either
    subst h0
    rfl
  · rw [if_neg h0, copyToPmWords_plain]

theorem copyFromPm_plain (buf : Nat → UInt8) (pm : Nat → UInt16) (base len : Nat) :
    copyFromPm buf pm base len = plainFromPm buf pm base len := by
  unfold copyFromPm plainFromPm
  rw [copyFromPmWords_plain]

/-! ### The two routines together -/

/-- The slot of word `i`, whole or odd. -/
theorem pmImage_slot (pm : Nat → UInt16) (base : Nat) (buf : Nat → UInt8) {len i : Nat}
    (h : 2 * i < len) : pmImage pm base buf len (base + 2 * i) = packWord buf len i := by
  rw [pmImage, if_pos (by omega)]
  congr 1
  omega

/-- A slot that holds no word of the buffer keeps its value. -/
theorem pmImage_frame {pm : Nat → UInt16} {base : Nat} {buf : Nat → UInt8} {len s : Nat}
    (h : ∀ i, 2 * i < len → s ≠ base + 2 * i) : pmImage pm base buf len s = pm s := by
  apply if_neg
  rintro ⟨hbase, heven, hlt⟩
  exact h ((s - base) / 2) (by omega) (by omega)

/-- **The copy routines.**  Into the packet memory go the words of the buffer, the odd last
    byte with a zero high byte, and nothing else; out of it come exactly these bytes; and
    both are the plain loops. -/
theorem copyRoutines_inverse (pm : Nat → UInt16) (base : Nat) (buf : Nat → UInt8) (len : Nat) :
    (∀ i < len / 2, (copyToPm pm base buf len (base + 2 * i)).toNat
        = (buf (2 * i)).toNat + 256 * (buf (2 * i + 1)).toNat)
      ∧ (len % 2 = 1 → (copyToPm pm base buf len (base + 2 * (len / 2))).toNat
        = (buf (len - 1)).toNat)
      ∧ (∀ s, (∀ i, 2 * i < len → s ≠ base + 2 * i) → copyToPm pm base buf len s = pm s)
      ∧ (∀ dst j, copyFromPm dst (copyToPm pm base buf len) base len j
        = if j < len then buf j else dst j)
      ∧ copyToPm pm base buf len = plainToPm pm base buf len
      ∧ ∀ dst pm', copyFromPm dst pm' base len = plainFromPm dst pm' base len := by
  refine ⟨?_, ?_, ?_, ?_, copyToPm_plain pm base buf len,
    fun dst pm' => copyFromPm_plain dst pm' base len⟩
  · intro i hi
    rw [copyToPm_eq, pmImage_slot _ _ _ (by omega), packWord, if_pos (by omega), half_toNat]
  · intro hodd
    rw [copyToPm_eq, pmImage_slot _ _ _ (by omega), packWord, if_neg (by omega)]
    have hlast : 2 * (len / 2) = len - 1 := by omega
    rw [hlast, UInt8.toNat_toUInt16]
  · intro s hs
    rw [copyToPm_eq, pmImage_frame hs]
  · intro dst j
    rw [copyFromPm_eq, copyToPm_eq]
    show (if j < len then _ else _) = _
    by_cases hj : j < len
    · rw [if_pos hj, if_pos hj, pmByte_pmImage _ _ _ hj]
    · rw [if_neg hj, if_neg hj]

end Stm32F1Dfu
