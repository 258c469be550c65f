import Mathlib.Data.Nat.Bitwise

namespace LittleEndian

/-!
# Little-endian half-words and words

`half` and `word` assemble bytes the way C code does, with shifts and `|`.  The lemmas
give their value as a number, the bytes they were assembled from (`half_low`,
`half_high`), the bytes of a word put back together (`word_bytes`) and the all-ones
value, which is what an erased flash cell reads as (`half_eq_ones`, `word_eq_ones`).
-/

/-- The half-word whose low byte is `b0`. -/
def half (b0 b1 : UInt8) : UInt16 := b0.toUInt16 ||| (b1.toUInt16 <<< 8)

/-- The word whose lowest byte is `b0`. -/
def word (b0 b1 b2 b3 : UInt8) : UInt32 :=
  b0.toUInt32 ||| (b1.toUInt32 <<< 8) ||| (b2.toUInt32 <<< 16) ||| (b3.toUInt32 <<< 24)

/-- A number below `2 ^ i` sits below a number shifted up by `i`: `|` adds them. -/
theorem or_shiftLeft {a b i : Nat} (h : a < 2 ^ i) : a ||| (b <<< i) = a + b <<< i := by
  rw [Nat.or_comm, ← Nat.shiftLeft_add_eq_or_of_lt h, Nat.add_comm]

/-- The value of an assembled half-word. -/
theorem half_toNat (b0 b1 : UInt8) : (half b0 b1).toNat = b0.toNat + 256 * b1.toNat := by
  have h0 : b0.toNat < 2 ^ 8 := b0.toNat_lt
  have h1 : b1.toNat < 2 ^ 8 := b1.toNat_lt
  simp only [half, UInt16.toNat_or, UInt8.toNat_toUInt16, UInt16.toNat_shiftLeft,
    UInt16.reduceToNat, Nat.reduceMod]
  rw [Nat.mod_eq_of_lt (by rw [Nat.shiftLeft_eq]; omega), or_shiftLeft h0, Nat.shiftLeft_eq]
  omega

/-- The value of an assembled word. -/
theorem word_toNat (b0 b1 b2 b3 : UInt8) :
    (word b0 b1 b2 b3).toNat
      = b0.toNat + 256 * b1.toNat + 65536 * b2.toNat + 16777216 * b3.toNat := by
  have h0 : b0.toNat < 2 ^ 8 := b0.toNat_lt
  have h1 : b1.toNat < 2 ^ 8 := b1.toNat_lt
  have h2 : b2.toNat < 2 ^ 8 := b2.toNat_lt
  have h3 : b3.toNat < 2 ^ 8 := b3.toNat_lt
  simp only [word, UInt32.toNat_or, UInt8.toNat_toUInt32, UInt32.toNat_shiftLeft,
    UInt32.reduceToNat, Nat.reduceMod]
  have e1 : b1.toNat <<< 8 % 2 ^ 32 = b1.toNat <<< 8 :=
    Nat.mod_eq_of_lt (by rw [Nat.shiftLeft_eq]; omega)
  have e2 : b2.toNat <<< 16 % 2 ^ 32 = b2.toNat <<< 16 :=
    Nat.mod_eq_of_lt (by rw [Nat.shiftLeft_eq]; omega)
  have e3 : b3.toNat <<< 24 % 2 ^ 32 = b3.toNat <<< 24 :=
    Nat.mod_eq_of_lt (by rw [Nat.shiftLeft_eq]; omega)
  -- from the lowest byte up, each `|` adds a byte above what is already there
  rw [e1, e2, e3, or_shiftLeft h0]
  simp only [Nat.shiftLeft_eq b1.toNat]
  rw [or_shiftLeft (by omega : b0.toNat + b1.toNat * 2 ^ 8 < 2 ^ 16)]
  simp only [Nat.shiftLeft_eq b2.toNat]
  rw [or_shiftLeft (by omega : b0.toNat + b1.toNat * 2 ^ 8 + b2.toNat * 2 ^ 16 < 2 ^ 24),
    Nat.shiftLeft_eq]
  omega

/-- The low byte of an assembled half-word. -/
@[simp] theorem half_low (b0 b1 : UInt8) : (half b0 b1).toUInt8 = b0 := by
  apply UInt8.toNat_inj.mp
  have h0 := b0.toNat_lt
  rw [UInt16.toNat_toUInt8, half_toNat]
  omega

/-- The high byte of an assembled half-word. -/
@[simp] theorem half_high (b0 b1 : UInt8) : (half b0 b1 >>> 8).toUInt8 = b1 := by
  apply UInt8.toNat_inj.mp
  have h0 := b0.toNat_lt
  have h1 := b1.toNat_lt
  simp only [UInt16.toNat_toUInt8, UInt16.toNat_shiftRight, UInt16.reduceToNat, Nat.reduceMod,
    half_toNat, Nat.shiftRight_eq_div_pow]
  omega

/-- Assembling is one to one on half-words. -/
theorem half_inj {a0 a1 b0 b1 : UInt8} : half a0 a1 = half b0 b1 ↔ a0 = b0 ∧ a1 = b1 := by
  constructor
  · intro h
    exact ⟨by simpa using congrArg UInt16.toUInt8 h,
      by simpa using congrArg (fun v : UInt16 => (v >>> 8).toUInt8) h⟩
  · rintro ⟨rfl, rfl⟩
    rfl

/-- Assembling is one to one on words. -/
theorem word_inj {a0 a1 a2 a3 b0 b1 b2 b3 : UInt8} :
    word a0 a1 a2 a3 = word b0 b1 b2 b3 ↔ a0 = b0 ∧ a1 = b1 ∧ a2 = b2 ∧ a3 = b3 := by
  have ha0 := a0.toNat_lt; have ha1 := a1.toNat_lt
  have ha2 := a2.toNat_lt; have ha3 := a3.toNat_lt
  have hb0 := b0.toNat_lt; have hb1 := b1.toNat_lt
  have hb2 := b2.toNat_lt; have hb3 := b3.toNat_lt
  simp only [← UInt32.toNat_inj, ← UInt8.toNat_inj, word_toNat]
  omega

/-- A half-word is all ones when both its bytes are. -/
theorem half_eq_ones {b0 b1 : UInt8} : half b0 b1 = 0xFFFF ↔ b0 = 0xFF ∧ b1 = 0xFF :=
  @half_inj b0 b1 0xFF 0xFF

/-- A word is all ones when its four bytes are. -/
theorem word_eq_ones {b0 b1 b2 b3 : UInt8} :
    word b0 b1 b2 b3 = 0xFFFFFFFF ↔ b0 = 0xFF ∧ b1 = 0xFF ∧ b2 = 0xFF ∧ b3 = 0xFF :=
  @word_inj b0 b1 b2 b3 0xFF 0xFF 0xFF 0xFF

/-- The two bytes of a half-word, assembled, are the half-word. -/
theorem half_bytes (w : UInt16) : half w.toUInt8 (w >>> 8).toUInt8 = w := by
  apply UInt16.toNat_inj.mp
  have hw := w.toNat_lt
  simp only [half_toNat, UInt16.toNat_toUInt8, UInt16.toNat_shiftRight, UInt16.reduceToNat,
    Nat.reduceMod, Nat.shiftRight_eq_div_pow]
  omega

/-- The four bytes of a word, assembled, are the word. -/
theorem word_bytes (w : UInt32) :
    word w.toUInt8 (w >>> 8).toUInt8 (w >>> 16).toUInt8 (w >>> 24).toUInt8 = w := by
  apply UInt32.toNat_inj.mp
  have hw := w.toNat_lt
  simp only [word_toNat, UInt32.toNat_toUInt8, UInt32.toNat_shiftRight, UInt32.reduceToNat,
    Nat.reduceMod, Nat.shiftRight_eq_div_pow]
  omega

end LittleEndian
