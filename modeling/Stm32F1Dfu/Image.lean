import Stm32F1Dfu.Streaming

namespace Stm32F1Dfu

open LittleEndian XorFold

/-!
# The image in the SRAM and its validation

* `headerChecksum_iff` — the streamed checksum over the SRAM is the fold of the image's words;
* `sramHasValidImage_iff` — what a valid image is;
* `sramHasValidImage_exact` — the same on the bytes of the SRAM, in natural numbers only.
-/

/-! ### The header -/

/-- The header in the first twelve bytes of the SRAM. -/
def Store.header (s : Store) : SramImageHeader where
  magic := word (s.sram 0) (s.sram 1) (s.sram 2) (s.sram 3)
  offset := word (s.sram 4) (s.sram 5) (s.sram 6) (s.sram 7)
  size := word (s.sram 8) (s.sram 9) (s.sram 10) (s.sram 11)

theorem readHeader_eq (s : Store) : readHeader s = some s.header := by
  unfold readHeader spiSramRead
  rw [if_neg (by decide)]
  rfl

@[simp] theorem sramLe32_eq (v : UInt32) : sramLe32 v = v := word_bytes v

/-- The SRAM delivers its bytes, at their address modulo its size. -/
theorem spiSramRead_delivers (s : Store) :
    Delivers (spiSramRead s) fun a => s.sram (a % sramSize) := by
  intro addr len hlen
  exact ⟨_, if_neg hlen, fun i _ => rfl⟩

/-- `img_offset`. -/
def Store.imgOffset (s : Store) : Nat := s.header.offset.toNat
/-- `img_size`. -/
def Store.imgSize (s : Store) : Nat := s.header.size.toNat

/-- Byte `i` of the image. -/
def Store.imageByte (s : Store) (i : Nat) : UInt8 := s.sram (s.imgOffset + i)

/-- Word `i` of the image. -/
def Store.imageWord (s : Store) (i : Nat) : UInt32 := memWord s.sram s.imgOffset i

/-- A valid image, in natural numbers. -/
structure ValidImage (s : Store) : Prop where
  magic : s.header.magic = sramImageMagic
  size_pos : 0 < s.imgSize
  size_words : s.imgSize % 4 = 0
  offset_ge : 12 ≤ s.imgOffset
  size_le : s.imgSize ≤ 122880
  fits : s.imgOffset + s.imgSize ≤ 122892
  checksum : xorFold checksumXorStart s.imageWord (s.imgSize / 4) = 0

/-- Inside the SRAM the address need not be reduced. -/
theorem memWord_sram {s : Store} {start i : Nat} (h : start + 4 * i + 4 ≤ sramSize) :
    memWord (fun a => s.sram (a % sramSize)) start i = memWord s.sram start i := by
  have hmod (k : Nat) (hk : k < 4) :
      (start + 4 * i + k) % sramSize = start + 4 * i + k := Nat.mod_eq_of_lt (by omega)
  have h0 := hmod 0 (by omega)
  simp only [Nat.add_zero] at h0
  simp only [memWord]
  rw [h0, hmod 1 (by omega), hmod 2 (by omega), hmod 3 (by omega)]

/-- The bounds that `sram_has_valid_image` computes, as numbers. -/
theorem header_end_toNat : (sramImageHeaderOffset + sizeofHeader).toNat = 12 := by decide
theorem max_bytes_toNat : (flashBootldrPayloadSizeKb * 1024).toNat = 122880 := by decide
theorem max_end_toNat :
    (sramImageHeaderOffset + sizeofHeader + flashBootldrPayloadSizeKb * 1024).toNat = 122892 := by
  decide

/-- The checksum test of a header whose range lies in the SRAM. -/
theorem headerChecksum_iff {s : Store} (h4 : s.imgSize % 4 = 0)
    (hfit : s.imgOffset + s.imgSize ≤ 122892) :
    (validateChecksumStream s.header.size.toNat (spiSramRead s) sramImageChunkBytes
        s.header.offset s.header.size == some true) = true
      ↔ xorFold checksumXorStart s.imageWord (s.imgSize / 4) = 0 := by
  have hfit' : s.header.offset.toNat + s.header.size.toNat ≤ 122892 := hfit
  rw [validateChecksumStream_eq (spiSramRead_delivers s) (by decide) (by decide) (Nat.le_refl _)
    h4 (by omega)]
  have hwords : xorFold checksumXorStart
        (memWord (fun a => s.sram (a % sramSize)) s.header.offset.toNat) (s.header.size.toNat / 4)
      = xorFold checksumXorStart s.imageWord (s.imgSize / 4) := by
    refine xorFold_congr fun i hi => memWord_sram ?_
    show _ ≤ 131072
    omega
  rw [hwords]
  simp

/-- **The validator** accepts exactly the valid images: no sum wraps. -/
theorem sramHasValidImage_iff (s : Store) : sramHasValidImage s = true ↔ ValidImage s := by
  have ho := s.header.offset.toNat_lt
  have hz := s.header.size.toNat_lt
  -- the sum is reduced, and the check before it rules out that this makes a difference
  have hsub : (0xFFFFFFFF - s.header.size).toNat = 2 ^ 32 - 1 - s.header.size.toNat :=
    UInt32.toNat_sub_of_le _ _ (UInt32.le_iff_toNat_le.mpr (by show _ ≤ 4294967295; omega))
  have hsum : (s.header.offset + s.header.size).toNat
      = (s.header.offset.toNat + s.header.size.toNat) % 2 ^ 32 := UInt32.toNat_add _ _
  unfold sramHasValidImage
  rw [readHeader_eq]
  simp only [sramLe32_eq, Bool.if_false_left, Bool.and_eq_true, Bool.not_eq_true',
    decide_eq_false_iff_not, ne_eq, not_not, and_three_eq_zero, gt_iff_lt,
    UInt32.lt_iff_toNat_lt, ← UInt32.toNat_inj (a := s.header.size) (b := 0), hsub, hsum,
    header_end_toNat, max_bytes_toNat, max_end_toNat]
  constructor
  · rintro ⟨hmagic, h0, h4, hge, hle, -, hno, hend, hsum⟩
    have h0 : s.header.size.toNat ≠ 0 := h0
    have hfit : s.imgOffset + s.imgSize ≤ 122892 := by
      show s.header.offset.toNat + s.header.size.toNat ≤ 122892
      omega
    refine ⟨hmagic, Nat.pos_of_ne_zero h0, h4, Nat.not_lt.mp hge, Nat.not_lt.mp hle, hfit, ?_⟩
    exact (headerChecksum_iff h4 hfit).mp hsum
  · rintro ⟨hmagic, hpos, h4, hge, hle, hfit, hsum⟩
    have hsum' := (headerChecksum_iff h4 hfit).mpr hsum
    have hpos : 0 < s.header.size.toNat := hpos
    have hge : 12 ≤ s.header.offset.toNat := hge
    have hle : s.header.size.toNat ≤ 122880 := hle
    have hfit : s.header.offset.toNat + s.header.size.toNat ≤ 122892 := hfit
    refine ⟨hmagic, ?_, h4, ?_, ?_, ?_, ?_, ?_, hsum'⟩
    · show ¬ s.header.size.toNat = 0
      omega
    all_goals omega

/-! ### In natural numbers -/

/-- The little-endian word at byte address `a` of the SRAM, as a number. -/
def Store.le32 (s : Store) (a : Nat) : Nat :=
  (s.sram a).toNat + 256 * (s.sram (a + 1)).toNat + 65536 * (s.sram (a + 2)).toNat
    + 16777216 * (s.sram (a + 3)).toNat

theorem Store.imageWord_toNat (s : Store) (i : Nat) :
    (s.imageWord i).toNat = s.le32 (s.imgOffset + 4 * i) := word_toNat _ _ _ _

/-- A fold of words, as numbers. -/
theorem xorFold_toNat (x : UInt32) (f : Nat → UInt32) (n : Nat) :
    (xorFold x f n).toNat = (List.range n).foldl (fun acc i => acc ^^^ (f i).toNat) x.toNat := by
  induction n with
  | zero => rfl
  | succ n ih =>
    rw [xorFold_succ, UInt32.toNat_xor, ih, List.range_succ, List.foldl_append]
    rfl

/-- **The validator, exactly.**  On the bytes of the SRAM as numbers, no sum reduced: the
    magic, a size of whole words that is not zero, an image behind the header that ends
    within the limit, and words that fold to zero.  The loop over the words ends. -/
theorem sramHasValidImage_exact (s : Store) :
    (sramHasValidImage s = true ↔
      s.le32 0 = 0x4D414253 ∧ 0 < s.le32 8 ∧ 4 ∣ s.le32 8 ∧ 12 ≤ s.le32 4
        ∧ s.le32 8 ≤ 122880 ∧ s.le32 4 + s.le32 8 ≤ 12 + 122880
        ∧ (List.range (s.le32 8 / 4)).foldl (fun acc i => acc ^^^ s.le32 (s.le32 4 + 4 * i))
            0xB4DC0FEE = 0)
      ∧ (4 ∣ s.le32 8 → s.le32 4 + s.le32 8 ≤ 12 + 122880 →
          ∃ b, validateChecksumStream s.header.size.toNat (spiSramRead s) sramImageChunkBytes
            s.header.offset s.header.size = some b) := by
  have hmagic : s.header.magic.toNat = s.le32 0 := word_toNat _ _ _ _
  have hoffset : s.imgOffset = s.le32 4 := word_toNat _ _ _ _
  have hsize : s.imgSize = s.le32 8 := word_toNat _ _ _ _
  have hwords (i : Nat) : (s.imageWord i).toNat = s.le32 (s.le32 4 + 4 * i) := by
    rw [Store.imageWord_toNat, hoffset]
  have hfold : xorFold checksumXorStart s.imageWord (s.imgSize / 4) = 0
      ↔ (List.range (s.le32 8 / 4)).foldl (fun acc i => acc ^^^ s.le32 (s.le32 4 + 4 * i))
          0xB4DC0FEE = 0 := by
    rw [← UInt32.toNat_inj, xorFold_toNat, hsize]
    simp only [hwords]
    rfl
  have hmagic' : s.header.magic = sramImageMagic ↔ s.le32 0 = 0x4D414253 := by
    rw [← UInt32.toNat_inj, hmagic]
    rfl
  constructor
  · rw [sramHasValidImage_iff, ← hfold, ← hmagic', ← hsize, ← hoffset]
    constructor
    · intro h
      exact ⟨h.magic, h.size_pos, Nat.dvd_of_mod_eq_zero h.size_words, h.offset_ge, h.size_le,
        h.fits, h.checksum⟩
    · rintro ⟨hm, hpos, h4, hge, hle, hfit, hsum⟩
      exact ⟨hm, hpos, Nat.mod_eq_zero_of_dvd h4, hge, hle, hfit, hsum⟩
  · -- a range within the limit is one that the loop can walk
    intro h4 hfit
    rw [← hsize] at h4 hfit
    rw [← hoffset] at hfit
    have hfit' : s.header.offset.toNat + s.header.size.toNat ≤ 12 + 122880 := hfit
    exact ⟨_, validateChecksumStream_eq (spiSramRead_delivers s) (by decide) (by decide)
      (Nat.le_refl _) (Nat.mod_eq_zero_of_dvd h4) (by omega)⟩

end Stm32F1Dfu
