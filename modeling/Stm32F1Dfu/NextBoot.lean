import Stm32F1Dfu.Update

namespace Stm32F1Dfu

open LittleEndian XorFold

/-!
# The boot after an update

The boot decision looks at the flash only; the validator of the update looks at the SRAM
header and the whole image.  What the two have to do with each other:

* `bootGate_tornFlash` — the boot decision on the flash after `k` half-words, in terms of
  the image and of what the flash held before;
* `tornBoots_whole_iff` — on the whole image it is a condition on the words between the two
  lengths;
* `next_boot_jumps_iff` — which images are booted once they are programmed.
-/

/-! ### The boot decision on a torn flash -/

/-- The flash after `k` half-words of the image, byte by byte: the bytes programmed, blank
    bytes to the end of the pages, and the previous contents. -/
def Store.tornFlash (s : Store) (k : Nat) (b : UInt32) : UInt8 :=
  if s.InPages b then
    if b.toNat - appAddress.toNat < 2 * k then s.imageByte (b.toNat - appAddress.toNat) else 0xFF
  else s.flash b

/-- The boot decision passes on the flash after `k` half-words: the size word is in and
    within its bound, the first word looks like a stack pointer, and the words up to the
    size word's count fold to zero. -/
structure TornBoots (s : Store) (k : Nat) : Prop where
  size_in : 36 ≤ 2 * k
  size_le : (s.imageWord 8).toNat ≤ 30720
  stack : s.imageWord 0 &&& 0x2FFE0000 = 0x20000000
  checksum : xorFold checksumXorStart (appWord (s.tornFlash k)) (s.imageWord 8).toNat = 0

instance (s : Store) (k : Nat) : Decidable (TornBoots s k) :=
  decidable_of_iff (36 ≤ 2 * k ∧ (s.imageWord 8).toNat ≤ 30720
      ∧ s.imageWord 0 &&& 0x2FFE0000 = 0x20000000
      ∧ xorFold checksumXorStart (appWord (s.tornFlash k)) (s.imageWord 8).toNat = 0)
    ⟨fun ⟨h1, h2, h3, h4⟩ => ⟨h1, h2, h3, h4⟩, fun ⟨h1, h2, h3, h4⟩ => ⟨h1, h2, h3, h4⟩⟩

theorem appWord_address {i : Nat} (hi : i < 30720) (j : Nat) (hj : j < 4) :
    (startAddr + 4 * UInt32.ofNat i + UInt32.ofNat j).toNat = appAddress.toNat + (4 * i + j) := by
  have h4 : (4 : UInt32) * UInt32.ofNat i = UInt32.ofNat (4 * i) := by
    rw [UInt32.ofNat_mul]
    rfl
  rw [h4, UInt32.add_assoc, ← UInt32.ofNat_add]
  exact toNat_add_ofNat (by rw [startAddr_toNat]; omega)

/-- A word of the application is assembled from the bytes at its offsets. -/
theorem appWord_of_bytes {m : UInt32 → UInt8} {i : Nat} (byte : Nat → UInt8)
    (h : ∀ j < 4, m (startAddr + 4 * UInt32.ofNat i + UInt32.ofNat j) = byte j) :
    appWord m i = word (byte 0) (byte 1) (byte 2) (byte 3) := by
  have h0 := h 0 (by omega)
  rw [show UInt32.ofNat 0 = 0 from rfl, UInt32.add_zero] at h0
  unfold appWord wordAt
  rw [h0, ← h 1 (by omega), ← h 2 (by omega), ← h 3 (by omega)]
  rfl

/-- A byte at an offset inside the pages of the image. -/
theorem tornFlash_appWord_byte {s : Store} (h : ValidImage s) (k : Nat) {i j : Nat} (hj : j < 4)
    (hi : 4 * i + 4 ≤ 1024 * pagesOf s.imgSize) :
    s.tornFlash k (startAddr + 4 * UInt32.ofNat i + UInt32.ofNat j)
      = if 4 * i + j < 2 * k then s.imageByte (4 * i + j) else 0xFF := by
  have hpages := h.pages.1
  have haddr := appWord_address (i := i) (by omega) j hj
  have hin : s.InPages (startAddr + 4 * UInt32.ofNat i + UInt32.ofNat j) := by
    rw [Store.InPages, haddr]
    omega
  rw [Store.tornFlash, if_pos hin, haddr, Nat.add_sub_cancel_left]

/-- A word that is wholly programmed is the image's. -/
theorem appWord_tornFlash {s : Store} (h : ValidImage s) {k i : Nat} (hk : 2 * k ≤ s.imgSize)
    (hi : 4 * i + 4 ≤ 2 * k) : appWord (s.tornFlash k) i = s.imageWord i := by
  obtain ⟨hpages, hsize⟩ := h.pages
  refine appWord_of_bytes (fun j => s.imageByte (4 * i + j)) fun j hj => ?_
  rw [tornFlash_appWord_byte h k hj (by omega), if_pos (by omega)]

/-- While the size word is not wholly programmed, it reads as more than any bound. -/
theorem imagesize_tornFlash {s : Store} (h : ValidImage s) {k : Nat} (hk : 2 * k < 36) :
    30720 < (appWord (s.tornFlash k) 8).toNat := by
  have hpos := h.size_pos
  have hpages : 1 ≤ pagesOf s.imgSize := by
    simp only [pagesOf]
    omega
  have hword := appWord_of_bytes (m := s.tornFlash k) (i := 8)
    (fun j => if 4 * 8 + j < 2 * k then s.imageByte (4 * 8 + j) else 0xFF)
    (fun j hj => tornFlash_appWord_byte h k hj (by omega))
  -- the two high bytes at least are blank
  simp only [if_neg (show ¬ 4 * 8 + 2 < 2 * k by omega),
    if_neg (show ¬ 4 * 8 + 3 < 2 * k by omega)] at hword
  rw [hword, word_toNat]
  have hff : (0xFF : UInt8).toNat = 255 := rfl
  omega

/-- **The boot decision** on the flash after `k` half-words. -/
theorem bootGate_tornFlash {s : Store} (h : ValidImage s) {k : Nat} (hk : 2 * k ≤ s.imgSize) :
    bootGate (s.tornFlash k) = true ↔ TornBoots s k := by
  have hsize : imagesize (s.tornFlash k) = appWord (s.tornFlash k) 8 := rfl
  have hfirst : wordAt (s.tornFlash k) appAddress = appWord (s.tornFlash k) 0 := rfl
  have hmax : (flashBootldrPayloadSizeKb * 1024 / 4).toNat = 30720 := by decide
  unfold bootGate validateChecksum
  rw [hsize, hfirst]
  simp only [Bool.and_eq_true, Bool.not_eq_true', decide_eq_false_iff_not, gt_iff_lt,
    UInt32.lt_iff_toNat_lt, hmax, beq_iff_eq, not_lt]
  by_cases hin : 36 ≤ 2 * k
  · rw [appWord_tornFlash h hk (by omega), appWord_tornFlash h hk (by omega)]
    constructor
    · rintro ⟨⟨hle, hstack⟩, hsum⟩
      exact ⟨hin, hle, hstack, hsum⟩
    · rintro ⟨-, hle, hstack, hsum⟩
      exact ⟨⟨hle, hstack⟩, hsum⟩
  · have hbig := imagesize_tornFlash h (k := k) (by omega)
    constructor
    · rintro ⟨⟨hle, -⟩, -⟩
      omega
    · intro hboots
      exact absurd hboots.size_in hin

/-! ### The boot after a whole update -/

/-- Power comes back: the flash is locked. -/
def Store.powerUp (s : Store) : Store := { s with locked := true }

@[simp] theorem Store.powerUp_flash (s : Store) : s.powerUp.flash = s.flash := rfl
@[simp] theorem Store.powerUp_sram (s : Store) : s.powerUp.sram = s.sram := rfl

/-- The header is cleared once the pages are erased. -/
theorem Store.programmed_cleared (s : Store) (k : Nat) :
    sramHasValidImage (s.programmed k).powerUp = false := by
  apply not_validImage_of_cleared
  rw [Store.powerUp_sram, Store.programmed_sram, Store.prepared_sram, if_pos (by omega)]

theorem Store.programmed_tornFlash {s : Store} (h : ValidImage s) {k : Nat}
    (hk : 2 * k ≤ s.imgSize) : (s.programmed k).flash = s.tornFlash k :=
  funext fun b => Store.programmed_flash h hk b

/-- The words that the application region holds after the update: the image, blank words to
    the end of its pages, and what was there before. -/
def Store.bootWord (s : Store) (i : Nat) : UInt32 :=
  if i < s.imgSize / 4 then s.imageWord i
  else if i < 256 * pagesOf s.imgSize then 0xFFFFFFFF
  else appWord s.flash i

theorem appWord_programmed {s : Store} (h : ValidImage s) {i : Nat} (hi : i < 30720) :
    appWord (s.tornFlash (s.imgSize / 2)) i = s.bootWord i := by
  have h4 := h.size_words
  unfold Store.bootWord
  by_cases himage : i < s.imgSize / 4
  · rw [if_pos himage, appWord_tornFlash h (by omega) (by omega)]
  rw [if_neg himage]
  by_cases hpage : i < 256 * pagesOf s.imgSize
  · -- behind the image, in its last page
    rw [if_pos hpage, appWord_of_bytes (fun _ => 0xFF) fun j hj => ?_]
    · rfl
    · rw [tornFlash_appWord_byte h _ hj (by omega), if_neg (by omega)]
  · -- past the pages of the image
    rw [if_neg hpage]
    apply wordAt_congr
    intro j hj
    have haddr := appWord_address hi j hj
    have hout : ¬ s.InPages (startAddr + 4 * UInt32.ofNat i + UInt32.ofNat j) := by
      rw [Store.InPages, haddr]
      omega
    exact if_neg hout

/-- The image is one that boots: its size word is in the image and within its bound, its
    first word looks like a stack pointer, and the words between the size word's count and
    the length of the image fold to zero. -/
structure BootsNext (s : Store) : Prop where
  size_in : 36 ≤ s.imgSize
  size_le : (s.imageWord 8).toNat ≤ 30720
  stack : s.imageWord 0 &&& 0x2FFE0000 = 0x20000000
  between : xorBetween s.bootWord (min (s.imageWord 8).toNat (s.imgSize / 4))
    (max (s.imageWord 8).toNat (s.imgSize / 4)) = 0

/-- On the whole image the boot decision is a condition on the words between the two
    lengths. -/
theorem tornBoots_whole_iff {s : Store} (h : ValidImage s) :
    TornBoots s (s.imgSize / 2) ↔ BootsNext s := by
  have h4 := h.size_words
  have hle := h.size_le
  have hword (i : Nat) (hi : i < 30720) :
      appWord (s.tornFlash (s.imgSize / 2)) i = s.bootWord i := appWord_programmed h hi
  have himage : xorFold checksumXorStart s.bootWord (s.imgSize / 4) = 0 := by
    rw [← h.checksum]
    exact xorFold_congr fun i hi => if_pos hi
  have hsum (hw : (s.imageWord 8).toNat ≤ 30720) :
      xorFold checksumXorStart (appWord (s.tornFlash (s.imgSize / 2))) (s.imageWord 8).toNat
        = xorFold checksumXorStart s.bootWord (s.imageWord 8).toNat :=
    xorFold_congr fun i hi => hword i (by omega)
  constructor
  · intro ht
    refine ⟨by have := ht.size_in; omega, ht.size_le, ht.stack, ?_⟩
    rw [← xorFold_eq_zero_iff himage, ← hsum ht.size_le]
    exact ht.checksum
  · intro hb
    refine ⟨by have := hb.size_in; omega, hb.size_le, hb.stack, ?_⟩
    rw [hsum hb.size_le, xorFold_eq_zero_iff himage]
    exact hb.between

/-- **The next boot.**  Once a valid image is programmed, the next boot without a DFU
    request jumps to it exactly when the image is one that boots. -/
theorem next_boot_jumps_iff (s : Store) (hvalid : sramHasValidImage s = true)
    (r r' : BootRequest) (hr' : r'.dfu = false) (fuel : Nat) (hfuel : 122880 ≤ fuel) :
    (∃ s₁ s₂, main fuel r s = some (.reset, s₁) ∧ main fuel r' s₁.powerUp = some (.jump, s₂))
      ↔ BootsNext s := by
  have h := (sramHasValidImage_iff s).mp hvalid
  have hwhole : 2 * (s.imgSize / 2) ≤ s.imgSize := by omega
  have hfirst := main_of_valid h r hfuel
  have hnext := main_of_invalid (s.programmed_cleared (s.imgSize / 2)) r' fuel
  rw [Store.powerUp_flash, Store.programmed_tornFlash h hwhole, hr'] at hnext
  rw [← tornBoots_whole_iff h, ← bootGate_tornFlash h hwhole]
  constructor
  · rintro ⟨s₁, s₂, h₁, h₂⟩
    rw [hfirst] at h₁
    cases h₁
    rw [hnext] at h₂
    by_contra hgate
    rw [Bool.not_eq_true] at hgate
    simp [hgate] at h₂
  · intro hgate
    refine ⟨_, (s.programmed (s.imgSize / 2)).powerUp, hfirst, ?_⟩
    rw [hnext, hgate]
    rfl

/-- An image of eleven words with a stack pointer, a checksum that comes out and a size word
    that counts all of them. -/
def elevenWords : Store :=
  imageStore (fun _ => 0xFF) ([0, 0, 0, 0x20] ++ List.replicate 24 0 ++ [0xE5, 0x0F, 0xDC, 0x94]
    ++ [11, 0, 0, 0] ++ List.replicate 8 0)

instance (s : Store) : Decidable (BootsNext s) :=
  decidable_of_iff (36 ≤ s.imgSize ∧ (s.imageWord 8).toNat ≤ 30720
      ∧ s.imageWord 0 &&& 0x2FFE0000 = 0x20000000
      ∧ xorBetween s.bootWord (min (s.imageWord 8).toNat (s.imgSize / 4))
          (max (s.imageWord 8).toNat (s.imgSize / 4)) = 0)
    ⟨fun ⟨h1, h2, h3, h4⟩ => ⟨h1, h2, h3, h4⟩, fun ⟨h1, h2, h3, h4⟩ => ⟨h1, h2, h3, h4⟩⟩

theorem next_boot_jumps_elevenWords :
    ∃ s₁ s₂, main 122880 noRequest elevenWords = some (.reset, s₁)
      ∧ main 122880 noRequest s₁.powerUp = some (.jump, s₂) :=
  (next_boot_jumps_iff elevenWords (by decide +kernel) noRequest noRequest rfl 122880
    (Nat.le_refl _)).mpr (by decide +kernel)

/-- An image of one word passes the validator of the update, and is not booted after it. -/
theorem oneWord_not_booted :
    sramHasValidImage oneWord = true
      ∧ ∃ s₁, main 122880 noRequest oneWord = some (.reset, s₁)
          ∧ main 122880 noRequest s₁.powerUp = some (.dfu, s₁.powerUp) := by
  have hvalid : sramHasValidImage oneWord = true := by decide +kernel
  have h := (sramHasValidImage_iff oneWord).mp hvalid
  refine ⟨hvalid, _, main_of_valid h noRequest (Nat.le_refl _), ?_⟩
  rw [main_of_invalid (oneWord.programmed_cleared _), Store.powerUp_flash,
    Store.programmed_tornFlash h (by omega)]
  have hgate : bootGate (oneWord.tornFlash (oneWord.imgSize / 2)) = false := by
    rw [Bool.eq_false_iff, Ne, bootGate_tornFlash h (by omega)]
    decide +kernel
  rw [hgate]
  rfl

end Stm32F1Dfu
