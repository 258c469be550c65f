import Stm32F1Dfu.Image

namespace Stm32F1Dfu

open LittleEndian XorFold

/-!
# The update path of `main`

Its three loops with their different strides, each reduced to one operation on the stores,
and what the whole path leaves behind.

* `eraseLoop_eq` — the erase loop is a walk over the pages of the image;
* `clearHeader_sram` — the header cleared, and nothing else of the SRAM;
* `programLoop_eq` — the chunked copy is one programming of the image;
* `programImage_eq` — the path in closed form;
* `main_update` — the flash and the SRAM after it.
-/

/-- Pages the image of `n` bytes reaches. -/
def pagesOf (n : Nat) : Nat := (n + 1023) / 1024

@[simp] theorem appAddress_toNat : appAddress.toNat = 0x08002000 := by decide

/-! ### The erase loop -/

/-- A walk over pages starts with its first page. -/
theorem erasePages_succ (s : Store) (a : UInt32) (n : Nat) :
    erasePages s a (n + 1) = erasePages (eraseIfDirty s a) (a + 1024) n := by
  induction n with
  | zero =>
    have h0 : a + 1024 * UInt32.ofNat 0 = a := by
      show a + 1024 * 0 = a
      rw [UInt32.mul_zero, UInt32.add_zero]
    simp only [erasePages, h0]
  | succ n ih =>
    have hnext : a + 1024 * UInt32.ofNat (n + 1) = a + 1024 + 1024 * UInt32.ofNat n := by
      rw [UInt32.ofNat_add, UInt32.mul_add, UInt32.add_assoc, UInt32.add_comm (1024 * _)]
      rfl
    rw [erasePages, ih, hnext]
    rfl

/-- **The erase loop** is a walk over the pages up to `stop`. -/
theorem eraseLoop_eq (stop : UInt32) (fuel : Nat) :
    ∀ (s : Store) (a : UInt32), a.toNat ≤ stop.toNat → stop.toNat + 1024 ≤ 2 ^ 32 →
      pagesOf (stop.toNat - a.toNat) ≤ fuel →
      eraseLoop s stop fuel a = some (erasePages s a (pagesOf (stop.toNat - a.toNat))) := by
  induction fuel with
  | zero =>
    intro s a hle hfit hfuel
    have hstop : ¬ a < stop := by
      rw [UInt32.lt_iff_toNat_lt]
      simp only [pagesOf] at hfuel
      omega
    have h0 : pagesOf (stop.toNat - a.toNat) = 0 := by omega
    unfold eraseLoop
    rw [if_neg hstop, h0]
    rfl
  | succ fuel ih =>
    intro s a hle hfit hfuel
    unfold eraseLoop
    by_cases hlt : a < stop
    · rw [if_pos hlt]
      rw [UInt32.lt_iff_toNat_lt] at hlt
      have hnext : (a + 1024).toNat = a.toNat + 1024 := by
        rw [UInt32.toNat_add]
        show (a.toNat + 1024) % 2 ^ 32 = _
        omega
      simp only
      by_cases hmore : a.toNat + 1024 ≤ stop.toNat
      · have hpages : pagesOf (stop.toNat - a.toNat)
            = pagesOf (stop.toNat - (a + 1024).toNat) + 1 := by
          simp only [pagesOf, hnext]
          omega
        rw [ih _ _ (by omega) hfit (by omega), hpages, erasePages_succ]
      · -- the last page: the loop ends past `stop`
        have hpages : pagesOf (stop.toNat - a.toNat) = 1 := by
          simp only [pagesOf]
          omega
        have hstop : ¬ a + 1024 < stop := by
          rw [UInt32.lt_iff_toNat_lt, hnext]
          omega
        rw [hpages, erasePages_succ]
        unfold eraseLoop
        rw [if_neg hstop]
        rfl
    · have h0 : pagesOf (stop.toNat - a.toNat) = 0 := by
        rw [UInt32.lt_iff_toNat_lt] at hlt
        simp only [pagesOf]
        omega
      rw [if_neg hlt, h0]
      rfl

/-! ### The header -/

@[simp] theorem spiSramWrite_flash (s : Store) (a : UInt32) (bytes : List UInt8) :
    (spiSramWrite s a bytes).flash = s.flash := by
  induction bytes generalizing s a with
  | nil => rfl
  | cons byte rest ih => rw [spiSramWrite, ih]; rfl

@[simp] theorem spiSramWrite_locked (s : Store) (a : UInt32) (bytes : List UInt8) :
    (spiSramWrite s a bytes).locked = s.locked := by
  induction bytes generalizing s a with
  | nil => rfl
  | cons byte rest ih => rw [spiSramWrite, ih]; rfl

/-- **A sequential write** inside the SRAM stores its bytes and leaves the others alone. -/
theorem spiSramWrite_sram (s : Store) (a : UInt32) (bytes : List UInt8)
    (hfit : a.toNat + bytes.length ≤ sramSize) (i : Nat) :
    (spiSramWrite s a bytes).sram i
      = if a.toNat ≤ i ∧ i < a.toNat + bytes.length then bytes.getD (i - a.toNat) 0
        else s.sram i := by
  induction bytes generalizing s a with
  | nil =>
    rw [if_neg (by simp)]
    rfl
  | cons byte rest ih =>
    have hfit : a.toNat + (rest.length + 1) ≤ 131072 := hfit
    have hnext : (a + 1).toNat = a.toNat + 1 := by
      rw [UInt32.toNat_add]
      show (a.toNat + 1) % 2 ^ 32 = _
      omega
    have hhere : a.toNat % sramSize = a.toNat := Nat.mod_eq_of_lt (by show _ < 131072; omega)
    rw [spiSramWrite, ih _ _ (by rw [hnext]; show _ ≤ 131072; omega), hnext, List.length_cons]
    simp only [Store.issue_sram, StoreOp.apply, hhere]
    by_cases hi : i = a.toNat
    · rw [if_neg (by omega), if_pos hi, if_pos (by omega), hi, Nat.sub_self]
      rfl
    · rw [if_neg hi]
      by_cases hin : a.toNat + 1 ≤ i ∧ i < a.toNat + 1 + rest.length
      · have hoff : i - a.toNat = (i - (a.toNat + 1)) + 1 := by omega
        rw [if_pos hin, if_pos (by omega), hoff]
        rfl
      · rw [if_neg hin, if_neg (by omega)]

/-- The operations of a sequential write, newest first. -/
def sramOps (a : UInt32) : List UInt8 → List StoreOp
  | []           => []
  | byte :: rest => sramOps (a + 1) rest ++ [.sramWrite a byte]

theorem spiSramWrite_ops (s : Store) (a : UInt32) (bytes : List UInt8) :
    (spiSramWrite s a bytes).ops = sramOps a bytes ++ s.ops := by
  induction bytes generalizing s a with
  | nil => rfl
  | cons byte rest ih => rw [spiSramWrite, ih, sramOps]; simp

/-- The header cleared: its twelve bytes are zero, and no other byte changes. -/
theorem clearHeader_sram (s : Store) (i : Nat) :
    (clearHeader s).sram i = if i < 12 then 0 else s.sram i := by
  have h := spiSramWrite_sram s sramImageHeaderOffset (List.replicate 12 0) (by decide) i
  rw [clearHeader, h]
  have h0 : sramImageHeaderOffset.toNat = 0 := rfl
  simp only [h0, List.length_replicate, Nat.zero_add, Nat.zero_le, true_and, Nat.sub_zero]
  by_cases hi : i < 12
  · rw [if_pos hi, if_pos hi, List.getD_eq_getElem _ _ (by simpa using hi), List.getElem_replicate]
  · rw [if_neg hi, if_neg hi]

/-! ### The program loop -/

/-- Buffers that agree on what is programmed are programmed alike. -/
theorem flashProgramLoop_congr (s : Store) (a : UInt32) {data data' : Nat → UInt8} {n : Nat}
    (h : ∀ i < 2 * n, data i = data' i) :
    flashProgramLoop s a data n = flashProgramLoop s a data' n := by
  induction n with
  | zero => rfl
  | succ n ih =>
    rw [flashProgramLoop, flashProgramLoop, ih fun i hi => h i (by omega), h _ (by omega),
      h _ (by omega)]

/-- **Two parts.**  Programming `m + n` half-words goes on after the first `m`. -/
theorem flashProgramLoop_add (s : Store) (a : UInt32) (data : Nat → UInt8) (m n : Nat) :
    flashProgramLoop s a data (m + n)
      = flashProgramLoop (flashProgramLoop s a data m) (a + UInt32.ofNat (2 * m))
          (fun i => data (2 * m + i)) n := by
  induction n with
  | zero => rfl
  | succ n ih =>
    have haddr : a + 2 * UInt32.ofNat (m + n)
        = a + UInt32.ofNat (2 * m) + 2 * UInt32.ofNat n := by
      rw [halfAddr_low, halfAddr_low, UInt32.add_assoc, ← UInt32.ofNat_add, Nat.mul_add]
    have hoff : 2 * m + 2 * n = 2 * (m + n) := by omega
    rw [← Nat.add_assoc, flashProgramLoop, flashProgramLoop, ih, haddr]
    simp only [← Nat.add_assoc, hoff]

/-- **The chunked copy** programs what is left of the image in one go. -/
theorem programLoop_eq (img_offset img_size : UInt32) (hsize : img_size.toNat ≤ 122880)
    (hfit : img_offset.toNat + img_size.toNat ≤ 122892) (fuel : Nat) :
    ∀ (s : Store) (written : UInt32), written.toNat ≤ img_size.toNat →
      img_size.toNat - written.toNat ≤ fuel → (img_size.toNat - written.toNat) % 2 = 0 →
      programLoop s img_offset img_size fuel written
        = some (flashProgramLoop s (appAddress + written)
            (fun i => s.sram (img_offset.toNat + written.toNat + i))
            ((img_size.toNat - written.toNat) / 2)) := by
  induction fuel with
  | zero =>
    intro s written hle hfuel heven
    have hend : ¬ written < img_size := by
      rw [UInt32.lt_iff_toNat_lt]
      omega
    have h0 : (img_size.toNat - written.toNat) / 2 = 0 := by omega
    unfold programLoop
    rw [if_neg hend, h0]
    rfl
  | succ fuel ih =>
    intro s written hle hfuel heven
    unfold programLoop
    by_cases hlt : written < img_size
    swap
    · have h0 : (img_size.toNat - written.toNat) / 2 = 0 := by
        rw [UInt32.lt_iff_toNat_lt] at hlt
        omega
      rw [if_neg hlt, h0]
      rfl
    rw [if_pos hlt]
    rw [UInt32.lt_iff_toNat_lt] at hlt
    simp only
    -- the chunk of this round, and that it fits
    obtain ⟨toread, htoread⟩ : ∃ t : UInt32, t = if img_size - written > sramImageChunkBytes
      then sramImageChunkBytes else img_size - written := ⟨_, rfl⟩
    have hrest : (img_size - written).toNat = img_size.toNat - written.toNat :=
      UInt32.toNat_sub_of_le _ _ (UInt32.le_iff_toNat_le.mpr hle)
    have hchunk : sramImageChunkBytes.toNat = 256 := rfl
    have hread : 0 < toread.toNat ∧ toread.toNat ≤ img_size.toNat - written.toNat
        ∧ toread.toNat % 2 = 0 := by
      rw [htoread]
      split
      · rename_i hgt
        have hgt := UInt32.lt_iff_toNat_lt.mp hgt
        omega
      · omega
    obtain ⟨hpos, hleft, heven'⟩ := hread
    rw [← htoread]
    have hne : toread ≠ 0 := by
      rintro rfl
      exact absurd hpos (by decide)
    have haddr : (img_offset + written).toNat = img_offset.toNat + written.toNat := by
      rw [UInt32.toNat_add]
      omega
    have hnext : (written + toread).toNat = written.toNat + toread.toNat := by
      rw [UInt32.toNat_add]
      omega
    rw [spiSramRead, if_neg hne]
    simp only [flashProgramBuffer]
    -- the rest of the image, by induction
    rw [ih _ _ (by omega) (by omega) (by omega)]
    congr 1
    have hsplit : (img_size.toNat - written.toNat) / 2
        = toread.toNat / 2 + (img_size.toNat - (written + toread).toNat) / 2 := by omega
    have hfirst : flashProgramLoop s (appAddress + written)
          (fun i => s.sram (((img_offset + written).toNat + i) % sramSize)) (toread.toNat / 2)
        = flashProgramLoop s (appAddress + written)
          (fun i => s.sram (img_offset.toNat + written.toNat + i)) (toread.toNat / 2) := by
      refine flashProgramLoop_congr _ _ fun i hi => ?_
      rw [haddr, Nat.mod_eq_of_lt (by show _ < 131072; omega)]
    have hstart : appAddress + (written + toread)
        = appAddress + written + UInt32.ofNat (2 * (toread.toNat / 2)) := by
      have heq : 2 * (toread.toNat / 2) = toread.toNat := by omega
      rw [heq, UInt32.ofNat_toNat, UInt32.add_assoc]
    rw [hfirst, hsplit, flashProgramLoop_add, hstart]
    refine flashProgramLoop_congr _ _ fun i hi => ?_
    rw [flashProgramLoop_sram]
    congr 1
    omega

/-! ### The path as a whole -/

/-- The stores when the pages are erased and the header is cleared. -/
def Store.prepared (s : Store) : Store :=
  clearHeader (erasePages (flashUnlock s) appAddress (pagesOf s.imgSize))

/-- The stores when `k` half-words of the image are programmed as well. -/
def Store.programmed (s : Store) (k : Nat) : Store :=
  flashProgramLoop s.prepared appAddress s.imageByte k

/-- The address is one of the pages the image reaches. -/
def Store.InPages (s : Store) (b : UInt32) : Prop :=
  appAddress.toNat ≤ b.toNat ∧ b.toNat < appAddress.toNat + 1024 * pagesOf s.imgSize

instance (s : Store) (b : UInt32) : Decidable (s.InPages b) := inferInstanceAs (Decidable (_ ∧ _))

/-- The pages of a valid image lie in the application region, and hold the image. -/
theorem ValidImage.pages {s : Store} (h : ValidImage s) :
    1024 * pagesOf s.imgSize ≤ 122880 ∧ s.imgSize ≤ 1024 * pagesOf s.imgSize := by
  have := h.size_le
  simp only [pagesOf]
  omega

@[simp] theorem Store.prepared_locked (s : Store) : s.prepared.locked = false := by
  simp [Store.prepared, clearHeader]

/-- **Erased and cleared.**  The pages of the image are blank, the rest of the flash is as
    it was. -/
theorem Store.prepared_flash {s : Store} (h : ValidImage s) (b : UInt32) :
    s.prepared.flash b = if s.InPages b then 0xFF else s.flash b := by
  have hpages := h.pages
  have hflash := erasePages_flash (s := flashUnlock s) (by simp) (a := appAddress)
    (n := pagesOf s.imgSize) (by decide) (by rw [appAddress_toNat]; omega) b
  rw [Store.prepared, clearHeader, spiSramWrite_flash, hflash, flashUnlock_flash]
  rfl

theorem Store.prepared_sram (s : Store) (i : Nat) :
    s.prepared.sram i = if i < 12 then 0 else s.sram i := by
  rw [Store.prepared, clearHeader_sram, erasePages_sram, flashUnlock_sram]

@[simp] theorem Store.programmed_sram (s : Store) (k : Nat) :
    (s.programmed k).sram = s.prepared.sram := by
  simp [Store.programmed]

/-- **Programmed so far.**  After `k` half-words the flash holds the first `2 * k` bytes of
    the image, blank bytes to the end of its pages, and the rest as it was. -/
theorem Store.programmed_flash {s : Store} (h : ValidImage s) {k : Nat} (hk : 2 * k ≤ s.imgSize)
    (b : UInt32) :
    (s.programmed k).flash b
      = if s.InPages b then
          if b.toNat - appAddress.toNat < 2 * k then s.imageByte (b.toNat - appAddress.toNat)
          else 0xFF
        else s.flash b := by
  obtain ⟨hpages, hsize⟩ := h.pages
  by_cases hin : s.InPages b ∧ b.toNat - appAddress.toNat < 2 * k
  · -- a byte of the image: programmed over a blank one
    obtain ⟨hin, hlt⟩ := hin
    have hb : b = appAddress + UInt32.ofNat (b.toNat - appAddress.toNat) := by
      rw [← UInt32.toNat_inj, toNat_add_ofNat (by rw [appAddress_toNat] at *; omega)]
      have := hin.1
      omega
    rw [if_pos hin, if_pos hlt]
    have hblank (j : Nat) (hj : j < 2 * k) :
        s.prepared.flash (appAddress + UInt32.ofNat j) = 0xFF := by
      rw [Store.prepared_flash h, if_pos]
      have hoff : (appAddress + UInt32.ofNat j).toNat = appAddress.toNat + j :=
        toNat_add_ofNat (by rw [appAddress_toNat]; omega)
      rw [Store.InPages, hoff]
      omega
    have hstored := flashProgramLoop_stored (Store.prepared_locked s) appAddress s.imageByte
      (n := k) (by omega) hblank hlt
    rwa [← hb] at hstored
  · have hframe : (s.programmed k).flash b = s.prepared.flash b := by
      refine flashProgramLoop_frame _ _ _ fun i hi hbi => hin ?_
      have hoff : b.toNat = appAddress.toNat + i := by
        rw [hbi, toNat_add_ofNat (by rw [appAddress_toNat]; omega)]
      constructor
      · rw [Store.InPages, hoff]
        omega
      · omega
    rw [hframe, Store.prepared_flash h]
    by_cases hpage : s.InPages b
    · rw [if_pos hpage, if_pos hpage, if_neg fun hlt => hin ⟨hpage, hlt⟩]
    · rw [if_neg hpage, if_neg hpage]

/-- **The update path in closed form.**  With enough fuel it erases, clears the header and
    programs the whole image. -/
theorem programImage_eq {s : Store} (h : ValidImage s) {fuel : Nat} (hfuel : 122880 ≤ fuel) :
    programImage fuel s s.header = some (s.programmed (s.imgSize / 2)) := by
  have hsize : s.header.size.toNat ≤ 122880 := h.size_le
  have hoffset : 12 ≤ s.header.offset.toNat := h.offset_ge
  have hfit : s.header.offset.toNat + s.header.size.toNat ≤ 122892 := h.fits
  have h4 : s.header.size.toNat % 4 = 0 := h.size_words
  have hstop : (appAddress + s.header.size).toNat = appAddress.toNat + s.header.size.toNat := by
    rw [UInt32.toNat_add, appAddress_toNat]
    omega
  have hdiff : (appAddress + s.header.size).toNat - appAddress.toNat = s.imgSize := by
    rw [hstop]
    exact Nat.add_sub_cancel_left _ _
  have hpages : pagesOf s.imgSize ≤ fuel := by
    have := h.size_le
    simp only [pagesOf]
    omega
  have herase := eraseLoop_eq (appAddress + s.header.size) fuel (flashUnlock s) appAddress
    (by rw [hstop]; omega) (by rw [hstop, appAddress_toNat]; omega) (by rw [hdiff]; exact hpages)
  rw [hdiff] at herase
  unfold programImage
  simp only [sramLe32_eq, herase]
  rw [programLoop_eq _ _ hsize hfit fuel _ 0 (Nat.zero_le _) (by show _ - 0 ≤ _; omega)
    (by show (_ - 0) % 2 = 0; omega)]
  refine congrArg some ?_
  -- the image is read behind the header, which is the part that was cleared
  rw [Store.programmed, UInt32.add_zero]
  refine flashProgramLoop_congr _ _ fun i hi => ?_
  show s.prepared.sram (s.header.offset.toNat + 0 + i) = s.sram (s.header.offset.toNat + i)
  rw [Store.prepared_sram, if_neg (by omega), Nat.add_zero]

/-! ### The operations of the path -/

/-- What the path issues stays in the application region. -/
theorem Store.programmed_ops {s : Store} (h : ValidImage s) {k : Nat} (hk : 2 * k ≤ s.imgSize)
    {op : StoreOp} (hop : op ∈ (s.programmed k).ops) : op ∈ s.ops ∨ op.InApp := by
  obtain ⟨hpages, hsize⟩ := h.pages
  have hle := h.size_le
  rw [Store.programmed, flashProgramLoop_ops (Store.prepared_locked s)] at hop
  rcases List.mem_append.mp hop with hprog | hrest
  · right
    obtain ⟨i, hi, rfl⟩ := mem_programOps.mp hprog
    rw [StoreOp.program_inApp, halfAddr_low, offset_succ]
    have hoff (j : Nat) (hj : j < s.imgSize) : Stm32F1Dfu.InApp (appAddress + UInt32.ofNat j) := by
      rw [inApp_iff, toNat_add_ofNat (by rw [appAddress_toNat]; omega), appAddress_toNat]
      omega
    exact ⟨hoff _ (by omega), hoff _ (by omega)⟩
  · rw [Store.prepared, clearHeader, spiSramWrite_ops] at hrest
    rcases List.mem_append.mp hrest with hwrite | herase
    · right
      -- an SRAM write touches no flash
      have hsram (a : UInt32) (bytes : List UInt8) (hmem : op ∈ sramOps a bytes) :
          ∃ b v, op = .sramWrite b v := by
        induction bytes generalizing a with
        | nil => exact absurd hmem List.not_mem_nil
        | cons byte rest ih =>
          rcases List.mem_append.mp hmem with hlater | hfirst
          · exact ih _ hlater
          · exact ⟨a, byte, List.mem_singleton.mp hfirst⟩
      obtain ⟨b, v, rfl⟩ := hsram _ _ hwrite
      intro x hx
      exact absurd hx (by simp [StoreOp.Touches])
    · rcases mem_erasePages_ops herase with hold | ⟨i, hi, rfl⟩
      · left
        simpa using hold
      · right
        rw [StoreOp.erase_inApp, inApp_iff,
          pageAddr_toNat (n := pagesOf s.imgSize) (by rw [appAddress_toNat]; omega) hi,
          appAddress_toNat]
        omega

/-- A cleared header is not one of an image. -/
theorem not_validImage_of_cleared {s : Store} (h : s.sram 0 = 0) : sramHasValidImage s = false := by
  rw [Bool.eq_false_iff]
  intro hv
  have hmagic := ((sramHasValidImage_iff s).mp hv).magic
  have hlow : word (s.sram 0) (s.sram 1) (s.sram 2) (s.sram 3) = word 0x53 0x42 0x41 0x4D :=
    hmagic.trans (by decide)
  rw [word_inj, h] at hlow
  exact absurd hlow.1 (by decide)

/-- A boot that finds a valid image programs it and resets. -/
theorem main_of_valid {s : Store} (h : ValidImage s) (r : BootRequest) {fuel : Nat}
    (hfuel : 122880 ≤ fuel) :
    main fuel r s = some (.reset, s.programmed (s.imgSize / 2)) := by
  unfold main
  rw [if_pos ((sramHasValidImage_iff s).mpr h), readHeader_eq]
  simp only [programImage_eq h hfuel, Option.map_some]

/-- A boot that finds none decides on the flash and leaves the stores alone. -/
theorem main_of_invalid {s : Store} (h : sramHasValidImage s = false) (r : BootRequest)
    (fuel : Nat) :
    main fuel r s = some (if !r.dfu && bootGate s.flash then .jump else .dfu, s) := by
  unfold main
  rw [if_neg (by rw [h]; exact Bool.false_ne_true)]

/-- **The update.**  For every SRAM with a valid image and every flash, `main` ends in a
    reset with the image in the flash from `APP_ADDRESS` on, the rest of its pages blank,
    every other page as it was, no erase or program outside the application region, the
    SRAM changed in the twelve bytes of the header only, and no valid image left. -/
theorem main_update (s : Store) (hvalid : sramHasValidImage s = true) (r : BootRequest)
    (fuel : Nat) (hfuel : 122880 ≤ fuel) :
    ∃ s', main fuel r s = some (.reset, s')
      ∧ (∀ i < s.imgSize, s'.flash (appAddress + UInt32.ofNat i) = s.imageByte i)
      ∧ (∀ i, s.imgSize ≤ i → i < 1024 * pagesOf s.imgSize →
          s'.flash (appAddress + UInt32.ofNat i) = 0xFF)
      ∧ (∀ b, ¬ s.InPages b → s'.flash b = s.flash b)
      ∧ (∀ op ∈ s'.ops, op ∈ s.ops ∨ op.InApp)
      ∧ (∀ i, 12 ≤ i → s'.sram i = s.sram i)
      ∧ sramHasValidImage s' = false := by
  have h := (sramHasValidImage_iff s).mp hvalid
  obtain ⟨hpages, hsize⟩ := h.pages
  have hwhole : 2 * (s.imgSize / 2) = s.imgSize := by
    have := h.size_words
    omega
  have hoff (i : Nat) (hi : i < 1024 * pagesOf s.imgSize) :
      (appAddress + UInt32.ofNat i).toNat = appAddress.toNat + i :=
    toNat_add_ofNat (by rw [appAddress_toNat]; omega)
  have hpage (i : Nat) (hi : i < 1024 * pagesOf s.imgSize) :
      s.InPages (appAddress + UInt32.ofNat i) := by
    rw [Store.InPages, hoff i hi]
    omega
  refine ⟨s.programmed (s.imgSize / 2), ?_, ?_, ?_, ?_, ?_, ?_, ?_⟩
  · exact main_of_valid h r hfuel
  · intro i hi
    rw [Store.programmed_flash h (by omega), if_pos (hpage i (by omega)), hoff i (by omega),
      Nat.add_sub_cancel_left, if_pos (by omega)]
  · intro i hge hlt
    rw [Store.programmed_flash h (by omega), if_pos (hpage i hlt), hoff i hlt,
      Nat.add_sub_cancel_left, if_neg (by omega)]
  · intro b hb
    rw [Store.programmed_flash h (by omega), if_neg hb]
  · intro op hop
    exact Store.programmed_ops h (by omega) hop
  · intro i hi
    rw [Store.programmed_sram, Store.prepared_sram, if_neg (by omega)]
  · apply not_validImage_of_cleared
    rw [Store.programmed_sram, Store.prepared_sram, if_pos (by omega)]

/-- Stores with the given flash whose SRAM holds an image of these bytes behind its header. -/
def imageStore (flash : UInt32 → UInt8) (bytes : List UInt8) : Store where
  flash := flash
  sram := fun i =>
    ([0x53, 0x42, 0x41, 0x4D, 12, 0, 0, 0] ++ [UInt8.ofNat bytes.length, 0, 0, 0] ++ bytes).getD i 0
  locked := true
  ops := []

/-- No DFU request. -/
def noRequest : BootRequest := { rebootWord := 0, forceDfuGpio := false }

/-- An image of the one word that the checksum starts from. -/
def oneWord : Store := imageStore (fun _ => 0) [0xEE, 0x0F, 0xDC, 0xB4]

/-- An image of 322 words: it takes two pages, and the last chunk that is read has two words. -/
def twoPages : Store where
  flash := fun b => b.toUInt8
  sram := fun i =>
    if i < 12 then [0x53, 0x42, 0x41, 0x4D, 12, 0, 0, 0, 0x08, 0x05, 0, 0].getD i 0
    else if i < 1296 then UInt8.ofNat i
    else [0xE2, 0x02, 0xD2, 0xBB].getD (i - 1296) 0
  locked := true
  ops := []

/-- The update with that image. -/
theorem main_update_twoPages :
    ∃ s', main 122880 noRequest twoPages = some (.reset, s')
      ∧ (∀ i < twoPages.imgSize, s'.flash (appAddress + UInt32.ofNat i) = twoPages.imageByte i)
      ∧ (∀ i, twoPages.imgSize ≤ i → i < 1024 * pagesOf twoPages.imgSize →
          s'.flash (appAddress + UInt32.ofNat i) = 0xFF)
      ∧ (∀ b, ¬ twoPages.InPages b → s'.flash b = twoPages.flash b)
      ∧ (∀ op ∈ s'.ops, op ∈ twoPages.ops ∨ op.InApp)
      ∧ (∀ i, 12 ≤ i → s'.sram i = twoPages.sram i)
      ∧ sramHasValidImage s' = false :=
  main_update twoPages (by decide +kernel) noRequest 122880 (Nat.le_refl _)

end Stm32F1Dfu
