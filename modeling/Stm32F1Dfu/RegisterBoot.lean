import Stm32F1Dfu.Fpec
import Stm32F1Dfu.SramCalls

namespace Stm32F1Dfu

open LittleEndian XorFold

/-!
# `main` on the registers

The boot as it runs on the hardware: every flash operation through the registers of its
controller, every SRAM byte through SPI2.  It does what `main` does on the stores.

* `Hw` — the flash controller, and the bus with the chip;
* `Hw.sramHasValidImage`, `Hw.programImage`, `Hw.main` — the boot over them;
* `Hw.Stands` — both are at rest and stand for the stores;
* `streamLoop_stands`, `eraseLoop_stands`, `programLoop_stands` — each loop keeps it, by
  induction on its rounds;
* `boot_refines` — the boot from reset.
-/

/-! ### The code -/

/-- The flash controller, and the bus with the SRAM chip. -/
structure Hw where
  fpec : Fpec
  bus : Bus Sram23

/-- How long the hardware takes, and how often a wait may look. -/
structure Timing where
  pace : Pace
  time : OpTime
  looks : Nat
  pace_lt : pace.bound < looks
  time_le : time.bound ≤ looks

/-- `spi_sram_read`. -/
def Hw.spiSramRead (t : Timing) (h : Hw) (addr len : UInt32) : Option (Option (List UInt8) × Hw) :=
  (Wire.spiSramRead sram23 t.pace t.looks h.bus addr len).map fun (r, b) => (r, { h with bus := b })

/-- The loop of `validate_checksum_stream`. -/
def Hw.streamLoop (t : Timing) (chunk : UInt32) :
    Nat → Hw → UInt32 → UInt32 → UInt32 → Option (Option UInt32 × Hw)
  | fuel, h, addr, remaining, xorv =>
    if remaining = 0 then some (some xorv, h)
    else
      match fuel with
      | 0 => none
      | fuel + 1 =>
        let toread := if remaining > chunk then chunk else remaining
        match h.spiSramRead t addr toread with
        | none             => none
        | some (none, h)   => some (none, h)
        | some (some buf, h) =>
            streamLoop t chunk fuel h (addr + toread) (remaining - toread)
              (xorFold xorv (bufWord (buf.getD · 0)) (toread / 4).toNat)

/-- `validate_checksum_stream` with `spi_sram_read`. -/
def Hw.validateChecksumStream (t : Timing) (fuel : Nat) (h : Hw)
    (chunk start_addr size_bytes : UInt32) : Option (Bool × Hw) :=
  if size_bytes &&& 3 ≠ 0 then some (false, h)
  else
    match h.streamLoop t chunk fuel start_addr size_bytes checksumXorStart with
    | none                => none
    | some (none, h)      => some (false, h)
    | some (some xorv, h) => some (xorv == 0, h)

/-- The header of the image. -/
def Hw.readHeader (t : Timing) (h : Hw) : Option (Option SramImageHeader × Hw) :=
  (h.spiSramRead t sramImageHeaderOffset sizeofHeader).map fun (r, h) =>
    (r.map fun b =>
      { magic := word (b.getD 0 0) (b.getD 1 0) (b.getD 2 0) (b.getD 3 0)
        offset := word (b.getD 4 0) (b.getD 5 0) (b.getD 6 0) (b.getD 7 0)
        size := word (b.getD 8 0) (b.getD 9 0) (b.getD 10 0) (b.getD 11 0) }, h)

/-- `sram_has_valid_image`. -/
def Hw.sramHasValidImage (t : Timing) (h : Hw) : Option (Bool × Hw) :=
  match h.readHeader t with
  | none => none
  | some (none, h) => some (false, h)
  | some (some hdr, h) =>
    if sramLe32 hdr.magic ≠ sramImageMagic then some (false, h)
    else
      let img_offset := sramLe32 hdr.offset
      let img_size := sramLe32 hdr.size
      let header_end := sramImageHeaderOffset + sizeofHeader
      let max_bytes := flashBootldrPayloadSizeKb * 1024
      if img_size = 0 then some (false, h)
      else if img_size &&& 3 ≠ 0 then some (false, h)
      else if img_offset < header_end then some (false, h)
      else if img_size > max_bytes then some (false, h)
      else if img_offset > header_end + max_bytes then some (false, h)
      else if img_offset > 0xFFFFFFFF - img_size then some (false, h)
      else if img_offset + img_size > header_end + max_bytes then some (false, h)
      else h.validateChecksumStream t img_size.toNat sramImageChunkBytes img_offset img_size

/-- The loop that erases the pages from `a` up to `stop`. -/
def Hw.eraseLoop (t : Timing) (stop : UInt32) : Nat → Hw → UInt32 → Option Hw
  | fuel, h, a =>
    if a < stop then
      match fuel with
      | 0 => none
      | fuel + 1 =>
        if !flashPageIsErased h.fpec.flash a then
          match h.fpec.flashErasePage t.time t.looks a with
          | none   => none
          | some p => eraseLoop t stop fuel { h with fpec := p } (a + 1024)
        else eraseLoop t stop fuel h (a + 1024)
    else some h

/-- The `while (written < img_size)` loop. -/
def Hw.programLoop (t : Timing) (img_offset img_size : UInt32) : Nat → Hw → UInt32 → Option Hw
  | fuel, h, written =>
    if written < img_size then
      match fuel with
      | 0 => none
      | fuel + 1 =>
        let toread := img_size - written
        let toread := if toread > sramImageChunkBytes then sramImageChunkBytes else toread
        match h.spiSramRead t (img_offset + written) toread with
        | none => none
        | some (none, h) => some h -- read failed; the loop is left
        | some (some sram_buf, h) =>
          match h.fpec.flashProgramBuffer t.time t.looks (appAddress + written) (sram_buf.getD · 0)
              toread.toNat with
          | none   => none
          | some p => programLoop t img_offset img_size fuel { h with fpec := p } (written + toread)
    else some h

/-- `spi_sram_write(SRAM_IMAGE_HEADER_OFFSET, &clr, sizeof(clr))`. -/
def Hw.clearHeader (t : Timing) (h : Hw) : Option Hw :=
  (Wire.spiSramWrite sram23 t.pace t.looks h.bus sramImageHeaderOffset (List.replicate 12 0)).map
    fun (_, b) => { h with bus := b }

/-- The update path of `main`, up to the reset. -/
def Hw.programImage (t : Timing) (fuel : Nat) (h : Hw) (hdr : SramImageHeader) : Option Hw := do
  let img_offset := sramLe32 hdr.offset
  let img_size := sramLe32 hdr.size
  let h := { h with fpec := h.fpec.flashUnlock }
  let h ← h.eraseLoop t (appAddress + img_size) fuel appAddress
  let h ← h.clearHeader t
  h.programLoop t img_offset img_size fuel 0

/-- `main`, from reset. -/
def Hw.main (t : Timing) (fuel : Nat) (r : BootRequest) (h : Hw) : Option (BootOutcome × Hw) := do
  let h := { h with bus := spiSramHwInit sram23 h.bus }
  let (valid, h) ← h.sramHasValidImage t
  let decision (h : Hw) : Option (BootOutcome × Hw) :=
    some (if !r.dfu && bootGate h.fpec.flash then .jump else .dfu, h)
  if valid then
    match ← h.readHeader t with
    | (some hdr, h) => (h.programImage t fuel hdr).map fun h => (.reset, h)
    | (none, h)     => decision h
  else decision h

/-! ### Both stand for the stores -/

/-- The controller and the bus are at rest, and hold what the stores hold. -/
structure Hw.Stands (t : Timing) (h : Hw) (s : Store) : Prop where
  fpec : h.fpec.Rest s
  bus : h.bus.Keeps t.pace s

/-- The controller does not see the SRAM. -/
theorem Fpec.Rest.congr {p : Fpec} {s s' : Store} (h : p.Rest s) (hflash : s'.flash = s.flash)
    (hlocked : s'.locked = s.locked) : p.Rest s' :=
  { h with flash := h.flash.trans hflash.symm, lock := by rw [hlocked]; exact h.lock }

/-- The bus does not see the flash. -/
theorem Bus.Keeps.congr {pace : Pace} {b : Bus Sram23} {s s' : Store} (h : b.Keeps pace s)
    (hsram : s'.sram = s.sram) : b.Keeps pace s' :=
  ⟨h.ready, by rw [h.dev, hsram]⟩

variable {t : Timing} {h : Hw} {s : Store}

/-- `spi_sram_read` gives the bytes of the stores. -/
theorem spiSramRead_stands (hs : h.Stands t s) (addr : UInt32) {len : UInt32} (hlen : len ≠ 0) :
    ∃ h', h.spiSramRead t addr len
        = some (some ((List.range len.toNat).map fun i => s.sram ((addr.toNat + i) % sramSize)), h')
      ∧ h'.Stands t s := by
  obtain ⟨b, hread, hkeeps⟩ := read_wire hs.bus t.pace_lt addr len hlen
  exact ⟨{ h with bus := b }, by rw [Hw.spiSramRead, hread]; rfl, hs.fpec, hkeeps⟩

/-- A byte of the buffer. -/
theorem getD_map_range (f : Nat → UInt8) {n i : Nat} (hi : i < n) :
    ((List.range n).map f).getD i 0 = f i := by
  rw [List.getD_eq_getElem _ _ (by simpa using hi), List.getElem_map, List.getElem_range]

/-! ### Validation -/

/-- **The loop of the checksum.**  A round reads a chunk, and leaves less to read. -/
theorem streamLoop_stands (hs : h.Stands t s) {chunk : UInt32} (hchunk : chunk ≠ 0) {fuel : Nat}
    (addr : UInt32) {remaining : UInt32} (xorv : UInt32) (hfuel : remaining.toNat ≤ fuel) :
    ∃ x h', streamLoop (spiSramRead s) chunk fuel addr remaining xorv = some x
      ∧ h.streamLoop t chunk fuel addr remaining xorv = some (x, h') ∧ h'.Stands t s := by
  induction fuel generalizing h addr remaining xorv with
  | zero =>
    have h0 : remaining = 0 := by
      rw [← UInt32.toNat_inj]
      exact Nat.le_zero.mp hfuel
    exact ⟨some xorv, h, by rw [streamLoop, if_pos h0], by rw [Hw.streamLoop, if_pos h0], hs⟩
  | succ fuel ih =>
    by_cases h0 : remaining = 0
    · exact ⟨some xorv, h, by rw [streamLoop, if_pos h0], by rw [Hw.streamLoop, if_pos h0], hs⟩
    · have hpos : 0 < remaining.toNat := Nat.pos_of_ne_zero fun hz => h0 (UInt32.toNat_inj.mp hz)
      have hcpos : 0 < chunk.toNat := Nat.pos_of_ne_zero fun hz => hchunk (UInt32.toNat_inj.mp hz)
      rw [streamLoop, if_neg h0, Hw.streamLoop, if_neg h0]
      simp only
      -- what is read, and that it is not more than there is
      have htoread : ∃ n : UInt32, (if remaining > chunk then chunk else remaining) = n
          ∧ 0 < n.toNat ∧ n.toNat ≤ remaining.toNat := by
        split
        · rename_i hgt
          exact ⟨chunk, rfl, hcpos, Nat.le_of_lt (UInt32.lt_iff_toNat_lt.mp hgt)⟩
        · exact ⟨remaining, rfl, hpos, Nat.le_refl _⟩
      obtain ⟨n, hn, hnpos, hnle⟩ := htoread
      rw [hn]
      have hn0 : n ≠ 0 := by
        rintro rfl
        exact absurd hnpos (by decide)
      obtain ⟨h₁, hread, hs₁⟩ := spiSramRead_stands hs addr hn0
      have hwords : xorFold xorv (bufWord fun i =>
            ((List.range n.toNat).map fun i => s.sram ((addr.toNat + i) % sramSize)).getD i 0)
            (n / 4).toNat
          = xorFold xorv (bufWord fun i => s.sram ((addr.toNat + i) % sramSize)) (n / 4).toNat := by
        refine xorFold_congr fun i hi => ?_
        have hdiv : (n / 4).toNat = n.toNat / 4 := UInt32.toNat_div ..
        simp only [bufWord]
        rw [getD_map_range _ (by omega), getD_map_range _ (by omega), getD_map_range _ (by omega),
          getD_map_range _ (by omega)]
      have hrest : (remaining - n).toNat ≤ fuel := by
        rw [UInt32.toNat_sub_of_le _ _ (UInt32.le_iff_toNat_le.mpr hnle)]
        omega
      obtain ⟨x, h₂, hstore, hhw, hs₂⟩ := ih hs₁ (addr + n)
        (xorFold xorv (bufWord fun i => s.sram ((addr.toNat + i) % sramSize)) (n / 4).toNat)
        hrest
      refine ⟨x, h₂, ?_, ?_, hs₂⟩
      · rw [spiSramRead, if_neg hn0]
        exact hstore
      · rw [hread]
        simp only [hwords]
        exact hhw

/-- The header read. -/
theorem readHeader_stands (hs : h.Stands t s) :
    ∃ h', h.readHeader t = some (readHeader s, h') ∧ h'.Stands t s := by
  obtain ⟨h', hread, hs'⟩ := spiSramRead_stands hs sramImageHeaderOffset
    (show sizeofHeader ≠ 0 by decide)
  refine ⟨h', ?_, hs'⟩
  have hlen : sizeofHeader.toNat = 12 := rfl
  rw [Hw.readHeader, hread, hlen, readHeader, spiSramRead, if_neg (by decide)]
  simp only [Option.map_some]
  rw [getD_map_range _ (by decide), getD_map_range _ (by decide), getD_map_range _ (by decide),
    getD_map_range _ (by decide), getD_map_range _ (by decide), getD_map_range _ (by decide),
    getD_map_range _ (by decide), getD_map_range _ (by decide), getD_map_range _ (by decide),
    getD_map_range _ (by decide), getD_map_range _ (by decide), getD_map_range _ (by decide)]

/-- The checksum of the image. -/
theorem validateChecksumStream_stands (hs : h.Stands t s) {chunk : UInt32} (hchunk : chunk ≠ 0)
    (start_addr size_bytes : UInt32) :
    ∃ h', h.validateChecksumStream t size_bytes.toNat chunk start_addr size_bytes
        = some (validateChecksumStream size_bytes.toNat (spiSramRead s) chunk start_addr size_bytes
            == some true, h')
      ∧ h'.Stands t s := by
  unfold Hw.validateChecksumStream validateChecksumStream
  by_cases h3 : size_bytes &&& 3 = 0
  · rw [if_neg (not_not_intro h3), if_neg (not_not_intro h3)]
    obtain ⟨x, h', hstore, hhw, hs'⟩ := streamLoop_stands hs hchunk start_addr
      checksumXorStart (Nat.le_refl size_bytes.toNat)
    rw [hstore, hhw]
    refine ⟨h', ?_, hs'⟩
    cases x with
    | none => rfl
    | some xorv => cases hx : xorv == 0 <;> simp [hx]
  · rw [if_pos h3, if_pos h3]
    exact ⟨h, rfl, hs⟩

/-- **`sram_has_valid_image`.** -/
theorem sramHasValidImage_stands (hs : h.Stands t s) :
    ∃ h', h.sramHasValidImage t = some (sramHasValidImage s, h') ∧ h'.Stands t s := by
  obtain ⟨h₁, hread, hs₁⟩ := readHeader_stands hs
  unfold Hw.sramHasValidImage sramHasValidImage
  rw [hread]
  cases readHeader s with
  | none => exact ⟨h₁, rfl, hs₁⟩
  | some hdr =>
    simp only
    split
    · exact ⟨h₁, rfl, hs₁⟩
    · split
      · exact ⟨h₁, rfl, hs₁⟩
      · split
        · exact ⟨h₁, rfl, hs₁⟩
        · split
          · exact ⟨h₁, rfl, hs₁⟩
          · split
            · exact ⟨h₁, rfl, hs₁⟩
            · split
              · exact ⟨h₁, rfl, hs₁⟩
              · split
                · exact ⟨h₁, rfl, hs₁⟩
                · split
                  · exact ⟨h₁, rfl, hs₁⟩
                  · exact validateChecksumStream_stands hs₁ (by decide) _ _

/-! ### The update -/

/-- The pair leaves the lock alone, and so does the loop. -/
theorem eraseLoop_locked {stop a : UInt32} {fuel : Nat} {s' : Store}
    (hrun : eraseLoop s stop fuel a = some s') : s'.locked = s.locked := by
  induction fuel generalizing s a with
  | zero =>
    rw [eraseLoop] at hrun
    split at hrun
    · exact absurd hrun (by simp)
    · rw [← Option.some.inj hrun]
  | succ fuel ih =>
    rw [eraseLoop] at hrun
    split at hrun
    · rw [ih hrun, eraseIfDirty_locked]
    · rw [← Option.some.inj hrun]

/-- **The erase loop.** -/
theorem eraseLoop_stands (hs : h.Stands t s) {stop a : UInt32} {fuel : Nat} {s' : Store}
    (hrun : eraseLoop s stop fuel a = some s') :
    ∃ h', h.eraseLoop t stop fuel a = some h' ∧ h'.Stands t s' := by
  induction fuel generalizing h s a with
  | zero =>
    rw [eraseLoop] at hrun
    rw [Hw.eraseLoop]
    split at hrun
    · exact absurd hrun (by simp)
    · rename_i hlt
      rw [if_neg hlt, ← Option.some.inj hrun]
      exact ⟨h, rfl, hs⟩
  | succ fuel ih =>
    rw [eraseLoop] at hrun
    rw [Hw.eraseLoop]
    split at hrun
    · rename_i hlt
      rw [if_pos hlt, hs.fpec.flash]
      simp only [eraseIfDirty] at hrun ⊢
      cases hdirty : flashPageIsErased s.flash a with
      | true =>
        rw [hdirty] at hrun
        exact ih hs hrun
      | false =>
        rw [hdirty] at hrun
        obtain ⟨p, herase, hrest⟩ := erasePage_rest hs.fpec t.time_le a
        have hsram : (flashErasePage s a).sram = s.sram := by
          unfold flashErasePage
          split <;> rfl
        simp only [Bool.not_false, if_true, herase]
        exact ih (h := { h with fpec := p }) ⟨hrest, hs.bus.congr hsram⟩ hrun
    · rename_i hlt
      rw [if_neg hlt, ← Option.some.inj hrun]
      exact ⟨h, rfl, hs⟩

/-- What is programmed depends on the bytes up to the length only. -/
theorem flashProgramBuffer_congr (s : Store) (address : UInt32) {data data' : Nat → UInt8}
    {len : Nat} (hdata : ∀ i < len, data i = data' i) :
    flashProgramBuffer s address data len = flashProgramBuffer s address data' len := by
  have hloop (n : Nat) (hn : 2 * n ≤ len) :
      flashProgramLoop s address data n = flashProgramLoop s address data' n := by
    induction n with
    | zero => rfl
    | succ n ih =>
      rw [flashProgramLoop, flashProgramLoop, ih (by omega), hdata _ (by omega),
        hdata _ (by omega)]
  exact hloop (len / 2) (by omega)

/-- **The program loop**, with the flash unlocked. -/
theorem programLoop_stands (hs : h.Stands t s) (hlocked : s.locked = false) {img_offset img_size written : UInt32} {fuel : Nat}
    {s' : Store} (hrun : programLoop s img_offset img_size fuel written = some s') :
    ∃ h', h.programLoop t img_offset img_size fuel written = some h' ∧ h'.Stands t s' := by
  induction fuel generalizing h s written with
  | zero =>
    rw [programLoop] at hrun
    rw [Hw.programLoop]
    split at hrun
    · exact absurd hrun (by simp)
    · rename_i hlt
      rw [if_neg hlt, ← Option.some.inj hrun]
      exact ⟨h, rfl, hs⟩
  | succ fuel ih =>
    rw [programLoop] at hrun
    rw [Hw.programLoop]
    split at hrun
    · rename_i hlt
      rw [if_pos hlt]
      simp only at hrun ⊢
      generalize hn : (if img_size - written > sramImageChunkBytes then sramImageChunkBytes
        else img_size - written) = n at hrun ⊢
      -- there is something left to read
      have hn0 : n ≠ 0 := by
        have hlt' := UInt32.lt_iff_toNat_lt.mp hlt
        rintro rfl
        split at hn
        · exact absurd hn (by decide)
        · have hsub := UInt32.toNat_sub_of_le img_size written
            (UInt32.le_iff_toNat_le.mpr (Nat.le_of_lt hlt'))
          rw [hn, UInt32.toNat_zero] at hsub
          omega
      rw [spiSramRead, if_neg hn0] at hrun
      simp only at hrun
      obtain ⟨h₁, hread, hs₁⟩ := spiSramRead_stands hs (img_offset + written) hn0
      have hbuf (i : Nat) (hi : i < n.toNat) :
          ((List.range n.toNat).map fun i =>
              s.sram (((img_offset + written).toNat + i) % sramSize)).getD i 0
            = s.sram (((img_offset + written).toNat + i) % sramSize) := getD_map_range _ hi
      obtain ⟨p, hprogram, hrest⟩ := programBuffer_rest hs₁.fpec hlocked t.time_le (appAddress + written)
        (fun i => ((List.range n.toNat).map fun i =>
          s.sram (((img_offset + written).toNat + i) % sramSize)).getD i 0) n.toNat
      rw [flashProgramBuffer_congr s _ hbuf] at hrest
      have hsram : (flashProgramBuffer s (appAddress + written)
            (fun i => s.sram (((img_offset + written).toNat + i) % sramSize)) n.toNat).sram
          = s.sram :=
        flashProgramLoop_sram ..
      rw [hread]
      simp only [hprogram]
      exact ih (h := { h₁ with fpec := p }) ⟨hrest, hs₁.bus.congr hsram⟩
        ((flashProgramLoop_locked ..).trans hlocked) hrun
    · rename_i hlt
      rw [if_neg hlt, ← Option.some.inj hrun]
      exact ⟨h, rfl, hs⟩

/-- The header cleared. -/
theorem clearHeader_stands (hs : h.Stands t s) :
    ∃ h', h.clearHeader t = some h' ∧ h'.Stands t (clearHeader s) := by
  obtain ⟨b, hwrite, hkeeps⟩ := write_wire hs.bus t.pace_lt sramImageHeaderOffset
    (List.replicate 12 0) (by simp)
  exact ⟨{ h with bus := b }, by rw [Hw.clearHeader, hwrite]; rfl,
    hs.fpec.congr (spiSramWrite_flash ..) (spiSramWrite_locked ..), hkeeps⟩

/-- **The update path.** -/
theorem programImage_stands (hs : h.Stands t s) {fuel : Nat} {hdr : SramImageHeader} {s' : Store}
    (hrun : programImage fuel s hdr = some s') :
    ∃ h', h.programImage t fuel hdr = some h' ∧ h'.Stands t s' := by
  unfold programImage at hrun
  simp only at hrun
  have hunlock : Hw.Stands t { h with fpec := h.fpec.flashUnlock } (flashUnlock s) :=
    ⟨flashUnlock_rest hs.fpec, hs.bus.congr (flashUnlock_sram s)⟩
  cases herase : eraseLoop (flashUnlock s) (appAddress + sramLe32 hdr.size) fuel appAddress with
  | none =>
    rw [herase] at hrun
    exact absurd hrun (by simp)
  | some s₁ =>
    rw [herase] at hrun
    obtain ⟨h₁, hrun₁, hs₁⟩ := eraseLoop_stands hunlock herase
    obtain ⟨h₂, hrun₂, hs₂⟩ := clearHeader_stands hs₁
    have hlocked : (clearHeader s₁).locked = false := by
      rw [clearHeader, spiSramWrite_locked, eraseLoop_locked herase, flashUnlock_locked]
    obtain ⟨h₃, hrun₃, hs₃⟩ := programLoop_stands hs₂ hlocked hrun
    refine ⟨h₃, ?_, hs₃⟩
    rw [Hw.programImage]
    simp only [hrun₁, hrun₂, hrun₃, Option.bind_eq_bind, Option.bind_some]

/-- The boot from hardware that stands for the stores, where the one on the stores comes to an
    end. -/
theorem main_stands (hs : Hw.Stands t { h with bus := spiSramHwInit sram23 h.bus } s) {fuel : Nat}
    {r : BootRequest} {o : BootOutcome} {s' : Store} (hrun : main fuel r s = some (o, s')) :
    ∃ h', h.main t fuel r = some (o, h') ∧ h'.Stands t s' := by
  obtain ⟨h₁, hvalid, hs₁⟩ := sramHasValidImage_stands hs
  unfold main at hrun
  simp only at hrun
  rw [Hw.main]
  simp only [hvalid, Option.bind_eq_bind, Option.bind_some]
  cases hv : sramHasValidImage s with
  | false =>
    rw [hv, if_neg Bool.false_ne_true] at hrun
    rw [if_neg Bool.false_ne_true, hs₁.fpec.flash]
    obtain ⟨rfl, rfl⟩ := Prod.mk.inj (Option.some.inj hrun)
    exact ⟨h₁, rfl, hs₁⟩
  | true =>
    rw [hv, if_pos rfl] at hrun
    obtain ⟨h₂, hread, hs₂⟩ := readHeader_stands hs₁
    rw [if_pos rfl, hread]
    cases hhdr : readHeader s with
    | none =>
      rw [hhdr] at hrun
      simp only [Option.bind_some]
      rw [hs₂.fpec.flash]
      obtain ⟨rfl, rfl⟩ := Prod.mk.inj (Option.some.inj hrun)
      exact ⟨h₂, rfl, hs₂⟩
    | some hdr =>
      rw [hhdr] at hrun
      obtain ⟨s₁, himage, heq⟩ := Option.map_eq_some_iff.mp hrun
      obtain ⟨rfl, rfl⟩ := Prod.mk.inj heq
      obtain ⟨h₃, hhw, hs₃⟩ := programImage_stands hs₂ himage
      refine ⟨h₃, ?_, hs₃⟩
      simp only [Option.bind_some, hhw, Option.map_some]

/-- The boot on the stores comes to an end. -/
theorem exists_main (s : Store) (r : BootRequest) {fuel : Nat} (hfuel : 122880 ≤ fuel) :
    ∃ o s', main fuel r s = some (o, s') := by
  cases hvalid : sramHasValidImage s with
  | false => exact ⟨_, _, main_of_invalid hvalid r fuel⟩
  | true => exact ⟨_, _, main_of_valid ((sramHasValidImage_iff s).mp hvalid) r hfuel⟩

/-- **The boot on the registers.**  From a controller at rest and any SPI2 with nothing on its way
    in, `main` on the registers comes to an end, and to what it comes to on the stores, however
    long the flash and the SRAM take; the controller and the bus are then at rest and hold what the
    stores hold, and the flash controller saw no access that it does not allow. -/
theorem boot_refines (hrest : h.fpec.Rest s) (hquiet : h.bus.spi.coming = none)
    (htxe : h.bus.spi.txe ≤ t.pace.bound) (hbsy : h.bus.spi.bsy ≤ t.pace.bound)
    (hidle : h.bus.gpio.selects = false → h.bus.dev.phase = .idle) (hmem : h.bus.dev.mem = s.sram)
    (r : BootRequest) {fuel : Nat} (hfuel : 122880 ≤ fuel) :
    ∃ o s' h', main fuel r s = some (o, s') ∧ h.main t fuel r = some (o, h')
      ∧ h'.Stands t s' := by
  obtain ⟨o, s', hrun⟩ := exists_main s r hfuel
  obtain ⟨h', hhw, hs'⟩ := main_stands ⟨hrest, hwInit_keeps hquiet htxe hbsy hidle hmem⟩ hrun
  exact ⟨o, s', h', hrun, hhw, hs'⟩

/-- The hardware at power up, with a flash and an SRAM. -/
def Hw.powerUp (s : Store) : Hw := ⟨Fpec.afterReset s.flash, coldBus s.sram⟩

/-- Operations that take up to two reads of a status register. -/
def someTiming : Timing :=
  ⟨steadyPace, ⟨fun n => n % 3, 2, fun n => Nat.le_of_lt_succ (Nat.mod_lt n (by decide))⟩, 4,
    by decide, by decide⟩

theorem boot_refines_oneWord :
    ∃ o s' h', main 122880 noRequest oneWord = some (o, s')
      ∧ (Hw.powerUp oneWord).main someTiming 122880 noRequest = some (o, h')
      ∧ h'.Stands someTiming s' :=
  boot_refines (afterReset_rest oneWord rfl) rfl (Nat.zero_le _) (Nat.zero_le _) (fun _ => rfl) rfl
    noRequest (Nat.le_refl _)

end Stm32F1Dfu
