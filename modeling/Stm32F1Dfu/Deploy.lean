import Stm32F1Dfu.Manifestation
import Stm32F1Dfu.Pages
import Stm32F1Dfu.Recovery
import Stm32F1Dfu.ReleaseTool

namespace Stm32F1Dfu

open LittleEndian XorFold PageStore

/-!
# From `checksum.py` to the running application

The two ways a released file gets into the flash, from end to end: a DFU host downloads it and
asks for manifestation, or the application puts it into the SPI SRAM and resets.

* `bootGate_released` — the boot decision on a flash that holds the file;
* `deploy_usb` — over USB;
* `deploy_sram` — over the SRAM;
* `downloadCmds_delivered` — the download of a DfuSe host is one that `deploy_usb` is about.
-/

/-! ### The boot decision on a released file -/

theorem FwLen.bounds {file : List UInt8} {arg : Option Int} {fwlen : Nat}
    (h : FwLen file arg fwlen) (hfile : 0x24 ≤ file.length) :
    fwlen % 4 = 0 ∧ 0x24 ≤ fwlen ∧ fwlen ≤ paddedLen file := by
  rcases h with ⟨-, rfl⟩ | ⟨-, h4, hge, hle⟩
  · refine ⟨?_, ?_, Nat.le_refl _⟩ <;>
      · simp only [paddedLen]
        omega
  · exact ⟨h4, hge, hle⟩

/-- The first word of the file is not one the tool touches. -/
theorem fileWord_released_zero {file : List UInt8} {fwlen : Nat} (h : 0x24 ≤ file.length) :
    fileWord (released file fwlen) 0 = fileWord file 0 := by
  have hbyte (i : Nat) (hi : i < 4) := @released_getD file fwlen h i (Or.inl (by omega))
  simp only [fileWord, memWord, Nat.zero_add, Nat.mul_zero]
  rw [hbyte 0 (by omega), hbyte 1 (by omega), hbyte 2 (by omega), hbyte 3 (by omega)]

/-- **The boot decision** passes where the flash holds a released file that fits and begins with
    a stack pointer. -/
theorem bootGate_released {file : List UInt8} {fwlen : Nat} (h : 0x24 ≤ file.length)
    (hge : 0x24 ≤ fwlen) (hfit : fwlen ≤ 122880)
    (hstack : fileWord file 0 &&& 0x2FFE0000 = 0x20000000) {m : UInt32 → UInt8}
    (hm : ∀ i < fwlen, m (appAddress + UInt32.ofNat i) = (released file fwlen).getD i 0) :
    bootGate m = true := by
  have hcount : (UInt32.ofNat (fwlen / 4)).toNat = fwlen / 4 := by
    rw [UInt32.toNat_ofNat']
    omega
  have hsize : imagesize m = UInt32.ofNat (fwlen / 4) := by
    have hword := appWord_of_file hm (i := 8) (by omega)
    rw [fileWord_released h, Function.update_of_ne (by decide), (fileWord_patched h).2] at hword
    exact hword
  have hfirst : wordAt m appAddress = fileWord file 0 := by
    have hword := appWord_of_file hm (i := 0) (by omega)
    rw [fileWord_released_zero h] at hword
    exact hword
  have hsum : xorFold checksumXorStart (appWord m) (fwlen / 4) = 0 := by
    rw [xorFold_congr fun i hi => appWord_of_file hm (by omega), released_sum h hge]
  have hbound : ¬ imagesize m > flashBootldrPayloadSizeKb * 1024 / 4 := by
    have hmax : (flashBootldrPayloadSizeKb * 1024 / 4).toNat = 30720 := by decide
    rw [gt_iff_lt, UInt32.lt_iff_toNat_lt, hmax, hsize, hcount]
    omega
  unfold bootGate validateChecksum
  rw [hsize, hcount, hsum, hfirst, hstack, ← hsize]
  simp [hbound]

/-! ### Over USB -/

/-- What a download leaves in the flash is the file: the last operation addressed to each of its
    pages leaves the bytes of the file there. -/
def Delivered (out : List UInt8) (cmds : List DfuseCmd) : Prop :=
  ∀ i < out.length, ∃ op, lastOp (pageOf (appAddress + UInt32.ofNat i)) (pageOps ⟨0, rfl⟩ cmds)
      = some op
    ∧ op.content 0xFF (pageOffset (appAddress + UInt32.ofNat i)) = out.getD i 0

/-- The USB loop leaves the SRAM alone. -/
theorem run_sram (d : Dev) (evs : List BusEvent) :
    (d.run evs).dfu.store.sram = d.dfu.store.sram :=
  Machine.run_invariant' (I := fun d' : Dev => d'.dfu.store.sram = d.dfu.store.sram)
    (fun d' e h => (step_sram d' e).1.trans h) rfl evs

/-- A session and a manifestation reset the device with the pages of the session in the
    flash. -/
theorem run_download (b : Board) (hbuild : b.safeWrite = false) {cmds : List (DfuseCmd × ℕ)}
    (hin : ForApp ⟨0, rfl⟩ (cmds.map Prod.fst)) {blocknum : UInt16} {evs : List BusEvent}
    (hpaced : Paced (sessionPackets cmds ++ manifestPackets blocknum) evs) :
    ((Dev.init b).run ([.busReset, .poll] ++ evs)).dfu.reset = true
      ∧ Holds ((Dev.init b).run ([.busReset, .poll] ++ evs)).dfu.store.flash
          (PageStore.run 0xFF (flashPages b.flash) (pageOps ⟨0, rfl⟩ (cmds.map Prod.fst))) := by
  obtain ⟨evs₁, evs₂, rfl, hsession, hmanifest⟩ := hpaced.split
  have hsim : Simulates (Dfu.init b.safeWrite b.store) ⟨0, rfl⟩ (flashPages b.flash) :=
    ⟨holds_flashPages b.flash, rfl, hbuild⟩
  obtain ⟨f, addr, hidle, hend⟩ := run_session_idle (init_idle b) hsim hin hsession
  obtain ⟨hreset, hstore⟩ := run_manifest hidle hmanifest
  rw [Dev.run_append, Dev.run_append, hstore]
  exact ⟨hreset, hend.pages⟩

/-- **The boot after it**, without an image in the SRAM: where the flash holds what the tool wrote,
    the device gets to the application. -/
theorem Life.boot_released (c : Chip) {file out : List UInt8} (hfile : 0x24 ≤ file.length)
    (hfit : paddedLen file ≤ 122880) (hstack : fileWord file 0 &&& 0x2FFE0000 = 0x20000000)
    {arg : Option Int} {fwlen : Nat} (hlen : FwLen file arg fwlen)
    (htool : checksumPy file arg = some out) {s : Store} (hsram : sramHasValidImage s = false)
    (hflash : ∀ i < out.length, s.flash (appAddress + UInt32.ofNat i) = out.getD i 0)
    (mem : Memories) : (Life.restart s 0).step c (.boot false mem) = .app s.powerUp 0 := by
  obtain ⟨h4, hge, hle⟩ := hlen.bounds hfile
  have hreleased : out = released file fwlen := by
    rw [checksumPy_eq hfile hlen (by omega)] at htool
    exact (Option.some.inj htool).symm
  have hlength : out.length = paddedLen file := by rw [hreleased, released_length hfile]
  have hcleared : sramHasValidImage s.powerUp = false := by
    rw [sramHasValidImage_congr (Store.powerUp_sram s), hsram]
  have hgate : bootGate s.powerUp.flash = true :=
    bootGate_released hfile hge (by omega) hstack fun i hi => by
      rw [Store.powerUp_flash, hflash i (by omega), hreleased]
  rw [Life.restart, Life.step_boot_of_invalid c false mem 0 hcleared, hgate]
  rfl

/-- **From `checksum.py` over USB to the application.**  A device without an image in its SRAM
    that boots into the USB loop, whatever is in its flash: a host downloads the file that the
    tool wrote, by any commands and blocks whose last word on each page is the file's, with any
    pacing, and asks for manifestation.  Then the device resets itself, and the boot after that
    jumps to the application, which is the file. -/
theorem deploy_usb (c : Chip) (hbuild : c.safeWrite = false) (file out : List UInt8)
    (hfile : 0x24 ≤ file.length) (hfit : paddedLen file ≤ 122880)
    (hstack : fileWord file 0 &&& 0x2FFE0000 = 0x20000000) (arg : Option Int) (fwlen : Nat)
    (hlen : FwLen file arg fwlen) (htool : checksumPy file arg = some out)
    {cmds : List (DfuseCmd × ℕ)} (hin : ForApp ⟨0, rfl⟩ (cmds.map Prod.fst))
    (hout : Delivered out (cmds.map Prod.fst)) {blocknum : UInt16} {evs : List BusEvent}
    (hpaced : Paced (sessionPackets cmds ++ manifestPackets blocknum) evs)
    (s : Store) (hsram : sramHasValidImage s = false) (word : UInt32) (pin : Bool)
    (hdfu : word = 0xCC00FFEE ∨ pin = true ∨ bootGate s.flash = false) (mem mem' : Memories) :
    ∃ s', (Life.start s word).run c
        (.boot pin mem :: List.map .usb ([.busReset, .poll] ++ evs) ++ [.boot false mem'])
        = .app s' 0
      ∧ ∀ i < out.length, s'.flash (appAddress + UInt32.ofNat i) = out.getD i 0 := by
  -- the session
  have hboot : (Life.start s word).step c (.boot pin mem)
      = .usb (Dev.init (c.board mem s)) word := by
    rcases Life.boot_settled c pin mem word hsram with ⟨-, hword, hpin, hgate⟩ | ⟨heq, -⟩
    · rcases hdfu with hdfu | hdfu | hdfu
      · exact absurd hdfu hword
      · rw [hpin] at hdfu
        exact absurd hdfu (by decide)
      · rw [hgate] at hdfu
        exact absurd hdfu (by decide)
    · exact heq
  obtain ⟨hreset, hpages⟩ := run_download (c.board mem s) hbuild hin hpaced
  have hsession := Life.run_session c pin mem s word hboot hreset
  generalize hd : (Dev.init (c.board mem s)).run ([.busReset, .poll] ++ evs) = d at *
  -- what it leaves
  have hflash (i : Nat) (hi : i < out.length) :
      d.dfu.store.flash (appAddress + UInt32.ofNat i) = out.getD i 0 := by
    obtain ⟨op, hlast, hcontent⟩ := hout i hi
    rw [hpages, run_eq_last, hlast]
    exact hcontent
  have hkept : sramHasValidImage d.dfu.store = false := by
    have hsame : d.dfu.store.sram = s.sram := by
      rw [← hd, run_sram]
      rfl
    rw [sramHasValidImage_congr hsame, hsram]
  refine ⟨d.dfu.store.powerUp, ?_, hflash⟩
  rw [Life.run_append, hsession, Life.run_cons, Life.run_nil,
    Life.boot_released c hfile hfit hstack hlen htool hkept hflash]

/-! ### Over the SRAM -/

/-- The SRAM holds the first `n` bytes of a file at `offset`, with a header that says so. -/
structure Posted (s : Store) (out : List UInt8) (offset n : Nat) : Prop where
  header : s.header = ⟨sramImageMagic, UInt32.ofNat offset, UInt32.ofNat n⟩
  body : ∀ i < n, s.sram (offset + i) = out.getD i 0
  offset_ge : 12 ≤ offset
  fits : offset + n ≤ 122892

/-- A posted file that the tool wrote is a valid image. -/
theorem Posted.valid {s : Store} {file : List UInt8} {offset fwlen : Nat}
    (h : Posted s (released file fwlen) offset fwlen) (hfile : 0x24 ≤ file.length)
    (h4 : fwlen % 4 = 0) (hge : 0x24 ≤ fwlen) :
    ValidImage s ∧ s.imgSize = fwlen
      ∧ ∀ i < fwlen, s.imageByte i = (released file fwlen).getD i 0 := by
  have hge' := h.offset_ge
  have hfits := h.fits
  have hoffset : s.imgOffset = offset := by
    rw [Store.imgOffset, h.header]
    exact Nat.mod_eq_of_lt (by omega)
  have hsize : s.imgSize = fwlen := by
    rw [Store.imgSize, h.header]
    exact Nat.mod_eq_of_lt (by omega)
  have hword (i : Nat) (hi : i < fwlen / 4) :
      s.imageWord i = fileWord (released file fwlen) i := by
    have hbyte (j : Nat) (hj : j < 4) := h.body (4 * i + j) (by omega)
    simp only [← Nat.add_assoc] at hbyte
    simp only [Store.imageWord, fileWord, memWord, hoffset, Nat.zero_add]
    rw [show offset + 4 * i = offset + 4 * i + 0 from rfl, hbyte 0 (by omega), Nat.add_zero,
      hbyte 1 (by omega), hbyte 2 (by omega), hbyte 3 (by omega), Nat.add_zero]
  refine ⟨⟨?_, by omega, by omega, by omega, ?_, by omega, ?_⟩, hsize, fun i hi => ?_⟩
  · rw [h.header]
  · omega
  · rw [hsize, xorFold_congr hword, released_sum hfile hge]
  · rw [Store.imageByte, hoffset, h.body i hi]

/-- **From `checksum.py` over the SRAM to the application.**  The running application puts the
    file that the tool wrote, or the part of it that is summed, into the SRAM behind a header,
    and the device is reset or loses its power, whatever word is left at `_stack`.  Then the
    next boot puts the file into the flash and resets, and the one after that jumps to it. -/
theorem deploy_sram (c : Chip) (file out : List UInt8) (hfile : 0x24 ≤ file.length)
    (hstack : fileWord file 0 &&& 0x2FFE0000 = 0x20000000) (arg : Option Int) (fwlen : Nat)
    (hlen : FwLen file arg fwlen) (hfit : fwlen ≤ 122880) (htool : checksumPy file arg = some out)
    (s : Store) (ops : List StoreOp) (offset : Nat) (hpost : Posted (replay ops s) out offset fwlen)
    (word word' : UInt32) (loss : Loss) (pin : Bool) (mem mem' : Memories) :
    ∃ s', (Life.app s word).run c
        [.app ops word', .lost loss, .boot pin mem, .boot false mem'] = .app s' 0
      ∧ (∀ i < fwlen, s'.flash (appAddress + UInt32.ofNat i) = out.getD i 0)
      ∧ sramHasValidImage s' = false := by
  obtain ⟨h4, hge, hle⟩ := hlen.bounds hfile
  have hreleased : out = released file fwlen := by
    rw [checksumPy_eq hfile hlen (by omega)] at htool
    exact (Option.some.inj htool).symm
  subst hreleased
  obtain ⟨hvalid, hsize, hbyte⟩ := hpost.valid hfile h4 hge
  have hpend : Pending (replay ops s) (replay ops s).powerUp := (Pending.refl _).powerUp
  have hup := (hpend.image hvalid).1
  obtain ⟨s'', hboot, hcons⟩ := hpend.boot hvalid c pin mem (loss.word word')
  have hflash (i : Nat) (hi : i < fwlen) :
      s''.flash (appAddress + UInt32.ofNat i) = (released file fwlen).getD i 0 := by
    rw [hcons.flash, tornFlash_whole hvalid (by omega), hbyte i hi]
  have hgate : bootGate s''.powerUp.flash = true :=
    bootGate_released hfile hge hfit hstack hflash
  refine ⟨s''.powerUp, ?_, hflash, hcons.cleared⟩
  show (Life.start (replay ops s).powerUp (loss.word word')).run c
    [.boot pin mem, .boot false mem'] = _
  rw [Life.run_cons, Life.run_cons, Life.run_nil, Life.step, hboot]
  show (Life.start s''.powerUp 0).step c (.boot false mem') = _
  rw [Life.step_boot_of_invalid c false mem' 0 hcons.powerUp.cleared, hgate]
  rfl

/-! ### The download of a DfuSe host -/

/-- The bytes of page `i` of a file. -/
def chunk (out : List UInt8) (i : Nat) : List UInt8 := (out.drop (1024 * i)).take 1024

theorem chunk_length (out : List UInt8) (i : Nat) :
    (chunk out i).length = min 1024 (out.length - 1024 * i) := by
  rw [chunk, List.length_take, List.length_drop]

/-- Block `i + 2` of a download, if the file reaches it. -/
def blockCmd (out : List UInt8) (i : Nat) : Option DfuseCmd :=
  if h : UInt16.ofNat (i + 2) ≠ 0 ∧ 0 < (chunk out i).length ∧ (chunk out i).length ≤ 1024 then
    some (.block ⟨UInt16.ofNat (i + 2), h.1⟩ ⟨chunk out i, h.2⟩)
  else none

/-- The blocks from `i` on. -/
def blockCmds (out : List UInt8) : Nat → Nat → List DfuseCmd
  | _, 0     => []
  | i, n + 1 => (blockCmd out i).toList ++ blockCmds out (i + 1) n

/-- A file downloaded to the application: the address, and the blocks in order. -/
def downloadCmds (out : List UInt8) : List DfuseCmd :=
  .setaddr ⟨appAddress, by decide⟩ :: blockCmds out 0 (pagesOf out.length)

/-- The address of such a block. -/
theorem blockAddr_appAddress {i : Nat} (hi : i < 120) :
    (blockAddr appAddress (UInt16.ofNat (i + 2))).toNat = appAddress.toNat + 1024 * i := by
  have hnum : (UInt16.ofNat (i + 2)).toUInt32 - 2 = UInt32.ofNat i := by
    rw [← UInt32.toNat_inj, UInt32.toNat_sub, UInt16.toNat_toUInt32, UInt16.toNat_ofNat',
      UInt32.toNat_ofNat']
    show (2 ^ 32 - 2 + (i + 2) % 2 ^ 16) % 2 ^ 32 = i % 2 ^ 32
    omega
  rw [blockAddr, hnum, UInt32.mul_comm]
  exact pageAddr_toNat (n := 120) (by rw [appAddress_toNat]; omega) hi

/-- A block that the file reaches. -/
theorem blockCmd_eq (out : List UInt8) (i : Nat) (hi : 1024 * i < out.length)
    (hfit : out.length ≤ 122880) :
    ∃ num data, blockCmd out i = some (.block num data) ∧ num.1 = UInt16.ofNat (i + 2)
      ∧ data.1 = chunk out i := by
  have hnum : UInt16.ofNat (i + 2) ≠ 0 := by
    intro h0
    have hval := congrArg UInt16.toNat h0
    rw [UInt16.toNat_ofNat'] at hval
    have hzero : (0 : UInt16).toNat = 0 := rfl
    omega
  have hlen := chunk_length out i
  have hboth : UInt16.ofNat (i + 2) ≠ 0 ∧ 0 < (chunk out i).length ∧ (chunk out i).length ≤ 1024 :=
    ⟨hnum, by omega, by omega⟩
  exact ⟨⟨_, hnum⟩, ⟨_, hboth.2⟩, dif_pos hboth, rfl, rfl⟩

/-- The blocks stay in the application region, and the last operation addressed to each of
    their pages is the block for it. -/
theorem blockCmds_pages {out : List UInt8} (heven : out.length % 2 = 0)
    (hfit : out.length ≤ 122880) (n : Nat) :
    ∀ i, i + n = pagesOf out.length →
      ForApp ⟨appAddress, by decide⟩ (blockCmds out i n)
        ∧ ∀ k, lastOp (pageOf appAddress + k)
              (pageOps ⟨appAddress, by decide⟩ (blockCmds out i n))
            = if i ≤ k ∧ k < i + n then some (.write (pageOf appAddress + k) (chunk out k))
              else none := by
  induction n with
  | zero =>
    intro i hi
    refine ⟨trivial, fun k => ?_⟩
    rw [if_neg (by omega)]
    rfl
  | succ n ih =>
    intro i hi
    simp only [pagesOf] at hi
    obtain ⟨happ, hlast⟩ := ih (i + 1) (by simp only [pagesOf]; omega)
    obtain ⟨num, data, hcmd, hnum, hdata⟩ := blockCmd_eq out i (by omega) hfit
    have haddr : (blockAddr appAddress num).toNat = appAddress.toNat + 1024 * i := by
      rw [hnum]
      exact blockAddr_appAddress (by omega)
    have hpage : pageOf (blockAddr appAddress num) = pageOf appAddress + i := by
      rw [pageOf, pageOf, haddr, appAddress_toNat]
      omega
    have hwhole : data.1.take (2 * (data.1.length / 2)) = chunk out i := by
      have hlen := chunk_length out i
      rw [hdata, List.take_of_length_le]
      omega
    rw [blockCmds, hcmd]
    refine ⟨⟨?_, happ⟩, fun k => ?_⟩
    · intro a ha
      cases ha
      show InApp (blockAddr appAddress num)
      rw [inApp_iff, haddr, appAddress_toNat]
      omega
    · show lastOp _
        (.write (pageOf (blockAddr appAddress num)) (data.1.take (2 * (data.1.length / 2)))
        :: pageOps ⟨appAddress, by decide⟩ (blockCmds out (i + 1) n)) = _
      rw [lastOp_cons, hwhole, hpage, hlast k, PageOp.page_write]
      by_cases hk : k = i
      · rw [if_neg (by omega), if_pos (by omega), if_pos (by omega), hk]
        rfl
      · rw [if_neg (show ¬ pageOf appAddress + i = pageOf appAddress + k by omega), Option.or_none]
        by_cases hin : i + 1 ≤ k ∧ k < i + 1 + n
        · rw [if_pos hin, if_pos (by omega)]
        · rw [if_neg hin, if_neg (by omega)]

/-- **A DfuSe host delivers the file**: the address once, then the blocks in order. -/
theorem downloadCmds_delivered (out : List UInt8) (heven : out.length % 2 = 0)
    (hfit : out.length ≤ 122880) :
    ForApp ⟨0, rfl⟩ (downloadCmds out) ∧ Delivered out (downloadCmds out) := by
  obtain ⟨happ, hlast⟩ := blockCmds_pages heven hfit (pagesOf out.length) 0 (Nat.zero_add _)
  refine ⟨⟨fun a ha => absurd ha (Option.not_mem_none a), happ⟩, fun i hi => ?_⟩
  have haddr : (appAddress + UInt32.ofNat i).toNat = appAddress.toNat + i :=
    toNat_add_ofNat (by rw [appAddress_toNat]; omega)
  have hpage : pageOf (appAddress + UInt32.ofNat i) = pageOf appAddress + i / 1024 := by
    rw [pageOf, pageOf, haddr, appAddress_toNat]
    omega
  have hoffset : pageOffset (appAddress + UInt32.ofNat i)
      = ⟨i % 1024, Nat.mod_lt _ (by decide)⟩ := by
    apply Fin.ext
    show (appAddress + UInt32.ofNat i).toNat % 1024 = i % 1024
    rw [haddr, appAddress_toNat]
    omega
  refine ⟨.write (pageOf appAddress + i / 1024) (chunk out (i / 1024)), ?_, ?_⟩
  · rw [hpage]
    show lastOp _ (pageOps ⟨appAddress, _⟩ (blockCmds out 0 (pagesOf out.length))) = _
    rw [hlast, if_pos (by simp only [pagesOf]; omega)]
  · rw [hoffset]
    show (chunk out (i / 1024)).getD (i % 1024) 0xFF = out.getD i 0
    have hlen := chunk_length out (i / 1024)
    rw [List.getD_eq_getElem _ _ (by omega), List.getD_eq_getElem _ _ hi]
    simp only [chunk, List.getElem_take, List.getElem_drop]
    congr 1
    omega

/-- A firmware file of nine words. -/
def nineWordsFile : List UInt8 := [0x00, 0x00, 0x00, 0x20] ++ List.replicate 32 0

/-- Its release. -/
def nineWordsRelease : List UInt8 :=
  [0x00, 0x00, 0x00, 0x20] ++ List.replicate 24 0 ++ [0xE7, 0x0F, 0xDC, 0x94, 9, 0, 0, 0]

/-- Its download, with one `DFU_GETSTATUS` after each block. -/
def nineWordsCmds : List (DfuseCmd × ℕ) := (downloadCmds nineWordsRelease).map fun c => (c, 0)

theorem deploy_usb_nineWords :
    ∃ s', (Life.start { nineWordsStore with flash := fun _ => 0xFF } 0).run someChip
        (.boot false noMemories :: List.map .usb ([.busReset, .poll]
          ++ polled (sessionPackets nineWordsCmds ++ manifestPackets 0))
          ++ [.boot false noMemories])
        = .app s' 0
      ∧ ∀ i < nineWordsRelease.length,
          s'.flash (appAddress + UInt32.ofNat i) = nineWordsRelease.getD i 0 := by
  have hcmds : nineWordsCmds.map Prod.fst = downloadCmds nineWordsRelease := by
    rw [nineWordsCmds, List.map_map]
    exact List.map_id _
  obtain ⟨happ, hdelivered⟩ := downloadCmds_delivered nineWordsRelease (by decide) (by decide)
  refine deploy_usb someChip rfl nineWordsFile nineWordsRelease (by decide) (by decide) (by decide)
    none 36 (Or.inl ⟨rfl, by decide⟩) (by decide +kernel) ?_ ?_ (paced_polled _)
    { nineWordsStore with flash := fun _ => 0xFF } (by decide +kernel) 0 false
    (Or.inr (Or.inr (by decide +kernel))) noMemories noMemories
  · rw [hcmds]
    exact happ
  · rw [hcmds]
    exact hdelivered

/-- What the application writes to the SRAM: the header, and the release behind it. -/
def nineWordsPost : List StoreOp :=
  sramOps 0 ([0x53, 0x42, 0x41, 0x4D, 12, 0, 0, 0, 36, 0, 0, 0] ++ nineWordsRelease)

theorem deploy_sram_nineWords :
    ∃ s', (Life.app { nineWordsStore with flash := fun _ => 0 } 0).run someChip
        [.app nineWordsPost 0xCC00FFEE, .lost .reset, .boot false noMemories,
          .boot false noMemories] = .app s' 0
      ∧ (∀ i < 36, s'.flash (appAddress + UInt32.ofNat i) = nineWordsRelease.getD i 0)
      ∧ sramHasValidImage s' = false := by
  have hpost : Posted (replay nineWordsPost { nineWordsStore with flash := fun _ => 0 })
      nineWordsRelease 12 36 :=
    ⟨by decide +kernel, by decide +kernel, by decide, by decide⟩
  exact deploy_sram someChip nineWordsFile nineWordsRelease (by decide) (by decide) none 36
    (Or.inl ⟨rfl, by decide⟩) (by decide) (by decide +kernel) _ nineWordsPost 12 hpost 0 0xCC00FFEE
    .reset false noMemories noMemories

end Stm32F1Dfu
