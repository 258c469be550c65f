import Stm32F1Dfu.Driver

namespace Stm32F1Dfu

/-!
# What the driver reads from the flash

The addresses that `_flash_page_is_erased` and the copy of `DFU_UPLOAD` read.

* `pageReads` — the bytes of the blank check, which leaves at the first word that is not
  blank;
* `uploadReads`, `completeReads` — the bytes that a request and a completion read; a request
  depends on no others (`answers_withFlash`);
* `pageReads_inApp_iff` — a blank check that starts in the region stays there when its
  window does, or when it meets a word that is not blank in time;
* `run_readsInApp_iff` — the runs whose reads all stay in the application region.
-/

/-! ### The reads -/

/-- The bytes that `_flash_page_is_erased` reads from word `i` on, with `n` words to go. -/
def pageReads (m : UInt32 → UInt8) (addr : UInt32) (i : Nat) : Nat → List UInt32
  | 0     => []
  | n + 1 =>
      (List.range 4).map (fun j => addr + UInt32.ofNat (4 * i + j))
        ++ if wordAt m (addr + 4 * UInt32.ofNat i) = 0xFFFFFFFF then pageReads m addr (i + 1) n
          else []

/-- The bytes that the blank check of the page at `addr` reads. -/
def blankCheckReads (m : UInt32 → UInt8) (addr : UInt32) : List UInt32 := pageReads m addr 0 256

/-- The bytes read by `n` rounds of the loop over the pages from `a` on. -/
def erasePagesReads (s : Store) (a : UInt32) : Nat → List UInt32
  | 0     => []
  | i + 1 =>
      erasePagesReads s a i
        ++ blankCheckReads (erasePages s a i).flash (a + 1024 * UInt32.ofNat i)

/-- The bytes read by `check_do_erase`, where `ENABLE_SAFEWRITE` calls it. -/
def ifdefSafeWriteReads (d : Dfu) : List UInt32 :=
  if d.safeWrite then if d.erased then [] else erasePagesReads d.store startAddr 120 else []

/-- The bytes read by `CMD_ERASE`. -/
def execEraseReads (d : Dfu) : List UInt32 :=
  ifdefSafeWriteReads d
    ++ if inRange d.prog.operand 1024 then
        blankCheckReads (ifdefSafeWrite d).store.flash d.prog.operand
      else []

/-- The bytes read before a block is programmed. -/
def execBlockReads (d : Dfu) : List UInt32 :=
  ifdefSafeWriteReads d
    ++ if inRange d.prog.baseaddr d.prog.len.toUInt32 then
        blankCheckReads (ifdefSafeWrite d).store.flash d.prog.baseaddr
      else []

/-- The bytes read by the stored download. -/
def execProgReads (d : Dfu) : List UInt32 :=
  if d.prog.blocknum = 0 then
    if d.prog.buf 0 = cmdErase then execEraseReads d else []
  else execBlockReads d

/-- The bytes that `usbdfu_getstatus_complete` reads in blank checks. -/
def completeReads (d : Dfu) : List UInt32 :=
  match d.state with
  | .dnbusy => execProgReads { d with store := flashUnlock d.store }
  | _       => []

/-- The request is a `DFU_UPLOAD` of a block. -/
def UsbSetupData.UploadsBlock (req : UsbSetupData) : Prop :=
  DfuReq.ofCode req.bRequest = some .upload ∧ req.wValue ≠ 0

instance (req : UsbSetupData) : Decidable req.UploadsBlock :=
  inferInstanceAs (Decidable (_ ∧ _))

/-- The bytes that the copy of `DFU_UPLOAD` reads. -/
def uploadReads (d : Dfu) (req : UsbSetupData) : List UInt32 :=
  if req.UploadsBlock ∧ inRange (blockAddr d.prog.addr req.wValue) 1024 = true then
    (List.range 1024).map fun i => blockAddr d.prog.addr req.wValue + UInt32.ofNat i
  else []

/-- The bytes that a step makes the driver read. -/
def Dev.reads (d : Dev) (e : BusEvent) : List UInt32 :=
  if d.Completes e then completeReads d.dfu
  else if d.dfu.reset = false ∧ e = .poll then
    match d.nextRequest with
    | some req => uploadReads d.dfu req
    | none     => []
  else []

/-! ### The blank check -/

/-- A byte that is read lies in a word that only blank words precede. -/
theorem mem_pageReads {m : UInt32 → UInt8} {addr b : UInt32} {n : Nat} :
    ∀ {i : Nat}, b ∈ pageReads m addr i n ↔
      ∃ k < n, (∀ l < k, wordAt m (addr + 4 * UInt32.ofNat (i + l)) = 0xFFFFFFFF)
        ∧ ∃ j < 4, b = addr + UInt32.ofNat (4 * (i + k) + j) := by
  induction n with
  | zero =>
    intro i
    simp [pageReads]
  | succ n ih =>
    intro i
    rw [pageReads, List.mem_append, List.mem_map]
    constructor
    · rintro (⟨j, hj, rfl⟩ | hrest)
      · -- the first word is read in any case
        refine ⟨0, Nat.succ_pos n, fun l hl => absurd hl (Nat.not_lt_zero l), j, ?_, rfl⟩
        exact List.mem_range.mp hj
      · by_cases hblank : wordAt m (addr + 4 * UInt32.ofNat i) = 0xFFFFFFFF
        · -- a later one, behind a first word that is blank
          rw [if_pos hblank] at hrest
          obtain ⟨k, hk, hbefore, j, hj, rfl⟩ := ih.mp hrest
          refine ⟨k + 1, by omega, ?_, j, hj, ?_⟩
          · intro l hl
            cases l with
            | zero => exact hblank
            | succ l =>
              have := hbefore l (by omega)
              rwa [Nat.add_right_comm] at this
          · rw [show i + 1 + k = i + (k + 1) by omega]
        · rw [if_neg hblank] at hrest
          exact absurd hrest List.not_mem_nil
    · rintro ⟨k, hk, hbefore, j, hj, rfl⟩
      cases k with
      | zero => exact Or.inl ⟨j, List.mem_range.mpr hj, rfl⟩
      | succ k =>
        right
        have hfirst : wordAt m (addr + 4 * UInt32.ofNat i) = 0xFFFFFFFF := hbefore 0 (by omega)
        rw [if_pos hfirst]
        refine ih.mpr ⟨k, by omega, ?_, j, hj, ?_⟩
        · intro l hl
          have := hbefore (l + 1) (by omega)
          rwa [show i + (l + 1) = i + 1 + l by omega] at this
        · rw [show i + (k + 1) = i + 1 + k by omega]

theorem mem_blankCheckReads {m : UInt32 → UInt8} {addr b : UInt32} :
    b ∈ blankCheckReads m addr ↔
      ∃ k < 256, (∀ l < k, wordAt m (addr + 4 * UInt32.ofNat l) = 0xFFFFFFFF)
        ∧ ∃ j < 4, b = addr + UInt32.ofNat (4 * k + j) := by
  rw [blankCheckReads, mem_pageReads]
  simp only [Nat.zero_add]

/-- **Where a blank check stays.**  From an address not below the region it reads inside
    the region exactly when its window ends there, or when a word that ends there is not
    blank. -/
theorem blankCheckReads_inApp_iff {m : UInt32 → UInt8} {addr : UInt32}
    (hlo : 0x08002000 ≤ addr.toNat) :
    (∀ b ∈ blankCheckReads m addr, InApp b) ↔
      addr.toNat + 1024 ≤ 0x08020000
        ∨ ∃ k < 256, addr.toNat + 4 * k + 4 ≤ 0x08020000
            ∧ wordAt m (addr + 4 * UInt32.ofNat k) ≠ 0xFFFFFFFF := by
  have haddr := addr.toNat_lt
  constructor
  · intro h
    by_contra hno
    rw [not_or] at hno
    obtain ⟨hend, hno⟩ := hno
    have hblank (l : Nat) (hl : l < (0x08020000 - addr.toNat) / 4) :
        wordAt m (addr + 4 * UInt32.ofNat l) = 0xFFFFFFFF := by
      by_contra hne
      exact hno ⟨l, by omega, by omega, hne⟩
    -- the first word that does not end in the region is read
    have hread := h _ (mem_blankCheckReads.mpr ⟨(0x08020000 - addr.toNat) / 4, by omega, hblank,
      3, by omega, rfl⟩)
    rw [inApp_iff, UInt32.toNat_add, UInt32.toNat_ofNat'] at hread
    omega
  · intro h b hb
    obtain ⟨k, hk, hbefore, j, hj, rfl⟩ := mem_blankCheckReads.mp hb
    have hfit : addr.toNat + 4 * k + 4 ≤ 0x08020000 := by
      rcases h with h | ⟨k', hk', hfit, hne⟩
      · omega
      · -- the check has left at word `k'` at the latest
        have hle : k ≤ k' := by
          by_contra hlt
          exact hne (hbefore k' (by omega))
        omega
    rw [inApp_iff, toNat_add_ofNat (by omega)]
    omega

/-- The walk of `check_do_erase` stays in the region. -/
theorem ifdefSafeWriteReads_inApp (d : Dfu) : ∀ b ∈ ifdefSafeWriteReads d, InApp b := by
  have hwalk (s : Store) (n : Nat) : n ≤ 120 → ∀ b ∈ erasePagesReads s startAddr n, InApp b := by
    induction n with
    | zero =>
      intro _ b hb
      exact absurd hb List.not_mem_nil
    | succ n ih =>
      intro hn b hb
      rcases List.mem_append.mp hb with hb | hb
      · exact ih (by omega) b hb
      · have hpage : (startAddr + 1024 * UInt32.ofNat n).toNat = 0x08002000 + 1024 * n :=
          pageAddr_toNat (n := 120) (by decide) (by omega)
        exact (blankCheckReads_inApp_iff (by omega)).mpr (Or.inl (by omega)) b hb
  intro b hb
  unfold ifdefSafeWriteReads at hb
  split at hb
  · split at hb
    · exact absurd hb List.not_mem_nil
    · exact hwalk d.store 120 (Nat.le_refl _) b hb
  · exact absurd hb List.not_mem_nil

/-! ### A completion -/

/-- What keeps the reads of the stored download in the region: the operand of `CMD_ERASE`
    is not in the last 1024 bytes below 2³²; the range of a block that passes its check does
    not end at or past 2³², and the window of the blank check ends in the region or holds a
    word there that is not blank. -/
def Dfu.ReadsFit (d : Dfu) : Prop :=
  if d.prog.blocknum = 0 then
    d.prog.buf 0 = cmdErase → d.prog.operand.toNat + 1024 < 2 ^ 32
  else
    inRange d.prog.baseaddr d.prog.len.toUInt32 = true →
      d.prog.baseaddr.toNat + d.prog.len.toNat < 2 ^ 32
        ∧ (d.prog.baseaddr.toNat + 1024 ≤ 0x08020000
          ∨ d.wipes = false ∧ ∃ k < 256, d.prog.baseaddr.toNat + 4 * k + 4 ≤ 0x08020000
              ∧ wordAt d.store.flash (d.prog.baseaddr + 4 * UInt32.ofNat k) ≠ 0xFFFFFFFF)

theorem execEraseReads_inApp_iff (d : Dfu) :
    (∀ b ∈ execEraseReads d, InApp b) ↔ d.prog.operand.toNat + 1024 < 2 ^ 32 := by
  have hrange := inRange_iff (a := d.prog.operand) (n := 1024) (by decide)
  rw [show (1024 : UInt32).toNat = 1024 from rfl] at hrange
  constructor
  · intro h
    by_contra hwrap
    -- such an operand passes the check, and the window starts behind the region
    have hpass : inRange d.prog.operand 1024 = true := hrange.mpr (Or.inr (by omega))
    have hcheck : ∀ b ∈ blankCheckReads (ifdefSafeWrite d).store.flash d.prog.operand, InApp b := by
      intro b hb
      refine h b (List.mem_append_right _ ?_)
      rwa [if_pos hpass]
    rcases (blankCheckReads_inApp_iff (by omega)).mp hcheck with hend | ⟨k, -, hend, -⟩
    · omega
    · omega
  · intro hfit b hb
    rcases List.mem_append.mp hb with hb | hb
    · exact ifdefSafeWriteReads_inApp d b hb
    · split at hb
      · rename_i hpass
        rcases hrange.mp hpass with ⟨hlo, hhi⟩ | hwrap
        · exact (blankCheckReads_inApp_iff hlo).mpr (Or.inl hhi) b hb
        · omega
      · exact absurd hb List.not_mem_nil

/-- A word of the region after the wipe, if it is due. -/
theorem wordAt_ifdefSafeWrite {d : Dfu} (hu : d.store.locked = false) {addr : UInt32} {k : Nat}
    (hlo : 0x08002000 ≤ addr.toNat) (hhi : addr.toNat + 4 * k + 4 ≤ 0x08020000) :
    wordAt (ifdefSafeWrite d).store.flash (addr + 4 * UInt32.ofNat k) ≠ 0xFFFFFFFF
      ↔ d.wipes = false ∧ wordAt d.store.flash (addr + 4 * UInt32.ofNat k) ≠ 0xFFFFFFFF := by
  have hin (j : Nat) (hj : j < 4) : InApp (addr + UInt32.ofNat (4 * k + j)) := by
    rw [inApp_iff, toNat_add_ofNat (by omega)]
    omega
  cases hw : d.wipes with
  | true =>
    -- every word of the region is blank then
    have hblank : wordAt (ifdefSafeWrite d).store.flash (addr + 4 * UInt32.ofNat k)
        = wordAt (fun _ => 0xFF) (addr + 4 * UInt32.ofNat k) := by
      apply wordAt_congr
      intro j hj
      rw [windowByte, ifdefSafeWrite_flash hu, if_pos ⟨hw, hin j hj⟩]
    rw [hblank]
    refine iff_of_false (fun h => h ?_) (by simp)
    exact LittleEndian.word_eq_ones.mpr ⟨rfl, rfl, rfl, rfl⟩
  | false =>
    have hsame : wordAt (ifdefSafeWrite d).store.flash (addr + 4 * UInt32.ofNat k)
        = wordAt d.store.flash (addr + 4 * UInt32.ofNat k) := by
      apply wordAt_congr
      intro j _
      rw [ifdefSafeWrite_flash hu, hw]
      exact if_neg (by simp)
    rw [hsame]
    simp

theorem execBlockReads_inApp_iff {d : Dfu} (hu : d.store.locked = false)
    (hlen : d.prog.len.toNat ≤ 1024) :
    (∀ b ∈ execBlockReads d, InApp b) ↔
      (inRange d.prog.baseaddr d.prog.len.toUInt32 = true →
        d.prog.baseaddr.toNat + d.prog.len.toNat < 2 ^ 32
          ∧ (d.prog.baseaddr.toNat + 1024 ≤ 0x08020000
            ∨ d.wipes = false ∧ ∃ k < 256, d.prog.baseaddr.toNat + 4 * k + 4 ≤ 0x08020000
                ∧ wordAt d.store.flash (d.prog.baseaddr + 4 * UInt32.ofNat k) ≠ 0xFFFFFFFF)) := by
  have hlen32 : d.prog.len.toUInt32.toNat = d.prog.len.toNat := UInt16.toNat_toUInt32 _
  have hrange := inRange_iff (a := d.prog.baseaddr) (n := d.prog.len.toUInt32) (by omega)
  rw [hlen32] at hrange
  constructor
  · intro h hpass
    -- a block that passes reads what the blank check of its window reads
    have hcheck : ∀ b ∈ blankCheckReads (ifdefSafeWrite d).store.flash d.prog.baseaddr,
        InApp b := by
      intro b hb
      refine h b (List.mem_append_right _ ?_)
      rwa [if_pos hpass]
    have hlo : 0x08002000 ≤ d.prog.baseaddr.toNat := by
      rcases hrange.mp hpass with ⟨hlo, -⟩ | hwrap
      · exact hlo
      · omega
    rcases (blankCheckReads_inApp_iff hlo).mp hcheck with hend | ⟨k, hk, hend, hne⟩
    · exact ⟨by omega, Or.inl hend⟩
    · obtain ⟨hw, hne⟩ := (wordAt_ifdefSafeWrite hu hlo hend).mp hne
      refine ⟨?_, Or.inr ⟨hw, k, hk, hend, hne⟩⟩
      rcases hrange.mp hpass with ⟨-, hhi⟩ | hwrap
      · omega
      · omega
  · intro hfit b hb
    rcases List.mem_append.mp hb with hb | hb
    · exact ifdefSafeWriteReads_inApp d b hb
    · split at hb
      · rename_i hpass
        obtain ⟨hnowrap, hwindow⟩ := hfit hpass
        have hlo : 0x08002000 ≤ d.prog.baseaddr.toNat := by
          rcases hrange.mp hpass with ⟨hlo, -⟩ | hwrap
          · exact hlo
          · omega
        refine (blankCheckReads_inApp_iff hlo).mpr ?_ b hb
        rcases hwindow with hend | ⟨hw, k, hk, hend, hne⟩
        · exact Or.inl hend
        · exact Or.inr ⟨k, hk, hend, (wordAt_ifdefSafeWrite hu hlo hend).mpr ⟨hw, hne⟩⟩
      · exact absurd hb List.not_mem_nil

/-- **A completion reads in the region** exactly when the stored download fits. -/
theorem completeReads_inApp_iff {d : Dfu} (hlen : d.LenOk) :
    (∀ b ∈ completeReads d, InApp b) ↔ (d.state = .dnbusy → d.ReadsFit) := by
  by_cases hs : d.state = .dnbusy
  · have hreads : completeReads d = execProgReads { d with store := flashUnlock d.store } := by
      unfold completeReads
      rw [hs]
    have hflash : (flashUnlock d.store).flash = d.store.flash := flashUnlock_flash _
    rw [hreads]
    unfold execProgReads Dfu.ReadsFit
    by_cases hb : d.prog.blocknum = 0
    · simp only [hb, if_true]
      by_cases he : d.prog.buf 0 = cmdErase
      · rw [if_pos he, execEraseReads_inApp_iff]
        exact ⟨fun h _ _ => h, fun h => h hs he⟩
      · rw [if_neg he]
        exact iff_of_true (fun b hb => absurd hb List.not_mem_nil) fun _ h => absurd h he
    · simp only [hb, if_false]
      have hblock := execBlockReads_inApp_iff (d := { d with store := flashUnlock d.store })
        (flashUnlock_locked d.store) (hlen (Or.inr hs)).2
      rw [hflash] at hblock
      exact hblock.trans ⟨fun h _ => h, fun h => h hs⟩
  · have hreads : completeReads d = [] := by
      unfold completeReads
      cases hst : d.state <;> first | rfl | exact absurd hst hs
    rw [hreads]
    exact iff_of_true (fun b hb => absurd hb List.not_mem_nil) fun h => absurd h hs

/-! ### A `DFU_UPLOAD` -/

/-- The store with another flash. -/
def Store.withFlash (s : Store) (m : UInt32 → UInt8) : Store := { s with flash := m }

/-- The driver with another flash. -/
def Dfu.withFlash (f : Dfu) (m : UInt32 → UInt8) : Dfu := { f with store := f.store.withFlash m }

/-- **A request reads nothing else**: with flashes that agree on these bytes it is answered
    alike. -/
theorem answers_withFlash {f : Dfu} {m : UInt32 → UInt8} {req : UsbSetupData}
    (h : ∀ b ∈ uploadReads f req, m b = f.store.flash b) :
    Answers f (·.withFlash m) (·.withFlash m) req := by
  intro ctrl complete
  unfold usbdfuControlRequest
  cases hcode : DfuReq.ofCode req.bRequest with
  | none => rfl
  | some r =>
    cases r with
    | dnload =>
      simp only
      split <;> rfl
    | upload =>
      simp only
      by_cases h0 : req.wValue = 0
      · rw [if_pos h0, if_pos h0]
        rfl
      rw [if_neg h0, if_neg h0]
      by_cases hpass : inRange (blockAddr f.prog.addr req.wValue) 1024 = true
      · -- the bytes that are copied are those of `uploadReads`
        have hcopy : memcpy ctrl
              (fun i => m (blockAddr f.prog.addr req.wValue + UInt32.ofNat i)) dfuTransferSize
            = memcpy ctrl (fun i => f.store.flash
                (blockAddr f.prog.addr req.wValue + UInt32.ofNat i)) dfuTransferSize := by
          funext i
          unfold memcpy
          split
          · rename_i hi
            apply h
            rw [uploadReads, if_pos ⟨⟨hcode, h0⟩, hpass⟩]
            exact List.mem_map_of_mem (List.mem_range.mpr hi)
          · rfl
        have hpass' : inRange (blockAddr (f.withFlash m).prog.addr req.wValue) 1024 = true := hpass
        rw [if_pos hpass, if_pos hpass', ← hcopy]
        rfl
      · have hfail' : ¬ inRange (blockAddr (f.withFlash m).prog.addr req.wValue) 1024 = true :=
          hpass
        rw [if_neg hpass, if_neg hfail']
        rfl
    | getstatus =>
      simp only [usbdfuGetstatus]
      rw [show (f.withFlash m).state = f.state from rfl]
      cases f.state <;> rfl
    | detach | clrstatus | getstate | abort => rfl

theorem uploadReads_inApp_iff (d : Dfu) (req : UsbSetupData) :
    (∀ b ∈ uploadReads d req, InApp b) ↔
      (req.UploadsBlock → (blockAddr d.prog.addr req.wValue).toNat + 1024 < 2 ^ 32) := by
  have hrange := inRange_iff (a := blockAddr d.prog.addr req.wValue) (n := 1024) (by decide)
  rw [show (1024 : UInt32).toNat = 1024 from rfl] at hrange
  unfold uploadReads
  generalize blockAddr d.prog.addr req.wValue = addr at hrange ⊢
  by_cases hreq : req.UploadsBlock
  · constructor
    · intro h _
      by_contra hwrap
      -- the sum of the range check wraps, and the first byte lies behind the region
      have hpass : inRange addr 1024 = true := hrange.mpr (Or.inr (by omega))
      rw [if_pos ⟨hreq, hpass⟩] at h
      have hfirst := h (addr + UInt32.ofNat 0)
        (List.mem_map_of_mem (List.mem_range.mpr (by omega)))
      rw [show UInt32.ofNat 0 = 0 from rfl, UInt32.add_zero, inApp_iff] at hfirst
      omega
    · intro hfit b hb
      split at hb
      · rename_i hpass
        obtain ⟨i, hi, rfl⟩ := List.mem_map.mp hb
        have hi := List.mem_range.mp hi
        rcases hrange.mp hpass.2 with ⟨hlo, hhi⟩ | hwrap
        · rw [inApp_iff, toNat_add_ofNat (by omega)]
          omega
        · have := hfit hreq
          omega
      · exact absurd hb List.not_mem_nil
  · rw [if_neg fun h => hreq h.1]
    exact iff_of_true (fun b hb => absurd hb List.not_mem_nil) fun h => absurd h hreq

/-! ### Runs -/

/-- The step reads application flash only. -/
def ReadsInApp (d : Dev) (e : BusEvent) : Prop := ∀ b ∈ d.reads e, InApp b

/-- Where the step completes a download or uploads a block, that fits. -/
def ReadsFitStep (d : Dev) (e : BusEvent) : Prop :=
  (d.Completes e → d.dfu.state = .dnbusy → d.dfu.ReadsFit)
    ∧ ∀ req, d.Hands e req → req.UploadsBlock →
        (blockAddr d.dfu.prog.addr req.wValue).toNat + 1024 < 2 ^ 32

instance (d : Dev) (e : BusEvent) : Decidable (ReadsInApp d e) :=
  List.decidableBAll InApp (d.reads e)

/-- **A step reads in the region** exactly when what it completes or uploads fits. -/
theorem readsInApp_iff {d : Dev} (hlen : d.dfu.LenOk) (e : BusEvent) :
    ReadsInApp d e ↔ ReadsFitStep d e := by
  unfold ReadsInApp Dev.reads
  by_cases hc : d.Completes e
  · rw [if_pos hc, completeReads_inApp_iff hlen]
    constructor
    · intro h
      exact ⟨fun _ => h, fun req hh => absurd hc (step_dfu_of_hands hh).1⟩
    · intro h
      exact h.1 hc
  rw [if_neg hc]
  by_cases hpoll : d.dfu.reset = false ∧ e = .poll
  · rw [if_pos hpoll]
    cases hnext : d.nextRequest with
    | none =>
      refine iff_of_true (fun b hb => absurd hb List.not_mem_nil)
        ⟨fun h => absurd h hc, fun req hh => ?_⟩
      have hsome := hh.2.2
      rw [hnext] at hsome
      exact absurd hsome (by simp)
    | some req =>
      show (∀ b ∈ uploadReads d.dfu req, InApp b) ↔ _
      rw [uploadReads_inApp_iff]
      constructor
      · intro h
        refine ⟨fun h => absurd h hc, fun req' hh => ?_⟩
        rw [← hh.unique ⟨hpoll.1, hpoll.2, hnext⟩]
        exact h
      · intro h
        exact h.2 req ⟨hpoll.1, hpoll.2, hnext⟩
  · rw [if_neg hpoll]
    exact iff_of_true (fun b hb => absurd hb List.not_mem_nil)
      ⟨fun h => absurd h hc, fun req hh => absurd ⟨hh.1, hh.2.1⟩ hpoll⟩

/-- **The reads of a run stay in the application flash exactly when every download it
    completes and every block it uploads fits.** -/
theorem run_readsInApp_iff (b : Board) (evs : List BusEvent) :
    Machine.AllSteps Dev.step ReadsInApp (Dev.init b) evs
      ↔ Machine.AllSteps Dev.step ReadsFitStep (Dev.init b) evs :=
  Machine.allSteps_congr (I := fun d : Dev => d.dfu.LenOk) (fun _ e h _ => run_lenOk h [e])
    (fun _ e h => readsInApp_iff h e) (fun h => by simp [Dev.init, Dfu.init] at h) evs

/-- A host sets the address pointer to the middle of the last page and downloads a block of
    two bytes to it. -/
def lastPageBlock : List BusEvent :=
  session (dnloadPackets 0 (commandBytes cmdSetaddr 0x0801FE00) ++ getstatusPackets
    ++ dnloadPackets 2 [0xAA, 0x55] ++ getstatusPackets)

/-- The block lies in the region, and the flash is blank: the check runs on past the end of
    the flash. -/
theorem lastPageBlock_reads_outside :
    ¬ Machine.AllSteps Dev.step ReadsInApp (Dev.init blankBoard) lastPageBlock := by
  decide +kernel

end Stm32F1Dfu
