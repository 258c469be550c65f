import Stm32F1Dfu.Framing

namespace Stm32F1Dfu

open Machine Frames

/-!
# Whether an upload reads back what a download may write

The check of a download bounds the bytes of the block, that of `DFU_UPLOAD` the whole 1 KB
that it copies, of which the reply is the part the host asked for.

* `Dev.Fetches` — what a host that takes each packet gets;
* `Dev.ReadsBack` — what is asked of an upload of a range that a download may write;
* `upload_readsBack_iff` — it holds exactly when 1 KB from the address on ends in the region;
* `halfPage_not_readsBack` — half a page at the end of the flash.
-/

/-! ### What is asked -/

/-- The request is a `DFU_UPLOAD` of `len` bytes of block `n`, from device to host. -/
structure UsbSetupData.IsUpload (req : UsbSetupData) (n len : UInt16) : Prop where
  bmRequestType : req.bmRequestType = 0xA1
  bRequest : req.bRequest = 2
  wValue : req.wValue = n
  wLength : req.wLength = len

/-- The host takes the packets of a data stage to its end, `k` of them, and has `bytes`. -/
structure Dev.Fetches (d : Dev) (k : Nat) (bytes : List UInt8) : Prop where
  sending : ∀ j < k,
    (d.run (.poll :: rounds j)).fsm = .dataIn ∨ (d.run (.poll :: rounds j)).fsm = .lastDataIn
  ended : (d.run (.poll :: rounds k)).fsm = .statusOut
  received : ∃ ps : List (List UInt8),
    chunks (d.run (.poll :: rounds k)).log = ps.reverse ++ chunks d.log ∧ ps.flatten = bytes

/-- The block that a `DFU_DNLOAD` of `len` bytes to block `n` stores passes the check with which
    it is carried out. -/
def Dfu.AcceptsDnload (f : Dfu) (n len : UInt16) : Prop :=
  ∀ ctrl, inRange (storeProg f.prog ctrl n len).baseaddr
    (storeProg f.prog ctrl n len).len.toUInt32 = true

/-- The bytes of the flash in a range. -/
def Store.bytes (s : Store) (addr : UInt32) (len : Nat) : List UInt8 :=
  (List.range len).map fun i => s.flash (addr + UInt32.ofNat i)

/-- What is asked of the upload that the next poll takes up: it is accepted exactly when a
    download of the range is, the host gets the bytes of the flash, and until another SETUP
    packet comes the flash, the address pointer and the stored block are as they were. -/
structure Dev.ReadsBack (d : Dev) (n len : UInt16) : Prop where
  accepted : (d.step .poll).dfu.state ≠ .error ↔ d.dfu.AcceptsDnload n len
  bytes : ∃ k, d.Fetches k (d.dfu.store.bytes (blockAddr d.dfu.prog.addr n) len.toNat)
  untouched : ∀ evs : List BusEvent, (∀ req, .setup req ∉ evs) →
    (d.run (.poll :: evs)).dfu.store = d.dfu.store ∧ (d.run (.poll :: evs)).dfu.prog = d.dfu.prog

/-! ### The request -/

section

variable {d : Dev} {req : UsbSetupData} {n len : UInt16}

theorem UsbSetupData.IsUpload.isClassInterface (h : req.IsUpload n len) :
    req.isClassInterface = true := by
  unfold UsbSetupData.isClassInterface
  rw [h.bmRequestType]
  rfl

theorem UsbSetupData.IsUpload.isRead (h : req.IsUpload n len) : req.isRead = true := by
  unfold UsbSetupData.isRead
  rw [h.bmRequestType]
  exact Bool.or_true _

/-- A `DFU_UPLOAD` of a block leaves the stored download alone, and replies with a copy of the
    flash where the check of the whole 1 KB passes. -/
theorem usbdfuControlRequest_upload (h : req.IsUpload n len) (hn : n ≠ 0) (f : Dfu)
    (ctrl : Nat → UInt8) (complete : Bool) :
    usbdfuControlRequest f ctrl req req.wLength complete
      = if inRange (blockAddr f.prog.addr n) 1024 then
          { code := .handled
            dfu := { f with state := .uploadIdle, log := .request .upload :: f.log }
            ctrl := memcpy ctrl (fun i => f.store.flash (blockAddr f.prog.addr n + UInt32.ofNat i))
              dfuTransferSize
            len := 1024, complete }
        else
          { code := .handled, dfu := { f with state := .error, log := .request .upload :: f.log }
            ctrl, len := 0, complete } := by
  have hcode : DfuReq.ofCode req.bRequest = some .upload := by
    rw [h.bRequest]
    rfl
  unfold usbdfuControlRequest
  rw [hcode]
  simp only [h.wValue, if_neg hn]

/-- The dispatch of the upload is one call of the class driver. -/
theorem dispatchRead_upload (h : req.IsUpload n len) :
    (d.dispatchRead req).1 = .handled
      ∧ (d.dispatchRead req).2.dfu
          = (usbdfuControlRequest d.dfu d.ctrl req req.wLength false).dfu
      ∧ (d.dispatchRead req).2.ctrl
          = (usbdfuControlRequest d.dfu d.ctrl req req.wLength false).ctrl
      ∧ (d.dispatchRead req).2.datasize
          = (usbdfuControlRequest d.dfu d.ctrl req req.wLength false).len
      ∧ (d.dispatchRead req).2.usbCompleteCb
          = (usbdfuControlRequest d.dfu d.ctrl req req.wLength false).complete := by
  have hcode : DfuReq.ofCode req.bRequest ≠ none := by
    rw [h.bRequest]
    decide
  have hdispatch : dispatchRequest { d.afterSetup req with dataoff := 0 }
      = (.handled, (dispatchDfu { d.afterSetup req with dataoff := 0 }).2) := by
    rw [dispatchRequest_class (show UsbSetupData.isClassInterface _ = true from h.isClassInterface)]
    exact if_neg hcode
  unfold Dev.dispatchRead usbControlRequestDispatch
  rw [hdispatch]
  exact ⟨rfl, rfl, rfl, rfl, rfl⟩

end

/-! ### Until the next SETUP packet -/

/-- No request waits to be dispatched, and no callback to be run. -/
structure Unasked (d : Dev) : Prop where
  orderly : Orderly d.periph
  noSetup : NoSetup d.periph
  stage : d.fsm ≠ .dataOut ∧ d.fsm ≠ .lastDataOut
  cb : d.usbCompleteCb = false

/-- **One step** without a SETUP packet leaves the driver alone. -/
theorem Unasked.step {d : Dev} (h : Unasked d) {e : BusEvent} (he : ∀ req, e ≠ .setup req) :
    Unasked (d.step e) ∧ (d.step e).dfu = d.dfu := by
  have hnone : ¬ d.Polls e .setup := h.noSetup.not_polls h.orderly
  have hwaits := h.noSetup.step he
  have horderly := h.orderly.step e
  -- the ways through the handlers that are left
  have hturn := step_turn d e
  revert hwaits horderly hturn
  generalize d.step e = d'
  intro hwaits horderly hturn
  obtain ⟨hdata, hlast⟩ := h.stage
  cases hturn with
  | still p hs => exact ⟨⟨horderly, hwaits, h.stage, h.cb⟩, rfl⟩
  | garbled p req hs | tooLong p req hs | write p req hs | readStall p req hs
    | readStatus p req n hs | readData p req s n o z off data hs => exact absurd hs hnone
  | short p hs hfsm => exact absurd hfsm (not_or.mpr ⟨hdata, hlast⟩)
  | chunk p hs hfsm => exact absurd hfsm hdata
  | writeStall p hs hfsm | writeDone p hs hfsm => exact absurd hfsm hlast
  | completeOut p hs hfsm | completeIn p hs hfsm =>
    -- a status stage ends without a callback
    have hdfu : (completeTransfer d).dfu = d.dfu := by
      show (if d.usbCompleteCb then usbdfuGetstatusComplete d.dfu else d.dfu) = d.dfu
      rw [h.cb]
      rfl
    exact ⟨⟨horderly, hwaits, ⟨by simp, by simp⟩, by first | rfl | exact h.cb⟩, hdfu⟩
  | nextChunk p s n o z off data hs hfsm hstage =>
    refine ⟨⟨horderly, hwaits, ?_, h.cb⟩, rfl⟩
    rcases hstage with rfl | rfl <;> exact ⟨by simp, by simp⟩
  | lastChunk p hs hfsm => exact ⟨⟨horderly, hwaits, ⟨by simp, by simp⟩, h.cb⟩, rfl⟩
  | unexpected p hs => exact ⟨⟨horderly, hwaits, ⟨by simp, by simp⟩, h.cb⟩, rfl⟩

/-- **A run** without a SETUP packet leaves the driver alone. -/
theorem Unasked.run {d : Dev} (h : Unasked d) {evs : List BusEvent}
    (hevs : ∀ req, .setup req ∉ evs) : (d.run evs).dfu = d.dfu := by
  induction evs generalizing d with
  | nil => rfl
  | cons e evs ih =>
    obtain ⟨hnext, hdfu⟩ := h.step (e := e) fun req he =>
      hevs req (he ▸ List.mem_cons_self)
    rw [Dev.run_cons, ih hnext fun req hmem => hevs req (List.mem_cons_of_mem e hmem), hdfu]

/-! ### Uploads against downloads -/

/-- A download of a range of the region is accepted. -/
theorem acceptsDnload {f : Dfu} {n len : UInt16} (hlen : len.toNat ≤ 1024)
    (hlo : startAddr.toNat ≤ (blockAddr f.prog.addr n).toNat)
    (hhi : (blockAddr f.prog.addr n).toNat + len.toNat ≤ endAddr.toNat) :
    f.AcceptsDnload n len := by
  intro ctrl
  have hstored : (storeProg f.prog ctrl n len).len = len := if_neg (Nat.not_lt.mpr hlen)
  have hbase : (storeProg f.prog ctrl n len).baseaddr = blockAddr f.prog.addr n := rfl
  rw [hstored, hbase, inRange_iff (by rw [UInt16.toNat_toUInt32]; exact hlen)]
  left
  rw [UInt16.toNat_toUInt32]
  exact ⟨hlo, hhi⟩

/-- The bytes of a reply that was copied from the flash. -/
theorem ctrlBytes_memcpy (ctrl : Nat → UInt8) (s : Store) (addr : UInt32) {n : Nat}
    (hn : n ≤ dfuTransferSize) :
    ctrlBytes (memcpy ctrl (fun i => s.flash (addr + UInt32.ofNat i)) dfuTransferSize) 0 n
      = s.bytes addr n := by
  apply List.map_congr_left
  intro i hi
  rw [List.mem_range] at hi
  show memcpy ctrl _ dfuTransferSize (0 + i) = _
  rw [Nat.zero_add, memcpy, if_pos (by omega)]

/-- **Upload against download.**  For a range of the region that a download may write, an upload
    of it is accepted, replies with the bytes of the flash and changes nothing, exactly when the
    1 KB from its address on ends in the region too. -/
theorem upload_readsBack_iff {d : Dev} (hd : Reachable d) {req : UsbSetupData} {n len : UInt16}
    (hs : d.Polls .poll .setup) (hnext : d.nextSetup = some req) (hreq : req.IsUpload n len)
    (hn : 2 ≤ n.toNat) (hlen : 1 ≤ len.toNat ∧ len.toNat ≤ 1024)
    (hlo : startAddr.toNat ≤ (blockAddr d.dfu.prog.addr n).toNat)
    (hhi : (blockAddr d.dfu.prog.addr n).toNat + len.toNat ≤ endAddr.toNat) :
    d.ReadsBack n len ↔ (blockAddr d.dfu.prog.addr n).toNat + 1024 ≤ endAddr.toNat := by
  have hn0 : n ≠ 0 := by
    rintro rfl
    exact absurd hn (by decide)
  have hlen0 : req.wLength ≠ 0 := by
    rw [hreq.wLength]
    rintro rfl
    exact absurd hlen.1 (by decide)
  have hend : endAddr.toNat = 0x08020000 := endAddr_toNat
  obtain ⟨hcode, hdfu, hctrl, hdatasize, hcb⟩ := dispatchRead_upload (d := d) hreq
  have hupload := usbdfuControlRequest_upload hreq hn0 d.dfu d.ctrl false
  have hserved : inRange (blockAddr d.dfu.prog.addr n) 1024 = true
      ↔ (blockAddr d.dfu.prog.addr n).toNat + 1024 ≤ endAddr.toNat := by
    have hkb : (1024 : UInt32).toNat = 1024 := rfl
    rw [inRange_iff (by decide), hkb]
    rw [startAddr_toNat] at hlo
    omega
  have hsize : (d.dispatchRead req).2.datasize.toNat ≤ 1024 := by
    rw [hdatasize, hupload]
    split
    · exact (by decide : (1024 : UInt16).toNat ≤ 1024)
    · exact (by decide : (0 : UInt16).toNat ≤ 1024)
  have hhandled : (d.dispatchRead req).1 ≠ .notsupp := by
    rw [hcode]
    decide
  have hqueues := stageFrames_queues hd hs hnext hreq.isRead hlen0 hhandled hsize
  have hframes : 0 < (stageFrames (d.dispatchRead req).2 req).length := by
    have hpos := uint16_pos hlen0
    rw [stageFrames_count]
    split <;> omega
  have hfirst := (run_sent hd hs hnext hreq.isRead hlen0 hhandled hsize).1 0 hframes
  have hpoll : d.run (.poll :: rounds 0) = d.step .poll := rfl
  rw [hpoll] at hfirst
  have hafter : (d.step .poll).dfu
      = (usbdfuControlRequest d.dfu d.ctrl req req.wLength false).dfu := hfirst.same.dfu.trans hdfu
  constructor
  · -- a range that passes the check of the download only is refused
    intro h
    by_contra hshort
    have hnot : ¬ inRange (blockAddr d.dfu.prog.addr n) 1024 = true :=
      fun h' => hshort (hserved.mp h')
    refine h.accepted.mpr (acceptsDnload hlen.2 hlo hhi) ?_
    rw [hafter, hupload, if_neg hnot]
  · intro hfits
    rw [if_pos (hserved.mpr hfits)] at hupload
    rw [hupload] at hafter hctrl hdatasize hcb
    -- the packets together are the bytes asked for, of those copied
    have hbytes : (stageFrames (d.dispatchRead req).2 req).flatten
        = d.dfu.store.bytes (blockAddr d.dfu.prog.addr n) len.toNat := by
      rw [stageFrames, frames_flatten (by decide), Dev.replyBytes, hctrl, hdatasize, hreq.wLength]
      have hkb : min (1024 : UInt16).toNat len.toNat = len.toNat := Nat.min_eq_right hlen.2
      simp only [hkb]
      exact ctrlBytes_memcpy _ _ _ hlen.2
    refine ⟨iff_of_true ?_ (acceptsDnload hlen.2 hlo hhi), ?_, ?_⟩
    · rw [hafter]
      exact fun herror => DfuState.noConfusion herror
    · refine ⟨(stageFrames (d.dispatchRead req).2 req).length, fun j hj => ?_, hqueues.ended.1,
        ⟨stageFrames (d.dispatchRead req).2 req, hqueues.ended.2.1, hbytes⟩⟩
      rw [hqueues.fsm j hj]
      split
      · exact Or.inr rfl
      · exact Or.inl rfl
    · intro evs hevs
      -- an upload leaves nothing behind that would be dispatched or carried out later
      have hunasked : Unasked (d.step .poll) := by
        refine ⟨(reachable_orderly hd).step .poll, fun hr => ?_, ?_, ?_⟩
        · rw [hfirst.clear.rxCtr] at hr
          exact Bool.noConfusion hr
        · rw [hfirst.fsm]
          split <;> exact ⟨by simp, by simp⟩
        · rw [hfirst.same.cb, hcb]
      rw [Dev.run_cons, hunasked.run hevs, hafter]
      exact ⟨rfl, rfl⟩

/-- The SETUP packet of a `DFU_UPLOAD` of block 2. -/
def uploadRequest (len : UInt16) : UsbSetupData := dfuRequest 0xA1 2 2 len

theorem uploadRequest_isUpload (len : UInt16) : (uploadRequest len).IsUpload 2 len :=
  ⟨rfl, rfl, rfl, rfl⟩

/-- A blank board on which a host sets the address pointer and asks for `len` bytes of block 2. -/
def uploading (addr : UInt32) (len : UInt16) : Dev :=
  (Dev.init blankBoard).run
    (session (dnloadPackets 0 (commandBytes cmdSetaddr addr) ++ getstatusPackets)
      ++ [.setup (uploadRequest len)])

theorem uploading_reachable (addr : UInt32) (len : UInt16) : Reachable (uploading addr len) :=
  ⟨blankBoard, _, rfl⟩

/-- 100 bytes of the first page are read back. -/
theorem firstPage_readsBack : (uploading 0x08002000 100).ReadsBack 2 100 := by
  have hrun : (uploading 0x08002000 100).Polls .poll .setup
      ∧ (uploading 0x08002000 100).nextSetup = some (uploadRequest 100)
      ∧ blockAddr (uploading 0x08002000 100).dfu.prog.addr 2 = 0x08002000 := by
    decide +kernel
  obtain ⟨hs, hnext, hbase⟩ := hrun
  apply (upload_readsBack_iff (uploading_reachable _ _) hs hnext (uploadRequest_isUpload 100)
    (by decide) (by decide) (by rw [hbase]; decide) (by rw [hbase]; decide)).mpr
  rw [hbase]
  decide

/-- The upper half of the last page may be written, and is not read back. -/
theorem halfPage_not_readsBack :
    (uploading 0x0801FE00 512).Polls .poll .setup
      ∧ (uploading 0x0801FE00 512).nextSetup = some (uploadRequest 512)
      ∧ blockAddr (uploading 0x0801FE00 512).dfu.prog.addr 2 = 0x0801FE00
      ∧ (uploading 0x0801FE00 512).dfu.AcceptsDnload 2 512
      ∧ ¬ (uploading 0x0801FE00 512).ReadsBack 2 512 := by
  have hrun : (uploading 0x0801FE00 512).Polls .poll .setup
      ∧ (uploading 0x0801FE00 512).nextSetup = some (uploadRequest 512)
      ∧ blockAddr (uploading 0x0801FE00 512).dfu.prog.addr 2 = 0x0801FE00
      ∧ ((uploading 0x0801FE00 512).step .poll).dfu.state = .error := by
    decide +kernel
  obtain ⟨hs, hnext, hbase, hstate⟩ := hrun
  have haccepts : (uploading 0x0801FE00 512).dfu.AcceptsDnload 2 512 := by
    apply acceptsDnload (by decide) <;> rw [hbase] <;> decide
  exact ⟨hs, hnext, hbase, haccepts, fun h => h.accepted.mpr haccepts hstate⟩

end Stm32F1Dfu
