import Stm32F1Dfu.Link

namespace Stm32F1Dfu

open LittleEndian

/-!
# The stages of a transfer on endpoint 0

What the handlers of `usb.c` do on a peripheral that is set up (`Link`): which state of
endpoint 0 they leave, and what the rest of the device becomes.

* `usbdControlSetup_eq` — the SETUP packet taken up is the one that was received;
* `usbControlRecvChunk_eq`, `usbControlSendChunk_more`, `usbControlSendChunk_last` — one
  packet of a data stage;
* `usbControlRequestDispatch_link` — what a request does to endpoint 0;
* `step_poll` — one poll.
-/

variable {d : Dev} {x : Ep0}

/-! ### SETUP -/

/-- The eight bytes of a SETUP packet. -/
def UsbSetupData.bytes (req : UsbSetupData) : List UInt8 := (List.range 8).map req.toBytes

@[simp] theorem UsbSetupData.bytes_length (req : UsbSetupData) : req.bytes.length = 8 := by
  simp [UsbSetupData.bytes]

/-- The eight bytes, assembled, are the request. -/
theorem UsbSetupData.ofBytes_eq {req : UsbSetupData} {buf : Nat → UInt8}
    (h : ∀ j < 8, buf j = req.bytes.getD j 0) : UsbSetupData.ofBytes buf = req := by
  have hbyte (j : Nat) (hj : j < 8) : buf j = req.toBytes j := by
    rw [h j hj, List.getD_eq_getElem _ _ (by rw [req.bytes_length]; exact hj)]
    simp [UsbSetupData.bytes]
  unfold UsbSetupData.ofBytes
  rw [hbyte 0 (by omega), hbyte 1 (by omega), hbyte 2 (by omega), hbyte 3 (by omega),
    hbyte 4 (by omega), hbyte 5 (by omega), hbyte 6 (by omega), hbyte 7 (by omega)]
  show { req with
    wValue := half req.wValue.toUInt8 (req.wValue >>> 8).toUInt8
    wIndex := half req.wIndex.toUInt8 (req.wIndex >>> 8).toUInt8
    wLength := half req.wLength.toUInt8 (req.wLength >>> 8).toUInt8 } = req
  rw [half_bytes, half_bytes, half_bytes]

/-- **The SETUP packet taken up** is the one in the receive buffer. -/
theorem usbdControlSetup_eq (h : Link d.periph x) {req : UsbSetupData}
    (hp : d.periph.rxPacket = req.bytes) :
    ∃ p, Link p { x with rxCtr := false, rxStat := rxStatNak, nak := true }
      ∧ usbdControlSetup d
          = if req.isRead then
              usbControlSetupRead { d with usbCompleteCb := false, periph := p, usbReq := req,
                                           log := .setup req :: d.log }
            else
              usbControlSetupWrite { d with usbCompleteCb := false, periph := p, usbReq := req,
                                            log := .setup req :: d.log } := by
  have hnak := h.nakSet true
  have hpacket : (usbdEpNakSet d.periph 0 true).rxPacket = req.bytes := by
    rw [hnak.rxPacket_eq, usbdEpNakSet_pm, ← h.rxPacket_eq, hp]
  obtain ⟨p, hread, hlink⟩ := hnak.readPacket rxStatNak_ne_valid d.usbReq.toBytes 8
  rw [hpacket, req.bytes_length] at hread
  have hreq : UsbSetupData.ofBytes (fun j => if j < min 8 (8 : UInt16).toNat
      then req.bytes.getD j 0 else d.usbReq.toBytes j) = req :=
    UsbSetupData.ofBytes_eq fun j hj => if_pos hj
  refine ⟨p, hlink, ?_⟩
  unfold usbdControlSetup
  simp only [hread, hreq]
  rw [if_neg (show ¬ UInt16.ofNat (min 8 (8 : UInt16).toNat) ≠ 8 by decide)]

/-! ### Data packets -/

/-- The stage in which the device waits for the packet behind `count` bytes of a write. -/
def outFsm (wLength count : Nat) : UsbFsmState :=
  if wLength ≤ count + 64 then .lastDataOut else .dataOut

/-- Memory with a packet stored from offset `off` on. -/
def place (ctrl : Nat → UInt8) (off : Nat) (data : List UInt8) : Nat → UInt8 :=
  fun i => if off ≤ i ∧ i < off + data.length then data.getD (i - off) 0 else ctrl i

/-- **A write** that the control buffer holds waits for its first packet. -/
theorem usbControlSetupWrite_eq (hle : d.usbReq.wLength.toNat ≤ dfuTransferSize) :
    usbControlSetupWrite d
      = { d with datasize := 0, fsm := outFsm d.usbReq.wLength.toNat 0,
                 periph := usbdEpNakSet d.periph 0 false } := by
  have hgt : d.usbReq.wLength > bMaxPacketSize0 ↔ 64 < d.usbReq.wLength.toNat :=
    UInt16.lt_iff_toNat_lt
  have hfsm : (if d.usbReq.wLength > bMaxPacketSize0 then UsbFsmState.dataOut else .lastDataOut)
      = outFsm d.usbReq.wLength.toNat 0 := by
    unfold outFsm
    by_cases hone : d.usbReq.wLength.toNat ≤ 0 + 64
    · rw [if_pos hone, if_neg fun hmore => by have := hgt.mp hmore; omega]
    · rw [if_neg hone, if_pos (hgt.mpr (by omega))]
  unfold usbControlSetupWrite
  rw [if_neg (Nat.not_lt.mpr hle), hfsm]

/-- The size of the next OUT packet. -/
theorem recvPacketsize_toNat {wLength datasize : UInt16} (h : datasize.toNat ≤ wLength.toNat) :
    (recvPacketsize wLength datasize).toNat = min 64 (wLength.toNat - datasize.toNat) := by
  have h64 : bMaxPacketSize0.toNat = 64 := rfl
  unfold recvPacketsize
  split
  · rw [h64] at *
    omega
  · rw [UInt16.toNat_sub_of_le _ _ (UInt16.le_iff_toNat_le.mpr h)]
    omega

/-- **An OUT data packet** of the size expected is stored behind the ones before. -/
theorem usbControlRecvChunk_eq (h : Link d.periph x) (hs : x.rxStat ≠ rxStatValid)
    (hle : d.datasize.toNat ≤ d.usbReq.wLength.toNat)
    (hp : d.periph.rxPacket.length = min 64 (d.usbReq.wLength.toNat - d.datasize.toNat)) :
    ∃ p, Link p { x with rxCtr := false, rxStat := if x.nak then x.rxStat else rxStatValid }
      ∧ usbControlRecvChunk d
          = (true, { d with
              periph := p
              ctrl := place d.ctrl d.datasize.toNat d.periph.rxPacket
              datasize := d.datasize + UInt16.ofNat d.periph.rxPacket.length }) := by
  have hsize := recvPacketsize_toNat hle
  obtain ⟨p, hread, hlink⟩ := h.readPacket hs (fun i => d.ctrl (d.datasize.toNat + i))
    (recvPacketsize d.usbReq.wLength d.datasize)
  rw [hsize, ← hp, Nat.min_self] at hread
  have hcount :
      UInt16.ofNat d.periph.rxPacket.length = recvPacketsize d.usbReq.wLength d.datasize := by
    rw [hp, ← hsize, UInt16.ofNat_toNat]
  refine ⟨p, hlink, ?_⟩
  simp only [usbControlRecvChunk, hread]
  rw [if_neg (not_not_intro hcount)]
  have hplace : splice d.ctrl d.datasize.toNat (fun j => if j < d.periph.rxPacket.length
      then d.periph.rxPacket.getD j 0 else d.ctrl (d.datasize.toNat + j))
      = place d.ctrl d.datasize.toNat d.periph.rxPacket := by
    funext i
    unfold splice place
    by_cases hi : i < d.datasize.toNat
    · rw [if_pos hi, if_neg (by omega)]
    · rw [if_neg hi]
      simp only
      have hoff : d.datasize.toNat + (i - d.datasize.toNat) = i := by omega
      by_cases hin : i - d.datasize.toNat < d.periph.rxPacket.length
      · rw [if_pos hin, if_pos (by omega)]
      · rw [if_neg hin, if_neg (by omega), hoff]
  rw [hplace]

/-- A packet before the last one: the stage of the next packet. -/
theorem usbdControlOut_more {d' : Dev} (hfsm : d.fsm = .dataOut)
    (hrecv : usbControlRecvChunk d = (true, d')) (hfsm' : d'.fsm = .dataOut) :
    usbdControlOut d
      = { d' with fsm := outFsm d'.usbReq.wLength.toNat d'.datasize.toNat } := by
  have h64 : bMaxPacketSize0.toNat = 64 := rfl
  unfold usbdControlOut outFsm
  rw [hfsm]
  simp only [hrecv, not_true_eq_false, if_false, h64]
  split
  · rfl
  · rw [← hfsm']

/-- The last packet: the request is dispatched, and answered or refused. -/
theorem usbdControlOut_last {d' d'' : Dev} {code : UsbdRequestReturnCodes}
    (hfsm : d.fsm = .lastDataOut) (hrecv : usbControlRecvChunk d = (true, d'))
    (hdispatch : usbControlRequestDispatch d' = (code, d'')) :
    usbdControlOut d
      = if code ≠ .notsupp then
          { d'' with periph := (usbdEpWritePacket d''.periph 0 (fun _ => 0) 0).1, fsm := .statusIn }
        else stallTransaction d'' := by
  unfold usbdControlOut
  rw [hfsm]
  simp only [hrecv, hdispatch, not_true_eq_false, if_false]

/-- The chunk handed to the endpoint is the packet in the transmit buffer. -/
theorem writeChunk_eq (h : Link d.periph x) (hs : x.txStat ≠ txStatValid) {n : UInt16}
    (hn : n.toNat ≤ 64) :
    ∃ p, Link p { x with txStat := txStatValid }
      ∧ p.txPacket = ctrlBytes d.ctrl d.dataoff.toNat n.toNat
      ∧ writeChunk d n
          = { d with periph := p, log := .chunk d.dataoff.toNat p.txPacket :: d.log } := by
  obtain ⟨hlink, hpacket⟩ := h.writePacket hs (fun i => d.ctrl (d.dataoff.toNat + i)) hn
  refine ⟨_, hlink, hpacket, ?_⟩
  rw [hpacket]
  rfl

/-- **A chunk before the last one** has 64 bytes. -/
theorem usbControlSendChunk_more (h : Link d.periph x) (hs : x.txStat ≠ txStatValid)
    (hmore : 64 < d.datasize.toNat) :
    ∃ p, Link p { x with txStat := txStatValid }
      ∧ p.txPacket = ctrlBytes d.ctrl d.dataoff.toNat 64
      ∧ usbControlSendChunk d
          = { d with periph := p, log := .chunk d.dataoff.toNat p.txPacket :: d.log, fsm := .dataIn,
                     dataoff := d.dataoff + 64, datasize := d.datasize - 64 } := by
  obtain ⟨p, hlink, hpacket, hwrite⟩ :=
    writeChunk_eq h hs (n := bMaxPacketSize0) (by decide)
  refine ⟨p, hlink, hpacket, ?_⟩
  have h64 : bMaxPacketSize0 < d.datasize := UInt16.lt_iff_toNat_lt.mpr hmore
  unfold usbControlSendChunk
  rw [if_pos h64, hwrite]
  rfl

/-- **The last chunk** has what is left; an empty packet follows it where one is needed. -/
theorem usbControlSendChunk_last (h : Link d.periph x) (hs : x.txStat ≠ txStatValid)
    (hlast : d.datasize.toNat ≤ 64) :
    ∃ p, Link p { x with txStat := txStatValid }
      ∧ p.txPacket = ctrlBytes d.ctrl d.dataoff.toNat d.datasize.toNat
      ∧ usbControlSendChunk d
          = { d with periph := p, log := .chunk d.dataoff.toNat p.txPacket :: d.log,
                     fsm := if d.usbNeedsZlp then .dataIn else .lastDataIn,
                     usbNeedsZlp := false, datasize := 0 } := by
  obtain ⟨p, hlink, hpacket, hwrite⟩ := writeChunk_eq h hs hlast
  refine ⟨p, hlink, hpacket, ?_⟩
  have hnot : ¬ bMaxPacketSize0 < d.datasize := by
    rw [UInt16.lt_iff_toNat_lt]
    exact Nat.not_lt.mpr hlast
  unfold usbControlSendChunk
  rw [if_neg hnot, hwrite]

/-! ### Requests -/

/-- A standard request that sets or clears a feature of an endpoint. -/
def UsbSetupData.isEndpointFeature (req : UsbSetupData) : Bool :=
  req.bmRequestType &&& 0x7F == 2 && (req.bRequest == 1 || req.bRequest == 3)

/-- A request as the USB specification has it: a feature of an endpoint is set or cleared
    without a data stage, and `wIndex` is the address of an endpoint, its reserved bits 0. -/
def UsbSetupData.Compliant (req : UsbSetupData) : Prop :=
  req.isEndpointFeature = true → req.wLength = 0 ∧ req.wIndex &&& 0xFF70 = 0

instance (req : UsbSetupData) : Decidable req.Compliant :=
  inferInstanceAs (Decidable (_ → _))

/-- Requests that leave endpoint 0 alone do not touch the peripheral. -/
theorem usbStandardGetDescriptor_periph (d : Dev) :
    (usbStandardGetDescriptor d).2.periph = d.periph := by
  simp only [usbStandardGetDescriptor]
  split_ifs <;> rfl

theorem usbdStandardRequestDevice_link (h : Link d.periph x) :
    Link (usbdStandardRequestDevice d).2.periph x := by
  unfold usbdStandardRequestDevice
  split
  · split <;> exact h
  · split
    · exact (h.disableEndpoints (Nat.le_refl 7)).congr rfl rfl rfl rfl rfl
    · exact h
  · exact h
  · rw [usbStandardGetDescriptor_periph]
    exact h
  · exact h
  · exact h

theorem usbdStandardRequestInterface_periph (d : Dev) :
    (usbdStandardRequestInterface d).2.periph = d.periph := by
  unfold usbdStandardRequestInterface
  split <;> rfl

/-- **A stall set or cleared** at an endpoint address without reserved bits changes the
    status fields of endpoint 0, or nothing of it. -/
theorem epStallSet_link {p : Periph} (h : Link p x) {addr : UInt8} (haddr : addr &&& 0x70 = 0)
    (stall : Bool) :
    ∃ rx tx, Link (epStallSet p addr stall) { x with rxStat := rx, txStat := tx }
      ∧ (tx = x.txStat ∨ tx = txStatStall ∨ tx = txStatNak) := by
  have hbits : addr.toNat &&& 0x70 = 0 := by
    rw [← UInt8.toNat_inj, UInt8.toNat_and] at haddr
    exact haddr
  by_cases h0 : addr = 0
  · subst h0
    refine ⟨_, _, h.stallSet stall, Or.inr ?_⟩
    cases stall with
    | true => exact Or.inl rfl
    | false => exact Or.inr rfl
  by_cases hin : addr &&& 0x80 = 0
  · -- the OUT direction of another endpoint
    have hep : addr.toNat < 16 := by
      rw [← UInt8.toNat_inj, UInt8.toNat_and] at hin
      have hall : ∀ n < 256, n &&& 0x70 = 0 → n &&& 0x80 = 0 → n < 16 := by decide +kernel
      exact hall _ addr.toNat_lt hbits hin
    have hne : addr.toNat ≠ 0 := fun hz => h0 (UInt8.toNat_inj.mp hz)
    refine ⟨x.rxStat, x.txStat, ?_, Or.inl rfl⟩
    simp only [epStallSet, if_neg h0, if_neg (not_not_intro hin)]
    cases stall with
    | true => exact h.write_other _ hne hep
    | false => exact (h.write_other _ hne hep).write_other _ hne hep
  · -- an IN direction: of endpoint 0 or of another one
    have hep : (addr &&& 0x7F).toNat < 16 := by
      have hall : ∀ n < 256, n &&& 0x70 = 0 → n &&& 0x7F < 16 := by decide +kernel
      rw [UInt8.toNat_and]
      exact hall _ addr.toNat_lt hbits
    simp only [epStallSet, if_neg h0, if_pos hin]
    by_cases hz : addr &&& 0x7F = 0
    · rw [hz]
      cases stall with
      | true => exact ⟨x.rxStat, _, h.setTxStat (by decide), Or.inr (Or.inl rfl)⟩
      | false => exact ⟨x.rxStat, _, (h.setTxStat (by decide)).clrTxDtog, Or.inr (Or.inr rfl)⟩
    · have hne : (addr &&& 0x7F).toNat ≠ 0 := fun hz' => hz (UInt8.toNat_inj.mp hz')
      refine ⟨x.rxStat, x.txStat, ?_, Or.inl rfl⟩
      cases stall with
      | true => exact h.write_other _ hne hep
      | false => exact (h.write_other _ hne hep).write_other _ hne hep

/-- The peripheral is in the state `x` up to the status fields; these are as they were where
    the request has a data stage, and never let a packet be sent. -/
def AfterDispatch (p : Periph) (x : Ep0) (req : UsbSetupData) : Prop :=
  ∃ rx tx, Link p { x with rxStat := rx, txStat := tx }
    ∧ (tx = x.txStat ∨ tx = txStatStall ∨ tx = txStatNak)
    ∧ (req.wLength ≠ 0 → rx = x.rxStat ∧ tx = x.txStat)

/-- A request that leaves the state of endpoint 0 alone. -/
theorem AfterDispatch.same {p : Periph} (h : Link p x) (req : UsbSetupData) :
    AfterDispatch p x req :=
  ⟨x.rxStat, x.txStat, h, Or.inl rfl, fun _ => ⟨rfl, rfl⟩⟩

theorem usbdStandardRequestEndpoint_link (h : Link d.periph x) (hc : d.usbReq.Compliant)
    (h2 : d.usbReq.bmRequestType &&& 0x7F = 2) :
    AfterDispatch (usbdStandardRequestEndpoint d).2.periph x d.usbReq := by
  have hfeature (hreq : d.usbReq.bRequest = 1 ∨ d.usbReq.bRequest = 3) (stall : Bool) :
      AfterDispatch (epStallSet d.periph d.usbReq.wIndex.toUInt8 stall) x d.usbReq := by
    obtain ⟨hlen, hindex⟩ := hc (by simpa [UsbSetupData.isEndpointFeature, h2] using hreq)
    have haddr : d.usbReq.wIndex.toUInt8 &&& 0x70 = 0 := by
      have hlow := congrArg UInt16.toUInt8 hindex
      rw [UInt16.toUInt8_and] at hlow
      exact hlow
    obtain ⟨rx, tx, hlink, htx⟩ := epStallSet_link h haddr stall
    exact ⟨rx, tx, hlink, htx, fun hne => absurd hlen hne⟩
  unfold usbdStandardRequestEndpoint
  split
  case h_1 h1 =>
    split
    · exact hfeature (Or.inl h1) false
    · exact .same h _
  case h_2 h3 =>
    split
    · exact hfeature (Or.inr h3) true
    · exact .same h _
  case h_3 => exact .same h _
  case h_4 => exact .same h _

theorem dispatchOther_link (h : Link d.periph x) (hc : d.usbReq.Compliant) :
    AfterDispatch (dispatchOther d).2.periph x d.usbReq := by
  unfold dispatchOther usbdStandardRequest
  split
  · exact .same h _
  split
  · exact .same h _
  rename_i htype
  have h60 : d.usbReq.bmRequestType &&& 0x60 = 0 := by simpa using htype
  split
  case h_1 => exact .same (usbdStandardRequestDevice_link h) _
  case h_2 =>
    rw [usbdStandardRequestInterface_periph]
    exact .same h _
  case h_3 h1F =>
    refine usbdStandardRequestEndpoint_link h hc ?_
    -- type and recipient make up the seven bits
    have hsplit : d.usbReq.bmRequestType &&& 0x7F
        = (d.usbReq.bmRequestType &&& 0x60) ||| (d.usbReq.bmRequestType &&& 0x1F) := by
      rw [← UInt8.toBitVec_inj, UInt8.toBitVec_or, UInt8.toBitVec_and, UInt8.toBitVec_and,
        UInt8.toBitVec_and, ← BitVec.and_or_distrib_left]
      rfl
    rw [hsplit, h60, h1F]
    rfl
  case h_4 => exact .same h _

/-- **A request and endpoint 0.** -/
theorem usbControlRequestDispatch_link (h : Link d.periph x) (hc : d.usbReq.Compliant) :
    AfterDispatch (usbControlRequestDispatch d).2.periph x d.usbReq := by
  show AfterDispatch (dispatchRequest d).2.periph x d.usbReq
  cases hclass : d.usbReq.isClassInterface with
  | true =>
    rw [dispatchRequest_class hclass]
    split <;> exact .same h _
  | false =>
    rw [dispatchRequest_other hclass]
    exact dispatchOther_link h hc

/-! ### Polls -/

/-- **One poll** of a device that runs: the handler of what is pending, reception first. -/
theorem step_poll_eq (h : Link d.periph x) (hrun : d.dfu.reset = false) :
    d.step .poll = endPoll (d.serve (if x.rxCtr then (if x.setup then .setup else .out)
      else if x.txCtr then .tx else .nothing)) (d.periph.read regIstr) := by
  unfold Dev.step
  rw [hrun, if_neg Bool.false_ne_true]
  exact h.doUsbPoll

/-- The flags cleared after a handler show in neither the state nor the packets. -/
theorem endPoll_link (h : Link d.periph x) (istr : BitVec 16) :
    Link (endPoll d istr).periph x
      ∧ (endPoll d istr).periph.txPacket = d.periph.txPacket
      ∧ (endPoll d istr).periph.rxPacket = d.periph.rxPacket := by
  have hflags := h.handleFlags istr
  have hpm : (endPoll d istr).periph.pm = d.periph.pm := handleFlags_pm d.periph istr
  have hlink : Link (endPoll d istr).periph x := hflags
  refine ⟨hlink, ?_, ?_⟩
  · rw [hlink.txPacket_eq, h.txPacket_eq, hpm]
  · rw [hlink.rxPacket_eq, h.rxPacket_eq, hpm]

/-- The stall of endpoint 0. -/
theorem stallTransaction_link (h : Link d.periph x) :
    Link (stallTransaction d).periph { x with txStat := txStatStall, rxStat := rxStatStall } :=
  h.stallSet true

end Stm32F1Dfu
