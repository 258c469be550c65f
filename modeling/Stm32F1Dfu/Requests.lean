import Stm32F1Dfu.DataStage
import Stm32F1Dfu.Execution

namespace Stm32F1Dfu

/-!
# Which request a step hands to the class driver

A SETUP packet is read and dispatched in the same poll if the request is a read; a write
is dispatched with the last packet of its data stage.

* `usbdControlSetup_some` / `usbdControlSetup_none` — a SETUP poll by the packet it reads;
* `Dev.nextRequest` — the request that the next poll hands to `usbdfu_control_request`;
* `step_dfu_cases` — a step completes a status stage, hands that request on, or leaves the
  driver alone.
-/

/-! ### A SETUP packet -/

/-- The device once `_usbd_control_setup` has read `req`. -/
def Dev.afterSetup (d : Dev) (req : UsbSetupData) : Dev :=
  { d with usbCompleteCb := false
           periph := (usbdEpReadPacket (usbdEpNakSet d.periph 0 true) 0 d.usbReq.toBytes 8).1
           usbReq := req
           log := .setup req :: d.log }

/-- A SETUP packet of eight bytes is taken up as a read or a write. -/
theorem usbdControlSetup_some {d : Dev} {req : UsbSetupData} (h : d.nextSetup = some req) :
    usbdControlSetup d
      = if req.isRead then usbControlSetupRead (d.afterSetup req)
        else usbControlSetupWrite (d.afterSetup req) := by
  unfold Dev.nextSetup at h
  unfold usbdControlSetup Dev.afterSetup
  simp only at h ⊢
  generalize usbdEpReadPacket (usbdEpNakSet d.periph 0 true) 0 d.usbReq.toBytes 8 = r at h ⊢
  obtain ⟨p, buf, size⟩ := r
  simp only at h ⊢
  by_cases hsize : size = 8
  · rw [if_pos hsize] at h
    obtain rfl := Option.some.inj h
    rw [if_neg (not_not_intro hsize)]
  · rw [if_neg hsize] at h
    exact absurd h (by simp)

/-- The request in memory once `_usbd_control_setup` has read a packet that is too short:
    the bytes that are missing are those of the one before. -/
def Dev.shortSetup (d : Dev) : UsbSetupData :=
  .ofBytes (usbdEpReadPacket (usbdEpNakSet d.periph 0 true) 0 d.usbReq.toBytes 8).2.1

/-- A shorter one stalls the endpoint. -/
theorem usbdControlSetup_short {d : Dev} (h : d.nextSetup = none) :
    usbdControlSetup d
      = stallTransaction { d with
          usbCompleteCb := false
          periph := (usbdEpReadPacket (usbdEpNakSet d.periph 0 true) 0 d.usbReq.toBytes 8).1
          usbReq := d.shortSetup } := by
  unfold Dev.nextSetup at h
  unfold usbdControlSetup Dev.shortSetup
  simp only at h ⊢
  generalize usbdEpReadPacket (usbdEpNakSet d.periph 0 true) 0 d.usbReq.toBytes 8 = r at h ⊢
  obtain ⟨p, buf, size⟩ := r
  simp only at h ⊢
  by_cases hsize : size = 8
  · rw [if_pos hsize] at h
    exact absurd h (by simp)
  · rw [if_pos hsize]

theorem usbdControlSetup_none {d : Dev} (h : d.nextSetup = none) :
    ∃ req, usbdControlSetup d
      = stallTransaction { d with
          usbCompleteCb := false
          periph := (usbdEpReadPacket (usbdEpNakSet d.periph 0 true) 0 d.usbReq.toBytes 8).1
          usbReq := req } :=
  ⟨d.shortSetup, usbdControlSetup_short h⟩

/-! ### A read -/

/-- The dispatch of a read. -/
def Dev.dispatchAtOnce (d : Dev) : UsbdRequestReturnCodes × Dev :=
  usbControlRequestDispatch { d with dataoff := 0 }

/-- What `_usb_control_setup_read` sends, once the request is handled. -/
def Dev.replying (d : Dev) : Dev :=
  let size := if d.datasize > d.usbReq.wLength then d.usbReq.wLength else d.datasize
  { d with datasize := size, usbNeedsZlp := needsZlp size d.usbReq.wLength bMaxPacketSize0 }

/-- A read that is refused. -/
theorem usbControlSetupRead_refused {d : Dev} (h : d.dispatchAtOnce.1 = .notsupp) :
    usbControlSetupRead d = stallTransaction d.dispatchAtOnce.2 :=
  if_neg (not_not_intro h)

/-- A read with data. -/
theorem usbControlSetupRead_data {d : Dev} (h : d.dispatchAtOnce.1 ≠ .notsupp)
    (h0 : d.usbReq.wLength ≠ 0) :
    usbControlSetupRead d = usbControlSendChunk d.dispatchAtOnce.2.replying := by
  have hreq : d.dispatchAtOnce.2.usbReq = d.usbReq :=
    (usbControlRequestDispatch_frame { d with dataoff := 0 }).2.2.2
  unfold usbControlSetupRead
  simp only
  unfold Dev.dispatchAtOnce at h hreq ⊢
  revert h hreq
  generalize usbControlRequestDispatch { d with dataoff := 0 } = r
  obtain ⟨code, d'⟩ := r
  intro h hreq
  simp only at h hreq ⊢
  rw [if_pos h, if_pos h0]
  unfold Dev.replying
  rw [← hreq]
  split <;> rfl

/-- A request without data: nothing is left to send. -/
theorem usbControlSetupRead_status {d : Dev} (h : d.dispatchAtOnce.1 ≠ .notsupp)
    (h0 : d.usbReq.wLength = 0) :
    usbControlSetupRead d
      = { d.dispatchAtOnce.2 with
          periph := (usbdEpWritePacket d.dispatchAtOnce.2.periph 0 (fun _ => 0) 0).1
          datasize := 0
          fsm := .statusIn } := by
  unfold usbControlSetupRead
  simp only
  unfold Dev.dispatchAtOnce at h ⊢
  revert h
  generalize usbControlRequestDispatch { d with dataoff := 0 } = r
  obtain ⟨code, d'⟩ := r
  intro h
  simp only at h ⊢
  rw [if_pos h, if_neg (not_not_intro h0), h0]
  split
  · rfl
  · rename_i hle
    have hzero : d'.datasize = 0 := by
      rw [← UInt16.toNat_inj]
      exact Nat.eq_zero_of_not_pos fun hpos => hle (UInt16.lt_iff_toNat_lt.mpr hpos)
    rw [← hzero]

/-! ### An OUT packet of a data stage -/

/-- The size the packet is expected to have. -/
def Dev.packetsize (d : Dev) : UInt16 := recvPacketsize d.usbReq.wLength d.datasize

/-- What `_usbd_ep_read_packet` makes of a packet of the data stage. -/
def Dev.readChunk (d : Dev) : Periph × (Nat → UInt8) × UInt16 :=
  usbdEpReadPacket d.periph 0 (fun i => d.ctrl (d.datasize.toNat + i)) d.packetsize

/-- The packet has at least the size expected, and is cut to it. -/
def Dev.chunkFits (d : Dev) : Bool := d.readChunk.2.2 == d.packetsize

/-- The device once the packet is read. -/
def Dev.afterChunk (d : Dev) : Dev :=
  { d with periph := d.readChunk.1, ctrl := splice d.ctrl d.datasize.toNat d.readChunk.2.1 }

/-- The device once a packet that fits is stored. -/
def Dev.stored (d : Dev) : Dev := { d.afterChunk with datasize := d.datasize + d.packetsize }

theorem usbControlRecvChunk_fits {d : Dev} (h : d.chunkFits = true) :
    usbControlRecvChunk d = (true, d.stored) := by
  have hsize : d.readChunk.2.2 = d.packetsize := by simpa [Dev.chunkFits] using h
  show (if d.readChunk.2.2 ≠ d.packetsize then (false, stallTransaction d.afterChunk)
    else (true, { d.afterChunk with datasize := d.datasize + d.readChunk.2.2 })) = _
  rw [if_neg (not_not_intro hsize), hsize]
  rfl

theorem usbControlRecvChunk_short {d : Dev} (h : d.chunkFits = false) :
    usbControlRecvChunk d = (false, stallTransaction d.afterChunk) := by
  have hsize : d.readChunk.2.2 ≠ d.packetsize := by simpa [Dev.chunkFits] using h
  show (if d.readChunk.2.2 ≠ d.packetsize then (false, stallTransaction d.afterChunk)
    else (true, { d.afterChunk with datasize := d.datasize + d.readChunk.2.2 })) = _
  rw [if_pos hsize]

/-- A packet of the data stage that is too short ends the transfer. -/
theorem usbdControlOut_short {d : Dev} (hfsm : d.fsm = .dataOut ∨ d.fsm = .lastDataOut)
    (h : d.chunkFits = false) : usbdControlOut d = stallTransaction d.afterChunk := by
  unfold usbdControlOut
  rw [usbControlRecvChunk_short h]
  rcases hfsm with hfsm | hfsm <;> simp [hfsm]

/-- One that fits, before the last. -/
theorem usbdControlOut_dataOut {d : Dev} (hfsm : d.fsm = .dataOut) (h : d.chunkFits = true) :
    usbdControlOut d
      = { d.stored with
          fsm := if d.usbReq.wLength.toNat
              ≤ (d.datasize + d.packetsize).toNat + bMaxPacketSize0.toNat
            then .lastDataOut else .dataOut } := by
  unfold usbdControlOut
  simp only [hfsm, usbControlRecvChunk_fits h, not_true_eq_false, if_false]
  show (if d.usbReq.wLength.toNat ≤ (d.datasize + d.packetsize).toNat + bMaxPacketSize0.toNat
    then { d.stored with fsm := .lastDataOut } else d.stored) = _
  split
  · rfl
  · rw [← hfsm]
    rfl

/-- The last one that fits: the request is dispatched. -/
theorem usbdControlOut_lastDataOut {d : Dev} (hfsm : d.fsm = .lastDataOut)
    (h : d.chunkFits = true) :
    usbdControlOut d
      = if (usbControlRequestDispatch d.stored).1 ≠ .notsupp then
          { (usbControlRequestDispatch d.stored).2 with
            periph := (usbdEpWritePacket (usbControlRequestDispatch d.stored).2.periph 0
              (fun _ => 0) 0).1
            fsm := .statusIn }
        else stallTransaction (usbControlRequestDispatch d.stored).2 := by
  unfold usbdControlOut
  simp only [hfsm, usbControlRecvChunk_fits h, not_true_eq_false, if_false]

/-- An OUT packet that the state does not expect. -/
theorem usbdControlOut_unexpected {d : Dev} (h1 : d.fsm ≠ .dataOut) (h2 : d.fsm ≠ .lastDataOut)
    (h3 : d.fsm ≠ .statusOut) : usbdControlOut d = stallTransaction d := by
  unfold usbdControlOut
  cases hfsm : d.fsm <;> first | rfl | exact absurd hfsm ‹_›

/-! ### The request of a step -/

/-- The request that the next poll hands to `usbdfu_control_request`. -/
def Dev.nextRequest (d : Dev) : Option UsbSetupData :=
  match d.periph.served with
  | .setup => d.nextSetup.filter fun req => req.isRead && req.isClassInterface
  | .out =>
      if d.fsm = .lastDataOut ∧ d.chunkFits = true ∧ d.usbReq.isClassInterface = true
      then some d.usbReq else none
  | _ => none

/-- The step hands `req` to the class driver. -/
def Dev.Hands (d : Dev) (e : BusEvent) (req : UsbSetupData) : Prop :=
  d.dfu.reset = false ∧ e = .poll ∧ d.nextRequest = some req

instance (d : Dev) (e : BusEvent) (req : UsbSetupData) : Decidable (d.Hands e req) :=
  inferInstanceAs (Decidable (_ ∧ _ ∧ _))

/-- The request that a step hands on is one. -/
theorem Dev.Hands.unique {d : Dev} {e : BusEvent} {req req' : UsbSetupData} (h : d.Hands e req)
    (h' : d.Hands e req') : req' = req :=
  Option.some.inj (h'.2.2.symm.trans h.2.2)

theorem usbControlSetupWrite_dfu (d : Dev) : (usbControlSetupWrite d).dfu = d.dfu := by
  unfold usbControlSetupWrite
  split <;> rfl

/-- The driver after a SETUP packet. -/
theorem usbdControlSetup_dfu (d : Dev) :
    (usbdControlSetup d).dfu
      = match d.nextSetup.filter fun req => req.isRead && req.isClassInterface with
        | some req => (usbdfuControlRequest d.dfu d.ctrl req req.wLength false).dfu
        | none => d.dfu := by
  cases h : d.nextSetup with
  | none =>
    obtain ⟨req, heq⟩ := usbdControlSetup_none h
    rw [heq]
    rfl
  | some req =>
    rw [usbdControlSetup_some h]
    by_cases hread : req.isRead = true
    · have hdfu : (usbControlSetupRead (d.afterSetup req)).dfu
          = if req.isClassInterface then
              (usbdfuControlRequest d.dfu d.ctrl req req.wLength false).dfu
            else d.dfu := by
        rw [usbControlSetupRead_dfu]
        exact dispatchRequest_dfu _
      rw [if_pos hread, hdfu]
      cases hclass : req.isClassInterface <;> simp [Option.filter, hread, hclass]
    · rw [if_neg hread, usbControlSetupWrite_dfu]
      simp [Option.filter, hread, Dev.afterSetup]

/-- The driver after an OUT packet that belongs to no status stage. -/
theorem usbdControlOut_dfu {d : Dev} (h : d.fsm ≠ .statusOut) :
    (usbdControlOut d).dfu
      = if d.fsm = .lastDataOut ∧ d.chunkFits = true ∧ d.usbReq.isClassInterface = true then
          (usbdfuControlRequest d.dfu d.stored.ctrl d.usbReq d.usbReq.wLength
            d.usbCompleteCb).dfu
        else d.dfu := by
  by_cases hlast : d.fsm = .lastDataOut
  · cases hfits : d.chunkFits with
    | true =>
      have hdisp : (usbControlRequestDispatch d.stored).2.dfu
          = if d.usbReq.isClassInterface then
              (usbdfuControlRequest d.dfu d.stored.ctrl d.usbReq d.usbReq.wLength
                d.usbCompleteCb).dfu
            else d.dfu := dispatchRequest_dfu d.stored
      rw [usbdControlOut_lastDataOut hlast hfits]
      simp only [hlast, true_and]
      rw [← hdisp]
      split <;> rfl
    | false =>
      rw [usbdControlOut_short (Or.inr hlast) hfits]
      simp [stallTransaction, Dev.afterChunk]
  · rw [if_neg fun hc => hlast hc.1]
    by_cases hdata : d.fsm = .dataOut
    · cases hfits : d.chunkFits with
      | true =>
        rw [usbdControlOut_dataOut hdata hfits]
        rfl
      | false =>
        rw [usbdControlOut_short (Or.inl hdata) hfits]
        rfl
    · rw [usbdControlOut_unexpected hdata hlast h]
      rfl

/-! ### Steps -/

/-- A poll is the handler of what it serves, up to the peripheral. -/
theorem step_poll {d : Dev} (h : d.dfu.reset = false) :
    ∃ p, d.step .poll = { d.serve d.periph.served with periph := p } := by
  obtain ⟨p, hp⟩ := exists_doUsbPoll d
  refine ⟨p, ?_⟩
  rw [← hp]
  simp [Dev.step, h]

/-- A step other than a poll only reaches the peripheral. -/
theorem step_of_ne_poll {d : Dev} {e : BusEvent} (he : e ≠ .poll) :
    ∃ p, d.step e = { d with periph := p } := by
  unfold Dev.step
  split
  · exact ⟨d.periph, rfl⟩
  · cases e with
    | poll => exact absurd rfl he
    | _ => exact ⟨_, rfl⟩

/-- **A step that hands a request on** is one call of the class driver with it. -/
theorem step_dfu_of_hands {d : Dev} {e : BusEvent} {req : UsbSetupData} (h : d.Hands e req) :
    ¬ d.Completes e ∧ ∃ ctrl complete,
      (d.step e).dfu = (usbdfuControlRequest d.dfu ctrl req req.wLength complete).dfu := by
  obtain ⟨hreset, rfl, hnext⟩ := h
  obtain ⟨p, hstep⟩ := step_poll hreset
  have hdfu : (d.step .poll).dfu = (d.serve d.periph.served).dfu := by rw [hstep]
  rw [hdfu]
  unfold Dev.nextRequest at hnext
  cases hserved : d.periph.served with
  | setup =>
    rw [hserved] at hnext
    refine ⟨fun hc => ?_, d.ctrl, false, ?_⟩
    · simp [Dev.Completes, hserved] at hc
    · show (usbdControlSetup d).dfu = _
      rw [usbdControlSetup_dfu]
      simp only at hnext
      rw [hnext]
  | out =>
    rw [hserved] at hnext
    simp only at hnext
    by_cases hlast : d.fsm = .lastDataOut ∧ d.chunkFits = true ∧ d.usbReq.isClassInterface = true
    · rw [if_pos hlast] at hnext
      obtain rfl := Option.some.inj hnext
      refine ⟨fun hc => ?_, d.stored.ctrl, d.usbCompleteCb, ?_⟩
      · simp [Dev.Completes, hserved, hlast.1] at hc
      · show (usbdControlOut d).dfu = _
        rw [usbdControlOut_dfu (by rw [hlast.1]; decide), if_pos hlast]
    · rw [if_neg hlast] at hnext
      exact absurd hnext (by simp)
  | _ => rw [hserved] at hnext; simp at hnext

/-- **Every other step** completes a status stage or leaves the driver alone. -/
theorem step_dfu_of_not_hands {d : Dev} {e : BusEvent} (hc : ¬ d.Completes e)
    (hh : ∀ req, ¬ d.Hands e req) : (d.step e).dfu = d.dfu := by
  by_cases he : e = .poll
  · subst he
    by_cases hreset : d.dfu.reset = true
    · simp [Dev.step, hreset]
    have hreset : d.dfu.reset = false := by simpa using hreset
    obtain ⟨p, hstep⟩ := step_poll hreset
    have hdfu : (d.step .poll).dfu = (d.serve d.periph.served).dfu := by rw [hstep]
    rw [hdfu]
    cases hserved : d.periph.served with
    | reset => rfl
    | setup =>
      show (usbdControlSetup d).dfu = _
      rw [usbdControlSetup_dfu]
      cases hreq : d.nextSetup.filter fun req => req.isRead && req.isClassInterface with
      | none => rfl
      | some req =>
        refine absurd ⟨hreset, rfl, ?_⟩ (hh req)
        rw [Dev.nextRequest, hserved]
        exact hreq
    | out =>
      show (usbdControlOut d).dfu = _
      by_cases hfsm : d.fsm = .statusOut
      · have hcb : d.usbCompleteCb = false := by
          by_contra hcb
          exact hc ⟨hreset, rfl, by simpa using hcb, Or.inl ⟨hserved, hfsm⟩⟩
        simp [usbdControlOut, hfsm, completeTransfer, hcb]
      · rw [usbdControlOut_dfu hfsm, if_neg]
        intro hlast
        refine hh d.usbReq ⟨hreset, rfl, ?_⟩
        rw [Dev.nextRequest, hserved]
        exact if_pos hlast
    | tx =>
      by_cases hfsm : d.fsm = .statusIn
      · have hcb : d.usbCompleteCb = false := by
          by_contra hcb
          exact hc ⟨hreset, rfl, by simpa using hcb, Or.inr ⟨hserved, hfsm⟩⟩
        simp [Dev.serve, usbdControlIn, hfsm, completeTransfer, hcb]
      · simp only [Dev.serve, usbdControlIn]
        split
        · exact usbControlSendChunk_dfu _
        · rfl
        · rename_i hs
          exact absurd hs hfsm
        · rfl
    | nothing => rfl
  · obtain ⟨p, hstep⟩ := step_of_ne_poll (d := d) he
    rw [hstep]

end Stm32F1Dfu
