import Stm32F1Dfu.Device

namespace Stm32F1Dfu

/-!
# What one step of the device does

A poll serves one thing: a bus reset, a SETUP packet, an OUT packet, an acknowledged IN
packet, or nothing.

* `doUsbPoll_served` — a poll is the handler of what it serves, and flags cleared;
* `Dev.Completes` — the step runs the completion of a status stage;
* `step_dfu` — what a step does to the DFU driver: the completion exactly in the steps
  that complete, and in every other step at most one control request.
-/

/-! ### Serving -/

/-- What a poll serves. -/
inductive Served where
  | reset | setup | out | tx | nothing
  deriving DecidableEq, Repr

/-- The endpoint `do_usb_poll` takes from `USB_ISTR_EP_ID`. -/
def Periph.servedEp (p : Periph) : UInt8 :=
  UInt8.ofNat (p.read regIstr &&& usbIstrEpId).toNat

/-- What the next poll serves. -/
def Periph.served (p : Periph) : Served :=
  if p.read regIstr &&& usbIstrReset ≠ 0#16 then .reset
  else if p.read regIstr &&& usbIstrCtr = 0#16 then .nothing
  else if p.read regIstr &&& usbIstrDir = 0#16 then .tx
  else if p.read p.servedEp.toNat &&& usbEpSetup ≠ 0#16 then .setup
  else .out

/-- The handler of what a poll serves. -/
def Dev.serve (d : Dev) : Served → Dev
  | .reset   => handleReset d
  | .setup   => usbdControlSetup d
  | .out     => usbdControlOut d
  | .tx      => usbdControlIn { d with periph := usbClrEpTxCtr d.periph d.periph.servedEp }
  | .nothing => d

/-- The flags a poll clears at its end. -/
def endPoll (d : Dev) (istr : BitVec 16) : Dev := { d with periph := handleFlags d.periph istr }

/-- **A poll is one handler.**  It runs the handler of what it serves; the flags are
    cleared after every handler but that of a bus reset. -/
theorem doUsbPoll_served (d : Dev) :
    doUsbPoll d = if d.periph.served = .reset then handleReset d
      else endPoll (d.serve d.periph.served) (d.periph.read regIstr) := by
  unfold doUsbPoll Periph.served
  have hep : UInt8.ofNat (d.periph.read regIstr &&& usbIstrEpId).toNat = d.periph.servedEp := rfl
  by_cases hreset : d.periph.read regIstr &&& usbIstrReset = 0#16
  · by_cases hctr : d.periph.read regIstr &&& usbIstrCtr = 0#16
    · simp [hreset, hctr, Dev.serve, endPoll]
    · by_cases hdir : d.periph.read regIstr &&& usbIstrDir = 0#16
      · simp only [handleTransfer, hep]
        simp [hreset, hctr, hdir, Dev.serve, endPoll]
      · by_cases hset : d.periph.read d.periph.servedEp.toNat &&& usbEpSetup = 0#16 <;>
          simp only [handleTransfer, hep] <;>
          simp [hreset, hctr, hdir, hset, Dev.serve, endPoll]
  · simp [hreset]

/-- A poll is its handler up to the peripheral. -/
theorem exists_doUsbPoll (d : Dev) :
    ∃ p, doUsbPoll d = { d.serve d.periph.served with periph := p } := by
  rw [doUsbPoll_served]
  split
  · rename_i h
    rw [h]
    exact ⟨(handleReset d).periph, rfl⟩
  · exact ⟨_, rfl⟩

/-! ### Steps and runs -/

/-- A device that runs takes an event of the bus to its peripheral. -/
theorem step_bus {d : Dev} {e : BusEvent} (hrun : d.dfu.reset = false) (he : e ≠ .poll) :
    d.step e = { d with periph := d.periph.bus e } := by
  unfold Dev.step
  rw [hrun, if_neg Bool.false_ne_true]
  cases e <;> first | rfl | exact absurd rfl he

/-- A device that runs polls its peripheral. -/
theorem step_doUsbPoll {d : Dev} (hrun : d.dfu.reset = false) : d.step .poll = doUsbPoll d := by
  simp [Dev.step, hrun]

theorem Dev.run_cons (d : Dev) (e : BusEvent) (evs : List BusEvent) :
    d.run (e :: evs) = (d.step e).run evs := rfl

theorem Dev.run_append (d : Dev) (evs evs' : List BusEvent) :
    d.run (evs ++ evs') = (d.run evs).run evs' := Machine.run_append Dev.step d evs evs'

/-! ### Request handlers

The vendor and standard requests change the peripheral, the control buffer and `datasize`
only, and some that they handle leave `datasize` as it is. -/

/-- A standard request that is handled without setting `datasize`: `SET_ADDRESS`,
    `SET_CONFIGURATION`, or `CLEAR_FEATURE` and `SET_FEATURE` of an endpoint, with a value
    that is accepted. -/
def UsbSetupData.leavesDatasize (req : UsbSetupData) : Bool :=
  req.bmRequestType &&& 0x60 == 0 &&
    (req.bmRequestType &&& 0x1F == 0 &&
        (req.bRequest == 5 && req.bmRequestType == 0 || req.bRequest == 9 && req.wValue == 1)
      || req.bmRequestType &&& 0x1F == 2 &&
        ((req.bRequest == 1 || req.bRequest == 3) && req.wValue == 0))

/-- What a vendor or standard request does: it answers with at most 255 bytes, or keeps
    `datasize` because it is refused or one of those that leave it. -/
def HandledBy (d : Dev) (r : UsbdRequestReturnCodes × Dev) (leaves : Prop) : Prop :=
  ∃ p c n, r.2 = { d with periph := p, ctrl := c, datasize := n } ∧
    (r.1 = .handled ∧ (n ≤ 255 ∨ n = d.datasize ∧ leaves)
      ∨ r.1 = .notsupp ∧ (n ≤ 255 ∨ n = d.datasize))

/-- A handler that answers. -/
private theorem HandledBy.answer {d : Dev} {leaves : Prop} (p : Periph) (c : Nat → UInt8)
    {n : UInt16} (hn : n ≤ 255) :
    HandledBy d (.handled, { d with periph := p, ctrl := c, datasize := n }) leaves :=
  ⟨p, c, n, rfl, Or.inl ⟨rfl, Or.inl hn⟩⟩

/-- A handler that refuses. -/
private theorem HandledBy.refuse {d : Dev} {leaves : Prop} (c : Nat → UInt8) :
    HandledBy d (.notsupp, { d with ctrl := c }) leaves :=
  ⟨d.periph, c, d.datasize, rfl, Or.inr ⟨rfl, Or.inr rfl⟩⟩

/-- A handler that leaves `datasize`. -/
private theorem HandledBy.leave {d : Dev} {leaves : Prop} (p : Periph) (h : leaves) :
    HandledBy d (.handled, { d with periph := p }) leaves :=
  ⟨p, d.ctrl, d.datasize, rfl, Or.inl ⟨rfl, Or.inr ⟨rfl, h⟩⟩⟩

theorem usbStandardGetDescriptor_handledBy (d : Dev) :
    HandledBy d (usbStandardGetDescriptor d) False := by
  unfold usbStandardGetDescriptor
  by_cases h1 : d.usbReq.wValue >>> 8 = 1
  · rw [if_pos h1]
    exact .answer _ _ (by decide)
  by_cases h2 : d.usbReq.wValue >>> 8 = 2
  · rw [if_neg h1, if_pos h2]
    exact .answer _ _ (by decide)
  by_cases h3 : d.usbReq.wValue >>> 8 = 3
  · rw [if_neg h1, if_neg h2, if_pos h3]
    split
    · exact .answer _ _ (by decide)
    split
    · exact .answer _ _ (by decide)
    split
    · exact .refuse _
    split
    · exact .refuse _
    · refine .answer _ _ ?_
      -- `bLength` is a byte
      rw [UInt16.le_iff_toNat_le, UInt8.toNat_toUInt16]
      have := UInt8.toNat_lt (UInt8.ofNat
        ((usbStrings d.dfu.safeWrite d.uniqueId
          ((d.usbReq.wValue &&& 0xFF).toNat - 1)).length * 2 + 2))
      show _ ≤ 255
      omega
  · rw [if_neg h1, if_neg h2, if_neg h3]
    exact .refuse _

theorem usbdStandardRequestDevice_handledBy (d : Dev) :
    HandledBy d (usbdStandardRequestDevice d)
      (d.usbReq.bRequest = 5 ∧ d.usbReq.bmRequestType = 0
        ∨ d.usbReq.bRequest = 9 ∧ d.usbReq.wValue = 1) := by
  unfold usbdStandardRequestDevice
  split
  case h_1 h5 =>
    split
    · exact .refuse _
    · rename_i hok
      rw [not_or, not_not] at hok
      exact .leave _ (Or.inl ⟨h5, hok.1⟩)
  case h_2 h9 =>
    split
    · rename_i h1
      exact .leave _ (Or.inr ⟨h9, h1⟩)
    · exact .refuse _
  case h_3 => exact .answer _ _ (by decide)
  case h_4 =>
    obtain ⟨p, c, n, h, hn⟩ := usbStandardGetDescriptor_handledBy d
    exact ⟨p, c, n, h, by simpa using hn.imp_left fun hh => ⟨hh.1, Or.inl (by simpa using hh.2)⟩⟩
  case h_5 => exact .answer _ _ (by decide)
  case h_6 => exact .refuse _

theorem usbdStandardRequestInterface_handledBy (d : Dev) :
    HandledBy d (usbdStandardRequestInterface d) False := by
  unfold usbdStandardRequestInterface
  split
  · exact .answer _ _ (by decide)
  · exact .answer _ _ (by decide)
  · exact ⟨d.periph, _, 2, rfl, Or.inr ⟨rfl, Or.inl (by decide)⟩⟩
  · exact .refuse _

theorem usbdStandardRequestEndpoint_handledBy (d : Dev) :
    HandledBy d (usbdStandardRequestEndpoint d)
      ((d.usbReq.bRequest = 1 ∨ d.usbReq.bRequest = 3) ∧ d.usbReq.wValue = 0) := by
  unfold usbdStandardRequestEndpoint
  split
  case h_1 h1 =>
    split
    · rename_i h0
      exact .leave _ ⟨Or.inl h1, h0⟩
    · exact .refuse _
  case h_2 h3 =>
    split
    · rename_i h0
      exact .leave _ ⟨Or.inr h3, h0⟩
    · exact .refuse _
  case h_3 => exact .answer _ _ (by decide)
  case h_4 => exact .refuse _

/-- The reason a handler leaves `datasize` can be restated. -/
private theorem HandledBy.imp {d : Dev} {r : UsbdRequestReturnCodes × Dev} {l l' : Prop}
    (h : HandledBy d r l) (hl : l → l') : HandledBy d r l' := by
  obtain ⟨p, c, n, hr, hn⟩ := h
  refine ⟨p, c, n, hr, hn.imp_left ?_⟩
  rintro ⟨hh, hsize⟩
  exact ⟨hh, hsize.imp_right fun hs => ⟨hs.1, hl hs.2⟩⟩

/-- **Vendor and standard requests.**  Nothing but the peripheral, the control buffer and
    `datasize` changes. -/
theorem dispatchOther_handledBy (d : Dev) :
    HandledBy d (dispatchOther d) (d.usbReq.leavesDatasize = true) := by
  unfold dispatchOther usbdStandardRequest
  split
  · exact .answer _ _ (by decide)
  split
  · exact .refuse _
  rename_i htype
  have h60 : d.usbReq.bmRequestType &&& 0x60 = 0 := by simpa using htype
  split
  case h_1 h0 =>
    apply (usbdStandardRequestDevice_handledBy d).imp
    intro h
    simpa [UsbSetupData.leavesDatasize, h60, h0] using h
  case h_2 => exact (usbdStandardRequestInterface_handledBy d).imp False.elim
  case h_3 h2 =>
    apply (usbdStandardRequestEndpoint_handledBy d).imp
    intro h
    simpa [UsbSetupData.leavesDatasize, h60, h2] using h
  case h_4 => exact .refuse _

/-! ### Dispatch -/

theorem usbdfuControlRequest_code (d : Dfu) (ctrl : Nat → UInt8) (req : UsbSetupData)
    (len : UInt16) (complete : Bool) :
    (usbdfuControlRequest d ctrl req len complete).code
      = if DfuReq.ofCode req.bRequest = none then .nextCallback else .handled := by
  unfold usbdfuControlRequest
  cases DfuReq.ofCode req.bRequest with
  | none => rfl
  | some r =>
    cases r with
    | dnload => simp only; split <;> rfl
    | upload =>
      simp only
      by_cases h0 : req.wValue = 0
      · rw [if_pos h0]; rfl
      · rw [if_neg h0]; split <;> rfl
    | _ => rfl

/-- The type and recipient of a class request to the interface rule out the vendor and
    the standard requests. -/
theorem dispatchOther_class {d : Dev} (h : d.usbReq.isClassInterface = true) :
    dispatchOther d = (.notsupp, d) := by
  have h21 : d.usbReq.bmRequestType &&& 0x7F = 0x21 := by
    simpa [UsbSetupData.isClassInterface] using h
  have h60 : d.usbReq.bmRequestType &&& 0x60 ≠ 0 := by
    intro h0
    have hsub : (d.usbReq.bmRequestType &&& 0x7F) &&& 0x60 = d.usbReq.bmRequestType &&& 0x60 := by
      rw [UInt8.and_assoc]
      rfl
    rw [h0, h21] at hsub
    exact absurd hsub (by decide)
  unfold dispatchOther usbdStandardRequest
  rw [if_neg (by rw [h21]; simp), if_pos h60]

/-- **A class request to the interface** goes to the class driver and nowhere else. -/
theorem dispatchRequest_class {d : Dev} (h : d.usbReq.isClassInterface = true) :
    dispatchRequest d
      = if DfuReq.ofCode d.usbReq.bRequest = none
        then (.notsupp, { d with datasize := d.usbReq.wLength })
        else (.handled, (dispatchDfu d).2) := by
  unfold dispatchRequest
  rw [if_pos h]
  have hcode := usbdfuControlRequest_code d.dfu d.ctrl d.usbReq d.usbReq.wLength d.usbCompleteCb
  by_cases hnone : DfuReq.ofCode d.usbReq.bRequest = none
  · rw [if_pos hnone] at hcode ⊢
    -- the class driver passes: nothing but `datasize` was touched
    have hpass : (dispatchDfu d).2 = { d with datasize := d.usbReq.wLength } := by
      simp [dispatchDfu, usbdfuControlRequest, hnone]
    simp only [dispatchDfu, hcode]
    simp only [dispatchDfu] at hpass
    rw [hpass]
    exact dispatchOther_class h
  · rw [if_neg hnone] at hcode ⊢
    simp [dispatchDfu, hcode]

/-- A request that is not one of the class reaches the other handlers. -/
theorem dispatchRequest_other {d : Dev} (h : d.usbReq.isClassInterface = false) :
    dispatchRequest d = dispatchOther d := by
  simp [dispatchRequest, h]

/-- What a request, whoever handles it, may change: the stage of the transfer, its offset
    and its request stay. -/
theorem dispatchRequest_frame (d : Dev) :
    ∃ p c n f cb, (dispatchRequest d).2
      = { d with periph := p, ctrl := c, datasize := n, dfu := f, usbCompleteCb := cb } := by
  cases h : d.usbReq.isClassInterface with
  | true =>
    rw [dispatchRequest_class h]
    split
    · exact ⟨_, _, _, _, _, rfl⟩
    · exact ⟨_, _, _, _, _, rfl⟩
  | false =>
    rw [dispatchRequest_other h]
    obtain ⟨p, c, n, hd, -⟩ := dispatchOther_handledBy d
    exact ⟨p, c, n, d.dfu, d.usbCompleteCb, hd⟩

/-- Dispatching adds one entry to the log, and keeps the offset, the stage and the request. -/
theorem usbControlRequestDispatch_frame (d : Dev) :
    (usbControlRequestDispatch d).2.log
        = .dispatched d.usbReq (usbControlRequestDispatch d).1 :: d.log
      ∧ (usbControlRequestDispatch d).2.dataoff = d.dataoff
      ∧ (usbControlRequestDispatch d).2.fsm = d.fsm
      ∧ (usbControlRequestDispatch d).2.usbReq = d.usbReq := by
  obtain ⟨p, c, n, f, cb, hd⟩ := dispatchRequest_frame d
  simp only [usbControlRequestDispatch, hd]
  exact ⟨trivial, trivial, trivial, trivial⟩

/-- No request is passed on by every handler. -/
theorem dispatchRequest_code (d : Dev) :
    (dispatchRequest d).1 = .handled ∨ (dispatchRequest d).1 = .notsupp := by
  cases h : d.usbReq.isClassInterface with
  | true =>
    rw [dispatchRequest_class h]
    split
    · exact Or.inr rfl
    · exact Or.inl rfl
  | false =>
    rw [dispatchRequest_other h]
    obtain ⟨p, c, n, -, hn⟩ := dispatchOther_handledBy d
    exact hn.imp And.left And.left

/-- Dispatching is one call of the class driver for a class request to the interface. -/
theorem dispatchRequest_dfu (d : Dev) :
    (dispatchRequest d).2.dfu
      = if d.usbReq.isClassInterface then
          (usbdfuControlRequest d.dfu d.ctrl d.usbReq d.usbReq.wLength d.usbCompleteCb).dfu
        else d.dfu := by
  cases h : d.usbReq.isClassInterface with
  | true =>
    rw [dispatchRequest_class h, if_pos rfl]
    split
    · rename_i hnone
      simp [usbdfuControlRequest, hnone]
    · rfl
  | false =>
    rw [dispatchRequest_other h]
    obtain ⟨p, c, n, hd, -⟩ := dispatchOther_handledBy d
    rw [hd]
    rfl

/-! ### The DFU driver over one step -/

/-- The driver `f'` is `f` after at most one control request. -/
def AfterRequest (f f' : Dfu) : Prop :=
  f' = f ∨ ∃ ctrl req complete, f' = (usbdfuControlRequest f ctrl req req.wLength complete).dfu

@[simp] theorem usbControlSendChunk_dfu (d : Dev) : (usbControlSendChunk d).dfu = d.dfu := by
  unfold usbControlSendChunk
  split <;> rfl

@[simp] theorem usbControlRecvChunk_dfu (d : Dev) : (usbControlRecvChunk d).2.dfu = d.dfu := by
  simp only [usbControlRecvChunk]
  split <;> rfl

theorem usbControlRequestDispatch_afterRequest (d : Dev) :
    AfterRequest d.dfu (usbControlRequestDispatch d).2.dfu := by
  show AfterRequest d.dfu (dispatchRequest d).2.dfu
  rw [dispatchRequest_dfu]
  split
  · exact Or.inr ⟨_, _, _, rfl⟩
  · exact Or.inl rfl

/-- A read dispatches its request at once. -/
theorem usbControlSetupRead_dfu (d : Dev) :
    (usbControlSetupRead d).dfu = (usbControlRequestDispatch { d with dataoff := 0 }).2.dfu := by
  simp only [usbControlSetupRead]
  split
  · split
    · rw [usbControlSendChunk_dfu]
      split <;> rfl
    · split <;> rfl
  · rfl

theorem usbdControlSetup_afterRequest (d : Dev) : AfterRequest d.dfu (usbdControlSetup d).dfu := by
  simp only [usbdControlSetup]
  split
  · exact Or.inl rfl
  split
  · rw [usbControlSetupRead_dfu]
    exact usbControlRequestDispatch_afterRequest _
  · unfold usbControlSetupWrite
    split <;> exact Or.inl rfl

/-- Outside the status stage an OUT packet leads to at most one request: that of a write
    whose last packet it is. -/
theorem usbdControlOut_afterRequest {d : Dev} (h : d.fsm ≠ .statusOut) :
    AfterRequest d.dfu (usbdControlOut d).dfu := by
  have hrecv := usbControlRecvChunk_dfu d
  unfold usbdControlOut
  split
  · simp only
    split
    · exact Or.inl hrecv
    · split <;> exact Or.inl hrecv
  · simp only
    split
    · exact Or.inl hrecv
    · have hdisp := usbControlRequestDispatch_afterRequest (usbControlRecvChunk d).2
      rw [hrecv] at hdisp
      split <;> exact hdisp
  · rename_i hs
    exact absurd hs h
  · exact Or.inl rfl

/-- The step runs the completion of a status stage with the callback set: an OUT packet is
    served in `STATUS_OUT`, or an acknowledged IN packet in `STATUS_IN`. -/
def Dev.Completes (d : Dev) (e : BusEvent) : Prop :=
  d.dfu.reset = false ∧ e = .poll ∧ d.usbCompleteCb = true ∧
    (d.periph.served = .out ∧ d.fsm = .statusOut ∨ d.periph.served = .tx ∧ d.fsm = .statusIn)

instance (d : Dev) (e : BusEvent) : Decidable (d.Completes e) :=
  inferInstanceAs (Decidable (_ ∧ _ ∧ _ ∧ _))

/-- **The completing steps** run `usbdfu_getstatus_complete`, once. -/
theorem step_dfu_of_completes {d : Dev} {e : BusEvent} (h : d.Completes e) :
    (d.step e).dfu = usbdfuGetstatusComplete d.dfu := by
  obtain ⟨hreset, rfl, hcb, hserved⟩ := h
  obtain ⟨p, hpoll⟩ := exists_doUsbPoll d
  simp only [Dev.step, hreset, Bool.false_eq_true, if_false, hpoll]
  rcases hserved with ⟨hs, hfsm⟩ | ⟨hs, hfsm⟩
  · simp [hs, Dev.serve, usbdControlOut, hfsm, completeTransfer, hcb]
  · simp [hs, Dev.serve, usbdControlIn, hfsm, completeTransfer, hcb]

/-- **Every other step** leads to at most one control request. -/
theorem step_dfu_of_not_completes {d : Dev} {e : BusEvent} (h : ¬ d.Completes e) :
    AfterRequest d.dfu (d.step e).dfu := by
  unfold Dev.step
  split
  · exact Or.inl rfl
  rename_i hreset
  cases e with
  | poll =>
    obtain ⟨p, hpoll⟩ := exists_doUsbPoll d
    show AfterRequest d.dfu (doUsbPoll d).dfu
    rw [hpoll]
    show AfterRequest d.dfu (d.serve d.periph.served).dfu
    have hstage (hs : d.periph.served = .out ∧ d.fsm = .statusOut
        ∨ d.periph.served = .tx ∧ d.fsm = .statusIn) : d.usbCompleteCb = false := by
      by_contra hcb
      exact h ⟨by simpa using hreset, rfl, by simpa using hcb, hs⟩
    cases hserved : d.periph.served with
    | reset => exact Or.inl rfl
    | setup => exact usbdControlSetup_afterRequest d
    | out =>
      by_cases hfsm : d.fsm = .statusOut
      · -- a status stage without a callback
        have hcb := hstage (Or.inl ⟨hserved, hfsm⟩)
        simp [Dev.serve, usbdControlOut, hfsm, completeTransfer, hcb, AfterRequest]
      · exact usbdControlOut_afterRequest hfsm
    | tx =>
      by_cases hfsm : d.fsm = .statusIn
      · have hcb := hstage (Or.inr ⟨hserved, hfsm⟩)
        simp [Dev.serve, usbdControlIn, hfsm, completeTransfer, hcb, AfterRequest]
      · left
        simp only [Dev.serve, usbdControlIn]
        split
        · exact usbControlSendChunk_dfu _
        · rfl
        · rename_i hs
          exact absurd hs hfsm
        · rfl
    | nothing => exact Or.inl rfl
  | busReset => exact Or.inl rfl
  | raise flags => exact Or.inl rfl
  | setup req => exact Or.inl rfl
  | out data => exact Or.inl rfl
  | ack => exact Or.inl rfl

/-- **A step and the DFU driver**: a completion or at most one request. -/
theorem step_dfu (d : Dev) (e : BusEvent) :
    (d.step e).dfu = usbdfuGetstatusComplete d.dfu ∨ AfterRequest d.dfu (d.step e).dfu := by
  by_cases h : d.Completes e
  · exact Or.inl (step_dfu_of_completes h)
  · exact Or.inr (step_dfu_of_not_completes h)

/-- **Driver invariants over runs.**  What every effect of a request and every completion
    preserve holds of the driver at the end of every run. -/
theorem run_dfu_invariant {I : Dfu → Prop} (hreq : ∀ f f', RequestEffect f f' → I f → I f')
    (hcomp : ∀ f, I f → I (usbdfuGetstatusComplete f)) {d : Dev} (h0 : I d.dfu)
    (evs : List BusEvent) : I (d.run evs).dfu := by
  refine Machine.run_invariant' (I := fun d : Dev => I d.dfu) (fun d e hd => ?_) h0 evs
  rcases step_dfu d e with h | h | ⟨ctrl, req, complete, h⟩ <;> rw [h]
  · exact hcomp _ hd
  · exact hd
  · exact hreq _ _ (usbdfuControlRequest_effect ..) hd

end Stm32F1Dfu
