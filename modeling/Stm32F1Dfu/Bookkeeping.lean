import Stm32F1Dfu.Registers

namespace Stm32F1Dfu

open Machine

/-!
# The bookkeeping of a transfer

A SETUP packet is taken up whatever an earlier transfer left behind in the statics of `usb.c`: the
stage, the counters, the callback, the request before.  Two devices that differ in no more than
that behave the same from then on, but for the requests that are handled without setting
`datasize` and then answered with as many bytes as it says.

* `Covers` — what the stage of a transfer looks at is the same;
* `setup_covers` — a SETUP packet that is taken up;
* `step_covers` — every step from there on.
-/

/-! ### What a transfer leaves behind -/

/-- The statics of `usb.c` that belong to one transfer. -/
structure Bookkeeping where
  datasize : UInt16
  dataoff : UInt16
  usbNeedsZlp : Bool
  usbReq : UsbSetupData
  usbCompleteCb : Bool

/-- Those of a device. -/
def Dev.book (d : Dev) : Bookkeeping where
  datasize := d.datasize
  dataoff := d.dataoff
  usbNeedsZlp := d.usbNeedsZlp
  usbReq := d.usbReq
  usbCompleteCb := d.usbCompleteCb

/-- The device with the statics `k`. -/
def Dev.withBook (d : Dev) (k : Bookkeeping) : Dev :=
  { d with datasize := k.datasize, dataoff := k.dataoff, usbNeedsZlp := k.usbNeedsZlp,
           usbReq := k.usbReq, usbCompleteCb := k.usbCompleteCb }

/-- The stage of `d` looks at nothing in which the statics `k` differ from those of `d`. -/
structure Covers (d : Dev) (k : Bookkeeping) : Prop where
  request : d.fsm ≠ .idle → k.usbReq = d.usbReq ∧ k.usbCompleteCb = d.usbCompleteCb
  received : d.fsm = .dataOut ∨ d.fsm = .lastDataOut → k.datasize = d.datasize
  sent : d.fsm = .dataIn →
    k.datasize = d.datasize ∧ k.dataoff = d.dataoff ∧ k.usbNeedsZlp = d.usbNeedsZlp

theorem Covers.refl (d : Dev) : Covers d d.book :=
  ⟨fun _ => ⟨rfl, rfl⟩, fun _ => rfl, fun _ => ⟨rfl, rfl, rfl⟩⟩

/-- In `IDLE` nothing is looked at. -/
theorem covers_of_idle {d : Dev} (h : d.fsm = .idle) (k : Bookkeeping) : Covers d k := by
  refine ⟨fun hne => absurd h hne, fun hs => ?_, fun hs => ?_⟩
  · rw [h] at hs
    simp at hs
  · rw [h] at hs
    simp at hs

/-- In a status stage only the request and the callback are. -/
theorem covers_of_status {d : Dev} (h : d.fsm = .statusIn ∨ d.fsm = .statusOut ∨
    d.fsm = .lastDataIn) {k : Bookkeeping} (hreq : k.usbReq = d.usbReq)
    (hcb : k.usbCompleteCb = d.usbCompleteCb) : Covers d k := by
  refine ⟨fun _ => ⟨hreq, hcb⟩, fun hs => ?_, fun hs => ?_⟩
  · rcases h with h | h | h <;> simp [h] at hs
  · rcases h with h | h | h <;> simp [h] at hs

/-- In the data stage of a write the number of bytes received is, too. -/
theorem covers_of_received {d : Dev} (h : d.fsm = .dataOut ∨ d.fsm = .lastDataOut)
    {k : Bookkeeping} (hreq : k.usbReq = d.usbReq) (hcb : k.usbCompleteCb = d.usbCompleteCb)
    (hsize : k.datasize = d.datasize) : Covers d k := by
  refine ⟨fun _ => ⟨hreq, hcb⟩, fun _ => hsize, fun hs => ?_⟩
  rcases h with h | h <;> simp [h] at hs

/-! ### Dispatching -/

/-- The device with another stage, other counters and another `usb_needs_zlp`. -/
def Dev.stage (d : Dev) (s : UsbFsmState) (n o : UInt16) (z : Bool) : Dev :=
  { d with fsm := s, datasize := n, dataoff := o, usbNeedsZlp := z }

/-- The replies `x` and `x'` differ in the stage, in `dataoff` and `usb_needs_zlp`, and in
    `datasize` only if the request is refused or leaves it alone. -/
def Alike (x x' : UsbdRequestReturnCodes × Dev) (s : UsbFsmState) (o : UInt16) (z : Bool)
    (leaves : Prop) : Prop :=
  ∃ n, x' = (x.1, x.2.stage s n o z) ∧ (x.1 ≠ .notsupp → ¬ leaves → n = x.2.datasize)

section

variable {d : Dev} {s : UsbFsmState} {n o : UInt16} {z : Bool} {leaves : Prop}

/-- A request that sets `datasize`. -/
theorem Alike.answer {code : UsbdRequestReturnCodes} {d' : Dev} :
    Alike (code, d') (code, d'.stage s d'.datasize o z) s o z leaves :=
  ⟨d'.datasize, rfl, fun _ _ => rfl⟩

/-- One that is refused. -/
theorem Alike.refuse {d' : Dev} : Alike (.notsupp, d') (.notsupp, d'.stage s n o z) s o z leaves :=
  ⟨n, rfl, fun h => absurd rfl h⟩

/-- One that leaves `datasize` alone. -/
theorem Alike.leave {code : UsbdRequestReturnCodes} {d' : Dev} (h : leaves) :
    Alike (code, d') (code, d'.stage s n o z) s o z leaves :=
  ⟨n, rfl, fun _ hno => absurd h hno⟩

theorem Alike.imp {x x' : UsbdRequestReturnCodes × Dev} {leaves' : Prop}
    (h : Alike x x' s o z leaves) (himp : leaves → leaves') : Alike x x' s o z leaves' := by
  obtain ⟨n, heq, hn⟩ := h
  exact ⟨n, heq, fun hcode hno => hn hcode fun hl => hno (himp hl)⟩

end

variable (d : Dev) (s : UsbFsmState) (n o : UInt16) (z : Bool)

@[simp] theorem Dev.stage_usbReq : (d.stage s n o z).usbReq = d.usbReq := rfl

theorem usbStandardGetDescriptor_alike :
    Alike (usbStandardGetDescriptor d) (usbStandardGetDescriptor (d.stage s n o z)) s o z
      False := by
  unfold usbStandardGetDescriptor
  rw [Dev.stage_usbReq]
  by_cases h1 : d.usbReq.wValue >>> 8 = 1
  · simp only [if_pos h1]
    exact .answer
  by_cases h2 : d.usbReq.wValue >>> 8 = 2
  · simp only [if_neg h1, if_pos h2]
    exact .answer
  by_cases h3 : d.usbReq.wValue >>> 8 = 3
  · simp only [if_neg h1, if_neg h2, if_pos h3]
    split
    · exact .answer
    split
    · exact .answer
    split
    · exact .refuse
    split
    · exact .refuse
    · exact .answer
  · simp only [if_neg h1, if_neg h2, if_neg h3]
    exact .refuse

theorem usbdStandardRequestDevice_alike :
    Alike (usbdStandardRequestDevice d) (usbdStandardRequestDevice (d.stage s n o z)) s o z
      (d.usbReq.bRequest = 5 ∧ d.usbReq.bmRequestType = 0
        ∨ d.usbReq.bRequest = 9 ∧ d.usbReq.wValue = 1) := by
  have hdescriptor := usbStandardGetDescriptor_alike d s n o z
  unfold usbdStandardRequestDevice
  rw [Dev.stage_usbReq]
  split
  case h_1 h5 =>
    by_cases hbad : d.usbReq.bmRequestType ≠ 0 ∨ d.usbReq.wValue ≥ 128
    · simp only [if_pos hbad]
      exact .refuse
    · simp only [if_neg hbad]
      rw [not_or, not_not] at hbad
      exact .leave (Or.inl ⟨h5, hbad.1⟩)
  case h_2 h9 =>
    by_cases h1 : d.usbReq.wValue = 1
    · simp only [if_pos h1]
      exact .leave (Or.inr ⟨h9, h1⟩)
    · simp only [if_neg h1]
      exact .refuse
  case h_3 => exact .answer
  case h_4 => exact hdescriptor.imp False.elim
  case h_5 => exact .answer
  case h_6 => exact .refuse

theorem usbdStandardRequestInterface_alike :
    Alike (usbdStandardRequestInterface d) (usbdStandardRequestInterface (d.stage s n o z)) s o z
      False := by
  unfold usbdStandardRequestInterface
  rw [Dev.stage_usbReq]
  split
  · exact .answer
  · exact .answer
  · exact .answer
  · exact .refuse

theorem usbdStandardRequestEndpoint_alike :
    Alike (usbdStandardRequestEndpoint d) (usbdStandardRequestEndpoint (d.stage s n o z)) s o z
      ((d.usbReq.bRequest = 1 ∨ d.usbReq.bRequest = 3) ∧ d.usbReq.wValue = 0) := by
  unfold usbdStandardRequestEndpoint
  rw [Dev.stage_usbReq]
  split
  case h_1 h1 =>
    by_cases h0 : d.usbReq.wValue = 0
    · simp only [if_pos h0]
      exact .leave ⟨Or.inl h1, h0⟩
    · simp only [if_neg h0]
      exact .refuse
  case h_2 h3 =>
    by_cases h0 : d.usbReq.wValue = 0
    · simp only [if_pos h0]
      exact .leave ⟨Or.inr h3, h0⟩
    · simp only [if_neg h0]
      exact .refuse
  case h_3 => exact .answer
  case h_4 => exact .refuse

theorem dispatchOther_alike :
    Alike (dispatchOther d) (dispatchOther (d.stage s n o z)) s o z
      (d.usbReq.leavesDatasize = true) := by
  have hdevice := usbdStandardRequestDevice_alike d s n o z
  have hinterface := usbdStandardRequestInterface_alike d s n o z
  have hendpoint := usbdStandardRequestEndpoint_alike d s n o z
  unfold dispatchOther usbdStandardRequest
  rw [Dev.stage_usbReq]
  by_cases hvendor : d.usbReq.bmRequestType &&& 0x7F = 0x40 ∧ d.usbReq.bRequest = 0x41
  · simp only [if_pos hvendor]
    exact .answer
  by_cases htype : d.usbReq.bmRequestType &&& 0x60 ≠ 0
  · simp only [if_neg hvendor, if_pos htype]
    exact .refuse
  simp only [if_neg hvendor, if_neg htype]
  rw [not_not] at htype
  split
  case h_1 h0 =>
    apply hdevice.imp
    intro h
    simpa [UsbSetupData.leavesDatasize, htype, h0] using h
  case h_2 => exact hinterface.imp False.elim
  case h_3 h2 =>
    apply hendpoint.imp
    intro h
    simpa [UsbSetupData.leavesDatasize, htype, h2] using h
  case h_4 => exact .refuse

/-- **Dispatching** looks at none of the counters. -/
theorem usbControlRequestDispatch_alike :
    Alike (usbControlRequestDispatch d) (usbControlRequestDispatch (d.stage s n o z)) s o z
      (d.usbReq.leavesDatasize = true) := by
  have hrequest : Alike (dispatchRequest d) (dispatchRequest (d.stage s n o z)) s o z
      (d.usbReq.leavesDatasize = true) := by
    cases hclass : d.usbReq.isClassInterface with
    | true =>
      have hclass' : (d.stage s n o z).usbReq.isClassInterface = true := hclass
      rw [dispatchRequest_class hclass, dispatchRequest_class hclass', Dev.stage_usbReq]
      by_cases hnone : DfuReq.ofCode d.usbReq.bRequest = none
      · rw [if_pos hnone, if_pos hnone]
        exact .answer
      · rw [if_neg hnone, if_neg hnone]
        exact .answer
    | false =>
      have hclass' : (d.stage s n o z).usbReq.isClassInterface = false := hclass
      rw [dispatchRequest_other hclass, dispatchRequest_other hclass']
      exact dispatchOther_alike d s n o z
  obtain ⟨n', heq, hn⟩ := hrequest
  refine ⟨n', ?_, hn⟩
  unfold usbControlRequestDispatch
  rw [heq]
  rfl

/-! ### A SETUP packet -/

/-- The condition on one step: it takes up no read with data of a request that is handled
    without setting `datasize`. -/
def AnswersOwn (d : Dev) (e : BusEvent) : Prop :=
  ∀ req, d.Polls e .setup → d.nextSetup = some req →
    ¬ (req.isRead = true ∧ req.leavesDatasize = true ∧ req.wLength ≠ 0)

instance (d : Dev) (e : BusEvent) : Decidable (AnswersOwn d e) :=
  match h : d.nextSetup with
  | none => isTrue fun _ _ hreq => by simp [h] at hreq
  | some r => decidable_of_iff (d.Polls e .setup →
        ¬ (r.isRead = true ∧ r.leavesDatasize = true ∧ r.wLength ≠ 0))
      ⟨fun hr req hs hreq => by
          obtain rfl : r = req := Option.some.inj (h.symm.trans hreq)
          exact hr hs,
        fun hr hs => hr r hs h⟩

/-- The eight bytes of a SETUP packet make its request, whatever was there before. -/
theorem UsbSetupData.ofBytes_congr {b b' : Nat → UInt8} (h : ∀ j < 8, b j = b' j) :
    UsbSetupData.ofBytes b = UsbSetupData.ofBytes b' := by
  unfold UsbSetupData.ofBytes
  rw [h 0 (by decide), h 1 (by decide), h 2 (by decide), h 3 (by decide), h 4 (by decide),
    h 5 (by decide), h 6 (by decide), h 7 (by decide)]

/-- A packet that is read does the same to the peripheral, and has the same size, whatever
    the memory was that it is read to. -/
theorem usbdEpReadPacket_congr (p : Periph) (addr : UInt8) (buf buf' : Nat → UInt8)
    (len : UInt16) :
    (usbdEpReadPacket p addr buf len).1 = (usbdEpReadPacket p addr buf' len).1
      ∧ (usbdEpReadPacket p addr buf len).2.2 = (usbdEpReadPacket p addr buf' len).2.2
      ∧ ∀ j < (usbdEpReadPacket p addr buf len).2.2.toNat,
          (usbdEpReadPacket p addr buf len).2.1 j = (usbdEpReadPacket p addr buf' len).2.1 j := by
  unfold usbdEpReadPacket
  by_cases hvalid : p.read addr.toNat &&& usbEpRxStat = rxStatValid
  · simp only [if_pos hvalid, true_and]
    intro j hj
    exact absurd hj (Nat.not_lt_zero j)
  · simp only [if_neg hvalid, true_and]
    intro j hj
    rw [copyFromPm_eq, copyFromPm_eq]
    simp only [hj, if_true]

section

variable {d}

/-- The SETUP packet that is read is the same, whatever request there was before. -/
theorem nextSetup_congr {d' : Dev}
    (h : usbdEpNakSet d'.periph 0 true = usbdEpNakSet d.periph 0 true) :
    d'.nextSetup = d.nextSetup := by
  obtain ⟨-, hsize, hbytes⟩ := usbdEpReadPacket_congr (usbdEpNakSet d.periph 0 true) 0
    d'.usbReq.toBytes d.usbReq.toBytes 8
  show (if (usbdEpReadPacket (usbdEpNakSet d'.periph 0 true) 0 d'.usbReq.toBytes 8).2.2 = 8
      then some (UsbSetupData.ofBytes
        (usbdEpReadPacket (usbdEpNakSet d'.periph 0 true) 0 d'.usbReq.toBytes 8).2.1) else none)
    = if (usbdEpReadPacket (usbdEpNakSet d.periph 0 true) 0 d.usbReq.toBytes 8).2.2 = 8
      then some (UsbSetupData.ofBytes
        (usbdEpReadPacket (usbdEpNakSet d.periph 0 true) 0 d.usbReq.toBytes 8).2.1) else none
  rw [h]
  by_cases h8 : (usbdEpReadPacket (usbdEpNakSet d.periph 0 true) 0 d.usbReq.toBytes 8).2.2 = 8
  · have h8' := hsize.trans h8
    rw [if_pos h8, if_pos h8']
    refine congrArg some (UsbSetupData.ofBytes_congr fun j hj => hbytes j ?_)
    rw [h8']
    exact hj
  · rw [if_neg h8, if_neg fun h8' => h8 (hsize.symm.trans h8')]

/-- The chunk that is sent does not depend on the stage before. -/
theorem usbControlSendChunk_fsm (d : Dev) (s : UsbFsmState) :
    usbControlSendChunk { d with fsm := s } = usbControlSendChunk d := by
  unfold usbControlSendChunk
  show (if bMaxPacketSize0 < d.datasize then _ else _) = _
  split <;> rfl

/-- **A read** that sets `datasize`, or has no data, does not look at what was there. -/
theorem usbControlSetupRead_covers (s : UsbFsmState) (n o : UInt16) (z : Bool)
    (h : d.usbReq.leavesDatasize = true → d.usbReq.wLength = 0) :
    ∃ k, usbControlSetupRead (d.stage s n o z) = (usbControlSetupRead d).withBook k
      ∧ Covers (usbControlSetupRead d) k := by
  obtain ⟨n', heq, hn⟩ :
      Alike d.dispatchAtOnce (d.stage s n o z).dispatchAtOnce s 0 z
        (d.usbReq.leavesDatasize = true) :=
    usbControlRequestDispatch_alike { d with dataoff := 0 } s n 0 z
  have hcode' : (d.stage s n o z).dispatchAtOnce.1 = d.dispatchAtOnce.1 := by rw [heq]
  have hoff : d.dispatchAtOnce.2.dataoff = 0 :=
    (usbControlRequestDispatch_frame { d with dataoff := 0 }).2.1
  by_cases hcode : d.dispatchAtOnce.1 = .notsupp
  · -- refused: the endpoint is stalled, and nothing is looked at any more
    rw [usbControlSetupRead_refused hcode, usbControlSetupRead_refused (hcode'.trans hcode), heq]
    exact ⟨⟨n', 0, z, d.dispatchAtOnce.2.usbReq, d.dispatchAtOnce.2.usbCompleteCb⟩, rfl,
      covers_of_idle rfl _⟩
  have hne : (d.stage s n o z).dispatchAtOnce.1 ≠ .notsupp := fun h => hcode (hcode'.symm.trans h)
  by_cases h0 : d.usbReq.wLength = 0
  · rw [usbControlSetupRead_status hcode h0, usbControlSetupRead_status hne h0, heq]
    exact ⟨⟨0, 0, z, d.dispatchAtOnce.2.usbReq, d.dispatchAtOnce.2.usbCompleteCb⟩, rfl,
      covers_of_status (Or.inl rfl) rfl rfl⟩
  · -- the size of the reply is that of the request, and so is all that is sent
    have hsize : n' = d.dispatchAtOnce.2.datasize := hn hcode fun hl => h0 (h hl)
    have hreply : (d.dispatchAtOnce.2.stage s n' 0 z).replying
        = { d.dispatchAtOnce.2.replying with fsm := s } := by
      rw [hsize, ← hoff]
      rfl
    refine ⟨(usbControlSetupRead d).book, ?_, Covers.refl _⟩
    rw [usbControlSetupRead_data hcode h0, usbControlSetupRead_data hne h0, heq]
    show usbControlSendChunk (d.dispatchAtOnce.2.stage s n' 0 z).replying = _
    rw [hreply, usbControlSendChunk_fsm]
    rfl

/-- **A write** starts its own count. -/
theorem usbControlSetupWrite_covers (s : UsbFsmState) (n o : UInt16) (z : Bool) :
    ∃ k, usbControlSetupWrite (d.stage s n o z) = (usbControlSetupWrite d).withBook k
      ∧ Covers (usbControlSetupWrite d) k := by
  unfold usbControlSetupWrite
  rw [Dev.stage_usbReq]
  by_cases hlen : d.usbReq.wLength.toNat > dfuTransferSize
  · rw [if_pos hlen, if_pos hlen]
    exact ⟨⟨n, o, z, d.usbReq, d.usbCompleteCb⟩, rfl, covers_of_idle rfl _⟩
  · rw [if_neg hlen, if_neg hlen]
    refine ⟨⟨0, o, z, d.usbReq, d.usbCompleteCb⟩, rfl, covers_of_received ?_ rfl rfl rfl⟩
    show (if d.usbReq.wLength > bMaxPacketSize0 then UsbFsmState.dataOut else .lastDataOut) = _
      ∨ (if d.usbReq.wLength > bMaxPacketSize0 then UsbFsmState.dataOut else .lastDataOut) = _
    split
    · exact Or.inl rfl
    · exact Or.inr rfl

/-- The device in another stage, with other statics, and with NAK forced or not. -/
def Dev.leftBy (d : Dev) (s : UsbFsmState) (nak : Bool) (k : Bookkeeping) : Dev :=
  { d with fsm := s
           periph := { d.periph with
                       usbForceNak := Function.update d.periph.usbForceNak 0 nak } }.withBook k

/-- **A SETUP packet taken up** finds nothing of what was left behind. -/
theorem usbdControlSetup_covers (s : UsbFsmState) (nak : Bool) (k : Bookkeeping)
    (h : ∀ req, d.nextSetup = some req →
      ¬ (req.isRead = true ∧ req.leavesDatasize = true ∧ req.wLength ≠ 0)) :
    ∃ k', usbdControlSetup (d.leftBy s nak k) = (usbdControlSetup d).withBook k'
      ∧ Covers (usbdControlSetup d) k' := by
  -- NAK is forced first
  have hnak : usbdEpNakSet (d.leftBy s nak k).periph 0 true = usbdEpNakSet d.periph 0 true := by
    show usbSetEpRxStat { d.periph with
      usbForceNak := Function.update (Function.update d.periph.usbForceNak 0 nak) 0 true } 0
        rxStatNak = _
    rw [Function.update_idem]
    rfl
  have hnext : (d.leftBy s nak k).nextSetup = d.nextSetup := nextSetup_congr hnak
  obtain ⟨hperiph, -, -⟩ := usbdEpReadPacket_congr (usbdEpNakSet d.periph 0 true) 0
    (d.leftBy s nak k).usbReq.toBytes d.usbReq.toBytes 8
  cases hreq : d.nextSetup with
  | none =>
    rw [usbdControlSetup_short hreq, usbdControlSetup_short (hnext.trans hreq), hnak, hperiph]
    exact ⟨⟨k.datasize, k.dataoff, k.usbNeedsZlp, (d.leftBy s nak k).shortSetup, false⟩, rfl,
      covers_of_idle rfl _⟩
  | some req =>
    have hafter : (d.leftBy s nak k).afterSetup req
        = (d.afterSetup req).stage s k.datasize k.dataoff k.usbNeedsZlp := by
      unfold Dev.afterSetup
      rw [hnak, hperiph]
      rfl
    rw [usbdControlSetup_some hreq, usbdControlSetup_some (hnext.trans hreq), hafter]
    cases hread : req.isRead with
    | true =>
      simp only [if_true]
      refine usbControlSetupRead_covers s _ _ _ fun hleaves => ?_
      by_contra h0
      exact h req hreq ⟨hread, hleaves, h0⟩
    | false =>
      simp only [Bool.false_eq_true, if_false]
      exact usbControlSetupWrite_covers s _ _ _

/-! ### The packets behind it -/

/-- In the data stage of a write, `dataoff` and `usb_needs_zlp` are not looked at. -/
theorem Covers.eq_stage {k : Bookkeeping} (h : Covers d k)
    (hs : d.fsm = .dataOut ∨ d.fsm = .lastDataOut) :
    d.withBook k = d.stage d.fsm d.datasize k.dataoff k.usbNeedsZlp := by
  have hne : d.fsm ≠ .idle := by
    rcases hs with hs | hs <;> simp [hs]
  obtain ⟨hreq, hcb⟩ := h.request hne
  unfold Dev.withBook
  rw [hreq, hcb, h.received hs]
  rfl

/-- **An OUT packet.** -/
theorem usbdControlOut_covers {k : Bookkeeping} (h : Covers d k) :
    ∃ k', usbdControlOut (d.withBook k) = (usbdControlOut d).withBook k'
      ∧ Covers (usbdControlOut d) k' := by
  have hfsm : (d.withBook k).fsm = d.fsm := rfl
  by_cases hstage : d.fsm = .dataOut ∨ d.fsm = .lastDataOut
  · rw [h.eq_stage hstage]
    generalize k.dataoff = o
    generalize k.usbNeedsZlp = z
    have hstage' : (d.stage d.fsm d.datasize o z).fsm = .dataOut
        ∨ (d.stage d.fsm d.datasize o z).fsm = .lastDataOut := hstage
    cases hfits : d.chunkFits with
    | false =>
      have hfits' : (d.stage d.fsm d.datasize o z).chunkFits = false := hfits
      rw [usbdControlOut_short hstage hfits, usbdControlOut_short hstage' hfits']
      exact ⟨⟨d.datasize, o, z, d.usbReq, d.usbCompleteCb⟩, rfl, covers_of_idle rfl _⟩
    | true =>
      have hfits' : (d.stage d.fsm d.datasize o z).chunkFits = true := hfits
      rcases hstage with hdata | hlast
      · have hdata' : (d.stage d.fsm d.datasize o z).fsm = .dataOut := hdata
        rw [usbdControlOut_dataOut hdata hfits, usbdControlOut_dataOut hdata' hfits']
        refine ⟨⟨d.datasize + d.packetsize, o, z, d.usbReq, d.usbCompleteCb⟩, rfl,
          covers_of_received ?_ rfl rfl rfl⟩
        simp only
        split
        · exact Or.inr rfl
        · exact Or.inl rfl
      · have hlast' : (d.stage d.fsm d.datasize o z).fsm = .lastDataOut := hlast
        obtain ⟨n, heq, -⟩ : Alike (usbControlRequestDispatch d.stored)
            (usbControlRequestDispatch (d.stage d.fsm d.datasize o z).stored) d.fsm o z
            (d.usbReq.leavesDatasize = true) :=
          usbControlRequestDispatch_alike d.stored d.fsm (d.datasize + d.packetsize) o z
        rw [usbdControlOut_lastDataOut hlast hfits, usbdControlOut_lastDataOut hlast' hfits', heq]
        simp only
        generalize usbControlRequestDispatch d.stored = r
        by_cases hcode : r.1 ≠ .notsupp
        · rw [if_pos hcode, if_pos hcode]
          exact ⟨⟨n, o, z, r.2.usbReq, r.2.usbCompleteCb⟩, rfl,
            covers_of_status (Or.inl rfl) rfl rfl⟩
        · rw [if_neg hcode, if_neg hcode]
          exact ⟨⟨n, o, z, r.2.usbReq, r.2.usbCompleteCb⟩, rfl, covers_of_idle rfl _⟩
  rw [not_or] at hstage
  by_cases hstatus : d.fsm = .statusOut
  · have hne : d.fsm ≠ .idle := by simp [hstatus]
    obtain ⟨hreq, hcb⟩ := h.request hne
    unfold usbdControlOut
    rw [hfsm, hstatus]
    simp only
    refine ⟨⟨k.datasize, k.dataoff, k.usbNeedsZlp, k.usbReq, false⟩, ?_, covers_of_idle rfl _⟩
    unfold completeTransfer Dev.withBook
    simp only [hreq, hcb]
  · rw [usbdControlOut_unexpected hstage.1 hstage.2 hstatus,
      usbdControlOut_unexpected (hfsm ▸ hstage.1) (hfsm ▸ hstage.2) (hfsm ▸ hstatus)]
    exact ⟨k, rfl, covers_of_idle rfl _⟩

/-- **An acknowledged IN packet.** -/
theorem usbdControlIn_covers {k : Bookkeeping} (h : Covers d k) :
    ∃ k', usbdControlIn (d.withBook k) = (usbdControlIn d).withBook k'
      ∧ Covers (usbdControlIn d) k' := by
  have hfsm : (d.withBook k).fsm = d.fsm := rfl
  cases hs : d.fsm with
  | dataIn =>
    have hne : d.fsm ≠ .idle := by simp [hs]
    obtain ⟨hreq, hcb⟩ := h.request hne
    obtain ⟨hsize, hoff, hzlp⟩ := h.sent hs
    have hsame : d.withBook k = d := by
      unfold Dev.withBook
      rw [hreq, hcb, hsize, hoff, hzlp]
    rw [hsame]
    exact ⟨(usbdControlIn d).book, rfl, Covers.refl _⟩
  | lastDataIn =>
    have hne : d.fsm ≠ .idle := by simp [hs]
    obtain ⟨hreq, hcb⟩ := h.request hne
    unfold usbdControlIn
    rw [hfsm, hs]
    exact ⟨k, rfl, covers_of_status (Or.inr (Or.inl rfl)) hreq hcb⟩
  | statusIn =>
    have hne : d.fsm ≠ .idle := by simp [hs]
    obtain ⟨hreq, hcb⟩ := h.request hne
    unfold usbdControlIn
    rw [hfsm, hs]
    simp only
    refine ⟨k, ?_, covers_of_idle rfl _⟩
    unfold completeTransfer Dev.withBook
    simp only [hreq, hcb]
  | idle | stalled | dataOut | lastDataOut | statusOut =>
    unfold usbdControlIn
    rw [hfsm, hs]
    exact ⟨k, rfl, covers_of_idle rfl _⟩

/-! ### Steps -/

/-- The stage does not look at the peripheral. -/
theorem Covers.periph {k : Bookkeeping} (h : Covers d k) (p : Periph) :
    Covers { d with periph := p } k :=
  ⟨h.request, h.received, h.sent⟩

/-- **A poll that takes a SETUP packet up.** -/
theorem setup_covers (s : UsbFsmState) (nak : Bool) (k : Bookkeeping)
    (hs : d.Polls .poll .setup) (h : AnswersOwn d .poll) :
    ∃ k', (d.leftBy s nak k).step .poll = (d.step .poll).withBook k'
      ∧ Covers (d.step .poll) k' := by
  obtain ⟨hrun, -, hserved⟩ := hs
  have hrun' : (d.leftBy s nak k).dfu.reset = false := hrun
  have hserved' : (d.leftBy s nak k).periph.served = .setup := hserved
  have hne : (Served.setup = .reset) = False := by simp
  obtain ⟨k', heq, hcovers⟩ := usbdControlSetup_covers s nak k fun req => h req ⟨hrun, rfl, hserved⟩
  rw [step_doUsbPoll hrun, step_doUsbPoll hrun', doUsbPoll_served, doUsbPoll_served, hserved,
    hserved', if_neg hne.mp, if_neg hne.mp]
  refine ⟨k', ?_, hcovers.periph _⟩
  show endPoll (usbdControlSetup (d.leftBy s nak k)) _ = _
  rw [heq]
  rfl

/-- **Every step** that meets the condition. -/
theorem step_covers {k : Bookkeeping} {e : BusEvent} (h : Covers d k) (ha : AnswersOwn d e) :
    ∃ k', (d.withBook k).step e = (d.step e).withBook k' ∧ Covers (d.step e) k' := by
  by_cases hreset : d.dfu.reset = true
  · -- nothing happens any more
    have hreset' : (d.withBook k).dfu.reset = true := hreset
    refine ⟨k, ?_, ?_⟩ <;> simp [Dev.step, hreset, hreset', h]
  have hrun : d.dfu.reset = false := by simpa using hreset
  have hrun' : (d.withBook k).dfu.reset = false := hrun
  by_cases he : e = .poll
  · subst he
    by_cases hsetup : d.periph.served = .setup
    · -- it is the one before, with NAK as it is
      have hself : d.withBook k = d.leftBy d.fsm (d.periph.usbForceNak 0) k := by
        unfold Dev.leftBy
        rw [Function.update_eq_self]
      rw [hself]
      exact setup_covers _ _ k ⟨hrun, rfl, hsetup⟩ ha
    have hserve : ∃ k', (d.withBook k).serve d.periph.served
          = (d.serve d.periph.served).withBook k' ∧ Covers (d.serve d.periph.served) k' := by
      cases hserved : d.periph.served with
      | reset => exact ⟨k, rfl, h.periph _⟩
      | setup => exact absurd hserved hsetup
      | out => exact usbdControlOut_covers h
      | tx => exact usbdControlIn_covers (h.periph _)
      | nothing => exact ⟨k, rfl, h⟩
    obtain ⟨k', heq, hcovers⟩ := hserve
    have hserved' : (d.withBook k).periph.served = d.periph.served := rfl
    rw [step_doUsbPoll hrun, step_doUsbPoll hrun', doUsbPoll_served, doUsbPoll_served, hserved',
      heq]
    by_cases hbus : d.periph.served = .reset
    · rw [if_pos hbus, if_pos hbus]
      exact ⟨k, rfl, h.periph _⟩
    · rw [if_neg hbus, if_neg hbus]
      exact ⟨k', rfl, hcovers.periph _⟩
  · rw [step_bus hrun he, step_bus hrun' he]
    exact ⟨k, rfl, h.periph _⟩

end

end Stm32F1Dfu
