import Stm32F1Dfu.Flags
import Stm32F1Dfu.Host
import Stm32F1Dfu.Lib.Frames

namespace Stm32F1Dfu

open Machine Frames

/-!
# The packets of an IN data stage

A read is answered by the bytes that its handler left in `usbd_control_buffer`, cut to
`wLength`.  The host takes each packet and the device is polled once for each
(`rounds`).

* `stageFrames` — the packets meant: the bytes in frames of 64, with a short one at the end
  when the host asked for more than there is;
* `Sent` — the device has queued the packets up to one, `Sent.round` one round from there;
* `dataStage_framed` — the packets queued are those, one after the other.
-/

/-! ### The packets -/

/-- The bytes of the reply: the first of the control buffer, up to `datasize` and `wLength`. -/
def Dev.replyBytes (r : Dev) (req : UsbSetupData) : List UInt8 :=
  ctrlBytes r.ctrl 0 (min r.datasize.toNat req.wLength.toNat)

/-- The host asked for more than there is. -/
def Dev.replyShort (r : Dev) (req : UsbSetupData) : Bool :=
  decide (min r.datasize.toNat req.wLength.toNat < req.wLength.toNat)

/-- The packets of the stage. -/
def stageFrames (r : Dev) (req : UsbSetupData) : List (List UInt8) :=
  frames 64 (r.replyBytes req) (r.replyShort req)

/-- The host takes a packet and the device is polled, `k` times. -/
def rounds (k : Nat) : List BusEvent := (List.replicate k [BusEvent.ack, .poll]).flatten

theorem rounds_succ (k : Nat) : rounds (k + 1) = rounds k ++ [.ack, .poll] := by
  rw [rounds, List.replicate_succ', List.flatten_append]
  rfl

/-- A run of one round more. -/
theorem Dev.run_rounds_succ (d : Dev) (k : Nat) :
    d.run (.poll :: rounds (k + 1)) = ((d.run (.poll :: rounds k)).step .ack).step .poll := by
  rw [rounds_succ, ← List.cons_append, Dev.run_append]
  rfl

/-- A frame of the control buffer. -/
theorem frame_ctrlBytes (ctrl : Nat → UInt8) (m k : Nat) :
    frame 64 (ctrlBytes ctrl 0 m) k = ctrlBytes ctrl (64 * k) (min 64 (m - 64 * k)) := by
  apply List.ext_getElem
  · simp [length_frame, ctrlBytes]
  · intro i hi hi'
    simp [frame, ctrlBytes]

/-! ### Endpoint 0 between two packets -/

/-- Packets are handled, and neither a reception nor a bus reset waits to be served. -/
structure Clear (p : Periph) : Prop where
  enabled : p.enabled = true
  rxCtr : (epView (p.reg 0)).rxCtr = false
  noReset : p.reg regIstr &&& usbIstrReset = 0#16

theorem Clear.calmer {p p' : Periph} (h : Clear p) (hcalm : Calmer p p') : Clear p' :=
  ⟨hcalm.enabled h.enabled, hcalm.rxCtr h.rxCtr, hcalm.istr _ h.noReset⟩

/-- The routines make accesses only. -/
theorem writePacket_calmer (p : Periph) (buf : Nat → UInt8) (len : UInt16) :
    Calmer p (usbdEpWritePacket p 0 buf len).1 := by
  rw [writePacket_accesses]
  exact runAccesses_calmer _ _

theorem nakSet_calmer (p : Periph) (nak : Bool) : Calmer p (usbdEpNakSet p 0 nak) := by
  rw [nakSet_accesses]
  exact runAccesses_calmer _ _

/-- **A packet that is accepted** makes endpoint 0 send. -/
theorem writePacket_txStat {p : Periph} (hs : (epView (p.reg 0)).txStat ≠ txStatValid)
    (buf : Nat → UInt8) (len : UInt16) :
    (epView ((usbdEpWritePacket p 0 buf len).1.reg 0)).txStat = txStatValid := by
  have hstat : ¬ p.read (0 : UInt8).toNat &&& usbEpTxStat = txStatValid := hs
  have hreg : (usbdEpWritePacket p 0 buf len).1.reg 0
      = epWrite (p.reg 0) (setEpTxStat (p.reg 0) txStatValid) := by
    unfold usbdEpWritePacket
    rw [show (0 : UInt8) &&& 0x7F = 0 from rfl, if_neg hstat]
    exact Periph.write_reg_ep0 _ _
  rw [hreg, epView_setEpTxStat (by decide)]

/-- The packet in the transmit buffer after the flags are cleared. -/
theorem handleFlags_txPacket (p : Periph) (istr : BitVec 16) :
    (handleFlags p istr).txPacket = p.txPacket := by
  have htable : (handleFlags p istr).read regBtable = p.read regBtable :=
    handleFlags_reg (by decide) (by decide)
  simp only [Periph.txPacket, usbGetEpTxCount, usbGetEpTxAddr, Periph.btableSlot, htable,
    handleFlags_pm]

/-- **One packet**, from the routine that writes it to the end of the poll. -/
theorem Clear.sent {p : Periph} (h : Clear p) (hs : (epView (p.reg 0)).txStat ≠ txStatValid)
    (buf : Nat → UInt8) {len : UInt16} (hlen : len.toNat ≤ 64) (istr : BitVec 16) :
    Clear (handleFlags (usbdEpWritePacket p 0 buf len).1 istr)
      ∧ (epView ((handleFlags (usbdEpWritePacket p 0 buf len).1 istr).reg 0)).txStat = txStatValid
      ∧ (Buffers p → Buffers (handleFlags (usbdEpWritePacket p 0 buf len).1 istr)
        ∧ (handleFlags (usbdEpWritePacket p 0 buf len).1 istr).txPacket
            = (List.range len.toNat).map buf) := by
  refine ⟨h.calmer ((writePacket_calmer p buf len).trans (handleFlags_calmer _ _)), ?_, ?_⟩
  · rw [handleFlags_reg (by decide) (by decide)]
    exact writePacket_txStat hs buf len
  · intro hbuffers
    have hwritten := hbuffers.confined (writePacketAccesses_confined hbuffers buf hlen)
    rw [← writePacket_accesses] at hwritten
    refine ⟨hwritten.flags istr, ?_⟩
    rw [handleFlags_txPacket]
    exact usbdEpWritePacket_txPacket hbuffers.btable hbuffers.txAddr hs buf hlen

/-! ### The loop -/

/-- What `usb_control_send_chunk` finds before packet `k` of `m` bytes for a host that asked
    for `w`. -/
structure Left (m w k : Nat) (d : Dev) : Prop where
  size : d.datasize.toNat = m - 64 * k
  off : 64 * k < m → d.dataoff.toNat = 64 * k
  zlp : d.usbNeedsZlp = decide (64 * k < m ∧ m < w ∧ m % 64 = 0)

/-- What a data stage leaves alone. -/
structure SameReply (r d : Dev) : Prop where
  ctrl : d.ctrl = r.ctrl
  dfu : d.dfu = r.dfu
  cb : d.usbCompleteCb = r.usbCompleteCb
  buffers : Buffers r.periph → Buffers d.periph

/-- The reply `r` to `req` is about to be sent from packet `k` on, after the packets `old` of
    other transfers. -/
structure AboutTo (r : Dev) (req : UsbSetupData) (old : List (List UInt8)) (k : Nat) (d : Dev) :
    Prop where
  left : Left (min r.datasize.toNat req.wLength.toNat) req.wLength.toNat k d
  same : SameReply r d
  queued : chunks d.log = ((stageFrames r req).take k).reverse ++ old
  clear : Clear d.periph
  holds : (epView (d.periph.reg 0)).txStat ≠ txStatValid

/-- Packet `k` of it is queued. -/
structure Sent (r : Dev) (req : UsbSetupData) (old : List (List UInt8)) (k : Nat) (d : Dev) :
    Prop where
  left : Left (min r.datasize.toNat req.wLength.toNat) req.wLength.toNat (k + 1) d
  same : SameReply r d
  queued : chunks d.log = ((stageFrames r req).take (k + 1)).reverse ++ old
  clear : Clear d.periph
  fsm : d.fsm = if k + 1 = (stageFrames r req).length then .lastDataIn else .dataIn
  sends : (epView (d.periph.reg 0)).txStat = txStatValid
  packet : Buffers r.periph → some d.periph.txPacket = (stageFrames r req)[k]?

variable {r d : Dev} {req : UsbSetupData} {old : List (List UInt8)} {k : Nat}

theorem length_stageFrames (r : Dev) (req : UsbSetupData) :
    (stageFrames r req).length = frameCount 64 (min r.datasize.toNat req.wLength.toNat)
      (r.replyShort req) := by
  rw [stageFrames, length_frames, Dev.replyBytes, ctrlBytes_length]

theorem getElem?_stageFrames (hk : k < (stageFrames r req).length) :
    (stageFrames r req)[k]? = some (ctrlBytes r.ctrl (64 * k)
      (min 64 (min r.datasize.toNat req.wLength.toNat - 64 * k))) := by
  rw [List.getElem?_eq_getElem hk, ← frame_ctrlBytes]
  exact congrArg some (getElem_frames hk)

/-- How many packets the stage has, by the bytes it sends. -/
theorem stageFrames_count (r : Dev) (req : UsbSetupData) :
    (stageFrames r req).length
      = if min r.datasize.toNat req.wLength.toNat < req.wLength.toNat
        then min r.datasize.toNat req.wLength.toNat / 64 + 1
        else (min r.datasize.toNat req.wLength.toNat + 63) / 64 := by
  rw [length_stageFrames, frameCount, Dev.replyShort]
  by_cases h : min r.datasize.toNat req.wLength.toNat < req.wLength.toNat
  · rw [if_pos (decide_eq_true h), if_pos h]
  · rw [if_neg (by simpa using h), if_neg h]
    rfl

/-- The packets up to the next one. -/
theorem take_stageFrames (hk : k < (stageFrames r req).length) (data : List UInt8)
    (hdata : data = ctrlBytes r.ctrl (64 * k)
      (min 64 (min r.datasize.toNat req.wLength.toNat - 64 * k))) :
    ((stageFrames r req).take (k + 1)).reverse
      = data :: ((stageFrames r req).take k).reverse := by
  rw [List.take_add_one, getElem?_stageFrames hk, hdata, List.reverse_append]
  rfl

/-- **`usb_control_send_chunk` sends the next frame.** -/
theorem AboutTo.send (h : AboutTo r req old k d) (hk : k < (stageFrames r req).length)
    (hsize : min r.datasize.toNat req.wLength.toNat ≤ 1024) (istr : BitVec 16) :
    Sent r req old k (endPoll (usbControlSendChunk d) istr) := by
  obtain ⟨hleft, hsame, hqueued, hclear, hholds⟩ := h
  have hcount := stageFrames_count r req
  have hnext := getElem?_stageFrames hk
  have htake := take_stageFrames hk
  obtain ⟨m, hm⟩ : ∃ m, m = min r.datasize.toNat req.wLength.toNat := ⟨_, rfl⟩
  have hle : m ≤ req.wLength.toNat := hm ▸ Nat.min_le_right _ _
  rw [← hm] at hleft hcount hnext hsize
  simp only [← hm] at htake
  have hmax : bMaxPacketSize0.toNat = 64 := rfl
  by_cases hmore : bMaxPacketSize0 < d.datasize
  · -- a full packet, and more to come
    have hmore' : 64 < d.datasize.toNat := UInt16.lt_iff_toNat_lt.mp hmore
    rw [hleft.size] at hmore'
    have hoff := hleft.off (by omega)
    have hdata : ctrlBytes d.ctrl d.dataoff.toNat bMaxPacketSize0.toNat
        = ctrlBytes r.ctrl (64 * k) (min 64 (m - 64 * k)) := by
      rw [hsame.ctrl, hoff, hmax, Nat.min_eq_left (by omega)]
    have hsent := hclear.sent hholds (fun i => d.ctrl (d.dataoff.toNat + i))
      (show bMaxPacketSize0.toNat ≤ 64 by decide) istr
    have hchunk : usbControlSendChunk d
        = { writeChunk d bMaxPacketSize0 with
            fsm := .dataIn, dataoff := d.dataoff + bMaxPacketSize0
            datasize := d.datasize - bMaxPacketSize0 } := if_pos hmore
    rw [hchunk]
    refine ⟨⟨?_, ?_, ?_⟩, ⟨hsame.ctrl, hsame.dfu, hsame.cb, ?_⟩, ?_, hsent.1, ?_,
      hsent.2.1, ?_⟩
    · show (d.datasize - bMaxPacketSize0).toNat = _
      rw [UInt16.toNat_sub_of_le _ _ (UInt16.le_of_lt hmore), hleft.size, hmax]
      omega
    · intro _
      show (d.dataoff + bMaxPacketSize0).toNat = _
      rw [UInt16.toNat_add, hoff, hmax]
      omega
    · show d.usbNeedsZlp = _
      rw [hleft.zlp]
      exact decide_eq_decide.mpr (by omega)
    · exact fun hb => (hsent.2.2 (hsame.buffers hb)).1
    · show ctrlBytes d.ctrl d.dataoff.toNat bMaxPacketSize0.toNat :: chunks d.log = _
      rw [htake _ hdata, hqueued]
      rfl
    · show UsbFsmState.dataIn = _
      rw [if_neg]
      rw [hcount]
      split <;> omega
    · intro hb
      rw [hnext, ← hdata]
      exact congrArg some (hsent.2.2 (hsame.buffers hb)).2
  · -- what is left, or the empty packet
    have hlast : d.datasize.toNat ≤ 64 := by
      rw [UInt16.lt_iff_toNat_lt, Nat.not_lt] at hmore
      exact hmore
    have hdata : ctrlBytes d.ctrl d.dataoff.toNat d.datasize.toNat
        = ctrlBytes r.ctrl (64 * k) (min 64 (m - 64 * k)) := by
      by_cases hzero : 64 * k < m
      · rw [hsame.ctrl, hleft.off hzero, hleft.size, Nat.min_eq_right]
        rwa [← hleft.size]
      · have hnone : d.datasize.toNat = 0 := by
          rw [hleft.size]
          omega
        rw [hnone, Nat.min_eq_right (by omega), show m - 64 * k = 0 by omega]
        rfl
    rw [hleft.size] at hlast
    have hsent := hclear.sent hholds (fun i => d.ctrl (d.dataoff.toNat + i))
      (show d.datasize.toNat ≤ 64 by rwa [hleft.size]) istr
    have hchunk : usbControlSendChunk d
        = { writeChunk d d.datasize with
            fsm := if d.usbNeedsZlp then .dataIn else .lastDataIn
            usbNeedsZlp := false, datasize := 0 } := if_neg hmore
    rw [hchunk]
    refine ⟨⟨?_, ?_, ?_⟩, ⟨hsame.ctrl, hsame.dfu, hsame.cb, ?_⟩, ?_, hsent.1, ?_,
      hsent.2.1, ?_⟩
    · show (0 : UInt16).toNat = _
      rw [Nat.sub_eq_zero_of_le (by omega)]
      rfl
    · exact fun hlt => absurd hlt (by omega)
    · show false = _
      rw [decide_eq_false (by omega)]
    · exact fun hb => (hsent.2.2 (hsame.buffers hb)).1
    · show ctrlBytes d.ctrl d.dataoff.toNat d.datasize.toNat :: chunks d.log = _
      rw [htake _ hdata, hqueued]
      rfl
    · -- an empty packet follows on full ones when the host waits for more
      show (if d.usbNeedsZlp then UsbFsmState.dataIn else .lastDataIn) = _
      rw [hleft.zlp]
      by_cases hzlp : 64 * k < m ∧ m < req.wLength.toNat ∧ m % 64 = 0
      · rw [if_pos (decide_eq_true hzlp), if_neg]
        rw [hcount, if_pos hzlp.2.1]
        omega
      · rw [if_neg (by simpa using hzlp), if_pos]
        rw [hcount] at hk ⊢
        split at hk
        · rename_i hshort
          rw [if_pos hshort]
          omega
        · rename_i hfull
          rw [if_neg hfull]
          omega
    · intro hb
      rw [hnext, ← hdata]
      exact congrArg some (hsent.2.2 (hsame.buffers hb)).2

/-- Every packet of the reply `r` to `req` is queued and taken. -/
structure Ended (r : Dev) (req : UsbSetupData) (old : List (List UInt8)) (d : Dev) : Prop where
  same : SameReply r d
  queued : chunks d.log = (stageFrames r req).reverse ++ old
  clear : Clear d.periph
  fsm : d.fsm = .statusOut
  rests : (epView (d.periph.reg 0)).txStat ≠ txStatValid

/-- **The host takes the packet, and the device is polled**: the handler of an acknowledged
    packet, with its flag cleared. -/
theorem Clear.taken (h : Clear d.periph) (hs : (epView (d.periph.reg 0)).txStat = txStatValid)
    (horderly : Orderly d.periph) (hrun : d.dfu.reset = false) :
    ∃ q istr, (d.step .ack).step .poll = endPoll (usbdControlIn { d with periph := q }) istr
      ∧ Clear q ∧ (epView (q.reg 0)).txStat = txStatNak ∧ (Buffers d.periph → Buffers q) := by
  have hbus : d.periph.bus .ack
      = { d.periph with reg := Function.update d.periph.reg 0 (epInCompleted (d.periph.reg 0)) } :=
    if_pos ⟨h.enabled, hs⟩
  have hview : epView ((d.periph.bus .ack).reg 0)
      = { epView (d.periph.reg 0) with txCtr := true, txStat := txStatNak } := by
    rw [hbus]
    show epView (Function.update d.periph.reg 0 (epInCompleted (d.periph.reg 0)) 0) = _
    rw [Function.update_self, epView_epInCompleted]
  have hack := horderly.bus .ack
  have hnoReset : (d.periph.bus .ack).reg regIstr &&& usbIstrReset = 0#16 := by
    rw [Periph.bus_reset (by decide), h.noReset]
  -- the acknowledged packet is what the poll finds
  have hserved : (d.periph.bus .ack).served = .tx := by
    rw [hack.served hnoReset, hview, h.rxCtr]
    rfl
  have henabled : (d.periph.bus .ack).enabled = true := by
    rw [hbus]
    exact h.enabled
  have hclr : epView ((usbClrEpTxCtr (d.periph.bus .ack) 0).reg 0)
      = { epView ((d.periph.bus .ack).reg 0) with txCtr := false } := by
    show epView (((d.periph.bus .ack).write 0 (clrEpTxCtr ((d.periph.bus .ack).reg 0))).reg 0) = _
    rw [Periph.write_reg_ep0, epView_clrEpTxCtr]
  have hcalm : Calmer (d.periph.bus .ack) (usbClrEpTxCtr (d.periph.bus .ack) 0) :=
    Periph.write_calmer fun hi => absurd hi (by decide)
  refine ⟨usbClrEpTxCtr (d.periph.bus .ack) 0, (d.periph.bus .ack).read regIstr, ?_, ?_, ?_, ?_⟩
  · rw [step_bus hrun (by decide)]
    show Dev.step { d with periph := d.periph.bus .ack } .poll = _
    rw [step_doUsbPoll (by exact hrun), doUsbPoll_served]
    simp only [hserved]
    rw [if_neg (by decide), Dev.serve, Periph.servedEp_eq _ hack.istr]
  · refine ⟨hcalm.enabled henabled, hcalm.rxCtr ?_, hcalm.istr _ hnoReset⟩
    rw [hview]
    exact h.rxCtr
  · rw [hclr, hview]
  · intro hbuffers
    exact (hbuffers.bus .ack).write _ (by decide)

/-- **One round.**  The next packet is queued, and after the last one the device waits for the
    status stage. -/
theorem Sent.round (h : Sent r req old k d) (horderly : Orderly d.periph)
    (hrun : d.dfu.reset = false) (hsize : min r.datasize.toNat req.wLength.toNat ≤ 1024) :
    (k + 1 < (stageFrames r req).length → Sent r req old (k + 1) ((d.step .ack).step .poll))
      ∧ (k + 1 = (stageFrames r req).length → Ended r req old ((d.step .ack).step .poll)) := by
  obtain ⟨q, istr, hstep, hclear, htx, hbuffers⟩ := h.clear.taken h.sends horderly hrun
  have hsame : SameReply r { d with periph := q } :=
    ⟨h.same.ctrl, h.same.dfu, h.same.cb, fun hb => hbuffers (h.same.buffers hb)⟩
  have hholds : (epView (q.reg 0)).txStat ≠ txStatValid := by
    rw [htx]
    exact txStatNak_ne_valid
  rw [hstep]
  constructor
  · -- the next packet is on its way to be sent
    intro hk
    have hfsm : d.fsm = .dataIn := by
      rw [h.fsm, if_neg (by omega)]
    have hin : usbdControlIn { d with periph := q }
        = usbControlSendChunk { d with periph := q } := by
      unfold usbdControlIn
      simp only [hfsm]
    rw [hin]
    have hnext : AboutTo r req old (k + 1) { d with periph := q } :=
      ⟨⟨h.left.size, h.left.off, h.left.zlp⟩, hsame, h.queued, hclear, hholds⟩
    exact hnext.send hk hsize istr
  · -- that was the last one, and the OUT packet of the status stage is let in
    intro hk
    have hfsm : d.fsm = .lastDataIn := by
      rw [h.fsm, if_pos hk]
    have hin : usbdControlIn { d with periph := q }
        = { d with periph := usbdEpNakSet q 0 false, fsm := .statusOut } := by
      unfold usbdControlIn
      simp only [hfsm]
    have hstat : epView ((usbdEpNakSet q 0 false).reg 0)
        = { epView (q.reg 0) with rxStat := rxStatValid } := by
      show epView ((Periph.write { q with usbForceNak := Function.update q.usbForceNak 0 false } 0
        (setEpRxStat (q.reg 0) rxStatValid)).reg 0) = _
      rw [Periph.write_reg_ep0, epView_setEpRxStat (by decide)]
    rw [hin]
    refine ⟨⟨hsame.ctrl, hsame.dfu, hsame.cb, fun hb => ?_⟩, ?_, ?_, rfl, ?_⟩
    · have hreceive := (hsame.buffers hb).confined
        (confinedFrom_of_atEndpoint (nakSetAccesses_atEndpoint false) q)
      rw [← nakSet_accesses] at hreceive
      exact hreceive.flags istr
    · show chunks d.log = _
      rw [h.queued, List.take_of_length_le (by omega)]
    · exact hclear.calmer ((nakSet_calmer q false).trans (handleFlags_calmer _ _))
    · show (epView ((handleFlags (usbdEpNakSet q 0 false) istr).reg 0)).txStat ≠ _
      rw [handleFlags_reg (by decide) (by decide), hstat]
      exact hholds

/-! ### The stage -/

/-- `_needs_zlp`, as numbers. -/
theorem needsZlp_eq (len wLength : UInt16) :
    needsZlp len wLength bMaxPacketSize0
      = decide (0 < len.toNat ∧ len.toNat < wLength.toNat ∧ len.toNat % 64 = 0) := by
  have hmod : len % bMaxPacketSize0 = 0 ↔ len.toNat % 64 = 0 := by
    rw [← UInt16.toNat_inj, UInt16.toNat_mod]
    exact Iff.rfl
  have hpos : len ≠ 0 ↔ 0 < len.toNat := by
    rw [Nat.pos_iff_ne_zero]
    exact not_congr UInt16.toNat_inj.symm
  unfold needsZlp
  rw [Bool.eq_iff_iff]
  simp only [Bool.and_eq_true, decide_eq_true_eq, hmod, UInt16.lt_iff_toNat_lt]
  rw [hpos]
  exact and_left_comm

theorem usbControlRequestDispatch_reset (d : Dev) :
    (usbControlRequestDispatch d).2.dfu.reset = d.dfu.reset := by
  show (dispatchRequest d).2.dfu.reset = _
  rw [dispatchRequest_dfu]
  split
  · rw [usbdfuControlRequest_reset]
  · rfl

/-- **A read that is handled** is answered from its first packet on: the endpoint is free. -/
theorem setup_aboutTo (horderly : Orderly d.periph) (hs : d.Polls .poll .setup)
    (hnext : d.nextSetup = some req) (hread : req.isRead = true) (hlen : req.wLength ≠ 0)
    (hcode : (d.dispatchRead req).1 ≠ .notsupp) :
    ∃ d' istr, d.step .poll = endPoll (usbControlSendChunk d') istr
      ∧ AboutTo (d.dispatchRead req).2 req (chunks d.log) 0 d' := by
  obtain ⟨hrun, -, hserved⟩ := hs
  obtain ⟨hrx, hsetup⟩ := horderly.of_setup hserved
  obtain ⟨henabled, hnak⟩ := horderly.setup hrx hsetup
  obtain ⟨hlog, hoff, -, hreq⟩ :=
    usbControlRequestDispatch_frame { d.afterSetup req with dataoff := 0 }
  have hview := readSetup_view d
  -- the dispatch writes registers, but makes endpoint 0 send nothing
  have hcalm : Calmer (d.afterSetup req).periph (d.dispatchRead req).2.periph := by
    show Calmer _ (usbControlRequestDispatch { d.afterSetup req with dataoff := 0 }).2.periph
    rw [dispatch_accesses]
    exact runAccesses_calmer _ _
  have hread' : Calmer d.periph (d.afterSetup req).periph := by
    show Calmer d.periph
      (usbdEpReadPacket (usbdEpNakSet d.periph 0 true) 0 d.usbReq.toBytes 8).1
    rw [readSetup_accesses]
    exact runAccesses_calmer _ _
  have hclear : Clear (d.dispatchRead req).2.periph := by
    have htaken : Clear (d.afterSetup req).periph := by
      refine ⟨hread'.enabled henabled, ?_, hread'.istr _ ?_⟩
      · show (epView ((usbdEpReadPacket (usbdEpNakSet d.periph 0 true) 0 _ 8).1.reg 0)).rxCtr = _
        rw [hview]
      · exact Periph.served_noReset (by rw [hserved]; decide)
    exact htaken.calmer hcalm
  -- a SETUP packet finds nothing being sent, and its dispatch lets nothing go
  have hholds : (epView ((d.dispatchRead req).2.periph.reg 0)).txStat ≠ txStatValid := by
    apply dispatch_txStat
    show (epView ((usbdEpReadPacket (usbdEpNakSet d.periph 0 true) 0 _ 8).1.reg 0)).txStat ≠ _
    rw [hview]
    show (epView (d.periph.reg 0)).txStat ≠ _
    rw [hnak]
    exact txStatNak_ne_valid
  refine ⟨(d.dispatchRead req).2.replying, d.periph.read regIstr, ?_, ?_⟩
  · rw [step_doUsbPoll hrun, doUsbPoll_served, hserved, if_neg (by decide)]
    show endPoll (usbdControlSetup d) _ = _
    rw [usbdControlSetup_some hnext, if_pos hread,
      usbControlSetupRead_data (d := d.afterSetup req) hcode hlen]
    rfl
  · have hreq' : (d.dispatchRead req).2.usbReq = req := hreq
    -- the reply is cut to what the host asked for
    have hsize : (d.dispatchRead req).2.replying.datasize.toNat
        = min (d.dispatchRead req).2.datasize.toNat req.wLength.toNat := by
      unfold Dev.replying
      simp only [hreq']
      split
      · rename_i hgt
        rw [Nat.min_eq_right (Nat.le_of_lt (UInt16.lt_iff_toNat_lt.mp hgt))]
      · rename_i hle
        rw [gt_iff_lt, UInt16.lt_iff_toNat_lt, Nat.not_lt] at hle
        rw [Nat.min_eq_left hle]
    refine ⟨⟨by rw [hsize]; rfl, fun _ => ?_, ?_⟩, ⟨rfl, rfl, rfl, id⟩, ?_, hclear, hholds⟩
    · show (d.dispatchRead req).2.dataoff.toNat = _
      rw [show (d.dispatchRead req).2.dataoff = 0 from hoff]
      rfl
    · show needsZlp (d.dispatchRead req).2.replying.datasize (d.dispatchRead req).2.usbReq.wLength
        bMaxPacketSize0 = _
      rw [needsZlp_eq, hsize, hreq']
    · show chunks (d.dispatchRead req).2.log = _
      rw [show (d.dispatchRead req).2.log = _ from hlog]
      rfl

/-- **The stage, packet by packet.** -/
theorem run_sent (hd : Reachable d) (hs : d.Polls .poll .setup) (hnext : d.nextSetup = some req)
    (hread : req.isRead = true) (hlen : req.wLength ≠ 0)
    (hcode : (d.dispatchRead req).1 ≠ .notsupp)
    (hsize : (d.dispatchRead req).2.datasize.toNat ≤ 1024) :
    (∀ k < (stageFrames (d.dispatchRead req).2 req).length,
        Sent (d.dispatchRead req).2 req (chunks d.log) k (d.run (.poll :: rounds k)))
      ∧ Ended (d.dispatchRead req).2 req (chunks d.log)
          (d.run (.poll :: rounds (stageFrames (d.dispatchRead req).2 req).length)) := by
  have hmin : min (d.dispatchRead req).2.datasize.toNat req.wLength.toNat ≤ 1024 := by omega
  have hcount : 0 < (stageFrames (d.dispatchRead req).2 req).length := by
    have hpos := uint16_pos hlen
    rw [stageFrames_count]
    split <;> omega
  have horderly (evs : List BusEvent) : Orderly (d.run evs).periph := by
    obtain ⟨b, before, rfl⟩ := hd
    rw [← Dev.run_append]
    exact reachable_orderly ⟨b, _, rfl⟩
  have hrun {k : Nat} {d' : Dev}
      (h : Sent (d.dispatchRead req).2 req (chunks d.log) k d') : d'.dfu.reset = false := by
    rw [h.same.dfu]
    exact (usbControlRequestDispatch_reset _).trans hs.1
  -- one packet after the other
  have hsent : ∀ k < (stageFrames (d.dispatchRead req).2 req).length,
      Sent (d.dispatchRead req).2 req (chunks d.log) k (d.run (.poll :: rounds k)) := by
    intro k hk
    induction k with
    | zero =>
      obtain ⟨d', istr, hstep, habout⟩ :=
        setup_aboutTo (d := d) (horderly []) hs hnext hread hlen hcode
      have hfirst : d.run (.poll :: rounds 0) = d.step .poll := rfl
      rw [hfirst, hstep]
      exact habout.send hk hmin istr
    | succ k ih =>
      have hprev := ih (by omega)
      rw [Dev.run_rounds_succ]
      exact (hprev.round (horderly _) (hrun hprev) hmin).1 hk
  refine ⟨hsent, ?_⟩
  -- there is a last packet, and the round that takes it ends the stage
  obtain ⟨k, hk⟩ := Nat.exists_eq_add_one.mpr hcount
  have hlast := hsent k (by omega)
  rw [hk, Dev.run_rounds_succ]
  exact (hlast.round (horderly _) (hrun hlast) hmin).2 hk.symm

/-- From a poll on that takes a read up, with the reply `r`, a host that takes each packet gets
    the packets `ps`: one is queued in each round, the last one in `LAST_DATA_IN`, and when it
    is taken the device waits for the status stage. -/
structure Dev.Queues (d r : Dev) (ps : List (List UInt8)) : Prop where
  queued : ∀ k < ps.length,
    chunks (d.run (.poll :: rounds k)).log = (ps.take (k + 1)).reverse ++ chunks d.log
  sends : ∀ k < ps.length,
    (epView ((d.run (.poll :: rounds k)).periph.reg 0)).txStat = txStatValid
  /-- with the buffers of endpoint 0 where they were set up, that is the packet on the bus -/
  packet : Buffers r.periph → ∀ k (hk : k < ps.length),
    (d.run (.poll :: rounds k)).periph.txPacket = ps[k]
  fsm : ∀ k < ps.length,
    (d.run (.poll :: rounds k)).fsm = if k + 1 = ps.length then .lastDataIn else .dataIn
  ended : (d.run (.poll :: rounds ps.length)).fsm = .statusOut
    ∧ chunks (d.run (.poll :: rounds ps.length)).log = ps.reverse ++ chunks d.log
    ∧ (epView ((d.run (.poll :: rounds ps.length)).periph.reg 0)).txStat ≠ txStatValid

/-- The packets of the stage are queued. -/
theorem stageFrames_queues (hd : Reachable d) (hs : d.Polls .poll .setup)
    (hnext : d.nextSetup = some req) (hread : req.isRead = true) (hlen : req.wLength ≠ 0)
    (hcode : (d.dispatchRead req).1 ≠ .notsupp)
    (hsize : (d.dispatchRead req).2.datasize.toNat ≤ 1024) :
    d.Queues (d.dispatchRead req).2 (stageFrames (d.dispatchRead req).2 req) := by
  obtain ⟨hsent, hended⟩ := run_sent hd hs hnext hread hlen hcode hsize
  refine ⟨fun k hk => (hsent k hk).queued, fun k hk => (hsent k hk).sends, ?_,
    fun k hk => (hsent k hk).fsm, hended.fsm, hended.queued, hended.rests⟩
  intro hbuffers k hk
  have hpacket := (hsent k hk).packet hbuffers
  rw [List.getElem?_eq_getElem hk] at hpacket
  exact Option.some.inj hpacket

/-- **IN data stage framing.**  A device-to-host request that is handled with `datasize` at most
    1024 is answered by the first `m` bytes of the control buffer, `m` the lesser of `datasize`
    and `wLength`: in full packets and one last packet, which is short when `m` is less than
    `wLength` and has something in it when it is not.  The packets are queued one by one as the
    host takes them. -/
theorem inDataStage_framed {d : Dev} (hd : Reachable d) {req : UsbSetupData}
    (hs : d.Polls .poll .setup) (hnext : d.nextSetup = some req)
    (hdir : req.bmRequestType &&& 0x80 ≠ 0) (hlen : req.wLength ≠ 0)
    (hcode : (d.dispatchRead req).1 ≠ .notsupp)
    (hsize : (d.dispatchRead req).2.datasize.toNat ≤ 1024) :
    let r := (d.dispatchRead req).2
    let m := min r.datasize.toNat req.wLength.toNat
    ∃ ps, Framed 64 (ctrlBytes r.ctrl 0 m) (decide (m < req.wLength.toNat)) ps
      ∧ d.Queues r ps := by
  intro r m
  have hread : req.isRead = true := by
    simp [UsbSetupData.isRead, hdir]
  refine ⟨stageFrames r req, frames_framed (by decide) ?_,
    stageFrames_queues hd hs hnext hread hlen hcode hsize⟩
  -- a reply that is as long as the host asked for is not empty
  intro hfull
  have hm : ¬ m < req.wLength.toNat := by simpa using hfull
  have hpos := uint16_pos hlen
  rw [← List.length_pos_iff, ctrlBytes_length]
  omega

/-- A bus reset and its SETUP packet, not taken up yet. -/
def getFlashNameRun : List BusEvent := [.busReset, .poll, .setup getFlashName]

/-- Its reply is framed. -/
theorem getFlashName_framed :
    let d := (Dev.init blankBoard).run getFlashNameRun
    let r := (d.dispatchRead getFlashName).2
    ∃ ps, Framed 64 (ctrlBytes r.ctrl 0 (min r.datasize.toNat getFlashName.wLength.toNat))
        (decide (min r.datasize.toNat getFlashName.wLength.toNat < getFlashName.wLength.toNat)) ps
      ∧ d.Queues r ps :=
  inDataStage_framed (d := (Dev.init blankBoard).run getFlashNameRun)
    ⟨blankBoard, getFlashNameRun, rfl⟩ (by decide +kernel) (by decide +kernel) (by decide)
    (by decide) (by decide +kernel) (by decide +kernel)

end Stm32F1Dfu
