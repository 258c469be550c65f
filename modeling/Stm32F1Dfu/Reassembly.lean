import Stm32F1Dfu.Turns
import Stm32F1Dfu.Link

namespace Stm32F1Dfu

open Machine

/-!
# The OUT data stage over whole runs

A host-to-device transfer with data stores its packets one behind the other in the control
buffer and dispatches its request with the last one.  `Transfer` keeps a record of the
transfer beside the run, which no code reads: the driver as it was before the SETUP
packet, the bytes received since, and how often a request was dispatched.

* `Dev.readChunk_eq` — what one packet of the data stage stores;
* `Reassembly` — the invariant: the stage, the buffer and the record belong together;
* `StepReassembles` — what one step does with packets and requests (`Reassembly.step`).
-/

/-! ### The record of a transfer -/

/-- The entry is a dispatched request. -/
def UsbEvent.isDispatched : UsbEvent → Bool
  | .dispatched _ _ => true
  | _               => false

/-- How many requests a log has on record as dispatched. -/
def dispatchCount (log : List UsbEvent) : Nat := log.countP UsbEvent.isDispatched

/-- How many requests were dispatched between `d` and `d'`. -/
def newDispatches (d d' : Dev) : Nat := dispatchCount d'.log - dispatchCount d.log

/-- The device is in the OUT data stage of a transfer. -/
def Dev.InDataStage (d : Dev) : Prop := d.fsm = .dataOut ∨ d.fsm = .lastDataOut

instance (d : Dev) : Decidable d.InDataStage := inferInstanceAs (Decidable (_ ∨ _))

/-- A transfer, since its SETUP packet. -/
structure Transfer where
  /-- the driver before the SETUP packet was taken up -/
  start : Dfu
  /-- the bytes of the packets of its data stage, each packet counting up to
      `min(64, remaining)` -/
  bytes : List UInt8
  /-- how often `usb_control_request_dispatch` ran -/
  dispatches : Nat

/-- The record before the first SETUP packet. -/
def Transfer.init (f : Dfu) : Transfer := { start := f, bytes := [], dispatches := 0 }

/-- The part of the packet in the receive buffer that counts. -/
def Dev.counted (d : Dev) : List UInt8 :=
  d.periph.rxPacket.take (min 64 (d.usbReq.wLength.toNat - d.datasize.toNat))

/-- The record after a step from `d` to `d'`: a SETUP packet starts it anew, an OUT packet
    of the data stage adds its bytes. -/
def Transfer.after (t : Transfer) (d : Dev) (e : BusEvent) (d' : Dev) : Transfer :=
  if d.Polls e .setup then { start := d.dfu, bytes := [], dispatches := newDispatches d d' }
  else
    { t with bytes := if d.Polls e .out ∧ d.InDataStage then t.bytes ++ d.counted else t.bytes
             dispatches := t.dispatches + newDispatches d d' }

/-- The device with the record of its transfer, step by step. -/
def track (s : Dev × Transfer) (e : BusEvent) : Dev × Transfer :=
  (s.1.step e, s.2.after s.1 e (s.1.step e))

/-- The record at the end of a run. -/
def Dev.transfer (d : Dev) (evs : List BusEvent) : Transfer :=
  (Machine.run track (d, .init d.dfu) evs).2

/-- The record watches the run and does not change it. -/
theorem run_track_fst (s : Dev × Transfer) (evs : List BusEvent) :
    (run track s evs).1 = s.1.run evs :=
  run_map (fun _ _ => rfl) s evs

/-! ### One packet -/

/-- The size a packet is expected to have. -/
theorem Dev.packetsize_toNat {d : Dev} (h : d.datasize.toNat ≤ d.usbReq.wLength.toNat) :
    d.packetsize.toNat = min 64 (d.usbReq.wLength.toNat - d.datasize.toNat) := by
  unfold Dev.packetsize recvPacketsize
  have h64 : bMaxPacketSize0.toNat = 64 := rfl
  rw [h64]
  split
  · rw [h64]
    omega
  · rw [UInt16.toNat_sub_of_le _ _ (UInt16.le_iff_toNat_le.mpr h)]
    omega

/-- **One packet.**  Nothing is read while reception is VALID; otherwise the packet, cut to
    the size expected, is put behind what is stored. -/
theorem Dev.readChunk_eq (d : Dev) :
    d.readChunk.2
      = if (epView (d.periph.reg 0)).rxStat = rxStatValid then
          (fun j => d.ctrl (d.datasize.toNat + j), 0)
        else
          (fun j => if j < min d.periph.rxPacket.length d.packetsize.toNat
              then d.periph.rxPacket.getD j 0 else d.ctrl (d.datasize.toNat + j),
            UInt16.ofNat (min d.periph.rxPacket.length d.packetsize.toNat)) := by
  unfold Dev.readChunk
  by_cases hs : (epView (d.periph.reg 0)).rxStat = rxStatValid
  · have hstat : d.periph.read (0 : UInt8).toNat &&& usbEpRxStat = rxStatValid := hs
    unfold usbdEpReadPacket
    rw [if_pos hs, if_pos hstat]
  · rw [usbdEpReadPacket_data hs, if_neg hs]

/-- A packet that is taken has at least the size expected. -/
theorem Dev.chunkFits_iff (d : Dev) (h : 0 < d.packetsize.toNat) :
    d.chunkFits = true
      ↔ (epView (d.periph.reg 0)).rxStat ≠ rxStatValid
        ∧ d.packetsize.toNat ≤ d.periph.rxPacket.length := by
  unfold Dev.chunkFits
  rw [beq_iff_eq, d.readChunk_eq]
  by_cases hs : (epView (d.periph.reg 0)).rxStat = rxStatValid
  · rw [if_pos hs]
    refine iff_of_false (fun h0 => ?_) (fun hc => hc.1 hs)
    have h0 : (0 : UInt16) = d.packetsize := h0
    rw [← h0] at h
    exact absurd h (by decide)
  · rw [if_neg hs]
    have hlt := d.packetsize.toNat_lt
    have hmin : (UInt16.ofNat (min d.periph.rxPacket.length d.packetsize.toNat)).toNat
        = min d.periph.rxPacket.length d.packetsize.toNat := by
      rw [UInt16.toNat_ofNat']
      omega
    show UInt16.ofNat (min d.periph.rxPacket.length d.packetsize.toNat) = d.packetsize ↔ _
    rw [← UInt16.toNat_inj, hmin]
    constructor
    · intro heq
      exact ⟨hs, by omega⟩
    · rintro ⟨-, hle⟩
      omega

/-- The buffer after a packet, taken or not: what is stored before stays, and nothing
    changes from the end of the transfer on. -/
theorem Dev.afterChunk_ctrl (d : Dev) {i : Nat}
    (h : i < d.datasize.toNat ∨ d.datasize.toNat + d.packetsize.toNat ≤ i) :
    d.afterChunk.ctrl i = d.ctrl i := by
  show splice d.ctrl d.datasize.toNat d.readChunk.2.1 i = d.ctrl i
  unfold splice
  by_cases hi : i < d.datasize.toNat
  · rw [if_pos hi]
  · rw [if_neg hi, d.readChunk_eq]
    have hback : d.datasize.toNat + (i - d.datasize.toNat) = i := by omega
    split
    · exact congrArg d.ctrl hback
    · show (if i - d.datasize.toNat < min d.periph.rxPacket.length d.packetsize.toNat
        then d.periph.rxPacket.getD (i - d.datasize.toNat) 0
        else d.ctrl (d.datasize.toNat + (i - d.datasize.toNat))) = d.ctrl i
      rw [if_neg (by omega), hback]

/-- The bytes of a packet that is taken. -/
theorem Dev.stored_ctrl {d : Dev} (hfits : d.chunkFits = true) {j : Nat}
    (hj : j < d.packetsize.toNat) :
    d.stored.ctrl (d.datasize.toNat + j) = d.periph.rxPacket.getD j 0 := by
  obtain ⟨hs, hle⟩ := (d.chunkFits_iff (by omega)).mp hfits
  show splice d.ctrl d.datasize.toNat d.readChunk.2.1 (d.datasize.toNat + j) = _
  unfold splice
  have hoff : d.datasize.toNat + j - d.datasize.toNat = j := by omega
  rw [if_neg (by omega), hoff, d.readChunk_eq, if_neg hs]
  exact if_pos (by omega)

/-! ### The invariant -/

/-- The buffer holds the bytes from its start on. -/
def HoldsBytes (ctrl : Nat → UInt8) (bytes : List UInt8) : Prop :=
  ∀ i (h : i < bytes.length), ctrl i = bytes[i]

/-- The stage, the buffer and the record of the transfer belong together. -/
structure Reassembly (d : Dev) (t : Transfer) : Prop where
  dataOut : d.fsm = .dataOut →
    64 < d.usbReq.wLength.toNat - d.datasize.toNat ∧ 64 ∣ d.datasize.toNat
  lastDataOut : d.fsm = .lastDataOut →
    0 < d.usbReq.wLength.toNat - d.datasize.toNat
      ∧ d.usbReq.wLength.toNat - d.datasize.toNat ≤ 64
  /-- the request of a data stage fits into the buffer and is not dispatched yet -/
  stage : d.InDataStage →
    d.usbReq.isRead = false ∧ d.usbReq.wLength.toNat ≤ dfuTransferSize ∧ t.dispatches = 0
  /-- what is stored are the bytes received -/
  bytes : d.InDataStage → t.bytes.length = d.datasize.toNat ∧ HoldsBytes d.ctrl t.bytes
  once : t.dispatches ≤ 1
  /-- only a request that was dispatched has set the callback -/
  callback : d.usbCompleteCb = true → t.dispatches ≠ 0
  /-- before the request is dispatched, the driver is as before the SETUP packet -/
  untouched : t.dispatches = 0 → d.dfu = t.start

/-- Outside the data stage there is less to say. -/
theorem Reassembly.of_not_stage {d : Dev} {t : Transfer} (hfsm : ¬ d.InDataStage)
    (once : t.dispatches ≤ 1) (callback : d.usbCompleteCb = true → t.dispatches ≠ 0)
    (untouched : t.dispatches = 0 → d.dfu = t.start) : Reassembly d t where
  dataOut h := absurd (Or.inl h) hfsm
  lastDataOut h := absurd (Or.inr h) hfsm
  stage h := absurd h hfsm
  bytes h := absurd h hfsm
  once := once
  callback := callback
  untouched := untouched

/-- In the data stage there is room for the next packet. -/
theorem Reassembly.datasize_lt {d : Dev} {t : Transfer} (h : Reassembly d t)
    (hstage : d.InDataStage) : d.datasize.toNat < d.usbReq.wLength.toNat := by
  rcases hstage with hfsm | hfsm
  · have := (h.dataOut hfsm).1
    omega
  · have := (h.lastDataOut hfsm).1
    omega

/-! ### The record, step by step -/

/-- What a poll serves is one thing. -/
theorem Dev.Polls.unique {d : Dev} {e : BusEvent} {s s' : Served} (h : d.Polls e s)
    (h' : d.Polls e s') : s = s' :=
  h.2.2.symm.trans h'.2.2

theorem dispatchCount_cons (ev : UsbEvent) (log : List UsbEvent) :
    dispatchCount (ev :: log) = dispatchCount log + if ev.isDispatched then 1 else 0 :=
  List.countP_cons

theorem newDispatches_of_log {d d' : Dev} {n : Nat}
    (h : dispatchCount d'.log = dispatchCount d.log + n) : newDispatches d d' = n := by
  unfold newDispatches
  omega

section

variable {t : Transfer} {d d' : Dev} {e : BusEvent}

theorem Transfer.after_of_setup (h : d.Polls e .setup) {n : Nat}
    (hlog : dispatchCount d'.log = dispatchCount d.log + n) :
    t.after d e d' = { start := d.dfu, bytes := [], dispatches := n } := by
  unfold Transfer.after
  rw [if_pos h, newDispatches_of_log hlog]

theorem Transfer.after_of_chunk (h : d.Polls e .out) (hstage : d.InDataStage) {n : Nat}
    (hlog : dispatchCount d'.log = dispatchCount d.log + n) :
    t.after d e d' = { t with bytes := t.bytes ++ d.counted, dispatches := t.dispatches + n } := by
  have hsetup : ¬ d.Polls e .setup := fun hs => absurd (h.unique hs) (by decide)
  unfold Transfer.after
  rw [if_neg hsetup, if_pos ⟨h, hstage⟩, newDispatches_of_log hlog]

/-- The bytes on record after an OUT packet of the data stage. -/
theorem Transfer.after_bytes (h : d.Polls e .out) (hstage : d.InDataStage) :
    (t.after d e d').bytes = t.bytes ++ d.counted := by
  have hsetup : ¬ d.Polls e .setup := fun hs => absurd (h.unique hs) (by decide)
  unfold Transfer.after
  rw [if_neg hsetup, if_pos ⟨h, hstage⟩]

/-- Any other step leaves the record alone. -/
theorem Transfer.after_of_other (hsetup : ¬ d.Polls e .setup)
    (hout : ¬ (d.Polls e .out ∧ d.InDataStage))
    (hlog : dispatchCount d'.log = dispatchCount d.log) : t.after d e d' = t := by
  unfold Transfer.after
  rw [if_neg hsetup, if_neg hout, newDispatches_of_log (n := 0) hlog]
  rfl

end

/-- A dispatch is on record once. -/
theorem dispatch_count (d : Dev) :
    dispatchCount (usbControlRequestDispatch d).2.log = dispatchCount d.log + 1 := by
  rw [(usbControlRequestDispatch_frame d).1, dispatchCount_cons]
  rfl

theorem dispatchRead_count (d : Dev) (req : UsbSetupData) :
    dispatchCount (d.dispatchRead req).2.log = dispatchCount d.log + 1 := by
  rw [Dev.dispatchRead, dispatch_count]
  simp [Dev.afterSetup, dispatchCount_cons, UsbEvent.isDispatched]

theorem dispatchWrite_count (d : Dev) :
    dispatchCount d.dispatchWrite.2.log = dispatchCount d.log + 1 :=
  dispatch_count d.stored

/-- Before its request is dispatched a transfer has no callback to complete. -/
theorem Reassembly.callback_eq {d : Dev} {t : Transfer} (h : Reassembly d t)
    (hzero : t.dispatches = 0) : d.usbCompleteCb = false := by
  by_contra hcb
  apply h.callback
  · simpa using hcb
  · exact hzero

/-- **A packet taken** is behind what is stored, in the buffer as in the record. -/
theorem Reassembly.stored {d : Dev} {t : Transfer} (h : Reassembly d t) (hstage : d.InDataStage)
    (hfits : d.chunkFits = true) :
    (t.bytes ++ d.counted).length = d.datasize.toNat + d.packetsize.toNat
      ∧ HoldsBytes d.stored.ctrl (t.bytes ++ d.counted) := by
  obtain ⟨hlength, hholds⟩ := h.bytes hstage
  have hroom := h.datasize_lt hstage
  have hsize := d.packetsize_toNat (Nat.le_of_lt hroom)
  have hrx := ((d.chunkFits_iff (by omega)).mp hfits).2
  have hcounted : d.counted.length = d.packetsize.toNat := by
    unfold Dev.counted
    rw [List.length_take]
    omega
  refine ⟨by rw [List.length_append, hlength, hcounted], fun i hi => ?_⟩
  rw [List.length_append, hlength, hcounted] at hi
  -- a byte of an earlier packet, or one of this packet
  by_cases hold : i < d.datasize.toNat
  · have hkept : d.stored.ctrl i = d.ctrl i := d.afterChunk_ctrl (Or.inl hold)
    rw [hkept, hholds i (by omega), List.getElem_append_left]
  · obtain ⟨j, rfl⟩ := Nat.exists_eq_add_of_le (Nat.le_of_not_lt hold)
    rw [d.stored_ctrl hfits (by omega), List.getElem_append_right (by omega),
      List.getD_eq_getElem _ _ (by omega)]
    unfold Dev.counted
    rw [List.getElem_take]
    congr 1
    omega

/-- **A packet taken before the last** leaves the rest of the transfer. -/
theorem Reassembly.chunk {d : Dev} {t : Transfer} (h : Reassembly d t) (hfsm : d.fsm = .dataOut)
    (hfits : d.chunkFits = true) (p : Periph) :
    Reassembly { d.stored with
        periph := p
        fsm := if d.usbReq.wLength.toNat
            ≤ (d.datasize + d.packetsize).toNat + bMaxPacketSize0.toNat
          then .lastDataOut else .dataOut }
      { t with bytes := t.bytes ++ d.counted } := by
  obtain ⟨hrest, hdvd⟩ := h.dataOut hfsm
  obtain ⟨hlength, hholds⟩ := h.stored (Or.inl hfsm) hfits
  have h64 : bMaxPacketSize0.toNat = 64 := rfl
  have hsize : d.packetsize.toNat = 64 := by
    rw [d.packetsize_toNat (by omega)]
    omega
  have hnext : (d.datasize + d.packetsize).toNat = d.datasize.toNat + 64 := by
    have := d.usbReq.wLength.toNat_lt
    rw [UInt16.toNat_add, hsize]
    omega
  refine ⟨fun hs => ?_, fun hs => ?_, fun _ => h.stage (Or.inl hfsm), fun _ => ⟨?_, hholds⟩,
    h.once, h.callback, h.untouched⟩
  · -- more than one packet is left
    have hmore : ¬ d.usbReq.wLength.toNat
        ≤ (d.datasize + d.packetsize).toNat + bMaxPacketSize0.toNat := by
      intro hle
      rw [if_pos hle] at hs
      simp at hs
    show 64 < d.usbReq.wLength.toNat - (d.datasize + d.packetsize).toNat
      ∧ 64 ∣ (d.datasize + d.packetsize).toNat
    rw [hnext] at hmore ⊢
    omega
  · -- the next packet is the last
    have hlast : d.usbReq.wLength.toNat
        ≤ (d.datasize + d.packetsize).toNat + bMaxPacketSize0.toNat := by
      by_contra hmore
      rw [if_neg hmore] at hs
      simp at hs
    show 0 < d.usbReq.wLength.toNat - (d.datasize + d.packetsize).toNat
      ∧ d.usbReq.wLength.toNat - (d.datasize + d.packetsize).toNat ≤ 64
    rw [hnext] at hlast ⊢
    omega
  · show (t.bytes ++ d.counted).length = (d.datasize + d.packetsize).toNat
    rw [hlength, hnext, hsize]

/-- **The data stage begins** with everything left to come. -/
theorem Reassembly.write {d : Dev} {req : UsbSetupData} (hwrite : req.isRead = false)
    (hlen : req.wLength.toNat ≤ dfuTransferSize) (p : Periph) :
    Reassembly { d.afterSetup req with
        periph := p, datasize := 0
        fsm := if req.wLength > bMaxPacketSize0 then .dataOut else .lastDataOut }
      { start := d.dfu, bytes := [], dispatches := 0 } := by
  have h64 : bMaxPacketSize0.toNat = 64 := rfl
  have hpos : 0 < req.wLength.toNat := by
    apply uint16_pos
    intro h0
    simp [UsbSetupData.isRead, h0] at hwrite
  refine ⟨fun hs => ?_, fun hs => ?_, fun _ => ⟨hwrite, hlen, rfl⟩, fun _ => ⟨rfl, ?_⟩,
    Nat.zero_le 1, fun hcb => ?_, fun _ => rfl⟩
  · have hmore : req.wLength > bMaxPacketSize0 := by
      by_contra hle
      simp [hle] at hs
    have hmore := UInt16.lt_iff_toNat_lt.mp hmore
    show 64 < req.wLength.toNat - 0 ∧ 64 ∣ 0
    omega
  · have hle : ¬ req.wLength > bMaxPacketSize0 := by
      intro hmore
      simp [hmore] at hs
    have hle : ¬ bMaxPacketSize0.toNat < req.wLength.toNat :=
      fun h => hle (UInt16.lt_iff_toNat_lt.mpr h)
    show 0 < req.wLength.toNat - 0 ∧ req.wLength.toNat - 0 ≤ 64
    omega
  · intro i hi
    exact absurd hi (Nat.not_lt_zero i)
  · exact absurd hcb (by simp [Dev.afterSetup])

/-- The invariant, by what the record becomes. -/
theorem Reassembly.of_after {d d' : Dev} {e : BusEvent} {t t' : Transfer}
    (ht : t.after d e d' = t') (h : Reassembly d' t') : Reassembly d' (t.after d e d') :=
  ht ▸ h

/-- **Each turn keeps the invariant.** -/
theorem Turn.reassembly {d d' : Dev} {e : BusEvent} {t : Transfer} (ht : Turn d e d')
    (h : Reassembly d t) : Reassembly d' (t.after d e d') := by
  have htx {s : Served} (hs : d.Polls e s) (hne : s ≠ .setup ∧ s ≠ .out) :
      ¬ d.Polls e .setup ∧ ¬ (d.Polls e .out ∧ d.InDataStage) :=
    ⟨fun h' => hne.1 (hs.unique h'), fun h' => hne.2 (hs.unique h'.1)⟩
  cases ht with
  -- nothing is served, or the device does not run any more
  | still p hs =>
    have hquiet : ¬ d.Polls e .setup ∧ ¬ (d.Polls e .out ∧ d.InDataStage) := by
      refine ⟨fun h' => ?_, fun h' => ?_⟩
      · exact (hs _ h').elim (by decide) (by decide)
      · exact (hs _ h'.1).elim (by decide) (by decide)
    refine .of_after (Transfer.after_of_other hquiet.1 hquiet.2 rfl) ?_
    exact ⟨h.dataOut, h.lastDataOut, h.stage, h.bytes, h.once, h.callback, h.untouched⟩
  -- a SETUP packet: the record starts anew, with the driver as it is now
  | garbled p req hs hreq =>
    refine .of_after (Transfer.after_of_setup hs (n := 0)
      (by simp [dispatchCount_cons, UsbEvent.isDispatched])) ?_
    exact .of_not_stage (by simp [Dev.InDataStage]) (by simp) (by simp) fun _ => rfl
  | tooLong p req hs hreq hwrite hlen =>
    refine .of_after (Transfer.after_of_setup hs (n := 0)
      (by simp [dispatchCount_cons, UsbEvent.isDispatched])) ?_
    exact .of_not_stage (by simp [Dev.InDataStage]) (by simp) (by simp [Dev.afterSetup])
      fun _ => rfl
  | write p req hs hreq hwrite hlen =>
    refine .of_after (Transfer.after_of_setup hs (n := 0)
      (by simp [Dev.afterSetup, dispatchCount_cons, UsbEvent.isDispatched])) ?_
    exact .write hwrite hlen p
  | readStall p req hs hreq hisread hcode =>
    refine .of_after (Transfer.after_of_setup hs (n := 1)
      (by simp [dispatchCount_cons, UsbEvent.isDispatched, dispatchRead_count])) ?_
    exact .of_not_stage (by simp [Dev.InDataStage]) (by simp) (by simp) (by simp)
  | readStatus p req n hs hreq hisread hcode hlen =>
    refine .of_after (Transfer.after_of_setup hs (n := 1) (dispatchRead_count d req)) ?_
    exact .of_not_stage (by simp [Dev.InDataStage]) (by simp) (by simp) (by simp)
  | readData p req s n o z off data hs hreq hisread hcode hlen hstage =>
    refine .of_after (Transfer.after_of_setup hs (n := 1)
      (by simp [dispatchCount_cons, UsbEvent.isDispatched, dispatchRead_count])) ?_
    refine .of_not_stage ?_ (by simp) (by simp) (by simp)
    rcases hstage with rfl | rfl <;> simp [Dev.InDataStage]
  -- an OUT packet of the data stage: the record grows by what counts of it
  | short p hs hfsm hfits =>
    refine .of_after (Transfer.after_of_chunk hs hfsm (n := 0)
      (by simp [dispatchCount_cons, UsbEvent.isDispatched])) ?_
    exact .of_not_stage (by simp [Dev.InDataStage]) h.once h.callback h.untouched
  | chunk p hs hfsm hfits =>
    refine .of_after (Transfer.after_of_chunk hs (Or.inl hfsm) (n := 0) rfl) ?_
    exact h.chunk hfsm hfits p
  | writeStall p hs hfsm hfits hcode =>
    have hzero := (h.stage (Or.inr hfsm)).2.2
    refine .of_after (Transfer.after_of_chunk hs (Or.inr hfsm) (n := 1)
      (by simp [dispatchCount_cons, UsbEvent.isDispatched, dispatchWrite_count])) ?_
    exact .of_not_stage (by simp [Dev.InDataStage]) (by simp [hzero]) (by simp) (by simp)
  | writeDone p hs hfsm hfits hcode =>
    have hzero := (h.stage (Or.inr hfsm)).2.2
    refine .of_after (Transfer.after_of_chunk hs (Or.inr hfsm) (n := 1)
      (dispatchWrite_count d)) ?_
    exact .of_not_stage (by simp [Dev.InDataStage]) (by simp [hzero]) (by simp) (by simp)
  -- a status stage: a completion changes the driver only after a dispatch
  | completeOut p hs hfsm =>
    have hsetup : ¬ d.Polls e .setup := fun h' => absurd (hs.unique h') (by decide)
    have hout : ¬ (d.Polls e .out ∧ d.InDataStage) := fun h' => by
      simp [Dev.InDataStage, hfsm] at h'
    refine .of_after (Transfer.after_of_other hsetup hout
      (by simp [completeTransfer, dispatchCount_cons, UsbEvent.isDispatched])) ?_
    refine .of_not_stage (by simp [Dev.InDataStage]) h.once (by simp) fun hzero => ?_
    simp [completeTransfer, h.callback_eq hzero, h.untouched hzero]
  | completeIn p hs hfsm =>
    obtain ⟨hsetup, hout⟩ := htx hs (by decide)
    refine .of_after (Transfer.after_of_other hsetup hout
      (by simp [completeTransfer, dispatchCount_cons, UsbEvent.isDispatched])) ?_
    refine .of_not_stage (by simp [Dev.InDataStage]) h.once h.callback fun hzero => ?_
    simp [completeTransfer, h.callback_eq hzero, h.untouched hzero]
  -- the data stage of a read has nothing to do with the record
  | nextChunk p s n o z off data hs hfsm hstage =>
    obtain ⟨hsetup, hout⟩ := htx hs (by decide)
    refine .of_after (Transfer.after_of_other hsetup hout
      (by simp [dispatchCount_cons, UsbEvent.isDispatched])) ?_
    refine .of_not_stage ?_ h.once h.callback h.untouched
    rcases hstage with rfl | rfl <;> simp [Dev.InDataStage]
  | lastChunk p hs hfsm =>
    obtain ⟨hsetup, hout⟩ := htx hs (by decide)
    refine .of_after (Transfer.after_of_other hsetup hout rfl) ?_
    exact .of_not_stage (by simp [Dev.InDataStage]) h.once h.callback h.untouched
  | unexpected p hs =>
    have hquiet : ¬ d.Polls e .setup ∧ ¬ (d.Polls e .out ∧ d.InDataStage) := by
      rcases hs with ⟨hs, hdata, hlast, -⟩ | ⟨hs, -⟩
      · refine ⟨fun h' => absurd (hs.unique h') (by decide), fun h' => ?_⟩
        exact h'.2.elim hdata hlast
      · exact htx hs (by decide)
    refine .of_after (Transfer.after_of_other hquiet.1 hquiet.2
      (by simp [dispatchCount_cons, UsbEvent.isDispatched])) ?_
    exact .of_not_stage (by simp [Dev.InDataStage]) h.once h.callback h.untouched

/-- The invariant at the start, and what a tracked step makes of it. -/
theorem init_reassembly (b : Board) :
    Reassembly (Dev.init b) (.init (Dev.init b).dfu) :=
  .of_not_stage (by simp [Dev.InDataStage, Dev.init]) (by simp [Transfer.init])
    (by simp [Dev.init]) fun _ => rfl

theorem track_reassembly {s : Dev × Transfer} (e : BusEvent) (h : Reassembly s.1 s.2) :
    Reassembly (track s e).1 (track s e).2 :=
  (step_turn s.1 e).reassembly h

/-- The invariant holds in every run. -/
theorem run_reassembly (b : Board) (evs : List BusEvent) :
    Reassembly ((Dev.init b).run evs) ((Dev.init b).transfer evs) := by
  have hrun := run_invariant' (I := fun s => Reassembly s.1 s.2)
    (fun _ e h => track_reassembly e h) (s := (Dev.init b, .init (Dev.init b).dfu))
    (init_reassembly b) evs
  rw [run_track_fst] at hrun
  exact hrun

/-! ### One step -/

/-- **Where requests are dispatched**: with the SETUP packet of a read, and with the last
    packet of a write. -/
theorem Turn.newDispatches_cases {d d' : Dev} {e : BusEvent} (ht : Turn d e d') :
    newDispatches d d' = 0
      ∨ newDispatches d d' = 1 ∧ d.Polls e .setup
          ∧ (∃ req, d.nextSetup = some req ∧ req.isRead = true)
      ∨ newDispatches d d' = 1 ∧ d.Polls e .out ∧ d.fsm = .lastDataOut ∧ d.chunkFits = true
          ∧ d'.dfu = d.dispatchWrite.2.dfu := by
  cases ht with
  | readStall p req hs hreq hisread hcode =>
    right; left
    exact ⟨newDispatches_of_log (by simp [dispatchCount_cons, UsbEvent.isDispatched, dispatchRead_count]), hs,
      req, hreq, hisread⟩
  | readStatus p req n hs hreq hisread hcode hlen =>
    right; left
    exact ⟨newDispatches_of_log (dispatchRead_count d req), hs, req, hreq, hisread⟩
  | readData p req s n o z off data hs hreq hisread hcode hlen hstage =>
    right; left
    exact ⟨newDispatches_of_log (by simp [dispatchCount_cons, UsbEvent.isDispatched, dispatchRead_count]), hs,
      req, hreq, hisread⟩
  | writeStall p hs hfsm hfits hcode =>
    right; right
    exact ⟨newDispatches_of_log (by simp [dispatchCount_cons, UsbEvent.isDispatched, dispatchWrite_count]),
      hs, hfsm, hfits, rfl⟩
  | writeDone p hs hfsm hfits hcode =>
    right; right
    exact ⟨newDispatches_of_log (dispatchWrite_count d), hs, hfsm, hfits, rfl⟩
  -- no other turn adds a dispatch to the log
  | _ =>
    left
    apply newDispatches_of_log
    simp [Dev.afterSetup, Dev.stored, Dev.afterChunk, completeTransfer, dispatchCount_cons,
      UsbEvent.isDispatched]

/-- A SETUP packet of a write that asks for too much ends the transfer. -/
theorem Turn.idle_of_tooLong {d d' : Dev} {e : BusEvent} {req : UsbSetupData}
    (ht : Turn d e d') (hs : d.Polls e .setup) (hreq : d.nextSetup = some req)
    (hwrite : req.isRead = false) (hlen : dfuTransferSize < req.wLength.toNat) :
    d'.fsm = .idle := by
  cases ht with
  | still p h => exact absurd (h _ hs) (by decide)
  | garbled | tooLong | readStall => rfl
  | write p req' hs' hreq' hwrite' hlen' =>
    obtain rfl := Option.some.inj (hreq.symm.trans hreq')
    omega
  | readStatus p req' n hs' hreq' hread =>
    obtain rfl := Option.some.inj (hreq.symm.trans hreq')
    exact absurd hwrite (by simp [hread])
  | readData p req' s n o z off data hs' hreq' hread =>
    obtain rfl := Option.some.inj (hreq.symm.trans hreq')
    exact absurd hwrite (by simp [hread])
  | short p hs' | chunk p hs' | writeStall p hs' | writeDone p hs' | completeOut p hs'
  | completeIn p hs' | nextChunk p s n o z off data hs' | lastChunk p hs' =>
    exact absurd (hs.unique hs') (by decide)
  | unexpected p h => rfl

/-- A packet that is too short ends the transfer. -/
theorem Turn.idle_of_short {d d' : Dev} {e : BusEvent} (ht : Turn d e d')
    (hs : d.Polls e .out) (hfits : d.chunkFits = false) : d'.fsm = .idle := by
  cases ht with
  | still p h => exact absurd (h _ hs) (by decide)
  | short | writeStall | completeOut | completeIn | garbled | tooLong | readStall
  | unexpected => rfl
  | write p req hs' | readStatus p req n hs' | readData p req s n o z off data hs'
  | nextChunk p s n o z off data hs' | lastChunk p hs' =>
    exact absurd (hs.unique hs') (by decide)
  | chunk p hs' hfsm hfits' | writeDone p hs' hfsm hfits' =>
    rw [hfits] at hfits'
    exact absurd hfits' (by decide)

/-- What the step `e` does with packets and requests, where `t` is the record so far. -/
structure StepReassembles (d : Dev) (t : Transfer) (e : BusEvent) : Prop where
  /-- a packet is stored behind the earlier ones, inside the part of the buffer that the
      transfer asks for -/
  inside : d.Polls e .out → d.InDataStage → ∀ i, (usbControlRecvChunk d).2.ctrl i ≠ d.ctrl i →
    d.datasize.toNat ≤ i ∧ i < d.usbReq.wLength.toNat
  /-- the SETUP packet of a write dispatches nothing, and ends the transfer if it asks for
      more than the buffer holds -/
  setup : ∀ req, d.Polls e .setup → d.nextSetup = some req → req.isRead = false →
    newDispatches d (d.step e) = 0 ∧ (d.step e).dfu = d.dfu
      ∧ (dfuTransferSize < req.wLength.toNat → (d.step e).fsm = .idle)
  /-- a request is dispatched with the last packet only, when all bytes are stored and the
      buffer holds them in order -/
  whole : ¬ d.Polls e .setup → newDispatches d (d.step e) ≠ 0 →
    newDispatches d (d.step e) = 1 ∧ d.Polls e .out ∧ d.fsm = .lastDataOut
      ∧ (usbControlRecvChunk d).2.datasize = d.usbReq.wLength
      ∧ (t.after d e (d.step e)).bytes.length = d.usbReq.wLength.toNat
      ∧ HoldsBytes (usbControlRecvChunk d).2.ctrl (t.after d e (d.step e)).bytes
      ∧ (d.step e).dfu = (usbControlRequestDispatch (usbControlRecvChunk d).2).2.dfu
  /-- a packet that is too short ends the transfer -/
  short : d.Polls e .out → d.InDataStage →
    d.periph.rxPacket.length < min 64 (d.usbReq.wLength.toNat - d.datasize.toNat) →
    newDispatches d (d.step e) = 0 ∧ (d.step e).fsm = .idle
  /-- without a dispatch the driver stays as it was before the SETUP packet, whatever ends
      the transfer -/
  ended : d.InDataStage → newDispatches d (d.step e) = 0 → (d.step e).dfu = t.start

/-- Reading a packet, taken or not, leaves the buffer as `Dev.afterChunk` has it. -/
theorem usbControlRecvChunk_ctrl (d : Dev) :
    (usbControlRecvChunk d).2.ctrl = d.afterChunk.ctrl := by
  cases hfits : d.chunkFits with
  | true =>
    rw [usbControlRecvChunk_fits hfits]
    rfl
  | false =>
    rw [usbControlRecvChunk_short hfits]
    rfl

theorem Reassembly.step {d : Dev} {t : Transfer} (h : Reassembly d t) (e : BusEvent) :
    StepReassembles d t e where
  inside _ hdata i hi := by
    have hroom := h.datasize_lt hdata
    have hsize := d.packetsize_toNat (Nat.le_of_lt hroom)
    rw [usbControlRecvChunk_ctrl] at hi
    by_contra hout
    refine hi (d.afterChunk_ctrl ?_)
    omega
  setup req hs hreq hwrite := by
    have hzero : newDispatches d (d.step e) = 0 := by
      rcases (step_turn d e).newDispatches_cases with h0 | ⟨-, -, req', hreq', hread⟩ | ⟨-, hs', -⟩
      · exact h0
      · obtain rfl := Option.some.inj (hreq.symm.trans hreq')
        exact absurd hwrite (by simp [hread])
      · exact absurd (hs.unique hs') (by decide)
    refine ⟨hzero, ?_, (step_turn d e).idle_of_tooLong hs hreq hwrite⟩
    -- nothing was dispatched, so the new record still has the driver as it was
    have hafter : t.after d e (d.step e) = { start := d.dfu, bytes := [], dispatches := 0 } := by
      unfold Transfer.after
      rw [if_pos hs, hzero]
    have hkept := ((step_turn d e).reassembly h).untouched
    rw [hafter] at hkept
    exact hkept rfl
  whole hsetup hnew := by
    rcases (step_turn d e).newDispatches_cases with h0 | ⟨-, hs, -⟩ |
      ⟨hone, hs, hfsm, hfits, hdfu⟩
    · exact absurd h0 hnew
    · exact absurd hs hsetup
    have hrest := h.lastDataOut hfsm
    have hsize := d.packetsize_toNat (by omega)
    obtain ⟨hlength, hholds⟩ := h.stored (Or.inr hfsm) hfits
    have hsum : d.datasize.toNat + d.packetsize.toNat = d.usbReq.wLength.toNat := by omega
    rw [usbControlRecvChunk_fits hfits, Transfer.after_bytes hs (Or.inr hfsm)]
    refine ⟨hone, hs, hfsm, ?_, by rw [hlength, hsum], hholds, hdfu⟩
    show d.datasize + d.packetsize = d.usbReq.wLength
    rw [← UInt16.toNat_inj, UInt16.toNat_add, hsum]
    exact Nat.mod_eq_of_lt d.usbReq.wLength.toNat_lt
  short hs hstage hlt := by
    have hroom := h.datasize_lt hstage
    have hsize := d.packetsize_toNat (Nat.le_of_lt hroom)
    have hfits : d.chunkFits = false := by
      by_contra hfits
      have hle := ((d.chunkFits_iff (by omega)).mp (by simpa using hfits)).2
      omega
    refine ⟨?_, (step_turn d e).idle_of_short hs hfits⟩
    rcases (step_turn d e).newDispatches_cases with h0 | ⟨-, hs', -⟩ | ⟨-, -, -, hfits', -⟩
    · exact h0
    · exact absurd (hs.unique hs') (by decide)
    · rw [hfits] at hfits'
      exact absurd hfits' (by decide)
  ended hstage hzero := by
    have hkept := ((step_turn d e).reassembly h).untouched
    have hstart := h.untouched (h.stage hstage).2.2
    unfold Transfer.after at hkept
    -- a SETUP packet restarts the record from the driver of the transfer it cuts off
    by_cases hs : d.Polls e .setup
    · rw [if_pos hs] at hkept
      exact (hkept hzero).trans hstart
    · rw [if_neg hs] at hkept
      exact hkept (by rw [(h.stage hstage).2.2, hzero])

end Stm32F1Dfu
