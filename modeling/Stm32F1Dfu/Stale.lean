import Stm32F1Dfu.Delivery

namespace Stm32F1Dfu

open Machine

/-!
# Stale packets

Of the packet memory the handlers and the bus look at the buffer table of endpoint 0, at a packet
that was received and waits to be taken up, and at one that waits to be sent.  The rest is what
earlier transfers received and sent, and plays no part any more.

* `Periph.withPm` — the peripheral with other contents of the packet memory;
* `SamePackets` — the same packets wait in them;
* `Access.Plain` — an access that moves no packet keeps them waiting;
* `SamePackets.readPacket`, `SamePackets.writePacket`, `SamePackets.bus` — a packet that is read,
  written, or moved by the bus;
* `step_withPm` — a step that dispatches no request for an endpoint past 7 does the same;
* `reachable_statics` — what the two statics of the endpoints hold in every run.
-/

/-! ### The packets that wait -/

/-- The peripheral with the packet memory `q`. -/
def Periph.withPm (p : Periph) (q : Nat → UInt16) : Periph := { p with pm := q }

/-- With the packet memory `q` endpoint 0 has its buffers too, and the same packets wait in
    them. -/
structure SamePackets (p : Periph) (q : Nat → UInt16) : Prop where
  placed : Placed p
  other : Placed (p.withPm q)
  received : (epView (p.reg 0)).rxCtr = true → (p.withPm q).rxPacket = p.rxPacket
  sent : (epView (p.reg 0)).txStat = txStatValid →
    (p.withPm q).txPacket = p.txPacket ∧ p.txPacket.length ≤ 64

/-- Nothing is moved, no flag is raised, and nothing new waits to be sent. -/
theorem SamePackets.congr {p p' : Periph} {q : Nat → UInt16} (h : SamePackets p q)
    (hpm : p'.pm = p.pm) (hbtable : p'.reg regBtable = p.reg regBtable)
    (hrx : (epView (p'.reg 0)).rxCtr = true → (epView (p.reg 0)).rxCtr = true)
    (htx : (epView (p'.reg 0)).txStat = txStatValid → (epView (p.reg 0)).txStat = txStatValid) :
    SamePackets p' q where
  placed :=
    { btable := hbtable.trans h.placed.btable
      txAddr := by rw [hpm, h.placed.txAddr]
      rxAddr := by rw [hpm, h.placed.rxAddr]
      rxBlocks := by rw [hpm, h.placed.rxBlocks] }
  other :=
    { btable := hbtable.trans h.other.btable
      txAddr := h.other.txAddr
      rxAddr := h.other.rxAddr
      rxBlocks := h.other.rxBlocks }
  received hr := by
    have hother : (p'.withPm q).rxPacket = (p.withPm q).rxPacket :=
      Periph.rxPacket_congr rfl hbtable
    rw [hother, h.received (hrx hr), Periph.rxPacket_congr hpm hbtable]
  sent ht := by
    have hother : (p'.withPm q).txPacket = (p.withPm q).txPacket :=
      Periph.txPacket_congr rfl hbtable
    rw [hother, Periph.txPacket_congr hpm hbtable]
    exact h.sent (htx ht)

/-! ### Accesses -/

theorem Periph.withPm_write (p : Periph) (q : Nat → UInt16) (i : Nat) (w : BitVec 16) :
    (p.withPm q).write i w = (p.write i w).withPm q := by
  unfold Periph.write
  split_ifs <;> rfl

/-- The access is one to an endpoint register or a static, or latches the address, and does not
    make an endpoint send. -/
def Access.Plain (a : Access) : Prop :=
  (a.AtEndpoint ∨ ∃ wValue, a = .latchAddress wValue) ∧ a.Withholds

theorem Access.Plain.permitted {a : Access} (ha : a.Plain) (p : Periph) :
    a.Confined p ∨ ∃ wValue, a = .latchAddress wValue :=
  ha.1.imp_left fun h => h.confined p

/-- Such an access does not look at the packet memory. -/
theorem Access.Plain.run_withPm {a : Access} (ha : a.Plain) (p : Periph) (q : Nat → UInt16) :
    a.run (p.withPm q) = (a.run p).withPm q := by
  cases a with
  | setRxStat | setTxStat | clrRxCtr | clrRxDtog | clrTxDtog => exact p.withPm_write q _ _
  | latchAddress wValue => exact p.withPm_write q regDaddr _
  | copyToPm | setTxCount =>
    obtain ⟨h | ⟨wValue, h⟩, -⟩ := ha
    · exact h.elim
    · exact absurd h (by simp)
  | forceNak | pmTop => rfl

/-- It leaves it alone. -/
theorem Access.Plain.run_pm {a : Access} (ha : a.Plain) (p : Periph) : (a.run p).pm = p.pm := by
  have hsame := ha.run_withPm p p.pm
  rw [show p.withPm p.pm = p from rfl] at hsame
  rw [hsame]
  rfl

/-- The packets go on waiting. -/
theorem SamePackets.run {p : Periph} {q : Nat → UInt16} (h : SamePackets p q) {a : Access}
    (ha : a.Plain) : SamePackets (a.run p) q := by
  refine h.congr (ha.run_pm p) (Access.run_btable (ha.permitted p)) (fun hr => ?_) fun ht => ?_
  · by_contra hbefore
    have hafter := (a.run_calmer p).rxCtr (by simpa using hbefore)
    rw [hr] at hafter
    exact Bool.noConfusion hafter
  · by_contra hbefore
    exact ha.2.txStat hbefore ht

/-- **Accesses of this kind**, one after the other. -/
theorem SamePackets.runAccesses {p : Periph} {q : Nat → UInt16} (h : SamePackets p q)
    {as : List Access} (has : ∀ a ∈ as, a.Plain) :
    Stm32F1Dfu.runAccesses (p.withPm q) as = (Stm32F1Dfu.runAccesses p as).withPm q
      ∧ SamePackets (Stm32F1Dfu.runAccesses p as) q := by
  induction as generalizing p with
  | nil => exact ⟨rfl, h⟩
  | cons a as ih =>
    obtain ⟨ha, has⟩ := List.forall_mem_cons.mp has
    obtain ⟨hsame, hpackets⟩ := ih (h.run ha) has
    refine ⟨?_, hpackets⟩
    show Stm32F1Dfu.runAccesses (a.run (p.withPm q)) as = _
    rw [ha.run_withPm, hsame]
    rfl

/-! ### The routines -/

theorem nakSetAccesses_plain (nak : Bool) : ∀ a ∈ nakSetAccesses 0 nak, a.Plain := by
  have hstat : (Access.setRxStat 0 (if nak then rxStatNak else rxStatValid)).Withholds := by
    show (if nak then rxStatNak else rxStatValid) &&& ~~~usbEpRxStat = 0#16
    cases nak <;> decide
  refine List.forall_mem_cons.mpr ⟨⟨Or.inl trivial, trivial⟩, List.forall_mem_singleton.mpr ?_⟩
  exact ⟨Or.inl (by decide : (0 : UInt8).toNat < 8), hstat⟩

theorem readPacketAccesses_plain (p : Periph) : ∀ a ∈ readPacketAccesses p 0, a.Plain := by
  intro a ha
  refine ⟨Or.inl (readPacketAccesses_atEndpoint p a ha), ?_⟩
  unfold readPacketAccesses at ha
  split_ifs at ha
  · exact absurd ha List.not_mem_nil
  · rw [List.mem_singleton.mp ha]
    trivial
  · rcases List.mem_cons.mp ha with rfl | ha
    · trivial
    · rw [List.mem_singleton.mp ha]
      exact (by decide : rxStatValid &&& ~~~usbEpRxStat = 0#16)

theorem stallAccesses_plain : ∀ a ∈ stallAccesses, a.Plain := fun a ha =>
  ⟨Or.inl (stallAccesses_atEndpoint a ha), stallSetAccesses_withholds 0 true a ha⟩

theorem dispatchAccesses_plain {req : UsbSetupData} (h : ¬ OutsideRequest req) :
    ∀ a ∈ dispatchAccesses req, a.Plain := fun a ha =>
  ⟨Or.inl (dispatchAccesses_atEndpoint h a ha), dispatchAccesses_withholds req a ha⟩

/-! ### Packets that are moved -/

/-- **A packet that is read**, or one of which nothing is asked. -/
theorem SamePackets.readPacket {p : Periph} {q : Nat → UInt16} (h : SamePackets p q)
    (len : UInt16) (hsame : (p.withPm q).rxPacket = p.rxPacket ∨ len = 0) (buf : Nat → UInt8) :
    usbdEpReadPacket (p.withPm q) 0 buf len
        = ((usbdEpReadPacket p 0 buf len).1.withPm q, (usbdEpReadPacket p 0 buf len).2)
      ∧ SamePackets (usbdEpReadPacket p 0 buf len).1 q := by
  obtain ⟨haccesses, hpackets⟩ := h.runAccesses (readPacketAccesses_plain p)
  rw [← readPacket_accesses p 0 buf len] at haccesses hpackets
  refine ⟨?_, hpackets⟩
  by_cases hs : (epView (p.reg 0)).rxStat = rxStatValid
  · have hstat : p.read (0 : UInt8).toNat &&& usbEpRxStat = rxStatValid := hs
    have hstat' : (p.withPm q).read (0 : UInt8).toNat &&& usbEpRxStat = rxStatValid := hs
    unfold usbdEpReadPacket
    rw [if_pos hstat, if_pos hstat']
  · have hperiph : (usbdEpReadPacket (p.withPm q) 0 buf len).1
        = (usbdEpReadPacket p 0 buf len).1.withPm q := by
      rw [← haccesses]
      exact readPacket_accesses (p.withPm q) 0 buf len
    have hlen : min (p.withPm q).rxPacket.length len.toNat = min p.rxPacket.length len.toNat
        ∧ ∀ j < min p.rxPacket.length len.toNat,
            (p.withPm q).rxPacket.getD j 0 = p.rxPacket.getD j 0 := by
      rcases hsame with hsame | rfl
      · rw [hsame]
        exact ⟨rfl, fun _ _ => rfl⟩
      · have hzero : (0 : UInt16).toNat = 0 := rfl
        rw [hzero, Nat.min_zero, Nat.min_zero]
        exact ⟨rfl, fun j hj => absurd hj (Nat.not_lt_zero j)⟩
    have hother := usbdEpReadPacket_data (p := p.withPm q) hs buf len
    refine Prod.ext hperiph ?_
    rw [hother, usbdEpReadPacket_data hs buf len, hlen.1]
    refine Prod.ext (funext fun j => ?_) rfl
    show (if _ then _ else _) = if _ then _ else _
    by_cases hj : j < min p.rxPacket.length len.toNat
    · rw [if_pos hj, if_pos hj, hlen.2 j hj]
    · rw [if_neg hj, if_neg hj]

/-- The receive buffer lies behind the one for sending. -/
theorem usbdEpWritePacket_rxPacket {p : Periph} (h : Placed p)
    (hs : (epView (p.reg 0)).txStat ≠ txStatValid) (buf : Nat → UInt8) {len : UInt16}
    (hlen : len.toNat ≤ 64) : (usbdEpWritePacket p 0 buf len).1.rxPacket = p.rxPacket := by
  have hpm : (usbdEpWritePacket p 0 buf len).1.pm
      = Function.update (pmImage p.pm 64 buf len.toNat) 2 len := by
    rw [usbdEpWritePacket_eq h.btable h.txAddr hs, usbSetEpTxStat_pm]
  have htable : (usbdEpWritePacket p 0 buf len).1.reg regBtable = 0#16 := by
    rw [usbdEpWritePacket_eq h.btable h.txAddr hs]
    exact (Periph.write_reg_of_ne _ _ (by decide)).trans h.btable
  have hkept {k : Nat} (h2 : k ≠ 2) (hk : k < 64 ∨ 128 ≤ k) :
      Function.update (pmImage p.pm 64 buf len.toNat) 2 len k = p.pm k := by
    rw [Function.update_of_ne h2, pmImage_of_not_mem (by omega)]
  have hslot (k : Nat) : (usbdEpWritePacket p 0 buf len).1.btableSlot 0 k = 0 * 8 + k :=
    Periph.btableSlot_of_zero htable 0 k
  have hslot' (k : Nat) : p.btableSlot 0 k = 0 * 8 + k := Periph.btableSlot_of_zero h.btable 0 k
  have hbase : (0x80 : UInt16).toNat = 128 := rfl
  simp only [Periph.rxPacket, usbGetEpRxCount, usbGetEpRxAddr, hslot, hslot', hpm, Nat.zero_mul,
    Nat.zero_add, hkept (k := 4) (by decide) (Or.inl (by decide)),
    hkept (k := 6) (by decide) (Or.inl (by decide)), h.rxAddr, hbase]
  apply List.map_congr_left
  intro i _
  simp only [pmByte, hkept (k := 128 + 2 * (i / 2)) (by omega) (Or.inr (by omega))]

/-- **A packet that is written** waits in both, and the one received goes on waiting. -/
theorem SamePackets.writePacket {p : Periph} {q : Nat → UInt16} (h : SamePackets p q)
    (buf : Nat → UInt8) {len : UInt16} (hlen : len.toNat ≤ 64) :
    ∃ q', (usbdEpWritePacket (p.withPm q) 0 buf len).1
        = (usbdEpWritePacket p 0 buf len).1.withPm q'
      ∧ SamePackets (usbdEpWritePacket p 0 buf len).1 q' := by
  by_cases hs : (epView (p.reg 0)).txStat = txStatValid
  · -- one waits already
    have hstat : p.read (0 : UInt8).toNat &&& usbEpTxStat = txStatValid := hs
    have hstat' : (p.withPm q).read (0 : UInt8).toNat &&& usbEpTxStat = txStatValid := hs
    have hzero : (0 : UInt8) &&& 0x7F = 0 := rfl
    refine ⟨q, ?_⟩
    unfold usbdEpWritePacket
    rw [hzero, if_pos hstat, if_pos hstat']
    exact ⟨rfl, h⟩
  have hwrite := usbdEpWritePacket_eq h.placed.btable h.placed.txAddr hs buf len
  have hwrite' := usbdEpWritePacket_eq (p := p.withPm q) h.other.btable h.other.txAddr hs buf len
  have hother : (usbdEpWritePacket (p.withPm q) 0 buf len).1
      = (usbdEpWritePacket p 0 buf len).1.withPm
          (Function.update (pmImage q 64 buf len.toNat) 2 len) := by
    rw [hwrite, hwrite']
    exact Periph.withPm_write
      { p with pm := Function.update (pmImage p.pm 64 buf len.toNat) 2 len } _ _ _
  have hplaced {p : Periph} (h : Placed p) : Placed (usbdEpWritePacket p 0 buf len).1 := by
    rw [writePacket_accesses]
    exact run_invariant (fun _ _ hp ha => hp.run (Or.inl ha)) h
      (writePacketAccesses_confined h.toBuffers buf hlen)
  have hview : (epView ((usbdEpWritePacket p 0 buf len).1.reg 0)).rxCtr
      = (epView (p.reg 0)).rxCtr := by
    rw [hwrite]
    show (epView ((Periph.write _ 0 (setEpTxStat (p.reg 0) txStatValid)).reg 0)).rxCtr = _
    rw [Periph.write_reg_ep0, epView_setEpTxStat (by decide)]
  refine ⟨_, hother, hplaced h.placed, hother ▸ hplaced h.other, fun hr => ?_, fun _ => ?_⟩
  · rw [← hother, usbdEpWritePacket_rxPacket h.other hs buf hlen,
      usbdEpWritePacket_rxPacket h.placed hs buf hlen]
    exact h.received (hview ▸ hr)
  · rw [← hother, usbdEpWritePacket_txPacket h.other.btable h.other.txAddr hs buf hlen,
      usbdEpWritePacket_txPacket h.placed.btable h.placed.txAddr hs buf hlen, List.length_map,
      List.length_range]
    exact ⟨rfl, hlen⟩

/-! ### Requests -/

/-- The device with the packet memory `q`. -/
def Dev.withPm (d : Dev) (q : Nat → UInt16) : Dev := { d with periph := d.periph.withPm q }

@[simp] theorem Dev.withPm_usbReq (d : Dev) (q : Nat → UInt16) : (d.withPm q).usbReq = d.usbReq :=
  rfl
@[simp] theorem Dev.withPm_periph (d : Dev) (q : Nat → UInt16) :
    (d.withPm q).periph = d.periph.withPm q := rfl

/-- The reply to a request, with the packet memory `q` left behind. -/
def replyWithPm (x : UsbdRequestReturnCodes × Dev) (q : Nat → UInt16) :
    UsbdRequestReturnCodes × Dev :=
  (x.1, x.2.withPm q)

section

variable (p : Periph) (d : Dev) (q : Nat → UInt16)

theorem usbSetEpRxStat_withPm (ep : UInt8) (stat : BitVec 16) :
    usbSetEpRxStat (p.withPm q) ep stat = (usbSetEpRxStat p ep stat).withPm q :=
  p.withPm_write q _ _

theorem usbSetEpTxStat_withPm (ep : UInt8) (stat : BitVec 16) :
    usbSetEpTxStat (p.withPm q) ep stat = (usbSetEpTxStat p ep stat).withPm q :=
  p.withPm_write q _ _

theorem epStallSet_withPm (addr : UInt8) (stall : Bool) :
    epStallSet (p.withPm q) addr stall = (epStallSet p addr stall).withPm q := by
  have hclrTx (p : Periph) (ep : UInt8) :
      usbClrEpTxDtog (p.withPm q) ep = (usbClrEpTxDtog p ep).withPm q := p.withPm_write q _ _
  have hclrRx (p : Periph) (ep : UInt8) :
      usbClrEpRxDtog (p.withPm q) ep = (usbClrEpRxDtog p ep).withPm q := p.withPm_write q _ _
  unfold epStallSet
  simp only [usbSetEpTxStat_withPm, ← apply_ite (Periph.withPm · q), hclrTx, hclrRx,
    usbSetEpRxStat_withPm]

theorem disableEndpoints_withPm (n : Nat) :
    disableEndpoints (p.withPm q) n = (disableEndpoints p n).withPm q := by
  induction n with
  | zero => rfl
  | succ n ih =>
    simp only [disableEndpoints, ih, usbSetEpTxStat_withPm, usbSetEpRxStat_withPm]

theorem usbStandardGetDescriptor_withPm :
    usbStandardGetDescriptor (d.withPm q) = replyWithPm (usbStandardGetDescriptor d) q := by
  unfold usbStandardGetDescriptor
  simp only [apply_ite (replyWithPm · q)]
  rfl

theorem usbdStandardRequestDevice_withPm :
    usbdStandardRequestDevice (d.withPm q) = replyWithPm (usbdStandardRequestDevice d) q := by
  unfold usbdStandardRequestDevice
  rw [usbStandardGetDescriptor_withPm, Dev.withPm_usbReq, Dev.withPm_periph,
    disableEndpoints_withPm]
  split
  case h_1 => split <;> rfl
  case h_2 => split <;> rfl
  all_goals rfl

theorem usbdStandardRequestInterface_withPm :
    usbdStandardRequestInterface (d.withPm q) = replyWithPm (usbdStandardRequestInterface d) q := by
  unfold usbdStandardRequestInterface
  rw [Dev.withPm_usbReq]
  split <;> rfl

theorem usbdStandardRequestEndpoint_withPm :
    usbdStandardRequestEndpoint (d.withPm q) = replyWithPm (usbdStandardRequestEndpoint d) q := by
  unfold usbdStandardRequestEndpoint
  rw [Dev.withPm_usbReq, Dev.withPm_periph, epStallSet_withPm, epStallSet_withPm]
  split
  case h_1 => split <;> rfl
  case h_2 => split <;> rfl
  all_goals rfl

theorem dispatchOther_withPm : dispatchOther (d.withPm q) = replyWithPm (dispatchOther d) q := by
  unfold dispatchOther usbdStandardRequest
  rw [usbdStandardRequestDevice_withPm, usbdStandardRequestInterface_withPm,
    usbdStandardRequestEndpoint_withPm, Dev.withPm_usbReq]
  split
  · rfl
  split
  · rfl
  · split <;> rfl

/-- **Dispatching** does not look at the packet memory. -/
theorem usbControlRequestDispatch_withPm :
    usbControlRequestDispatch (d.withPm q) = replyWithPm (usbControlRequestDispatch d) q := by
  have hrequest : dispatchRequest (d.withPm q) = replyWithPm (dispatchRequest d) q := by
    cases hclass : d.usbReq.isClassInterface with
    | true =>
      have hclass' : (d.withPm q).usbReq.isClassInterface = true := hclass
      rw [dispatchRequest_class hclass, dispatchRequest_class hclass', Dev.withPm_usbReq]
      split <;> rfl
    | false =>
      have hclass' : (d.withPm q).usbReq.isClassInterface = false := hclass
      rw [dispatchRequest_other hclass, dispatchRequest_other hclass', dispatchOther_withPm]
  unfold usbControlRequestDispatch
  rw [hrequest]
  rfl

end

/-! ### Stages -/

/-- In both devices a handler does the same, and the same packets wait after it. -/
def SameAfter (x x' : Dev) : Prop := ∃ q, x' = x.withPm q ∧ SamePackets x.periph q

section

variable {d : Dev} {q : Nat → UInt16}

theorem stallTransaction_withPm (h : SamePackets d.periph q) :
    SameAfter (stallTransaction d) (stallTransaction (d.withPm q)) := by
  refine ⟨q, ?_, ?_⟩
  · unfold stallTransaction
    rw [Dev.withPm_periph, epStallSet_withPm]
    rfl
  · rw [stall_accesses]
    exact (h.runAccesses stallAccesses_plain).2

/-- NAK set or cleared on endpoint 0. -/
theorem SamePackets.nakSet {p : Periph} (h : SamePackets p q) (nak : Bool) :
    usbdEpNakSet (p.withPm q) 0 nak = (usbdEpNakSet p 0 nak).withPm q
      ∧ SamePackets (usbdEpNakSet p 0 nak) q := by
  rw [nakSet_accesses, nakSet_accesses]
  exact h.runAccesses (nakSetAccesses_plain nak)

/-- A request for one of the eight endpoints. -/
theorem SamePackets.dispatch (h : SamePackets d.periph q) (hin : ¬ OutsideRequest d.usbReq) :
    SamePackets (usbControlRequestDispatch d).2.periph q := by
  rw [dispatch_accesses]
  exact (h.runAccesses (dispatchAccesses_plain hin)).2

/-- The empty packet of a status stage. -/
theorem statusPacket_withPm (h : SamePackets d.periph q) (s : UsbFsmState) (n : UInt16) :
    SameAfter
      { d with periph := (usbdEpWritePacket d.periph 0 (fun _ => 0) 0).1, datasize := n, fsm := s }
      { d.withPm q with
        periph := (usbdEpWritePacket (d.withPm q).periph 0 (fun _ => 0) 0).1
        datasize := n
        fsm := s } := by
  have hempty : (0 : UInt16).toNat ≤ 64 := by decide
  obtain ⟨q', hsame, hpackets⟩ := h.writePacket (fun _ => 0) hempty
  refine ⟨q', ?_, hpackets⟩
  rw [Dev.withPm_periph, hsame]
  rfl

theorem writeChunk_withPm (h : SamePackets d.periph q) {n : UInt16} (hn : n.toNat ≤ 64) :
    SameAfter (writeChunk d n) (writeChunk (d.withPm q) n) := by
  obtain ⟨q', hsame, hpackets⟩ := h.writePacket (fun i => d.ctrl (d.dataoff.toNat + i)) hn
  refine ⟨q', ?_, hpackets⟩
  have hoff : (d.withPm q).dataoff = d.dataoff := rfl
  have hctrl : (d.withPm q).ctrl = d.ctrl := rfl
  unfold writeChunk
  simp only [hoff, hctrl, Dev.withPm_periph]
  rw [hsame]
  rfl

theorem usbControlSendChunk_withPm (h : SamePackets d.periph q) :
    SameAfter (usbControlSendChunk d) (usbControlSendChunk (d.withPm q)) := by
  have hsize : (d.withPm q).datasize = d.datasize := rfl
  unfold usbControlSendChunk
  rw [hsize]
  by_cases hmore : bMaxPacketSize0 < d.datasize
  · obtain ⟨q', hsame, hpackets⟩ := writeChunk_withPm h (n := bMaxPacketSize0) (by decide)
    simp only [if_pos hmore]
    rw [hsame]
    exact ⟨q', rfl, hpackets⟩
  · have hlast : d.datasize.toNat ≤ 64 := by
      have hle := mt UInt16.lt_iff_toNat_lt.mpr hmore
      have hmax : bMaxPacketSize0.toNat = 64 := rfl
      omega
    obtain ⟨q', hsame, hpackets⟩ := writeChunk_withPm h hlast
    simp only [if_neg hmore]
    rw [hsame]
    exact ⟨q', rfl, hpackets⟩

theorem usbControlSetupRead_withPm (h : SamePackets d.periph q)
    (hin : ¬ OutsideRequest d.usbReq) :
    SameAfter (usbControlSetupRead d) (usbControlSetupRead (d.withPm q)) := by
  have hdispatch : (d.withPm q).dispatchAtOnce = replyWithPm d.dispatchAtOnce q :=
    usbControlRequestDispatch_withPm { d with dataoff := 0 } q
  have hpackets : SamePackets d.dispatchAtOnce.2.periph q :=
    SamePackets.dispatch (d := { d with dataoff := 0 }) h hin
  have hcode' : (d.withPm q).dispatchAtOnce.1 = d.dispatchAtOnce.1 := by
    rw [hdispatch]
    rfl
  by_cases hcode : d.dispatchAtOnce.1 = .notsupp
  · rw [usbControlSetupRead_refused hcode, usbControlSetupRead_refused (hcode'.trans hcode),
      hdispatch]
    exact stallTransaction_withPm hpackets
  have hne : (d.withPm q).dispatchAtOnce.1 ≠ .notsupp := fun hc => hcode (hcode'.symm.trans hc)
  by_cases h0 : d.usbReq.wLength = 0
  · rw [usbControlSetupRead_status hcode h0, usbControlSetupRead_status hne h0, hdispatch]
    exact statusPacket_withPm hpackets .statusIn 0
  · rw [usbControlSetupRead_data hcode h0, usbControlSetupRead_data hne h0, hdispatch]
    exact usbControlSendChunk_withPm (d := d.dispatchAtOnce.2.replying) hpackets

theorem usbControlSetupWrite_withPm (h : SamePackets d.periph q) :
    SameAfter (usbControlSetupWrite d) (usbControlSetupWrite (d.withPm q)) := by
  unfold usbControlSetupWrite
  rw [Dev.withPm_usbReq]
  by_cases hlen : d.usbReq.wLength.toNat > dfuTransferSize
  · rw [if_pos hlen, if_pos hlen]
    exact stallTransaction_withPm h
  · obtain ⟨hsame, hpackets⟩ := h.nakSet false
    rw [if_neg hlen, if_neg hlen, Dev.withPm_periph, hsame]
    exact ⟨q, rfl, hpackets⟩

/-- The SETUP packet that waits is read. -/
theorem SamePackets.readSetup (h : SamePackets d.periph q)
    (hrx : (epView (d.periph.reg 0)).rxCtr = true) :
    usbdEpReadPacket (usbdEpNakSet (d.periph.withPm q) 0 true) 0 d.usbReq.toBytes 8
        = ((usbdEpReadPacket (usbdEpNakSet d.periph 0 true) 0 d.usbReq.toBytes 8).1.withPm q,
          (usbdEpReadPacket (usbdEpNakSet d.periph 0 true) 0 d.usbReq.toBytes 8).2)
      ∧ SamePackets (usbdEpReadPacket (usbdEpNakSet d.periph 0 true) 0 d.usbReq.toBytes 8).1 q := by
  obtain ⟨hnak, hforced⟩ := h.nakSet true
  have hpacket : ((usbdEpNakSet d.periph 0 true).withPm q).rxPacket
      = (usbdEpNakSet d.periph 0 true).rxPacket := by
    have hbtable : (usbdEpNakSet d.periph 0 true).reg regBtable = d.periph.reg regBtable :=
      hforced.placed.btable.trans h.placed.btable.symm
    have hother : ((usbdEpNakSet d.periph 0 true).withPm q).rxPacket
        = (d.periph.withPm q).rxPacket := Periph.rxPacket_congr rfl hbtable
    rw [hother, h.received hrx, Periph.rxPacket_congr (usbdEpNakSet_pm d.periph true) hbtable]
  rw [hnak]
  exact hforced.readPacket 8 (Or.inl hpacket) d.usbReq.toBytes

theorem SamePackets.nextSetup (h : SamePackets d.periph q)
    (hrx : (epView (d.periph.reg 0)).rxCtr = true) : (d.withPm q).nextSetup = d.nextSetup := by
  unfold Dev.nextSetup
  rw [Dev.withPm_periph, Dev.withPm_usbReq, (h.readSetup hrx).1]

/-- **A SETUP packet.** -/
theorem usbdControlSetup_withPm (h : SamePackets d.periph q)
    (hrx : (epView (d.periph.reg 0)).rxCtr = true)
    (hin : ∀ req, d.nextSetup = some req → req.isRead = true → ¬ OutsideRequest req) :
    SameAfter (usbdControlSetup d) (usbdControlSetup (d.withPm q)) := by
  obtain ⟨hread, hpackets⟩ := h.readSetup hrx
  have hnext := h.nextSetup hrx
  cases hreq : d.nextSetup with
  | none =>
    have hshort : (d.withPm q).shortSetup = d.shortSetup := by
      unfold Dev.shortSetup
      rw [Dev.withPm_periph, Dev.withPm_usbReq, hread]
    rw [usbdControlSetup_short hreq, usbdControlSetup_short (hnext.trans hreq), hshort,
      Dev.withPm_periph, Dev.withPm_usbReq, hread]
    exact stallTransaction_withPm (d := { d with
      usbCompleteCb := false
      periph := (usbdEpReadPacket (usbdEpNakSet d.periph 0 true) 0 d.usbReq.toBytes 8).1
      usbReq := d.shortSetup }) hpackets
  | some req =>
    have hafter : (d.withPm q).afterSetup req = (d.afterSetup req).withPm q := by
      unfold Dev.afterSetup
      rw [Dev.withPm_periph, Dev.withPm_usbReq, hread]
      rfl
    have hafterPackets : SamePackets (d.afterSetup req).periph q := hpackets
    rw [usbdControlSetup_some hreq, usbdControlSetup_some (hnext.trans hreq), hafter]
    cases hisRead : req.isRead with
    | true =>
      simp only [if_true]
      exact usbControlSetupRead_withPm hafterPackets (hin req hreq hisRead)
    | false =>
      simp only [Bool.false_eq_true, if_false]
      exact usbControlSetupWrite_withPm hafterPackets

/-- **An OUT packet.** -/
theorem usbdControlOut_withPm (h : SamePackets d.periph q)
    (hrx : (epView (d.periph.reg 0)).rxCtr = true)
    (hin : d.fsm = .lastDataOut → d.chunkFits = true → ¬ OutsideRequest d.usbReq) :
    SameAfter (usbdControlOut d) (usbdControlOut (d.withPm q)) := by
  have hfsm : (d.withPm q).fsm = d.fsm := rfl
  by_cases hstage : d.fsm = .dataOut ∨ d.fsm = .lastDataOut
  · obtain ⟨hread, hpackets⟩ := h.readPacket d.packetsize (Or.inl (h.received hrx))
      (fun i => d.ctrl (d.datasize.toNat + i))
    have hchunk : (d.withPm q).readChunk = (d.readChunk.1.withPm q, d.readChunk.2) := hread
    have hfits' : (d.withPm q).chunkFits = d.chunkFits := by
      unfold Dev.chunkFits
      rw [hchunk]
      rfl
    have hafter : (d.withPm q).afterChunk = d.afterChunk.withPm q := by
      unfold Dev.afterChunk
      rw [hchunk]
      rfl
    have hstored : (d.withPm q).stored = d.stored.withPm q := by
      unfold Dev.stored
      rw [hafter]
      rfl
    have hstoredPackets : SamePackets d.stored.periph q := hpackets
    cases hfits : d.chunkFits with
    | false =>
      rw [usbdControlOut_short hstage hfits,
        usbdControlOut_short (hfsm ▸ hstage) (hfits'.trans hfits), hafter]
      exact stallTransaction_withPm (d := d.afterChunk) hpackets
    | true =>
      rcases hstage with hdata | hlast
      · rw [usbdControlOut_dataOut hdata hfits,
          usbdControlOut_dataOut (hfsm.trans hdata) (hfits'.trans hfits), hstored]
        exact ⟨q, rfl, hpackets⟩
      · have hdispatch := hstoredPackets.dispatch (hin hlast hfits)
        rw [usbdControlOut_lastDataOut hlast hfits,
          usbdControlOut_lastDataOut (hfsm.trans hlast) (hfits'.trans hfits), hstored,
          usbControlRequestDispatch_withPm]
        by_cases hcode : (usbControlRequestDispatch d.stored).1 ≠ .notsupp
        · have hcode' : (replyWithPm (usbControlRequestDispatch d.stored) q).1 ≠ .notsupp := hcode
          rw [if_pos hcode, if_pos hcode']
          exact statusPacket_withPm hdispatch .statusIn
            (usbControlRequestDispatch d.stored).2.datasize
        · have hcode' : ¬ (replyWithPm (usbControlRequestDispatch d.stored) q).1 ≠ .notsupp := hcode
          rw [if_neg hcode, if_neg hcode']
          exact stallTransaction_withPm hdispatch
  rw [not_or] at hstage
  by_cases hstatus : d.fsm = .statusOut
  · -- of the packet of a status stage nothing is read
    obtain ⟨hread, hpackets⟩ := h.readPacket 0 (Or.inr rfl) (fun _ => 0)
    unfold usbdControlOut
    rw [hfsm, hstatus]
    simp only [Dev.withPm_periph]
    rw [hread]
    exact ⟨q, rfl, hpackets⟩
  · rw [usbdControlOut_unexpected hstage.1 hstage.2 hstatus,
      usbdControlOut_unexpected (hfsm ▸ hstage.1) (hfsm ▸ hstage.2) (hfsm ▸ hstatus)]
    exact stallTransaction_withPm h

/-- **An acknowledged IN packet.** -/
theorem usbdControlIn_withPm (h : SamePackets d.periph q) :
    SameAfter (usbdControlIn d) (usbdControlIn (d.withPm q)) := by
  unfold usbdControlIn
  rw [show (d.withPm q).fsm = d.fsm from rfl]
  cases d.fsm with
  | dataIn => exact usbControlSendChunk_withPm h
  | lastDataIn =>
    obtain ⟨hsame, hpackets⟩ := h.nakSet false
    refine ⟨q, ?_, hpackets⟩
    simp only [Dev.withPm_periph]
    rw [hsame]
    rfl
  | statusIn =>
    -- the address is latched, or nothing is accessed
    have hlatch : ∀ a ∈ [Access.latchAddress d.usbReq.wValue], a.Plain :=
      List.forall_mem_singleton.mpr ⟨Or.inr ⟨_, rfl⟩, trivial⟩
    obtain ⟨hsame, hpackets⟩ := h.runAccesses hlatch
    have hreq : (completeTransfer d).usbReq = d.usbReq := rfl
    have hreq' : (completeTransfer (d.withPm q)).usbReq = d.usbReq := rfl
    simp only [hreq, hreq']
    by_cases haddress : d.usbReq.bmRequestType = 0 ∧ d.usbReq.bRequest = 5
    · rw [if_pos haddress, if_pos haddress]
      refine ⟨q, ?_, hpackets⟩
      rw [show latchAddress (completeTransfer (d.withPm q)).periph d.usbReq.wValue = _ from hsame]
      rfl
    · rw [if_neg haddress, if_neg haddress]
      exact ⟨q, rfl, h⟩
  | _ => exact stallTransaction_withPm h

end

/-! ### The bus -/

/-- The packet to send lies before the receive buffer. -/
theorem Periph.receive_txPacket {p : Periph} (h : Buffers p) (hlen : p.txPacket.length ≤ 64)
    (buf : Nat → UInt8) (len : Nat) (r : BitVec 16) :
    (p.receive buf len r).txPacket = p.txPacket := by
  have hpm := Periph.receive_pm h.btable h.rxAddr buf len r
  have htable : (p.receive buf len r).reg regBtable = 0#16 := by
    show Function.update p.reg 0 r regBtable = 0#16
    rw [Function.update_of_ne (by decide), h.btable]
  have hkept {k : Nat} (h6 : k ≠ 6) (hk : k < 128) (c : UInt16) :
      Function.update (pmImage p.pm 128 buf len) 6 c k = p.pm k := by
    rw [Function.update_of_ne h6, pmImage_of_not_mem (Or.inl hk)]
  have hslot (k : Nat) : (p.receive buf len r).btableSlot 0 k = 0 * 8 + k :=
    Periph.btableSlot_of_zero htable 0 k
  have hslot' (k : Nat) : p.btableSlot 0 k = 0 * 8 + k := Periph.btableSlot_of_zero h.btable 0 k
  have hbase : (0x40 : UInt16).toNat = 64 := rfl
  have hcount : (p.pm 2 &&& 0x3ff).toNat ≤ 64 := by
    rw [Periph.txPacket, List.length_map, List.length_range, usbGetEpTxCount, hslot'] at hlen
    simpa only [Nat.zero_mul, Nat.zero_add] using hlen
  simp only [Periph.txPacket, usbGetEpTxCount, usbGetEpTxAddr, hslot, hslot', hpm, Nat.zero_mul,
    Nat.zero_add, hkept (k := 2) (by decide) (by decide), hkept (k := 0) (by decide) (by decide),
    h.txAddr, hbase]
  apply List.map_congr_left
  intro i hi
  rw [List.mem_range] at hi
  simp only [pmByte, hkept (k := 64 + 2 * (i / 2)) (by omega) (by omega)]

/-- **A packet that is received** waits in both, and the one to send goes on waiting. -/
theorem SamePackets.receive {p : Periph} {q : Nat → UInt16} (h : SamePackets p q)
    (buf : Nat → UInt8) {len : Nat} (hlen : len ≤ 96) {r : BitVec 16}
    (htx : (epView r).txStat = txStatValid → (epView (p.reg 0)).txStat = txStatValid) :
    ∃ q', (p.withPm q).receive buf len r = (p.receive buf len r).withPm q'
      ∧ SamePackets (p.receive buf len r) q' := by
  have hother : (p.withPm q).receive buf len r
      = (p.receive buf len r).withPm ((p.withPm q).receive buf len r).pm := rfl
  refine ⟨_, hother, h.placed.receive buf hlen r, hother ▸ h.other.receive buf hlen r,
    fun _ => ?_, fun hs => ?_⟩
  · rw [← hother, Periph.receive_rxPacket h.other.btable h.other.rxAddr buf hlen,
      Periph.receive_rxPacket h.placed.btable h.placed.rxAddr buf hlen]
  · have hvalid : (epView r).txStat = txStatValid := by
      rw [Periph.receive_reg, Function.update_self] at hs
      exact hs
    obtain ⟨hsame, hshort⟩ := h.sent (htx hvalid)
    have hshort' : (p.withPm q).txPacket.length ≤ 64 := by
      rw [hsame]
      exact hshort
    rw [← hother, Periph.receive_txPacket h.other.toBuffers hshort',
      Periph.receive_txPacket h.placed.toBuffers hshort]
    exact ⟨hsame, hshort⟩

/-- **An event on the bus.** -/
theorem SamePackets.bus {p : Periph} {q : Nat → UInt16} (h : SamePackets p q) (e : BusEvent) :
    ∃ q', (p.withPm q).bus e = (p.bus e).withPm q' ∧ SamePackets (p.bus e) q' := by
  cases e with
  | poll => exact ⟨q, rfl, h⟩
  | raise flags => exact ⟨q, rfl, h.congr rfl rfl id id⟩
  | busReset =>
    refine ⟨q, rfl, h.congr rfl rfl (fun hr => ?_) fun ht => ?_⟩
    · have hafter : (epView (p.busReset.reg 0)).rxCtr = true := hr
      rw [p.busReset_view] at hafter
      exact hafter
    · have hafter : (epView (p.busReset.reg 0)).txStat = txStatValid := ht
      rw [p.busReset_view] at hafter
      exact absurd hafter (by decide : txStatDisabled ≠ txStatValid)
  | setup req =>
    by_cases haccept : p.enabled ∧ (epView (p.reg 0)).rxStat ≠ rxStatDisabled
    · have hbus : p.bus (.setup req) = _ := if_pos haccept
      have hbus' : (p.withPm q).bus (.setup req) = _ := if_pos haccept
      rw [hbus, hbus']
      refine h.receive req.toBytes (by decide) fun hvalid => ?_
      rw [epView_epSetupReceived] at hvalid
      exact absurd hvalid (by decide : txStatNak ≠ txStatValid)
    · have hbus : p.bus (.setup req) = p := if_neg haccept
      have hbus' : (p.withPm q).bus (.setup req) = p.withPm q := if_neg haccept
      rw [hbus, hbus']
      exact ⟨q, rfl, h⟩
  | out data =>
    have hfits : rxCapacity (usbGetEpRxCount (p.withPm q) 0) = rxCapacity (usbGetEpRxCount p 0) :=
      h.other.rxCapacity.trans h.placed.rxCapacity.symm
    by_cases haccept : p.AcceptsOut data
    · have haccept' : (p.withPm q).AcceptsOut data := by
        obtain ⟨hon, hvalid, hlen⟩ := haccept
        exact ⟨hon, hvalid, hfits ▸ hlen⟩
      have hlen : data.length ≤ 96 := h.placed.rxCapacity ▸ haccept.2.2
      have hbus : p.bus (.out data) = _ := if_pos haccept
      have hbus' : (p.withPm q).bus (.out data) = _ := if_pos haccept'
      rw [hbus, hbus']
      refine h.receive _ hlen fun hvalid => ?_
      rw [epView_epOutReceived] at hvalid
      exact hvalid
    · have haccept' : ¬ (p.withPm q).AcceptsOut data := by
        rintro ⟨hon, hvalid, hlen⟩
        exact haccept ⟨hon, hvalid, hfits ▸ hlen⟩
      have hbus : p.bus (.out data) = p := if_neg haccept
      have hbus' : (p.withPm q).bus (.out data) = p.withPm q := if_neg haccept'
      rw [hbus, hbus']
      exact ⟨q, rfl, h⟩
  | ack =>
    by_cases haccept : p.enabled ∧ (epView (p.reg 0)).txStat = txStatValid
    · have hbus : p.bus .ack = _ := if_pos haccept
      have hbus' : (p.withPm q).bus .ack = _ := if_pos haccept
      have hview : epView (Function.update p.reg 0 (epInCompleted (p.reg 0)) 0)
          = { epView (p.reg 0) with txCtr := true, txStat := txStatNak } := by
        rw [Function.update_self, epView_epInCompleted]
      rw [hbus, hbus']
      have hbtable : Function.update p.reg 0 (epInCompleted (p.reg 0)) regBtable = p.reg regBtable :=
        Function.update_of_ne (by decide) _ _
      refine ⟨q, rfl, h.congr rfl hbtable (fun hr => ?_) fun ht => ?_⟩
      · simp only [hview] at hr
        exact hr
      · simp only [hview] at ht
        exact absurd ht (by decide : txStatNak ≠ txStatValid)
    · have hbus : p.bus .ack = p := if_neg haccept
      have hbus' : (p.withPm q).bus .ack = p.withPm q := if_neg haccept
      rw [hbus, hbus']
      exact ⟨q, rfl, h⟩

/-! ### Steps -/

section

variable {d : Dev} {q : Nat → UInt16}

/-- The routines that handle a bus reset, one after the other. -/
def resetRoutines : List (Periph → Periph) :=
  [(clrIstr · usbIstrReset), fun p => { p with usbPmTop := usbdPmTop },
    (usbSetEpAddr · 0 0#16), (usbSetEpType · 0 usbEpTypeControl),
    fun p => usbSetEpTxAddr p 0 p.usbPmTop, (usbClrEpTxDtog · 0), (usbSetEpTxStat · 0 txStatNak),
    fun p => { p with usbPmTop := p.usbPmTop + bMaxPacketSize0 },
    fun p => usbSetEpRxAddr p 0 p.usbPmTop, (usbSetEpRxCount · 0 0x8800), (usbClrEpRxDtog · 0),
    (usbSetEpRxStat · 0 rxStatValid), fun p => { p with usbPmTop := p.usbPmTop + bMaxPacketSize0 },
    (·.write regDaddr usbDaddrEf)]

theorem handleReset_routines (d : Dev) :
    handleReset d = { d with periph := resetRoutines.foldl (fun p f => f p) d.periph } := rfl

/-- None of them looks at the packet memory. -/
theorem resetRoutines_withPm {fs : List (Periph → Periph)} (h : fs ⊆ resetRoutines) (p : Periph)
    (q : Nat → UInt16) :
    ∃ q', fs.foldl (fun p f => f p) (p.withPm q) = (fs.foldl (fun p f => f p) p).withPm q' := by
  -- each writes a register, a static or an entry of the buffer table
  have hone : ∀ f ∈ resetRoutines, ∀ p q, ∃ q', f (Periph.withPm p q) = (f p).withPm q' := by
    unfold resetRoutines
    repeat' refine List.forall_mem_cons.mpr ⟨?_, ?_⟩
    all_goals first
      | exact List.forall_mem_nil _
      | exact fun p q => ⟨q, p.withPm_write q _ _⟩
      | exact fun _ _ => ⟨_, rfl⟩
  induction fs generalizing p q with
  | nil => exact ⟨q, rfl⟩
  | cons f fs ih =>
    obtain ⟨hf, hfs⟩ := List.cons_subset.mp h
    obtain ⟨q', hq⟩ := hone f hf p q
    simp only [List.foldl_cons, hq]
    exact ih hfs _ _

/-- **A bus reset handled**: nothing waits any more. -/
theorem handleReset_withPm (h : SamePackets d.periph q) :
    SameAfter (handleReset d) (handleReset (d.withPm q)) := by
  obtain ⟨q', hq⟩ := resetRoutines_withPm (fun _ hf => hf) d.periph q
  have hother : handleReset (d.withPm q) = (handleReset d).withPm q' := by
    rw [handleReset_routines, handleReset_routines, Dev.withPm_periph, hq]
    rfl
  have hperiph : (handleReset d).periph.withPm q' = (handleReset (d.withPm q)).periph := by
    rw [hother]
    rfl
  refine ⟨q', hother, handleReset_placed h.placed.btable, ?_, fun _ => ?_, fun ht => ?_⟩
  · rw [hperiph]
    exact handleReset_placed (d := d.withPm q) h.other.btable
  · rw [hperiph, handleReset_rxPacket, handleReset_rxPacket]
  · rw [handleReset_view] at ht
    exact absurd ht (by decide : txStatNak ≠ txStatValid)

/-- The flag of an acknowledged packet is cleared. -/
theorem SamePackets.entering (h : SamePackets d.periph q) (horderly : Orderly d.periph) :
    (d.withPm q).entering .tx = (d.entering .tx).withPm q
      ∧ SamePackets (d.entering .tx).periph q := by
  have hep : d.periph.servedEp.toNat = 0 := by
    rw [d.periph.servedEp_eq horderly.istr]
    rfl
  have hview : epView ((d.entering .tx).periph.reg 0)
      = { epView (d.periph.reg 0) with txCtr := false } := by
    have hreg : (d.entering .tx).periph.reg 0
        = epWrite (d.periph.reg 0) (clrEpTxCtr (d.periph.reg 0)) :=
      Periph.write_macro_ep0 hep clrEpTxCtr
    rw [hreg, epView_clrEpTxCtr]
  have hclr (ep : UInt8) :
      usbClrEpTxCtr (d.periph.withPm q) ep = (usbClrEpTxCtr d.periph ep).withPm q :=
    d.periph.withPm_write q _ _
  have hserved : (d.periph.withPm q).servedEp = d.periph.servedEp := rfl
  refine ⟨?_, h.congr (d.periph.write_pm _ _) (entering_reg d .tx (by decide)) (fun hr => ?_)
    fun ht => ?_⟩
  · unfold Dev.entering
    simp only [Dev.withPm_periph, hserved, hclr]
    rfl
  · rw [hview] at hr
    exact hr
  · rw [hview] at ht
    exact ht

/-- The flags at the end of a poll. -/
theorem SamePackets.flags {p : Periph} (h : SamePackets p q) (istr : BitVec 16) :
    handleFlags (p.withPm q) istr = (handleFlags p istr).withPm q
      ∧ SamePackets (handleFlags p istr) q := by
  have hclr (p : Periph) (flag : BitVec 16) :
      clrIstr (p.withPm q) flag = (clrIstr p flag).withPm q := p.withPm_write q _ _
  have hreg {i : Nat} (hcntr : i ≠ regCntr) (histr : i ≠ regIstr) :
      (handleFlags p istr).reg i = p.reg i := handleFlags_reg hcntr histr
  refine ⟨?_, h.congr (handleFlags_pm p istr) (hreg (by decide) (by decide)) (fun hr => ?_)
    fun ht => ?_⟩
  · unfold handleFlags
    simp only [hclr, ← apply_ite (Periph.withPm · q)]
    exact Periph.withPm_write _ q _ _
  · rwa [hreg (by decide) (by decide)] at hr
  · rwa [hreg (by decide) (by decide)] at ht

/-- **A handler** of a request for one of the eight endpoints. -/
theorem serve_withPm (h : SamePackets d.periph q) (horderly : Orderly d.periph)
    (hrun : d.dfu.reset = false) (hin : ¬ ReachesOutside d .poll) {s : Served}
    (hs : d.periph.served = s) : SameAfter (d.serve s) ((d.withPm q).serve s) := by
  cases s with
  | reset => exact handleReset_withPm h
  | setup =>
    exact usbdControlSetup_withPm h (horderly.of_setup hs).1 fun req hreq hread houtside =>
      hin ⟨req, Or.inl ⟨⟨hrun, rfl, hs⟩, hreq, hread⟩, houtside⟩
  | out =>
    exact usbdControlOut_withPm h (horderly.of_out hs).1 fun hlast hfits houtside =>
      hin ⟨d.usbReq, Or.inr ⟨⟨hrun, rfl, hs⟩, hlast, hfits, rfl⟩, houtside⟩
  | tx =>
    obtain ⟨hsame, hpackets⟩ := h.entering horderly
    show SameAfter (usbdControlIn (d.entering .tx)) (usbdControlIn ((d.withPm q).entering .tx))
    rw [hsame]
    exact usbdControlIn_withPm hpackets
  | nothing => exact ⟨q, rfl, h⟩

/-- **Every step** of a request for one of the eight endpoints does the same, whatever else the
    packet memory holds. -/
theorem step_withPm (h : SamePackets d.periph q) (horderly : Orderly d.periph) {e : BusEvent}
    (hin : ¬ ReachesOutside d e) : SameAfter (d.step e) ((d.withPm q).step e) := by
  have hsame : (d.withPm q).dfu.reset = d.dfu.reset := rfl
  by_cases hreset : d.dfu.reset = true
  · rw [show d.step e = d from if_pos hreset, show (d.withPm q).step e = _ from if_pos hreset]
    exact ⟨q, rfl, h⟩
  have hrun : d.dfu.reset = false := by simpa using hreset
  by_cases he : e = .poll
  · subst he
    have hserved : (d.withPm q).periph.served = d.periph.served := rfl
    obtain ⟨q', heq, hpackets⟩ := serve_withPm h horderly hrun hin rfl
    rw [step_doUsbPoll hrun, step_doUsbPoll (hsame.trans hrun), doUsbPoll_served, doUsbPoll_served,
      hserved]
    by_cases hbus : d.periph.served = .reset
    · rw [if_pos hbus, if_pos hbus]
      exact handleReset_withPm h
    · obtain ⟨hflags, hkept⟩ := hpackets.flags (d.periph.read regIstr)
      rw [if_neg hbus, if_neg hbus, heq]
      have hread : (d.withPm q).periph.read regIstr = d.periph.read regIstr := rfl
      refine ⟨q', ?_, hkept⟩
      unfold endPoll
      rw [Dev.withPm_periph, hread, hflags]
      rfl
  · obtain ⟨q', heq, hpackets⟩ := h.bus e
    rw [step_bus hrun he, step_bus (hsame.trans hrun) he, Dev.withPm_periph, heq]
    exact ⟨q', rfl, hpackets⟩

end

/-! ### The statics of the endpoints -/

/-- The access forces NAK on no endpoint but 0, and leaves `usb_pm_top` behind the buffers of
    endpoint 0. -/
def Access.KeepsStatics : Access → Prop
  | .forceNak ep _ => ep = 0
  | .pmTop top => top = 0xC0
  | _ => True

/-- An access to a register is to no static. -/
theorem Access.keepsStatics_of_reg {a : Access} {i : Nat} (ha : a.reg = some i) :
    a.KeepsStatics := by
  cases a with
  | forceNak | pmTop => exact absurd ha (by simp [Access.reg])
  | _ => trivial

theorem disableAccesses_keepsStatics (n : Nat) : ∀ a ∈ disableAccesses n, a.KeepsStatics := by
  induction n with
  | zero => exact List.forall_mem_nil _
  | succ n ih =>
    exact List.forall_mem_append.mpr
      ⟨ih, List.forall_mem_cons.mpr ⟨trivial, List.forall_mem_singleton.mpr trivial⟩⟩

theorem dispatchAccesses_keepsStatics (req : UsbSetupData) :
    ∀ a ∈ dispatchAccesses req, a.KeepsStatics := by
  unfold dispatchAccesses
  split
  · exact List.forall_mem_nil _
  unfold standardRequestAccesses
  split
  · exact List.forall_mem_nil _
  split
  · unfold deviceRequestAccesses
    split
    · exact List.forall_mem_append.mpr
        ⟨disableAccesses_keepsStatics 7, List.forall_mem_singleton.mpr rfl⟩
    · exact List.forall_mem_nil _
  split
  · unfold endpointRequestAccesses
    split
    · exact fun a ha => Access.keepsStatics_of_reg (stallSetAccesses_reg _ _ a ha)
    · exact List.forall_mem_nil _
  · exact List.forall_mem_nil _

/-- **No handler** forces NAK on another endpoint or gives packet memory away. -/
theorem accesses_keepsStatics (d : Dev) (s : Served) : ∀ a ∈ d.accesses s, a.KeepsStatics := by
  have hroutines : OfRoutines Access.KeepsStatics :=
    { nakSet := fun _ =>
        List.forall_mem_cons.mpr ⟨rfl, List.forall_mem_singleton.mpr trivial⟩
      readPacket := fun p => by
        unfold readPacketAccesses
        split_ifs
        · exact List.forall_mem_nil _
        · exact List.forall_mem_singleton.mpr trivial
        · exact List.forall_mem_cons.mpr ⟨trivial, List.forall_mem_singleton.mpr trivial⟩
      writePacket := fun p buf len => by
        unfold writePacketAccesses
        simp only
        split
        · exact List.forall_mem_nil _
        · exact List.forall_mem_cons.mpr
            ⟨trivial, List.forall_mem_cons.mpr ⟨trivial, List.forall_mem_singleton.mpr trivial⟩⟩
      stall := fun a ha => Access.keepsStatics_of_reg (stallSetAccesses_reg 0 true a ha)
      dispatch := dispatchAccesses_keepsStatics
      latchAddress := fun _ => trivial }
  exact hroutines.accesses d s

/-- NAK is forced on no endpoint but 0, and once endpoint 0 is set up `usb_pm_top` lies behind
    its buffers. -/
structure Statics (p : Periph) : Prop where
  forceNak : ∀ ep, ep ≠ 0 → p.usbForceNak ep = false
  pmTop : Silent p ∨ p.usbPmTop = 0xC0

/-- Accesses that keep them. -/
theorem runAccesses_statics {as : List Access} (has : ∀ a ∈ as, a.KeepsStatics) (p : Periph) :
    (∀ ep, ep ≠ 0 → (runAccesses p as).usbForceNak ep = p.usbForceNak ep)
      ∧ (p.usbPmTop = 0xC0 → (runAccesses p as).usbPmTop = 0xC0) := by
  induction as generalizing p with
  | nil => exact ⟨fun _ _ => rfl, id⟩
  | cons a as ih =>
    obtain ⟨ha, has⟩ := List.forall_mem_cons.mp has
    have hone : (∀ ep, ep ≠ 0 → (a.run p).usbForceNak ep = p.usbForceNak ep)
        ∧ (p.usbPmTop = 0xC0 → (a.run p).usbPmTop = 0xC0) := by
      cases a with
      | setRxStat | setTxStat | clrRxCtr | clrRxDtog | clrTxDtog =>
        exact ⟨fun ep _ => congrFun (p.write_nak _ _) ep, fun h => (p.write_usbPmTop _ _).trans h⟩
      | latchAddress wValue =>
        exact ⟨fun ep _ => congrFun (p.write_nak regDaddr _) ep,
          fun h => (p.write_usbPmTop regDaddr _).trans h⟩
      | copyToPm | setTxCount => exact ⟨fun _ _ => rfl, id⟩
      | forceNak ep' nak =>
        obtain rfl : ep' = 0 := ha
        exact ⟨fun ep hep => Function.update_of_ne hep _ _, id⟩
      | pmTop top => exact ⟨fun _ _ => rfl, fun _ => ha⟩
    obtain ⟨hnak, htop⟩ := ih has (a.run p)
    exact ⟨fun ep hep => (hnak ep hep).trans (hone.1 ep hep), fun h => htop (hone.2 h)⟩

/-- The bus does not know them. -/
theorem Periph.bus_statics (p : Periph) (e : BusEvent) :
    (p.bus e).usbForceNak = p.usbForceNak ∧ (p.bus e).usbPmTop = p.usbPmTop := by
  cases e with
  | poll | busReset | raise => exact ⟨rfl, rfl⟩
  | setup | out | ack =>
    simp only [Periph.bus]
    split <;> exact ⟨rfl, rfl⟩

theorem handleFlags_statics (p : Periph) (istr : BitVec 16) :
    (handleFlags p istr).usbForceNak = p.usbForceNak
      ∧ (handleFlags p istr).usbPmTop = p.usbPmTop := by
  have hclr (p : Periph) (c : Prop) [Decidable c] (flag : BitVec 16) :
      (if c then clrIstr p flag else p).usbForceNak = p.usbForceNak
        ∧ (if c then clrIstr p flag else p).usbPmTop = p.usbPmTop := by
    split
    · exact ⟨p.write_nak _ _, p.write_usbPmTop _ _⟩
    · exact ⟨rfl, rfl⟩
  unfold handleFlags
  simp only [Periph.write_nak, Periph.write_usbPmTop, (hclr _ _ _).1, (hclr _ _ _).2, and_self]

/-- **One step.** -/
theorem Statics.step {d : Dev} (h : Statics d.periph) (e : BusEvent) :
    Statics (d.step e).periph := by
  by_cases hreset : d.dfu.reset = true
  · rw [show d.step e = d from if_pos hreset]
    exact h
  have hrun : d.dfu.reset = false := by simpa using hreset
  by_cases he : e = .poll
  · subst he
    by_cases hserved : d.periph.served = .reset
    · rw [step_poll_reset hrun hserved]
      exact ⟨h.forceNak, Or.inr rfl⟩
    obtain ⟨hnak, htop⟩ := runAccesses_statics (accesses_keepsStatics d d.periph.served)
      (d.entering d.periph.served).periph
    have hentering : (d.entering d.periph.served).periph.usbForceNak = d.periph.usbForceNak
        ∧ (d.entering d.periph.served).periph.usbPmTop = d.periph.usbPmTop := by
      cases d.periph.served with
      | tx => exact ⟨d.periph.write_nak _ _, d.periph.write_usbPmTop _ _⟩
      | _ => exact ⟨rfl, rfl⟩
    rw [step_poll_periph hrun hserved]
    refine ⟨fun ep hep => ?_, ?_⟩
    · rw [(handleFlags_statics _ _).1, hnak ep hep, hentering.1, h.forceNak ep hep]
    rcases h.pmTop with hsilent | htop'
    · -- before the first bus reset nothing else is served
      have hnothing := hsilent.served.resolve_left hserved
      left
      rw [hnothing]
      exact hsilent.flags _
    · right
      rw [(handleFlags_statics _ _).2]
      exact htop (hentering.2.trans htop')
  · obtain ⟨hnak, htop⟩ := d.periph.bus_statics e
    rw [step_bus hrun he]
    exact ⟨fun ep hep => (congrFun hnak ep).trans (h.forceNak ep hep),
      h.pmTop.imp (fun hs => hs.bus e) fun ht => htop.trans ht⟩

/-- **In every state that can be reached.** -/
theorem reachable_statics {d : Dev} (h : Reachable d) : Statics d.periph := by
  obtain ⟨b, evs, rfl⟩ := h
  exact run_invariant' (I := fun d : Dev => Statics d.periph) (fun d e hd => hd.step e)
    ⟨fun _ _ => rfl, Or.inl (init_silent b)⟩ evs

/-! ### Past the registers -/

/-- The words past `USB_BTABLE_REG` are no registers. -/
theorem Periph.write_reg_past (p : Periph) (j : Nat) (w : BitVec 16) {i : Nat}
    (hi : regBtable < i) : (p.write j w).reg i = p.reg i := by
  by_cases hij : i = j
  · subst hij
    have hlt : 20 < i := hi
    unfold Periph.write
    rw [if_neg (by omega), if_neg (by unfold regCntr; omega), if_neg (by unfold regIstr; omega),
      if_neg (by unfold regDaddr; omega), if_neg (by unfold regBtable; omega)]
  · exact p.write_reg_of_ne w hij

theorem runAccesses_reg_past (p : Periph) (as : List Access) {i : Nat} (hi : regBtable < i) :
    (runAccesses p as).reg i = p.reg i := by
  induction as generalizing p with
  | nil => rfl
  | cons a as ih =>
    refine (ih (a.run p)).trans ?_
    cases a with
    | setRxStat | setTxStat | clrRxCtr | clrRxDtog | clrTxDtog => exact p.write_reg_past _ _ hi
    | latchAddress wValue => exact p.write_reg_past regDaddr _ hi
    | copyToPm | setTxCount | forceNak | pmTop => rfl

theorem resetRoutines_reg_past {fs : List (Periph → Periph)} (h : fs ⊆ resetRoutines) (p : Periph)
    {i : Nat} (hi : regBtable < i) : (fs.foldl (fun p f => f p) p).reg i = p.reg i := by
  have hone : ∀ f ∈ resetRoutines, ∀ p : Periph, (f p).reg i = p.reg i := by
    unfold resetRoutines
    repeat' refine List.forall_mem_cons.mpr ⟨?_, ?_⟩
    all_goals first
      | exact List.forall_mem_nil _
      | exact fun p => p.write_reg_past _ _ hi
      | exact fun _ => rfl
  induction fs generalizing p with
  | nil => rfl
  | cons f fs ih =>
    obtain ⟨hf, hfs⟩ := List.cons_subset.mp h
    exact (ih hfs (f p)).trans (hone f hf p)

/-- **One step** leaves them alone. -/
theorem step_reg_past (d : Dev) (e : BusEvent) {i : Nat} (hi : regBtable < i) :
    (d.step e).periph.reg i = d.periph.reg i := by
  have hlt : 20 < i := hi
  by_cases hreset : d.dfu.reset = true
  · rw [show d.step e = d from if_pos hreset]
  have hrun : d.dfu.reset = false := by simpa using hreset
  by_cases he : e = .poll
  · subst he
    by_cases hserved : d.periph.served = .reset
    · rw [step_poll_reset hrun hserved, handleReset_routines]
      exact resetRoutines_reg_past (fun _ hf => hf) d.periph hi
    · rw [step_poll_periph hrun hserved,
        handleFlags_reg (by unfold regCntr; omega) (by unfold regIstr; omega),
        runAccesses_reg_past _ _ hi, entering_reg d _ (by omega)]
  · rw [step_bus hrun he]
    by_cases hbus : e = .busReset
    · subst hbus
      show (if i < 8 then _ else if i = regDaddr then _ else if i = regIstr then _ else _) = _
      rw [if_neg (by omega), if_neg (by unfold regDaddr; omega), if_neg (by unfold regIstr; omega)]
    · exact Periph.bus_reg (by omega) hbus (by unfold regIstr; omega)

/-- **In every state that can be reached** they read 0. -/
theorem reachable_reg_past {d : Dev} (h : Reachable d) {i : Nat} (hi : regBtable < i) :
    d.periph.reg i = 0#16 := by
  obtain ⟨b, evs, rfl⟩ := h
  refine run_invariant' (I := fun d : Dev => d.periph.reg i = 0#16)
    (fun d e hd => (step_reg_past d e hi).trans hd) ?_ evs
  show (usbInit _).reg i = 0#16
  simp only [usbInit, Periph.write_reg_past _ _ _ hi]

end Stm32F1Dfu
