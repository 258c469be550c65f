import Stm32F1Dfu.Service

namespace Stm32F1Dfu

open LittleEndian

/-!
# Endpoint 0 as the two sides see it

`Link p x` says that the peripheral is set up for endpoint 0 and is in the state `x`: its
flags and status fields, whether NAK is forced, and the device address.  Every routine of
`usb.c` and every packet on the bus keeps it, with one change of `x` each
(`Link.setRxStat` and the others), so that no proof above this file looks at a register.

* `Link.served` — what the next poll serves;
* `Link.readPacket`, `Link.writePacket` — a packet read is the one in the receive buffer, a
  packet written the one in the transmit buffer;
* `Link.receive` — a packet received is in the receive buffer.
-/

/-- What the two sides see of endpoint 0. -/
structure Ep0 extends EpView where
  /-- `usb_force_nak[0]` -/
  nak : Bool
  /-- `USB_DADDR_REG` -/
  daddr : BitVec 16

/-- The bits of `USB_ISTR_REG` that are not stored: those of transfers, and the reset that
    was handled. -/
def istrServed : BitVec 16 := usbIstrReset ||| usbIstrCtr ||| usbIstrDir ||| usbIstrEpId

/-- The peripheral is set up, and endpoint 0 is in the state `x`. -/
structure Link (p : Periph) (x : Ep0) : Prop where
  view : epView (p.reg 0) = x.toEpView
  nak : p.usbForceNak 0 = x.nak
  daddr : p.reg regDaddr = x.daddr
  enabled : x.daddr.getLsbD 7 = true
  btable : p.reg regBtable = 0#16
  istr : p.reg regIstr &&& istrServed = 0#16
  txAddr : p.pm 0 = 0x40
  rxAddr : p.pm 4 = 0x80
  /-- the blocks of the receive buffer: 96 bytes -/
  rxBlocks : p.pm 6 &&& 0xFC00 = 0x8800

/-! ### Register accesses -/

@[simp] theorem Periph.read_ep0 (p : Periph) : p.read (0 : UInt8).toNat = p.reg 0 := rfl

@[simp] theorem Periph.write_pm (p : Periph) (i : Nat) (w : BitVec 16) :
    (p.write i w).pm = p.pm := by
  unfold Periph.write
  split_ifs <;> rfl

@[simp] theorem Periph.write_nak (p : Periph) (i : Nat) (w : BitVec 16) :
    (p.write i w).usbForceNak = p.usbForceNak := by
  unfold Periph.write
  split_ifs <;> rfl

@[simp] theorem Periph.write_usbPmTop (p : Periph) (i : Nat) (w : BitVec 16) :
    (p.write i w).usbPmTop = p.usbPmTop := by
  unfold Periph.write
  split_ifs <;> rfl

/-- A write to a register leaves the other ones alone. -/
theorem Periph.write_reg_of_ne (p : Periph) {i j : Nat} (w : BitVec 16) (h : j ≠ i) :
    (p.write i w).reg j = p.reg j := by
  unfold Periph.write
  split_ifs <;> first | exact Function.update_of_ne h _ _ | rfl

/-- A write to the register of endpoint 0. -/
theorem Periph.write_reg_ep0 (p : Periph) (w : BitVec 16) :
    (p.write 0 w).reg 0 = epWrite (p.reg 0) w := by
  unfold Periph.write
  rw [if_pos (by decide)]
  show Function.update p.reg 0 (epWrite (p.reg 0) w) 0 = _
  rw [Function.update_self]

/-- A write to another register of the endpoint block, or to one that is reserved. -/
theorem Link.write_other {p : Periph} {x : Ep0} (h : Link p x) {i : Nat} (w : BitVec 16)
    (h0 : i ≠ 0) (h16 : i < 16) : Link (p.write i w) x where
  view := by rw [p.write_reg_of_ne w h0.symm, h.view]
  nak := by rw [Periph.write_nak, h.nak]
  daddr := by rw [p.write_reg_of_ne w (by unfold regDaddr; omega), h.daddr]
  enabled := h.enabled
  btable := by rw [p.write_reg_of_ne w (by unfold regBtable; omega), h.btable]
  istr := by rw [p.write_reg_of_ne w (by unfold regIstr; omega), h.istr]
  txAddr := by rw [Periph.write_pm, h.txAddr]
  rxAddr := by rw [Periph.write_pm, h.rxAddr]
  rxBlocks := by rw [Periph.write_pm, h.rxBlocks]

/-- A write to the register of endpoint 0 whose effect on the view is known. -/
theorem Link.write_ep0 {p : Periph} {x : Ep0} (h : Link p x) {w : BitVec 16} {v : EpView}
    (hv : epView (epWrite (p.reg 0) w) = v) : Link (p.write 0 w) { x with toEpView := v } where
  view := by rw [p.write_reg_ep0, hv]
  nak := by rw [Periph.write_nak, h.nak]
  daddr := by rw [p.write_reg_of_ne w (by decide), h.daddr]
  enabled := h.enabled
  btable := by rw [p.write_reg_of_ne w (by decide), h.btable]
  istr := by rw [p.write_reg_of_ne w (by decide), h.istr]
  txAddr := by rw [Periph.write_pm, h.txAddr]
  rxAddr := by rw [Periph.write_pm, h.rxAddr]
  rxBlocks := by rw [Periph.write_pm, h.rxBlocks]

/-! ### The macros at endpoint 0 -/

section

variable {p : Periph} {x : Ep0}

theorem Link.setRxStat (h : Link p x) {stat : BitVec 16} (hs : stat &&& ~~~usbEpRxStat = 0#16) :
    Link (usbSetEpRxStat p 0 stat) { x with rxStat := stat } :=
  h.write_ep0 (by rw [p.read_ep0, epView_setEpRxStat hs, h.view])

theorem Link.setTxStat (h : Link p x) {stat : BitVec 16} (hs : stat &&& ~~~usbEpTxStat = 0#16) :
    Link (usbSetEpTxStat p 0 stat) { x with txStat := stat } :=
  h.write_ep0 (by rw [p.read_ep0, epView_setEpTxStat hs, h.view])

theorem Link.clrRxCtr (h : Link p x) : Link (usbClrEpRxCtr p 0) { x with rxCtr := false } :=
  h.write_ep0 (by rw [p.read_ep0, epView_clrEpRxCtr, h.view])

theorem Link.clrTxCtr (h : Link p x) : Link (usbClrEpTxCtr p 0) { x with txCtr := false } :=
  h.write_ep0 (by rw [p.read_ep0, epView_clrEpTxCtr, h.view])

theorem Link.clrRxDtog (h : Link p x) : Link (usbClrEpRxDtog p 0) x :=
  h.write_ep0 (by rw [p.read_ep0, epView_clrEpRxDtog, h.view])

theorem Link.clrTxDtog (h : Link p x) : Link (usbClrEpTxDtog p 0) x :=
  h.write_ep0 (by rw [p.read_ep0, epView_clrEpTxDtog, h.view])

/-- Changes that endpoint 0 does not see. -/
theorem Link.congr {p' : Periph} (h : Link p x) (hreg : p'.reg = p.reg)
    (hnak : p'.usbForceNak 0 = p.usbForceNak 0) (h0 : p'.pm 0 = p.pm 0) (h4 : p'.pm 4 = p.pm 4)
    (h6 : p'.pm 6 = p.pm 6) : Link p' x where
  view := by rw [hreg, h.view]
  nak := by rw [hnak, h.nak]
  daddr := by rw [hreg, h.daddr]
  enabled := h.enabled
  btable := by rw [hreg, h.btable]
  istr := by rw [hreg, h.istr]
  txAddr := by rw [h0, h.txAddr]
  rxAddr := by rw [h4, h.rxAddr]
  rxBlocks := by rw [h6, h.rxBlocks]

/-- `_usbd_ep_nak_set` on endpoint 0. -/
theorem Link.nakSet (h : Link p x) (nak : Bool) :
    Link (usbdEpNakSet p 0 nak)
      { x with nak := nak, rxStat := if nak then rxStatNak else rxStatValid } := by
  have hforced : Link { p with usbForceNak := Function.update p.usbForceNak 0 nak }
      { x with nak := nak } :=
    { view := h.view
      nak := by
        show Function.update p.usbForceNak 0 nak 0 = nak
        rw [Function.update_self]
      daddr := h.daddr
      enabled := h.enabled
      btable := h.btable
      istr := h.istr
      txAddr := h.txAddr
      rxAddr := h.rxAddr
      rxBlocks := h.rxBlocks }
  cases nak with
  | true => exact hforced.setRxStat (by decide)
  | false => exact hforced.setRxStat (by decide)

/-- `_ep_stall_set` on endpoint 0. -/
theorem Link.stallSet (h : Link p x) (stall : Bool) :
    Link (epStallSet p 0 stall)
      { x with txStat := if stall then txStatStall else txStatNak,
               rxStat := if stall then rxStatStall else rxStatValid } := by
  have hout : ¬ ((0 : UInt8) &&& 0x80 ≠ 0) := by decide
  simp only [epStallSet, if_true, if_neg hout]
  cases stall with
  | true => exact (h.setTxStat (by decide)).setRxStat (by decide)
  | false => exact ((h.setTxStat (by decide)).clrRxDtog).setRxStat (by decide)

@[simp] theorem usbSetEpRxStat_pm (p : Periph) (ep : UInt8) (stat : BitVec 16) :
    (usbSetEpRxStat p ep stat).pm = p.pm := p.write_pm _ _
@[simp] theorem usbSetEpTxStat_pm (p : Periph) (ep : UInt8) (stat : BitVec 16) :
    (usbSetEpTxStat p ep stat).pm = p.pm := p.write_pm _ _
@[simp] theorem usbClrEpRxCtr_pm (p : Periph) (ep : UInt8) :
    (usbClrEpRxCtr p ep).pm = p.pm := p.write_pm _ _
@[simp] theorem usbClrEpTxCtr_pm (p : Periph) (ep : UInt8) :
    (usbClrEpTxCtr p ep).pm = p.pm := p.write_pm _ _

@[simp] theorem usbdEpNakSet_pm (p : Periph) (nak : Bool) : (usbdEpNakSet p 0 nak).pm = p.pm := by
  cases nak with
  | true => exact usbSetEpRxStat_pm { p with usbForceNak := _ } 0 rxStatNak
  | false => exact usbSetEpRxStat_pm { p with usbForceNak := _ } 0 rxStatValid

/-! ### Other endpoints -/

/-- The macros and routines at another endpoint, or at a reserved register. -/
theorem Link.setRxStat_other (h : Link p x) {ep : UInt8} (h0 : ep.toNat ≠ 0)
    (h16 : ep.toNat < 16) (stat : BitVec 16) : Link (usbSetEpRxStat p ep stat) x :=
  h.write_other _ h0 h16

theorem Link.setTxStat_other (h : Link p x) {ep : UInt8} (h0 : ep.toNat ≠ 0)
    (h16 : ep.toNat < 16) (stat : BitVec 16) : Link (usbSetEpTxStat p ep stat) x :=
  h.write_other _ h0 h16

/-- The loop of `SET_CONFIGURATION`. -/
theorem Link.disableEndpoints (h : Link p x) {n : Nat} (hn : n ≤ 7) :
    Link (Stm32F1Dfu.disableEndpoints p n) x := by
  induction n with
  | zero => exact h
  | succ n ih =>
    have hep : (UInt8.ofNat (n + 1)).toNat = n + 1 := by
      rw [UInt8.toNat_ofNat']
      omega
    exact ((ih (by omega)).setTxStat_other (by omega) (by omega) _).setRxStat_other (by omega)
      (by omega) _

/-! ### Flags -/

/-- A write to `USB_ISTR_REG` can only clear flags. -/
theorem Link.write_istr (h : Link p x) (w : BitVec 16) : Link (p.write regIstr w) x where
  view := by rw [p.write_reg_of_ne w (by decide), h.view]
  nak := by rw [Periph.write_nak, h.nak]
  daddr := by rw [p.write_reg_of_ne w (by decide), h.daddr]
  enabled := h.enabled
  btable := by rw [p.write_reg_of_ne w (by decide), h.btable]
  istr := by
    show (p.reg regIstr &&& w) &&& istrServed = 0#16
    rw [BitVec.and_assoc, BitVec.and_comm w, ← BitVec.and_assoc, h.istr, BitVec.zero_and]
  txAddr := by rw [Periph.write_pm, h.txAddr]
  rxAddr := by rw [Periph.write_pm, h.rxAddr]
  rxBlocks := by rw [Periph.write_pm, h.rxBlocks]

theorem Link.write_cntr (h : Link p x) (w : BitVec 16) : Link (p.write regCntr w) x where
  view := by rw [p.write_reg_of_ne w (by decide), h.view]
  nak := by rw [Periph.write_nak, h.nak]
  daddr := by rw [p.write_reg_of_ne w (by decide), h.daddr]
  enabled := h.enabled
  btable := by rw [p.write_reg_of_ne w (by decide), h.btable]
  istr := by rw [p.write_reg_of_ne w (by decide), h.istr]
  txAddr := by rw [Periph.write_pm, h.txAddr]
  rxAddr := by rw [Periph.write_pm, h.rxAddr]
  rxBlocks := by rw [Periph.write_pm, h.rxBlocks]

/-- The flags cleared at the end of a poll. -/
theorem Link.handleFlags (h : Link p x) (istr : BitVec 16) :
    Link (Stm32F1Dfu.handleFlags p istr) x := by
  have hclr {p : Periph} (h : Link p x) (c : Prop) [Decidable c] (flag : BitVec 16) :
      Link (if c then clrIstr p flag else p) x := by
    split
    · exact h.write_istr _
    · exact h
  exact (hclr (hclr (hclr h _ _) _ _) _ _).write_cntr _

@[simp] theorem handleFlags_pm (p : Periph) (istr : BitVec 16) :
    (handleFlags p istr).pm = p.pm := by
  have hclr (p : Periph) (c : Prop) [Decidable c] (flag : BitVec 16) :
      (if c then clrIstr p flag else p).pm = p.pm := by
    split
    · exact p.write_pm _ _
    · rfl
  simp only [handleFlags, Periph.write_pm, hclr]

/-- `SET_ADDRESS` latched. -/
theorem Link.latchAddress (h : Link p x) (wValue : UInt16) :
    Link (Stm32F1Dfu.latchAddress p wValue)
      { x with daddr := (wValue.toBitVec &&& 0x007F#16) ||| usbDaddrEf } where
  view := by rw [Stm32F1Dfu.latchAddress, p.write_reg_of_ne _ (by decide), h.view]
  nak := by rw [Stm32F1Dfu.latchAddress, Periph.write_nak, h.nak]
  daddr := by
    show ((wValue.toBitVec &&& 0x007F#16) ||| usbDaddrEf) &&& 0x00FF#16 = _
    rw [BitVec.and_or_distrib_right, BitVec.and_assoc]
    rfl
  enabled := by simp [usbDaddrEf]
  btable := by rw [Stm32F1Dfu.latchAddress, p.write_reg_of_ne _ (by decide), h.btable]
  istr := by rw [Stm32F1Dfu.latchAddress, p.write_reg_of_ne _ (by decide), h.istr]
  txAddr := by rw [Stm32F1Dfu.latchAddress, Periph.write_pm, h.txAddr]
  rxAddr := by rw [Stm32F1Dfu.latchAddress, Periph.write_pm, h.rxAddr]
  rxBlocks := by rw [Stm32F1Dfu.latchAddress, Periph.write_pm, h.rxBlocks]

/-! ### What a poll serves -/

/-- The flag of a bus reset is what a poll looks at first. -/
theorem Periph.served_reset_iff (p : Periph) :
    p.served = .reset ↔ p.reg regIstr &&& usbIstrReset ≠ 0#16 := by
  have hread : p.read regIstr &&& usbIstrReset = p.reg regIstr &&& usbIstrReset := by
    have hctr : p.istrCtr &&& usbIstrReset = 0#16 := by
      unfold Periph.istrCtr
      split_ifs <;> decide
    show (p.reg regIstr ||| p.istrCtr) &&& usbIstrReset = _
    rw [BitVec.and_or_distrib_right, hctr, BitVec.or_zero]
  unfold Periph.served
  rw [hread]
  by_cases hreset : p.reg regIstr &&& usbIstrReset ≠ 0#16
  · exact iff_of_true (if_pos hreset) hreset
  · rw [if_neg hreset]
    refine iff_of_false ?_ hreset
    split_ifs <;> exact not_false

/-- The bits of `USB_ISTR_REG` that are not stored. -/
def istrTransfer : BitVec 16 := usbIstrCtr ||| usbIstrDir ||| usbIstrEpId

/-- The `SETUP` flag in the register. -/
theorem and_usbEpSetup (r : BitVec 16) : r &&& usbEpSetup = 0#16 ↔ (epView r).setup = false := by
  show r &&& usbEpSetup = 0#16 ↔ r[11] = false
  constructor
  · intro h
    have hbit := congrArg (fun v : BitVec 16 => v[11]) h
    simpa [usbEpSetup] using hbit
  · intro h
    ext i hi
    simp only [usbEpSetup, BitVec.getElem_and]
    interval_cases i <;> simp [h]

/-- Where they are not, endpoint 0 is what a poll finds in them. -/
theorem Periph.read_istr (p : Periph) (h : p.reg regIstr &&& istrTransfer = 0#16) {m : BitVec 16}
    (hm : istrTransfer &&& m = m) : p.read regIstr &&& m = p.istrCtr &&& m := by
  have hstored : p.reg regIstr &&& m = 0#16 := by
    rw [← hm, ← BitVec.and_assoc, h, BitVec.zero_and]
  show (p.reg regIstr ||| p.istrCtr) &&& m = _
  rw [BitVec.and_or_distrib_right, hstored, BitVec.zero_or]

theorem Periph.servedEp_eq (p : Periph) (h : p.reg regIstr &&& istrTransfer = 0#16) :
    p.servedEp = 0 := by
  unfold Periph.servedEp
  rw [p.read_istr h (by decide)]
  unfold Periph.istrCtr
  split_ifs <;> decide

/-- **What the next poll serves** when no bus reset is to be handled: a pending reception
    first. -/
theorem Periph.served_eq (p : Periph) (h : p.reg regIstr &&& istrTransfer = 0#16)
    (hreset : p.reg regIstr &&& usbIstrReset = 0#16) :
    p.served = if (epView (p.reg 0)).rxCtr then
        (if (epView (p.reg 0)).setup then .setup else .out)
      else if (epView (p.reg 0)).txCtr then .tx else .nothing := by
  have hflag : p.read regIstr &&& usbIstrReset = 0#16 := by
    by_contra hflag
    exact (Periph.served_reset_iff p).mp (if_pos hflag) hreset
  unfold Periph.served
  rw [if_neg (not_not_intro hflag), p.servedEp_eq h, p.read_istr h (by decide),
    p.read_istr h (by decide), Periph.read_ep0]
  unfold Periph.istrCtr
  cases (epView (p.reg 0)).rxCtr with
  | true =>
    have hsetup := and_usbEpSetup (p.reg 0)
    cases hs : (epView (p.reg 0)).setup with
    | true =>
      rw [hs] at hsetup
      simp [hsetup, usbIstrCtr, usbIstrDir]
    | false =>
      rw [hs] at hsetup
      simp [hsetup, usbIstrCtr, usbIstrDir]
  | false =>
    cases (epView (p.reg 0)).txCtr with
    | true => simp [usbIstrCtr, usbIstrDir]
    | false => simp

/-- A bit that the link keeps clear. -/
theorem Link.istr_and (h : Link p x) {m : BitVec 16} (hm : istrServed &&& m = m) :
    p.reg regIstr &&& m = 0#16 := by
  rw [← hm, ← BitVec.and_assoc, h.istr, BitVec.zero_and]

theorem Link.servedEp (h : Link p x) : p.servedEp = 0 := p.servedEp_eq (h.istr_and (by decide))

/-- **What the next poll serves**: a pending reception first. -/
theorem Link.served (h : Link p x) :
    p.served = if x.rxCtr then (if x.setup then .setup else .out)
      else if x.txCtr then .tx else .nothing := by
  rw [p.served_eq (h.istr_and (by decide)) (h.istr_and (by decide)), h.view]

/-- **A poll** is the handler of what it serves; the flags it clears are none of endpoint
    0's. -/
theorem Link.doUsbPoll {d : Dev} (h : Link d.periph x) :
    Stm32F1Dfu.doUsbPoll d
      = endPoll (d.serve (if x.rxCtr then (if x.setup then .setup else .out)
          else if x.txCtr then .tx else .nothing)) (d.periph.read regIstr) := by
  have hserved := h.served
  rw [doUsbPoll_served, if_neg, hserved]
  rw [hserved]
  split_ifs <;> simp

/-! ### Packets -/

/-- The packet in the receive buffer of endpoint 0. -/
def Periph.rxPacket (p : Periph) : List UInt8 :=
  (List.range (usbGetEpRxCount p 0 &&& 0x3ff).toNat).map (pmByte p.pm (usbGetEpRxAddr p 0).toNat)

/-- The packet in the transmit buffer of endpoint 0. -/
def Periph.txPacket (p : Periph) : List UInt8 :=
  (List.range (usbGetEpTxCount p 0 &&& 0x3ff).toNat).map (pmByte p.pm (usbGetEpTxAddr p 0).toNat)

/-- The packets are those of the packet memory and the place of the buffer table. -/
theorem Periph.btableSlot_congr {p' : Periph} (hbtable : p'.reg regBtable = p.reg regBtable)
    (k : Nat) : p'.btableSlot 0 k = p.btableSlot 0 k := by
  show (p'.reg regBtable).toNat + _ + k = (p.reg regBtable).toNat + _ + k
  rw [hbtable]

theorem Periph.rxPacket_congr {p' : Periph} (hpm : p'.pm = p.pm)
    (hbtable : p'.reg regBtable = p.reg regBtable) : p'.rxPacket = p.rxPacket := by
  simp only [Periph.rxPacket, usbGetEpRxCount, usbGetEpRxAddr, p.btableSlot_congr hbtable, hpm]

theorem Periph.txPacket_congr {p' : Periph} (hpm : p'.pm = p.pm)
    (hbtable : p'.reg regBtable = p.reg regBtable) : p'.txPacket = p.txPacket := by
  simp only [Periph.txPacket, usbGetEpTxCount, usbGetEpTxAddr, p.btableSlot_congr hbtable, hpm]

/-- A buffer table at the start of the packet memory. -/
theorem Periph.btableSlot_of_zero {p : Periph} (h : p.reg regBtable = 0#16) (ep : UInt8)
    (k : Nat) : p.btableSlot ep k = ep.toNat * 8 + k := by
  show (p.reg regBtable).toNat + ep.toNat * 8 + k = _
  rw [h]
  simp

theorem Link.slot (h : Link p x) (k : Nat) : p.btableSlot 0 k = k := by
  rw [Periph.btableSlot_of_zero h.btable]
  show 0 * 8 + k = k
  omega

/-- The packets, by the contents of the packet memory. -/
theorem Link.rxPacket_eq (h : Link p x) :
    p.rxPacket = (List.range (p.pm 6 &&& 0x3ff).toNat).map (pmByte p.pm 128) := by
  rw [Periph.rxPacket, usbGetEpRxCount, h.slot, usbGetEpRxAddr, h.slot, h.rxAddr]
  rfl

theorem Link.txPacket_eq (h : Link p x) :
    p.txPacket = (List.range (p.pm 2 &&& 0x3ff).toNat).map (pmByte p.pm 64) := by
  rw [Periph.txPacket, usbGetEpTxCount, h.slot, usbGetEpTxAddr, h.slot, h.txAddr]
  rfl

/-- A count of 96 at most, as the count field holds it. -/
theorem count_and {n : UInt16} (hn : n.toNat ≤ 96) : n &&& 0x3ff = n := by
  rw [← UInt16.toNat_inj, UInt16.toNat_and]
  show n.toNat &&& 2 ^ 10 - 1 = n.toNat
  rw [Nat.and_two_pow_sub_one_eq_mod, Nat.mod_eq_of_lt (by omega)]

/-- The count field next to the block size. -/
theorem count_or_and {c n : UInt16} (hn : n.toNat ≤ 96) :
    ((c &&& 0xFC00) ||| n) &&& 0x3ff = n := by
  rw [← UInt16.toBitVec_inj]
  have hcount := congrArg UInt16.toBitVec (count_and hn)
  rw [UInt16.toBitVec_and] at hcount
  rw [UInt16.toBitVec_and, UInt16.toBitVec_or, UInt16.toBitVec_and, BitVec.and_or_distrib_right,
    hcount, BitVec.and_assoc]
  have hblock : (0xFC00 : UInt16).toBitVec &&& (0x3ff : UInt16).toBitVec = 0#16 := by decide
  rw [hblock, BitVec.and_zero, BitVec.zero_or]

/-- The block size next to the count field. -/
theorem count_or_blocks {c n : UInt16} (hc : c &&& 0xFC00 = 0x8800) (hn : n.toNat ≤ 96) :
    ((c &&& 0xFC00) ||| n) &&& 0xFC00 = 0x8800 := by
  have hcount : n &&& 0xFC00 = 0 := by
    have hfield : (0x3ff : UInt16) &&& 0xFC00 = 0 := by decide
    rw [← count_and hn, UInt16.and_assoc, hfield, UInt16.and_zero]
  rw [hc, ← UInt16.toBitVec_inj, UInt16.toBitVec_and, UInt16.toBitVec_or,
    BitVec.and_or_distrib_right, ← UInt16.toBitVec_and, ← UInt16.toBitVec_and, hcount]
  decide

/-- The capacity that the blocks give. -/
theorem rxCapacity_of_blocks {c : UInt16} (hc : c &&& 0xFC00 = 0x8800) : rxCapacity c = 96 := by
  have hfields : rxCapacity c = rxCapacity (c &&& 0xFC00) := by
    have hblock : (c >>> 10) = (c &&& 0xFC00) >>> 10 := by
      rw [← UInt16.toBitVec_inj]
      ext i hi
      interval_cases i <;> simp
    have hsize : c &&& 0xFC00 &&& 0x8000 = c &&& 0x8000 := by
      rw [UInt16.and_assoc]
      rfl
    unfold rxCapacity
    rw [hsize, ← hblock]
  rw [hfields, hc]
  decide

theorem Link.rxCapacity (h : Link p x) :
    Stm32F1Dfu.rxCapacity (usbGetEpRxCount p 0) = 96 := by
  rw [usbGetEpRxCount, h.slot]
  exact rxCapacity_of_blocks h.rxBlocks

theorem Periph.rxPacket_length (p : Periph) :
    p.rxPacket.length = (usbGetEpRxCount p 0 &&& 0x3ff).toNat := by
  rw [Periph.rxPacket, List.length_map, List.length_range]

/-- **The bytes read** are those in the receive buffer, cut to the length asked for. -/
theorem usbdEpReadPacket_data {p : Periph} (hs : (epView (p.reg 0)).rxStat ≠ rxStatValid)
    (buf : Nat → UInt8) (len : UInt16) :
    usbdEpReadPacket p 0 buf len
      = (if (usbClrEpRxCtr p 0).usbForceNak 0 then usbClrEpRxCtr p 0
          else usbSetEpRxStat (usbClrEpRxCtr p 0) 0 rxStatValid,
        fun j => if j < min p.rxPacket.length len.toNat then p.rxPacket.getD j 0 else buf j,
        UInt16.ofNat (min p.rxPacket.length len.toNat)) := by
  have hstat : p.read (0 : UInt8).toNat &&& usbEpRxStat ≠ rxStatValid := hs
  -- the number of bytes copied
  have hsize : (if usbGetEpRxCount p 0 &&& 0x3ff < len then usbGetEpRxCount p 0 &&& 0x3ff else len)
      = UInt16.ofNat (min p.rxPacket.length len.toNat) := by
    rw [p.rxPacket_length]
    split
    · rename_i hlt
      rw [Nat.min_eq_left (Nat.le_of_lt (UInt16.lt_iff_toNat_lt.mp hlt)), UInt16.ofNat_toNat]
    · rename_i hge
      rw [UInt16.lt_iff_toNat_lt, Nat.not_lt] at hge
      rw [Nat.min_eq_right hge, UInt16.ofNat_toNat]
  have hmin : (UInt16.ofNat (min p.rxPacket.length len.toNat)).toNat
      = min p.rxPacket.length len.toNat := by
    have := len.toNat_lt
    rw [UInt16.toNat_ofNat']
    omega
  unfold usbdEpReadPacket
  rw [if_neg hstat]
  simp only [hsize]
  refine congrArg₂ Prod.mk rfl (congrArg₂ Prod.mk ?_ rfl)
  rw [copyFromPm_eq, hmin]
  funext j
  by_cases hj : j < min p.rxPacket.length len.toNat
  · have hjr : j < p.rxPacket.length := by omega
    rw [if_pos hj, if_pos hj, List.getD_eq_getElem _ _ hjr]
    simp only [Periph.rxPacket, List.getElem_map, List.getElem_range]
  · rw [if_neg hj, if_neg hj]

/-- **A packet read** is the one in the receive buffer, cut to the length asked for; without
    a forced NAK the next one may come. -/
theorem Link.readPacket (h : Link p x) (hs : x.rxStat ≠ rxStatValid) (buf : Nat → UInt8)
    (len : UInt16) :
    ∃ p', usbdEpReadPacket p 0 buf len
        = (p', fun j => if j < min p.rxPacket.length len.toNat then p.rxPacket.getD j 0 else buf j,
            UInt16.ofNat (min p.rxPacket.length len.toNat))
      ∧ Link p' { x with rxCtr := false, rxStat := if x.nak then x.rxStat else rxStatValid } := by
  refine ⟨_, usbdEpReadPacket_data (by rw [h.view]; exact hs) buf len, ?_⟩
  have hclear := h.clrRxCtr
  have hforced : (usbClrEpRxCtr p 0).usbForceNak 0 = x.nak := hclear.nak
  rw [hforced]
  by_cases hnak : x.nak = true
  · rw [if_pos hnak, if_pos hnak]
    exact hclear
  · rw [if_neg hnak, if_neg hnak]
    have hmask : rxStatValid &&& ~~~usbEpRxStat = 0#16 := by decide
    exact hclear.setRxStat hmask

/-- What `_usbd_ep_write_packet` does when no packet waits: the bytes go to the transmit
    buffer, behind the table, and their number to its entry. -/
theorem usbdEpWritePacket_eq (hbtable : p.reg regBtable = 0#16) (htx : p.pm 0 = 0x40)
    (hs : (epView (p.reg 0)).txStat ≠ txStatValid) (buf : Nat → UInt8) (len : UInt16) :
    (usbdEpWritePacket p 0 buf len).1
      = usbSetEpTxStat { p with pm := Function.update (pmImage p.pm 64 buf len.toNat) 2 len } 0
          txStatValid := by
  have hstat : p.read (0 : UInt8).toNat &&& usbEpTxStat ≠ txStatValid := hs
  have haddr : usbGetEpTxAddr p 0 = 0x40 := by
    rw [usbGetEpTxAddr, Periph.btableSlot_of_zero hbtable]
    exact htx
  have hbase : (0x40 : UInt16).toNat = 64 := rfl
  have hslot : ({ p with pm := pmImage p.pm 64 buf len.toNat } : Periph).btableSlot 0 2 = 2 :=
    Periph.btableSlot_of_zero hbtable 0 2
  unfold usbdEpWritePacket
  rw [show (0 : UInt8) &&& 0x7F = 0 from rfl, if_neg hstat]
  simp only [haddr, hbase, copyToPm_eq, usbSetEpTxCount, Periph.setSlot]
  rw [hslot]

/-- The packet in the transmit buffer is the one that was written. -/
theorem usbdEpWritePacket_txPacket (hbtable : p.reg regBtable = 0#16) (htx : p.pm 0 = 0x40)
    (hs : (epView (p.reg 0)).txStat ≠ txStatValid) (buf : Nat → UInt8) {len : UInt16}
    (hlen : len.toNat ≤ 64) :
    (usbdEpWritePacket p 0 buf len).1.txPacket = (List.range len.toNat).map buf := by
  have hpm : (usbdEpWritePacket p 0 buf len).1.pm
      = Function.update (pmImage p.pm 64 buf len.toNat) 2 len := by
    rw [usbdEpWritePacket_eq hbtable htx hs, usbSetEpTxStat_pm]
  have htable : (usbdEpWritePacket p 0 buf len).1.reg regBtable = 0#16 := by
    rw [usbdEpWritePacket_eq hbtable htx hs]
    exact (Periph.write_reg_of_ne _ _ (by decide)).trans hbtable
  have hslot (k : Nat) : (usbdEpWritePacket p 0 buf len).1.btableSlot 0 k = 0 * 8 + k :=
    Periph.btableSlot_of_zero htable 0 k
  have hbase : (0x40 : UInt16).toNat = 64 := rfl
  -- the buffer lies behind the table
  have haddr : Function.update (pmImage p.pm 64 buf len.toNat) 2 len 0 = 0x40 := by
    rw [Function.update_of_ne (by decide), pmImage_of_not_mem (by omega), htx]
  rw [Periph.txPacket, usbGetEpTxCount, usbGetEpTxAddr, hslot, hslot, hpm]
  simp only [Nat.zero_mul, Nat.zero_add]
  rw [Function.update_self, haddr, count_and (by omega), hbase]
  apply List.map_congr_left
  intro i hi
  rw [List.mem_range] at hi
  have hbyte := pmByte_pmImage p.pm 64 buf hi
  have hdata : Function.update (pmImage p.pm 64 buf len.toNat) 2 len (64 + 2 * (i / 2))
      = pmImage p.pm 64 buf len.toNat (64 + 2 * (i / 2)) := Function.update_of_ne (by omega) _ _
  rw [← hbyte]
  simp only [pmByte, hdata]

/-- **A packet written** is in the transmit buffer, ready to be sent. -/
theorem Link.writePacket (h : Link p x) (hs : x.txStat ≠ txStatValid) (buf : Nat → UInt8)
    {len : UInt16} (hlen : len.toNat ≤ 64) :
    Link (usbdEpWritePacket p 0 buf len).1 { x with txStat := txStatValid }
      ∧ (usbdEpWritePacket p 0 buf len).1.txPacket = (List.range len.toNat).map buf := by
  have hstat : (epView (p.reg 0)).txStat ≠ txStatValid := by rwa [h.view]
  refine ⟨?_, usbdEpWritePacket_txPacket h.btable h.txAddr hstat buf hlen⟩
  -- the buffer lies behind the table
  have hfilled : Link { p with pm := Function.update (pmImage p.pm 64 buf len.toNat) 2 len } x := by
    refine h.congr rfl rfl ?_ ?_ ?_
    · show Function.update (pmImage p.pm 64 buf len.toNat) 2 len 0 = p.pm 0
      rw [Function.update_of_ne (by decide), pmImage_of_not_mem (by omega)]
    · show Function.update (pmImage p.pm 64 buf len.toNat) 2 len 4 = p.pm 4
      rw [Function.update_of_ne (by decide), pmImage_of_not_mem (by omega)]
    · show Function.update (pmImage p.pm 64 buf len.toNat) 2 len 6 = p.pm 6
      rw [Function.update_of_ne (by decide), pmImage_of_not_mem (by omega)]
  rw [usbdEpWritePacket_eq h.btable h.txAddr hstat]
  have hmask : txStatValid &&& ~~~usbEpTxStat = 0#16 := by decide
  exact hfilled.setTxStat hmask

/-- The packet memory after a packet that is received. -/
theorem Periph.receive_pm (hbtable : p.reg regBtable = 0#16) (hrx : p.pm 4 = 0x80)
    (buf : Nat → UInt8) (len : Nat) (r : BitVec 16) :
    (p.receive buf len r).pm = Function.update (pmImage p.pm 128 buf len) 6
      ((p.pm 6 &&& 0xFC00) ||| UInt16.ofNat len) := by
  have haddr : usbGetEpRxAddr p 0 = 0x80 := by
    rw [usbGetEpRxAddr, Periph.btableSlot_of_zero hbtable]
    exact hrx
  have hbase : (0x80 : UInt16).toNat = 128 := rfl
  have hslot : p.btableSlot 0 6 = 6 := Periph.btableSlot_of_zero hbtable 0 6
  show Function.update (pmImage p.pm (usbGetEpRxAddr p 0).toNat buf len) (p.btableSlot 0 6)
    ((p.pm (p.btableSlot 0 6) &&& 0xFC00) ||| UInt16.ofNat len) = _
  rw [haddr, hslot, hbase]

/-- The packet in the receive buffer is the one that was received. -/
theorem Periph.receive_rxPacket (hbtable : p.reg regBtable = 0#16) (hrx : p.pm 4 = 0x80)
    (buf : Nat → UInt8) {len : Nat} (hlen : len ≤ 96) {r : BitVec 16} :
    (p.receive buf len r).rxPacket = (List.range len).map buf := by
  have hpm := Periph.receive_pm hbtable hrx buf len r
  have hlen16 : (UInt16.ofNat len).toNat = len := by
    rw [UInt16.toNat_ofNat']
    omega
  have htable : (p.receive buf len r).reg regBtable = 0#16 := by
    show Function.update p.reg 0 r regBtable = 0#16
    rw [Function.update_of_ne (by decide), hbtable]
  have hslot (k : Nat) : (p.receive buf len r).btableSlot 0 k = 0 * 8 + k :=
    Periph.btableSlot_of_zero htable 0 k
  have hbase : (0x80 : UInt16).toNat = 128 := rfl
  have haddr : Function.update (pmImage p.pm 128 buf len) 6
      ((p.pm 6 &&& 0xFC00) ||| UInt16.ofNat len) 4 = 0x80 := by
    rw [Function.update_of_ne (by decide), pmImage_of_not_mem (by omega), hrx]
  rw [Periph.rxPacket, usbGetEpRxCount, usbGetEpRxAddr, hslot, hslot, hpm]
  simp only [Nat.zero_mul, Nat.zero_add]
  rw [Function.update_self, haddr, count_or_and (by omega), hlen16, hbase]
  apply List.map_congr_left
  intro i hi
  rw [List.mem_range] at hi
  have hbyte := pmByte_pmImage p.pm 128 buf hi
  have hdata (c : UInt16) : Function.update (pmImage p.pm 128 buf len) 6 c (128 + 2 * (i / 2))
      = pmImage p.pm 128 buf len (128 + 2 * (i / 2)) := Function.update_of_ne (by omega) _ _
  rw [← hbyte]
  simp only [pmByte, hdata]

/-- **A packet received** is in the receive buffer. -/
theorem Link.receive (h : Link p x) (buf : Nat → UInt8) {len : Nat} (hlen : len ≤ 96)
    {r : BitVec 16} {v : EpView} (hr : epView r = v) :
    Link (p.receive buf len r) { x with toEpView := v }
      ∧ (p.receive buf len r).rxPacket = (List.range len).map buf := by
  refine ⟨?_, Periph.receive_rxPacket h.btable h.rxAddr buf hlen⟩
  have hpm := Periph.receive_pm h.btable h.rxAddr buf len r
  have hlen16 : (UInt16.ofNat len).toNat = len := by
    rw [UInt16.toNat_ofNat']
    omega
  have hreg (i : Nat) (hi : i ≠ 0) : (p.receive buf len r).reg i = p.reg i :=
    Function.update_of_ne hi _ _
  exact {
    view := by
      show epView (Function.update p.reg 0 r 0) = v
      rw [Function.update_self, hr]
    nak := h.nak
    daddr := by rw [hreg _ (by decide), h.daddr]
    enabled := h.enabled
    btable := by rw [hreg _ (by decide), h.btable]
    istr := by rw [hreg _ (by decide), h.istr]
    txAddr := by
      rw [hpm, Function.update_of_ne (by decide), pmImage_of_not_mem (by omega), h.txAddr]
    rxAddr := by
      rw [hpm, Function.update_of_ne (by decide), pmImage_of_not_mem (by omega), h.rxAddr]
    rxBlocks := by
      rw [hpm, Function.update_self]
      exact count_or_blocks h.rxBlocks (by omega) }

/-- The bytes of a packet, one by one. -/
theorem range_map_getD (data : List UInt8) :
    (List.range data.length).map (fun i => data.getD i 0) = data := by
  apply List.ext_getElem
  · rw [List.length_map, List.length_range]
  · intro i hi hi'
    rw [List.getElem_map, List.getElem_range, List.getD_eq_getElem _ _ hi']

/-! ### The bus -/

theorem Link.isEnabled (h : Link p x) : p.enabled = true := by
  show (p.reg regDaddr).getLsbD 7 = true
  rw [h.daddr]
  exact h.enabled

theorem Link.rxStat_eq (h : Link p x) : (epView (p.reg 0)).rxStat = x.rxStat := by rw [h.view]
theorem Link.txStat_eq (h : Link p x) : (epView (p.reg 0)).txStat = x.txStat := by rw [h.view]

/-- A SETUP packet that is accepted. -/
theorem Link.bus_setup (h : Link p x) (req : UsbSetupData) (hs : x.rxStat ≠ rxStatDisabled) :
    Link (p.bus (.setup req))
        { x with rxCtr := true, setup := true, rxStat := rxStatNak, txStat := txStatNak }
      ∧ (p.bus (.setup req)).rxPacket = (List.range 8).map req.toBytes := by
  have hbus : p.bus (.setup req) = p.receive req.toBytes 8 (epSetupReceived (p.reg 0)) :=
    if_pos ⟨h.isEnabled, by rw [h.rxStat_eq]; exact hs⟩
  rw [hbus]
  exact h.receive req.toBytes (by omega) (by rw [epView_epSetupReceived, h.view])

/-- An OUT packet that is accepted. -/
theorem Link.bus_out (h : Link p x) {data : List UInt8} (hs : x.rxStat = rxStatValid)
    (hlen : data.length ≤ 96) :
    Link (p.bus (.out data)) { x with rxCtr := true, setup := false, rxStat := rxStatNak }
      ∧ (p.bus (.out data)).rxPacket = data := by
  have hbus : p.bus (.out data)
      = p.receive (fun i => data.getD i 0) data.length (epOutReceived (p.reg 0)) :=
    if_pos ⟨h.isEnabled, by rw [h.rxStat_eq]; exact hs, by rw [h.rxCapacity]; exact hlen⟩
  rw [hbus]
  obtain ⟨hlink, hpacket⟩ := h.receive (fun i => data.getD i 0) hlen
    (show epView (epOutReceived (p.reg 0))
      = { x.toEpView with rxCtr := true, setup := false, rxStat := rxStatNak } by
        rw [epView_epOutReceived, h.view])
  exact ⟨hlink, hpacket.trans (range_map_getD data)⟩

/-- An IN packet that is fetched. -/
theorem Link.bus_ack (h : Link p x) (hs : x.txStat = txStatValid) :
    Link (p.bus .ack) { x with txCtr := true, txStat := txStatNak } := by
  have hbus : p.bus .ack
      = { p with reg := Function.update p.reg 0 (epInCompleted (p.reg 0)) } :=
    if_pos ⟨h.isEnabled, by rw [h.txStat_eq]; exact hs⟩
  have hreg (i : Nat) (hi : i ≠ 0) : (p.bus .ack).reg i = p.reg i := by
    rw [hbus]
    exact Function.update_of_ne hi _ _
  have hpm : (p.bus .ack).pm = p.pm := by rw [hbus]
  exact {
    view := by
      rw [hbus]
      show epView (Function.update p.reg 0 (epInCompleted (p.reg 0)) 0) = _
      rw [Function.update_self, epView_epInCompleted, h.view]
    nak := by
      rw [hbus]
      exact h.nak
    daddr := by rw [hreg _ (by decide), h.daddr]
    enabled := h.enabled
    btable := by rw [hreg _ (by decide), h.btable]
    istr := by rw [hreg _ (by decide), h.istr]
    txAddr := by rw [hpm, h.txAddr]
    rxAddr := by rw [hpm, h.rxAddr]
    rxBlocks := by rw [hpm, h.rxBlocks] }

/-- Packets that are not accepted change nothing. -/
theorem Link.bus_setup_ignored (h : Link p x) (req : UsbSetupData)
    (hs : x.rxStat = rxStatDisabled) :
    p.bus (.setup req) = p :=
  if_neg fun haccept => haccept.2 (by rw [h.rxStat_eq, hs])

theorem Link.bus_out_ignored (h : Link p x) (data : List UInt8) (hs : x.rxStat ≠ rxStatValid) :
    p.bus (.out data) = p :=
  if_neg fun haccept => hs (by rw [← h.rxStat_eq]; exact haccept.2.1)

theorem Link.bus_ack_ignored (h : Link p x) (hs : x.txStat ≠ txStatValid) : p.bus .ack = p :=
  if_neg fun haccept => hs (by rw [← h.txStat_eq]; exact haccept.2)

/-- Suspend, wakeup and start of frame are none of endpoint 0's. -/
theorem Link.bus_raise (h : Link p x) (flags : BitVec 16) : Link (p.bus (.raise flags)) x where
  view := h.view
  nak := h.nak
  daddr := h.daddr
  enabled := h.enabled
  btable := h.btable
  istr := by
    show (p.reg regIstr ||| (flags &&& raisable)) &&& istrServed = 0#16
    have hmask : raisable &&& istrServed = 0#16 := by decide
    rw [BitVec.and_or_distrib_right, h.istr, BitVec.zero_or, BitVec.and_assoc, hmask,
      BitVec.and_zero]
  txAddr := h.txAddr
  rxAddr := h.rxAddr
  rxBlocks := h.rxBlocks

end

/-! ### Bus reset -/

/-- `_usbd_ep_setup` on the register of endpoint 0, from its reset value: a control endpoint,
    reception VALID, transmission NAK. -/
theorem usbdEpSetup_ep0 {p : Periph} (h0 : p.reg 0 = 0#16) :
    (usbdEpSetup p 0 0 bMaxPacketSize0).reg 0 = 0x3220#16 := by
  have hchain : (usbdEpSetup p 0 0 bMaxPacketSize0).reg 0
      = [(setEpAddr · 0#16), (setEpType · usbEpTypeControl), clrEpTxDtog, (setEpTxStat · txStatNak),
          clrEpRxDtog, (setEpRxStat · rxStatValid)].foldl (fun r w => epWrite r (w r)) (p.reg 0) :=
    rfl
  rw [hchain, h0]
  decide

/-- **A bus reset handled**: endpoint 0 is set up. -/
theorem handleReset_link {d : Dev} (h0 : d.periph.reg 0 = 0#16)
    (hbtable : d.periph.reg regBtable = 0#16) (histr : d.periph.reg regIstr = usbIstrReset)
    (hnak : d.periph.usbForceNak 0 = false) :
    Link (handleReset d).periph
      ⟨⟨false, false, false, rxStatValid, txStatNak⟩, false, usbDaddrEf⟩ := by
  have hep0 : (handleReset d).periph.reg 0 = 0x3220#16 := usbdEpSetup_ep0 h0
  -- the two addresses and the count, in the order in which they are stored
  have hpm : (handleReset d).periph.pm
      = Function.update (Function.update (Function.update d.periph.pm
          ((d.periph.reg regBtable).toNat + 0 * 8 + 0) 0x40)
          ((d.periph.reg regBtable).toNat + 0 * 8 + 4) 0x80)
          ((d.periph.reg regBtable).toNat + 0 * 8 + 6) 0x8800 := rfl
  rw [hbtable] at hpm
  exact {
    view := by
      rw [hep0]
      decide
    nak := hnak
    daddr := rfl
    enabled := by decide
    btable := hbtable
    istr := by
      show (d.periph.reg regIstr &&& ~~~usbIstrReset) &&& istrServed = 0#16
      rw [histr]
      decide
    txAddr := by
      rw [hpm]
      rfl
    rxAddr := by
      rw [hpm]
      rfl
    rxBlocks := by
      have hcount : (handleReset d).periph.pm 6 = 0x8800 := by
        rw [hpm]
        rfl
      rw [hcount]
      rfl }

/-- The registers after `usb_init` and a bus reset. -/
theorem init_busReset_reg (b : Board) :
    (∀ i < 8, (Dev.init b).periph.busReset.reg i = 0#16)
      ∧ (Dev.init b).periph.busReset.reg regBtable = 0#16
      ∧ (Dev.init b).periph.busReset.reg regIstr = usbIstrReset := by
  refine ⟨fun i hi => ?_, by with_unfolding_all rfl, by with_unfolding_all rfl⟩
  interval_cases i <;> with_unfolding_all rfl

/-- The first poll after a bus reset handles it. -/
theorem run_busReset (b : Board) :
    (Dev.init b).run [.busReset, .poll]
      = handleReset { Dev.init b with periph := (Dev.init b).periph.busReset } := by
  obtain ⟨hregs, -, histr⟩ := init_busReset_reg b
  apply if_pos
  show ((Dev.init b).periph.busReset.reg regIstr ||| (Dev.init b).periph.busReset.istrCtr)
    &&& usbIstrReset ≠ 0#16
  rw [histr, Periph.istrCtr, hregs 0 (by decide)]
  decide

/-- Endpoint 0 when the host begins. -/
theorem init_link (b : Board) :
    Link ((Dev.init b).run [.busReset, .poll]).periph
      ⟨⟨false, false, false, rxStatValid, txStatNak⟩, false, usbDaddrEf⟩ := by
  obtain ⟨hregs, hbtable, histr⟩ := init_busReset_reg b
  rw [run_busReset]
  exact handleReset_link (hregs 0 (by decide)) hbtable histr rfl

end Stm32F1Dfu
