import Stm32F1Dfu.Confinement
import Stm32F1Dfu.Transfers

namespace Stm32F1Dfu

open Machine

/-!
# The device address and the registers over whole runs

* `nextAddress` — the address the device is given, by a bus reset or in the status stage of
  a `SET_ADDRESS`;
* `AddressKept` — the invariant: the device has that address, and the buffers of endpoint 0
  are where they were set up;
* `run_accesses_iff` — every run keeps to the endpoint registers and has the right address
  exactly when no step reaches an endpoint past 7;
* `clearFeature_writes_btable` — a run that moves the buffer table.
-/

/-- The device address. -/
def Dev.address (d : Dev) : Nat := (d.periph.reg regDaddr &&& 0x007F#16).toNat

/-- The address the device is given: 0 by a bus reset, and the one of a `SET_ADDRESS` in its
    status stage. -/
def nextAddress (d : Dev) (e : BusEvent) (address : Nat) : Nat :=
  if d.dfu.reset = false ∧ e = .busReset then 0
  else if d.Polls e .tx ∧ d.LatchesAddress then d.usbReq.wValue.toNat
  else address

/-- The device, and beside it the address it was last given. -/
def trackAddress (s : Dev × Nat) (e : BusEvent) : Dev × Nat :=
  (s.1.step e, nextAddress s.1 e s.2)

/-- What is asked of a step: its accesses are confined, and the device then has the address
    it was last given. -/
def StepConfined (s : Dev × Nat) (e : BusEvent) : Prop :=
  AccessesConfined s.1 e ∧ (trackAddress s e).1.address = (trackAddress s e).2

/-! ### Before the first bus reset -/

/-- Nothing can be received or sent, and nothing is served but a bus reset. -/
structure Silent (p : Periph) : Prop where
  disabled : p.enabled = false
  rxCtr : (epView (p.reg 0)).rxCtr = false
  txCtr : (epView (p.reg 0)).txCtr = false
  istr : p.reg regIstr &&& usbIstrCtr = 0#16
  btable : p.reg regBtable = 0#16

theorem Silent.served {p : Periph} (h : Silent p) : p.served = .reset ∨ p.served = .nothing := by
  have hctr : p.read regIstr &&& usbIstrCtr = 0#16 := by
    show (p.reg regIstr ||| p.istrCtr) &&& usbIstrCtr = 0#16
    rw [Periph.istrCtr, h.rxCtr, h.txCtr]
    simpa using h.istr
  unfold Periph.served
  by_cases hreset : p.read regIstr &&& usbIstrReset ≠ 0#16
  · exact Or.inl (if_pos hreset)
  · right
    rw [if_neg hreset, if_pos hctr]

/-! ### The bus -/

/-- What a packet that is received leaves alone. -/
theorem Buffers.receive {p : Periph} (h : Buffers p) (buf : Nat → UInt8) (len : Nat)
    (r : BitVec 16) : Buffers (p.receive buf len r) := by
  have hpm := Periph.receive_pm h.btable h.rxAddr buf len r
  refine ⟨?_, ?_, ?_⟩
  · show Function.update p.reg 0 r regBtable = _
    rw [Function.update_of_ne (by decide), h.btable]
  · rw [hpm, Function.update_of_ne (by decide), pmImage_of_not_mem (by omega), h.txAddr]
  · rw [hpm, Function.update_of_ne (by decide), pmImage_of_not_mem (by omega), h.rxAddr]

/-- The capacity of the receive buffer. -/
theorem Placed.rxCapacity {p : Periph} (h : Placed p) :
    Stm32F1Dfu.rxCapacity (usbGetEpRxCount p 0) = 96 := by
  rw [usbGetEpRxCount, Periph.btableSlot_of_zero h.btable]
  exact rxCapacity_of_blocks h.rxBlocks

/-- A packet that fits into it. -/
theorem Placed.receive {p : Periph} (h : Placed p) (buf : Nat → UInt8) {len : Nat}
    (hlen : len ≤ 96) (r : BitVec 16) : Placed (p.receive buf len r) where
  toBuffers := h.toBuffers.receive buf len r
  rxBlocks := by
    have hcount : (UInt16.ofNat len).toNat ≤ 96 := by
      rw [UInt16.toNat_ofNat']
      omega
    rw [Periph.receive_pm h.btable h.rxAddr, Function.update_self]
    exact count_or_blocks h.rxBlocks hcount

/-- A register but that of endpoint 0, over an event that is no bus reset and raises no
    flag. -/
theorem Periph.bus_reg {p : Periph} {e : BusEvent} {i : Nat} (hi : i ≠ 0)
    (hreset : e ≠ .busReset) (hraise : i ≠ regIstr) : (p.bus e).reg i = p.reg i := by
  cases e with
  | poll => rfl
  | busReset => exact absurd rfl hreset
  | raise flags => exact Function.update_of_ne hraise _ _
  | setup req =>
    simp only [Periph.bus]
    split
    · exact Function.update_of_ne hi _ _
    · rfl
  | out data =>
    simp only [Periph.bus]
    split
    · exact Function.update_of_ne hi _ _
    · rfl
  | ack =>
    simp only [Periph.bus]
    split
    · exact Function.update_of_ne hi _ _
    · rfl

/-- A packet for a peripheral that handles none. -/
theorem Periph.bus_disabled {p : Periph} (h : p.enabled = false) {e : BusEvent}
    (hreset : e ≠ .busReset) (hraise : ∀ flags, e ≠ .raise flags) : p.bus e = p := by
  have hoff : ¬ p.enabled = true := by simp [h]
  cases e with
  | poll => rfl
  | busReset => exact absurd rfl hreset
  | raise flags => exact absurd rfl (hraise flags)
  | setup req => exact if_neg fun haccept => hoff haccept.1
  | out data => exact if_neg fun haccept => hoff haccept.1
  | ack => exact if_neg fun haccept => hoff haccept.1

theorem Silent.bus {p : Periph} (h : Silent p) (e : BusEvent) : Silent (p.bus e) := by
  by_cases hreset : e = .busReset
  · subst hreset
    exact {
      disabled := by
        have hoff : p.busReset.reg regDaddr = 0#16 := rfl
        show (p.busReset.reg regDaddr).getLsbD 7 = false
        rw [hoff]
        rfl
      rxCtr := by
        have hflag : (p.reg 0)[15] = false := h.rxCtr
        show (p.reg 0 &&& (usbEpRxCtr ||| usbEpTxCtr))[15] = false
        rw [BitVec.getElem_and, hflag, Bool.false_and]
      txCtr := by
        have hflag : (p.reg 0)[7] = false := h.txCtr
        show (p.reg 0 &&& (usbEpRxCtr ||| usbEpTxCtr))[7] = false
        rw [BitVec.getElem_and, hflag, Bool.false_and]
      istr := by
        show (p.reg regIstr ||| usbIstrReset) &&& usbIstrCtr = 0#16
        rw [BitVec.and_or_distrib_right, h.istr]
        decide
      btable := h.btable }
  by_cases hraise : ∃ flags, e = .raise flags
  · obtain ⟨flags, rfl⟩ := hraise
    exact {
      disabled := h.disabled
      rxCtr := h.rxCtr
      txCtr := h.txCtr
      istr := by
        have hmask : raisable &&& usbIstrCtr = 0#16 := by decide
        show (p.reg regIstr ||| (flags &&& raisable)) &&& usbIstrCtr = 0#16
        rw [BitVec.and_or_distrib_right, h.istr, BitVec.zero_or, BitVec.and_assoc, hmask,
          BitVec.and_zero]
      btable := h.btable }
  · rw [Periph.bus_disabled h.disabled hreset fun flags he => hraise ⟨flags, he⟩]
    exact h

theorem Buffers.bus {p : Periph} (h : Buffers p) (e : BusEvent) : Buffers (p.bus e) := by
  cases e with
  | poll => exact h
  | busReset => exact ⟨h.btable, h.txAddr, h.rxAddr⟩
  | raise flags => exact ⟨h.btable, h.txAddr, h.rxAddr⟩
  | setup req =>
    simp only [Periph.bus]
    split
    · exact h.receive _ _ _
    · exact h
  | out data =>
    simp only [Periph.bus]
    split
    · exact h.receive _ _ _
    · exact h
  | ack =>
    simp only [Periph.bus]
    split
    · exact ⟨h.btable, h.txAddr, h.rxAddr⟩
    · exact h

/-- No packet is accepted that would reach the block size. -/
theorem Placed.bus {p : Periph} (h : Placed p) (e : BusEvent) : Placed (p.bus e) where
  toBuffers := h.toBuffers.bus e
  rxBlocks := by
    cases e with
    | poll | busReset | raise => exact h.rxBlocks
    | setup req =>
      simp only [Periph.bus]
      split
      · exact (h.receive _ (by omega) _).rxBlocks
      · exact h.rxBlocks
    | out data =>
      simp only [Periph.bus]
      split
      · rename_i haccept
        have hfits : data.length ≤ 96 := h.rxCapacity ▸ haccept.2.2
        exact (h.receive _ hfits _).rxBlocks
      · exact h.rxBlocks
    | ack =>
      simp only [Periph.bus]
      split <;> exact h.rxBlocks

/-- The flag of a bus reset, over every other event. -/
theorem Periph.bus_reset {p : Periph} {e : BusEvent} (hreset : e ≠ .busReset) :
    (p.bus e).reg regIstr &&& usbIstrReset = p.reg regIstr &&& usbIstrReset := by
  by_cases hraise : ∃ flags, e = .raise flags
  · obtain ⟨flags, rfl⟩ := hraise
    have hmask : raisable &&& usbIstrReset = 0#16 := by decide
    show (p.reg regIstr ||| (flags &&& raisable)) &&& usbIstrReset = _
    rw [BitVec.and_or_distrib_right, BitVec.and_assoc, hmask, BitVec.and_zero, BitVec.or_zero]
  · cases e with
    | poll => rfl
    | busReset => exact absurd rfl hreset
    | raise flags => exact absurd ⟨flags, rfl⟩ hraise
    | setup req | out data | ack =>
      simp only [Periph.bus]
      split <;> rfl

/-! ### Polls -/

/-- The registers after a poll that serves no bus reset: those after the accesses of the
    handler, but for the flags. -/
theorem step_poll_periph {d : Dev} (h : d.dfu.reset = false) (hs : d.periph.served ≠ .reset) :
    (d.step .poll).periph
      = handleFlags (runAccesses (d.entering d.periph.served).periph (d.accesses d.periph.served))
          (d.periph.read regIstr) := by
  rw [step_doUsbPoll h, doUsbPoll_served, if_neg hs, ← serve_accesses d hs]
  rfl

/-- A poll that serves a bus reset. -/
theorem step_poll_reset {d : Dev} (h : d.dfu.reset = false) (hs : d.periph.served = .reset) :
    d.step .poll = handleReset d := by
  rw [step_doUsbPoll h, doUsbPoll_served, if_pos hs]

/-- A register that the flags at the end of a poll are not in. -/
theorem handleFlags_reg {p : Periph} {istr : BitVec 16} {i : Nat} (hcntr : i ≠ regCntr)
    (histr : i ≠ regIstr) : (handleFlags p istr).reg i = p.reg i := by
  have hclr (p : Periph) (c : Prop) [Decidable c] (flag : BitVec 16) :
      (if c then clrIstr p flag else p).reg i = p.reg i := by
    split
    · exact p.write_reg_of_ne _ histr
    · rfl
  unfold handleFlags
  simp only
  rw [Periph.write_reg_of_ne _ _ hcntr, hclr, hclr, hclr]

theorem Buffers.flags {p : Periph} (h : Buffers p) (istr : BitVec 16) :
    Buffers (handleFlags p istr) where
  btable := by rw [handleFlags_reg (by decide) (by decide), h.btable]
  txAddr := by rw [handleFlags_pm, h.txAddr]
  rxAddr := by rw [handleFlags_pm, h.rxAddr]

theorem Placed.flags {p : Periph} (h : Placed p) (istr : BitVec 16) :
    Placed (handleFlags p istr) where
  toBuffers := h.toBuffers.flags istr
  rxBlocks := by rw [handleFlags_pm, h.rxBlocks]

/-- Clearing flags sets none. -/
theorem handleFlags_istr {p : Periph} {m : BitVec 16} (h : p.reg regIstr &&& m = 0#16)
    (istr : BitVec 16) : (handleFlags p istr).reg regIstr &&& m = 0#16 := by
  have hclr {p : Periph} (h : p.reg regIstr &&& m = 0#16) (c : Prop) [Decidable c]
      (flag : BitVec 16) : (if c then clrIstr p flag else p).reg regIstr &&& m = 0#16 := by
    split
    · show (p.reg regIstr &&& ~~~flag) &&& m = 0#16
      rw [BitVec.and_assoc, BitVec.and_comm (~~~flag), ← BitVec.and_assoc, h, BitVec.zero_and]
    · exact h
  unfold handleFlags
  simp only
  rw [Periph.write_reg_of_ne _ _ (by decide)]
  exact hclr (hclr (hclr h _ _) _ _) _ _

theorem Silent.flags {p : Periph} (h : Silent p) (istr : BitVec 16) :
    Silent (handleFlags p istr) where
  disabled := by
    show ((handleFlags p istr).reg regDaddr).getLsbD 7 = false
    rw [handleFlags_reg (by decide) (by decide)]
    exact h.disabled
  rxCtr := by rw [handleFlags_reg (by decide) (by decide), h.rxCtr]
  txCtr := by rw [handleFlags_reg (by decide) (by decide), h.txCtr]
  istr := handleFlags_istr h.istr istr
  btable := by rw [handleFlags_reg (by decide) (by decide), h.btable]

/-- **A bus reset handled** sets the buffers of endpoint 0 up. -/
theorem handleReset_placed {d : Dev} (h : d.periph.reg regBtable = 0#16) :
    Placed (handleReset d).periph := by
  have hpm : (handleReset d).periph.pm
      = Function.update (Function.update (Function.update d.periph.pm
          ((d.periph.reg regBtable).toNat + 0 * 8 + 0) 0x40)
          ((d.periph.reg regBtable).toNat + 0 * 8 + 4) 0x80)
          ((d.periph.reg regBtable).toNat + 0 * 8 + 6) 0x8800 := rfl
  rw [h] at hpm
  refine ⟨⟨h, ?_, ?_⟩, ?_⟩
  · rw [hpm]
    rfl
  · rw [hpm]
    rfl
  · have hcount : (handleReset d).periph.pm 6 = 0x8800 := by
      rw [hpm]
      rfl
    rw [hcount]
    rfl

/-- Accesses that are confined write no register past the endpoint registers. -/
theorem ConfinedFrom.reg {p : Periph} {as : List Access} (h : ConfinedFrom p as) {i : Nat}
    (hi : 8 ≤ i) : (runAccesses p as).reg i = p.reg i := by
  apply runAccesses_reg
  intro a ha hreg
  obtain ⟨p', hp'⟩ := h.exists_of_mem ha
  exact Access.not_confined_of_reg hreg hi p' hp'

/-- Clearing the flag of an acknowledged packet writes no register past those of the
    endpoints and the reserved ones. -/
theorem entering_reg (d : Dev) (s : Served) {i : Nat} (hi : 16 ≤ i) :
    (d.entering s).periph.reg i = d.periph.reg i := by
  cases s with
  | tx =>
    have hep := d.periph.servedEp_lt
    exact d.periph.write_reg_of_ne _ (by omega)
  | _ => rfl

/-- The address in the register that `SET_ADDRESS` writes. -/
theorem latchAddress_address {p : Periph} {wValue : UInt16} (h : wValue < 128) :
    ((Stm32F1Dfu.latchAddress p wValue).reg regDaddr &&& 0x007F#16).toNat = wValue.toNat := by
  have hlt : wValue.toNat < 128 := UInt16.lt_iff_toNat_lt.mp h
  have hreg : (Stm32F1Dfu.latchAddress p wValue).reg regDaddr
      = ((wValue.toBitVec &&& 0x007F#16) ||| usbDaddrEf) &&& 0x00FF#16 := rfl
  have hbits : (Stm32F1Dfu.latchAddress p wValue).reg regDaddr &&& 0x007F#16
      = wValue.toBitVec &&& 0x007F#16 := by
    have hef : usbDaddrEf &&& 0x007F#16 = 0#16 := by decide
    have hmask : (0x00FF#16 : BitVec 16) &&& 0x007F#16 = 0x007F#16 := by decide
    rw [hreg, BitVec.and_assoc, hmask, BitVec.and_or_distrib_right, hef, BitVec.or_zero,
      BitVec.and_assoc, BitVec.and_self]
  rw [hbits, BitVec.toNat_and]
  show wValue.toNat &&& 2 ^ 7 - 1 = _
  rw [Nat.and_two_pow_sub_one_eq_mod, Nat.mod_eq_of_lt (by omega)]

/-! ### The invariant -/

/-- The device has the address it was last given, and endpoint 0 its buffers. -/
structure AddressKept (d : Dev) (given : Nat) : Prop where
  ready : Silent d.periph ∨ Placed d.periph
  address : d.address = given
  /-- a bus reset that is not handled yet has cleared the address -/
  pending : d.periph.reg regIstr &&& usbIstrReset ≠ 0#16 → given = 0
  stage : StageHandled d

theorem AddressKept.btable {d : Dev} {a : Nat} (h : AddressKept d a) :
    d.periph.reg regBtable = 0#16 := by
  rcases h.ready with hsilent | hplaced
  · exact hsilent.btable
  · exact hplaced.btable

/-- What is served has its buffers. -/
theorem AddressKept.placed {d : Dev} {a : Nat} (h : AddressKept d a) {e : BusEvent} {s : Served}
    (hs : d.Polls e s) (hreset : s ≠ .reset) (hnothing : s ≠ .nothing) : Placed d.periph := by
  rcases h.ready with hsilent | hplaced
  · rcases hsilent.served with hserved | hserved
    · exact absurd (hs.2.2.symm.trans hserved) hreset
    · exact absurd (hs.2.2.symm.trans hserved) hnothing
  · exact hplaced

/-- The registers past those of the endpoints, over a handler: only the address, in the
    status stage of a `SET_ADDRESS`. -/
theorem AddressKept.accesses_reg {d : Dev} {a : Nat} (h : AddressKept d a) {e : BusEvent}
    {s : Served} (hs : d.Polls e s) (hreset : s ≠ .reset) (hout : ¬ ReachesOutside d e) {i : Nat}
    (hi : 16 ≤ i) (hlatch : i = regDaddr → ¬ (s = .tx ∧ d.LatchesAddress)) :
    (runAccesses (d.entering s).periph (d.accesses s)).reg i = d.periph.reg i := by
  by_cases hnothing : s = .nothing
  · subst hnothing
    rfl
  have hplaced := h.placed hs hreset hnothing
  by_cases haddress : s = .tx ∧ d.fsm = .statusIn ∧ d.usbReq.isSetAddress = true
  · obtain ⟨rfl, hfsm, hreq⟩ := haddress
    obtain ⟨hlog, hvalue⟩ := h.stage hfsm
    have hne : i ≠ regDaddr := fun hi => hlatch hi ⟨rfl, hfsm, hreq, hvalue hreq, hlog⟩
    have haccesses : d.accesses .tx = [.latchAddress d.usbReq.wValue] :=
      accesses_of_statusIn hfsm hreq
    rw [haccesses]
    show (Stm32F1Dfu.latchAddress (d.entering .tx).periph d.usbReq.wValue).reg i = _
    rw [Stm32F1Dfu.latchAddress, Periph.write_reg_of_ne _ _ hne, entering_reg d .tx hi]
  · rw [(accesses_confined hs hplaced.toBuffers hout haddress).reg (by omega), entering_reg d s hi]

/-- **One step.** -/
theorem AddressKept.step {d : Dev} {a : Nat} (h : AddressKept d a) {e : BusEvent}
    (hout : ¬ ReachesOutside d e) : AddressKept (d.step e) (nextAddress d e a) := by
  have hstage := (step_turn d e).stageHandled h.stage
  by_cases hrun : d.dfu.reset = true
  · -- nothing happens any more
    have hsame : d.step e = d := by simp [Dev.step, hrun]
    have haddress : nextAddress d e a = a := by simp [nextAddress, Dev.Polls, hrun]
    rw [hsame, haddress]
    exact h
  have hrun : d.dfu.reset = false := by simpa using hrun
  by_cases hbus : e = .busReset
  · subst hbus
    have haddress : nextAddress d .busReset a = 0 := if_pos ⟨hrun, rfl⟩
    rw [step_bus hrun (by decide)] at hstage ⊢
    rw [haddress]
    have hdaddr : d.periph.busReset.reg regDaddr = 0#16 := rfl
    refine ⟨?_, ?_, fun _ => rfl, hstage⟩
    · exact h.ready.imp (fun hq => hq.bus .busReset) (fun hb => hb.bus .busReset)
    · show (d.periph.busReset.reg regDaddr &&& 0x007F#16).toNat = 0
      rw [hdaddr]
      rfl
  by_cases hpoll : e = .poll
  · subst hpoll
    by_cases hserved : d.periph.served = .reset
    · -- the bus reset is handled: the address was 0, and is
      have hzero : a = 0 := h.pending ((Periph.served_reset_iff _).mp hserved)
      have hnotx : ¬ d.Polls .poll .tx := fun htx =>
        Served.noConfusion (htx.2.2.symm.trans hserved)
      have haddress : nextAddress d .poll a = 0 := by
        simp [nextAddress, hnotx, hzero]
      rw [step_poll_reset hrun hserved] at hstage ⊢
      rw [haddress]
      have hdaddr : (handleReset d).periph.reg regDaddr = usbDaddrEf := rfl
      refine ⟨Or.inr (handleReset_placed h.btable), ?_, fun _ => rfl, hstage⟩
      unfold Dev.address
      rw [hdaddr]
      rfl
    have hs : d.Polls .poll d.periph.served := ⟨hrun, rfl, rfl⟩
    have hflag : d.periph.reg regIstr &&& usbIstrReset = 0#16 := by
      by_contra hflag
      exact hserved ((Periph.served_reset_iff _).mpr hflag)
    have hperiph := step_poll_periph hrun hserved
    refine ⟨?_, ?_, ?_, hstage⟩
    · by_cases hnothing : d.periph.served = .nothing
      · have hsame : (d.step .poll).periph
            = handleFlags d.periph (d.periph.read regIstr) := by
          rw [hperiph, hnothing]
          rfl
        rw [hsame]
        exact h.ready.imp (fun hq => hq.flags _) (fun hb => hb.flags _)
      · right
        have hplaced := h.placed hs hserved hnothing
        have hconfined := accessesConfined_of_not_reachesOutside h.stage
          (fun s hs hr hn => (h.placed hs hr hn).toBuffers) hout
        rw [hperiph]
        exact ((hplaced.entering _).runAccesses (hconfined _ hs)).flags _
    · by_cases hlatch : d.Polls .poll .tx ∧ d.LatchesAddress
      · obtain ⟨htx, hlatch⟩ := hlatch
        have haddress : nextAddress d .poll a = d.usbReq.wValue.toNat := by
          simp [nextAddress, htx, hlatch]
        have haccesses : d.accesses .tx = [.latchAddress d.usbReq.wValue] :=
          accesses_of_statusIn hlatch.1 hlatch.2.1
        rw [haddress]
        unfold Dev.address
        rw [hperiph, handleFlags_reg (by decide) (by decide), htx.2.2, haccesses]
        exact latchAddress_address hlatch.2.2.1
      · have haddress : nextAddress d .poll a = a := by
          simp [nextAddress, hlatch]
        have hreg := h.accesses_reg (i := regDaddr) hs hserved hout (by decide)
          fun _ htx => hlatch ⟨htx.1 ▸ hs, htx.2⟩
        rw [haddress, ← h.address]
        unfold Dev.address
        rw [hperiph, handleFlags_reg (by decide) (by decide), hreg]
    · intro hpending
      have hreg := h.accesses_reg (i := regIstr) hs hserved hout (by decide)
        fun hi => absurd hi (by decide)
      refine absurd ?_ hpending
      rw [hperiph]
      apply handleFlags_istr
      rw [hreg, hflag]
  · -- a packet or a flag: the address and the flag of a bus reset stay
    have hnotx : ¬ d.Polls e .tx := fun htx => hpoll htx.2.1
    have haddress : nextAddress d e a = a := by
      simp [nextAddress, hbus, hnotx]
    rw [step_bus hrun hpoll] at hstage ⊢
    rw [haddress]
    refine ⟨h.ready.imp (fun hq => hq.bus e) (fun hb => hb.bus e), ?_, ?_, hstage⟩
    · rw [← h.address]
      unfold Dev.address
      simp only
      rw [Periph.bus_reg (by decide) hbus (by decide)]
    · intro hpending
      rw [Periph.bus_reset hbus] at hpending
      exact h.pending hpending

/-- **One step, exactly.** -/
theorem stepConfined_iff {s : Dev × Nat} (h : AddressKept s.1 s.2) (e : BusEvent) :
    StepConfined s e ↔ ¬ ReachesOutside s.1 e := by
  constructor
  · rintro ⟨hconfined, -⟩ hout
    exact not_accessesConfined hout hconfined
  · intro hout
    exact ⟨accessesConfined_of_not_reachesOutside h.stage
        (fun s hs hr hn => (h.placed hs hr hn).toBuffers) hout,
      (h.step hout).address⟩

/-! ### Runs -/

/-- `usb_init` leaves these registers at 0. -/
theorem init_reg (b : Board) :
    (Dev.init b).periph.reg 0 = 0#16 ∧ (Dev.init b).periph.reg regIstr = 0#16
      ∧ (Dev.init b).periph.reg regDaddr = 0#16 := by
  refine ⟨?_, ?_, ?_⟩ <;> with_unfolding_all rfl

theorem init_silent (b : Board) : Silent (Dev.init b).periph := by
  obtain ⟨hep0, histr, hdaddr⟩ := init_reg b
  exact {
    disabled := by
      show ((Dev.init b).periph.reg regDaddr).getLsbD 7 = false
      rw [hdaddr]
      rfl
    rxCtr := by
      rw [hep0]
      rfl
    txCtr := by
      rw [hep0]
      rfl
    istr := by rw [histr, BitVec.zero_and]
    btable := rfl }

theorem init_addressKept (b : Board) : AddressKept (Dev.init b) 0 := by
  refine ⟨Or.inl (init_silent b), ?_, fun _ => rfl, ?_⟩
  · unfold Dev.address
    rw [(init_reg b).2.2]
    rfl
  · exact stageHandled_of_ne fun hf => UsbFsmState.noConfusion hf

/-- **Where every run writes.**  Along every run, every access that the handlers of SETUP, OUT
    and IN make is one to an endpoint register or the packet memory, or writes the 7-bit
    address of a handled `SET_ADDRESS` in its status stage, and the device address is the
    last one given, or 0 since the last bus reset: exactly when no step of the run dispatches
    a `CLEAR_FEATURE` or `SET_FEATURE` of `ENDPOINT_HALT` for an endpoint past 7. -/
theorem run_accesses_iff (b : Board) (evs : List BusEvent) :
    AllSteps trackAddress StepConfined (Dev.init b, 0) evs
      ↔ AllSteps Dev.step (fun d e => ¬ ReachesOutside d e) (Dev.init b) evs := by
  have hsteps : AllSteps trackAddress StepConfined (Dev.init b, 0) evs
      ↔ AllSteps trackAddress (fun s e => ¬ ReachesOutside s.1 e) (Dev.init b, 0) evs := by
    apply allSteps_congr (I := fun s : Dev × Nat => AddressKept s.1 s.2)
    · intro s e h hconfined
      exact h.step ((stepConfined_iff h e).mp hconfined)
    · exact fun s e h => stepConfined_iff h e
    · exact init_addressKept b
  rw [hsteps]
  exact allSteps_map (f := Prod.fst) (fun _ _ => rfl) (fun d e => ¬ ReachesOutside d e) _ evs

/-- A `CLEAR_FEATURE` of `ENDPOINT_HALT` for endpoint 20. -/
def clearFeature : UsbSetupData :=
  { bmRequestType := 2, bRequest := 1, wValue := 0, wIndex := 0x14, wLength := 0 }

/-- A run up to its SETUP packet. -/
def clearFeatureRun : List BusEvent := [.busReset, .poll, .setup clearFeature]

/-- The poll that takes it up writes `USB_BTABLE_REG`: the buffer table is moved. -/
theorem clearFeature_writes_btable :
    ¬ StepConfined ((Dev.init blankBoard).run clearFeatureRun, 0) .poll
      ∧ ((Dev.init blankBoard).run clearFeatureRun).periph.reg regBtable = 0#16
      ∧ (((Dev.init blankBoard).run clearFeatureRun).step .poll).periph.reg regBtable
          = 0xB080#16 := by
  have hrun : ((Dev.init blankBoard).run clearFeatureRun).Polls .poll .setup
      ∧ ((Dev.init blankBoard).run clearFeatureRun).nextSetup = some clearFeature
      ∧ ((Dev.init blankBoard).run clearFeatureRun).periph.reg regBtable = 0#16
      ∧ (((Dev.init blankBoard).run clearFeatureRun).step .poll).periph.reg regBtable
          = 0xB080#16 := by
    decide +kernel
  obtain ⟨hs, hnext, hbefore, hafter⟩ := hrun
  refine ⟨fun hconfined => ?_, hbefore, hafter⟩
  have houtside : OutsideRequest clearFeature := by
    unfold OutsideRequest
    decide
  exact not_accessesConfined ⟨clearFeature, Or.inl ⟨hs, hnext, rfl⟩, houtside⟩ hconfined.1

end Stm32F1Dfu
