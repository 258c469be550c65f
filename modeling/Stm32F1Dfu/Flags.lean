import Stm32F1Dfu.Address

namespace Stm32F1Dfu

open Machine

/-!
# The flags of the peripheral over polls and packets

The firmware clears flags and raises none: a packet that a poll finds was announced by the
bus.

* `Calmer` — what any handler may make of the flags, `step_poll_calmer` for a whole poll;
* `Orderly` — which flags can be raised together, in every state that can be reached
  (`reachable_orderly`);
* `Orderly.served` — what the next poll serves, by the flags of endpoint 0;
* `dispatch_txStat` — no request makes endpoint 0 send.
-/

/-! ### What the firmware does to flags -/

/-- No flag is raised from `p` to `p'`, and packets are handled on. -/
structure Calmer (p p' : Periph) : Prop where
  rxCtr : (epView (p.reg 0)).rxCtr = false → (epView (p'.reg 0)).rxCtr = false
  txCtr : (epView (p.reg 0)).txCtr = false → (epView (p'.reg 0)).txCtr = false
  setup : (epView (p'.reg 0)).setup = (epView (p.reg 0)).setup
  istr : ∀ m, p.reg regIstr &&& m = 0#16 → p'.reg regIstr &&& m = 0#16
  enabled : p.enabled = true → p'.enabled = true

theorem Calmer.refl (p : Periph) : Calmer p p := ⟨id, id, rfl, fun _ h => h, id⟩

theorem Calmer.trans {p p' p'' : Periph} (h : Calmer p p') (h' : Calmer p' p'') :
    Calmer p p'' where
  rxCtr := fun hr => h'.rxCtr (h.rxCtr hr)
  txCtr := fun ht => h'.txCtr (h.txCtr ht)
  setup := h'.setup.trans h.setup
  istr := fun m hm => h'.istr m (h.istr m hm)
  enabled := fun he => h'.enabled (h.enabled he)

/-- Changes of the packet memory and of the statics are none of the flags. -/
theorem Calmer.of_reg {p p' : Periph} (h : p'.reg = p.reg) : Calmer p p' := by
  have henabled : p'.enabled = p.enabled := by
    unfold Periph.enabled
    rw [h]
  exact ⟨by rw [h]; exact id, by rw [h]; exact id, by rw [h], fun m hm => by rw [h]; exact hm,
    fun he => henabled.trans he⟩

/-- The flags of an endpoint register are cleared where a 0 is written, and `SETUP` is
    read-only. -/
theorem epWrite_flags (r w : BitVec 16) :
    (epView (epWrite r w)).rxCtr = ((epView r).rxCtr && w.getLsbD 15)
      ∧ (epView (epWrite r w)).txCtr = ((epView r).txCtr && w.getLsbD 7)
      ∧ (epView (epWrite r w)).setup = (epView r).setup := by
  simp [epView, epWrite]

/-- **A write to a register** raises no flag; packets are handled on if the address register
    is given `USB_DADDR_EF`. -/
theorem Periph.write_calmer {p : Periph} {i : Nat} {w : BitVec 16}
    (h : i = regDaddr → p.enabled = true → w.getLsbD 7 = true) : Calmer p (p.write i w) := by
  have hother {j : Nat} (hj : j ≠ i) : (p.write i w).reg j = p.reg j := p.write_reg_of_ne w hj
  have hep0 (hi : i ≠ 0) : (p.write i w).reg 0 = p.reg 0 := hother hi.symm
  by_cases h0 : i = 0
  · -- the register of endpoint 0
    subst h0
    obtain ⟨hrx, htx, hsetup⟩ := epWrite_flags (p.reg 0) w
    have hdaddr : (p.write 0 w).reg regDaddr = p.reg regDaddr := hother (by decide)
    refine ⟨?_, ?_, ?_, ?_, ?_⟩
    · intro hr
      rw [p.write_reg_ep0, hrx, hr, Bool.false_and]
    · intro ht
      rw [p.write_reg_ep0, htx, ht, Bool.false_and]
    · rw [p.write_reg_ep0, hsetup]
    · intro m hm
      rw [hother (by decide), hm]
    · intro he
      unfold Periph.enabled at he ⊢
      rw [hdaddr, he]
  refine ⟨by rw [hep0 h0]; exact id, by rw [hep0 h0]; exact id, by rw [hep0 h0], ?_, ?_⟩
  · -- a flag of `USB_ISTR_REG` is cleared by a 0
    intro m hm
    by_cases hi : i = regIstr
    · subst hi
      show (p.reg regIstr &&& w) &&& m = 0#16
      rw [BitVec.and_assoc, BitVec.and_comm w, ← BitVec.and_assoc, hm, BitVec.zero_and]
    · rw [hother (Ne.symm hi), hm]
  · intro he
    by_cases hi : i = regDaddr
    · subst hi
      show (w &&& 0x00FF#16).getLsbD 7 = true
      rw [BitVec.getLsbD_and, h rfl he]
      rfl
    · unfold Periph.enabled at he ⊢
      rw [hother (Ne.symm hi), he]

/-- What the endpoint macros write keeps `USB_DADDR_EF`, should it reach the address
    register: the flags of an endpoint register lie where they do not clear. -/
theorem Access.run_calmer (p : Periph) (a : Access) : Calmer p (a.run p) := by
  cases a with
  | setRxStat ep stat =>
    apply Periph.write_calmer
    intro _ _
    simp [setEpRxStat, usbEpRxCtr, usbEpTxCtr]
  | setTxStat ep stat =>
    apply Periph.write_calmer
    intro _ _
    simp [setEpTxStat, usbEpRxCtr, usbEpTxCtr]
  | clrRxCtr ep =>
    apply Periph.write_calmer
    intro _ _
    simp [clrEpRxCtr, usbEpTxCtr]
  | clrRxDtog ep =>
    -- this macro and the next write back the bits that they read
    apply Periph.write_calmer
    intro hep he
    have hbit : (p.read ep.toNat).getLsbD 7 = true := by
      rw [hep]
      exact he
    simp [clrEpRxDtog, usbEpNtoggleMsk, usbEpRxDtog, hbit]
  | clrTxDtog ep =>
    apply Periph.write_calmer
    intro hep he
    have hbit : (p.read ep.toNat).getLsbD 7 = true := by
      rw [hep]
      exact he
    simp [clrEpTxDtog, usbEpNtoggleMsk, usbEpTxDtog, hbit]
  | latchAddress wValue =>
    show Calmer p (p.write regDaddr ((wValue.toBitVec &&& 0x007F#16) ||| usbDaddrEf))
    apply Periph.write_calmer
    intro _ _
    simp [usbDaddrEf]
  | copyToPm | setTxCount | forceNak | pmTop => exact Calmer.of_reg rfl

theorem runAccesses_calmer (p : Periph) (as : List Access) : Calmer p (runAccesses p as) := by
  induction as generalizing p with
  | nil => exact Calmer.refl p
  | cons a as ih => exact (a.run_calmer p).trans (ih (a.run p))

/-- The flag of an acknowledged packet is cleared before its handler runs. -/
theorem entering_calmer (d : Dev) (s : Served) : Calmer d.periph (d.entering s).periph := by
  cases s with
  | tx =>
    -- the address register is none of the sixteen that an endpoint number can name
    have hep := d.periph.servedEp_lt
    apply Periph.write_calmer
    intro hi
    have hdaddr : d.periph.servedEp.toNat = 19 := hi
    omega
  | _ => exact Calmer.refl _

theorem clrIstr_calmer (p : Periph) (flag : BitVec 16) : Calmer p (clrIstr p flag) :=
  Periph.write_calmer fun hi => absurd hi (by decide)

theorem handleFlags_calmer (p : Periph) (istr : BitVec 16) : Calmer p (handleFlags p istr) := by
  have hclr (p : Periph) (c : Prop) [Decidable c] (flag : BitVec 16) :
      Calmer p (if c then clrIstr p flag else p) := by
    split
    · exact clrIstr_calmer p flag
    · exact Calmer.refl p
  have hcntr (p : Periph) (w : BitVec 16) : Calmer p (p.write regCntr w) :=
    Periph.write_calmer fun hi => absurd hi (by decide)
  exact (((hclr _ _ _).trans (hclr _ _ _)).trans (hclr _ _ _)).trans (hcntr _ _)

/-! ### A bus reset handled -/

/-- The view after `USB_SET_EP_ADDR`. -/
theorem epView_setEpAddr (r : BitVec 16) : epView (epWrite r (setEpAddr r 0#16)) = epView r := by
  have hmask : (0#16 : BitVec 16) &&& ~~~usbEpAddr = 0#16 := by decide
  rw [epWrite_setEpAddr hmask, BitVec.or_zero]
  simp only [epView, EpView.mk.injEq]
  refine ⟨by simp [usbEpAddr], by simp [usbEpAddr], by simp [usbEpAddr], ?_, ?_⟩
  · rw [BitVec.and_assoc]
    rfl
  · rw [BitVec.and_assoc]
    rfl

/-- The view after `USB_SET_EP_TYPE`. -/
theorem epView_setEpType (r : BitVec 16) :
    epView (epWrite r (setEpType r usbEpTypeControl)) = epView r := by
  have hmask : usbEpTypeControl &&& ~~~usbEpType = 0#16 := by decide
  have hrx : usbEpTypeControl &&& usbEpRxStat = 0#16 := by decide
  have htx : usbEpTypeControl &&& usbEpTxStat = 0#16 := by decide
  rw [epWrite_setEpType hmask]
  simp only [epView, EpView.mk.injEq]
  refine ⟨by simp [usbEpType, usbEpTypeControl], by simp [usbEpType, usbEpTypeControl],
    by simp [usbEpType, usbEpTypeControl], ?_, ?_⟩
  · rw [BitVec.and_or_distrib_right, hrx, BitVec.or_zero, BitVec.and_assoc]
    rfl
  · rw [BitVec.and_or_distrib_right, htx, BitVec.or_zero, BitVec.and_assoc]
    rfl

/-- **Endpoint 0 after a bus reset is handled**: it receives and does not send, and the flags
    that were raised still are. -/
theorem handleReset_view (d : Dev) :
    epView ((handleReset d).periph.reg 0)
      = { epView (d.periph.reg 0) with rxStat := rxStatValid, txStat := txStatNak } := by
  -- the six macros of `_usbd_ep_setup`, one after the other
  have hchain : (handleReset d).periph.reg 0
      = [(setEpAddr · 0#16), (setEpType · usbEpTypeControl), clrEpTxDtog, (setEpTxStat · txStatNak),
          clrEpRxDtog, (setEpRxStat · rxStatValid)].foldl (fun r w => epWrite r (w r))
          (d.periph.reg 0) := rfl
  rw [hchain]
  simp only [List.foldl_cons, List.foldl_nil]
  rw [epView_setEpRxStat (by decide), epView_clrEpRxDtog, epView_setEpTxStat (by decide),
    epView_clrEpTxDtog, epView_setEpType, epView_setEpAddr]

/-- Its flag is cleared, and no other is raised. -/
theorem handleReset_istr (d : Dev) :
    (handleReset d).periph.reg regIstr = d.periph.reg regIstr &&& ~~~usbIstrReset := rfl

theorem handleReset_handled (d : Dev) :
    (handleReset d).periph.reg regIstr &&& usbIstrReset = 0#16 := by
  have hmask : ~~~usbIstrReset &&& usbIstrReset = 0#16 := by decide
  rw [handleReset_istr, BitVec.and_assoc, hmask, BitVec.and_zero]

theorem handleReset_enabled (d : Dev) : (handleReset d).periph.enabled = true := by
  have hdaddr : (handleReset d).periph.reg regDaddr = usbDaddrEf := rfl
  unfold Periph.enabled
  rw [hdaddr]
  rfl

theorem handleReset_calmer (d : Dev) : Calmer d.periph (handleReset d).periph where
  rxCtr := fun h => by rw [handleReset_view]; exact h
  txCtr := fun h => by rw [handleReset_view]; exact h
  setup := by rw [handleReset_view]
  istr := fun m hm => by
    rw [handleReset_istr, BitVec.and_assoc, BitVec.and_comm (~~~usbIstrReset), ← BitVec.and_assoc,
      hm, BitVec.zero_and]
  enabled := fun _ => handleReset_enabled d

/-- **A poll** raises no flag. -/
theorem step_poll_calmer {d : Dev} (h : d.dfu.reset = false) :
    Calmer d.periph (d.step .poll).periph := by
  by_cases hs : d.periph.served = .reset
  · rw [step_poll_reset h hs]
    exact handleReset_calmer d
  · rw [step_poll_periph h hs]
    exact ((entering_calmer d _).trans (runAccesses_calmer _ _)).trans (handleFlags_calmer _ _)

/-! ### Which flags are raised together -/

/-- What holds of the flags in every state that can be reached. -/
structure Orderly (p : Periph) : Prop where
  /-- the transfer bits of `USB_ISTR_REG` follow endpoint 0 -/
  istr : p.reg regIstr &&& istrTransfer = 0#16
  /-- until a bus reset is handled no packet is, and no SETUP packet waits -/
  pending : p.reg regIstr &&& usbIstrReset ≠ 0#16 →
    p.enabled = false ∧ (epView (p.reg 0)).setup = false
  /-- while a SETUP packet waits, nothing is sent -/
  setup : (epView (p.reg 0)).rxCtr = true → (epView (p.reg 0)).setup = true →
    p.enabled = true ∧ (epView (p.reg 0)).txStat = txStatNak

section

variable {p : Periph}

/-- **What the next poll serves**: a bus reset, then a pending reception. -/
theorem Orderly.served (h : Orderly p) (hreset : p.reg regIstr &&& usbIstrReset = 0#16) :
    p.served = if (epView (p.reg 0)).rxCtr then
        (if (epView (p.reg 0)).setup then .setup else .out)
      else if (epView (p.reg 0)).txCtr then .tx else .nothing :=
  p.served_eq h.istr hreset

/-- A poll that serves a packet finds no bus reset. -/
theorem Periph.served_noReset (h : p.served ≠ .reset) : p.reg regIstr &&& usbIstrReset = 0#16 := by
  by_contra hflag
  exact h ((Periph.served_reset_iff p).mpr hflag)

theorem Orderly.of_setup (h : Orderly p) (hs : p.served = .setup) :
    (epView (p.reg 0)).rxCtr = true ∧ (epView (p.reg 0)).setup = true := by
  have hreset := Periph.served_noReset (by rw [hs]; decide)
  rw [h.served hreset] at hs
  split_ifs at hs with hr hsetup
  exact ⟨hr, hsetup⟩

theorem Orderly.of_out (h : Orderly p) (hs : p.served = .out) :
    (epView (p.reg 0)).rxCtr = true ∧ (epView (p.reg 0)).setup = false := by
  have hreset := Periph.served_noReset (by rw [hs]; decide)
  rw [h.served hreset] at hs
  split_ifs at hs with hr hsetup
  exact ⟨hr, by simpa using hsetup⟩

theorem Orderly.of_tx (h : Orderly p) (hs : p.served = .tx) :
    (epView (p.reg 0)).rxCtr = false ∧ (epView (p.reg 0)).txCtr = true := by
  have hreset := Periph.served_noReset (by rw [hs]; decide)
  rw [h.served hreset] at hs
  split_ifs at hs with hr hsetup ht
  exact ⟨by simpa using hr, ht⟩

/-! ### The bus -/

theorem Periph.receive_reg (buf : Nat → UInt8) (len : Nat) (r : BitVec 16) :
    (p.receive buf len r).reg = Function.update p.reg 0 r := rfl

/-- A packet that is received. -/
theorem Orderly.receive (h : Orderly p) (henabled : p.enabled = true) (buf : Nat → UInt8)
    (len : Nat) {r : BitVec 16}
    (hr : (epView r).setup = true → (epView r).txStat = txStatNak) :
    Orderly (p.receive buf len r) where
  istr := h.istr
  pending := fun hflag => by
    have hoff := (h.pending hflag).1
    rw [henabled] at hoff
    exact Bool.noConfusion hoff
  setup := fun _ hs => by
    rw [Periph.receive_reg, Function.update_self] at hs ⊢
    exact ⟨henabled, hr hs⟩

/-- What a bus reset leaves of the flags. -/
theorem Periph.busReset_view (p : Periph) :
    epView (p.busReset.reg 0)
      = { rxCtr := (epView (p.reg 0)).rxCtr, txCtr := (epView (p.reg 0)).txCtr, setup := false,
          rxStat := rxStatDisabled, txStat := txStatDisabled } :=
  epView_epBusReset (p.reg 0)

/-- **An event on the bus** keeps the flags in order. -/
theorem Orderly.bus (h : Orderly p) (e : BusEvent) : Orderly (p.bus e) := by
  cases e with
  | poll => exact h
  | busReset =>
    have hdaddr : p.busReset.reg regDaddr = 0#16 := rfl
    have hoff : p.busReset.enabled = false := by
      unfold Periph.enabled
      rw [hdaddr]
      rfl
    -- the address register is cleared, so no packet is handled until the reset is
    refine ⟨?_, fun _ => ⟨hoff, ?_⟩, fun _ hs => ?_⟩
    · show (p.reg regIstr ||| usbIstrReset) &&& istrTransfer = 0#16
      rw [BitVec.and_or_distrib_right, h.istr]
      decide
    · show (epView (p.busReset.reg 0)).setup = false
      rw [p.busReset_view]
    · -- no SETUP packet waits
      have hnone : (epView (p.busReset.reg 0)).setup = true := hs
      rw [p.busReset_view] at hnone
      exact Bool.noConfusion hnone
  | raise flags =>
    refine ⟨?_, fun hflag => h.pending ?_, h.setup⟩
    · have hmask : raisable &&& istrTransfer = 0#16 := by decide
      show (p.reg regIstr ||| (flags &&& raisable)) &&& istrTransfer = 0#16
      rw [BitVec.and_or_distrib_right, h.istr, BitVec.and_assoc, hmask, BitVec.and_zero,
        BitVec.or_zero]
    · rw [← Periph.bus_reset (e := .raise flags) (by simp)]
      exact hflag
  | setup req =>
    simp only [Periph.bus]
    split
    · rename_i haccept
      exact h.receive haccept.1 _ _ fun _ => by rw [epView_epSetupReceived]
    · exact h
  | out data =>
    simp only [Periph.bus]
    split
    · rename_i haccept
      exact h.receive haccept.1 _ _ fun hs => by simp at hs
    · exact h
  | ack =>
    simp only [Periph.bus]
    split
    · rename_i haccept
      refine ⟨h.istr, fun hflag => ?_, fun hr hs => ?_⟩
      · have hoff := (h.pending hflag).1
        rw [haccept.1] at hoff
        exact Bool.noConfusion hoff
      · -- an acknowledged packet leaves NAK behind
        have hview : epView (Function.update p.reg 0 (epInCompleted (p.reg 0)) 0)
            = { epView (p.reg 0) with txCtr := true, txStat := txStatNak } := by
          rw [Function.update_self, epView_epInCompleted]
        rw [hview]
        exact ⟨haccept.1, rfl⟩
    · exact h

end

/-! ### Polls -/

variable {d : Dev}

/-- `_usbd_control_setup` takes the packet up before it looks at the request. -/
theorem readSetup_view (d : Dev) :
    epView ((usbdEpReadPacket (usbdEpNakSet d.periph 0 true) 0 d.usbReq.toBytes 8).1.reg 0)
      = { epView (d.periph.reg 0) with rxCtr := false, rxStat := rxStatNak } := by
  have hstat (p : Periph) : epView ((usbSetEpRxStat p 0 rxStatNak).reg 0)
      = { epView (p.reg 0) with rxStat := rxStatNak } := by
    show epView ((p.write 0 (setEpRxStat (p.reg 0) rxStatNak)).reg 0) = _
    rw [p.write_reg_ep0, epView_setEpRxStat (by decide)]
  have hclr (p : Periph) : epView ((usbClrEpRxCtr p 0).reg 0)
      = { epView (p.reg 0) with rxCtr := false } := by
    show epView ((p.write 0 (clrEpRxCtr (p.reg 0))).reg 0) = _
    rw [p.write_reg_ep0, epView_clrEpRxCtr]
  have hnak : epView ((usbdEpNakSet d.periph 0 true).reg 0)
      = { epView (d.periph.reg 0) with rxStat := rxStatNak } :=
    hstat { d.periph with usbForceNak := Function.update d.periph.usbForceNak 0 true }
  have hforced : (usbClrEpRxCtr (usbdEpNakSet d.periph 0 true) 0).usbForceNak 0 = true := by
    show Function.update d.periph.usbForceNak 0 true 0 = true
    rw [Function.update_self]
  rw [usbdEpReadPacket_data (by rw [hnak]; exact rxStatNak_ne_valid), hforced, if_pos rfl, hclr,
    hnak]

/-- A SETUP packet that is served waits no more. -/
theorem setup_rxCtr (hs : d.periph.served = .setup) :
    (epView ((runAccesses (d.entering d.periph.served).periph
      (d.accesses d.periph.served)).reg 0)).rxCtr = false := by
  rw [hs]
  show (epView ((runAccesses d.periph d.setupAccesses).reg 0)).rxCtr = false
  unfold Dev.setupAccesses
  rw [runAccesses_append, ← readSetup_accesses]
  apply (runAccesses_calmer _ _).rxCtr
  rw [readSetup_view]

/-- Whatever a poll serves, no bus reset is pending after it. -/
theorem step_poll_handled (h : d.dfu.reset = false) :
    (d.step .poll).periph.reg regIstr &&& usbIstrReset = 0#16 := by
  by_cases hs : d.periph.served = .reset
  · rw [step_poll_reset h hs]
    exact handleReset_handled d
  · exact (step_poll_calmer h).istr _ (Periph.served_noReset hs)

/-- **One step** keeps the flags in order. -/
theorem Orderly.step (h : Orderly d.periph) (e : BusEvent) : Orderly (d.step e).periph := by
  by_cases hrun : d.dfu.reset = true
  · have hsame : d.step e = d := by simp [Dev.step, hrun]
    rw [hsame]
    exact h
  have hrun : d.dfu.reset = false := by simpa using hrun
  by_cases hpoll : e = .poll
  · subst hpoll
    have hcalm := step_poll_calmer hrun
    have hhandled := step_poll_handled hrun
    refine ⟨hcalm.istr _ h.istr, fun hflag => absurd hhandled hflag, fun hr hsetup => ?_⟩
    -- and no SETUP packet waits: one that waited was served
    exfalso
    rw [hcalm.setup] at hsetup
    by_cases hs : d.periph.served = .reset
    · have hwaits := (h.pending ((Periph.served_reset_iff _).mp hs)).2
      rw [hsetup] at hwaits
      exact Bool.noConfusion hwaits
    have hbefore : (epView (d.periph.reg 0)).rxCtr = true := by
      by_contra hbefore
      have hafter := hcalm.rxCtr (by simpa using hbefore)
      rw [hr] at hafter
      exact Bool.noConfusion hafter
    have hserved : d.periph.served = .setup := by
      rw [h.served (Periph.served_noReset hs), hbefore, hsetup]
      rfl
    have hclear := setup_rxCtr hserved
    have hafter : (epView ((d.step .poll).periph.reg 0)).rxCtr = false := by
      rw [step_poll_periph hrun hs, handleFlags_reg (by decide) (by decide)]
      exact hclear
    rw [hr] at hafter
    exact Bool.noConfusion hafter
  · rw [step_bus hrun hpoll]
    exact h.bus e

/-- **In every state that can be reached** the flags are in order. -/
theorem reachable_orderly (h : Reachable d) : Orderly d.periph := by
  obtain ⟨b, evs, rfl⟩ := h
  refine run_invariant' (I := fun d : Dev => Orderly d.periph) (fun d e hd => hd.step e) ?_ evs
  obtain ⟨hep0, histr, -⟩ := init_reg b
  refine ⟨by rw [histr, BitVec.zero_and], fun hflag => ?_, fun hr => ?_⟩
  · rw [histr, BitVec.zero_and] at hflag
    exact absurd rfl hflag
  · rw [hep0] at hr
    exact Bool.noConfusion hr

/-! ### Without a SETUP packet -/

/-- No SETUP packet waits to be taken up. -/
def NoSetup (p : Periph) : Prop :=
  (epView (p.reg 0)).rxCtr = true → (epView (p.reg 0)).setup = false

theorem NoSetup.of_view {p p' : Periph} (h : NoSetup p)
    (hrx : (epView (p'.reg 0)).rxCtr = (epView (p.reg 0)).rxCtr)
    (hsetup : (epView (p'.reg 0)).setup = (epView (p.reg 0)).setup) : NoSetup p' := by
  intro hr
  rw [hsetup]
  exact h (hrx.symm.trans hr)

/-- Only a SETUP packet makes one wait. -/
theorem NoSetup.bus {p : Periph} (h : NoSetup p) {e : BusEvent} (he : ∀ req, e ≠ .setup req) :
    NoSetup (p.bus e) := by
  cases e with
  | poll => exact h
  | setup req => exact absurd rfl (he req)
  | raise flags => exact h.of_view rfl rfl
  | busReset =>
    intro _
    show (epView (p.busReset.reg 0)).setup = false
    rw [p.busReset_view]
  | out data =>
    simp only [Periph.bus]
    split
    · intro _
      rw [Periph.receive_reg, Function.update_self, epView_epOutReceived]
    · exact h
  | ack =>
    simp only [Periph.bus]
    split
    · have hview : epView (Function.update p.reg 0 (epInCompleted (p.reg 0)) 0)
          = { epView (p.reg 0) with txCtr := true, txStat := txStatNak } := by
        rw [Function.update_self, epView_epInCompleted]
      exact h.of_view (by rw [hview]) (by rw [hview])
    · exact h

/-- **One step** other than a SETUP packet. -/
theorem NoSetup.step (h : NoSetup d.periph) {e : BusEvent} (he : ∀ req, e ≠ .setup req) :
    NoSetup (d.step e).periph := by
  by_cases hrun : d.dfu.reset = true
  · have hsame : d.step e = d := by simp [Dev.step, hrun]
    rw [hsame]
    exact h
  have hrun : d.dfu.reset = false := by simpa using hrun
  by_cases hpoll : e = .poll
  · subst hpoll
    have hcalm := step_poll_calmer hrun
    intro hr
    rw [hcalm.setup]
    apply h
    by_contra hbefore
    have hafter := hcalm.rxCtr (by simpa using hbefore)
    rw [hr] at hafter
    exact Bool.noConfusion hafter
  · rw [step_bus hrun hpoll]
    exact h.bus he

/-- None is served then. -/
theorem NoSetup.not_polls (h : NoSetup d.periph) (horderly : Orderly d.periph) {e : BusEvent} :
    ¬ d.Polls e .setup := by
  intro hs
  obtain ⟨hr, hsetup⟩ := horderly.of_setup hs.2.2
  rw [h hr] at hsetup
  exact Bool.noConfusion hsetup

/-! ### Requests -/

/-- The access does not make an endpoint send. -/
def Access.Withholds : Access → Prop
  | .setRxStat _ stat => stat &&& ~~~usbEpRxStat = 0#16
  | .setTxStat _ stat => stat &&& ~~~usbEpTxStat = 0#16 ∧ stat ≠ txStatValid
  | _ => True

/-- A macro whose endpoint number is that of endpoint 0. -/
theorem Periph.write_macro_ep0 {p : Periph} {ep : UInt8} (h : ep.toNat = 0)
    (w : BitVec 16 → BitVec 16) :
    (p.write ep.toNat (w (p.read ep.toNat))).reg 0 = epWrite (p.reg 0) (w (p.reg 0)) := by
  rw [h]
  exact p.write_reg_ep0 _

/-- Such an access does not make endpoint 0 send, whichever endpoint it is to. -/
theorem Access.Withholds.txStat {a : Access} (ha : a.Withholds) {p : Periph}
    (h : (epView (p.reg 0)).txStat ≠ txStatValid) :
    (epView ((a.run p).reg 0)).txStat ≠ txStatValid := by
  by_cases hreg : a.reg = some 0
  · -- the register of endpoint 0, by what the macro does to the view
    cases a with
    | setRxStat ep stat =>
      have hview : (run p (.setRxStat ep stat)).reg 0
          = epWrite (p.reg 0) (setEpRxStat (p.reg 0) stat) :=
        Periph.write_macro_ep0 (Option.some.inj hreg) (setEpRxStat · stat)
      rw [hview, epView_setEpRxStat ha]
      exact h
    | setTxStat ep stat =>
      have hview : (run p (.setTxStat ep stat)).reg 0
          = epWrite (p.reg 0) (setEpTxStat (p.reg 0) stat) :=
        Periph.write_macro_ep0 (Option.some.inj hreg) (setEpTxStat · stat)
      rw [hview, epView_setEpTxStat ha.1]
      exact ha.2
    | clrRxCtr ep =>
      have hview : (run p (.clrRxCtr ep)).reg 0 = epWrite (p.reg 0) (clrEpRxCtr (p.reg 0)) :=
        Periph.write_macro_ep0 (Option.some.inj hreg) clrEpRxCtr
      rw [hview, epView_clrEpRxCtr]
      exact h
    | clrRxDtog ep =>
      have hview : (run p (.clrRxDtog ep)).reg 0 = epWrite (p.reg 0) (clrEpRxDtog (p.reg 0)) :=
        Periph.write_macro_ep0 (Option.some.inj hreg) clrEpRxDtog
      rw [hview, epView_clrEpRxDtog]
      exact h
    | clrTxDtog ep =>
      have hview : (run p (.clrTxDtog ep)).reg 0 = epWrite (p.reg 0) (clrEpTxDtog (p.reg 0)) :=
        Periph.write_macro_ep0 (Option.some.inj hreg) clrEpTxDtog
      rw [hview, epView_clrEpTxDtog]
      exact h
    | latchAddress wValue => exact absurd (Option.some.inj hreg) (by decide)
    | copyToPm | setTxCount | forceNak | pmTop => exact h
  · rw [a.run_reg hreg]
    exact h

theorem runAccesses_txStat {as : List Access} (has : ∀ a ∈ as, a.Withholds) {p : Periph}
    (h : (epView (p.reg 0)).txStat ≠ txStatValid) :
    (epView ((runAccesses p as).reg 0)).txStat ≠ txStatValid := by
  induction as generalizing p with
  | nil => exact h
  | cons a as ih =>
    obtain ⟨ha, has⟩ := List.forall_mem_cons.mp has
    exact ih has (ha.txStat h)

/-- `_ep_stall_set` sets STALL or NAK. -/
theorem stallSetAccesses_withholds (addr : UInt8) (stall : Bool) :
    ∀ a ∈ stallSetAccesses addr stall, a.Withholds := by
  have htx (ep : UInt8) :
      (Access.setTxStat ep (if stall then txStatStall else txStatNak)).Withholds := by
    cases stall <;> exact ⟨by decide, by decide⟩
  have hrx (ep : UInt8) :
      (Access.setRxStat ep (if stall then rxStatStall else rxStatValid)).Withholds := by
    show (if stall then rxStatStall else rxStatValid) &&& ~~~usbEpRxStat = 0#16
    cases stall <;> decide
  unfold stallSetAccesses
  refine List.forall_mem_append.mpr ⟨?_, ?_⟩
  · split
    · exact List.forall_mem_singleton.mpr (htx _)
    · exact List.forall_mem_nil _
  split
  · refine List.forall_mem_cons.mpr ⟨htx _, ?_⟩
    split
    · exact List.forall_mem_nil _
    · exact List.forall_mem_singleton.mpr trivial
  · refine List.forall_mem_append.mpr ⟨?_, List.forall_mem_singleton.mpr (hrx _)⟩
    split
    · exact List.forall_mem_nil _
    · exact List.forall_mem_singleton.mpr trivial

/-- The loop of `SET_CONFIGURATION` disables endpoints. -/
theorem disableAccesses_withholds (n : Nat) : ∀ a ∈ disableAccesses n, a.Withholds := by
  induction n with
  | zero => exact List.forall_mem_nil _
  | succ n ih =>
    refine List.forall_mem_append.mpr ⟨ih, List.forall_mem_cons.mpr ⟨⟨by decide, by decide⟩, ?_⟩⟩
    exact List.forall_mem_singleton.mpr (by decide : rxStatDisabled &&& ~~~usbEpRxStat = 0#16)

theorem dispatchAccesses_withholds (req : UsbSetupData) :
    ∀ a ∈ dispatchAccesses req, a.Withholds := by
  unfold dispatchAccesses
  split
  · exact List.forall_mem_nil _
  unfold standardRequestAccesses
  split
  · exact List.forall_mem_nil _
  split
  · unfold deviceRequestAccesses
    split
    · exact List.forall_mem_append.mpr
        ⟨disableAccesses_withholds 7, List.forall_mem_singleton.mpr trivial⟩
    · exact List.forall_mem_nil _
  split
  · unfold endpointRequestAccesses
    split
    · exact stallSetAccesses_withholds _ _
    · exact List.forall_mem_nil _
  · exact List.forall_mem_nil _

/-- **No request makes endpoint 0 send**, whatever endpoint it names. -/
theorem dispatch_txStat {d : Dev} (h : (epView (d.periph.reg 0)).txStat ≠ txStatValid) :
    (epView ((usbControlRequestDispatch d).2.periph.reg 0)).txStat ≠ txStatValid := by
  rw [dispatch_accesses]
  exact runAccesses_txStat (dispatchAccesses_withholds d.usbReq) h

end Stm32F1Dfu
