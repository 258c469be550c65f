import Stm32F1Dfu.Flags
import Stm32F1Dfu.Stages

namespace Stm32F1Dfu

open Machine

/-!
# Endpoint 0 always listens

A SETUP packet is accepted unless reception on endpoint 0 is disabled, and then the handler has to
find it where the hardware put it.  Neither is ever lost: whatever the host did before, the next
poll takes its next request up.

* `Access.Listens` — an access does not disable reception on endpoint 0, and none of the handlers'
  does (`accesses_listens`);
* `reachable_listening` — nor does any run, once a bus reset is handled;
* `run_link` — so endpoint 0 is set up wherever a run gets;
* `setup_taken` — and takes the next request.
-/

/-! ### Accesses -/

/-- The access does not disable reception on endpoint 0. -/
def Access.Listens : Access → Prop
  | .setRxStat ep stat => stat &&& ~~~usbEpRxStat = 0#16 ∧ (ep.toNat = 0 → stat ≠ rxStatDisabled)
  | .setTxStat _ stat => stat &&& ~~~usbEpTxStat = 0#16
  | _ => True

/-- Such an access leaves it enabled, whichever endpoint it is to. -/
theorem Access.Listens.rxStat {a : Access} (ha : a.Listens) {p : Periph}
    (h : (epView (p.reg 0)).rxStat ≠ rxStatDisabled) :
    (epView ((a.run p).reg 0)).rxStat ≠ rxStatDisabled := by
  by_cases hreg : a.reg = some 0
  · -- the register of endpoint 0, by what the macro does to the view
    cases a with
    | setRxStat ep stat =>
      have hview : (run p (.setRxStat ep stat)).reg 0
          = epWrite (p.reg 0) (setEpRxStat (p.reg 0) stat) :=
        Periph.write_macro_ep0 (Option.some.inj hreg) (setEpRxStat · stat)
      rw [hview, epView_setEpRxStat ha.1]
      exact ha.2 (Option.some.inj hreg)
    | setTxStat ep stat =>
      have hview : (run p (.setTxStat ep stat)).reg 0
          = epWrite (p.reg 0) (setEpTxStat (p.reg 0) stat) :=
        Periph.write_macro_ep0 (Option.some.inj hreg) (setEpTxStat · stat)
      rw [hview, epView_setEpTxStat ha]
      exact h
    | clrRxCtr ep =>
      have hview : (run p (.clrRxCtr ep)).reg 0 = epWrite (p.reg 0) (clrEpRxCtr (p.reg 0)) :=
        Periph.write_macro_ep0 (Option.some.inj hreg) clrEpRxCtr
      rw [hview, epView_clrEpRxCtr]
      exact h
    | clrRxDtog ep =>
      have hview : (run p (.clrRxDtog ep)).reg 0 = epWrite (p.reg 0) (clrEpRxDtog (p.reg 0)) :=
        Periph.write_macro_ep0 (Option.some.inj hreg) clrEpRxDtog
      rw [hview, epView_clrEpRxDtog]
      exact h
    | clrTxDtog ep =>
      have hview : (run p (.clrTxDtog ep)).reg 0 = epWrite (p.reg 0) (clrEpTxDtog (p.reg 0)) :=
        Periph.write_macro_ep0 (Option.some.inj hreg) clrEpTxDtog
      rw [hview, epView_clrEpTxDtog]
      exact h
    | latchAddress wValue => exact absurd (Option.some.inj hreg) (by decide)
    | copyToPm | setTxCount | forceNak | pmTop => exact h
  · rw [a.run_reg hreg]
    exact h

theorem runAccesses_rxStat {as : List Access} (has : ∀ a ∈ as, a.Listens) {p : Periph}
    (h : (epView (p.reg 0)).rxStat ≠ rxStatDisabled) :
    (epView ((runAccesses p as).reg 0)).rxStat ≠ rxStatDisabled := by
  induction as generalizing p with
  | nil => exact h
  | cons a as ih =>
    obtain ⟨ha, has⟩ := List.forall_mem_cons.mp has
    exact ih has (ha.rxStat h)

/-! ### The routines -/

/-- `_usbd_ep_write_packet` sets VALID on the side that sends. -/
theorem writePacketAccesses_listens (p : Periph) (addr : UInt8) (buf : Nat → UInt8) (len : UInt16) :
    ∀ a ∈ writePacketAccesses p addr buf len, a.Listens := by
  unfold writePacketAccesses
  simp only
  split
  · exact List.forall_mem_nil _
  · refine List.forall_mem_cons.mpr ⟨trivial, List.forall_mem_cons.mpr ⟨trivial, ?_⟩⟩
    exact List.forall_mem_singleton.mpr (by decide : txStatValid &&& ~~~usbEpTxStat = 0#16)

/-- `_usbd_ep_read_packet` sets VALID. -/
theorem readPacketAccesses_listens (p : Periph) (addr : UInt8) :
    ∀ a ∈ readPacketAccesses p addr, a.Listens := by
  have hvalid : (Access.setRxStat addr rxStatValid).Listens := ⟨by decide, fun _ => by decide⟩
  unfold readPacketAccesses
  split
  · exact List.forall_mem_nil _
  · split
    · exact List.forall_mem_singleton.mpr trivial
    · exact List.forall_mem_cons.mpr ⟨trivial, List.forall_mem_singleton.mpr hvalid⟩

/-- `_usbd_ep_nak_set` sets NAK or VALID. -/
theorem nakSetAccesses_listens (addr : UInt8) (nak : Bool) :
    ∀ a ∈ nakSetAccesses addr nak, a.Listens := by
  have hstat : (Access.setRxStat addr (if nak then rxStatNak else rxStatValid)).Listens := by
    cases nak <;> exact ⟨by decide, fun _ => by decide⟩
  unfold nakSetAccesses
  split
  · exact List.forall_mem_nil _
  · exact List.forall_mem_cons.mpr ⟨trivial, List.forall_mem_singleton.mpr hstat⟩

/-- `_ep_stall_set` sets STALL, or VALID and NAK. -/
theorem stallSetAccesses_listens (addr : UInt8) (stall : Bool) :
    ∀ a ∈ stallSetAccesses addr stall, a.Listens := by
  have htx (ep : UInt8) :
      (Access.setTxStat ep (if stall then txStatStall else txStatNak)).Listens := by
    show (if stall then txStatStall else txStatNak) &&& ~~~usbEpTxStat = 0#16
    cases stall <;> decide
  have hrx (ep : UInt8) :
      (Access.setRxStat ep (if stall then rxStatStall else rxStatValid)).Listens := by
    cases stall <;> exact ⟨by decide, fun _ => by decide⟩
  unfold stallSetAccesses
  refine List.forall_mem_append.mpr ⟨?_, ?_⟩
  · split
    · exact List.forall_mem_singleton.mpr (htx _)
    · exact List.forall_mem_nil _
  split
  · refine List.forall_mem_cons.mpr ⟨htx _, ?_⟩
    split
    · exact List.forall_mem_nil _
    · exact List.forall_mem_singleton.mpr trivial
  · refine List.forall_mem_append.mpr ⟨?_, List.forall_mem_singleton.mpr (hrx _)⟩
    split
    · exact List.forall_mem_nil _
    · exact List.forall_mem_singleton.mpr trivial

/-- The loop of `SET_CONFIGURATION` disables other endpoints. -/
theorem disableAccesses_listens {n : Nat} (hn : n ≤ 7) : ∀ a ∈ disableAccesses n, a.Listens := by
  induction n with
  | zero => exact List.forall_mem_nil _
  | succ n ih =>
    have hep : (UInt8.ofNat (n + 1)).toNat ≠ 0 := by
      rw [UInt8.toNat_ofNat']
      omega
    refine List.forall_mem_append.mpr ⟨ih (by omega), List.forall_mem_cons.mpr ⟨?_, ?_⟩⟩
    · show txStatDisabled &&& ~~~usbEpTxStat = 0#16
      decide
    · exact List.forall_mem_singleton.mpr ⟨by decide, fun h => absurd h hep⟩

theorem dispatchAccesses_listens (req : UsbSetupData) : ∀ a ∈ dispatchAccesses req, a.Listens := by
  unfold dispatchAccesses
  split
  · exact List.forall_mem_nil _
  unfold standardRequestAccesses
  split
  · exact List.forall_mem_nil _
  split
  · unfold deviceRequestAccesses
    split
    · exact List.forall_mem_append.mpr
        ⟨disableAccesses_listens (Nat.le_refl 7), List.forall_mem_singleton.mpr trivial⟩
    · exact List.forall_mem_nil _
  split
  · unfold endpointRequestAccesses
    split
    · exact stallSetAccesses_listens _ _
    · exact List.forall_mem_nil _
  · exact List.forall_mem_nil _

/-- **No handler** disables reception on endpoint 0. -/
theorem accesses_listens (d : Dev) (s : Served) : ∀ a ∈ d.accesses s, a.Listens := by
  have hroutines : OfRoutines Access.Listens :=
    { nakSet := nakSetAccesses_listens 0
      readPacket := (readPacketAccesses_listens · 0)
      writePacket := (writePacketAccesses_listens · 0)
      stall := stallSetAccesses_listens 0 true
      dispatch := dispatchAccesses_listens
      latchAddress := fun _ => trivial }
  exact hroutines.accesses d s

/-! ### Runs -/

/-- Endpoint 0 receives, or no bus reset was handled yet, or one waits to be. -/
def Listening (p : Periph) : Prop :=
  (epView (p.reg 0)).rxStat ≠ rxStatDisabled ∨ Silent p ∨ p.reg regIstr &&& usbIstrReset ≠ 0#16

/-- Nothing on the bus disables it but a bus reset. -/
theorem Listening.bus {p : Periph} (h : Listening p) (e : BusEvent) : Listening (p.bus e) := by
  by_cases hreset : e = .busReset
  · subst hreset
    refine Or.inr (Or.inr ?_)
    show (p.reg regIstr ||| usbIstrReset) &&& usbIstrReset ≠ 0#16
    intro hzero
    have hbit := congrArg (·.getLsbD 10) hzero
    simp [usbIstrReset] at hbit
  rcases h with hrx | hsilent | hpending
  · left
    cases e with
    | poll | raise => exact hrx
    | busReset => exact absurd rfl hreset
    | setup req =>
      by_cases haccept : p.enabled ∧ (epView (p.reg 0)).rxStat ≠ rxStatDisabled
      · have hbus : (p.bus (.setup req)).reg 0 = epSetupReceived (p.reg 0) := by
          rw [show p.bus (.setup req) = _ from if_pos haccept]
          rfl
        rw [hbus, epView_epSetupReceived]
        exact (by decide : rxStatNak ≠ rxStatDisabled)
      · rw [show p.bus (.setup req) = p from if_neg haccept]
        exact hrx
    | out data =>
      by_cases haccept : p.enabled ∧ (epView (p.reg 0)).rxStat = rxStatValid
          ∧ data.length ≤ rxCapacity (usbGetEpRxCount p 0)
      · have hbus : (p.bus (.out data)).reg 0 = epOutReceived (p.reg 0) := by
          rw [show p.bus (.out data) = _ from if_pos haccept]
          rfl
        rw [hbus, epView_epOutReceived]
        exact (by decide : rxStatNak ≠ rxStatDisabled)
      · rw [show p.bus (.out data) = p from if_neg haccept]
        exact hrx
    | ack =>
      by_cases haccept : p.enabled ∧ (epView (p.reg 0)).txStat = txStatValid
      · have hbus : (p.bus .ack).reg 0 = epInCompleted (p.reg 0) := by
          rw [show p.bus .ack = _ from if_pos haccept]
          rfl
        rw [hbus, epView_epInCompleted]
        exact hrx
      · rw [show p.bus .ack = p from if_neg haccept]
        exact hrx
  · exact Or.inr (Or.inl (hsilent.bus e))
  · refine Or.inr (Or.inr ?_)
    rw [Periph.bus_reset hreset]
    exact hpending

/-- The acknowledgement that a poll serves leaves reception alone. -/
theorem entering_rxStat (d : Dev) (s : Served) :
    (epView ((d.entering s).periph.reg 0)).rxStat = (epView (d.periph.reg 0)).rxStat := by
  cases s with
  | tx =>
    show (epView ((usbClrEpTxCtr d.periph d.periph.servedEp).reg 0)).rxStat = _
    by_cases hep : d.periph.servedEp.toNat = 0
    · have hview : (usbClrEpTxCtr d.periph d.periph.servedEp).reg 0
          = epWrite (d.periph.reg 0) (clrEpTxCtr (d.periph.reg 0)) :=
        Periph.write_macro_ep0 hep clrEpTxCtr
      rw [hview, epView_clrEpTxCtr]
    · have hsame : (usbClrEpTxCtr d.periph d.periph.servedEp).reg 0 = d.periph.reg 0 :=
        d.periph.write_reg_of_ne _ (Ne.symm hep)
      rw [hsame]
  | reset | setup | out | nothing => rfl

/-- **One step.** -/
theorem Listening.step {d : Dev} (h : Listening d.periph) (e : BusEvent) :
    Listening (d.step e).periph := by
  by_cases hrun : d.dfu.reset = true
  · have hsame : d.step e = d := by simp [Dev.step, hrun]
    rw [hsame]
    exact h
  have hrun : d.dfu.reset = false := by simpa using hrun
  by_cases hpoll : e = .poll
  · subst hpoll
    by_cases hs : d.periph.served = .reset
    · -- `_usbd_ep_setup` enables it
      rw [step_poll_reset hrun hs]
      left
      rw [handleReset_view]
      exact (by decide : rxStatValid ≠ rxStatDisabled)
    rw [step_poll_periph hrun hs]
    rcases h with hrx | hsilent | hpending
    · left
      rw [handleFlags_reg (by decide) (by decide)]
      exact runAccesses_rxStat (accesses_listens d _) (by rw [entering_rxStat]; exact hrx)
    · have hnothing : d.periph.served = .nothing := hsilent.served.resolve_left hs
      rw [hnothing]
      exact Or.inr (Or.inl (hsilent.flags _))
    · exact absurd (Periph.served_noReset hs) hpending
  · rw [step_bus hrun hpoll]
    exact h.bus e

/-- **In every state that can be reached.** -/
theorem reachable_listening {d : Dev} (h : Reachable d) : Listening d.periph := by
  obtain ⟨b, evs, rfl⟩ := h
  refine run_invariant' (I := fun d : Dev => Listening d.periph) (fun d e hd => hd.step e) ?_ evs
  obtain ⟨hep0, histr, hdaddr⟩ := init_reg b
  refine Or.inr (Or.inl ⟨?_, ?_, ?_, ?_, rfl⟩)
  · show ((Dev.init b).periph.reg regDaddr).getLsbD 7 = false
    rw [hdaddr]
    rfl
  · rw [hep0]
    rfl
  · rw [hep0]
    rfl
  · rw [histr, BitVec.zero_and]

/-- **Endpoint 0 is set up** wherever a run gets whose requests are for the eight endpoints, once a
    bus reset is handled. -/
theorem run_link (b : Board) {evs : List BusEvent}
    (hinside : AllSteps Dev.step (fun d e => ¬ ReachesOutside d e) (Dev.init b) evs)
    (henabled : ((Dev.init b).run evs).periph.enabled = true) :
    ∃ x : Ep0, Link ((Dev.init b).run evs).periph x ∧ x.rxStat ≠ rxStatDisabled
      ∧ x.toEpView = epView (((Dev.init b).run evs).periph.reg 0) := by
  have hd : Reachable ((Dev.init b).run evs) := ⟨b, evs, rfl⟩
  obtain ⟨a, hkept⟩ : ∃ a, AddressKept ((Dev.init b).run evs) a :=
    run_invariant (I := fun d : Dev => ∃ a, AddressKept d a)
      (fun _ _ ⟨_, h⟩ hout => ⟨_, h.step hout⟩) ⟨0, init_addressKept b⟩ hinside
  have horderly := reachable_orderly hd
  have hlistening := reachable_listening hd
  generalize (Dev.init b).run evs = d at *
  have hnosilence : ¬ Silent d.periph := fun hs => by
    rw [hs.disabled] at henabled
    exact Bool.noConfusion henabled
  have hnoreset : d.periph.reg regIstr &&& usbIstrReset = 0#16 := by
    by_contra hpending
    rw [(horderly.pending hpending).1] at henabled
    exact Bool.noConfusion henabled
  obtain ⟨⟨hbtable, htx, hrx⟩, hblocks⟩ := hkept.ready.resolve_left hnosilence
  have hrxStat : (epView (d.periph.reg 0)).rxStat ≠ rxStatDisabled := by
    rcases hlistening with h | h | h
    · exact h
    · exact absurd h hnosilence
    · exact absurd hnoreset h
  have histr : d.periph.reg regIstr &&& istrServed = 0#16 := by
    have hmask : istrServed = usbIstrReset ||| istrTransfer := by decide
    rw [hmask, BitVec.and_or_distrib_left, hnoreset, horderly.istr, BitVec.or_zero]
  exact ⟨⟨epView (d.periph.reg 0), d.periph.usbForceNak 0, d.periph.reg regDaddr⟩,
    ⟨rfl, rfl, rfl, henabled, hbtable, histr, htx, hrx, hblocks⟩, hrxStat, rfl⟩

/-- The request that the next poll reads is the one in the receive buffer. -/
theorem Link.nextSetup {d : Dev} {x : Ep0} (h : Link d.periph x) {req : UsbSetupData}
    (hp : d.periph.rxPacket = req.bytes) : d.nextSetup = some req := by
  have hnak := h.nakSet true
  have hpacket : (usbdEpNakSet d.periph 0 true).rxPacket = req.bytes := by
    rw [hnak.rxPacket_eq, usbdEpNakSet_pm, ← h.rxPacket_eq, hp]
  obtain ⟨p, hread, -⟩ := hnak.readPacket rxStatNak_ne_valid d.usbReq.toBytes 8
  rw [hpacket, req.bytes_length] at hread
  have hreq : UsbSetupData.ofBytes (fun j => if j < min 8 (8 : UInt16).toNat
      then req.bytes.getD j 0 else d.usbReq.toBytes j) = req :=
    UsbSetupData.ofBytes_eq fun j hj => if_pos hj
  unfold Dev.nextSetup
  simp only [hread, hreq]
  exact if_pos (by decide)

/-- **The next request is taken up.**  Whatever the host did before, as long as its requests were
    for the eight endpoints: once a bus reset is handled, and until the device resets itself, a
    SETUP packet is what the next poll serves, and the request that the handler reads is the one
    that was sent. -/
theorem setup_taken (b : Board) (evs : List BusEvent)
    (hinside : AllSteps Dev.step (fun d e => ¬ ReachesOutside d e) (Dev.init b) evs)
    (henabled : ((Dev.init b).run evs).periph.enabled = true)
    (hrun : ((Dev.init b).run evs).dfu.reset = false) (req : UsbSetupData) :
    ((Dev.init b).run (evs ++ [.setup req])).Polls .poll .setup
      ∧ ((Dev.init b).run (evs ++ [.setup req])).nextSetup = some req := by
  obtain ⟨x, hlink, hrx, -⟩ := run_link b hinside henabled
  obtain ⟨hbus, hpacket⟩ := hlink.bus_setup req hrx
  rw [Dev.run_append]
  show (((Dev.init b).run evs).step (.setup req)).Polls .poll .setup
    ∧ (((Dev.init b).run evs).step (.setup req)).nextSetup = some req
  rw [step_bus hrun (by simp)]
  exact ⟨⟨hrun, rfl, hbus.served⟩, hbus.nextSetup hpacket⟩

/-- A download is given up in the middle of its data stage, with a packet that was not read. -/
def abandonedDownload : List BusEvent :=
  [.busReset, .poll, .setup (dnloadRequest 2 128), .poll, .out (List.replicate 64 0x5A)]

theorem setup_taken_abandonedDownload :
    ((Dev.init blankBoard).run (abandonedDownload ++ [.setup getstatusRequest])).Polls .poll .setup
      ∧ ((Dev.init blankBoard).run (abandonedDownload ++ [.setup getstatusRequest])).nextSetup
          = some getstatusRequest :=
  setup_taken blankBoard abandonedDownload (by decide +kernel) (by decide +kernel)
    (by decide +kernel) getstatusRequest

end Stm32F1Dfu
