import Stm32F1Dfu.Framing
import Stm32F1Dfu.Reassembly

namespace Stm32F1Dfu

open Machine

/-!
# Whether a bus reset aborts the transfer

The handling of `USB_ISTR_RESET` sets endpoint 0 up again and leaves the statics of `usb.c` as
they are: the stage of the transfer, what is left of it and the callback.  What a packet
after it leads to is up to them.

* `Dev.Aborted` — a step that does nothing for the old transfer;
* `Dev.ResetAborts` — what the transfer has to have come to;
* `Forsaken` — the invariant from there on, without a SETUP packet;
* `busReset_aborts` — the run after the bus reset;
* `Receptive` — an OUT packet is taken, which is how a transfer goes on;
* `busReset_aborts_iff` — `Dev.ResetAborts` is just what it takes;
* `busReset_resumes` — a download that goes on after a bus reset.
-/

/-! ### What is asked -/

/-- The entry of the log is one of the data stage: a request dispatched, or a chunk queued. -/
def UsbEvent.Serves : UsbEvent → Prop
  | .dispatched _ _ | .chunk _ _ => True
  | _ => False

/-- The step copies bytes of an OUT packet to the control buffer. -/
def Dev.Stores (d : Dev) (e : BusEvent) : Prop :=
  d.Polls e .out ∧ d.InDataStage ∧ d.readChunk.2.2 ≠ 0

/-- The step does nothing for a transfer: it runs no callback, dispatches no request, queues no
    chunk, and leaves the control buffer and the driver alone. -/
structure Dev.Aborted (d : Dev) (e : BusEvent) : Prop where
  callback : ¬ d.Completes e
  log : ∃ new, (d.step e).log = new ++ d.log ∧ ∀ ev ∈ new, ¬ ev.Serves
  stored : ¬ d.Stores e
  ctrl : (d.step e).ctrl = d.ctrl
  dfu : (d.step e).dfu = d.dfu

/-- An acknowledged packet would be served next, but for the bus reset. -/
def Periph.Acked (p : Periph) : Prop :=
  (epView (p.reg 0)).txCtr = true ∧ (epView (p.reg 0)).rxCtr = false

instance (p : Periph) : Decidable p.Acked := inferInstanceAs (Decidable (_ ∧ _))

/-- A bus reset aborts the transfer that the device is in.  An acknowledgement that is not
    served yet would send the next chunk or lead on to the callback; an OUT packet goes to
    the control buffer in an OUT data stage, and to the callback in a status stage. -/
def Dev.ResetAborts (d : Dev) : Prop :=
  match d.fsm with
  | .idle | .stalled => True
  | .dataIn => ¬ d.periph.Acked
  | .lastDataIn | .statusIn => ¬ d.periph.Acked ∨ d.usbCompleteCb = false
  | .statusOut => d.usbCompleteCb = false
  | .dataOut | .lastDataOut => False

instance (d : Dev) : Decidable d.ResetAborts := by
  unfold Dev.ResetAborts
  split <;> infer_instance

/-! ### After the bus reset -/

/-- Nothing is sent, and no acknowledgement is served. -/
structure Unsent (p : Periph) : Prop where
  txStat : (epView (p.reg 0)).txStat ≠ txStatValid
  acked : ¬ p.Acked

/-- What a packet or a flag leaves unsent. -/
theorem Unsent.bus {p : Periph} (h : Unsent p) (e : BusEvent) : Unsent (p.bus e) := by
  cases e with
  | poll => exact h
  | raise flags => exact ⟨h.txStat, h.acked⟩
  | busReset =>
    -- the two flags are kept, the status fields are not
    refine ⟨?_, ?_⟩
    · show (epView (p.busReset.reg 0)).txStat ≠ _
      rw [p.busReset_view]
      exact (by decide : txStatDisabled ≠ txStatValid)
    · show ¬ ((epView (p.busReset.reg 0)).txCtr = true ∧ (epView (p.busReset.reg 0)).rxCtr = false)
      rw [p.busReset_view]
      exact h.acked
  | setup req =>
    simp only [Periph.bus]
    split
    · refine ⟨?_, fun hacked => ?_⟩
      · rw [Periph.receive_reg, Function.update_self, epView_epSetupReceived]
        exact txStatNak_ne_valid
      · have hrx := hacked.2
        rw [Periph.receive_reg, Function.update_self, epView_epSetupReceived] at hrx
        exact Bool.noConfusion hrx
    · exact h
  | out data =>
    simp only [Periph.bus]
    split
    · refine ⟨?_, fun hacked => ?_⟩
      · rw [Periph.receive_reg, Function.update_self, epView_epOutReceived]
        exact h.txStat
      · have hrx := hacked.2
        rw [Periph.receive_reg, Function.update_self, epView_epOutReceived] at hrx
        exact Bool.noConfusion hrx
    · exact h
  | ack =>
    -- there is nothing to acknowledge
    have hnone : p.bus .ack = p := if_neg fun haccept => h.txStat haccept.2
    rw [hnone]
    exact h

/-- A step that serves no transfer leaves things unsent. -/
theorem Unsent.step {d : Dev} (h : Unsent d.periph) {e : BusEvent}
    (he : ∀ s, d.Polls e s → s = .reset ∨ s = .nothing) : Unsent (d.step e).periph := by
  by_cases hrun : d.dfu.reset = true
  · have hsame : d.step e = d := by simp [Dev.step, hrun]
    rw [hsame]
    exact h
  have hrun : d.dfu.reset = false := by simpa using hrun
  by_cases hpoll : e = .poll
  · subst hpoll
    rcases he _ ⟨hrun, rfl, rfl⟩ with hs | hs
    · rw [step_poll_reset hrun hs]
      refine ⟨?_, fun hacked => h.acked ?_⟩
      · rw [handleReset_view]
        exact txStatNak_ne_valid
      · unfold Periph.Acked at hacked
        rw [handleReset_view] at hacked
        exact hacked
    · have hsame : (d.step .poll).periph.reg 0 = d.periph.reg 0 := by
        rw [step_poll_periph hrun (by rw [hs]; decide), hs]
        exact handleFlags_reg (by decide) (by decide)
      refine ⟨?_, fun hacked => h.acked ?_⟩
      · rw [hsame]
        exact h.txStat
      · unfold Periph.Acked at hacked
        rw [hsame] at hacked
        exact hacked
  · rw [step_bus hrun hpoll]
    exact h.bus e

/-- The transfer is given up: what is left of it leads to nothing without a SETUP packet. -/
structure Forsaken (d : Dev) : Prop where
  orderly : Orderly d.periph
  noSetup : NoSetup d.periph
  noData : d.fsm ≠ .dataOut ∧ d.fsm ≠ .lastDataOut
  dataIn : d.fsm = .dataIn → Unsent d.periph
  noCallback : d.fsm = .lastDataIn ∨ d.fsm = .statusIn → Unsent d.periph ∨ d.usbCompleteCb = false
  status : d.fsm = .statusOut → d.usbCompleteCb = false

/-- A stage in which every packet is unexpected. -/
theorem Forsaken.of_idle {d : Dev} (horderly : Orderly d.periph) (hsetup : NoSetup d.periph)
    (h : d.fsm = .idle) : Forsaken d where
  orderly := horderly
  noSetup := hsetup
  noData := by simp [h]
  dataIn := fun hs => by simp [h] at hs
  noCallback := fun hs => by simp [h] at hs
  status := fun hs => by simp [h] at hs

/-- An acknowledged packet that is served is one that was not unsent. -/
theorem Unsent.not_polls {d : Dev} (h : Unsent d.periph) (horderly : Orderly d.periph)
    {e : BusEvent} : ¬ d.Polls e .tx := by
  intro hs
  obtain ⟨hrx, htx⟩ := horderly.of_tx hs.2.2
  exact h.acked ⟨htx, hrx⟩

/-- No callback is set where one would run. -/
theorem Forsaken.cb {d : Dev} (h : Forsaken d) {e : BusEvent}
    (hs : d.Polls e .out ∧ d.fsm = .statusOut
      ∨ d.Polls e .tx ∧ (d.fsm = .lastDataIn ∨ d.fsm = .statusIn)) : d.usbCompleteCb = false := by
  rcases hs with ⟨-, hfsm⟩ | ⟨hs, hfsm⟩
  · exact h.status hfsm
  · exact (h.noCallback hfsm).resolve_left fun hunsent => hunsent.not_polls h.orderly hs

theorem Forsaken.not_completes {d : Dev} (h : Forsaken d) (e : BusEvent) : ¬ d.Completes e := by
  rintro ⟨hrun, he, hcb, hstage⟩
  have hnone : d.usbCompleteCb = false := by
    apply h.cb (e := e)
    rcases hstage with ⟨hs, hfsm⟩ | ⟨hs, hfsm⟩
    · exact Or.inl ⟨⟨hrun, he, hs⟩, hfsm⟩
    · exact Or.inr ⟨⟨hrun, he, hs⟩, Or.inr hfsm⟩
  rw [hcb] at hnone
  exact Bool.noConfusion hnone

/-- **One step** without a SETUP packet does nothing for the old transfer. -/
theorem Forsaken.step {d : Dev} (h : Forsaken d) {e : BusEvent} (he : ∀ req, e ≠ .setup req) :
    Forsaken (d.step e) ∧ d.Aborted e := by
  have hnone : ¬ d.Polls e .setup := h.noSetup.not_polls h.orderly
  have hcomplete := h.not_completes e
  have hsetup := h.noSetup.step he
  have horderly := h.orderly.step e
  have hkeep := fun hunsent : Unsent d.periph => hunsent.step (e := e)
  have hturn := step_turn d e
  suffices hd : Forsaken (d.step e)
      ∧ (∃ new, (d.step e).log = new ++ d.log ∧ ∀ ev ∈ new, ¬ ev.Serves)
      ∧ (d.step e).ctrl = d.ctrl ∧ (d.step e).dfu = d.dfu from
    ⟨hd.1, hcomplete, hd.2.1, fun hstores => not_or.mpr h.noData hstores.2.1, hd.2.2.1, hd.2.2.2⟩
  revert hsetup horderly hkeep hturn
  generalize d.step e = d'
  intro hsetup horderly hkeep hturn
  cases hturn with
  | still p hs =>
    refine ⟨⟨horderly, hsetup, h.noData, fun hf => hkeep (h.dataIn hf) hs, fun hf => ?_, h.status⟩,
      ⟨[], rfl, List.forall_mem_nil _⟩, rfl, rfl⟩
    exact (h.noCallback hf).imp_left fun hunsent => hkeep hunsent hs
  | garbled p req hs | tooLong p req hs | write p req hs | readStall p req hs
    | readStatus p req n hs | readData p req s n o z off data hs => exact absurd hs hnone
  | short p hs hfsm => exact absurd hfsm (not_or.mpr h.noData)
  | chunk p hs hfsm => exact absurd hfsm h.noData.1
  | writeStall p hs hfsm | writeDone p hs hfsm => exact absurd hfsm h.noData.2
  | completeOut p hs hfsm =>
    -- the status stage ends without a callback
    refine ⟨.of_idle horderly hsetup rfl,
      ⟨[.complete d.usbReq], rfl, List.forall_mem_singleton.mpr id⟩, rfl, ?_⟩
    show (if d.usbCompleteCb then usbdfuGetstatusComplete d.dfu else d.dfu) = d.dfu
    rw [h.cb (Or.inl ⟨hs, hfsm⟩)]
    rfl
  | completeIn p hs hfsm =>
    refine ⟨.of_idle horderly hsetup rfl,
      ⟨[.complete d.usbReq], rfl, List.forall_mem_singleton.mpr id⟩, rfl, ?_⟩
    show (if d.usbCompleteCb then usbdfuGetstatusComplete d.dfu else d.dfu) = d.dfu
    rw [h.cb (Or.inr ⟨hs, Or.inr hfsm⟩)]
    rfl
  | nextChunk p s n o z off data hs hfsm =>
    exact absurd hs ((h.dataIn hfsm).not_polls h.orderly)
  | lastChunk p hs hfsm =>
    -- on to a status stage without a callback
    have hcb := h.cb (Or.inr ⟨hs, Or.inl hfsm⟩)
    exact ⟨⟨horderly, hsetup, by simp, fun hf => by simp at hf, fun hf => by simp at hf,
      fun _ => hcb⟩, ⟨[], rfl, List.forall_mem_nil _⟩, rfl, rfl⟩
  | unexpected p hs =>
    exact ⟨.of_idle horderly hsetup rfl, ⟨[.stall], rfl, List.forall_mem_singleton.mpr id⟩, rfl,
      rfl⟩

/-- **A run** without a SETUP packet does nothing for it. -/
theorem Forsaken.run {d : Dev} (h : Forsaken d) {evs : List BusEvent}
    (hevs : ∀ req, .setup req ∉ evs) : AllSteps Dev.step Dev.Aborted d evs := by
  induction evs generalizing d with
  | nil => trivial
  | cons e evs ih =>
    obtain ⟨hnext, haborted⟩ := h.step (e := e) fun req he => hevs req (he ▸ List.mem_cons_self)
    exact ⟨haborted, ih hnext fun req hmem => hevs req (List.mem_cons_of_mem e hmem)⟩

/-! ### The bus reset -/

/-- A bus reset that is handled leaves the transfer given up. -/
theorem handleReset_forsaken {d : Dev} (horderly : Orderly d.periph)
    (hs : d.Polls .poll .reset) (h : d.ResetAborts) : Forsaken (d.step .poll) := by
  have hnext := horderly.step .poll
  have hview := handleReset_view d
  rw [step_poll_reset hs.1 hs.2.2] at hnext ⊢
  have hunsent (hacked : ¬ d.periph.Acked) : Unsent (handleReset d).periph := by
    refine ⟨?_, fun h' => hacked ?_⟩
    · rw [hview]
      exact txStatNak_ne_valid
    · unfold Periph.Acked at h' ⊢
      rwa [hview] at h'
  have hpending := (horderly.pending ((Periph.served_reset_iff _).mp hs.2.2)).2
  unfold Dev.ResetAborts at h
  have hfsm : (handleReset d).fsm = d.fsm := rfl
  have hcb : (handleReset d).usbCompleteCb = d.usbCompleteCb := rfl
  refine ⟨hnext, fun _ => ?_, ?_, ?_, ?_, ?_⟩
  · rw [hview]
    exact hpending
  · rw [hfsm]
    refine ⟨fun hf => ?_, fun hf => ?_⟩ <;> rw [hf] at h <;> exact h
  · intro hf
    rw [hfsm] at hf
    rw [hf] at h
    exact hunsent h
  · intro hf
    rw [hfsm] at hf
    rw [hcb]
    rcases hf with hf | hf <;> rw [hf] at h <;> exact h.imp_left hunsent
  · intro hf
    rw [hfsm] at hf
    rw [hf] at h
    rw [hcb]
    exact h

/-- **A run after the bus reset** does nothing for the transfer, as long as no SETUP packet
    comes, from every state in which it finds nothing that goes on by itself. -/
theorem busReset_aborts {d : Dev} (hd : Reachable d) (hs : d.Polls .poll .reset)
    (h : d.ResetAborts) {evs : List BusEvent} (hevs : ∀ req, .setup req ∉ evs) :
    AllSteps Dev.step Dev.Aborted (d.step .poll) evs :=
  (handleReset_forsaken (reachable_orderly hd) hs h).run hevs

/-! ### Where the transfer goes on -/

/-- The next OUT packet is taken, and the next poll serves it. -/
structure Receptive (p : Periph) : Prop where
  istr : p.reg regIstr &&& istrTransfer = 0#16
  reset : p.reg regIstr &&& usbIstrReset = 0#16
  enabled : p.enabled = true
  rxStat : (epView (p.reg 0)).rxStat = rxStatValid

section

variable {d : Dev} {data : List UInt8}

/-- An OUT packet that is taken. -/
theorem Receptive.step_out (h : Receptive d.periph) (hrun : d.dfu.reset = false)
    (hlen : data.length ≤ rxCapacity (usbGetEpRxCount d.periph 0)) :
    d.step (.out data) = { d with
      periph := d.periph.receive (fun i => data.getD i 0) data.length
        (epOutReceived (d.periph.reg 0)) } := by
  rw [step_bus hrun (by simp)]
  have hbus : d.periph.bus (.out data) = d.periph.receive (fun i => data.getD i 0) data.length
      (epOutReceived (d.periph.reg 0)) := if_pos ⟨h.enabled, h.rxStat, hlen⟩
  rw [hbus]

theorem Receptive.polls_out (h : Receptive d.periph) (hrun : d.dfu.reset = false)
    (hlen : data.length ≤ rxCapacity (usbGetEpRxCount d.periph 0)) :
    (d.step (.out data)).Polls .poll .out := by
  rw [h.step_out hrun hlen]
  refine ⟨hrun, rfl, ?_⟩
  show (d.periph.receive _ _ _).served = .out
  have hview : epView ((d.periph.receive (fun i => data.getD i 0) data.length
      (epOutReceived (d.periph.reg 0))).reg 0)
        = { epView (d.periph.reg 0) with rxCtr := true, setup := false, rxStat := rxStatNak } := by
    rw [Periph.receive_reg, Function.update_self, epView_epOutReceived]
  rw [Periph.served_eq (d.periph.receive _ _ _) h.istr h.reset, hview]
  rfl

/-- The number of bytes received, wherever the buffer description table lies. -/
theorem Periph.receive_rxPacket_length (p : Periph) (buf : Nat → UInt8) {len : Nat}
    (hlen : len ≤ 64) (r : BitVec 16) : (p.receive buf len r).rxPacket.length = len := by
  have hcount : usbGetEpRxCount (p.receive buf len r) 0
      = (usbGetEpRxCount p 0 &&& 0xFC00) ||| UInt16.ofNat len :=
    Function.update_self (p.btableSlot 0 6) _ (pmImage p.pm _ buf len)
  have hlen16 : (UInt16.ofNat len).toNat = len := by
    rw [UInt16.toNat_ofNat']
    omega
  rw [Periph.rxPacket_length, hcount, count_or_and (by omega), hlen16]

/-- A full packet is stored as far as the data stage wants it. -/
theorem Receptive.stores (h : Receptive d.periph) (hrun : d.dfu.reset = false)
    (hstage : d.InDataStage) (hroom : d.datasize.toNat < d.usbReq.wLength.toNat)
    (hcapacity : 64 ≤ rxCapacity (usbGetEpRxCount d.periph 0)) (hlen : data.length = 64) :
    (d.step (.out data)).Stores .poll := by
  refine ⟨h.polls_out hrun (by omega), ?_⟩
  rw [h.step_out hrun (by omega)]
  refine ⟨hstage, ?_⟩
  have hview : (epView ((d.periph.receive (fun i => data.getD i 0) data.length
      (epOutReceived (d.periph.reg 0))).reg 0)).rxStat ≠ rxStatValid := by
    rw [Periph.receive_reg, Function.update_self, epView_epOutReceived]
    exact rxStatNak_ne_valid
  have hsize := d.packetsize_toNat (Nat.le_of_lt hroom)
  unfold Dev.readChunk
  rw [usbdEpReadPacket_data hview, Periph.receive_rxPacket_length _ _ (by omega), hlen]
  show UInt16.ofNat (min 64 d.packetsize.toNat) ≠ 0
  rw [← UInt16.toNat_inj.ne, UInt16.toNat_ofNat', hsize]
  show _ ≠ 0
  omega

end

/-- An OUT packet ends the status stage of a read, and runs the callback. -/
theorem Receptive.completes {d : Dev} (h : Receptive d.periph) (hrun : d.dfu.reset = false)
    (hfsm : d.fsm = .statusOut) (hcb : d.usbCompleteCb = true) :
    (d.step (.out [])).Completes .poll := by
  have hlen : ([] : List UInt8).length ≤ rxCapacity (usbGetEpRxCount d.periph 0) := Nat.zero_le _
  obtain ⟨hrun', hpoll, hserved⟩ := h.polls_out hrun hlen
  refine ⟨hrun', hpoll, ?_, Or.inl ⟨hserved, ?_⟩⟩
  · rw [h.step_out hrun hlen]
    exact hcb
  · rw [h.step_out hrun hlen]
    exact hfsm

/-- An acknowledgement in an IN data stage sends the next chunk. -/
theorem not_aborted_of_dataIn {d : Dev} (hs : d.Polls .poll .tx) (hfsm : d.fsm = .dataIn) :
    ¬ d.Aborted .poll := by
  intro h
  obtain ⟨new, hlog, hnew⟩ := h.log
  obtain ⟨p, hstep⟩ := step_poll hs.1
  obtain ⟨p', s, n, o, z, off, data, -, hsend⟩ := usbControlSendChunk_turn (d.entering .tx)
  have hserve : d.serve d.periph.served = usbControlSendChunk (d.entering .tx) := by
    rw [hs.2.2]
    show usbdControlIn (d.entering .tx) = _
    unfold usbdControlIn
    rw [show (d.entering .tx).fsm = .dataIn from hfsm]
  have hchunk : (d.step .poll).log = [.chunk off data] ++ d.log := by
    rw [hstep, hserve, hsend]
    rfl
  have hmem : UsbEvent.chunk off data ∈ new := by
    rw [List.append_cancel_right (hlog.symm.trans hchunk)]
    exact List.mem_singleton_self _
  exact hnew _ hmem trivial

/-- An acknowledgement of the last packet leads to the status stage, with the next OUT packet
    awaited. -/
theorem lastDataIn_step {d : Dev} (hs : d.Polls .poll .tx) (h : Receptive d.periph)
    (hfsm : d.fsm = .lastDataIn) :
    Receptive (d.step .poll).periph ∧ (d.step .poll).fsm = .statusOut
      ∧ (d.step .poll).usbCompleteCb = d.usbCompleteCb ∧ (d.step .poll).dfu = d.dfu := by
  have hcalm := step_poll_calmer hs.1
  obtain ⟨p, hstep⟩ := step_poll hs.1
  have hserve : d.serve d.periph.served = { d.entering .tx with
      fsm := .statusOut, periph := usbdEpNakSet (d.entering .tx).periph 0 false } := by
    rw [hs.2.2]
    show usbdControlIn (d.entering .tx) = _
    unfold usbdControlIn
    rw [show (d.entering .tx).fsm = .lastDataIn from hfsm]
  refine ⟨⟨hcalm.istr _ h.istr, hcalm.istr _ h.reset, hcalm.enabled h.enabled, ?_⟩, ?_, ?_, ?_⟩
  · -- the NAK is taken back
    rw [step_poll_periph hs.1 (by rw [hs.2.2]; decide), handleFlags_reg (by decide) (by decide),
      ← serve_accesses d (by rw [hs.2.2]; decide), hserve]
    show (epView ((Periph.write _ 0 (setEpRxStat _ rxStatValid)).reg 0)).rxStat = rxStatValid
    rw [Periph.write_reg_ep0]
    exact congrArg EpView.rxStat (epView_setEpRxStat (by decide))
  · rw [hstep, hserve]
  · rw [hstep, hserve]
    rfl
  · rw [hstep, hserve]
    rfl

/-- Endpoint 0 is ready for an OUT packet once the bus reset is handled. -/
theorem handleReset_receptive {d : Dev} (h : Orderly d.periph) :
    Receptive (handleReset d).periph where
  istr := (handleReset_calmer d).istr _ h.istr
  reset := handleReset_handled d
  enabled := handleReset_enabled d
  rxStat := by rw [handleReset_view]

/-- Its receive buffer takes a full packet then. -/
theorem handleReset_capacity (d : Dev) :
    64 ≤ rxCapacity (usbGetEpRxCount (handleReset d).periph 0) := by
  have hcount : usbGetEpRxCount (handleReset d).periph 0 = 0x8800 :=
    Function.update_self (d.periph.btableSlot 0 6) _ _
  rw [hcount]
  decide

/-- The acknowledgement that was pending at the bus reset is served after it. -/
theorem handleReset_polls_tx {d : Dev} (h : Orderly d.periph) (hrun : d.dfu.reset = false)
    (hacked : d.periph.Acked) : (handleReset d).Polls .poll .tx := by
  have hready := handleReset_receptive h
  refine ⟨hrun, rfl, ?_⟩
  rw [Periph.served_eq _ hready.istr hready.reset, handleReset_view]
  simp only [hacked.1, hacked.2, Bool.false_eq_true, if_false, if_true]

/-- **Where it does not**, a poll after the bus reset goes on with the transfer, or a packet
    does. -/
theorem resetAborts_of_aborted {d : Dev} (hd : Reachable d) (hs : d.Polls .poll .reset)
    (h : ∀ evs, (∀ req, .setup req ∉ evs) →
      AllSteps Dev.step Dev.Aborted (d.step .poll) evs) : d.ResetAborts := by
  have horderly := reachable_orderly hd
  have hstep : d.step .poll = handleReset d := step_poll_reset hs.1 hs.2.2
  have hready := handleReset_receptive horderly
  have hrun : (handleReset d).dfu.reset = false := hs.1
  rw [hstep] at h
  -- in an OUT data stage a full packet is stored
  have hdata : ¬ d.InDataStage := by
    intro hstage
    obtain ⟨b, evs, rfl⟩ := hd
    have hroom := (run_reassembly b evs).datasize_lt hstage
    have hall := h [.out (List.replicate 64 0), .poll] (by simp)
    exact hall.2.1.stored
      (hready.stores hrun hstage hroom (handleReset_capacity _) List.length_replicate)
  -- an acknowledgement is served by the next poll
  have hpoll (hacked : d.periph.Acked) : (handleReset d).Polls .poll .tx
      ∧ (handleReset d).Aborted .poll :=
    ⟨handleReset_polls_tx horderly hs.1 hacked, (h [.poll] (by simp)).1⟩
  have hidle : (handleReset d).fsm = d.fsm := rfl
  have hcb : (handleReset d).usbCompleteCb = d.usbCompleteCb := rfl
  unfold Dev.ResetAborts
  cases hfsm : d.fsm with
  | idle | stalled => trivial
  | dataOut => exact hdata (Or.inl hfsm)
  | lastDataOut => exact hdata (Or.inr hfsm)
  | dataIn =>
    intro hacked
    obtain ⟨htx, haborted⟩ := hpoll hacked
    exact not_aborted_of_dataIn htx (hidle.trans hfsm) haborted
  | lastDataIn =>
    by_contra hneither
    obtain ⟨hacked, hset⟩ := not_or.mp hneither
    obtain ⟨htx, -⟩ := hpoll (not_not.mp hacked)
    -- the acknowledgement, then an OUT packet
    obtain ⟨hready', hstatus, hcb', hdfu⟩ := lastDataIn_step htx hready (hidle.trans hfsm)
    have hall := h [.poll, .out [], .poll] (by simp)
    refine hall.2.2.1.callback (hready'.completes ?_ hstatus ?_)
    · rw [hdfu]
      exact hrun
    · rw [hcb', hcb]
      simpa using hset
  | statusIn =>
    by_contra hneither
    obtain ⟨hacked, hset⟩ := not_or.mp hneither
    obtain ⟨htx, haborted⟩ := hpoll (not_not.mp hacked)
    refine haborted.callback ⟨hrun, rfl, ?_, Or.inr ⟨htx.2.2, hidle.trans hfsm⟩⟩
    rw [hcb]
    simpa using hset
  | statusOut =>
    by_contra hset
    have hall := h [.out [], .poll] (by simp)
    refine hall.2.1.callback (hready.completes hrun (hidle.trans hfsm) ?_)
    rw [hcb]
    simpa using hset

/-- **A bus reset aborts the transfer** from just these states: after it is handled, as long as
    no SETUP packet comes, no request is dispatched, no callback runs, no chunk is queued and
    the control buffer is not written. -/
theorem busReset_aborts_iff {d : Dev} (hd : Reachable d) (hs : d.Polls .poll .reset) :
    (∀ evs, (∀ req, .setup req ∉ evs) → AllSteps Dev.step Dev.Aborted (d.step .poll) evs)
      ↔ d.ResetAborts :=
  ⟨resetAborts_of_aborted hd hs, fun h _ hevs => busReset_aborts hd hs h hevs⟩

/-- A bus reset in the middle of an IN data stage, whose first packet is not taken yet. -/
theorem busReset_aborts_getFlashName :
    AllSteps Dev.step Dev.Aborted
      (((Dev.init blankBoard).run (getFlashNameRun ++ [.poll, .busReset])).step .poll)
      [.ack, .poll, .out [], .poll] :=
  (busReset_aborts_iff ⟨blankBoard, getFlashNameRun ++ [.poll, .busReset], rfl⟩
    (by decide +kernel)).mpr (by decide +kernel) _ (by simp)

/-- A bus reset in the middle of a download of five bytes, before its packet has come. -/
def resetDownload : List BusEvent :=
  [.busReset, .poll, .setup (dnloadRequest 0 5), .poll, .busReset]

/-- The packet comes after the bus reset: it is written to the control buffer and the download
    is dispatched. -/
theorem busReset_resumes :
    ((Dev.init blankBoard).run resetDownload).Polls .poll .reset
      ∧ ¬ AllSteps Dev.step Dev.Aborted (((Dev.init blankBoard).run resetDownload).step .poll)
          [.out (commandBytes cmdErase 0x08002000), .poll] := by
  have hrun : ((Dev.init blankBoard).run resetDownload).Polls .poll .reset
      ∧ ((Dev.init blankBoard).run (resetDownload ++ [.poll])).dfu.state = .dfuIdle
      ∧ ((Dev.init blankBoard).run (resetDownload
          ++ [.poll, .out (commandBytes cmdErase 0x08002000), .poll])).dfu.state
            = .dnloadSync := by
    decide +kernel
  obtain ⟨hs, hbefore, hafter⟩ := hrun
  refine ⟨hs, fun h => ?_⟩
  have hdfu := h.2.1.dfu.trans h.1.dfu
  have hstate := congrArg Dfu.state hdfu
  rw [Dev.run_append] at hbefore hafter
  have hsame : DfuState.dnloadSync = .dfuIdle := hafter.symm.trans (hstate.trans hbefore)
  exact DfuState.noConfusion hsame

end Stm32F1Dfu
