import Stm32F1Dfu.Flags
import Stm32F1Dfu.Reassembly

namespace Stm32F1Dfu

open Machine

/-!
# From the bus into the control buffer

`Reassembly` speaks of the packets that the handlers find in the receive buffer.  `Delivery` keeps
beside the run what the host sent: the OUT packet that endpoint 0 accepted last, and the bytes of
those that a data stage took up.

* `Dev.delivery` — this record at the end of a run;
* `Arrived` — the invariant: the packet that waits for a data stage is the one that was
  accepted, and the two records have the same bytes;
* `run_arrived` — it holds in every run whose requests are for the eight endpoints;
* `run_reassembles` — OUT data stages in every run.
-/

/-! ### What the host sent -/

/-- What came from the bus for the transfer since its SETUP packet. -/
structure Delivery where
  /-- the OUT packet that was accepted last, since the last bus reset -/
  packet : List UInt8
  /-- the bytes of the packets of its data stage, each packet counting up to
      `min(64, remaining)` -/
  bytes : List UInt8

/-- The OUT packet is accepted, as `Periph.bus` does: endpoint 0 receives, and has room. -/
def Periph.AcceptsOut (p : Periph) (data : List UInt8) : Prop :=
  p.enabled ∧ (epView (p.reg 0)).rxStat = rxStatValid
    ∧ data.length ≤ rxCapacity (usbGetEpRxCount p 0)

instance (p : Periph) (data : List UInt8) : Decidable (p.AcceptsOut data) :=
  inferInstanceAs (Decidable (_ ∧ _ ∧ _))

/-- The packet on record after an event. -/
def Delivery.packetAfter (s : Delivery) (d : Dev) : BusEvent → List UInt8
  | .out data => if d.dfu.reset = false ∧ d.periph.AcceptsOut data then data else s.packet
  | .busReset => if d.dfu.reset = false then [] else s.packet
  | _         => s.packet

/-- The record after an event: a SETUP packet that is taken up starts it anew, and one of the
    data stage adds what counts of the packet that was accepted. -/
def Delivery.after (s : Delivery) (d : Dev) (e : BusEvent) : Delivery where
  packet := s.packetAfter d e
  bytes :=
    if d.Polls e .setup then []
    else if d.Polls e .out ∧ d.InDataStage then
      s.bytes ++ s.packet.take (min 64 (d.usbReq.wLength.toNat - d.datasize.toNat))
    else s.bytes

/-- The device with both records, step by step. -/
def deliver (s : (Dev × Transfer) × Delivery) (e : BusEvent) : (Dev × Transfer) × Delivery :=
  (track s.1 e, s.2.after s.1.1 e)

/-- What came from the bus, at the end of a run. -/
def Dev.delivery (d : Dev) (evs : List BusEvent) : Delivery :=
  (Machine.run deliver ((d, .init d.dfu), ⟨[], []⟩) evs).2

/-- The record watches the run and does not change it. -/
theorem run_deliver_fst (s : (Dev × Transfer) × Delivery) (evs : List BusEvent) :
    (run deliver s evs).1 = run track s.1 evs :=
  run_map (fun _ _ => rfl) s evs

/-! ### The invariant -/

/-- What waits in the receive buffer came from the bus, and so did the bytes on record. -/
structure Arrived (d : Dev) (t : Transfer) (s : Delivery) : Prop where
  /-- a packet that waits in a data stage -/
  waiting : d.InDataStage → d.periph.reg regIstr &&& usbIstrReset = 0#16 →
    (epView (d.periph.reg 0)).rxCtr = true → (epView (d.periph.reg 0)).setup = false →
    d.periph.rxPacket = s.packet
  /-- a bus reset takes back the packet that waits -/
  reset : d.periph.reg regIstr &&& usbIstrReset ≠ 0#16 → s.packet = []
  bytes : t.bytes = s.bytes

section

variable {d : Dev} {t : Transfer} {s : Delivery} {e : BusEvent}

/-- The packet that a data stage takes up. -/
theorem Arrived.packet (h : Arrived d t s) (horderly : Orderly d.periph)
    (hs : d.Polls e .out) (hstage : d.InDataStage) : d.periph.rxPacket = s.packet := by
  obtain ⟨hrx, hsetup⟩ := horderly.of_out hs.2.2
  have hreset := Periph.served_noReset (by rw [hs.2.2]; decide)
  exact h.waiting hstage hreset hrx hsetup

/-- The records grow by the same bytes. -/
theorem Arrived.bytes_after (h : Arrived d t s) (horderly : Orderly d.periph) :
    (t.after d e (d.step e)).bytes = (s.after d e).bytes := by
  unfold Transfer.after Delivery.after
  by_cases hsetup : d.Polls e .setup
  · rw [if_pos hsetup]
    simp only [if_pos hsetup]
  · rw [if_neg hsetup]
    simp only [if_neg hsetup]
    by_cases hout : d.Polls e .out ∧ d.InDataStage
    · rw [if_pos hout, if_pos hout, Dev.counted, h.packet horderly hout.1 hout.2, h.bytes]
    · rw [if_neg hout, if_neg hout, h.bytes]

/-! ### Events on the bus -/

/-- An OUT packet that is accepted is in the buffer. -/
theorem Placed.bus_out_rxPacket {p : Periph} (h : Placed p) {data : List UInt8}
    (haccept : p.AcceptsOut data) : (p.bus (.out data)).rxPacket = data := by
  have hbus : p.bus (.out data)
      = p.receive (fun i => data.getD i 0) data.length (epOutReceived (p.reg 0)) :=
    if_pos haccept
  have hfits : data.length ≤ 96 := h.rxCapacity ▸ haccept.2.2
  rw [hbus, Periph.receive_rxPacket h.btable h.rxAddr _ hfits, range_map_getD]

/-- **An event on the bus**: only an OUT packet that is accepted makes a new one wait. -/
theorem Arrived.bus (h : Arrived d t s) (horderly : Orderly d.periph)
    (hready : Silent d.periph ∨ Placed d.periph) (hrun : d.dfu.reset = false) (e : BusEvent) :
    (d.InDataStage → (d.periph.bus e).reg regIstr &&& usbIstrReset = 0#16 →
      (epView ((d.periph.bus e).reg 0)).rxCtr = true →
      (epView ((d.periph.bus e).reg 0)).setup = false →
      (d.periph.bus e).rxPacket = s.packetAfter d e)
    ∧ ((d.periph.bus e).reg regIstr &&& usbIstrReset ≠ 0#16 → s.packetAfter d e = []) := by
  cases e with
  | poll => exact ⟨h.waiting, h.reset⟩
  | busReset =>
    have hnone : s.packetAfter d .busReset = [] := if_pos hrun
    refine ⟨fun _ hclear => absurd hclear ?_, fun _ => hnone⟩
    show ¬ (d.periph.reg regIstr ||| usbIstrReset) &&& usbIstrReset = 0#16
    intro hzero
    have hbit := congrArg (·.getLsbD 10) hzero
    simp [usbIstrReset] at hbit
  | raise flags =>
    have hflag := Periph.bus_reset (p := d.periph) (e := .raise flags) (by simp)
    have hpacket : (d.periph.bus (.raise flags)).rxPacket = d.periph.rxPacket :=
      Periph.rxPacket_congr rfl (Periph.bus_reg (by decide) (by simp) (by decide))
    rw [hflag, hpacket]
    exact ⟨h.waiting, h.reset⟩
  | setup req =>
    rw [Periph.bus_reset (by simp)]
    by_cases haccept : d.periph.enabled ∧ (epView (d.periph.reg 0)).rxStat ≠ rxStatDisabled
    · -- it is a SETUP packet that waits now
      have hview : (epView ((d.periph.bus (.setup req)).reg 0)).setup = true := by
        rw [show d.periph.bus (.setup req) = _ from if_pos haccept, Periph.receive_reg,
          Function.update_self, epView_epSetupReceived]
      refine ⟨fun _ _ _ hsetup => ?_, h.reset⟩
      rw [hview] at hsetup
      exact Bool.noConfusion hsetup
    · rw [show d.periph.bus (.setup req) = d.periph from if_neg haccept]
      exact ⟨h.waiting, h.reset⟩
  | out data =>
    rw [Periph.bus_reset (by simp)]
    by_cases haccept : d.periph.AcceptsOut data
    · have hafter : s.packetAfter d (.out data) = data := if_pos ⟨hrun, haccept⟩
      have hplaced : Placed d.periph := by
        refine hready.resolve_left fun hsilent => ?_
        have henabled := haccept.1
        rw [hsilent.disabled] at henabled
        exact Bool.noConfusion henabled
      refine ⟨fun _ _ _ _ => (hplaced.bus_out_rxPacket haccept).trans hafter.symm, fun hflag => ?_⟩
      -- until a bus reset is handled none is accepted
      have henabled := haccept.1
      rw [(horderly.pending hflag).1] at henabled
      exact Bool.noConfusion henabled
    · have hafter : s.packetAfter d (.out data) = s.packet := if_neg fun hc => haccept hc.2
      rw [show d.periph.bus (.out data) = d.periph from if_neg haccept, hafter]
      exact ⟨h.waiting, h.reset⟩
  | ack =>
    rw [Periph.bus_reset (by simp)]
    by_cases haccept : d.periph.enabled ∧ (epView (d.periph.reg 0)).txStat = txStatValid
    · have hbus : d.periph.bus .ack = { d.periph with
          reg := Function.update d.periph.reg 0 (epInCompleted (d.periph.reg 0)) } :=
        if_pos haccept
      have hpacket : (d.periph.bus .ack).rxPacket = d.periph.rxPacket :=
        Periph.rxPacket_congr (by rw [hbus]) (Periph.bus_reg (by decide) (by simp) (by decide))
      have hview : epView ((d.periph.bus .ack).reg 0)
          = { epView (d.periph.reg 0) with txCtr := true, txStat := txStatNak } := by
        rw [hbus]
        show epView (Function.update d.periph.reg 0 (epInCompleted (d.periph.reg 0)) 0) = _
        rw [Function.update_self, epView_epInCompleted]
      rw [hview, hpacket]
      exact ⟨h.waiting, h.reset⟩
    · rw [show d.periph.bus .ack = d.periph from if_neg haccept]
      exact ⟨h.waiting, h.reset⟩

/-! ### Polls -/

/-- An OUT packet after which the data stage goes on was taken, and waits no more. -/
theorem Turn.dataOut_of_out {d' : Dev} (ht : Turn d e d') (hs : d.Polls e .out)
    (hstage : d'.InDataStage) : d.fsm = .dataOut ∧ d.chunkFits = true := by
  cases ht with
  | still p h => exact absurd (h _ hs) (by decide)
  | chunk p hs' hfsm hfits => exact ⟨hfsm, hfits⟩
  | garbled p req hs' | tooLong p req hs' | write p req hs' | readStall p req hs'
  | readStatus p req n hs' | readData p req s n o z off data hs' | completeIn p hs'
  | nextChunk p s n o z off data hs' | lastChunk p hs' =>
    exact absurd (hs.unique hs') (by decide)
  | short | writeStall | writeDone | completeOut | unexpected =>
    simp [Dev.InDataStage] at hstage

theorem out_rxCtr (hfsm : d.fsm = .dataOut) (hfits : d.chunkFits = true)
    (hroom : 0 < d.packetsize.toNat) :
    (epView ((runAccesses d.periph d.outAccesses).reg 0)).rxCtr = false := by
  have hstat : ¬ d.periph.read (0 : UInt8).toNat &&& usbEpRxStat = rxStatValid :=
    ((d.chunkFits_iff hroom).mp hfits).1
  have hclear : (epView ((Access.run d.periph (.clrRxCtr 0)).reg 0)).rxCtr = false := by
    show (epView ((d.periph.write 0 (clrEpRxCtr (d.periph.reg 0))).reg 0)).rxCtr = false
    rw [d.periph.write_reg_ep0, epView_clrEpRxCtr]
  obtain ⟨as, has⟩ : ∃ as, d.outAccesses = .clrRxCtr 0 :: as := by
    unfold Dev.outAccesses readPacketAccesses
    rw [hfsm, if_neg hstat]
    simp only
    split
    · exact ⟨_, rfl⟩
    · exact ⟨_, rfl⟩
  rw [has]
  exact (runAccesses_calmer _ as).rxCtr hclear

/-- A bus reset that is handled leaves an empty packet. -/
theorem handleReset_rxPacket (d : Dev) : (handleReset d).periph.rxPacket = [] := by
  have hcount : usbGetEpRxCount (handleReset d).periph 0 = 0x8800 :=
    Function.update_self (d.periph.btableSlot 0 6) _ _
  rw [Periph.rxPacket, hcount]
  rfl

/-- **A poll** takes up the packet that waits, so that none waits for a later one. -/
theorem Arrived.poll (h : Arrived d t s) (hre : Reassembly d t) (horderly : Orderly d.periph)
    (hrun : d.dfu.reset = false) (hstage : (d.step .poll).InDataStage)
    (hrx : (epView ((d.step .poll).periph.reg 0)).rxCtr = true)
    (hsetup : (epView ((d.step .poll).periph.reg 0)).setup = false) :
    (d.step .poll).periph.rxPacket = s.packet := by
  have hcalm := step_poll_calmer hrun
  by_cases hserved : d.periph.served = .reset
  · rw [step_poll_reset hrun hserved, handleReset_rxPacket,
      h.reset ((Periph.served_reset_iff _).mp hserved)]
  -- otherwise an OUT packet waited already, and this poll took it up
  exfalso
  have hbefore : (epView (d.periph.reg 0)).rxCtr = true := by
    by_contra hbefore
    have hafter := hcalm.rxCtr (by simpa using hbefore)
    rw [hrx] at hafter
    exact Bool.noConfusion hafter
  rw [hcalm.setup] at hsetup
  have hout : d.Polls .poll .out := by
    refine ⟨hrun, rfl, ?_⟩
    rw [horderly.served (Periph.served_noReset hserved), hbefore, hsetup]
    rfl
  obtain ⟨hfsm, hfits⟩ := (step_turn d .poll).dataOut_of_out hout hstage
  have hroom := hre.datasize_lt (Or.inl hfsm)
  have hsize := d.packetsize_toNat (Nat.le_of_lt hroom)
  have hclear := out_rxCtr hfsm hfits (by omega)
  have hafter : (epView ((d.step .poll).periph.reg 0)).rxCtr = false := by
    rw [step_poll_periph hrun hserved, handleFlags_reg (by decide) (by decide), hout.2.2]
    exact hclear
  rw [hrx] at hafter
  exact Bool.noConfusion hafter

/-- **One step.** -/
theorem Arrived.step (h : Arrived d t s) (hre : Reassembly d t) (horderly : Orderly d.periph)
    (hready : Silent d.periph ∨ Placed d.periph) (e : BusEvent) :
    Arrived (d.step e) (t.after d e (d.step e)) (s.after d e) := by
  have hbytes := h.bytes_after (e := e) horderly
  by_cases hrun : d.dfu.reset = true
  · -- nothing happens any more
    have hsame : d.step e = d := by simp [Dev.step, hrun]
    have hpacket : s.packetAfter d e = s.packet := by
      cases e <;> simp [Delivery.packetAfter, hrun]
    refine ⟨?_, ?_, hbytes⟩
    · rw [hsame]
      exact fun hstage hreset hrx hsetup => (h.waiting hstage hreset hrx hsetup).trans hpacket.symm
    · rw [hsame]
      exact fun hflag => hpacket.trans (h.reset hflag)
  have hrun : d.dfu.reset = false := by simpa using hrun
  by_cases hpoll : e = .poll
  · subst hpoll
    exact ⟨fun hstage _ hrx hsetup => h.poll hre horderly hrun hstage hrx hsetup,
      fun hflag => absurd (step_poll_handled hrun) hflag, hbytes⟩
  · obtain ⟨hwaiting, hreset⟩ := h.bus horderly hready hrun e
    refine ⟨?_, ?_, hbytes⟩
    · rw [step_bus hrun hpoll]
      exact hwaiting
    · rw [step_bus hrun hpoll]
      exact hreset

end

/-! ### Runs -/

/-- Before the first event nothing has come. -/
theorem init_arrived (b : Board) :
    Arrived (Dev.init b) (.init (Dev.init b).dfu) ⟨[], []⟩ where
  waiting := fun hstage => by simp [Dev.InDataStage, Dev.init] at hstage
  reset := fun _ => rfl
  bytes := rfl

/-- The invariant holds in every run whose requests are for the eight endpoints. -/
theorem run_arrived (b : Board) {evs : List BusEvent}
    (hinside : AllSteps Dev.step (fun d e => ¬ ReachesOutside d e) (Dev.init b) evs) :
    Arrived ((Dev.init b).run evs) ((Dev.init b).transfer evs) ((Dev.init b).delivery evs) := by
  have hall : AllSteps deliver (fun s e => ¬ ReachesOutside s.1.1 e)
      ((Dev.init b, .init (Dev.init b).dfu), ⟨[], []⟩) evs :=
    (allSteps_map (f := fun s : (Dev × Transfer) × Delivery => s.1.1) (fun _ _ => rfl)
      (fun d e => ¬ ReachesOutside d e) _ evs).mpr hinside
  have hrun := run_invariant (I := fun s : (Dev × Transfer) × Delivery =>
      Arrived s.1.1 s.1.2 s.2 ∧ Reassembly s.1.1 s.1.2 ∧ Orderly s.1.1.periph
        ∧ ∃ a, AddressKept s.1.1 a)
    (fun s e ⟨hd, hre, horderly, a, hkept⟩ hout =>
      ⟨hd.step hre horderly hkept.ready e, track_reassembly e hre, horderly.step e,
        _, hkept.step hout⟩)
    ⟨init_arrived b, init_reassembly b, reachable_orderly ⟨b, [], rfl⟩, 0, init_addressKept b⟩
    hall
  have hfst := run_deliver_fst ((Dev.init b, .init (Dev.init b).dfu), ⟨[], []⟩) evs
  have hdev := run_track_fst (Dev.init b, .init (Dev.init b).dfu) evs
  rw [hfst, hdev] at hrun
  exact hrun.1

/-- What the handlers find in the receive buffer is what the host sent. -/
structure FromBus (d : Dev) (t : Transfer) (s : Delivery) : Prop where
  /-- a packet that a data stage takes up is the one that was accepted last -/
  packet : ∀ e, d.Polls e .out → d.InDataStage → d.periph.rxPacket = s.packet
  /-- the bytes on record as received are those of the packets that were sent -/
  bytes : t.bytes = s.bytes

/-- **OUT data stages in every run.**  The stage, the buffer and the bytes received belong
    together in every state, and every step stores packets inside the buffer and dispatches
    a write once, when all its bytes are there; a transfer that ends without that leaves the
    driver as it was.  The bytes received are those that were sent, as long as every request of
    the run is for one of the eight endpoints: a `CLEAR_FEATURE` past them moves the buffers. -/
theorem run_reassembles (b : Board) (evs : List BusEvent) :
    Reassembly ((Dev.init b).run evs) ((Dev.init b).transfer evs)
      ∧ (∀ e, StepReassembles ((Dev.init b).run evs) ((Dev.init b).transfer evs) e)
      ∧ (AllSteps Dev.step (fun d e => ¬ ReachesOutside d e) (Dev.init b) evs →
          FromBus ((Dev.init b).run evs) ((Dev.init b).transfer evs)
            ((Dev.init b).delivery evs)) := by
  refine ⟨run_reassembly b evs, (run_reassembly b evs).step, fun hinside => ?_⟩
  have hfrom := run_arrived b hinside
  have horderly := reachable_orderly ⟨b, evs, rfl⟩
  exact ⟨fun e hs hstage => hfrom.packet horderly hs hstage, hfrom.bytes⟩

end Stm32F1Dfu
