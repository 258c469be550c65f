import Stm32F1Dfu.Sessions
import Stm32F1Dfu.Requests
import Stm32F1Dfu.Protocol

namespace Stm32F1Dfu

/-!
# Manifestation

The end of a download as a DFU host makes it: an empty `DFU_DNLOAD`, then a `DFU_GETSTATUS`
in whose status stage the device resets itself.

* `run_manifest_request` — the empty `DFU_DNLOAD`;
* `run_gap_resets` — a packet whose handler resets the device;
* `run_manifest` — the two transfers, on a device that is idle.
-/

/-- The packets of an empty `DFU_DNLOAD`: it has no data stage. -/
def manifestRequestPackets (blocknum : UInt16) : List BusEvent :=
  [.setup (dnloadRequest blocknum 0), .ack]

/-- The packets of a manifestation. -/
def manifestPackets (blocknum : UInt16) : List BusEvent :=
  manifestRequestPackets blocknum ++ getstatusPackets

/-- The driver once an empty `DFU_DNLOAD` was dispatched. -/
def afterManifestRequest (f : Dfu) : Dfu :=
  { f with state := .manifestSync, log := .request .dnload :: f.log }

/-- **The request of an empty `DFU_DNLOAD`** sets the callback. -/
theorem dispatch_manifest {d : Dev} (blocknum : UInt16)
    (hreq : d.usbReq = dnloadRequest blocknum 0) :
    usbControlRequestDispatch d
      = (.handled, { d with dfu := afterManifestRequest d.dfu, datasize := d.usbReq.wLength,
                            usbCompleteCb := true,
                            log := .dispatched d.usbReq .handled :: d.log }) := by
  have hclass : d.usbReq.isClassInterface = true := by
    rw [hreq]
    show ((0x21 : UInt8) &&& 0x7F == 0x21) = true
    decide
  have hcode : DfuReq.ofCode d.usbReq.bRequest = some .dnload := by
    rw [hreq]
    rfl
  have hzero : d.usbReq.wLength = 0 := by
    rw [hreq]
    rfl
  have hdfu : dispatchDfu d
      = (.handled, { d with dfu := afterManifestRequest d.dfu, datasize := d.usbReq.wLength,
                            usbCompleteCb := true }) := by
    unfold dispatchDfu usbdfuControlRequest
    rw [hcode]
    simp only [if_pos hzero]
    rfl
  unfold usbControlRequestDispatch
  rw [dispatchRequest_class hclass, hcode, if_neg (by simp), hdfu]

/-- A request without data whose completion waits for the status stage. -/
structure Confirming (f : Dfu) (d : Dev) : Prop where
  fsm : d.fsm = .statusIn
  type : d.usbReq.bmRequestType ≠ 0
  callback : d.usbCompleteCb = true
  dfu : d.dfu = f

section

variable {d : Dev} {f : Dfu} {daddr : BitVec 16}

theorem run_manifest_setup (blocknum : UInt16) (h : Idle d f) {gap : List BusEvent}
    (hgap : Lull gap) (hpoll : .poll ∈ gap) :
    ∃ daddr, let d' := d.run (.setup (dnloadRequest blocknum 0) :: gap)
      Link d'.periph ⟨⟨false, false, true, rxStatNak, txStatValid⟩, true, daddr⟩
        ∧ d'.dfu.reset = false ∧ Confirming (afterManifestRequest f) d' := by
  obtain ⟨⟨setup, rx, tx, nak, daddr, link, hrx⟩, hdfu, hrun⟩ := h
  have hread : (dnloadRequest blocknum 0).isRead = true := by
    simp [UsbSetupData.isRead, dnloadRequest, dfuRequest]
  obtain ⟨hbus, hpacket⟩ := link.bus_setup (dnloadRequest blocknum 0) hrx
  refine ⟨daddr, run_packet (by simp) (by rw [hdfu]; exact hrun) hbus ?_ rfl rfl ?_ hgap hpoll⟩
  · intro p hp
    have hserved : p.served = .setup := hp.link.served
    obtain ⟨p', hlink, heq⟩ := usbdControlSetup_eq (d := { d with periph := p }) hp.link
      (hp.packet.trans hpacket)
    rw [hserved]
    show Link (usbdControlSetup { d with periph := p }).periph _
      ∧ (usbdControlSetup { d with periph := p }).dfu.reset = false
      ∧ Confirming _ (usbdControlSetup { d with periph := p })
    rw [heq, hread, if_pos rfl]
    -- the request is dispatched at once, and answered with an empty packet
    have hdispatch := dispatch_manifest
      (d := { d with usbCompleteCb := false, periph := p', usbReq := dnloadRequest blocknum 0,
                     log := .setup (dnloadRequest blocknum 0) :: d.log, dataoff := 0 }) blocknum rfl
    have hhandled : Dev.dispatchAtOnce
        { d with usbCompleteCb := false, periph := p', usbReq := dnloadRequest blocknum 0,
                 log := .setup (dnloadRequest blocknum 0) :: d.log } = _ := hdispatch
    rw [usbControlSetupRead_status (by rw [hhandled]; simp) rfl, hhandled]
    obtain ⟨hwrite, -⟩ := hlink.writePacket txStatNak_ne_valid (fun _ => 0)
      (show (0 : UInt16).toNat ≤ 64 from Nat.zero_le _)
    have htype : (dnloadRequest blocknum 0).bmRequestType ≠ 0 := by
      show (0x21 : UInt8) ≠ 0
      decide
    refine ⟨hwrite, ?_, rfl, htype, rfl, ?_⟩
    · show d.dfu.reset = false
      rw [hdfu, hrun]
    · show afterManifestRequest d.dfu = _
      rw [hdfu]
  · intro d p hq
    exact ⟨hq.fsm, hq.type, hq.callback, hq.dfu⟩

/-- Its status stage runs the callback, which does nothing yet. -/
theorem run_manifest_status
    (link : Link d.periph ⟨⟨false, false, true, rxStatNak, txStatValid⟩, true, daddr⟩)
    (hrun : d.dfu.reset = false) (h : Confirming (afterManifestRequest f) d)
    {gap : List BusEvent} (hgap : Lull gap) (hpoll : .poll ∈ gap) :
    Idle (d.run (.ack :: gap)) (afterManifestRequest f) := by
  have hbus := link.bus_ack rfl
  have hcomplete : usbdfuGetstatusComplete d.dfu = d.dfu := by
    rw [h.dfu, usbdfuGetstatusComplete_other (by simp [afterManifestRequest]),
      if_neg (by simp [afterManifestRequest])]
  have hend : Link (d.run (.ack :: gap)).periph
      ⟨⟨false, false, true, rxStatNak, txStatNak⟩, true, daddr⟩
      ∧ (d.run (.ack :: gap)).dfu.reset = false
      ∧ (d.run (.ack :: gap)).dfu = afterManifestRequest f := by
    refine run_packet (Q := fun d' => d'.dfu = afterManifestRequest f) (by simp) hrun hbus ?_ rfl
      rfl (fun _ _ hq => hq) hgap hpoll
    intro p hp
    have hserved : p.served = .tx := hp.link.served
    have hnot : ¬ (d.usbReq.bmRequestType = 0 ∧ d.usbReq.bRequest = 5) :=
      fun haddr => h.type haddr.1
    rw [hserved]
    simp only [Dev.serve, hp.link.servedEp, usbdControlIn, h.fsm, completeTransfer, h.callback,
      if_true, if_neg hnot, hcomplete]
    exact ⟨hp.link.clrTxCtr, hrun, h.dfu⟩
  obtain ⟨hlink, hrun', hdfu⟩ := hend
  rw [hdfu] at hrun'
  exact ⟨⟨_, _, _, _, _, hlink, by decide⟩, hdfu, hrun'⟩

end

/-- **An empty `DFU_DNLOAD`** leaves the device in `dfuMANIFEST-SYNC`. -/
theorem run_manifest_request {d : Dev} {f : Dfu} {blocknum : UInt16} (h : Idle d f)
    {evs : List BusEvent} (hpaced : Paced (manifestRequestPackets blocknum) evs) :
    Idle (d.run evs) (afterManifestRequest f) := by
  cases hpaced with
  | cons _ lull polled rest =>
    obtain ⟨daddr, hlink, hrun, hconfirm⟩ := run_manifest_setup blocknum h lull polled
    cases rest with
    | cons _ lull' polled' rest' =>
      cases rest'
      rw [List.append_nil, Dev.run_append]
      exact run_manifest_status hlink hrun hconfirm lull' polled'

/-! ### The reset -/

/-- **A gap behind a packet whose handler resets the device.** -/
theorem run_gap_resets {d : Dev} {x : Ep0} {f : Dfu} (h : Link d.periph x)
    (hrun : d.dfu.reset = false)
    (hserve : ∀ p, Same d.periph p x → (({ d with periph := p } : Dev).serve p.served).dfu = f)
    (hreset : f.reset = true) {gap : List BusEvent} (hgap : Lull gap) (hpoll : .poll ∈ gap) :
    (d.run gap).dfu = f := by
  induction gap generalizing d with
  | nil => exact absurd hpoll List.not_mem_nil
  | cons e gap ih =>
    have hrest : Lull gap := fun e' he' => hgap e' (List.mem_cons_of_mem _ he')
    rw [Dev.run_cons]
    rcases hgap e (List.mem_cons_self ..) with rfl | ⟨flags, rfl⟩
    · have hstep := step_poll_eq h hrun
      rw [← h.served] at hstep
      have hdfu : (d.step .poll).dfu = f := by
        rw [hstep]
        exact hserve d.periph ⟨h, rfl⟩
      rw [run_of_reset (by rw [hdfu]; exact hreset)]
      exact hdfu
    · have hraise := h.raise_same flags
      rw [step_bus hrun (by simp)]
      refine ih (d := { d with periph := d.periph.bus (.raise flags) }) hraise.link hrun ?_ hrest ?_
      · intro p hp
        exact hserve p ⟨hp.link, hp.packet.trans hraise.packet⟩
      · simpa using hpoll

/-- The packet of a status stage whose callback resets the device. -/
theorem run_getstatus_resets {d : Dev} {f : Dfu} {daddr : BitVec 16}
    (link : Link d.periph ⟨⟨false, false, true, rxStatValid, txStatNak⟩, false, daddr⟩)
    (hrun : d.dfu.reset = false) (h : Reporting .statusOut f d)
    (hreset : (usbdfuGetstatusComplete f).reset = true) {gap : List BusEvent} (hgap : Lull gap)
    (hpoll : .poll ∈ gap) : (d.run (.out [] :: gap)).dfu = usbdfuGetstatusComplete f := by
  have hempty : ([] : List UInt8).length ≤ 96 := Nat.zero_le _
  obtain ⟨hbus, -⟩ := link.bus_out rfl hempty
  rw [Dev.run_cons, step_bus hrun (by simp)]
  refine run_gap_resets (d := { d with periph := d.periph.bus (.out []) }) hbus hrun ?_ hreset hgap
    hpoll
  intro p hp
  have hserved : p.served = .out := hp.link.served
  rw [hserved]
  simp only [Dev.serve, usbdControlOut, h.fsm, completeTransfer, h.callback, if_true, h.dfu]

/-- **Manifestation.**  On an idle device the two transfers, however they are polled, end in a
    system reset that leaves the stores as they are. -/
theorem run_manifest {d : Dev} {f : Dfu} {blocknum : UInt16} (h : Idle d f) {evs : List BusEvent}
    (hpaced : Paced (manifestPackets blocknum) evs) :
    (d.run evs).dfu.reset = true ∧ (d.run evs).dfu.store = f.store := by
  obtain ⟨evs₁, evs₂, rfl, hrequest, hget⟩ := hpaced.split
  have hidle := run_manifest_request h hrequest
  -- `DFU_GETSTATUS` reports `dfuMANIFEST`, and its completion acts on it
  obtain ⟨log, hafter⟩ : ∃ log, afterGetstatus (afterManifestRequest f)
      = { f with state := .manifest, log := log } := ⟨_, rfl⟩
  have hend : usbdfuGetstatusComplete (afterGetstatus (afterManifestRequest f))
      = { f with state := .manifest, log := log, reset := true } := by
    rw [hafter]
    rfl
  cases hget with
  | cons _ lull polled rest =>
    obtain ⟨daddr, hlink, hrun, hreport⟩ := run_getstatus_setup hidle lull polled
    cases rest with
    | cons _ lull' polled' rest' =>
      obtain ⟨hlink', hrun', hreport'⟩ := run_getstatus_reply hlink hrun hreport lull' polled'
      cases rest' with
      | cons _ lull'' polled'' rest'' =>
        cases rest''
        have hdfu := run_getstatus_resets hlink' hrun' hreport' (by rw [hend]) lull'' polled''
        rw [List.append_nil, Dev.run_append, Dev.run_append, Dev.run_append, hdfu, hend]
        exact ⟨rfl, rfl⟩

end Stm32F1Dfu
