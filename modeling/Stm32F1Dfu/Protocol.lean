import Stm32F1Dfu.Service
import Stm32F1Dfu.Execution
import Stm32F1Dfu.Transfers
import Stm32F1Dfu.Lib.Trace

namespace Stm32F1Dfu

open Lts

/-!
# The DFU protocol

What the class driver is for, as a labelled transition system over the states of
`enum dfu_state`, and that the driver is one: in every run of the device its log is a trace
of that system, whatever transfers are aborted, repeated or refused below it.

* `DfuStep` — the system;
* `usbdfuControlRequest_step`, `usbdfuGetstatusComplete_step` — one request, one completion;
* `run_protocol` — the log of a run;
* `run_reset_asked` — what the log of a run that ends in a system reset says.
-/

/-! ### The system -/

/-- **The states of a DFU device**, by what it did. -/
inductive DfuStep : DfuState → DfuEvent → DfuState → Prop
  /-- a download is stored, in any state -/
  | download (s : DfuState) (p : Prog) : DfuStep s (.dnload p) .dnloadSync
  /-- an empty `DFU_DNLOAD` asks for manifestation, in any state -/
  | manifest (s : DfuState) : DfuStep s (.request .dnload) .manifestSync
  | detach (s : DfuState) : DfuStep s (.request .detach) .manifestSync
  | abort (s : DfuState) : DfuStep s (.request .abort) .dfuIdle
  | clear : DfuStep .error (.request .clrstatus) .dfuIdle
  | clearOther {s : DfuState} (h : s ≠ .error) : DfuStep s (.request .clrstatus) s
  | upload (s : DfuState) : DfuStep s (.request .upload) .uploadIdle
  /-- an upload from outside the application region -/
  | uploadRefused (s : DfuState) : DfuStep s (.request .upload) .error
  /-- the first `DFU_GETSTATUS` after a download -/
  | busy : DfuStep .dnloadSync (.status dfuStatusOk .dnbusy) .dnbusy
  /-- the first `DFU_GETSTATUS` after a manifestation was asked for -/
  | manifesting : DfuStep .manifestSync (.status dfuStatusOk .manifest) .manifest
  | failed : DfuStep .error (.status DfuState.error.code .error) .error
  | status {s : DfuState} (h : s ≠ .dnloadSync ∧ s ≠ .manifestSync ∧ s ≠ .error) :
      DfuStep s (.status dfuStatusOk s) s
  | getstate (s : DfuState) : DfuStep s (.getstate s) s
  /-- the stored download is carried out -/
  | exec (p : Prog) : DfuStep .dnbusy (.exec p) .dnloadIdle

/-- The states the device is ever in. -/
def DfuState.Used (s : DfuState) : Prop :=
  s ≠ .appIdle ∧ s ≠ .appDetach ∧ s ≠ .manifestWaitReset

theorem DfuStep.used {s t : DfuState} {e : DfuEvent} (h : DfuStep s e t) (hs : s.Used) :
    t.Used := by
  cases h <;> first | exact hs | simp [DfuState.Used]

/-- `dfuDNBUSY` is entered from `dfuDNLOAD-SYNC` only, by a reply that says so. -/
theorem DfuStep.to_dnbusy {s : DfuState} {e : DfuEvent} (h : DfuStep s e .dnbusy)
    (hs : s ≠ .dnbusy) : s = .dnloadSync ∧ e = .status dfuStatusOk .dnbusy := by
  cases h <;> first | exact ⟨rfl, rfl⟩ | exact absurd rfl hs

/-- `dfuMANIFEST` is entered from `dfuMANIFEST-SYNC` only, by a reply that says so. -/
theorem DfuStep.to_manifest {s : DfuState} {e : DfuEvent} (h : DfuStep s e .manifest)
    (hs : s ≠ .manifest) : s = .manifestSync ∧ e = .status dfuStatusOk .manifest := by
  cases h <;> first | exact ⟨rfl, rfl⟩ | exact absurd rfl hs

/-- The entry asks for manifestation. -/
def DfuEvent.AsksManifest (e : DfuEvent) : Prop := e = .request .dnload ∨ e = .request .detach

/-- `dfuMANIFEST-SYNC` is entered by a request for it. -/
theorem DfuStep.to_manifestSync {s : DfuState} {e : DfuEvent} (h : DfuStep s e .manifestSync)
    (hs : s ≠ .manifestSync) : e.AsksManifest := by
  cases h with
  | manifest => exact Or.inl rfl
  | detach => exact Or.inr rfl
  | clearOther _ => exact absurd rfl hs
  | status _ => exact absurd rfl hs
  | getstate _ => exact absurd rfl hs

/-- What leaves a device in `dfuMANIFEST-SYNC`. -/
def DfuEvent.Waits (e : DfuEvent) : Prop :=
  e.AsksManifest ∨ e = .request .clrstatus ∨ e = .getstate .manifestSync

/-- What leaves a device in `dfuMANIFEST`. -/
def DfuEvent.Manifests (e : DfuEvent) : Prop :=
  e = .status dfuStatusOk .manifest ∨ e = .request .clrstatus ∨ e = .getstate .manifest

theorem DfuStep.waits {e : DfuEvent} (h : DfuStep .manifestSync e .manifestSync) : e.Waits := by
  cases h with
  | manifest => exact Or.inl (Or.inl rfl)
  | detach => exact Or.inl (Or.inr rfl)
  | clearOther _ => exact Or.inr (Or.inl rfl)
  | status h => exact absurd rfl h.2.1
  | getstate _ => exact Or.inr (Or.inr rfl)

theorem DfuStep.manifests {e : DfuEvent} (h : DfuStep .manifest e .manifest) : e.Manifests := by
  cases h with
  | clearOther _ => exact Or.inr (Or.inl rfl)
  | status _ => exact Or.inl rfl
  | getstate _ => exact Or.inr (Or.inr rfl)

/-! ### The driver takes its steps -/

/-- **A request** is a step of the system, or leaves the driver alone. -/
theorem usbdfuControlRequest_step (d : Dfu) (ctrl : Nat → UInt8) (req : UsbSetupData)
    (len : UInt16) (complete : Bool) :
    (usbdfuControlRequest d ctrl req len complete).dfu = d
      ∨ ∃ e, (usbdfuControlRequest d ctrl req len complete).dfu.log = e :: d.log
          ∧ DfuStep d.state e (usbdfuControlRequest d ctrl req len complete).dfu.state := by
  unfold usbdfuControlRequest
  cases DfuReq.ofCode req.bRequest with
  | none => exact Or.inl rfl
  | some r =>
    right
    cases r with
    | dnload =>
      simp only
      by_cases h0 : len = 0
      · rw [if_pos h0]
        exact ⟨_, rfl, .manifest _⟩
      · rw [if_neg h0]
        exact ⟨_, rfl, .download _ _⟩
    | clrstatus =>
      refine ⟨_, rfl, ?_⟩
      simp only
      by_cases hs : d.state = .error
      · rw [if_pos hs, hs]
        exact .clear
      · rw [if_neg hs]
        exact .clearOther hs
    | abort => exact ⟨_, rfl, .abort _⟩
    | detach => exact ⟨_, rfl, .detach _⟩
    | upload =>
      simp only
      by_cases h0 : req.wValue = 0
      · rw [if_pos h0]
        exact ⟨_, rfl, .upload _⟩
      · rw [if_neg h0]
        split
        · exact ⟨_, rfl, .upload _⟩
        · exact ⟨_, rfl, .uploadRefused _⟩
    | getstatus =>
      refine ⟨.status (usbdfuGetstatus d 0).1 (usbdfuGetstatus d 0).2.2.state, rfl, ?_⟩
      show DfuStep d.state _ (usbdfuGetstatus d 0).2.2.state
      unfold usbdfuGetstatus
      cases hs : d.state with
      | dnloadSync => exact .busy
      | manifestSync => exact .manifesting
      | error => simpa only [hs] using DfuStep.failed
      | _ => simpa only [hs] using DfuStep.status (by decide)
    | getstate => exact ⟨_, rfl, .getstate _⟩

/-- **A completion** is the step out of `dfuDNBUSY`, or leaves state and log alone; it resets
    the device in `dfuMANIFEST` only. -/
theorem usbdfuGetstatusComplete_step (d : Dfu) :
    (∃ e, (usbdfuGetstatusComplete d).log = e :: d.log
        ∧ DfuStep d.state e (usbdfuGetstatusComplete d).state
        ∧ (usbdfuGetstatusComplete d).reset = d.reset)
      ∨ (usbdfuGetstatusComplete d).log = d.log
          ∧ (usbdfuGetstatusComplete d).state = d.state
          ∧ ((usbdfuGetstatusComplete d).reset = d.reset ∨ d.state = .manifest) := by
  by_cases hbusy : d.state = .dnbusy
  · left
    rw [usbdfuGetstatusComplete_dnbusy hbusy]
    exact ⟨.exec d.prog, rfl, hbusy ▸ .exec d.prog, rfl⟩
  · right
    rw [usbdfuGetstatusComplete_other hbusy]
    split
    · rename_i hmanifest
      exact ⟨rfl, rfl, Or.inr hmanifest⟩
    · exact ⟨rfl, rfl, Or.inl rfl⟩

/-- The driver after a run that began in `dfuIDLE` with an empty log. -/
structure FollowsProtocol (d : Dfu) : Prop where
  trace : Trace DfuStep .dfuIdle d.log d.state
  reset : d.reset = true → d.state = .manifest

theorem step_followsProtocol {d : Dev} (e : BusEvent) (h : FollowsProtocol d.dfu) :
    FollowsProtocol (d.step e).dfu := by
  cases hreset : d.dfu.reset with
  | true =>
    -- the processor takes no part any more
    have hsame : d.step e = d := by simp [Dev.step, hreset]
    rw [hsame]
    exact h
  | false =>
    rcases step_dfu d e with hcomplete | hsame | ⟨ctrl, req, complete, hreq⟩
    · rw [hcomplete]
      rcases usbdfuGetstatusComplete_step d.dfu with ⟨ev, hlog, hstep, hr⟩ | ⟨hlog, hstate, hr⟩
      · refine ⟨?_, fun hafter => ?_⟩
        · rw [hlog]
          exact .cons h.trace hstep
        · rw [hr, hreset] at hafter
          exact absurd hafter Bool.false_ne_true
      · refine ⟨?_, fun hafter => ?_⟩
        · rw [hlog, hstate]
          exact h.trace
        · rw [hstate]
          rcases hr with hr | hmanifest
          · rw [hr, hreset] at hafter
            exact absurd hafter Bool.false_ne_true
          · exact hmanifest
    · rw [hsame]
      exact h
    · have hframe := (usbdfuControlRequest_effect d.dfu ctrl req req.wLength complete).frame
      have hr : (d.step e).dfu.reset = false := by rw [hreq, hframe.2.2.2.2, hreset]
      refine ⟨?_, fun hafter => absurd (hr.symm.trans hafter) Bool.false_ne_true⟩
      rw [hreq]
      rcases usbdfuControlRequest_step d.dfu ctrl req req.wLength complete with
        hpass | ⟨ev, hlog, hstep⟩
      · rw [hpass]
        exact h.trace
      · rw [hlog]
        exact .cons h.trace hstep

theorem run_followsProtocol (b : Board) (evs : List BusEvent) :
    FollowsProtocol ((Dev.init b).run evs).dfu := by
  refine Machine.run_invariant' (I := fun d : Dev => FollowsProtocol d.dfu)
    (fun d e hd => step_followsProtocol e hd) ?_ evs
  exact ⟨.nil, fun h => absurd h Bool.false_ne_true⟩

/-- **The device speaks the protocol.**  In every run the log is a trace of the system from
    `dfuIDLE` to the state the driver is in; the states of the application mode and
    `dfuMANIFEST-WAIT-RESET` do not occur; and every download that is carried out comes right
    after a `DFU_GETSTATUS` reported `dfuDNBUSY`, but for replies and `DFU_CLRSTATUS`. -/
theorem run_protocol (b : Board) (evs : List BusEvent) :
    Trace DfuStep .dfuIdle ((Dev.init b).run evs).dfu.log ((Dev.init b).run evs).dfu.state
      ∧ ((Dev.init b).run evs).dfu.state.Used
      ∧ ∀ p older, .exec p :: older <:+ ((Dev.init b).run evs).dfu.log →
          ∃ quiet rest, older = quiet ++ .status dfuStatusOk .dnbusy :: rest
            ∧ ∀ e ∈ quiet, e = .status dfuStatusOk .dnbusy ∨ e = .request .clrstatus
                ∨ e = .getstate .dnbusy := by
  have htrace := (run_followsProtocol b evs).trace
  refine ⟨htrace, htrace.invariant (P := DfuState.Used) (fun _ _ _ hs hstep => hstep.used hs)
    (by simp [DfuState.Used]), fun p older hsuf => ?_⟩
  obtain ⟨t, v, hbefore, hexec⟩ := htrace.step_of_suffix hsuf
  have hbusy : t = .dnbusy := by
    cases hexec
    rfl
  obtain ⟨quiet, e, rest, t', v', heq, -, hout, henter, hin, hstay⟩ :=
    hbefore.entered (P := fun s => s = .dnbusy) (by decide) hbusy
  subst hin
  obtain ⟨-, rfl⟩ := henter.to_dnbusy hout
  refine ⟨quiet, rest, heq, fun e he => ?_⟩
  obtain ⟨s, w, rfl, hstep, rfl⟩ := hstay.label_of_within rfl he
  cases hstep with
  | clearOther _ => exact Or.inr (Or.inl rfl)
  | status _ => exact Or.inl rfl
  | getstate _ => exact Or.inr (Or.inr rfl)

/-! ### System resets -/

/-- After a system reset nothing happens any more. -/
theorem run_of_reset {d : Dev} (h : d.dfu.reset = true) (evs : List BusEvent) : d.run evs = d := by
  induction evs with
  | nil => rfl
  | cons e evs ih =>
    have hstep : d.step e = d := by simp [Dev.step, h]
    rw [Dev.run_cons, hstep, ih]

/-- The log says that a reset was asked for: since a request for manifestation the device saw
    nothing but such requests, `DFU_CLRSTATUS` and questions for its state, and told the host
    that it is in `dfuMANIFEST`. -/
structure AskedToReset (log : List DfuEvent) : Prop where
  asked : ∃ manifests waits ask older,
    log = manifests ++ .status dfuStatusOk .manifest :: (waits ++ ask :: older)
      ∧ ask.AsksManifest ∧ (∀ e ∈ waits, e.Waits) ∧ ∀ e ∈ manifests, e.Manifests

theorem FollowsProtocol.askedToReset {d : Dfu} (h : FollowsProtocol d) (hreset : d.reset = true) :
    AskedToReset d.log := by
  obtain ⟨htrace, hstate⟩ := h
  obtain ⟨manifests, e, older, t, v, heq, hbefore, hout, henter, hin, hstay⟩ :=
    htrace.entered (P := fun s => s = .manifest) (by decide) (hstate hreset)
  subst hin
  obtain ⟨rfl, rfl⟩ := henter.to_manifest hout
  obtain ⟨waits, ask, oldest, t', v', rfl, -, hout', hask, hin', hwait⟩ :=
    hbefore.entered (P := fun s => s = .manifestSync) (by decide) rfl
  subst hin'
  refine ⟨manifests, waits, ask, oldest, heq, hask.to_manifestSync hout', fun e he => ?_,
    fun e he => ?_⟩
  · obtain ⟨s, w, rfl, hstep, rfl⟩ := hwait.label_of_within rfl he
    exact hstep.waits
  · obtain ⟨s, w, rfl, hstep, rfl⟩ := hstay.label_of_within rfl he
    exact hstep.manifests

/-- **No reset unasked.**  A device that resets itself was asked to, and said so. -/
theorem run_reset_asked (b : Board) (evs : List BusEvent)
    (hreset : ((Dev.init b).run evs).dfu.reset = true) :
    AskedToReset ((Dev.init b).run evs).dfu.log :=
  (run_followsProtocol b evs).askedToReset hreset

/-- A host asks for manifestation. -/
def manifestSession : List BusEvent :=
  session ([.setup (dnloadRequest 0 0), .ack] ++ getstatusPackets)

theorem run_reset_asked_manifestSession :
    AskedToReset ((Dev.init blankBoard).run manifestSession).dfu.log :=
  run_reset_asked blankBoard manifestSession (by decide +kernel)

end Stm32F1Dfu
