import Stm32F1Dfu.Requests

namespace Stm32F1Dfu

/-!
# What the device sees of its driver

The control pipe and the polling loop look at the state of the DFU driver in two places
only, where they call it; the build option shows in a string as well.  So another driver of
the same build in its place makes no difference that its answers to these calls do not make.

* `Dev.driven` — the device with another driver, and with more recorded before;
* `Answers` — the other driver answers a request alike;
* `Stands` — the calls of a step are answered alike;
* `step_driven` — the step of the device with the other driver.
-/

/-! ### Another driver -/

/-- The device with the driver `g d.dfu` in the place of its own, and `log` recorded
    before. -/
def Dev.driven (d : Dev) (g : Dfu → Dfu) (log : List UsbEvent) : Dev :=
  { d with dfu := g d.dfu, log := d.log ++ log }

/-- The reply to a request, with another driver left behind. -/
def replyDriven (x : UsbdRequestReturnCodes × Dev) (g : Dfu → Dfu) (log : List UsbEvent) :
    UsbdRequestReturnCodes × Dev :=
  (x.1, x.2.driven g log)

/-- What a request returns, with another driver left behind. -/
def DfuReturn.driven (r : DfuReturn) (g : Dfu → Dfu) : DfuReturn := { r with dfu := g r.dfu }

/-- In the place of `f`, the driver `h f` answers the request `req` as `f` does, and is
    left behind as `g` makes it of what `f` becomes. -/
def Answers (f : Dfu) (h g : Dfu → Dfu) (req : UsbSetupData) : Prop :=
  ∀ ctrl complete, usbdfuControlRequest (h f) ctrl req req.wLength complete
    = (usbdfuControlRequest f ctrl req req.wLength complete).driven g

/-- What `g` makes of a driver is one of the same build. -/
def KeepsBuild (g : Dfu → Dfu) : Prop := ∀ f : Dfu, (g f).safeWrite = f.safeWrite

/-- The calls that the step makes to the driver are answered alike by the driver `h d.dfu`,
    which is then what `g` makes of the driver after the step. -/
structure Stands (d : Dev) (e : BusEvent) (h g : Dfu → Dfu) : Prop where
  reset : (h d.dfu).reset = d.dfu.reset
  build : KeepsBuild g
  request : ∀ req, d.Hands e req → Answers d.dfu h g req
  completion : d.Completes e → usbdfuGetstatusComplete (h d.dfu) = g (usbdfuGetstatusComplete d.dfu)
  other : ¬ d.Completes e → (∀ req, ¬ d.Hands e req) → h d.dfu = g d.dfu

variable (d : Dev) (g : Dfu → Dfu) (log : List UsbEvent)

/-- Drivers that are the same here. -/
theorem Dev.driven_congr {h : Dfu → Dfu} (heq : h d.dfu = g d.dfu) :
    d.driven h log = d.driven g log := by
  unfold Dev.driven
  rw [heq]

/-- Nothing recorded before. -/
theorem Dev.driven_nil : d.driven g [] = { d with dfu := g d.dfu } := by
  unfold Dev.driven
  rw [List.append_nil]

@[simp] theorem Dev.driven_usbReq : (d.driven g log).usbReq = d.usbReq := rfl

/-! ### The requests that are not for the driver -/

theorem usbStandardGetDescriptor_driven (hbuild : KeepsBuild g) :
    usbStandardGetDescriptor (d.driven g log)
      = replyDriven (usbStandardGetDescriptor d) g log := by
  unfold usbStandardGetDescriptor
  rw [show (d.driven g log).dfu.safeWrite = d.dfu.safeWrite from hbuild d.dfu]
  simp only [apply_ite (replyDriven · g log)]
  rfl

theorem usbdStandardRequestDevice_driven (hbuild : KeepsBuild g) :
    usbdStandardRequestDevice (d.driven g log)
      = replyDriven (usbdStandardRequestDevice d) g log := by
  unfold usbdStandardRequestDevice
  rw [usbStandardGetDescriptor_driven d g log hbuild, Dev.driven_usbReq]
  split
  case h_1 => split <;> rfl
  case h_2 => split <;> rfl
  all_goals rfl

theorem usbdStandardRequestInterface_driven :
    usbdStandardRequestInterface (d.driven g log)
      = replyDriven (usbdStandardRequestInterface d) g log := by
  unfold usbdStandardRequestInterface
  rw [Dev.driven_usbReq]
  split <;> rfl

theorem usbdStandardRequestEndpoint_driven :
    usbdStandardRequestEndpoint (d.driven g log)
      = replyDriven (usbdStandardRequestEndpoint d) g log := by
  unfold usbdStandardRequestEndpoint
  rw [Dev.driven_usbReq]
  split
  case h_1 => split <;> rfl
  case h_2 => split <;> rfl
  all_goals rfl

theorem usbdStandardRequest_driven (hbuild : KeepsBuild g) :
    usbdStandardRequest (d.driven g log) = replyDriven (usbdStandardRequest d) g log := by
  unfold usbdStandardRequest
  rw [usbdStandardRequestDevice_driven d g log hbuild, usbdStandardRequestInterface_driven,
    usbdStandardRequestEndpoint_driven, Dev.driven_usbReq]
  split
  · rfl
  · split <;> rfl

theorem dispatchOther_driven (hbuild : KeepsBuild g) :
    dispatchOther (d.driven g log) = replyDriven (dispatchOther d) g log := by
  unfold dispatchOther
  rw [usbdStandardRequest_driven d g log hbuild, Dev.driven_usbReq]
  split <;> rfl

/-! ### Dispatching -/

/-- **Dispatching** a request that is answered alike. -/
theorem usbControlRequestDispatch_driven (hbuild : KeepsBuild g) {h : Dfu → Dfu}
    (hreq : d.usbReq.isClassInterface = true → Answers d.dfu h g d.usbReq)
    (hother : d.usbReq.isClassInterface = false → h d.dfu = g d.dfu) :
    usbControlRequestDispatch (d.driven h log)
      = replyDriven (usbControlRequestDispatch d) g log := by
  have hrequest : dispatchRequest (d.driven h log) = replyDriven (dispatchRequest d) g log := by
    cases hclass : d.usbReq.isClassInterface with
    | true =>
      have hdfu : dispatchDfu (d.driven h log) = replyDriven (dispatchDfu d) g log := by
        unfold dispatchDfu
        rw [show usbdfuControlRequest (d.driven h log).dfu (d.driven h log).ctrl
          (d.driven h log).usbReq (d.driven h log).usbReq.wLength (d.driven h log).usbCompleteCb
            = _ from hreq hclass d.ctrl d.usbCompleteCb]
        rfl
      have hclass' : (d.driven h log).usbReq.isClassInterface = true := hclass
      -- a request that the driver passes goes on to the handlers that do not look at it
      unfold dispatchRequest
      rw [hdfu, if_pos hclass, if_pos hclass']
      generalize dispatchDfu d = x
      obtain ⟨code, d'⟩ := x
      show (if code = .handled ∨ code = .notsupp then (code, d'.driven g log)
        else dispatchOther (d'.driven g log)) = _
      rw [dispatchOther_driven d' g log hbuild]
      simp only
      split <;> rfl
    | false =>
      have hclass' : (d.driven g log).usbReq.isClassInterface = false := hclass
      rw [Dev.driven_congr d g log (hother hclass), dispatchRequest_other hclass,
        dispatchRequest_other hclass', dispatchOther_driven d g log hbuild]
  unfold usbControlRequestDispatch
  rw [hrequest]
  rfl

/-! ### Stages -/

theorem usbControlSendChunk_driven :
    usbControlSendChunk (d.driven g log) = (usbControlSendChunk d).driven g log := by
  unfold usbControlSendChunk
  show (if bMaxPacketSize0 < d.datasize then _ else _) = _
  split <;> rfl

theorem usbControlSetupRead_driven (hbuild : KeepsBuild g) {h : Dfu → Dfu}
    (hreq : d.usbReq.isClassInterface = true → Answers d.dfu h g d.usbReq)
    (hother : d.usbReq.isClassInterface = false → h d.dfu = g d.dfu) :
    usbControlSetupRead (d.driven h log) = (usbControlSetupRead d).driven g log := by
  have hdispatch : (d.driven h log).dispatchAtOnce = replyDriven d.dispatchAtOnce g log :=
    usbControlRequestDispatch_driven { d with dataoff := 0 } g log hbuild hreq hother
  have hcode' : (d.driven h log).dispatchAtOnce.1 = d.dispatchAtOnce.1 := by
    rw [hdispatch]
    rfl
  by_cases hcode : d.dispatchAtOnce.1 = .notsupp
  · rw [usbControlSetupRead_refused hcode, usbControlSetupRead_refused (hcode'.trans hcode),
      hdispatch]
    rfl
  have hne : (d.driven h log).dispatchAtOnce.1 ≠ .notsupp := fun hc => hcode (hcode'.symm.trans hc)
  by_cases h0 : d.usbReq.wLength = 0
  · rw [usbControlSetupRead_status hcode h0, usbControlSetupRead_status hne h0, hdispatch]
    rfl
  · have hreply : (d.dispatchAtOnce.2.driven g log).replying
        = d.dispatchAtOnce.2.replying.driven g log := rfl
    rw [usbControlSetupRead_data hcode h0, usbControlSetupRead_data hne h0, hdispatch]
    show usbControlSendChunk (d.dispatchAtOnce.2.driven g log).replying = _
    rw [hreply, usbControlSendChunk_driven]

theorem usbControlSetupWrite_driven :
    usbControlSetupWrite (d.driven g log) = (usbControlSetupWrite d).driven g log := by
  unfold usbControlSetupWrite
  rw [Dev.driven_usbReq]
  split <;> rfl

/-- **A SETUP packet.** -/
theorem usbdControlSetup_driven (hbuild : KeepsBuild g) {h : Dfu → Dfu}
    (hreq : ∀ req, d.nextSetup = some req → req.isRead = true → req.isClassInterface = true →
      Answers d.dfu h g req)
    (hother : (∀ req, d.nextSetup = some req → req.isRead = true →
      req.isClassInterface = false) → h d.dfu = g d.dfu) :
    usbdControlSetup (d.driven h log) = (usbdControlSetup d).driven g log := by
  cases hnext : d.nextSetup with
  | none =>
    have hsame := Dev.driven_congr d g log (hother fun req hsome => by simp [hnext] at hsome)
    have hnext' : (d.driven g log).nextSetup = none := hnext
    rw [hsame, usbdControlSetup_short hnext, usbdControlSetup_short hnext']
    rfl
  | some req =>
    have hnext' : (d.driven h log).nextSetup = some req := hnext
    rw [usbdControlSetup_some hnext, usbdControlSetup_some hnext']
    cases hread : req.isRead with
    | true =>
      refine usbControlSetupRead_driven (d.afterSetup req) g log hbuild (hreq req hnext hread)
        fun hclass => hother fun req' hsome _ => ?_
      obtain rfl := Option.some.inj (hnext.symm.trans hsome)
      exact hclass
    | false =>
      have hsame : h d.dfu = g d.dfu := by
        apply hother
        intro req' hsome hread'
        obtain rfl := Option.some.inj (hnext.symm.trans hsome)
        rw [hread] at hread'
        exact absurd hread' Bool.false_ne_true
      rw [Dev.driven_congr d g log hsame]
      exact usbControlSetupWrite_driven (d.afterSetup req) g log

theorem completeTransfer_driven {h : Dfu → Dfu}
    (hcomp : d.usbCompleteCb = true →
      usbdfuGetstatusComplete (h d.dfu) = g (usbdfuGetstatusComplete d.dfu))
    (hother : d.usbCompleteCb = false → h d.dfu = g d.dfu) :
    completeTransfer (d.driven h log) = (completeTransfer d).driven g log := by
  cases hcb : d.usbCompleteCb with
  | true =>
    have hcb' : (d.driven h log).usbCompleteCb = true := hcb
    unfold completeTransfer
    rw [hcb, hcb', if_pos rfl, if_pos rfl,
      show usbdfuGetstatusComplete (d.driven h log).dfu = _ from hcomp hcb]
    rfl
  | false =>
    have hcb' : (d.driven g log).usbCompleteCb = false := hcb
    rw [Dev.driven_congr d g log (hother hcb)]
    unfold completeTransfer
    rw [hcb, hcb']
    rfl

/-- **An OUT packet.** -/
theorem usbdControlOut_driven (hbuild : KeepsBuild g) {h : Dfu → Dfu}
    (hreq : d.fsm = .lastDataOut ∧ d.chunkFits = true ∧ d.usbReq.isClassInterface = true →
      Answers d.dfu h g d.usbReq)
    (hcomp : d.fsm = .statusOut ∧ d.usbCompleteCb = true →
      usbdfuGetstatusComplete (h d.dfu) = g (usbdfuGetstatusComplete d.dfu))
    (hother : ¬ (d.fsm = .lastDataOut ∧ d.chunkFits = true ∧ d.usbReq.isClassInterface = true) →
      ¬ (d.fsm = .statusOut ∧ d.usbCompleteCb = true) → h d.dfu = g d.dfu) :
    usbdControlOut (d.driven h log) = (usbdControlOut d).driven g log := by
  by_cases hlast : d.fsm = .lastDataOut
  · have hstatus : d.fsm ≠ .statusOut := by
      rw [hlast]
      decide
    cases hfits : d.chunkFits with
    | true =>
      have hfits' : (d.driven h log).chunkFits = true := hfits
      have hlast' : (d.driven h log).fsm = .lastDataOut := hlast
      have hdispatch : usbControlRequestDispatch (d.driven h log).stored
          = replyDriven (usbControlRequestDispatch d.stored) g log := by
        refine usbControlRequestDispatch_driven d.stored g log hbuild
          (fun hclass => hreq ⟨hlast, hfits, hclass⟩) fun hclass => hother ?_ fun hs => hstatus hs.1
        rintro ⟨-, -, hclass'⟩
        exact absurd (hclass.symm.trans hclass') Bool.false_ne_true
      rw [usbdControlOut_lastDataOut hlast hfits, usbdControlOut_lastDataOut hlast' hfits',
        hdispatch]
      show (if (usbControlRequestDispatch d.stored).1 ≠ .notsupp then _ else _) = _
      split <;> rfl
    | false =>
      have hsame : h d.dfu = g d.dfu :=
        hother (fun hl => by simp [hfits] at hl) fun hs => hstatus hs.1
      have hfits' : (d.driven g log).chunkFits = false := hfits
      have hlast' : (d.driven g log).fsm = .lastDataOut := hlast
      rw [Dev.driven_congr d g log hsame, usbdControlOut_short (Or.inr hlast) hfits,
        usbdControlOut_short (Or.inr hlast') hfits']
      rfl
  by_cases hstatus : d.fsm = .statusOut
  · have hcomplete (p : Periph) :
        completeTransfer { d.driven h log with periph := p, fsm := .idle }
          = (completeTransfer { d with periph := p, fsm := .idle }).driven g log := by
      refine completeTransfer_driven { d with periph := p, fsm := .idle } g log
        (fun hcb => hcomp ⟨hstatus, hcb⟩) fun hcb => hother (fun hl => hlast hl.1) ?_
      rintro ⟨-, hcb'⟩
      exact absurd (hcb.symm.trans hcb') Bool.false_ne_true
    unfold usbdControlOut
    rw [show (d.driven h log).fsm = d.fsm from rfl, hstatus]
    show ({ completeTransfer { d.driven h log with
        periph := (usbdEpReadPacket d.periph 0 (fun _ => 0) 0).1, fsm := .idle } with
      usbCompleteCb := false } : Dev) = _
    rw [hcomplete]
    rfl
  -- in the other stages the driver is not called
  have hsame : h d.dfu = g d.dfu := hother (fun hl => hlast hl.1) fun hs => hstatus hs.1
  have hfsm : (d.driven g log).fsm = d.fsm := rfl
  rw [Dev.driven_congr d g log hsame]
  by_cases hdata : d.fsm = .dataOut
  · cases hfits : d.chunkFits with
    | true =>
      have hfits' : (d.driven g log).chunkFits = true := hfits
      rw [usbdControlOut_dataOut hdata hfits, usbdControlOut_dataOut (hfsm.trans hdata) hfits']
      rfl
    | false =>
      have hfits' : (d.driven g log).chunkFits = false := hfits
      rw [usbdControlOut_short (Or.inl hdata) hfits,
        usbdControlOut_short (Or.inl (hfsm.trans hdata)) hfits']
      rfl
  · rw [usbdControlOut_unexpected hdata hlast hstatus,
      usbdControlOut_unexpected (hfsm ▸ hdata) (hfsm ▸ hlast) (hfsm ▸ hstatus)]
    rfl

/-- **An acknowledged IN packet.** -/
theorem usbdControlIn_driven {h : Dfu → Dfu}
    (hcomp : d.fsm = .statusIn ∧ d.usbCompleteCb = true →
      usbdfuGetstatusComplete (h d.dfu) = g (usbdfuGetstatusComplete d.dfu))
    (hother : ¬ (d.fsm = .statusIn ∧ d.usbCompleteCb = true) → h d.dfu = g d.dfu) :
    usbdControlIn (d.driven h log) = (usbdControlIn d).driven g log := by
  by_cases hstatus : d.fsm = .statusIn
  · have hcomplete : completeTransfer (d.driven h log) = (completeTransfer d).driven g log := by
      refine completeTransfer_driven d g log (fun hcb => hcomp ⟨hstatus, hcb⟩) fun hcb => hother ?_
      rintro ⟨-, hcb'⟩
      exact absurd (hcb.symm.trans hcb') Bool.false_ne_true
    unfold usbdControlIn
    rw [show (d.driven h log).fsm = d.fsm from rfl, hcomplete, hstatus]
    rfl
  · rw [Dev.driven_congr d g log (hother fun hs => hstatus hs.1)]
    unfold usbdControlIn
    rw [show (d.driven g log).fsm = d.fsm from rfl]
    cases hfsm : d.fsm with
    | dataIn => exact usbControlSendChunk_driven d g log
    | statusIn => exact absurd hfsm hstatus
    | _ => rfl

/-! ### Steps -/

/-- **A step** whose calls are answered alike does the same with the other driver. -/
theorem step_driven {h : Dfu → Dfu} {e : BusEvent} (hstands : Stands d e h g) :
    (d.driven h log).step e = (d.step e).driven g log := by
  have hrun : (d.driven h log).dfu.reset = d.dfu.reset := hstands.reset
  -- a step that calls the driver neither way finds the other one as it leaves it
  have hidle (hc : ¬ d.Completes e) (hh : ∀ req, ¬ d.Hands e req) :
      d.driven h log = d.driven g log :=
    Dev.driven_congr d g log (hstands.other hc hh)
  by_cases hreset : d.dfu.reset = true
  · have hreset' : (d.driven h log).dfu.reset = true := hrun.trans hreset
    rw [show d.step e = d from if_pos hreset, show (d.driven h log).step e = _ from if_pos hreset']
    refine hidle (fun hc => ?_) fun req hh => ?_
    · exact absurd (hreset.symm.trans hc.1) (by decide)
    · exact absurd (hreset.symm.trans hh.1) (by decide)
  have hreset : d.dfu.reset = false := by simpa using hreset
  by_cases he : e = .poll
  · subst he
    have hserved' : (d.driven h log).periph.served = d.periph.served := rfl
    rw [step_doUsbPoll hreset, step_doUsbPoll (hrun.trans hreset), doUsbPoll_served,
      doUsbPoll_served, hserved']
    by_cases hbus : d.periph.served = .reset
    · rw [if_pos hbus, if_pos hbus,
        hidle (fun hc => by simp [Dev.Completes, hbus] at hc)
          fun req hh => by simp [Dev.Hands, Dev.nextRequest, hbus] at hh]
      rfl
    rw [if_neg hbus, if_neg hbus]
    have hserve : (d.driven h log).serve d.periph.served
        = (d.serve d.periph.served).driven g log := by
      cases hserved : d.periph.served with
      | reset => exact absurd hserved hbus
      | setup =>
        -- a read is handed on in the same poll
        refine usbdControlSetup_driven d g log hstands.build (fun req hnext hread hclass => ?_)
          fun hno => ?_
        · refine hstands.request req ⟨hreset, rfl, ?_⟩
          simp [Dev.nextRequest, hserved, hnext, hread, hclass]
        · refine hstands.other (fun hc => by simp [Dev.Completes, hserved] at hc) fun req hh => ?_
          have hsome := hh.2.2
          simp only [Dev.nextRequest, hserved, Option.filter_eq_some_iff, Bool.and_eq_true] at hsome
          obtain ⟨hnext, hread, hclass⟩ := hsome
          exact absurd ((hno req hnext hread).symm.trans hclass) Bool.false_ne_true
      | out =>
        -- a write with its last packet, or a completion in `STATUS_OUT`
        refine usbdControlOut_driven d g log hstands.build (fun hlast => ?_) (fun hs => ?_)
          fun hl hs => ?_
        · refine hstands.request d.usbReq ⟨hreset, rfl, ?_⟩
          simp only [Dev.nextRequest, hserved]
          exact if_pos hlast
        · exact hstands.completion ⟨hreset, rfl, hs.2, Or.inl ⟨hserved, hs.1⟩⟩
        · refine hstands.other (fun hc => ?_) fun req hh => ?_
          · obtain ⟨-, -, hcb, ⟨-, hfsm⟩ | ⟨htx, -⟩⟩ := hc
            · exact hs ⟨hfsm, hcb⟩
            · rw [hserved] at htx
              exact absurd htx (by decide)
          · have hsome := hh.2.2
            simp only [Dev.nextRequest, hserved] at hsome
            rw [if_neg hl] at hsome
            exact absurd hsome (by simp)
      | tx =>
        -- a completion in `STATUS_IN`
        refine usbdControlIn_driven { d with periph := usbClrEpTxCtr d.periph _ } g log
          (fun hs => ?_) fun hs => ?_
        · exact hstands.completion ⟨hreset, rfl, hs.2, Or.inr ⟨hserved, hs.1⟩⟩
        · refine hstands.other (fun hc => ?_) fun req hh => ?_
          · obtain ⟨-, -, hcb, ⟨hout, -⟩ | ⟨-, hfsm⟩⟩ := hc
            · rw [hserved] at hout
              exact absurd hout (by decide)
            · exact hs ⟨hfsm, hcb⟩
          · simp [Dev.Hands, Dev.nextRequest, hserved] at hh
      | nothing =>
        rw [hidle (fun hc => by simp [Dev.Completes, hserved] at hc)
          fun req hh => by simp [Dev.Hands, Dev.nextRequest, hserved] at hh]
        rfl
    rw [hserve]
    rfl
  · rw [step_bus hreset he, step_bus (hrun.trans hreset) he,
      hidle (fun hc => he hc.2.1) fun req hh => he hh.2.1]
    rfl

end Stm32F1Dfu
