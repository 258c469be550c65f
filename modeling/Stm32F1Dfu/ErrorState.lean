import Stm32F1Dfu.Requests
import Stm32F1Dfu.Downloads

namespace Stm32F1Dfu

open Machine

/-!
# `dfuERROR` over whole runs

Whether the device stays in `dfuERROR` until a `DFU_CLRSTATUS`.  Only `DFU_CLRSTATUS` looks
at the state it is called in; every other request that sets the state sets it in
`dfuERROR` too.

* `Escapes` — the requests that lead out of `dfuERROR` without being a `DFU_CLRSTATUS`;
* `step_error` — what a step does in `dfuERROR` without one of them;
* `run_error_sticky` — the run from `dfuERROR` on;
* `abortedError_reported` — with one of them, the device leaves `dfuERROR`.
-/

/-! ### One request -/

/-- The block that a `DFU_UPLOAD` asks for is served. -/
def UploadServed (d : Dfu) (req : UsbSetupData) : Prop :=
  req.wValue = 0 ∨ inRange (blockAddr d.prog.addr req.wValue) 1024 = true

/-- The request leads out of `dfuERROR` and is no `DFU_CLRSTATUS`. -/
def Escapes (d : Dfu) (req : UsbSetupData) : Prop :=
  DfuReq.ofCode req.bRequest = some .dnload ∨ DfuReq.ofCode req.bRequest = some .detach
    ∨ DfuReq.ofCode req.bRequest = some .abort
    ∨ DfuReq.ofCode req.bRequest = some .upload ∧ UploadServed d req

instance (d : Dfu) (req : UsbSetupData) : Decidable (UploadServed d req) :=
  inferInstanceAs (Decidable (_ ∨ _))

instance (d : Dfu) (req : UsbSetupData) : Decidable (Escapes d req) :=
  inferInstanceAs (Decidable (_ ∨ _ ∨ _ ∨ _ ∧ _))

/-- The entry, if it is a reply to the host, reports `dfuERROR`. -/
def DfuEvent.ReportsError : DfuEvent → Prop
  | .status bStatus bState => bStatus = DfuState.error.code ∧ bState = .error
  | .getstate bState => bState = .error
  | _ => True

/-- The entry is a `DFU_CLRSTATUS`. -/
def DfuEvent.isClrstatus : DfuEvent → Bool
  | .request .clrstatus => true
  | _ => false

/-- **A request in `dfuERROR`** that does not escape: it is passed on, or reports the error
    and leaves all but the log alone, or is the `DFU_CLRSTATUS`. -/
theorem usbdfuControlRequest_error {d : Dfu} (hs : d.state = .error) {req : UsbSetupData}
    (hreq : ¬ Escapes d req) (ctrl : Nat → UInt8) (len : UInt16) (complete : Bool) :
    (usbdfuControlRequest d ctrl req len complete).dfu = d
      ∨ (∃ ev : DfuEvent, ev.ReportsError
          ∧ (usbdfuControlRequest d ctrl req len complete).dfu = { d with log := ev :: d.log })
      ∨ (usbdfuControlRequest d ctrl req len complete).dfu.log
          = .request .clrstatus :: d.log := by
  unfold Escapes at hreq
  unfold usbdfuControlRequest
  cases hr : DfuReq.ofCode req.bRequest with
  | none => exact Or.inl rfl
  | some r =>
    rw [hr] at hreq
    cases r with
    | dnload => exact absurd (Or.inl rfl) hreq
    | detach => exact absurd (Or.inr (Or.inl rfl)) hreq
    | abort => exact absurd (Or.inr (Or.inr (Or.inl rfl))) hreq
    | clrstatus => exact Or.inr (Or.inr rfl)
    | getstate =>
      right; left
      exact ⟨.getstate d.state, hs, rfl⟩
    | getstatus =>
      right; left
      have hget : usbdfuGetstatus d 0 = (DfuState.error.code, 0, d) := by
        simp only [usbdfuGetstatus, hs]
      refine ⟨.status DfuState.error.code d.state, ⟨rfl, hs⟩, ?_⟩
      simp only [hget]
    | upload =>
      right; left
      have hserved : ¬ UploadServed d req :=
        fun h => hreq (Or.inr (Or.inr (Or.inr ⟨rfl, h⟩)))
      simp only [UploadServed, not_or] at hserved
      refine ⟨.request .upload, trivial, ?_⟩
      simp only [if_neg hserved.1, if_neg hserved.2]
      rw [← hs]

/-! ### Steps and runs -/

/-- The condition on one step: in `dfuERROR` it hands on no request that escapes. -/
def ErrorKept (d : Dev) (e : BusEvent) : Prop :=
  d.dfu.state = .error → ∀ req, d.Hands e req → ¬ Escapes d.dfu req

instance (d : Dev) (e : BusEvent) : Decidable (ErrorKept d e) :=
  match h : d.nextRequest with
  | none => isTrue fun _ req hreq => by simp [Dev.Hands, h] at hreq
  | some r => decidable_of_iff (d.dfu.state = .error → d.Hands e r → ¬ Escapes d.dfu r)
      ⟨fun hr hs req hreq => by
          obtain rfl : r = req := Option.some.inj (h.symm.trans hreq.2.2)
          exact hr hs hreq,
        fun hr hs hreq => hr hs r hreq⟩

/-- **A step in `dfuERROR`** that meets the condition: it leaves the driver alone, or adds a
    reply that reports the error, or hands a `DFU_CLRSTATUS` on. -/
theorem step_error {d : Dev} {e : BusEvent} (hs : d.dfu.state = .error) (hc : ErrorKept d e) :
    (d.step e).dfu = d.dfu
      ∨ (∃ ev : DfuEvent, ev.ReportsError
          ∧ (d.step e).dfu = { d.dfu with log := ev :: d.dfu.log })
      ∨ (d.step e).dfu.log = .request .clrstatus :: d.dfu.log := by
  by_cases hcomplete : d.Completes e
  · left
    rw [step_dfu_of_completes hcomplete, usbdfuGetstatusComplete_other (by rw [hs]; decide),
      if_neg (by rw [hs]; decide)]
  by_cases hhands : ∃ req, d.Hands e req
  · obtain ⟨req, hreq⟩ := hhands
    obtain ⟨-, ctrl, complete, hstep⟩ := step_dfu_of_hands hreq
    rw [hstep]
    exact usbdfuControlRequest_error hs (hc hs req hreq) ctrl req.wLength complete
  · left
    exact step_dfu_of_not_hands hcomplete fun req hreq => hhands ⟨req, hreq⟩

/-- The driver `f'` comes after `f`: while no `DFU_CLRSTATUS` is on record since then, it is
    in `dfuERROR`, has reported nothing else and has the stores of `f`. -/
def ErrorSince (f f' : Dfu) : Prop :=
  ∃ new, f'.log = new ++ f.log ∧ ((∀ ev ∈ new, ev.isClrstatus = false) →
    f'.state = .error ∧ (∀ ev ∈ new, ev.ReportsError) ∧ f'.store = f.store)

theorem ErrorSince.step {f : Dfu} {d : Dev} {e : BusEvent} (h : ErrorSince f d.dfu)
    (hc : ErrorKept d e) : ErrorSince f (d.step e).dfu := by
  obtain ⟨new, hlog, hkept⟩ := h
  by_cases hcleared : ∀ ev ∈ new, ev.isClrstatus = false
  · obtain ⟨hs, hreports, hstore⟩ := hkept hcleared
    rcases step_error hs hc with hsame | ⟨ev, hev, hadd⟩ | hclear
    · rw [hsame]
      exact ⟨new, hlog, hkept⟩
    · rw [hadd]
      refine ⟨ev :: new, by rw [hlog]; rfl, fun _ => ⟨hs, ?_, hstore⟩⟩
      intro ev' hmem
      rcases List.mem_cons.mp hmem with rfl | hold
      · exact hev
      · exact hreports ev' hold
    · refine ⟨.request .clrstatus :: new, by rw [hclear, hlog]; rfl, fun hno => ?_⟩
      exact absurd (hno _ List.mem_cons_self) (by decide)
  · -- a `DFU_CLRSTATUS` is on record: the log only grows
    obtain ⟨one, hone, -⟩ := run_quiet d [e]
    refine ⟨one ++ new, ?_, fun hno => ?_⟩
    · rw [List.append_assoc, ← hlog]
      exact hone
    · exact absurd (fun ev hev => hno ev (List.mem_append_right _ hev)) hcleared

/-- **`dfuERROR` until `DFU_CLRSTATUS`.**  From any state of any run in `dfuERROR`, through
    any events whose steps hand on no request that escapes: until a `DFU_CLRSTATUS` is
    handled, every `DFU_GETSTATUS` and `DFU_GETSTATE` reports `dfuERROR`, and no operation
    is issued to the flash. -/
theorem run_error_sticky (b : Board) (evs evs' : List BusEvent)
    (hs : ((Dev.init b).run evs).dfu.state = .error)
    (hall : AllSteps Dev.step ErrorKept ((Dev.init b).run evs) evs') :
    ∃ new, (((Dev.init b).run evs).run evs').dfu.log = new ++ ((Dev.init b).run evs).dfu.log
      ∧ ((∀ ev ∈ new, ev.isClrstatus = false) →
          (∀ ev ∈ new, ev.ReportsError)
            ∧ (((Dev.init b).run evs).run evs').dfu.store.flash
                = ((Dev.init b).run evs).dfu.store.flash
            ∧ (((Dev.init b).run evs).run evs').dfu.store.ops
                = ((Dev.init b).run evs).dfu.store.ops) := by
  have hstart : ErrorSince ((Dev.init b).run evs).dfu ((Dev.init b).run evs).dfu :=
    ⟨[], rfl, fun _ => ⟨hs, by simp, rfl⟩⟩
  obtain ⟨new, hlog, hkept⟩ : ErrorSince ((Dev.init b).run evs).dfu
      (((Dev.init b).run evs).run evs').dfu :=
    run_invariant (I := fun d : Dev => ErrorSince ((Dev.init b).run evs).dfu d.dfu)
      (fun _ _ h hc => h.step hc) hstart hall
  refine ⟨new, hlog, fun hno => ?_⟩
  obtain ⟨-, hreports, hstore⟩ := hkept hno
  exact ⟨hreports, by rw [hstore], by rw [hstore]⟩

/-- A host asks for the block at address 0, which is refused: the device is in
    `dfuERROR`. -/
def refusedUpload : List BusEvent :=
  session [.setup (dfuRequest 0xA1 2 2 1024), .ack, .out []]

/-- A `DFU_GETSTATUS` then finds `dfuERROR`, and nothing is issued to the flash. -/
theorem run_error_sticky_getstatus :
    (((Dev.init blankBoard).run refusedUpload).run (polled getstatusPackets)).dfu.log.all
        (fun ev => !ev.isClrstatus) = true
      ∧ (((Dev.init blankBoard).run refusedUpload).run (polled getstatusPackets)).dfu.store.ops
          = ((Dev.init blankBoard).run refusedUpload).dfu.store.ops := by
  have hrun : ((Dev.init blankBoard).run refusedUpload).dfu.state = .error
      ∧ AllSteps Dev.step ErrorKept ((Dev.init blankBoard).run refusedUpload)
          (polled getstatusPackets)
      ∧ (((Dev.init blankBoard).run refusedUpload).run (polled getstatusPackets)).dfu.log.all
          (fun ev => !ev.isClrstatus) = true := by
    decide +kernel
  obtain ⟨hs, hall, hlog⟩ := hrun
  obtain ⟨new, hnew, hkept⟩ := run_error_sticky blankBoard refusedUpload (polled getstatusPackets)
    hs hall
  refine ⟨hlog, (hkept fun ev hev => ?_).2.2⟩
  rw [hnew, List.all_append, Bool.and_eq_true, List.all_eq_true] at hlog
  simpa using hlog.1 ev hev

/-- The host aborts and asks for the state. -/
def abortAndAsk : List BusEvent :=
  polled [.setup (dfuRequest 0x21 6 0 0), .ack, .setup (dfuRequest 0xA1 5 0 1), .ack, .out []]

/-- The reply is `dfuIDLE`, with no `DFU_CLRSTATUS` in the whole run. -/
theorem abortedError_reported :
    ((Dev.init blankBoard).run refusedUpload).dfu.state = .error
      ∧ (((Dev.init blankBoard).run refusedUpload).run abortAndAsk).dfu.log.all
          (fun ev => !ev.isClrstatus) = true
      ∧ (((Dev.init blankBoard).run refusedUpload).run abortAndAsk).dfu.log.head?.bind
          DfuEvent.reported = some .dfuIdle := by
  decide +kernel

end Stm32F1Dfu
