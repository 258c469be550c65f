import Stm32F1Dfu.Execution
import Stm32F1Dfu.Transfers

namespace Stm32F1Dfu

open Machine

/-!
# Downloads over whole runs

What the log of the driver says about downloads, in every run: requests in any order,
transfers aborted at any stage, stalls and bus resets.

* `DownloadInv` — the invariant: what the state of the driver says about the log;
* `step_writesByCompletion` — nothing but the completion changes the flash or the address
  pointer;
* `step_carriesOutOnce` — an execution on record is one: the operations of the download are
  issued once;
* `run_downloads` — a stored download is carried out at most once, as it was stored last,
  and a reply that reports `dfuDNLOAD-IDLE` means that it was;
* `run_quiet` — the log only grows, and without a new execution the flash is the same;
* `run_refusal_hidden` — what the range check refused is reported as success.
-/

/-! ### Reading the log

The log has its newest entry first. -/

/-- The download dispatched most recently. -/
def lastDnload : List DfuEvent → Option Prog
  | []            => none
  | .dnload p :: _ => some p
  | _ :: older    => lastDnload older

/-- How many downloads were carried out since one was dispatched. -/
def execsSince : List DfuEvent → Nat
  | []             => 0
  | .dnload _ :: _ => 0
  | .exec _ :: older => execsSince older + 1
  | _ :: older     => execsSince older

/-- Only the download dispatched most recently is carried out, as it was stored, and not
    twice. -/
def ExecOnce (e : DfuEvent) (older : List DfuEvent) : Prop :=
  ∀ p, e = .exec p → lastDnload older = some p ∧ execsSince older = 0

/-- The state a reply to the host reports. -/
def DfuEvent.reported : DfuEvent → Option DfuState
  | .status _ s => some s
  | .getstate s => some s
  | _           => none

/-- A reply reports `dfuDNLOAD-IDLE` only when the download dispatched most recently has
    been carried out exactly once. -/
def IdleExecuted (e : DfuEvent) (older : List DfuEvent) : Prop :=
  e.reported = some .dnloadIdle → lastDnload older ≠ none ∧ execsSince older = 1

/-! ### The invariant -/

/-- The download that the state of the driver speaks of. -/
def StateMatchesLog (d : Dfu) : Prop :=
  (d.state = .dnloadSync ∨ d.state = .dnbusy →
      lastDnload d.log = some d.prog ∧ execsSince d.log = 0)
    ∧ (d.state = .dnloadIdle → lastDnload d.log ≠ none ∧ execsSince d.log = 1)

/-- The log of the driver is in order, and its state matches it. -/
structure DownloadInv (d : Dfu) : Prop where
  state : StateMatchesLog d
  once : AllLog ExecOnce d.log
  idle : AllLog IdleExecuted d.log

/-- A new entry that neither stores nor carries out a download: the state may keep what it
    says, or say nothing. -/
theorem StateMatchesLog.of_quiet {d : Dfu} (h : StateMatchesLog d) {e : DfuEvent} {s : DfuState}
    (hlast : lastDnload (e :: d.log) = lastDnload d.log)
    (hexecs : execsSince (e :: d.log) = execsSince d.log)
    (hs : s = d.state ∨ d.state = .dnloadSync ∧ s = .dnbusy
      ∨ s ≠ .dnloadSync ∧ s ≠ .dnbusy ∧ s ≠ .dnloadIdle) :
    StateMatchesLog { d with state := s, log := e :: d.log } := by
  obtain ⟨hwait, hidle⟩ := h
  refine ⟨fun hw => ?_, fun hi => ?_⟩
  · rw [hlast, hexecs]
    apply hwait
    rcases hs with rfl | ⟨hsync, -⟩ | ⟨h1, h2, -⟩
    · exact hw
    · exact Or.inl hsync
    · exact absurd hw (by simp [h1, h2])
  · rw [hlast, hexecs]
    apply hidle
    have hi : s = .dnloadIdle := hi
    rcases hs with rfl | ⟨-, rfl⟩ | ⟨-, -, h3⟩
    · exact hi
    · exact absurd hi (by decide)
    · exact absurd hi h3

/-- Requests keep the invariant. -/
theorem RequestEffect.downloadInv {d d' : Dfu} (he : RequestEffect d d') (h : DownloadInv d) :
    DownloadInv d' := by
  obtain ⟨hstate, honce, hidle⟩ := h
  cases he with
  | pass => exact ⟨hstate, honce, hidle⟩
  | download p haddr hlen =>
    refine ⟨⟨fun _ => ⟨rfl, rfl⟩, fun hi => ?_⟩, ?_, ?_⟩
    · simp at hi
    · exact (allLog_cons ..).mpr ⟨fun q hq => by simp at hq, honce⟩
    · exact (allLog_cons ..).mpr ⟨fun hr => by simp [DfuEvent.reported] at hr, hidle⟩
  | status bStatus s hs =>
    have hmatch : StateMatchesLog { d with state := s, log := .status bStatus s :: d.log } := by
      refine hstate.of_quiet rfl rfl ?_
      rcases hs with ⟨h0, rfl, -⟩ | ⟨-, rfl, -⟩ | ⟨-, rfl, -⟩ | ⟨-, -, -, rfl, -⟩
      · exact Or.inr (Or.inl ⟨h0, rfl⟩)
      · exact Or.inr (Or.inr ⟨by decide, by decide, by decide⟩)
      · exact Or.inr (Or.inr ⟨by decide, by decide, by decide⟩)
      · exact Or.inl rfl
    refine ⟨hmatch, (allLog_cons ..).mpr ⟨fun q hq => by simp at hq, honce⟩,
      (allLog_cons ..).mpr ⟨fun hr => ?_, hidle⟩⟩
    -- the state it reports is the one that matches the log
    have hs : s = .dnloadIdle := by simpa [DfuEvent.reported] using hr
    exact hmatch.2 hs
  | getstate =>
    have hmatch : StateMatchesLog { d with log := .getstate d.state :: d.log } :=
      hstate.of_quiet (e := .getstate d.state) rfl rfl (Or.inl rfl)
    refine ⟨hmatch, (allLog_cons ..).mpr ⟨fun q hq => by simp at hq, honce⟩,
      (allLog_cons ..).mpr ⟨fun hr => ?_, hidle⟩⟩
    have hs : d.state = .dnloadIdle := by simpa [DfuEvent.reported] using hr
    exact hmatch.2 hs
  | other r s hs =>
    refine ⟨hstate.of_quiet rfl rfl ?_,
      (allLog_cons ..).mpr ⟨fun q hq => by simp at hq, honce⟩,
      (allLog_cons ..).mpr ⟨fun hr => by simp [DfuEvent.reported] at hr, hidle⟩⟩
    rcases hs with rfl | rfl | rfl | ⟨rfl, -⟩ | rfl
    · exact Or.inr (Or.inr ⟨by decide, by decide, by decide⟩)
    · exact Or.inr (Or.inr ⟨by decide, by decide, by decide⟩)
    · exact Or.inr (Or.inr ⟨by decide, by decide, by decide⟩)
    · exact Or.inr (Or.inr ⟨by decide, by decide, by decide⟩)
    · exact Or.inl rfl

/-- The completion keeps the invariant: it carries out the download that waits. -/
theorem usbdfuGetstatusComplete_downloadInv {d : Dfu} (h : DownloadInv d) :
    DownloadInv (usbdfuGetstatusComplete d) := by
  obtain ⟨hstate, honce, hidle⟩ := h
  by_cases hs : d.state = .dnbusy
  · obtain ⟨hlast, hexecs⟩ := hstate.1 (Or.inr hs)
    rw [usbdfuGetstatusComplete_dnbusy hs]
    refine ⟨⟨fun hw => by simp at hw, fun _ => ⟨?_, ?_⟩⟩,
      (allLog_cons ..).mpr ⟨fun q hq => ?_, honce⟩,
      (allLog_cons ..).mpr ⟨fun hr => by simp [DfuEvent.reported] at hr, hidle⟩⟩
    · show lastDnload d.log ≠ none
      rw [hlast]
      exact Option.some_ne_none _
    · show execsSince d.log + 1 = 1
      rw [hexecs]
    · obtain rfl : d.prog = q := by simpa using hq
      exact ⟨hlast, hexecs⟩
  · rw [usbdfuGetstatusComplete_other hs]
    split <;> exact ⟨hstate, honce, hidle⟩

/-- The invariant holds in every state of every run. -/
theorem run_downloadInv (b : Board) (evs : List BusEvent) :
    DownloadInv ((Dev.init b).run evs).dfu := by
  refine run_dfu_invariant (fun _ _ he => he.downloadInv)
    (fun _ => usbdfuGetstatusComplete_downloadInv) ?_ evs
  exact ⟨⟨fun h => by simp [Dev.init, Dfu.init] at h, fun h => by simp [Dev.init, Dfu.init] at h⟩,
    allLog_nil _, allLog_nil _⟩

/-! ### Once, and by the completion only -/

/-- The completion changes flash and address pointer in `dfuDNBUSY` only. -/
theorem usbdfuGetstatusComplete_keeps {d : Dfu} (h : d.state ≠ .dnbusy) :
    (usbdfuGetstatusComplete d).store.flash = d.store.flash
      ∧ (usbdfuGetstatusComplete d).prog.addr = d.prog.addr := by
  rw [usbdfuGetstatusComplete_other h]
  split <;> exact ⟨rfl, rfl⟩

/-- Where the step changes the flash or the address pointer, it is the completion in
    `dfuDNBUSY`. -/
def WritesByCompletion (d : Dev) (e : BusEvent) : Prop :=
  (d.step e).dfu.store.flash ≠ d.dfu.store.flash ∨ (d.step e).dfu.prog.addr ≠ d.dfu.prog.addr →
    d.Completes e ∧ d.dfu.state = .dnbusy ∧ (d.step e).dfu = usbdfuGetstatusComplete d.dfu

/-- **Nothing but the completion in `dfuDNBUSY`** changes the flash or the address
    pointer. -/
theorem step_writesByCompletion (d : Dev) (e : BusEvent) : WritesByCompletion d e := by
  intro h
  by_cases hc : d.Completes e
  · have hstep := step_dfu_of_completes hc
    refine ⟨hc, ?_, hstep⟩
    by_contra hs
    obtain ⟨hflash, haddr⟩ := usbdfuGetstatusComplete_keeps hs
    rw [hstep] at h
    exact h.elim (fun hf => hf hflash) (fun ha => ha haddr)
  · exfalso
    rcases step_dfu_of_not_completes hc with hsame | ⟨ctrl, req, complete, hreq⟩
    · rw [hsame] at h
      exact h.elim (fun hf => hf rfl) (fun ha => ha rfl)
    · rw [hreq, usbdfuControlRequest_store, usbdfuControlRequest_addr] at h
      exact h.elim (fun hf => hf rfl) (fun ha => ha rfl)

/-! ### An entry is an execution -/

/-- A request adds at most one entry, which is no execution. -/
theorem RequestEffect.log_grows {d d' : Dfu} (h : RequestEffect d d') :
    ∃ new, d'.log = new ++ d.log ∧ ∀ p, .exec p ∉ new := by
  cases h with
  | pass => exact ⟨[], rfl, by simp⟩
  | download p haddr hlen => exact ⟨[.dnload p], rfl, by simp⟩
  | status bStatus s hs => exact ⟨[.status bStatus s], rfl, by simp⟩
  | getstate => exact ⟨[.getstate d.state], rfl, by simp⟩
  | other r s hs => exact ⟨[.request r], rfl, by simp⟩

/-- Where the step records executions it records one, that of the stored download: it is the
    completion in `dfuDNBUSY`, the operations it issues are those of carrying the download out
    once, and so is what it leaves in the address pointer. -/
def CarriesOutOnce (d : Dev) (e : BusEvent) : Prop :=
  ∀ new p, (d.step e).dfu.log = new ++ d.dfu.log → .exec p ∈ new →
    d.Completes e ∧ d.dfu.state = .dnbusy ∧ p = d.dfu.prog ∧ new = [.exec p]
      ∧ Issued d.dfu.store (p.carryOps d.dfu.store.flash d.dfu.wipes) (d.step e).dfu.store
      ∧ (d.step e).dfu.prog.addr = p.addrAfter

/-- **A recorded execution is one**: the stored download is carried out in that step, once. -/
theorem step_carriesOutOnce (d : Dev) (e : BusEvent) : CarriesOutOnce d e := by
  intro new p hlog hp
  by_cases hc : d.Completes e
  · have hstep := step_dfu_of_completes hc
    by_cases hs : d.dfu.state = .dnbusy
    · have hexec := usbdfuGetstatusComplete_dnbusy hs
      have hnew : new = [.exec d.dfu.prog] := by
        rw [hstep, hexec] at hlog
        have hcons : [.exec d.dfu.prog] ++ d.dfu.log = new ++ d.dfu.log := hlog
        exact (List.append_cancel_right hcons).symm
      subst hnew
      obtain rfl : p = d.dfu.prog := by simpa using hp
      refine ⟨hc, hs, rfl, rfl, ?_, ?_⟩
      · rw [hstep]
        exact usbdfuGetstatusComplete_issued hs
      · rw [hstep, hexec]
    · -- the other completions record nothing
      exfalso
      rw [hstep, usbdfuGetstatusComplete_other hs] at hlog
      have hnil : new = [] := by
        split at hlog <;> exact (List.self_eq_append_left.mp hlog)
      exact absurd (hnil ▸ hp) List.not_mem_nil
  · exfalso
    rcases step_dfu_of_not_completes hc with hsame | ⟨ctrl, req, complete, hreq⟩
    · rw [hsame] at hlog
      exact absurd (List.self_eq_append_left.mp hlog ▸ hp) List.not_mem_nil
    · obtain ⟨one, hone, hno⟩ :=
        (usbdfuControlRequest_effect d.dfu ctrl req req.wLength complete).log_grows
      rw [hreq, hone] at hlog
      exact hno p (List.append_cancel_right hlog ▸ hp)

/-! ### Replies -/

/-- The driver's reply to a `DFU_GETSTATUS` or a `DFU_GETSTATE` is the entry it adds to the
    log, and where the state byte of the reply is that of `dfuDNLOAD-IDLE` the download
    dispatched last has been carried out exactly once. -/
def IdleReplies (d : Dfu) : Prop :=
  ∀ ctrl req len complete, let r := usbdfuControlRequest d ctrl req len complete
    (DfuReq.ofCode req.bRequest = some .getstatus →
      r.len = 6 ∧ r.dfu.log = .status (r.ctrl 0) r.dfu.state :: d.log
        ∧ (r.ctrl 4 = DfuState.dnloadIdle.code →
            lastDnload r.dfu.log ≠ none ∧ execsSince r.dfu.log = 1))
    ∧ (DfuReq.ofCode req.bRequest = some .getstate →
      r.len = 1 ∧ r.dfu.log = .getstate r.dfu.state :: d.log
        ∧ (r.ctrl 0 = DfuState.dnloadIdle.code →
            lastDnload r.dfu.log ≠ none ∧ execsSince r.dfu.log = 1))

/-- The number of a state names it. -/
theorem DfuState.code_inj {s t : DfuState} (h : s.code = t.code) : s = t := by
  cases s <;> cases t <;> first | rfl | exact absurd h (by decide)

theorem DownloadInv.idleReplies {d : Dfu} (h : DownloadInv d) : IdleReplies d := by
  intro ctrl req len complete r
  have hinv := (usbdfuControlRequest_effect d ctrl req len complete).downloadInv h
  refine ⟨fun hreq => ?_, fun hreq => ?_⟩
  · obtain ⟨hlen, hlog, hstate⟩ := @getstatus_reply d ctrl req len complete hreq
    exact ⟨hlen, hlog, fun hidle => hinv.state.2 (DfuState.code_inj (hstate.symm.trans hidle))⟩
  · obtain ⟨hlen, hlog, hstate⟩ := @getstate_reply d ctrl req len complete hreq
    exact ⟨hlen, hlog, fun hidle => hinv.state.2 (DfuState.code_inj (hstate.symm.trans hidle))⟩

/-- **Downloads in every run.**  Each dispatched download is carried out at most once, as it
    was stored last, and an execution on record is one: it issues the operations of carrying
    the download out.  The flash and the address pointer change in the completion in
    `dfuDNBUSY` only; and a reply that reports `dfuDNLOAD-IDLE` comes after exactly one
    execution of the download dispatched last. -/
theorem run_downloads (b : Board) (evs : List BusEvent) :
    AllLog ExecOnce ((Dev.init b).run evs).dfu.log
      ∧ (∀ e, CarriesOutOnce ((Dev.init b).run evs) e)
      ∧ (∀ e, WritesByCompletion ((Dev.init b).run evs) e)
      ∧ AllLog IdleExecuted ((Dev.init b).run evs).dfu.log
      ∧ IdleReplies ((Dev.init b).run evs).dfu :=
  ⟨(run_downloadInv b evs).once, step_carriesOutOnce _, step_writesByCompletion _,
    (run_downloadInv b evs).idle, (run_downloadInv b evs).idleReplies⟩

/-! ### How the log grows -/

/-- The driver `f'` comes after `f`: its log has grown, and without an execution on record
    since then the flash is the same. -/
def Quiet (f f' : Dfu) : Prop :=
  ∃ new, f'.log = new ++ f.log ∧ ((∀ p, .exec p ∉ new) → f'.store.flash = f.store.flash)

theorem Quiet.refl (f : Dfu) : Quiet f f := ⟨[], rfl, fun _ => rfl⟩

theorem Quiet.request {f f' f'' : Dfu} (h : Quiet f f') (he : RequestEffect f' f'') :
    Quiet f f'' := by
  obtain ⟨new, hlog, hflash⟩ := h
  obtain ⟨one, hone, -⟩ := he.log_grows
  refine ⟨one ++ new, by rw [hone, hlog, List.append_assoc], fun hno => ?_⟩
  rw [he.frame.1]
  exact hflash fun p hp => hno p (List.mem_append_right _ hp)

theorem Quiet.complete {f f' : Dfu} (h : Quiet f f') : Quiet f (usbdfuGetstatusComplete f') := by
  obtain ⟨new, hlog, hflash⟩ := h
  by_cases hs : f'.state = .dnbusy
  · rw [usbdfuGetstatusComplete_dnbusy hs]
    refine ⟨.exec f'.prog :: new, by rw [hlog]; rfl, fun hno => ?_⟩
    exact absurd (List.mem_cons_self ..) (hno f'.prog)
  · rw [usbdfuGetstatusComplete_other hs]
    split <;> exact ⟨new, hlog, hflash⟩

/-- **Quiet runs.**  Every run only adds to the log, and changes the flash only where it
    adds an execution. -/
theorem run_quiet (d : Dev) (evs : List BusEvent) : Quiet d.dfu (d.run evs).dfu :=
  run_dfu_invariant (fun _ _ he h => h.request he) (fun _ h => h.complete) (Quiet.refl d.dfu) evs

/-! ### Refusals -/

/-- The driver refuses to carry the download out: its block or erase is out of range, or
    its command is unknown. -/
def Prog.refused (p : Prog) : Bool :=
  if p.blocknum = 0 then
    if p.buf 0 = cmdErase then !inRange p.operand 1024 else p.buf 0 != cmdSetaddr
  else !inRange p.baseaddr p.len.toUInt32

/-- The download carried out last, if the host has made no `DFU_DNLOAD` and no
    `DFU_UPLOAD` since: the one whose outcome a `DFU_GETSTATUS` would report. -/
def settledExec : List DfuEvent → Option Prog
  | []                         => none
  | .exec p :: _               => some p
  | .dnload _ :: _             => none
  | .request .upload :: _      => none
  | _ :: older                 => settledExec older

/-- The log's newest entry is the reply to a `DFU_GETSTATUS` that follows a refused
    download and reports neither an error status nor `dfuERROR`. -/
def hidesRefusal : List DfuEvent → Bool
  | .status bStatus bState :: older =>
      match settledExec older with
      | some p => p.refused && (bStatus == dfuStatusOk && bState != .error)
      | none   => false
  | _ => false

/-- What is expected of a log: every `DFU_GETSTATUS` that follows a refused download
    reports an error. -/
def ReportsRefusals (log : List DfuEvent) : Prop :=
  AllLog (fun e older => ∀ bStatus bState p, e = .status bStatus bState →
    settledExec older = some p → p.refused = true →
      bStatus ≠ dfuStatusOk ∧ bState = .error) log

/-- After an execution only a `DFU_UPLOAD` leads to `dfuERROR`. -/
def SettledNoError (d : Dfu) : Prop := settledExec d.log ≠ none → d.state ≠ .error

/-- A refused download is carried out, and reported as a success. -/
def RefusalHidden (e : DfuEvent) (older : List DfuEvent) : Prop :=
  ∀ bStatus bState p, e = .status bStatus bState → settledExec older = some p →
    p.refused = true → bStatus = dfuStatusOk ∧ bState ≠ .error

/-- The invariant behind `run_refusal_hidden`. -/
structure RefusalInv (d : Dfu) : Prop where
  settled : SettledNoError d
  hidden : AllLog RefusalHidden d.log

theorem RequestEffect.refusalInv {d d' : Dfu} (he : RequestEffect d d') (h : RefusalInv d) :
    RefusalInv d' := by
  obtain ⟨hsettled, hhidden⟩ := h
  cases he with
  | pass => exact ⟨hsettled, hhidden⟩
  | download p haddr hlen =>
    exact ⟨fun hn => absurd rfl hn,
      (allLog_cons ..).mpr ⟨fun st s q hq => by simp at hq, hhidden⟩⟩
  | status bStatus s hs =>
    refine ⟨fun hn => ?_, (allLog_cons ..).mpr ⟨fun st t q hq hset _ => ?_, hhidden⟩⟩
    · have herr : d.state ≠ .error := hsettled hn
      rcases hs with ⟨-, rfl, -⟩ | ⟨-, rfl, -⟩ | ⟨h0, -, -⟩ | ⟨-, -, h0, rfl, -⟩
      · exact fun h => by simp at h
      · exact fun h => by simp at h
      · exact absurd h0 herr
      · exact h0
    · -- the state was not `dfuERROR`, so neither the reply nor the new state is an error
      obtain ⟨rfl, rfl⟩ : bStatus = st ∧ s = t := by simpa using hq
      have herr : d.state ≠ .error := hsettled (by rw [hset]; exact Option.some_ne_none _)
      rcases hs with ⟨-, rfl, rfl⟩ | ⟨-, rfl, rfl⟩ | ⟨h0, -, -⟩ | ⟨-, -, h0, rfl, rfl⟩
      · exact ⟨rfl, by decide⟩
      · exact ⟨rfl, by decide⟩
      · exact absurd h0 herr
      · exact ⟨rfl, h0⟩
  | getstate =>
    exact ⟨hsettled, (allLog_cons ..).mpr ⟨fun st s q hq => by simp at hq, hhidden⟩⟩
  | other r s hs =>
    refine ⟨fun hn => ?_, (allLog_cons ..).mpr ⟨fun st t q hq => by simp at hq, hhidden⟩⟩
    rcases hs with rfl | rfl | rfl | ⟨rfl, rfl⟩ | rfl
    · exact fun h => by simp at h
    · exact fun h => by simp at h
    · exact fun h => by simp at h
    · exact absurd rfl hn
    · apply hsettled
      cases r <;> first | exact hn | exact absurd rfl hn

theorem usbdfuGetstatusComplete_refusalInv {d : Dfu} (h : RefusalInv d) :
    RefusalInv (usbdfuGetstatusComplete d) := by
  obtain ⟨hsettled, hhidden⟩ := h
  by_cases hs : d.state = .dnbusy
  · rw [usbdfuGetstatusComplete_dnbusy hs]
    exact ⟨fun _ h => by simp at h,
      (allLog_cons ..).mpr ⟨fun st s q hq => by simp at hq, hhidden⟩⟩
  · rw [usbdfuGetstatusComplete_other hs]
    split <;> exact ⟨hsettled, hhidden⟩

/-- **Refusals are never reported.**  In every run, every `DFU_GETSTATUS` that follows a
    refused download reports an OK status and a state other than `dfuERROR`. -/
theorem run_refusal_hidden (b : Board) (evs : List BusEvent) :
    AllLog RefusalHidden ((Dev.init b).run evs).dfu.log := by
  have hinv : RefusalInv ((Dev.init b).run evs).dfu :=
    run_dfu_invariant (fun _ _ he => he.refusalInv) (fun _ => usbdfuGetstatusComplete_refusalInv)
      ⟨fun h => absurd rfl h, allLog_nil _⟩ evs
  exact hinv.hidden

/-- A host asks for the erase of the first page of the bootloader. -/
def refusedErase : List BusEvent :=
  session (dnloadPackets 0 (commandBytes cmdErase 0x08000000) ++ getstatusPackets
    ++ getstatusPackets)

/-- The erase is refused and the next `DFU_GETSTATUS` reports success. -/
theorem refusedErase_not_reported :
    ¬ ReportsRefusals ((Dev.init blankBoard).run refusedErase).dfu.log := by
  have hhidden : hidesRefusal ((Dev.init blankBoard).run refusedErase).dfu.log = true := by
    decide +kernel
  intro h
  revert hhidden h
  generalize ((Dev.init blankBoard).run refusedErase).dfu.log = log
  intro hhidden h
  rcases log with _ | ⟨e, older⟩
  · exact absurd hhidden (by decide)
  cases e with
  | status bStatus bState =>
    cases hset : settledExec older with
    | none => simp [hidesRefusal, hset] at hhidden
    | some p =>
      simp only [hidesRefusal, hset, Bool.and_eq_true, beq_iff_eq] at hhidden
      obtain ⟨hrefused, hok, -⟩ := hhidden
      exact (h _ older (List.suffix_refl _) bStatus bState p rfl hset hrefused).1 hok
  | _ => simp [hidesRefusal] at hhidden

end Stm32F1Dfu
