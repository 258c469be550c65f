import Stm32F1Dfu.Acknowledged
import Stm32F1Dfu.Reassembly

namespace Stm32F1Dfu

open LittleEndian Machine

/-!
# Where downloaded bytes come from

A `DFU_DNLOAD` stores what the control buffer holds when it is dispatched.  With the last
packet of a write that is its payload; the class filter ignores the direction bit, though,
and a read is dispatched before anything was received.

* `SyncMove` — the driver moves to `dfuDNLOAD-SYNC`, and `Turn.syncMove` in which steps;
* `step_syncFromPackets_iff` — the block stored is what the transfer received, exactly
  unless the step takes up a read;
* `gather` — the payloads received in a run;
* `run_received_iff` — the same for runs, with every half-word programmed;
* `readDownload_stores_descriptor` — a read stores what an earlier reply left.
-/

/-! ### Moving to `dfuDNLOAD-SYNC` -/

/-- From `f` to `f'` the driver moves to `dfuDNLOAD-SYNC`, from another state or, with
    another block, from that state itself. -/
def SyncMove (f f' : Dfu) : Prop :=
  f'.state = .dnloadSync ∧ (f.state ≠ .dnloadSync ∨ ∃ p, f'.log = .dnload p :: f.log)

theorem not_syncMove_self (f : Dfu) : ¬ SyncMove f f := by
  rintro ⟨hs, hne | ⟨p, hlog⟩⟩
  · exact hne hs
  · exact List.cons_ne_self _ _ hlog.symm

/-- A completion does not move there. -/
theorem not_syncMove_complete (f : Dfu) : ¬ SyncMove f (usbdfuGetstatusComplete f) := by
  by_cases hs : f.state = .dnbusy
  · rw [usbdfuGetstatusComplete_dnbusy hs]
    intro h
    exact absurd h.1 (by simp)
  · rw [usbdfuGetstatusComplete_other hs]
    split
    · intro h
      exact not_syncMove_self f h
    · exact not_syncMove_self f

/-- A request moves there exactly if it is a non-empty `DFU_DNLOAD`. -/
theorem usbdfuControlRequest_syncMove {f : Dfu} {ctrl : Nat → UInt8} {req : UsbSetupData}
    {len : UInt16} {complete : Bool} :
    SyncMove f (usbdfuControlRequest f ctrl req len complete).dfu
      ↔ DfuReq.ofCode req.bRequest = some .dnload ∧ len ≠ 0 := by
  have hsame {g : Dfu} (hstate : g.state = .dnloadSync → f.state = .dnloadSync)
      (hlog : ∀ p, g.log ≠ .dnload p :: f.log) : ¬ SyncMove f g := by
    rintro ⟨hs, hne | ⟨p, hp⟩⟩
    · exact hne (hstate hs)
    · exact hlog p hp
  unfold usbdfuControlRequest
  cases hr : DfuReq.ofCode req.bRequest with
  | none => exact iff_of_false (not_syncMove_self f) (by simp)
  | some r =>
    cases r with
    | dnload =>
      by_cases h0 : len = 0
      · simp [SyncMove, h0]
      · simp [SyncMove, h0]
    | clrstatus =>
      -- outside `dfuERROR` the state stays, in it the device is idle
      refine iff_of_false (hsame (fun hs => ?_) (by simp)) (by simp)
      by_cases herr : f.state = .error
      · simp [herr] at hs
      · simpa [herr] using hs
    | abort => exact iff_of_false (hsame (by simp) (by simp)) (by simp)
    | detach => exact iff_of_false (hsame (by simp) (by simp)) (by simp)
    | upload =>
      refine iff_of_false ?_ (by simp)
      simp only
      split
      · exact hsame (by simp) (by simp)
      · split <;> exact hsame (by simp) (by simp)
    | getstatus =>
      refine iff_of_false ?_ (by simp)
      simp only [usbdfuGetstatus]
      -- of the states only `dfuDNLOAD-SYNC` and `dfuMANIFEST-SYNC` are left, for another one
      split <;> refine hsame ?_ (by simp)
      · simp
      · simp
      · exact id
      · exact id
    | getstate => exact iff_of_false (hsame id (by simp)) (by simp)

/-- What a non-empty `DFU_DNLOAD` stores. -/
theorem usbdfuControlRequest_prog {f : Dfu} {ctrl : Nat → UInt8} {req : UsbSetupData}
    {len : UInt16} {complete : Bool} (hreq : DfuReq.ofCode req.bRequest = some .dnload)
    (hlen : len ≠ 0) :
    (usbdfuControlRequest f ctrl req len complete).dfu.prog
      = storeProg f.prog ctrl req.wValue len := by
  unfold usbdfuControlRequest
  rw [hreq]
  simp only
  rw [if_neg hlen]

/-- The dispatch of `d.usbReq` moves there exactly if it is a download. -/
theorem dispatch_syncMove {d : Dev} :
    SyncMove d.dfu (usbControlRequestDispatch d).2.dfu ↔ d.usbReq.isDownload = true := by
  show SyncMove d.dfu (dispatchRequest d).2.dfu ↔ _
  rw [dispatchRequest_dfu, UsbSetupData.isDownload_iff]
  by_cases hclass : d.usbReq.isClassInterface = true
  · rw [if_pos hclass, usbdfuControlRequest_syncMove]
    simp [hclass]
  · rw [if_neg hclass]
    exact iff_of_false (not_syncMove_self d.dfu) (by simp [hclass])

/-- The step takes up a device-to-host `DFU_DNLOAD` with data. -/
def ReadsDownload (d : Dev) (e : BusEvent) : Prop :=
  d.Polls e .setup ∧ ∃ req, d.nextSetup = some req ∧ req.isRead = true ∧ req.isDownload = true

instance (d : Dev) (e : BusEvent) : Decidable (ReadsDownload d e) :=
  match h : d.nextSetup with
  | none => isFalse fun ⟨_, req, hreq, _⟩ => by simp [h] at hreq
  | some r => decidable_of_iff
      (d.Polls e .setup ∧ r.isRead = true ∧ r.isDownload = true)
      ⟨fun hr => ⟨hr.1, r, h, hr.2⟩, fun ⟨hs, req, hreq, hrd⟩ => by
        obtain rfl : r = req := Option.some.inj (h.symm.trans hreq)
        exact ⟨hs, hrd⟩⟩

/-- The step dispatches a host-to-device `DFU_DNLOAD`, with the last packet. -/
def WritesDownload (d : Dev) (e : BusEvent) : Prop :=
  d.Polls e .out ∧ d.fsm = .lastDataOut ∧ d.chunkFits = true ∧ d.usbReq.isDownload = true

/-- **The two ways to `dfuDNLOAD-SYNC`.** -/
theorem Turn.syncMove {d d' : Dev} {e : BusEvent} (ht : Turn d e d') :
    SyncMove d.dfu d'.dfu ↔ ReadsDownload d e ∨ WritesDownload d e := by
  have hread {req : UsbSetupData} (hs : d.Polls e .setup) (hreq : d.nextSetup = some req)
      (hisread : req.isRead = true) :
      SyncMove d.dfu (d.dispatchRead req).2.dfu ↔ ReadsDownload d e ∨ WritesDownload d e := by
    have hmove : SyncMove d.dfu (d.dispatchRead req).2.dfu ↔ req.isDownload = true :=
      dispatch_syncMove (d := { d.afterSetup req with dataoff := 0 })
    rw [hmove]
    constructor
    · intro hdown
      exact Or.inl ⟨hs, req, hreq, hisread, hdown⟩
    · rintro (⟨-, req', hreq', -, hdown⟩ | ⟨hs', -⟩)
      · exact Option.some.inj (hreq.symm.trans hreq') ▸ hdown
      · exact absurd (hs.unique hs') (by decide)
  have hwritten (hs : d.Polls e .out) (hfsm : d.fsm = .lastDataOut)
      (hfits : d.chunkFits = true) :
      SyncMove d.dfu d.dispatchWrite.2.dfu ↔ ReadsDownload d e ∨ WritesDownload d e := by
    have hmove : SyncMove d.dfu d.dispatchWrite.2.dfu ↔ d.usbReq.isDownload = true :=
      dispatch_syncMove (d := d.stored)
    rw [hmove]
    constructor
    · intro hdown
      exact Or.inr ⟨hs, hfsm, hfits, hdown⟩
    · rintro (⟨hs', -⟩ | ⟨-, -, -, hdown⟩)
      · exact absurd (hs.unique hs') (by decide)
      · exact hdown
  -- a SETUP packet without a read, or another poll than that of the last packet
  have hno_read {s : Served} (hs : d.Polls e s) (hne : s ≠ .setup ∧ s ≠ .out) :
      ¬ (ReadsDownload d e ∨ WritesDownload d e) := by
    rintro (⟨hs', -⟩ | ⟨hs', -⟩)
    · exact hne.1 (hs.unique hs')
    · exact hne.2 (hs.unique hs')
  have hno_setup (hs : d.Polls e .setup)
      (hno : ∀ req, d.nextSetup = some req → req.isRead = false) :
      ¬ (ReadsDownload d e ∨ WritesDownload d e) := by
    rintro (⟨-, req, hreq, hisread, -⟩ | ⟨hs', -⟩)
    · exact absurd (hno req hreq) (by simp [hisread])
    · exact absurd (hs.unique hs') (by decide)
  have hno_out (hs : d.Polls e .out) (hno : ¬ (d.fsm = .lastDataOut ∧ d.chunkFits = true)) :
      ¬ (ReadsDownload d e ∨ WritesDownload d e) := by
    rintro (⟨hs', -⟩ | ⟨-, hfsm, hfits, -⟩)
    · exact absurd (hs.unique hs') (by decide)
    · exact hno ⟨hfsm, hfits⟩
  -- a status stage ends in no `dfuDNLOAD-SYNC` that was not there before
  have hcomplete : ¬ SyncMove d.dfu (completeTransfer d).dfu := by
    unfold completeTransfer
    simp only
    split
    · exact not_syncMove_complete d.dfu
    · exact not_syncMove_self d.dfu
  have hself := not_syncMove_self d.dfu
  cases ht with
  | still p hs =>
    refine iff_of_false hself ?_
    rintro (⟨hs', -⟩ | ⟨hs', -⟩)
    · exact (hs _ hs').elim (by decide) (by decide)
    · exact (hs _ hs').elim (by decide) (by decide)
  | garbled p req hs hreq =>
    exact iff_of_false hself (hno_setup hs fun req' hreq' => by simp [hreq] at hreq')
  | tooLong p req hs hreq hwrite hlen =>
    refine iff_of_false hself (hno_setup hs fun req' hreq' => ?_)
    exact Option.some.inj (hreq.symm.trans hreq') ▸ hwrite
  | write p req hs hreq hwrite hlen =>
    refine iff_of_false hself (hno_setup hs fun req' hreq' => ?_)
    exact Option.some.inj (hreq.symm.trans hreq') ▸ hwrite
  | readStall p req hs hreq hisread hcode => exact hread hs hreq hisread
  | readStatus p req n hs hreq hisread hcode hlen => exact hread hs hreq hisread
  | readData p req s n o z off data hs hreq hisread hcode hlen hstage =>
    exact hread hs hreq hisread
  | short p hs hfsm hfits => exact iff_of_false hself (hno_out hs (by simp [hfits]))
  | chunk p hs hfsm hfits => exact iff_of_false hself (hno_out hs (by simp [hfsm]))
  | writeStall p hs hfsm hfits hcode => exact hwritten hs hfsm hfits
  | writeDone p hs hfsm hfits hcode => exact hwritten hs hfsm hfits
  | completeOut p hs hfsm => exact iff_of_false hcomplete (hno_out hs (by simp [hfsm]))
  | completeIn p hs hfsm => exact iff_of_false hcomplete (hno_read hs (by decide))
  | nextChunk p s n o z off data hs hfsm hstage =>
    exact iff_of_false hself (hno_read hs (by decide))
  | lastChunk p hs hfsm => exact iff_of_false hself (hno_read hs (by decide))
  | unexpected p hs =>
    rcases hs with ⟨hs, -, hlast, -⟩ | ⟨hs, -⟩
    · exact iff_of_false hself (hno_out hs fun h => hlast h.1)
    · exact iff_of_false hself (hno_read hs (by decide))

/-! ### The block stored and the bytes received -/

/-- What the step with the last packet of a write makes of the driver. -/
theorem Turn.lastPacket {d d' : Dev} {e : BusEvent} (ht : Turn d e d') (hs : d.Polls e .out)
    (hfsm : d.fsm = .lastDataOut) (hfits : d.chunkFits = true) :
    d'.dfu = d.dispatchWrite.2.dfu ∧ d'.usbReq = d.usbReq := by
  cases ht with
  | writeStall p | writeDone p => exact ⟨rfl, (usbControlRequestDispatch_frame d.stored).2.2.2⟩
  | still p h => exact absurd (h _ hs) (by decide)
  | garbled p req hs' | tooLong p req hs' | write p req hs' | readStall p req hs'
  | readStatus p req n hs' | readData p req s n o z off data hs' | completeIn p hs'
  | nextChunk p s n o z off data hs' | lastChunk p hs' =>
    exact absurd (hs.unique hs') (by decide)
  | short p hs' hfsm' hfits' => exact absurd hfits (by simp [hfits'])
  | chunk p hs' hfsm' => exact absurd hfsm (by simp [hfsm'])
  | completeOut p hs' hfsm' => exact absurd hfsm (by simp [hfsm'])
  | unexpected p h =>
    rcases h with ⟨-, -, hlast, -⟩ | ⟨hs', -⟩
    · exact absurd hfsm hlast
    · exact absurd (hs.unique hs') (by decide)

/-- A step that moves to `dfuDNLOAD-SYNC` stores the bytes received in the same transfer,
    as many as its `wLength`; `t` is the record of the transfer. -/
def SyncFromPackets (d : Dev) (t : Transfer) (e : BusEvent) : Prop :=
  SyncMove d.dfu (d.step e).dfu →
    (d.step e).dfu.prog.len = (d.step e).usbReq.wLength
      ∧ (t.after d e (d.step e)).bytes.length = (d.step e).dfu.prog.len.toNat
      ∧ HoldsBytes (d.step e).dfu.prog.buf (t.after d e (d.step e)).bytes

/-- The last packet of a download: the block stored is its payload. -/
theorem Reassembly.prog_writesDownload {d : Dev} {t : Transfer} (h : Reassembly d t)
    {e : BusEvent} (hw : WritesDownload d e) :
    (d.step e).dfu.prog.len = (d.step e).usbReq.wLength
      ∧ (t.after d e (d.step e)).bytes.length = (d.step e).dfu.prog.len.toNat
      ∧ HoldsBytes (d.step e).dfu.prog.buf (t.after d e (d.step e)).bytes := by
  obtain ⟨hs, hfsm, hfits, hdown⟩ := hw
  obtain ⟨hclass, hreq, hlen⟩ := (d.usbReq.isDownload_iff).mp hdown
  obtain ⟨hdfu, husbReq⟩ := (step_turn d e).lastPacket hs hfsm hfits
  obtain ⟨hlength, hholds⟩ := h.stored (Or.inr hfsm) hfits
  have hmax := (h.stage (Or.inr hfsm)).2.1
  have hrest := h.lastDataOut hfsm
  have hsize := d.packetsize_toNat (by omega)
  have hprog : (d.step e).dfu.prog
      = storeProg d.dfu.prog d.stored.ctrl d.usbReq.wValue d.usbReq.wLength := by
    rw [hdfu]
    show (dispatchRequest d.stored).2.dfu.prog = _
    rw [dispatchRequest_dfu]
    exact (congrArg Dfu.prog (if_pos hclass)).trans (usbdfuControlRequest_prog hreq hlen)
  have hbytes : (t.after d e (d.step e)).bytes = t.bytes ++ d.counted :=
    Transfer.after_bytes hs (Or.inr hfsm)
  -- the length is not cut: the transfer fits into the buffer
  have hcut : ¬ d.usbReq.wLength.toNat > dfuTransferSize := by omega
  have hfull : (storeProg d.dfu.prog d.stored.ctrl d.usbReq.wValue d.usbReq.wLength).len
      = d.usbReq.wLength := if_neg hcut
  rw [hprog, husbReq, hbytes, hfull]
  refine ⟨rfl, by omega, fun i hi => ?_⟩
  rw [← hholds i hi]
  show memcpy d.dfu.prog.buf d.stored.ctrl
    (storeProg d.dfu.prog d.stored.ctrl d.usbReq.wValue d.usbReq.wLength).len.toNat i = _
  rw [hfull]
  exact if_pos (by omega)

/-- The poll that takes up a read hands it on. -/
theorem ReadsDownload.hands {d : Dev} {e : BusEvent} (h : ReadsDownload d e) :
    ∃ req, d.Hands e req ∧ req.isDownload = true := by
  obtain ⟨⟨hreset, he, hserved⟩, req, hreq, hread, hdown⟩ := h
  refine ⟨req, ⟨hreset, he, ?_⟩, hdown⟩
  unfold Dev.nextRequest
  rw [hserved]
  simp only
  rw [hreq]
  simp [Option.filter, hread, ((req.isDownload_iff).mp hdown).1]

/-- **One step.**  The block stored is what the transfer received exactly unless the step
    takes up a read. -/
theorem step_syncFromPackets_iff {d : Dev} {t : Transfer} (h : Reassembly d t) (e : BusEvent) :
    SyncFromPackets d t e ↔ ¬ ReadsDownload d e := by
  constructor
  · intro hsync hread
    obtain ⟨-, hlength, -⟩ := hsync ((step_turn d e).syncMove.mpr (Or.inl hread))
    -- nothing was received, and a block is not empty
    have hnone : (t.after d e (d.step e)).bytes = [] := by
      unfold Transfer.after
      rw [if_pos hread.1]
    obtain ⟨req, hhands, hdown⟩ := hread.hands
    obtain ⟨-, hreq, hlen⟩ := (req.isDownload_iff).mp hdown
    obtain ⟨-, ctrl, complete, hdfu⟩ := step_dfu_of_hands hhands
    rw [hnone, hdfu, usbdfuControlRequest_prog hreq hlen, storeProg_len, List.length_nil]
      at hlength
    have hpos := uint16_pos hlen
    omega
  · intro hread hmove
    rcases (step_turn d e).syncMove.mp hmove with hr | hw
    · exact absurd hr hread
    · exact h.prog_writesDownload hw

/-! ### What is programmed -/

/-- The operations of an execution: half-words of the block, beside erases. -/
theorem mem_execProg_ops {d : Dfu} (hu : d.store.locked = false) {a : UInt32} {w : UInt16}
    (h : .program a w ∈ (execProg d).store.ops) :
    .program a w ∈ d.store.ops
      ∨ ∃ k < d.prog.len.toNat / 2, w = half (d.prog.buf (2 * k)) (d.prog.buf (2 * k + 1)) := by
  have hwipe : .program a w ∈ (ifdefSafeWrite d).store.ops → .program a w ∈ d.store.ops := by
    intro hop
    rw [ifdefSafeWrite_eq] at hop
    split at hop
    · rcases mem_erasePages_ops hop with hold | ⟨i, -, heq⟩
      · exact hold
      · exact absurd heq (by simp)
    · exact hop
  have herase {b : UInt32} :
      .program a w ∈ (eraseIfDirty (ifdefSafeWrite d).store b).ops
        → .program a w ∈ d.store.ops := by
    intro hop
    rw [eraseIfDirty_ops (by simp [hu])] at hop
    split at hop
    · exact hwipe hop
    · exact hwipe ((List.mem_cons.mp hop).resolve_left (by simp))
  unfold execProg at h
  by_cases hb : d.prog.blocknum = 0
  · left
    rw [if_pos hb] at h
    by_cases he : d.prog.buf 0 = cmdErase
    · rw [if_pos he, execErase_store] at h
      split at h
      · exact herase h
      · exact hwipe h
    · rw [if_neg he] at h
      split at h
      · exact h
      · exact h
  · rw [if_neg hb, execBlock_store] at h
    split at h
    · unfold flashProgramBuffer at h
      rw [flashProgramLoop_ops (by simp [hu])] at h
      rcases List.mem_append.mp h with hnew | hold
      · obtain ⟨k, hk, heq⟩ := mem_programOps.mp hnew
        right
        exact ⟨k, hk, (StoreOp.program.inj heq).2⟩
      · exact Or.inl (herase hold)
    · exact Or.inl (hwipe h)

/-- The half-word is two bytes in a row of one of the payloads. -/
def OfPayload (payloads : List (List UInt8)) (w : UInt16) : Prop :=
  ∃ bytes ∈ payloads, ∃ k, 2 * k + 1 < bytes.length
    ∧ w = half (bytes.getD (2 * k) 0) (bytes.getD (2 * k + 1) 0)

instance (d : Dev) (e : BusEvent) : Decidable (WritesDownload d e) :=
  inferInstanceAs (Decidable (_ ∧ _ ∧ _ ∧ _))

/-- The tracked device with the payloads of the downloads received so far. -/
def gather (s : (Dev × Transfer) × List (List UInt8)) (e : BusEvent) :
    (Dev × Transfer) × List (List UInt8) :=
  (track s.1 e, if WritesDownload s.1.1 e then (track s.1 e).2.bytes :: s.2 else s.2)

/-- The payloads of the host-to-device downloads of a run. -/
def Dev.payloads (d : Dev) (evs : List BusEvent) : List (List UInt8) :=
  (Machine.run gather ((d, .init d.dfu), []) evs).2

/-- The block that waits, and all that was programmed, come from the payloads. -/
structure Gathered (d : Dev) (payloads : List (List UInt8)) : Prop where
  waiting : d.dfu.state = .dnloadSync ∨ d.dfu.state = .dnbusy →
    ∃ bytes ∈ payloads, bytes.length = d.dfu.prog.len.toNat ∧ HoldsBytes d.dfu.prog.buf bytes
  programmed : ∀ a w, .program a w ∈ d.dfu.store.ops → OfPayload payloads w

/-- A request that does not move to `dfuDNLOAD-SYNC` lets no other block wait. -/
theorem RequestEffect.waiting {f f' : Dfu} (he : RequestEffect f f') (hno : ¬ SyncMove f f')
    (hs : f'.state = .dnloadSync ∨ f'.state = .dnbusy) :
    (f.state = .dnloadSync ∨ f.state = .dnbusy) ∧ f'.prog = f.prog := by
  cases he with
  | pass => exact ⟨hs, rfl⟩
  | download p haddr hlen => exact absurd ⟨rfl, Or.inr ⟨p, rfl⟩⟩ hno
  | getstate => exact ⟨hs, rfl⟩
  | status bStatus s h =>
    refine ⟨?_, rfl⟩
    have hs : s = .dnloadSync ∨ s = .dnbusy := hs
    rcases h with ⟨hsync, -⟩ | ⟨-, rfl, -⟩ | ⟨-, rfl, -⟩ | ⟨-, -, -, rfl, -⟩
    · exact Or.inl hsync
    · simp at hs
    · simp at hs
    · exact hs
  | other r s h =>
    refine ⟨?_, rfl⟩
    have hs : s = .dnloadSync ∨ s = .dnbusy := hs
    rcases h with rfl | rfl | rfl | ⟨rfl, -⟩ | rfl
    · simp at hs
    · simp at hs
    · simp at hs
    · simp at hs
    · exact hs

/-- More payloads explain as much. -/
theorem OfPayload.mono {ps ps' : List (List UInt8)} {w : UInt16} (hsub : ps ⊆ ps')
    (h : OfPayload ps w) : OfPayload ps' w := by
  obtain ⟨bytes, hmem, hk⟩ := h
  exact ⟨bytes, hsub hmem, hk⟩

/-- What is programmed of a block that waits comes from its payload. -/
theorem Gathered.complete {d : Dev} {ps : List (List UInt8)} (h : Gathered d ps) :
    ∀ a w, .program a w ∈ (usbdfuGetstatusComplete d.dfu).store.ops → OfPayload ps w := by
  intro a w hop
  by_cases hs : d.dfu.state = .dnbusy
  · rw [usbdfuGetstatusComplete_dnbusy hs] at hop
    have hop : .program a w
        ∈ (execProg { d.dfu with store := flashUnlock d.dfu.store }).store.ops := hop
    rcases mem_execProg_ops (by simp) hop with hold | ⟨k, hk, rfl⟩
    · rw [flashUnlock_ops] at hold
      exact h.programmed a w hold
    · obtain ⟨bytes, hmem, hlength, hholds⟩ := h.waiting (Or.inr hs)
      have hlt : 2 * k + 1 < bytes.length := by
        have hk : k < d.dfu.prog.len.toNat / 2 := hk
        omega
      refine ⟨bytes, hmem, k, hlt, ?_⟩
      rw [List.getD_eq_getElem _ _ (by omega), List.getD_eq_getElem _ _ hlt,
        ← hholds (2 * k) (by omega), ← hholds (2 * k + 1) hlt]
  · rw [usbdfuGetstatusComplete_other hs] at hop
    refine h.programmed a w ?_
    split at hop
    · exact hop
    · exact hop

/-- A block that waits after a completion has waited before it. -/
theorem Gathered.waiting_complete {d : Dev} {ps : List (List UInt8)} (h : Gathered d ps)
    (hs : (usbdfuGetstatusComplete d.dfu).state = .dnloadSync
      ∨ (usbdfuGetstatusComplete d.dfu).state = .dnbusy) :
    ∃ bytes ∈ ps, bytes.length = (usbdfuGetstatusComplete d.dfu).prog.len.toNat
      ∧ HoldsBytes (usbdfuGetstatusComplete d.dfu).prog.buf bytes := by
  by_cases hbusy : d.dfu.state = .dnbusy
  · -- it was carried out, and the device is in `dfuDNLOAD-IDLE`
    rw [usbdfuGetstatusComplete_dnbusy hbusy] at hs
    simp at hs
  · rw [usbdfuGetstatusComplete_other hbusy] at hs ⊢
    have hsame : (if d.dfu.state = .manifest then { d.dfu with reset := true }
        else d.dfu).state = d.dfu.state ∧ (if d.dfu.state = .manifest
        then { d.dfu with reset := true } else d.dfu).prog = d.dfu.prog := by
      split <;> exact ⟨rfl, rfl⟩
    rw [hsame.1] at hs
    rw [hsame.2]
    exact h.waiting hs

/-- **One step** that takes up no read keeps it so. -/
theorem gather_gathered {s : (Dev × Transfer) × List (List UInt8)} {e : BusEvent}
    (ht : Reassembly s.1.1 s.1.2) (h : Gathered s.1.1 s.2) (hread : ¬ ReadsDownload s.1.1 e) :
    Gathered (gather s e).1.1 (gather s e).2 := by
  obtain ⟨⟨d, t⟩, ps⟩ := s
  -- the payloads on record only grow
  have hsub : ps ⊆ (gather ((d, t), ps) e).2 := by
    intro bytes hmem
    show bytes ∈ if WritesDownload d e then _ else ps
    split
    · exact List.mem_cons_of_mem _ hmem
    · exact hmem
  show Gathered (d.step e) (gather ((d, t), ps) e).2
  by_cases hc : d.Completes e
  · have hdfu := step_dfu_of_completes hc
    refine ⟨fun hs => ?_, fun a w hop => ?_⟩
    · rw [hdfu] at hs ⊢
      obtain ⟨bytes, hmem, hholds⟩ := h.waiting_complete hs
      exact ⟨bytes, hsub hmem, hholds⟩
    · rw [hdfu] at hop
      exact (h.complete a w hop).mono hsub
  · have heffect : RequestEffect d.dfu (d.step e).dfu := by
      rcases step_dfu_of_not_completes hc with hsame | ⟨ctrl, req, complete, heq⟩
      · rw [hsame]
        exact .pass
      · rw [heq]
        exact usbdfuControlRequest_effect ..
    refine ⟨fun hs => ?_, fun a w hop => ?_⟩
    · by_cases hmove : SyncMove d.dfu (d.step e).dfu
      · -- a new block: its payload is the newest
        have hw : WritesDownload d e :=
          ((step_turn d e).syncMove.mp hmove).resolve_left hread
        obtain ⟨-, hlength, hholds⟩ := ht.prog_writesDownload hw
        refine ⟨(t.after d e (d.step e)).bytes, ?_, hlength, hholds⟩
        show _ ∈ if WritesDownload d e then (t.after d e (d.step e)).bytes :: ps else ps
        rw [if_pos hw]
        exact List.mem_cons_self
      · -- the block is the one that waited before
        obtain ⟨hold, hprog⟩ := heffect.waiting hmove hs
        obtain ⟨bytes, hmem, hholds⟩ := h.waiting hold
        rw [hprog]
        exact ⟨bytes, hsub hmem, hholds⟩
    · rw [heffect.frame.1] at hop
      exact (h.programmed a w hop).mono hsub

/-- **Downloads of every run.**  Each move to `dfuDNLOAD-SYNC` stores the bytes received in
    the same transfer, as many as its `wLength`, and every half-word ever programmed is from
    the payload of a download, exactly when no poll takes up a device-to-host `DFU_DNLOAD`
    with data. -/
theorem run_received_iff (b : Board) (evs : List BusEvent) :
    AllSteps track (fun s e => SyncFromPackets s.1 s.2 e) (Dev.init b, .init (Dev.init b).dfu) evs
        ∧ (∀ a w, .program a w ∈ ((Dev.init b).run evs).dfu.store.ops →
            OfPayload ((Dev.init b).payloads evs) w)
      ↔ AllSteps Dev.step (fun d e => ¬ ReadsDownload d e) (Dev.init b) evs := by
  have hsteps : AllSteps track (fun s e => SyncFromPackets s.1 s.2 e)
        (Dev.init b, .init (Dev.init b).dfu) evs
      ↔ AllSteps track (fun s e => ¬ ReadsDownload s.1 e)
        (Dev.init b, .init (Dev.init b).dfu) evs :=
    allSteps_congr (I := fun s : Dev × Transfer => Reassembly s.1 s.2)
      (fun _ e h _ => track_reassembly e h)
      (fun _ e h => step_syncFromPackets_iff h e) (init_reassembly b) evs
  have hwatch : AllSteps track (fun s e => ¬ ReadsDownload s.1 e)
        (Dev.init b, .init (Dev.init b).dfu) evs
      ↔ AllSteps Dev.step (fun d e => ¬ ReadsDownload d e) (Dev.init b) evs :=
    allSteps_map (fun _ _ => rfl) (fun d e => ¬ ReadsDownload d e) _ evs
  rw [hsteps, hwatch, and_iff_left_iff_imp]
  intro hall
  -- the same run, with the payloads beside it
  have hgather : AllSteps gather (fun s e => ¬ ReadsDownload s.1.1 e)
      ((Dev.init b, .init (Dev.init b).dfu), []) evs :=
    (allSteps_map (f := fun s : (Dev × Transfer) × List (List UInt8) => s.1.1) (fun _ _ => rfl)
      (fun d e => ¬ ReadsDownload d e) _ evs).mpr hall
  have hend := run_invariant
    (I := fun s : (Dev × Transfer) × List (List UInt8) =>
      Reassembly s.1.1 s.1.2 ∧ Gathered s.1.1 s.2)
    (fun s e h hread => ⟨track_reassembly e h.1, gather_gathered h.1 h.2 hread⟩)
    (s := ((Dev.init b, .init (Dev.init b).dfu), []))
    ⟨init_reassembly b, fun hs => by simp [Dev.init, Dfu.init] at hs,
      fun a w hop => absurd hop List.not_mem_nil⟩ hgather
  have hdev : (Machine.run gather ((Dev.init b, .init (Dev.init b).dfu), []) evs).1.1
      = (Dev.init b).run evs :=
    run_map (f := fun s : (Dev × Transfer) × List (List UInt8) => s.1.1) (fun _ _ => rfl) _ evs
  intro a w hop
  rw [← hdev] at hop
  exact hend.2.programmed a w hop

/-- A host asks for the device descriptor, and then reads 18 bytes with `DFU_DNLOAD`, up to
    the SETUP packet. -/
def readDownload : List BusEvent :=
  session [.setup { bmRequestType := 0x80, bRequest := 6, wValue := 0x100, wIndex := 0,
                    wLength := 18 }, .ack, .out []]
    ++ [.setup (dfuRequest 0xA1 1 2 18)]

/-- No byte of that transfer was received, and the block stored is the descriptor. -/
theorem readDownload_stores_descriptor :
    SyncMove ((Dev.init blankBoard).run readDownload).dfu
        (((Dev.init blankBoard).run readDownload).step .poll).dfu
      ∧ ¬ SyncFromPackets ((Dev.init blankBoard).run readDownload)
          ((Dev.init blankBoard).transfer readDownload) .poll
      ∧ ctrlBytes (((Dev.init blankBoard).run readDownload).step .poll).dfu.prog.buf 0 18
          = devDesc := by
  have hrun : ((Dev.init blankBoard).run readDownload).dfu.state = .dfuIdle
      ∧ (((Dev.init blankBoard).run readDownload).step .poll).dfu.state = .dnloadSync
      ∧ ReadsDownload ((Dev.init blankBoard).run readDownload) .poll
      ∧ ctrlBytes (((Dev.init blankBoard).run readDownload).step .poll).dfu.prog.buf 0 18
          = devDesc := by
    decide +kernel
  obtain ⟨hidle, hsync, hread, hbytes⟩ := hrun
  refine ⟨⟨hsync, Or.inl ?_⟩, ?_, hbytes⟩
  · rw [hidle]
    decide
  · intro hreceived
    exact (step_syncFromPackets_iff (run_reassembly blankBoard readDownload) .poll).mp hreceived
      hread

end Stm32F1Dfu
