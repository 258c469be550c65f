import Stm32F1Dfu.Turns
import Stm32F1Dfu.ErrorState

namespace Stm32F1Dfu

open Machine

/-!
# Acknowledged blocks over whole runs

A non-empty `DFU_DNLOAD` whose status stage is over is acknowledged: the host has been
told that the block was taken.  The block waits in `prog` for the completion of a later
`DFU_GETSTATUS`, and there is one `prog` only.

* `run_stageDownload` — the block that a status stage acknowledges is the one in `prog`;
* `Overwrites` — the requests that a waiting block does not survive;
* `usbdfuControlRequest_block` — one request, exactly;
* `run_block_kept_iff` — the run from the acknowledgement on: the block is kept until it
  is carried out or discarded exactly when no such request is handed on before;
* `secondDownload_replaces` — a second `DFU_DNLOAD` replaces it.
-/

/-! ### The status stage of a download -/

/-- A non-empty `DFU_DNLOAD`. -/
def UsbSetupData.isDownload (req : UsbSetupData) : Bool :=
  req.isClassInterface && DfuReq.ofCode req.bRequest == some .dnload && req.wLength != 0

theorem UsbSetupData.isDownload_iff (req : UsbSetupData) :
    req.isDownload = true
      ↔ req.isClassInterface = true ∧ DfuReq.ofCode req.bRequest = some .dnload
        ∧ req.wLength ≠ 0 := by
  simp [UsbSetupData.isDownload, and_assoc]

/-- The step ends the status stage of a non-empty `DFU_DNLOAD`. -/
def Dev.Acknowledges (d : Dev) (e : BusEvent) : Prop :=
  (d.Polls e .out ∧ d.fsm = .statusOut ∨ d.Polls e .tx ∧ d.fsm = .statusIn)
    ∧ d.usbReq.isDownload = true

instance (d : Dev) (e : BusEvent) : Decidable (d.Acknowledges e) :=
  inferInstanceAs (Decidable (_ ∧ _))

/-- A download that is dispatched is stored. -/
theorem dispatch_download {d : Dev} (h : d.usbReq.isDownload = true) :
    (usbControlRequestDispatch d).2.dfu.state = .dnloadSync := by
  obtain ⟨hclass, hreq, hlen⟩ := (d.usbReq.isDownload_iff).mp h
  show (dispatchRequest d).2.dfu.state = .dnloadSync
  rw [dispatchRequest_dfu, if_pos hclass]
  unfold usbdfuControlRequest
  rw [hreq]
  simp only
  rw [if_neg hlen]

/-- After the dispatch of a download, up to the end of its status stage, its block is the
    one in `prog`. -/
def StageDownload (d : Dev) : Prop :=
  d.fsm = .statusIn ∨ d.fsm = .dataIn ∨ d.fsm = .lastDataIn ∨ d.fsm = .statusOut →
    d.usbReq.isDownload = true → d.dfu.state = .dnloadSync

/-- The other stages say nothing. -/
theorem stageDownload_of_fsm {d : Dev}
    (h : d.fsm = .idle ∨ d.fsm = .dataOut ∨ d.fsm = .lastDataOut) : StageDownload d := by
  intro hs
  rcases h with h | h | h <;> simp [h] at hs

theorem Turn.stageDownload {d d' : Dev} {e : BusEvent} (ht : Turn d e d')
    (h : StageDownload d) : StageDownload d' := by
  have hread (req : UsbSetupData) : (d.dispatchRead req).2.usbReq = req :=
    (usbControlRequestDispatch_frame { d.afterSetup req with dataoff := 0 }).2.2.2
  cases ht with
  | still p hs => exact h
  | garbled p req hs hreq => exact stageDownload_of_fsm (Or.inl rfl)
  | tooLong p req hs hreq hwrite hlen => exact stageDownload_of_fsm (Or.inl rfl)
  | write p req hs hreq hwrite hlen =>
    refine stageDownload_of_fsm (Or.inr ?_)
    show (if req.wLength > bMaxPacketSize0 then UsbFsmState.dataOut else .lastDataOut) = _ ∨ _
    split
    · exact Or.inl rfl
    · exact Or.inr rfl
  | readStall p req hs hreq hisread hcode => exact stageDownload_of_fsm (Or.inl rfl)
  | readStatus p req n hs hreq hisread hcode hlen =>
    -- a `DFU_DNLOAD` without data is no download
    intro _ hdown
    have hdown : req.isDownload = true := (hread req) ▸ hdown
    exact absurd hlen ((req.isDownload_iff).mp hdown).2.2
  | readData p req s n o z off data hs hreq hisread hcode hlen hstage =>
    -- a download with the direction bit set: its status stage is an OUT packet
    intro _ hdown
    have hdown : req.isDownload = true := (hread req) ▸ hdown
    exact dispatch_download (d := { d.afterSetup req with dataoff := 0 }) hdown
  | short p hs hfsm hfits => exact stageDownload_of_fsm (Or.inl rfl)
  | chunk p hs hfsm hfits =>
    refine stageDownload_of_fsm (Or.inr ?_)
    show (if d.usbReq.wLength.toNat ≤ (d.datasize + d.packetsize).toNat + bMaxPacketSize0.toNat
      then UsbFsmState.lastDataOut else .dataOut) = _ ∨ _
    split
    · exact Or.inr rfl
    · exact Or.inl rfl
  | writeStall p hs hfsm hfits hcode => exact stageDownload_of_fsm (Or.inl rfl)
  | writeDone p hs hfsm hfits hcode =>
    intro _ hdown
    have hreq : d.dispatchWrite.2.usbReq = d.usbReq :=
      (usbControlRequestDispatch_frame d.stored).2.2.2
    have hdown : d.usbReq.isDownload = true := hreq ▸ hdown
    exact dispatch_download (d := d.stored) hdown
  | completeOut p hs hfsm => exact stageDownload_of_fsm (Or.inl rfl)
  | completeIn p hs hfsm => exact stageDownload_of_fsm (Or.inl rfl)
  | nextChunk p s n o z off data hs hfsm hstage =>
    intro _ hdown
    exact h (Or.inr (Or.inl hfsm)) hdown
  | lastChunk p hs hfsm =>
    intro _ hdown
    exact h (Or.inr (Or.inr (Or.inl hfsm))) hdown
  | unexpected p hs => exact stageDownload_of_fsm (Or.inl rfl)

theorem run_stageDownload (b : Board) (evs : List BusEvent) :
    StageDownload ((Dev.init b).run evs) := by
  refine run_invariant' (I := StageDownload) (fun d e => (step_turn d e).stageDownload) ?_ evs
  exact stageDownload_of_fsm (Or.inl rfl)

/-! ### One request -/

/-- The block `p` waits. -/
def Waits (p : Prog) (f : Dfu) : Prop :=
  f.prog = p ∧ (f.state = .dnloadSync ∨ f.state = .dnbusy ∨ f.state = .error)

/-- From `f` to `f'` the block is carried out, or discarded by `DFU_ABORT` or
    `DFU_CLRSTATUS`. -/
def BlockEnds (p : Prog) (f f' : Dfu) : Prop :=
  f'.log = .exec p :: f.log
    ∨ (f'.log = .request .abort :: f.log ∨ f'.log = .request .clrstatus :: f.log)
      ∧ f'.state = .dfuIdle

/-- From `f` to `f'` the block is kept, and no other is accepted. -/
def BlockKept (p : Prog) (f f' : Dfu) : Prop :=
  Waits p f' ∧ ∀ q, f'.log ≠ .dnload q :: f.log

/-- The requests that discard a waiting block and are allowed to. -/
def Discards (f : Dfu) (req : UsbSetupData) : Prop :=
  DfuReq.ofCode req.bRequest = some .abort
    ∨ DfuReq.ofCode req.bRequest = some .clrstatus ∧ f.state = .error

/-- The requests that a waiting block does not survive: a `DFU_DNLOAD`, a `DFU_DETACH` and
    a `DFU_UPLOAD` that is served. -/
def Overwrites (f : Dfu) (req : UsbSetupData) : Prop :=
  DfuReq.ofCode req.bRequest = some .dnload ∨ DfuReq.ofCode req.bRequest = some .detach
    ∨ DfuReq.ofCode req.bRequest = some .upload ∧ UploadServed f req

instance (f : Dfu) (req : UsbSetupData) : Decidable (Discards f req) :=
  inferInstanceAs (Decidable (_ ∨ _ ∧ _))

instance (f : Dfu) (req : UsbSetupData) : Decidable (Overwrites f req) :=
  inferInstanceAs (Decidable (_ ∨ _ ∨ _ ∧ _))

/-- Nothing ends a block whose driver stays as it is. -/
theorem not_blockEnds_self (p : Prog) (f : Dfu) : ¬ BlockEnds p f f := by
  rintro (h | ⟨h | h, -⟩) <;> exact List.cons_ne_self _ _ h.symm

/-- A driver that stays as it is keeps its block. -/
theorem Waits.kept_self {p : Prog} {f : Dfu} (h : Waits p f) : BlockKept p f f :=
  ⟨h, fun _ hq => List.cons_ne_self _ _ hq.symm⟩

/-- **A request while a block waits.**  It ends the wait exactly if it may discard the
    block; otherwise it keeps the block exactly if it does not overwrite it. -/
theorem usbdfuControlRequest_block {p : Prog} {f : Dfu} (h : Waits p f) (ctrl : Nat → UInt8)
    (req : UsbSetupData) (len : UInt16) (complete : Bool) :
    (BlockEnds p f (usbdfuControlRequest f ctrl req len complete).dfu ↔ Discards f req)
      ∧ (¬ Discards f req →
          (BlockKept p f (usbdfuControlRequest f ctrl req len complete).dfu
            ↔ ¬ Overwrites f req)) := by
  obtain ⟨hprog, hstate⟩ := h
  unfold Discards Overwrites usbdfuControlRequest
  cases hr : DfuReq.ofCode req.bRequest with
  | none =>
    refine ⟨iff_of_false (not_blockEnds_self p f) (by simp), fun _ => iff_of_true ?_ (by simp)⟩
    exact Waits.kept_self ⟨hprog, hstate⟩
  | some r =>
    cases r with
    | dnload =>
      simp only
      by_cases h0 : len = 0
      · -- without data it starts the manifestation
        rw [if_pos h0]
        refine ⟨iff_of_false ?_ (by simp), fun _ => iff_of_false ?_ (by simp)⟩
        · simp [BlockEnds]
        · simp [BlockKept, Waits]
      · rw [if_neg h0]
        refine ⟨iff_of_false ?_ (by simp), fun _ => iff_of_false ?_ (by simp)⟩
        · simp [BlockEnds]
        · simp [BlockKept]
    | detach =>
      -- `dfuMANIFEST-SYNC`, whatever waits
      refine ⟨iff_of_false ?_ (by simp), fun _ => iff_of_false ?_ (by simp)⟩
      · simp [BlockEnds]
      · simp [BlockKept, Waits]
    | abort =>
      refine ⟨iff_of_true (Or.inr ⟨Or.inl rfl, rfl⟩) (Or.inl rfl), fun hno => ?_⟩
      exact absurd (Or.inl rfl) hno
    | clrstatus =>
      by_cases herr : f.state = .error
      · simp [BlockEnds, herr]
      · -- outside `dfuERROR` the state stays
        simp only [if_neg herr]
        refine ⟨iff_of_false ?_ (by simp [herr]), fun _ => iff_of_true ?_ (by simp)⟩
        · rcases hstate with hs | hs | hs <;> simp [BlockEnds, hs]
        · exact ⟨⟨hprog, hstate⟩, by simp⟩
    | getstate =>
      refine ⟨iff_of_false ?_ (by simp), fun _ => iff_of_true ?_ (by simp)⟩
      · simp [BlockEnds]
      · exact ⟨⟨hprog, hstate⟩, by simp⟩
    | getstatus =>
      refine ⟨iff_of_false ?_ (by simp), fun _ => iff_of_true ?_ (by simp)⟩
      · simp only [usbdfuGetstatus]
        rcases hstate with hs | hs | hs <;> simp [BlockEnds, hs]
      · simp only [usbdfuGetstatus]
        rcases hstate with hs | hs | hs <;> simp [BlockKept, Waits, hs, hprog]
    | upload =>
      -- one that is served sets `dfuUPLOAD-IDLE`, the other one `dfuERROR`
      by_cases hserved : UploadServed f req
      · refine ⟨iff_of_false ?_ (by simp), fun _ => iff_of_false ?_ (by simp [hserved])⟩
        · simp only
          split
          · simp [BlockEnds]
          · split <;> simp [BlockEnds]
        · have huploadIdle : (usbdfuControlRequest f ctrl req len complete).dfu.state
              = .uploadIdle := by
            unfold usbdfuControlRequest
            rw [hr]
            simp only
            rcases hserved with h0 | hrange
            · rw [if_pos h0]
            · rw [if_pos hrange]
              split <;> rfl
          unfold usbdfuControlRequest at huploadIdle
          rw [hr] at huploadIdle
          rintro ⟨⟨-, hs⟩, -⟩
          rw [huploadIdle] at hs
          simp at hs
      · have hno := hserved
        simp only [UploadServed, not_or] at hno
        simp only [if_neg hno.1, if_neg hno.2]
        refine ⟨iff_of_false ?_ (by simp), fun _ => iff_of_true ?_ (by simp [hserved])⟩
        · simp [BlockEnds]
        · simp [BlockKept, Waits, hprog]

/-! ### Steps -/

/-- The step is the completion that carries the waiting block out, or hands on a request
    that may discard it. -/
def Finishes (d : Dev) (e : BusEvent) : Prop :=
  d.Completes e ∧ d.dfu.state = .dnbusy ∨ ∃ req, d.Hands e req ∧ Discards d.dfu req

/-- The condition on one step: it hands on no request that overwrites a waiting block. -/
def LeavesBlock (d : Dev) (e : BusEvent) : Prop := ∀ req, d.Hands e req → ¬ Overwrites d.dfu req

instance (d : Dev) (e : BusEvent) : Decidable (Finishes d e) :=
  match h : d.nextRequest with
  | none => decidable_of_iff (d.Completes e ∧ d.dfu.state = .dnbusy)
      ⟨Or.inl, fun hf => hf.elim id fun ⟨req, hreq, _⟩ => by simp [Dev.Hands, h] at hreq⟩
  | some r => decidable_of_iff
      (d.Completes e ∧ d.dfu.state = .dnbusy ∨ d.Hands e r ∧ Discards d.dfu r)
      ⟨fun hf => hf.imp_right fun hr => ⟨r, hr⟩,
        fun hf => hf.imp_right fun ⟨req, hreq, hd⟩ => by
          obtain rfl : r = req := Option.some.inj (h.symm.trans hreq.2.2)
          exact ⟨hreq, hd⟩⟩

instance (d : Dev) (e : BusEvent) : Decidable (LeavesBlock d e) :=
  match h : d.nextRequest with
  | none => isTrue fun req hreq => by simp [Dev.Hands, h] at hreq
  | some r => decidable_of_iff (d.Hands e r → ¬ Overwrites d.dfu r)
      ⟨fun hr req hreq => by
          obtain rfl : r = req := Option.some.inj (h.symm.trans hreq.2.2)
          exact hr hreq,
        fun hr hreq => hr r hreq⟩

/-- **A step while a block waits.** -/
theorem step_block {p : Prog} {d : Dev} (h : Waits p d.dfu) (e : BusEvent) :
    (BlockEnds p d.dfu (d.step e).dfu ↔ Finishes d e)
      ∧ (¬ Finishes d e → (BlockKept p d.dfu (d.step e).dfu ↔ LeavesBlock d e)) := by
  by_cases hhands : ∃ req, d.Hands e req
  · -- the request that is handed on decides
    obtain ⟨req, hreq⟩ := hhands
    obtain ⟨hnc, ctrl, complete, hstep⟩ := step_dfu_of_hands hreq
    have hfinishes : Finishes d e ↔ Discards d.dfu req := by
      refine ⟨?_, fun hd => Or.inr ⟨req, hreq, hd⟩⟩
      rintro (⟨hc, -⟩ | ⟨req', hreq', hd⟩)
      · exact absurd hc hnc
      · exact hreq.unique hreq' ▸ hd
    have hleaves : LeavesBlock d e ↔ ¬ Overwrites d.dfu req := by
      refine ⟨fun hl => hl req hreq, fun ho req' hreq' => ?_⟩
      exact hreq.unique hreq' ▸ ho
    rw [hfinishes, hleaves, hstep]
    exact usbdfuControlRequest_block h ctrl req req.wLength complete
  have hleaves : LeavesBlock d e := fun req hreq => absurd ⟨req, hreq⟩ hhands
  have hdiscards : ¬ ∃ req, d.Hands e req ∧ Discards d.dfu req :=
    fun ⟨req, hreq, _⟩ => hhands ⟨req, hreq⟩
  by_cases hfinish : d.Completes e ∧ d.dfu.state = .dnbusy
  · -- the block is carried out
    have hends : BlockEnds p d.dfu (d.step e).dfu := by
      left
      rw [step_dfu_of_completes hfinish.1, usbdfuGetstatusComplete_dnbusy hfinish.2, h.1]
    exact ⟨iff_of_true hends (Or.inl hfinish), fun hno => absurd (Or.inl hfinish) hno⟩
  · -- a completion in another state does nothing, and neither does any other step
    have hsame : (d.step e).dfu = d.dfu := by
      by_cases hc : d.Completes e
      · have hbusy : d.dfu.state ≠ .dnbusy := fun hs => hfinish ⟨hc, hs⟩
        have hmanifest : d.dfu.state ≠ .manifest := by
          rcases h.2 with hs | hs | hs <;> simp [hs]
        rw [step_dfu_of_completes hc, usbdfuGetstatusComplete_other hbusy, if_neg hmanifest]
      · exact step_dfu_of_not_hands hc fun req hreq => hhands ⟨req, hreq⟩
    have hno : ¬ Finishes d e := by
      rintro (hf | hd)
      · exact hfinish hf
      · exact hdiscards hd
    rw [hsame]
    exact ⟨iff_of_false (not_blockEnds_self p d.dfu) hno,
      fun _ => iff_of_true h.kept_self hleaves⟩

/-- The step that ends a status stage leaves the driver alone, but for the callback. -/
theorem Dev.Acknowledges.not_hands {d : Dev} {e : BusEvent} (h : d.Acknowledges e)
    (req : UsbSetupData) : ¬ d.Hands e req := by
  rintro ⟨-, -, hnext⟩
  unfold Dev.nextRequest at hnext
  rcases h.1 with ⟨⟨-, -, hserved⟩, hfsm⟩ | ⟨⟨-, -, hserved⟩, hfsm⟩
  · simp [hserved, hfsm] at hnext
  · simp [hserved] at hnext

/-- **The acknowledgement.**  The block that the transfer has stored waits. -/
theorem Dev.Acknowledges.waits {b : Board} {evs : List BusEvent} {e : BusEvent} {p : Prog}
    (h : ((Dev.init b).run evs).Acknowledges e)
    (hp : lastDnload ((Dev.init b).run evs).dfu.log = some p) :
    Waits p (((Dev.init b).run evs).step e).dfu := by
  have hstate : ((Dev.init b).run evs).dfu.state = .dnloadSync := by
    refine run_stageDownload b evs ?_ h.2
    rcases h.1 with ⟨-, hfsm⟩ | ⟨-, hfsm⟩ <;> simp [hfsm]
  have hprog : ((Dev.init b).run evs).dfu.prog = p := by
    -- in `dfuDNLOAD-SYNC` the last download on record is the one in `prog`
    have hlast := ((run_downloadInv b evs).state.1 (Or.inl hstate)).1
    exact Option.some.inj (hlast.symm.trans hp)
  have hsame : (((Dev.init b).run evs).step e).dfu = ((Dev.init b).run evs).dfu := by
    by_cases hc : ((Dev.init b).run evs).Completes e
    · rw [step_dfu_of_completes hc, usbdfuGetstatusComplete_other (by rw [hstate]; decide),
        if_neg (by rw [hstate]; decide)]
    · exact step_dfu_of_not_hands hc h.not_hands
  rw [hsame]
  exact ⟨hprog, Or.inl hstate⟩

/-! ### Runs -/

/-- Every step keeps the block `p` waiting, up to the one that carries it out or discards
    it. -/
def KeptUntilEnd (p : Prog) (d : Dev) (evs : List BusEvent) : Prop :=
  Until Dev.step (fun d e => BlockKept p d.dfu (d.step e).dfu)
    (fun d e => BlockEnds p d.dfu (d.step e).dfu) d evs

/-- Every step leaves the block alone, up to the one that finishes it. -/
def LeftUntilFinish (d : Dev) (evs : List BusEvent) : Prop :=
  Until Dev.step LeavesBlock Finishes d evs

instance (d : Dev) (evs : List BusEvent) : Decidable (LeftUntilFinish d evs) :=
  inferInstanceAs (Decidable (Until ..))

/-- A waiting block, from any state on. -/
theorem Waits.keptUntilEnd_iff {p : Prog} {d : Dev} (h : Waits p d.dfu)
    (evs : List BusEvent) : KeptUntilEnd p d evs ↔ LeftUntilFinish d evs := by
  refine until_iff (I := fun d : Dev => Waits p d.dfu) ?_ ?_ ?_ h evs
  · intro d e hd
    exact (step_block hd e).1
  · intro d e hd hend
    exact (step_block hd e).2 fun hf => hend ((step_block hd e).1.mpr hf)
  · intro d e hd hkept
    exact hkept.1

/-- **Acknowledged blocks.**  From the step of any run that acknowledges a block on, through
    any events: the block is kept, and no other is accepted, until it is carried out or
    discarded by `DFU_ABORT` or `DFU_CLRSTATUS`, exactly when no request that overwrites it
    is handed on before. -/
theorem run_block_kept_iff (b : Board) (evs : List BusEvent) {e : BusEvent} {p : Prog}
    (hack : ((Dev.init b).run evs).Acknowledges e)
    (hp : lastDnload ((Dev.init b).run evs).dfu.log = some p) (evs' : List BusEvent) :
    KeptUntilEnd p (((Dev.init b).run evs).step e) evs'
      ↔ LeftUntilFinish (((Dev.init b).run evs).step e) evs' :=
  (hack.waits hp).keptUntilEnd_iff evs'

/-- A host downloads two bytes, up to the IN packet of the status stage. -/
def firstBlock : List BusEvent :=
  session [.setup (dnloadRequest 2 2), .out [1, 2]] ++ [.ack]

/-- It downloads two others without asking for the status. -/
def secondDownload : List BusEvent := polled [.setup (dnloadRequest 3 2), .out [8, 9]]

/-- What the two runs decide, evaluated once. -/
theorem firstBlock_evaluated :
    ((Dev.init blankBoard).run firstBlock).Acknowledges .poll
      ∧ ((Dev.init blankBoard).run firstBlock).dfu.state = .dnloadSync
      ∧ LeftUntilFinish (((Dev.init blankBoard).run firstBlock).step .poll)
          (polled getstatusPackets)
      ∧ ¬ LeftUntilFinish (((Dev.init blankBoard).run firstBlock).step .poll)
          secondDownload := by
  decide +kernel

/-- The block of the first download is the one that is acknowledged. -/
theorem firstBlock_lastDnload :
    lastDnload ((Dev.init blankBoard).run firstBlock).dfu.log
      = some ((Dev.init blankBoard).run firstBlock).dfu.prog :=
  ((run_downloadInv blankBoard firstBlock).state.1 (Or.inl firstBlock_evaluated.2.1)).1

/-- The general statement there, with the `DFU_GETSTATUS` that carries the block out. -/
theorem run_block_kept_firstBlock :
    KeptUntilEnd ((Dev.init blankBoard).run firstBlock).dfu.prog
      (((Dev.init blankBoard).run firstBlock).step .poll) (polled getstatusPackets) :=
  (run_block_kept_iff blankBoard firstBlock firstBlock_evaluated.1 firstBlock_lastDnload
    (polled getstatusPackets)).mpr firstBlock_evaluated.2.2.1

/-- The second download replaces the first, which was acknowledged. -/
theorem secondDownload_replaces :
    ((Dev.init blankBoard).run firstBlock).Acknowledges .poll
      ∧ lastDnload ((Dev.init blankBoard).run firstBlock).dfu.log
          = some ((Dev.init blankBoard).run firstBlock).dfu.prog
      ∧ ¬ KeptUntilEnd ((Dev.init blankBoard).run firstBlock).dfu.prog
          (((Dev.init blankBoard).run firstBlock).step .poll) secondDownload := by
  obtain ⟨hack, -, -, hsecond⟩ := firstBlock_evaluated
  refine ⟨hack, firstBlock_lastDnload, fun hkept => hsecond ?_⟩
  exact ((hack.waits firstBlock_lastDnload).keptUntilEnd_iff _).mp hkept

end Stm32F1Dfu
