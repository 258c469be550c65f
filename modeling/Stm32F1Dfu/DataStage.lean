import Stm32F1Dfu.Service
import Stm32F1Dfu.Transfers

namespace Stm32F1Dfu

open Machine

/-!
# The IN data stage against the control buffer

Whether the chunks that `usb_control_send_chunk` hands to the endpoint lie inside
`usbd_control_buffer`.  A reply is cut to `wLength` before it is sent, so only a read with
`wLength` above the buffer's size can pass its end, and only where a handler leaves
`datasize` above it.

* `OverlongReply` — such a request, by what it asks and what `datasize` is left at;
* `run_chunks_inBuffer` — without one, every chunk of a run lies inside the buffer;
* `overlongRun_leaks` — with one, a chunk lies outside.
-/

/-! ### What is asked of a run -/

/-- The chunk, if the event is one, lies inside the control buffer. -/
def UsbEvent.InBuffer : UsbEvent → Prop
  | .chunk off data => off + data.length ≤ dfuTransferSize
  | _ => True

instance (e : UsbEvent) : Decidable e.InBuffer := by
  cases e <;> unfold UsbEvent.InBuffer <;> infer_instance

/-- The SETUP packet that `_usbd_control_setup` reads, when it has its eight bytes. -/
def Dev.nextSetup (d : Dev) : Option UsbSetupData :=
  let (_, buf, size) := usbdEpReadPacket (usbdEpNakSet d.periph 0 true) 0 d.usbReq.toBytes 8
  if size = 8 then some (.ofBytes buf) else none

/-- A class request that is handled with `datasize` left at `wLength`. -/
def UsbSetupData.keepsLength (req : UsbSetupData) : Bool :=
  req.isClassInterface &&
    (DfuReq.ofCode req.bRequest == some .dnload || DfuReq.ofCode req.bRequest == some .clrstatus
      || DfuReq.ofCode req.bRequest == some .abort || DfuReq.ofCode req.bRequest == some .detach)

/-- A read of more than the buffer holds, by a handler that leaves `datasize` above it: at
    `wLength`, or where an earlier transfer left it. -/
def OverlongReply (d : Dev) (req : UsbSetupData) : Prop :=
  req.isRead = true ∧ dfuTransferSize < req.wLength.toNat
    ∧ (req.keepsLength = true ∨ req.leavesDatasize = true ∧ dfuTransferSize < d.datasize.toNat)

/-- The condition on one step: it does not take up a request with an overlong reply. -/
def ReplyFits (d : Dev) (e : BusEvent) : Prop :=
  e = .poll → d.periph.served = .setup → ∀ req, d.nextSetup = some req → ¬ OverlongReply d req

instance (d : Dev) (req : UsbSetupData) : Decidable (OverlongReply d req) :=
  inferInstanceAs (Decidable (_ ∧ _ ∧ _))

instance (d : Dev) (e : BusEvent) : Decidable (ReplyFits d e) :=
  match h : d.nextSetup with
  | none => isTrue fun _ _ req hreq => by simp [h] at hreq
  | some r => decidable_of_iff (e = .poll → d.periph.served = .setup → ¬ OverlongReply d r)
      ⟨fun hr he hs req hreq => by rw [h] at hreq; exact Option.some.inj hreq ▸ hr he hs,
        fun hr he hs => hr he hs r h⟩

/-! ### The reply of a handler -/

/-- What the class driver makes of `datasize`. -/
theorem usbdfuControlRequest_len (d : Dfu) (ctrl : Nat → UInt8) (req : UsbSetupData)
    (len : UInt16) (complete : Bool) :
    (usbdfuControlRequest d ctrl req len complete).len.toNat ≤ dfuTransferSize
      ∨ (usbdfuControlRequest d ctrl req len complete).len = len ∧
        (DfuReq.ofCode req.bRequest = some .dnload ∨ DfuReq.ofCode req.bRequest = some .clrstatus
          ∨ DfuReq.ofCode req.bRequest = some .abort ∨ DfuReq.ofCode req.bRequest = some .detach
          ∨ DfuReq.ofCode req.bRequest = none) := by
  unfold usbdfuControlRequest
  cases hr : DfuReq.ofCode req.bRequest with
  | none => exact Or.inr ⟨rfl, by simp⟩
  | some r =>
    cases r with
    | dnload =>
      simp only
      split <;> exact Or.inr ⟨rfl, by simp⟩
    | upload =>
      left
      simp only
      by_cases h0 : req.wValue = 0
      · rw [if_pos h0]
        exact (by decide : (3 : UInt16).toNat ≤ dfuTransferSize)
      · rw [if_neg h0]
        split
        · exact (by decide : (1024 : UInt16).toNat ≤ dfuTransferSize)
        · exact (by decide : (0 : UInt16).toNat ≤ dfuTransferSize)
    | getstatus => exact Or.inl (by decide : (6 : UInt16).toNat ≤ dfuTransferSize)
    | getstate => exact Or.inl (by decide : (1 : UInt16).toNat ≤ dfuTransferSize)
    | clrstatus => exact Or.inr ⟨rfl, by simp⟩
    | abort => exact Or.inr ⟨rfl, by simp⟩
    | detach => exact Or.inr ⟨rfl, by simp⟩

/-- **The size of a reply.**  A request that is not refused leaves `datasize` within the
    buffer, but for those that do not set it. -/
theorem dispatchRequest_datasize {d : Dev} (h : (dispatchRequest d).1 ≠ .notsupp) :
    (dispatchRequest d).2.datasize.toNat ≤ dfuTransferSize
      ∨ d.usbReq.keepsLength = true
      ∨ d.usbReq.leavesDatasize = true ∧ (dispatchRequest d).2.datasize = d.datasize := by
  cases hclass : d.usbReq.isClassInterface with
  | true =>
    rw [dispatchRequest_class hclass] at h ⊢
    by_cases hnone : DfuReq.ofCode d.usbReq.bRequest = none
    · rw [if_pos hnone] at h
      exact absurd rfl h
    · rw [if_neg hnone]
      rcases usbdfuControlRequest_len d.dfu d.ctrl d.usbReq d.usbReq.wLength d.usbCompleteCb with
        hle | ⟨-, hreq⟩
      · exact Or.inl hle
      · right; left
        simp only [UsbSetupData.keepsLength, hclass, Bool.true_and, Bool.or_eq_true, beq_iff_eq]
        rcases hreq with hr | hr | hr | hr | hr
        · exact Or.inl (Or.inl (Or.inl hr))
        · exact Or.inl (Or.inl (Or.inr hr))
        · exact Or.inl (Or.inr hr)
        · exact Or.inr hr
        · exact absurd hr hnone
  | false =>
    rw [dispatchRequest_other hclass] at h ⊢
    obtain ⟨p, c, n, hd, ⟨-, hn⟩ | ⟨hns, -⟩⟩ := dispatchOther_handledBy d
    · rw [hd]
      rcases hn with hle | ⟨heq, hleaves⟩
      · left
        show n.toNat ≤ 1024
        have : n.toNat ≤ 255 := UInt16.le_iff_toNat_le.mp hle
        omega
      · exact Or.inr (Or.inr ⟨hleaves, heq⟩)
    · exact absurd hns h

/-! ### The stages -/

/-- What is left to send lies inside the buffer. -/
def StageFits (d : Dev) : Prop := d.fsm = .dataIn → d.dataoff.toNat + d.datasize.toNat ≤ 1024

/-- The log and the stage of the transfer both keep to the buffer. -/
def InBuffer (d : Dev) : Prop := StageFits d ∧ ∀ e ∈ d.log, e.InBuffer

/-- **One chunk.**  From a stage that fits, the chunk is inside the buffer and what is left
    fits. -/
theorem usbControlSendChunk_inBuffer {d : Dev}
    (hfit : d.dataoff.toNat + d.datasize.toNat ≤ 1024) (hlog : ∀ e ∈ d.log, e.InBuffer) :
    InBuffer (usbControlSendChunk d) := by
  unfold usbControlSendChunk
  by_cases hmore : bMaxPacketSize0 < d.datasize
  · rw [if_pos hmore]
    have h64 : 64 < d.datasize.toNat := UInt16.lt_iff_toNat_lt.mp hmore
    refine ⟨fun _ => ?_, fun e he => ?_⟩
    · -- offset and rest keep their sum
      show (d.dataoff + 64).toNat + (d.datasize - 64).toNat ≤ 1024
      have hle : (64 : UInt16) ≤ d.datasize := UInt16.le_iff_toNat_le.mpr (Nat.le_of_lt h64)
      rw [UInt16.toNat_add, UInt16.toNat_sub_of_le _ _ hle]
      show (d.dataoff.toNat + 64) % 2 ^ 16 + (d.datasize.toNat - 64) ≤ 1024
      omega
    · rcases List.mem_cons.mp he with rfl | hold
      · show d.dataoff.toNat + (ctrlBytes d.ctrl d.dataoff.toNat 64).length ≤ 1024
        rw [ctrlBytes_length]
        omega
      · exact hlog e hold
  · rw [if_neg hmore]
    refine ⟨fun _ => ?_, fun e he => ?_⟩
    · show d.dataoff.toNat + 0 ≤ 1024
      omega
    · rcases List.mem_cons.mp he with rfl | hold
      · show d.dataoff.toNat + (ctrlBytes d.ctrl d.dataoff.toNat d.datasize.toNat).length ≤ 1024
        rw [ctrlBytes_length]
        exact hfit
      · exact hlog e hold

/-- A stage other than an IN data stage has nothing to send. -/
theorem stageFits_of_ne {d : Dev} (h : d.fsm ≠ .dataIn) : StageFits d := fun hs => absurd hs h

/-- **A read.**  With a reply that fits, the data stage it opens is inside the buffer. -/
theorem usbControlSetupRead_inBuffer {d : Dev} (hfit : ¬ OverlongReply d d.usbReq)
    (hread : d.usbReq.isRead = true) (hlog : ∀ e ∈ d.log, e.InBuffer) :
    InBuffer (usbControlSetupRead d) := by
  obtain ⟨hlog', hoff, hfsm, hreq⟩ := usbControlRequestDispatch_frame { d with dataoff := 0 }
  have hsize := dispatchRequest_datasize (d := { d with dataoff := 0 })
  have hdispatched : ∀ e ∈ (usbControlRequestDispatch { d with dataoff := 0 }).2.log,
      e.InBuffer := by
    intro e he
    rw [hlog'] at he
    rcases List.mem_cons.mp he with rfl | hold
    · trivial
    · exact hlog e hold
  -- the reply as it is cut to `wLength`
  have hcut : (usbControlRequestDispatch { d with dataoff := 0 }).1 ≠ .notsupp →
      min (usbControlRequestDispatch { d with dataoff := 0 }).2.datasize.toNat
        d.usbReq.wLength.toNat ≤ 1024 := by
    intro hcode
    by_contra hbig
    have hlen : dfuTransferSize < d.usbReq.wLength.toNat := by
      show 1024 < _
      omega
    refine hfit ⟨hread, hlen, ?_⟩
    rcases hsize hcode with hle | hkeeps | ⟨hleaves, hsame⟩
    · have hle : (usbControlRequestDispatch { d with dataoff := 0 }).2.datasize.toNat ≤ 1024 := hle
      omega
    · exact Or.inl hkeeps
    · have hsame : (usbControlRequestDispatch { d with dataoff := 0 }).2.datasize = d.datasize :=
        hsame
      rw [hsame] at hbig
      exact Or.inr ⟨hleaves, by show 1024 < _; omega⟩
  revert hlog' hoff hfsm hreq hdispatched hcut
  unfold usbControlSetupRead
  generalize usbControlRequestDispatch { d with dataoff := 0 } = r
  obtain ⟨code, d'⟩ := r
  intro hlog' hoff hfsm hreq hdispatched hcut
  simp only
  by_cases hcode : code = .notsupp
  · rw [if_neg (not_not_intro hcode)]
    refine ⟨stageFits_of_ne (by simp [stallTransaction]), fun e he => ?_⟩
    rcases List.mem_cons.mp he with rfl | hold
    · trivial
    · exact hdispatched e hold
  · rw [if_pos hcode]
    have hcut : min d'.datasize.toNat d.usbReq.wLength.toNat ≤ 1024 := hcut hcode
    have hoff : d'.dataoff.toNat = 0 := congrArg UInt16.toNat hoff
    by_cases hlen : d.usbReq.wLength = 0
    · rw [if_neg (not_not_intro hlen)]
      refine ⟨stageFits_of_ne (by simp), fun e he => ?_⟩
      by_cases hgt : d'.datasize > d.usbReq.wLength
      · rw [if_pos hgt] at he
        exact hdispatched e he
      · rw [if_neg hgt] at he
        exact hdispatched e he
    · rw [if_pos hlen]
      by_cases hgt : d'.datasize > d.usbReq.wLength
      · rw [if_pos hgt]
        refine usbControlSendChunk_inBuffer ?_ hdispatched
        have hgt := UInt16.lt_iff_toNat_lt.mp hgt
        show d'.dataoff.toNat + d.usbReq.wLength.toNat ≤ 1024
        omega
      · rw [if_neg hgt]
        refine usbControlSendChunk_inBuffer ?_ hdispatched
        have hgt : ¬ d.usbReq.wLength.toNat < d'.datasize.toNat :=
          fun h => hgt (UInt16.lt_iff_toNat_lt.mpr h)
        show d'.dataoff.toNat + d'.datasize.toNat ≤ 1024
        omega

/-- A SETUP packet that opens no overlong reply keeps to the buffer. -/
theorem usbdControlSetup_inBuffer {d : Dev}
    (hfit : ∀ req, d.nextSetup = some req → ¬ OverlongReply d req)
    (hlog : ∀ e ∈ d.log, e.InBuffer) : InBuffer (usbdControlSetup d) := by
  unfold usbdControlSetup
  unfold Dev.nextSetup at hfit
  simp only at hfit ⊢
  generalize usbdEpReadPacket (usbdEpNakSet d.periph 0 true) 0 d.usbReq.toBytes 8 = r at hfit ⊢
  obtain ⟨p, buf, size⟩ := r
  simp only at hfit ⊢
  by_cases hsize : size = 8
  · rw [if_neg (not_not_intro hsize)]
    have hfit : ¬ OverlongReply d (.ofBytes buf) := hfit _ (if_pos hsize)
    have hlog' : ∀ e ∈ UsbEvent.setup (.ofBytes buf) :: d.log, e.InBuffer := by
      intro e he
      rcases List.mem_cons.mp he with rfl | hold
      · trivial
      · exact hlog e hold
    by_cases hread : (UsbSetupData.ofBytes buf).isRead = true
    · rw [if_pos hread]
      exact usbControlSetupRead_inBuffer hfit hread hlog'
    · rw [if_neg hread]
      unfold usbControlSetupWrite
      split
      · refine ⟨stageFits_of_ne (by simp [stallTransaction]), fun e he => ?_⟩
        rcases List.mem_cons.mp he with rfl | hold
        · trivial
        · exact hlog' e hold
      · refine ⟨stageFits_of_ne ?_, hlog'⟩
        simp only
        split <;> simp
  · rw [if_pos hsize]
    refine ⟨stageFits_of_ne (by simp [stallTransaction]), fun e he => ?_⟩
    rcases List.mem_cons.mp he with rfl | hold
    · trivial
    · exact hlog e hold

/-- A stall keeps to the buffer. -/
theorem stallTransaction_inBuffer {d : Dev} (hlog : ∀ e ∈ d.log, e.InBuffer) :
    InBuffer (stallTransaction d) := by
  refine ⟨stageFits_of_ne (by simp [stallTransaction]), fun e he => ?_⟩
  rcases List.mem_cons.mp he with rfl | hold
  · trivial
  · exact hlog e hold

/-- A received chunk either is taken, in the same stage, or stalls the endpoint. -/
theorem usbControlRecvChunk_cases (d : Dev) :
    ((usbControlRecvChunk d).1 = true ∧ (usbControlRecvChunk d).2.fsm = d.fsm
        ∧ (usbControlRecvChunk d).2.log = d.log)
      ∨ ((usbControlRecvChunk d).1 = false ∧ (usbControlRecvChunk d).2.fsm = .idle
        ∧ (usbControlRecvChunk d).2.log = .stall :: d.log) := by
  simp only [usbControlRecvChunk]
  split
  · exact Or.inr ⟨rfl, rfl, rfl⟩
  · exact Or.inl ⟨rfl, rfl, rfl⟩

/-- An OUT packet opens no IN data stage. -/
theorem usbdControlOut_inBuffer {d : Dev} (hlog : ∀ e ∈ d.log, e.InBuffer) :
    InBuffer (usbdControlOut d) := by
  have hrecv : ∀ e ∈ (usbControlRecvChunk d).2.log, e.InBuffer := by
    intro e he
    rcases usbControlRecvChunk_cases d with ⟨-, -, hl⟩ | ⟨-, -, hl⟩
    · exact hlog e (hl ▸ he)
    · rcases List.mem_cons.mp (hl ▸ he) with rfl | hold
      · trivial
      · exact hlog e hold
  unfold usbdControlOut
  cases hfsm : d.fsm with
  | dataOut =>
    have hne : (usbControlRecvChunk d).2.fsm ≠ .dataIn := by
      rcases usbControlRecvChunk_cases d with ⟨-, hs, -⟩ | ⟨-, hs, -⟩ <;> simp [hs, hfsm]
    simp only
    split
    · exact ⟨stageFits_of_ne hne, hrecv⟩
    · split
      · exact ⟨stageFits_of_ne (by simp), hrecv⟩
      · exact ⟨stageFits_of_ne hne, hrecv⟩
  | lastDataOut =>
    have hne : (usbControlRecvChunk d).2.fsm ≠ .dataIn := by
      rcases usbControlRecvChunk_cases d with ⟨-, hs, -⟩ | ⟨-, hs, -⟩ <;> simp [hs, hfsm]
    simp only
    split
    · exact ⟨stageFits_of_ne hne, hrecv⟩
    · have hdisp : ∀ e ∈ (usbControlRequestDispatch (usbControlRecvChunk d).2).2.log,
          e.InBuffer := by
        intro e he
        rw [(usbControlRequestDispatch_frame _).1] at he
        rcases List.mem_cons.mp he with rfl | hold
        · trivial
        · exact hrecv e hold
      split
      · exact ⟨stageFits_of_ne (by simp), hdisp⟩
      · exact stallTransaction_inBuffer hdisp
  | statusOut =>
    refine ⟨stageFits_of_ne (by simp [completeTransfer]), fun e he => ?_⟩
    rcases List.mem_cons.mp he with rfl | hold
    · trivial
    · exact hlog e hold
  | idle => exact stallTransaction_inBuffer hlog
  | stalled => exact stallTransaction_inBuffer hlog
  | dataIn => exact stallTransaction_inBuffer hlog
  | lastDataIn => exact stallTransaction_inBuffer hlog
  | statusIn => exact stallTransaction_inBuffer hlog

/-- An acknowledged IN packet is followed by the next chunk of what is left. -/
theorem usbdControlIn_inBuffer {d : Dev} (h : InBuffer d) : InBuffer (usbdControlIn d) := by
  obtain ⟨hstage, hlog⟩ := h
  unfold usbdControlIn
  cases hfsm : d.fsm with
  | dataIn => exact usbControlSendChunk_inBuffer (hstage hfsm) hlog
  | lastDataIn => exact ⟨stageFits_of_ne (by simp), hlog⟩
  | statusIn =>
    refine ⟨stageFits_of_ne (by simp), fun e he => ?_⟩
    rcases List.mem_cons.mp he with rfl | hold
    · trivial
    · exact hlog e hold
  | idle => exact stallTransaction_inBuffer hlog
  | stalled => exact stallTransaction_inBuffer hlog
  | dataOut => exact stallTransaction_inBuffer hlog
  | lastDataOut => exact stallTransaction_inBuffer hlog
  | statusOut => exact stallTransaction_inBuffer hlog

/-! ### Steps and runs -/

/-- **A step keeps to the buffer**, if it takes up no request with an overlong reply. -/
theorem step_inBuffer {d : Dev} {e : BusEvent} (h : InBuffer d) (hfit : ReplyFits d e) :
    InBuffer (d.step e) := by
  unfold Dev.step
  split
  · exact h
  cases e with
  | poll =>
    obtain ⟨p, hpoll⟩ := exists_doUsbPoll d
    show InBuffer (doUsbPoll d)
    rw [hpoll]
    show InBuffer (d.serve d.periph.served)
    cases hserved : d.periph.served with
    | reset => exact h
    | setup => exact usbdControlSetup_inBuffer (hfit rfl hserved) h.2
    | out => exact usbdControlOut_inBuffer h.2
    | tx => exact usbdControlIn_inBuffer h
    | nothing => exact h
  | busReset => exact h
  | raise flags => exact h
  | setup req => exact h
  | out data => exact h
  | ack => exact h

/-- **The data stages of a run.**  Where no step takes up a request with an overlong reply,
    every chunk handed to the endpoint lies inside `usbd_control_buffer`. -/
theorem run_chunks_inBuffer (b : Board) (evs : List BusEvent)
    (h : AllSteps Dev.step ReplyFits (Dev.init b) evs) :
    ∀ e ∈ ((Dev.init b).run evs).log, e.InBuffer := by
  have hrun : InBuffer ((Dev.init b).run evs) := by
    refine run_invariant (I := InBuffer) (fun d e hd hc => step_inBuffer hd hc) ?_ h
    exact ⟨stageFits_of_ne (by simp [Dev.init]), fun e he => absurd he List.not_mem_nil⟩
  exact hrun.2

/-- A `GET_DESCRIPTOR` of the string that names the flash: 92 bytes, in two packets. -/
def getFlashName : UsbSetupData :=
  { bmRequestType := 0x80, bRequest := 6, wValue := 0x0304, wIndex := 0x0409, wLength := 255 }

/-- The 92 bytes are read in two chunks, and both keep to the buffer. -/
theorem run_chunks_inBuffer_flashName :
    let log := ((Dev.init blankBoard).run (session [.setup getFlashName, .ack, .ack, .out []])).log
    .chunk 64 ((utf16 (usbStrings false (fun _ => 0) 3)).drop 62) ∈ log
      ∧ ∀ e ∈ log, e.InBuffer :=
  ⟨by decide +kernel, run_chunks_inBuffer blankBoard _ (by decide +kernel)⟩

/-- A host reads 2048 bytes with `DFU_CLRSTATUS`: the request and 16 IN packets. -/
def overlongRun : List BusEvent :=
  session (.setup (dfuRequest 0xA1 4 0 2048) :: List.replicate 16 .ack)

/-- The seventeenth chunk starts at the end of the control buffer. -/
theorem overlongRun_leaks : ¬ ∀ e ∈ ((Dev.init blankBoard).run overlongRun).log, e.InBuffer := by
  decide +kernel

end Stm32F1Dfu
