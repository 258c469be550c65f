import Stm32F1Dfu.Requests

namespace Stm32F1Dfu

/-!
# Everything a step can do

`Turn d e d'` lists, up to the peripheral, what a step makes of the device: one
constructor for each way through `_usbd_control_setup`, `_usbd_control_out` and
`_usbd_control_in`, with the tests that lead there.  `step_turn` says that there is no
other.
-/

/-- The step is a poll that serves `s`. -/
def Dev.Polls (d : Dev) (e : BusEvent) (s : Served) : Prop :=
  d.dfu.reset = false ∧ e = .poll ∧ d.periph.served = s

instance (d : Dev) (e : BusEvent) (s : Served) : Decidable (d.Polls e s) :=
  inferInstanceAs (Decidable (_ ∧ _ ∧ _))

/-- The dispatch of a read, as its SETUP packet is taken up. -/
def Dev.dispatchRead (d : Dev) (req : UsbSetupData) : UsbdRequestReturnCodes × Dev :=
  usbControlRequestDispatch { d.afterSetup req with dataoff := 0 }

/-- The dispatch of a write, with its last packet. -/
def Dev.dispatchWrite (d : Dev) : UsbdRequestReturnCodes × Dev :=
  usbControlRequestDispatch d.stored

/-- What a step does, up to the peripheral. -/
inductive Turn (d : Dev) (e : BusEvent) : Dev → Prop where
  /-- no transfer is served -/
  | still (p : Periph) (h : ∀ s, d.Polls e s → s = .reset ∨ s = .nothing) :
      Turn d e { d with periph := p }
  /-- a SETUP packet that is too short -/
  | garbled (p : Periph) (req : UsbSetupData) (h : d.Polls e .setup)
      (hreq : d.nextSetup = none) :
      Turn d e { d with periph := p, usbCompleteCb := false, usbReq := req, fsm := .idle,
                        log := .stall :: d.log }
  /-- a write of more than the buffer holds -/
  | tooLong (p : Periph) (req : UsbSetupData) (h : d.Polls e .setup)
      (hreq : d.nextSetup = some req) (hwrite : req.isRead = false)
      (hlen : dfuTransferSize < req.wLength.toNat) :
      Turn d e { d.afterSetup req with periph := p, fsm := .idle,
                                       log := .stall :: .setup req :: d.log }
  /-- a write: its data stage begins -/
  | write (p : Periph) (req : UsbSetupData) (h : d.Polls e .setup)
      (hreq : d.nextSetup = some req) (hwrite : req.isRead = false)
      (hlen : req.wLength.toNat ≤ dfuTransferSize) :
      Turn d e { d.afterSetup req with
        periph := p, datasize := 0
        fsm := if req.wLength > bMaxPacketSize0 then .dataOut else .lastDataOut }
  /-- a read that is refused -/
  | readStall (p : Periph) (req : UsbSetupData) (h : d.Polls e .setup)
      (hreq : d.nextSetup = some req) (hread : req.isRead = true)
      (hcode : (d.dispatchRead req).1 = .notsupp) :
      Turn d e { (d.dispatchRead req).2 with periph := p, fsm := .idle,
                                             log := .stall :: (d.dispatchRead req).2.log }
  /-- a request without data -/
  | readStatus (p : Periph) (req : UsbSetupData) (n : UInt16) (h : d.Polls e .setup)
      (hreq : d.nextSetup = some req) (hread : req.isRead = true)
      (hcode : (d.dispatchRead req).1 ≠ .notsupp) (hlen : req.wLength = 0) :
      Turn d e { (d.dispatchRead req).2 with periph := p, datasize := n, fsm := .statusIn }
  /-- a read with data: its first chunk is sent -/
  | readData (p : Periph) (req : UsbSetupData) (s : UsbFsmState) (n o : UInt16) (z : Bool)
      (off : Nat) (data : List UInt8) (h : d.Polls e .setup) (hreq : d.nextSetup = some req)
      (hread : req.isRead = true) (hcode : (d.dispatchRead req).1 ≠ .notsupp)
      (hlen : req.wLength ≠ 0) (hs : s = .dataIn ∨ s = .lastDataIn) :
      Turn d e { (d.dispatchRead req).2 with
        periph := p, fsm := s, datasize := n, dataoff := o, usbNeedsZlp := z
        log := .chunk off data :: (d.dispatchRead req).2.log }
  /-- a packet of the data stage that is too short -/
  | short (p : Periph) (h : d.Polls e .out) (hfsm : d.fsm = .dataOut ∨ d.fsm = .lastDataOut)
      (hfits : d.chunkFits = false) :
      Turn d e { d.afterChunk with periph := p, fsm := .idle, log := .stall :: d.log }
  /-- a packet of the data stage before the last -/
  | chunk (p : Periph) (h : d.Polls e .out) (hfsm : d.fsm = .dataOut)
      (hfits : d.chunkFits = true) :
      Turn d e { d.stored with
        periph := p
        fsm := if d.usbReq.wLength.toNat
            ≤ (d.datasize + d.packetsize).toNat + bMaxPacketSize0.toNat
          then .lastDataOut else .dataOut }
  /-- the last packet, and a request that is refused -/
  | writeStall (p : Periph) (h : d.Polls e .out) (hfsm : d.fsm = .lastDataOut)
      (hfits : d.chunkFits = true) (hcode : d.dispatchWrite.1 = .notsupp) :
      Turn d e { d.dispatchWrite.2 with periph := p, fsm := .idle,
                                        log := .stall :: d.dispatchWrite.2.log }
  /-- the last packet, and a request that is handled -/
  | writeDone (p : Periph) (h : d.Polls e .out) (hfsm : d.fsm = .lastDataOut)
      (hfits : d.chunkFits = true) (hcode : d.dispatchWrite.1 ≠ .notsupp) :
      Turn d e { d.dispatchWrite.2 with periph := p, fsm := .statusIn }
  /-- the status stage of a read -/
  | completeOut (p : Periph) (h : d.Polls e .out) (hfsm : d.fsm = .statusOut) :
      Turn d e { completeTransfer d with periph := p, fsm := .idle, usbCompleteCb := false }
  /-- the status stage of a write, or of a request without data -/
  | completeIn (p : Periph) (h : d.Polls e .tx) (hfsm : d.fsm = .statusIn) :
      Turn d e { completeTransfer d with periph := p, fsm := .idle }
  /-- the next chunk of a read -/
  | nextChunk (p : Periph) (s : UsbFsmState) (n o : UInt16) (z : Bool) (off : Nat)
      (data : List UInt8) (h : d.Polls e .tx) (hfsm : d.fsm = .dataIn)
      (hs : s = .dataIn ∨ s = .lastDataIn) :
      Turn d e { d with periph := p, fsm := s, datasize := n, dataoff := o, usbNeedsZlp := z,
                        log := .chunk off data :: d.log }
  /-- the last chunk of a read is acknowledged -/
  | lastChunk (p : Periph) (h : d.Polls e .tx) (hfsm : d.fsm = .lastDataIn) :
      Turn d e { d with periph := p, fsm := .statusOut }
  /-- a packet that the state does not expect -/
  | unexpected (p : Periph)
      (h : d.Polls e .out ∧ d.fsm ≠ .dataOut ∧ d.fsm ≠ .lastDataOut ∧ d.fsm ≠ .statusOut
        ∨ d.Polls e .tx ∧ d.fsm ≠ .dataIn ∧ d.fsm ≠ .lastDataIn ∧ d.fsm ≠ .statusIn) :
      Turn d e { d with periph := p, fsm := .idle, log := .stall :: d.log }

/-- A chunk that is sent, up to the peripheral. -/
theorem usbControlSendChunk_turn (d : Dev) :
    ∃ p s n o z off data, (s = .dataIn ∨ s = .lastDataIn)
      ∧ usbControlSendChunk d = { d with
          periph := p, fsm := s, datasize := n, dataoff := o, usbNeedsZlp := z
          log := .chunk off data :: d.log } := by
  unfold usbControlSendChunk
  split
  · exact ⟨_, .dataIn, _, _, _, _, _, Or.inl rfl, rfl⟩
  · refine ⟨_, if d.usbNeedsZlp then .dataIn else .lastDataIn, 0, d.dataoff, false, _, _, ?_, rfl⟩
    cases d.usbNeedsZlp
    · exact Or.inr rfl
    · exact Or.inl rfl

/-- A read from its dispatch on, up to the peripheral. -/
theorem usbControlSetupRead_turn (d : Dev) (req : UsbSetupData) :
    (d.dispatchRead req).1 = .notsupp
        ∧ usbControlSetupRead (d.afterSetup req) = stallTransaction (d.dispatchRead req).2
      ∨ (d.dispatchRead req).1 ≠ .notsupp ∧ req.wLength = 0
        ∧ (∃ p n, usbControlSetupRead (d.afterSetup req)
            = { (d.dispatchRead req).2 with periph := p, datasize := n, fsm := .statusIn })
      ∨ (d.dispatchRead req).1 ≠ .notsupp ∧ req.wLength ≠ 0
        ∧ ∃ p s n o z off data, (s = .dataIn ∨ s = .lastDataIn)
          ∧ usbControlSetupRead (d.afterSetup req) = { (d.dispatchRead req).2 with
              periph := p, fsm := s, datasize := n, dataoff := o, usbNeedsZlp := z
              log := .chunk off data :: (d.dispatchRead req).2.log } := by
  have hlen : (d.afterSetup req).usbReq.wLength = req.wLength := rfl
  by_cases hcode : (d.dispatchRead req).1 = .notsupp
  · left
    exact ⟨hcode, usbControlSetupRead_refused hcode⟩
  by_cases h0 : req.wLength = 0
  · right; left
    exact ⟨hcode, h0, _, _, usbControlSetupRead_status hcode (hlen.trans h0)⟩
  · right; right
    refine ⟨hcode, h0, ?_⟩
    rw [usbControlSetupRead_data hcode h0]
    exact usbControlSendChunk_turn _

/-- **A step is a turn.** -/
theorem step_turn (d : Dev) (e : BusEvent) : Turn d e (d.step e) := by
  by_cases hreset : d.dfu.reset = true
  · -- after the system reset nothing is served
    have hsame : d.step e = { d with periph := d.periph } := by simp [Dev.step, hreset]
    rw [hsame]
    refine .still _ fun s h => ?_
    exact absurd h.1 (by simp [hreset])
  have hreset : d.dfu.reset = false := by simpa using hreset
  by_cases he : e = .poll
  · subst he
    obtain ⟨p, hstep⟩ := step_poll hreset
    rw [hstep]
    -- what is served first decides the handler
    cases hserved : d.periph.served with
    | reset =>
      refine .still _ fun s h => Or.inl ?_
      exact h.2.2.symm.trans hserved
    | nothing =>
      refine .still _ fun s h => Or.inr ?_
      exact h.2.2.symm.trans hserved
    | setup =>
      have h : d.Polls .poll .setup := ⟨hreset, rfl, hserved⟩
      show Turn d .poll { usbdControlSetup d with periph := p }
      cases hreq : d.nextSetup with
      | none =>
        obtain ⟨req, heq⟩ := usbdControlSetup_none hreq
        rw [heq]
        exact .garbled p req h hreq
      | some req =>
        rw [usbdControlSetup_some hreq]
        cases hread : req.isRead with
        | true =>
          simp only [if_true]
          rcases usbControlSetupRead_turn d req with ⟨hcode, heq⟩ | ⟨hcode, h0, p', n, heq⟩ |
            ⟨hcode, h0, p', s, n, o, z, off, data, hs, heq⟩
          · rw [heq]
            exact .readStall p req h hreq hread hcode
          · rw [heq]
            exact .readStatus p req n h hreq hread hcode h0
          · rw [heq]
            exact .readData p req s n o z off data h hreq hread hcode h0 hs
        | false =>
          simp only [Bool.false_eq_true, if_false]
          -- a write longer than the control buffer is refused before its data stage
          by_cases hlen : dfuTransferSize < req.wLength.toNat
          · have heq : usbControlSetupWrite (d.afterSetup req)
                = stallTransaction (d.afterSetup req) := if_pos hlen
            rw [heq]
            exact .tooLong p req h hreq hread hlen
          · have heq : usbControlSetupWrite (d.afterSetup req)
                = { d.afterSetup req with
                    datasize := 0
                    fsm := if req.wLength > bMaxPacketSize0 then .dataOut else .lastDataOut
                    periph := usbdEpNakSet (d.afterSetup req).periph 0 false } := if_neg hlen
            rw [heq]
            exact .write p req h hreq hread (by omega)
    | out =>
      have h : d.Polls .poll .out := ⟨hreset, rfl, hserved⟩
      show Turn d .poll { usbdControlOut d with periph := p }
      -- the last packet of a data stage, an earlier one, a status stage, or none of these
      by_cases hlast : d.fsm = .lastDataOut
      · cases hfits : d.chunkFits with
        | true =>
          rw [usbdControlOut_lastDataOut hlast hfits]
          by_cases hcode : (usbControlRequestDispatch d.stored).1 = .notsupp
          · rw [if_neg (not_not_intro hcode)]
            exact .writeStall p h hlast hfits hcode
          · rw [if_pos hcode]
            exact .writeDone p h hlast hfits hcode
        | false =>
          rw [usbdControlOut_short (Or.inr hlast) hfits]
          exact .short p h (Or.inr hlast) hfits
      by_cases hdata : d.fsm = .dataOut
      · cases hfits : d.chunkFits with
        | true =>
          rw [usbdControlOut_dataOut hdata hfits]
          exact .chunk p h hdata hfits
        | false =>
          rw [usbdControlOut_short (Or.inl hdata) hfits]
          exact .short p h (Or.inl hdata) hfits
      by_cases hstatus : d.fsm = .statusOut
      · have heq : usbdControlOut d
            = { completeTransfer { d with
                  periph := (usbdEpReadPacket d.periph 0 (fun _ => 0) 0).1, fsm := .idle } with
                usbCompleteCb := false } := by
          unfold usbdControlOut
          rw [hstatus]
        rw [heq]
        exact .completeOut p h hstatus
      · rw [usbdControlOut_unexpected hdata hlast hstatus]
        exact .unexpected p (Or.inl ⟨h, hdata, hlast, hstatus⟩)
    | tx =>
      have h : d.Polls .poll .tx := ⟨hreset, rfl, hserved⟩
      show Turn d .poll
        { usbdControlIn { d with periph := usbClrEpTxCtr d.periph d.periph.servedEp } with
          periph := p }
      unfold usbdControlIn
      cases hfsm : d.fsm with
      | dataIn =>
        obtain ⟨p', s, n, o, z, off, data, hs, heq⟩ :=
          usbControlSendChunk_turn { d with periph := usbClrEpTxCtr d.periph d.periph.servedEp }
        simp only
        rw [← hfsm, heq]
        exact .nextChunk p s n o z off data h hfsm hs
      | lastDataIn => exact .lastChunk p h hfsm
      | statusIn => exact .completeIn p h hfsm
      | idle | stalled | dataOut | lastDataOut | statusOut =>
        exact .unexpected p (Or.inr ⟨h, by simp [hfsm]⟩)
  · -- the bus reaches the peripheral alone
    obtain ⟨p, hstep⟩ := step_of_ne_poll (d := d) he
    rw [hstep]
    refine .still p fun s h => ?_
    exact absurd h.2.1 he

end Stm32F1Dfu
