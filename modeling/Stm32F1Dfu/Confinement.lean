import Stm32F1Dfu.Registers

namespace Stm32F1Dfu

open Machine

/-!
# Where the control handlers write

The endpoint number of `CLEAR_FEATURE` and `SET_FEATURE` comes from the host, and
`USB_EP_REG` is not an access to an endpoint register when it is past 7.

* `Access.Confined` — an access to an endpoint register or the packet memory;
* `Dev.LatchesAddress` — the status stage of a handled `SET_ADDRESS`;
* `OutsideRequest` — the requests whose endpoint number is past 7;
* `setupAccesses_confined`, `outAccesses_confined`, `inAccesses_confined` — the accesses of
  each handler, without one of them;
* `not_accessesConfined` — a step with one of them;
* `accessesConfined_of_not_reachesOutside` — a step without, from the status stage of a
  request that was handled (`StageHandled`).
-/

/-! ### What is asked of an access -/

/-- The size of the packet memory. -/
def pmSize : Nat := 512

/-- The access is one to an endpoint register, to the count of an endpoint in the buffer
    table, to the packet memory behind that table, or to a static. -/
def Access.Confined (p : Periph) : Access → Prop
  | .setRxStat ep _ | .setTxStat ep _ | .clrRxCtr ep | .clrRxDtog ep | .clrTxDtog ep =>
      ep.toNat < 8
  | .latchAddress _ => False
  | .copyToPm ep _ len =>
      usbdPmTop.toNat ≤ (usbGetEpTxAddr p ep).toNat
        ∧ (usbGetEpTxAddr p ep).toNat + len.toNat ≤ pmSize
  | .setTxCount ep _ => p.btableSlot ep 2 < usbdPmTop.toNat
  | .forceNak _ _ | .pmTop _ => True

/-- The next acknowledged IN packet ends the status stage of a `SET_ADDRESS` with a 7-bit
    address, and nothing was done since that request was handled. -/
def Dev.LatchesAddress (d : Dev) : Prop :=
  d.fsm = .statusIn ∧ d.usbReq.isSetAddress = true ∧ d.usbReq.wValue < 128
    ∧ d.log.head? = some (.dispatched d.usbReq .handled)

/-- What the handler of `s` may do to the peripheral `p`. -/
def Dev.Permits (d : Dev) (s : Served) (p : Periph) (a : Access) : Prop :=
  a.Confined p ∨ s = .tx ∧ d.LatchesAddress ∧ a = .latchAddress d.usbReq.wValue

/-- Every access of the step is permitted, in the state it is made in. -/
def AccessesConfined (d : Dev) (e : BusEvent) : Prop :=
  ∀ s, d.Polls e s → AllSteps Access.run (d.Permits s) (d.entering s).periph (d.accesses s)

instance (d : Dev) : Decidable d.LatchesAddress := inferInstanceAs (Decidable (_ ∧ _ ∧ _ ∧ _))

/-- The requests that reach a register past the endpoint registers: `CLEAR_FEATURE` and
    `SET_FEATURE` of `ENDPOINT_HALT`, for an endpoint past 7. -/
def OutsideRequest (req : UsbSetupData) : Prop :=
  req.bmRequestType &&& 0x7F = 2 ∧ (req.bRequest = 1 ∨ req.bRequest = 3) ∧ req.wValue = 0
    ∧ 8 ≤ (req.wIndex.toUInt8 &&& 0x7F).toNat

/-- The step dispatches `req`. -/
def Dev.Dispatches (d : Dev) (e : BusEvent) (req : UsbSetupData) : Prop :=
  d.Polls e .setup ∧ d.nextSetup = some req ∧ req.isRead = true
    ∨ d.Polls e .out ∧ d.fsm = .lastDataOut ∧ d.chunkFits = true ∧ req = d.usbReq

/-- The step dispatches a request to an endpoint past 7. -/
def ReachesOutside (d : Dev) (e : BusEvent) : Prop := ∃ req, d.Dispatches e req ∧ OutsideRequest req

instance (req : UsbSetupData) : Decidable (OutsideRequest req) :=
  inferInstanceAs (Decidable (_ ∧ _ ∧ _ ∧ _))

instance (d : Dev) (e : BusEvent) : Decidable (ReachesOutside d e) :=
  decidable_of_iff
    ((d.Polls e .setup ∧ ∃ req ∈ d.nextSetup, req.isRead = true ∧ OutsideRequest req)
      ∨ d.Polls e .out ∧ d.fsm = .lastDataOut ∧ d.chunkFits = true ∧ OutsideRequest d.usbReq) <| by
    constructor
    · rintro (⟨hs, req, hnext, hread, hout⟩ | ⟨hs, hfsm, hfits, hout⟩)
      · exact ⟨req, Or.inl ⟨hs, hnext, hread⟩, hout⟩
      · exact ⟨d.usbReq, Or.inr ⟨hs, hfsm, hfits, rfl⟩, hout⟩
    · rintro ⟨req, ⟨hs, hnext, hread⟩ | ⟨hs, hfsm, hfits, rfl⟩, hout⟩
      · exact Or.inl ⟨hs, req, hnext, hread, hout⟩
      · exact Or.inr ⟨hs, hfsm, hfits, hout⟩

/-! ### The buffer table -/

/-- Endpoint 0 has its two buffers. -/
structure Buffers (p : Periph) : Prop where
  btable : p.reg regBtable = 0#16
  txAddr : p.pm 0 = 0x40
  rxAddr : p.pm 4 = 0x80

/-- The same, and the receive buffer has the 96 bytes that it was given. -/
structure Placed (p : Periph) : Prop extends Buffers p where
  rxBlocks : p.pm 6 &&& 0xFC00 = 0x8800

/-- A write to an endpoint register. -/
theorem Buffers.write {p : Periph} (h : Buffers p) {i : Nat} (w : BitVec 16)
    (hi : regBtable ≠ i) : Buffers (p.write i w) where
  btable := by rw [p.write_reg_of_ne w hi, h.btable]
  txAddr := by rw [Periph.write_pm, h.txAddr]
  rxAddr := by rw [Periph.write_pm, h.rxAddr]

/-- No access past the endpoint registers is confined. -/
theorem Access.not_confined_of_reg {a : Access} {i : Nat} (ha : a.reg = some i) (hi : 8 ≤ i)
    (p : Periph) : ¬ a.Confined p := by
  intro h
  cases a with
  | setRxStat ep | setTxStat ep | clrRxCtr ep | clrRxDtog ep | clrTxDtog ep =>
    have hep : ep.toNat = i := Option.some.inj ha
    have hlt : ep.toNat < 8 := h
    omega
  | latchAddress wValue => exact h
  | copyToPm | setTxCount | forceNak | pmTop => simp [Access.reg] at ha

/-- **One access** that is permitted leaves the buffer table where it is. -/
theorem Access.run_btable {p : Periph} {a : Access}
    (ha : a.Confined p ∨ ∃ wValue, a = .latchAddress wValue) :
    (a.run p).reg regBtable = p.reg regBtable := by
  apply a.run_reg
  rcases ha with ha | ⟨wValue, rfl⟩
  · exact fun hreg => Access.not_confined_of_reg hreg (by decide) p ha
  · exact fun hreg => absurd (Option.some.inj hreg) (by decide)

/-- In the table it writes the count of a packet to send, and nothing else. -/
theorem Access.run_pm {p : Periph} (hbtable : p.reg regBtable = 0#16) {a : Access}
    (ha : a.Confined p ∨ ∃ wValue, a = .latchAddress wValue) {k : Nat}
    (hk : k < usbdPmTop.toNat) (hcount : k % 8 ≠ 2) : (a.run p).pm k = p.pm k := by
  rcases ha with ha | ⟨wValue, rfl⟩
  · cases a with
    | setRxStat | setTxStat | clrRxCtr | clrRxDtog | clrTxDtog =>
      exact congrFun (p.write_pm _ _) k
    | latchAddress wValue => exact ha.elim
    | copyToPm ep buf len =>
      have hge := ha.1
      show Stm32F1Dfu.copyToPm p.pm _ buf len.toNat k = _
      rw [copyToPm_eq, pmImage_of_not_mem (by omega)]
    | setTxCount ep len =>
      have hslot := Periph.btableSlot_of_zero hbtable ep 2
      have hne : k ≠ p.btableSlot ep 2 := by omega
      exact Function.update_of_ne hne _ _
    | forceNak | pmTop => rfl
  · exact congrFun (p.write_pm regDaddr _) k

/-- It leaves the buffers where they are. -/
theorem Buffers.run {p : Periph} (h : Buffers p) {a : Access}
    (ha : a.Confined p ∨ ∃ wValue, a = .latchAddress wValue) : Buffers (a.run p) where
  btable := by rw [Access.run_btable ha, h.btable]
  txAddr := by rw [Access.run_pm h.btable ha (by decide) (by decide), h.txAddr]
  rxAddr := by rw [Access.run_pm h.btable ha (by decide) (by decide), h.rxAddr]

theorem Placed.run {p : Periph} (h : Placed p) {a : Access}
    (ha : a.Confined p ∨ ∃ wValue, a = .latchAddress wValue) : Placed (a.run p) where
  toBuffers := h.toBuffers.run ha
  rxBlocks := by rw [Access.run_pm h.btable ha (by decide) (by decide), h.rxBlocks]

/-- **Several accesses** that are permitted. -/
theorem Placed.runAccesses {d : Dev} {s : Served} {p : Periph} (h : Placed p)
    {as : List Access} (has : AllSteps Access.run (d.Permits s) p as) :
    Placed (Stm32F1Dfu.runAccesses p as) :=
  run_invariant (fun _ _ hp ha => hp.run (ha.imp_right fun hlatch => ⟨_, hlatch.2.2⟩)) h has

/-! ### The accesses of the handlers, one by one -/

/-- The access writes an endpoint register or a static: whether it is confined does not
    depend on the state. -/
def Access.AtEndpoint : Access → Prop
  | .setRxStat ep _ | .setTxStat ep _ | .clrRxCtr ep | .clrRxDtog ep | .clrTxDtog ep =>
      ep.toNat < 8
  | .forceNak _ _ | .pmTop _ => True
  | .latchAddress _ | .copyToPm _ _ _ | .setTxCount _ _ => False

theorem Access.AtEndpoint.confined {a : Access} (h : a.AtEndpoint) (p : Periph) :
    a.Confined p := by
  cases a <;> first | exact h | exact h.elim

/-- Accesses that are all confined, from the peripheral `p` on. -/
def ConfinedFrom (p : Periph) (as : List Access) : Prop :=
  AllSteps Access.run Access.Confined p as

theorem ConfinedFrom.append {p : Periph} {as bs : List Access} (has : ConfinedFrom p as)
    (hbs : ConfinedFrom (runAccesses p as) bs) : ConfinedFrom p (as ++ bs) :=
  (allSteps_append ..).mpr ⟨has, hbs⟩

theorem Buffers.confined {p : Periph} (h : Buffers p) {as : List Access}
    (has : ConfinedFrom p as) : Buffers (Stm32F1Dfu.runAccesses p as) :=
  run_invariant (fun _ _ hp ha => hp.run (Or.inl ha)) h has

theorem confinedFrom_of_atEndpoint {as : List Access} (h : ∀ a ∈ as, a.AtEndpoint)
    (p : Periph) : ConfinedFrom p as := by
  induction as generalizing p with
  | nil => trivial
  | cons a as ih =>
    exact ⟨(h a List.mem_cons_self).confined p,
      ih (fun b hb => h b (List.mem_cons_of_mem a hb)) (a.run p)⟩

/-- An access to an endpoint register, by the number of the endpoint. -/
theorem Access.atEndpoint_of_reg {a : Access} {i : Nat} (ha : a.reg = some i) (hi : i < 8) :
    a.AtEndpoint := by
  cases a with
  | setRxStat ep | setTxStat ep | clrRxCtr ep | clrRxDtog ep | clrTxDtog ep =>
    have hep : ep.toNat = i := Option.some.inj ha
    show ep.toNat < 8
    omega
  | latchAddress wValue =>
    have hreg : 19 = i := Option.some.inj ha
    omega
  | copyToPm | setTxCount => simp [Access.reg] at ha
  | forceNak | pmTop => trivial

theorem readPacketAccesses_atEndpoint (p : Periph) :
    ∀ a ∈ readPacketAccesses p 0, a.AtEndpoint := by
  have hzero : (0 : UInt8).toNat < 8 := by decide
  unfold readPacketAccesses
  split_ifs
  · exact List.forall_mem_nil _
  · exact List.forall_mem_singleton.mpr hzero
  · exact List.forall_mem_cons.mpr ⟨hzero, List.forall_mem_singleton.mpr hzero⟩

theorem nakSetAccesses_atEndpoint (nak : Bool) : ∀ a ∈ nakSetAccesses 0 nak, a.AtEndpoint := by
  have hzero : (0 : UInt8).toNat < 8 := by decide
  exact List.forall_mem_cons.mpr ⟨trivial, List.forall_mem_singleton.mpr hzero⟩

/-- The bits of a byte under two masks. -/
theorem and_or_masks (x m m' : UInt8) : x &&& (m ||| m') = x &&& m ||| x &&& m' := by
  rw [← UInt8.toBitVec_inj]
  exact BitVec.and_or_distrib_left ..

/-- An endpoint address without the direction bit is the number of the endpoint. -/
theorem and_7F_of_and_80 {addr : UInt8} (h : addr &&& 0x80 = 0) : addr &&& 0x7F = addr := by
  calc addr &&& 0x7F = addr &&& 0x7F ||| addr &&& 0x80 := by rw [h, UInt8.or_zero]
    _ = addr &&& (0x7F ||| 0x80) := (and_or_masks addr 0x7F 0x80).symm
    _ = addr := UInt8.and_neg_one

/-- `_ep_stall_set` writes the register that the endpoint number selects, and no other. -/
theorem stallSetAccesses_reg (addr : UInt8) (stall : Bool) :
    ∀ a ∈ stallSetAccesses addr stall, a.reg = some (addr &&& 0x7F).toNat := by
  intro a ha
  unfold stallSetAccesses at ha
  rcases List.mem_append.mp ha with ha | ha
  · by_cases h0 : addr = 0
    · rw [if_pos h0, List.mem_singleton] at ha
      rw [ha, h0]
      rfl
    · rw [if_neg h0] at ha
      exact absurd ha List.not_mem_nil
  by_cases hdir : addr &&& 0x80 ≠ 0
  · rw [if_pos hdir] at ha
    rcases List.mem_cons.mp ha with rfl | ha
    · rfl
    · cases stall with
      | true => exact absurd ha List.not_mem_nil
      | false =>
        obtain rfl := List.mem_singleton.mp ha
        rfl
  · rw [if_neg hdir] at ha
    rw [and_7F_of_and_80 (not_not.mp hdir)]
    rcases List.mem_append.mp ha with ha | ha
    · cases stall with
      | true => exact absurd ha List.not_mem_nil
      | false =>
        obtain rfl := List.mem_singleton.mp ha
        rfl
    · obtain rfl := List.mem_singleton.mp ha
      rfl

/-- It writes at least once. -/
theorem stallSetAccesses_ne_nil (addr : UInt8) (stall : Bool) :
    stallSetAccesses addr stall ≠ [] := by
  unfold stallSetAccesses
  simp only
  by_cases hdir : addr &&& 0x80 ≠ 0
  · rw [if_pos hdir]
    exact List.append_ne_nil_of_right_ne_nil _ (List.cons_ne_nil _ _)
  · rw [if_neg hdir]
    exact List.append_ne_nil_of_right_ne_nil _
      (List.append_ne_nil_of_right_ne_nil _ (List.cons_ne_nil _ _))

theorem stallAccesses_atEndpoint : ∀ a ∈ stallAccesses, a.AtEndpoint := by
  intro a ha
  exact Access.atEndpoint_of_reg (stallSetAccesses_reg 0 true a ha) (by decide)

/-- The loop of `SET_CONFIGURATION` stays below endpoint 8. -/
theorem disableAccesses_atEndpoint {n : Nat} (hn : n ≤ 7) :
    ∀ a ∈ disableAccesses n, a.AtEndpoint := by
  induction n with
  | zero => exact List.forall_mem_nil _
  | succ n ih =>
    have hep : (UInt8.ofNat (n + 1)).toNat < 8 := by
      rw [UInt8.toNat_ofNat']
      omega
    refine List.forall_mem_append.mpr ⟨ih (by omega), ?_⟩
    exact List.forall_mem_cons.mpr ⟨hep, List.forall_mem_singleton.mpr hep⟩

/-- A chunk of a read lies in the transmit buffer. -/
theorem writePacketAccesses_confined {p : Periph} (h : Buffers p) (buf : Nat → UInt8)
    {len : UInt16} (hlen : len.toNat ≤ 64) :
    ConfinedFrom p (writePacketAccesses p 0 buf len) := by
  unfold writePacketAccesses
  simp only
  split
  · trivial
  · have haddr : usbGetEpTxAddr p 0 = 0x40 := by
      rw [usbGetEpTxAddr, Periph.btableSlot_of_zero h.btable]
      exact h.txAddr
    have hbase : (0x40 : UInt16).toNat = 64 := rfl
    refine ⟨⟨?_, ?_⟩, ?_, ?_, trivial⟩
    · show 64 ≤ (usbGetEpTxAddr p 0).toNat
      rw [haddr, hbase]
    · show (usbGetEpTxAddr p 0).toNat + len.toNat ≤ 512
      rw [haddr, hbase]
      omega
    · have hbtable : (Access.run p (.copyToPm 0 buf len)).reg regBtable = 0#16 := h.btable
      show Periph.btableSlot (Access.run p (.copyToPm 0 buf len)) 0 2 < 64
      rw [Periph.btableSlot_of_zero hbtable]
      decide
    · show (0 : UInt8).toNat < 8
      decide

/-! ### Requests -/

/-- A standard request to an endpoint, by the type and the recipient. -/
theorem and_7F_eq_two {t : UInt8} : t &&& 0x7F = 2 ↔ t &&& 0x60 = 0 ∧ t &&& 0x1F = 2 := by
  constructor
  · intro h
    have hmask (m : UInt8) (hm : 0x7F &&& m = m) : t &&& m = 2 &&& m := by
      rw [← h, UInt8.and_assoc, hm]
    exact ⟨hmask 0x60 (by decide), hmask 0x1F (by decide)⟩
  · rintro ⟨h60, h1F⟩
    calc t &&& 0x7F = t &&& (0x60 ||| 0x1F) := rfl
      _ = t &&& 0x60 ||| t &&& 0x1F := and_or_masks t 0x60 0x1F
      _ = 2 := by rw [h60, h1F]; rfl

/-- **Where a request writes**: at the endpoint registers, unless it is one to an endpoint
    past 7. -/
theorem dispatchAccesses_atEndpoint {req : UsbSetupData} (h : ¬ OutsideRequest req) :
    ∀ a ∈ dispatchAccesses req, a.AtEndpoint := by
  unfold dispatchAccesses
  split
  · exact List.forall_mem_nil _
  unfold standardRequestAccesses
  split
  · exact List.forall_mem_nil _
  rename_i h60
  split
  · unfold deviceRequestAccesses
    split
    · exact List.forall_mem_append.mpr
        ⟨disableAccesses_atEndpoint (Nat.le_refl 7), List.forall_mem_singleton.mpr trivial⟩
    · exact List.forall_mem_nil _
  split
  · rename_i h1F
    unfold endpointRequestAccesses
    split
    · rename_i hfeature
      -- the endpoint is one of the eight
      have hep : (req.wIndex.toUInt8 &&& 0x7F).toNat < 8 := by
        by_contra hge
        exact h ⟨and_7F_eq_two.mpr ⟨not_not.mp h60, h1F⟩, hfeature.1, hfeature.2, by omega⟩
      intro a ha
      exact Access.atEndpoint_of_reg (stallSetAccesses_reg _ _ a ha) hep
    · exact List.forall_mem_nil _
  · exact List.forall_mem_nil _

/-- A request to an endpoint past 7 writes past the endpoint registers, at the word that its
    `wIndex` selects. -/
theorem dispatchAccesses_outside {req : UsbSetupData} (h : OutsideRequest req) :
    dispatchAccesses req = stallSetAccesses req.wIndex.toUInt8 (req.bRequest == 3) := by
  obtain ⟨htype, hreq, hvalue, -⟩ := h
  obtain ⟨h60, h1F⟩ := and_7F_eq_two.mp htype
  have hclass : ¬ (req.isClassInterface = true
      ∨ req.bmRequestType &&& 0x7F = 0x40 ∧ req.bRequest = 0x41) := by
    unfold UsbSetupData.isClassInterface
    rw [htype]
    simp
  unfold dispatchAccesses standardRequestAccesses endpointRequestAccesses
  rw [if_neg hclass, if_neg (not_not_intro h60), if_neg (by rw [h1F]; decide), if_pos h1F,
    if_pos ⟨hreq, hvalue⟩]

/-! ### The handlers -/

variable {d : Dev}

theorem stallAccesses_confined (p : Periph) : ConfinedFrom p stallAccesses :=
  confinedFrom_of_atEndpoint stallAccesses_atEndpoint p

/-- A chunk of a read is at most one packet. -/
theorem sendChunkAccesses_confined (h : Buffers d.periph) :
    ConfinedFrom d.periph d.sendChunkAccesses := by
  refine writePacketAccesses_confined h _ ?_
  split
  · decide
  · rename_i hle
    rw [UInt16.lt_iff_toNat_lt, Nat.not_lt] at hle
    exact hle

/-- Once a request is dispatched, its reply is confined. -/
theorem dispatchAccesses_confined {req : UsbSetupData} (hreq : ¬ OutsideRequest req)
    (p : Periph) : ConfinedFrom p (dispatchAccesses req) :=
  confinedFrom_of_atEndpoint (dispatchAccesses_atEndpoint hreq) p

theorem setupReadAccesses_confined (h : Buffers d.periph) (hreq : ¬ OutsideRequest d.usbReq) :
    ConfinedFrom d.periph d.setupReadAccesses := by
  have hconfined := dispatchAccesses_confined hreq d.periph
  have hbuffers := h.confined hconfined
  apply ConfinedFrom.append hconfined
  rw [← dispatchAtOnce_accesses] at hbuffers ⊢
  split
  · exact stallAccesses_confined _
  split
  · exact sendChunkAccesses_confined (d := d.dispatchAtOnce.2.replying) hbuffers
  · exact writePacketAccesses_confined hbuffers _ (by decide)

theorem setupWriteAccesses_confined (d : Dev) : ConfinedFrom d.periph d.setupWriteAccesses := by
  unfold Dev.setupWriteAccesses
  split
  · exact stallAccesses_confined _
  · exact confinedFrom_of_atEndpoint (nakSetAccesses_atEndpoint false) _

/-- **A SETUP packet** whose request, if it is dispatched at once, is none to an endpoint
    past 7. -/
theorem setupAccesses_confined (h : Buffers d.periph)
    (hreq : ∀ req, d.nextSetup = some req → req.isRead = true → ¬ OutsideRequest req) :
    ConfinedFrom d.periph d.setupAccesses := by
  have hread : ConfinedFrom d.periph
      (nakSetAccesses 0 true ++ readPacketAccesses (usbdEpNakSet d.periph 0 true) 0) :=
    confinedFrom_of_atEndpoint (List.forall_mem_append.mpr
      ⟨nakSetAccesses_atEndpoint true, readPacketAccesses_atEndpoint _⟩) _
  apply ConfinedFrom.append hread
  have hbuffers := h.confined hread
  rw [← readSetup_accesses] at hbuffers ⊢
  cases hnext : d.nextSetup with
  | none => exact stallAccesses_confined _
  | some req =>
    simp only
    split
    · rename_i hisread
      exact setupReadAccesses_confined (d := d.afterSetup req) hbuffers (hreq req hnext hisread)
    · exact setupWriteAccesses_confined (d.afterSetup req)

/-- **An OUT packet** whose request, if it completes one, is none to an endpoint past 7. -/
theorem outAccesses_confined (h : Buffers d.periph)
    (hreq : d.fsm = .lastDataOut → d.chunkFits = true → ¬ OutsideRequest d.usbReq) :
    ConfinedFrom d.periph d.outAccesses := by
  have hread := confinedFrom_of_atEndpoint (readPacketAccesses_atEndpoint d.periph) d.periph
  have hbuffers := h.confined hread
  unfold Dev.outAccesses
  cases hfsm : d.fsm with
  | dataOut =>
    apply ConfinedFrom.append hread
    split
    · trivial
    · exact stallAccesses_confined _
  | lastDataOut =>
    apply ConfinedFrom.append hread
    rw [← afterChunk_accesses] at hbuffers ⊢
    split
    · rename_i hfits
      have hconfined := dispatchAccesses_confined (hreq hfsm hfits) d.afterChunk.periph
      have hdispatch : d.dispatchWrite.2.periph
          = runAccesses d.afterChunk.periph (dispatchAccesses d.usbReq) :=
        dispatch_accesses d.stored
      have hreply := hbuffers.confined hconfined
      apply ConfinedFrom.append hconfined
      rw [← hdispatch] at hreply ⊢
      split
      · exact stallAccesses_confined _
      · exact writePacketAccesses_confined hreply _ (by decide)
    · exact stallAccesses_confined _
  | statusOut => exact hread
  | idle | stalled | dataIn | lastDataIn | statusIn => exact stallAccesses_confined _

/-- **An acknowledged IN packet** outside the status stage of a `SET_ADDRESS`. -/
theorem inAccesses_confined (h : Buffers d.periph)
    (hlatch : ¬ (d.fsm = .statusIn ∧ d.usbReq.isSetAddress = true)) :
    ConfinedFrom d.periph d.inAccesses := by
  unfold Dev.inAccesses
  cases hfsm : d.fsm with
  | dataIn => exact sendChunkAccesses_confined h
  | lastDataIn => exact confinedFrom_of_atEndpoint (nakSetAccesses_atEndpoint false) _
  | statusIn =>
    simp only
    rw [if_neg fun haddress => hlatch ⟨hfsm, haddress⟩]
    trivial
  | idle | stalled | dataOut | lastDataOut | statusOut => exact stallAccesses_confined _

/-! ### The status stage -/

/-- A `SET_ADDRESS` that is handled has a 7-bit address. -/
theorem dispatchRequest_setAddress {d : Dev} (h : d.usbReq.isSetAddress = true)
    (hcode : (dispatchRequest d).1 ≠ .notsupp) : d.usbReq.wValue < 128 := by
  simp only [UsbSetupData.isSetAddress, Bool.and_eq_true, beq_iff_eq] at h
  obtain ⟨htype, hreq⟩ := h
  have hclass : d.usbReq.isClassInterface = false := by
    simp [UsbSetupData.isClassInterface, htype]
  by_contra hvalue
  apply hcode
  rw [dispatchRequest_other hclass, dispatchOther, if_neg (by simp [htype]), usbdStandardRequest,
    if_neg (by simp [htype])]
  simp only [htype, UInt8.zero_and, usbdStandardRequestDevice, hreq]
  rw [if_pos (Or.inr (UInt16.not_lt.mp hvalue))]

/-- In the status stage of a write the request was handled, and nothing was done since. -/
def StageHandled (d : Dev) : Prop :=
  d.fsm = .statusIn → d.log.head? = some (.dispatched d.usbReq .handled)
    ∧ (d.usbReq.isSetAddress = true → d.usbReq.wValue < 128)

theorem stageHandled_of_ne {d : Dev} (h : d.fsm ≠ .statusIn) : StageHandled d :=
  fun hs => absurd hs h

/-- The status stage follows on a dispatch. -/
theorem stageHandled_of_dispatch {d : Dev}
    (hcode : (usbControlRequestDispatch d).1 ≠ .notsupp) :
    (usbControlRequestDispatch d).2.log.head?
        = some (.dispatched (usbControlRequestDispatch d).2.usbReq .handled)
      ∧ ((usbControlRequestDispatch d).2.usbReq.isSetAddress = true →
          (usbControlRequestDispatch d).2.usbReq.wValue < 128) := by
  obtain ⟨hlog, -, -, hreq⟩ := usbControlRequestDispatch_frame d
  have hhandled : (usbControlRequestDispatch d).1 = .handled :=
    (dispatchRequest_code d).resolve_right hcode
  rw [hlog, hreq, hhandled]
  exact ⟨rfl, fun haddress => dispatchRequest_setAddress haddress hcode⟩

theorem Turn.stageHandled {d d' : Dev} {e : BusEvent} (ht : Turn d e d') (h : StageHandled d) :
    StageHandled d' := by
  cases ht with
  | still p hs => exact h
  | readStatus p req n hs hreq hread hcode hlen => exact fun _ => stageHandled_of_dispatch hcode
  | writeDone p hs hfsm hfits hcode => exact fun _ => stageHandled_of_dispatch hcode
  | readData p req s n o z off data hs hreq hread hcode hlen hstage =>
    apply stageHandled_of_ne
    rcases hstage with rfl | rfl <;> exact fun hf => UsbFsmState.noConfusion hf
  | nextChunk p s n o z off data hs hfsm hstage =>
    apply stageHandled_of_ne
    rcases hstage with rfl | rfl <;> exact fun hf => UsbFsmState.noConfusion hf
  | write p req hs hreq hwrite hlen =>
    apply stageHandled_of_ne
    show (if req.wLength > bMaxPacketSize0 then UsbFsmState.dataOut else .lastDataOut) ≠ _
    split <;> exact fun hf => UsbFsmState.noConfusion hf
  | chunk p hs hfsm hfits =>
    apply stageHandled_of_ne
    show (if d.usbReq.wLength.toNat ≤ (d.datasize + d.packetsize).toNat + bMaxPacketSize0.toNat
      then UsbFsmState.lastDataOut else .dataOut) ≠ _
    split <;> exact fun hf => UsbFsmState.noConfusion hf
  | garbled | tooLong | readStall | short | writeStall | completeOut | completeIn | lastChunk
    | unexpected => exact stageHandled_of_ne fun hf => UsbFsmState.noConfusion hf

/-! ### One step -/

/-- The endpoint number in `USB_ISTR_REG`. -/
theorem Periph.servedEp_lt (p : Periph) : p.servedEp.toNat < 16 := by
  have hmask : (p.read regIstr &&& usbIstrEpId).toNat ≤ usbIstrEpId.toNat := by
    rw [BitVec.toNat_and]
    exact Nat.and_le_right
  have hid : usbIstrEpId.toNat = 15 := rfl
  unfold Periph.servedEp
  rw [UInt8.toNat_ofNat']
  omega

/-- Clearing the flag of an acknowledged packet leaves the buffers alone. -/
theorem Buffers.entering (h : Buffers d.periph) (s : Served) : Buffers (d.entering s).periph := by
  cases s with
  | tx =>
    have hep := d.periph.servedEp_lt
    have hne : regBtable ≠ d.periph.servedEp.toNat := by
      show 20 ≠ d.periph.servedEp.toNat
      omega
    exact h.write _ hne
  | _ => exact h

theorem Placed.entering (h : Placed d.periph) (s : Served) : Placed (d.entering s).periph where
  toBuffers := h.toBuffers.entering s
  rxBlocks := by
    cases s with
    | tx =>
      show (d.periph.write _ _).pm 6 &&& 0xFC00 = 0x8800
      rw [Periph.write_pm, h.rxBlocks]
    | _ => exact h.rxBlocks

/-- The accesses of a step, when it latches no address. -/
theorem accesses_confined {e : BusEvent} {s : Served} (hs : d.Polls e s) (h : Buffers d.periph)
    (hout : ¬ ReachesOutside d e)
    (hlatch : ¬ (s = .tx ∧ d.fsm = .statusIn ∧ d.usbReq.isSetAddress = true)) :
    ConfinedFrom (d.entering s).periph (d.accesses s) := by
  cases s with
  | setup =>
    apply setupAccesses_confined h
    intro req hnext hread houtside
    exact hout ⟨req, Or.inl ⟨hs, hnext, hread⟩, houtside⟩
  | out =>
    apply outAccesses_confined h
    intro hfsm hfits houtside
    exact hout ⟨d.usbReq, Or.inr ⟨hs, hfsm, hfits, rfl⟩, houtside⟩
  | tx =>
    apply inAccesses_confined (d := d.entering .tx) (h.entering .tx)
    exact fun haddress => hlatch ⟨rfl, haddress⟩
  | reset | nothing => trivial

/-- The one access in the status stage of a `SET_ADDRESS`. -/
theorem accesses_of_statusIn (hfsm : d.fsm = .statusIn) (h : d.usbReq.isSetAddress = true) :
    d.accesses .tx = [.latchAddress d.usbReq.wValue] := by
  show (d.entering .tx).inAccesses = _
  unfold Dev.inAccesses Dev.entering
  simp only [hfsm, h, if_true]

/-- **A step that reaches no endpoint past 7** is confined, but for the write of the
    address. -/
theorem accessesConfined_of_not_reachesOutside {e : BusEvent} (hstage : StageHandled d)
    (h : ∀ s, d.Polls e s → s ≠ .reset → s ≠ .nothing → Buffers d.periph)
    (hout : ¬ ReachesOutside d e) : AccessesConfined d e := by
  intro s hs
  by_cases hlatch : s = .tx ∧ d.fsm = .statusIn ∧ d.usbReq.isSetAddress = true
  · obtain ⟨rfl, hfsm, haddress⟩ := hlatch
    obtain ⟨hlog, hvalue⟩ := hstage hfsm
    rw [accesses_of_statusIn hfsm haddress]
    exact ⟨Or.inr ⟨rfl, ⟨hfsm, haddress, hvalue haddress, hlog⟩, rfl⟩, trivial⟩
  · by_cases hidle : s = .reset ∨ s = .nothing
    · rcases hidle with rfl | rfl <;> trivial
    · rw [not_or] at hidle
      have hconfined := accesses_confined hs (h s hs hidle.1 hidle.2) hout hlatch
      exact hconfined.mono fun _ _ ha => Or.inl ha

/-- **A step that reaches an endpoint past 7** is not. -/
theorem not_accessesConfined {e : BusEvent} (h : ReachesOutside d e) : ¬ AccessesConfined d e := by
  obtain ⟨req, hdispatch, houtside⟩ := h
  -- the accesses of the request are among those of the step
  have hmem : ∃ s, s ≠ .tx ∧ d.Polls e s ∧ ∀ a ∈ dispatchAccesses req, a ∈ d.accesses s := by
    rcases hdispatch with ⟨hs, hnext, hread⟩ | ⟨hs, hfsm, hfits, rfl⟩
    · refine ⟨.setup, by decide, hs, fun a ha => ?_⟩
      show a ∈ d.setupAccesses
      unfold Dev.setupAccesses
      rw [hnext]
      simp only [hread, if_true]
      exact List.mem_append_right _ (List.mem_append_left _ ha)
    · refine ⟨.out, by decide, hs, fun a ha => ?_⟩
      show a ∈ d.outAccesses
      unfold Dev.outAccesses
      rw [hfsm]
      simp only [hfits, if_true]
      exact List.mem_append_right _ (List.mem_append_left _ ha)
  obtain ⟨s, hne, hs, hmem⟩ := hmem
  intro hconfined
  obtain ⟨a, ha⟩ := List.exists_mem_of_ne_nil _
    (stallSetAccesses_ne_nil req.wIndex.toUInt8 (req.bRequest == 3))
  have hreg := stallSetAccesses_reg _ _ a ha
  rw [← dispatchAccesses_outside houtside] at ha
  obtain ⟨p, hp | ⟨hp, -⟩⟩ := (hconfined s hs).exists_of_mem (hmem a ha)
  · exact Access.not_confined_of_reg hreg houtside.2.2.2 p hp
  · exact hne hp

end Stm32F1Dfu
