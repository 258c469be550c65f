import Stm32F1Dfu.Host

namespace Stm32F1Dfu

open Machine

/-!
# The device and a compliant host, step by step

The joint invariant of the two sides: `Phase d h` lists where a transfer can be, with the
state of endpoint 0 in each place.  It is kept by every poll and every packet, as long as no
SETUP packet arrives while the completion of the status stage before it still waits for a
poll (`Sys.Prompt`).

* `poll_phase` — one poll, one lemma for each phase with something pending;
* `sendSetup_phase`, `sendAck_phase`, `sendOut_phase` — one packet of the host;
* `run_transfersOk` — every run of prompt transfers is as it is meant to be;
* `lateCompletion_lost` — the run in which the host is too quick.
-/

/-! ### Phases -/

/-- An IN data stage with `rest` bytes left, an empty packet behind them if `zlp`, when the
    host still wants `w` bytes: it ends in a packet that the host takes for the last one. -/
structure MoreToCome (zlp : Bool) (rest w : Nat) : Prop where
  wanted : 0 < w
  le : rest ≤ w
  empty : zlp = true → 0 < rest ∧ rest % 64 = 0 ∧ rest < w
  short : zlp = false → rest % 64 ≠ 0 ∨ rest = w ∨ rest = 0

/-- A packet of `n` bytes is handed to the endpoint, of the `w` bytes the host wants. -/
def PacketOf (d : Dev) (n w : Nat) : Prop :=
  d.fsm = .dataIn ∧ n = 64 ∧ MoreToCome d.usbNeedsZlp d.datasize.toNat (w - 64)
    ∨ d.fsm = .lastDataIn ∧ (n < 64 ∨ w ≤ n)

/-- **Where a transfer can be**, by what is pending and what the endpoint answers. -/
inductive Phase (d : Dev) (h : Host) : Prop
  /-- between two transfers -/
  | idle (setup nak : Bool) (rx tx : BitVec 16)
      (link : Link d.periph ⟨⟨false, false, setup, rx, tx⟩, nak, latchedAddr d.log⟩)
      (stage : h.stage = .ready) (settled : settled d.log = true)
      (received : chunks d.log = h.received)
  /-- a SETUP packet was received -/
  | setup (nak : Bool)
      (link : Link d.periph ⟨⟨true, false, true, rxStatNak, txStatNak⟩, nak, latchedAddr d.log⟩)
      (packet : d.periph.rxPacket = h.req.bytes) (compliant : h.req.Compliant)
      (stage : h.stage = h.req.firstStage) (count : h.count = 0)
      (settled : settled d.log = true) (received : chunks d.log = h.received)
  /-- the transfer was refused, and the host has not seen it -/
  | stalled (setup nak : Bool)
      (link : Link d.periph ⟨⟨false, false, setup, rxStatStall, txStatStall⟩, nak, latchedAddr d.log⟩)
      (stage : h.stage ≠ .ready) (stalled : ∃ older, d.log = .stall :: older)
      (received : chunks d.log = h.received)
  /-- a packet of an IN data stage waits to be fetched -/
  | inWaiting (setup : Bool)
      (link : Link d.periph ⟨⟨false, false, setup, rxStatNak, txStatValid⟩, true, latchedAddr d.log⟩)
      (stage : h.stage = .dataIn) (req : d.usbReq.bmRequestType ≠ 0)
      (packet : PacketOf d d.periph.txPacket.length (h.req.wLength.toNat - h.count))
      (received : chunks d.log = d.periph.txPacket :: h.received)
  /-- it was fetched, and more follow -/
  | inFetched (setup : Bool)
      (link : Link d.periph ⟨⟨false, true, setup, rxStatNak, txStatNak⟩, true, latchedAddr d.log⟩)
      (stage : h.stage = .dataIn) (req : d.usbReq.bmRequestType ≠ 0)
      (fsm : d.fsm = .dataIn) (more : MoreToCome d.usbNeedsZlp d.datasize.toNat (h.req.wLength.toNat - h.count))
      (received : chunks d.log = h.received)
  /-- it was fetched, and was the last one -/
  | inLast (setup : Bool)
      (link : Link d.periph ⟨⟨false, true, setup, rxStatNak, txStatNak⟩, true, latchedAddr d.log⟩)
      (stage : h.stage = .statusOut) (req : d.usbReq.bmRequestType ≠ 0)
      (fsm : d.fsm = .lastDataIn) (received : chunks d.log = h.received)
  /-- the status packet of a read may come -/
  | statusOut (setup : Bool)
      (link : Link d.periph ⟨⟨false, false, setup, rxStatValid, txStatNak⟩, false, latchedAddr d.log⟩)
      (stage : h.stage = .statusOut) (req : d.usbReq.bmRequestType ≠ 0)
      (fsm : d.fsm = .statusOut) (received : chunks d.log = h.received)
  /-- it was received -/
  | statusOutDone
      (link : Link d.periph ⟨⟨true, false, false, rxStatNak, txStatNak⟩, false, latchedAddr d.log⟩)
      (stage : h.stage = .ready) (req : d.usbReq.bmRequestType ≠ 0)
      (fsm : d.fsm = .statusOut) (received : chunks d.log = h.received)
  /-- a packet of an OUT data stage may come -/
  | outWaiting (setup : Bool)
      (link : Link d.periph ⟨⟨false, false, setup, rxStatValid, txStatNak⟩, false, latchedAddr d.log⟩)
      (stage : h.stage = .dataOut) (req : d.usbReq = h.req) (compliant : h.req.Compliant)
      (count : d.datasize.toNat = h.count) (lt : h.count < h.req.wLength.toNat)
      (fsm : d.fsm = outFsm h.req.wLength.toNat h.count) (received : chunks d.log = h.received)
  /-- it was received -/
  | outReceived
      (link : Link d.periph ⟨⟨true, false, false, rxStatNak, txStatNak⟩, false, latchedAddr d.log⟩)
      (stage : h.stage = if h.req.wLength.toNat ≤ h.count then .statusIn else .dataOut)
      (req : d.usbReq = h.req) (compliant : h.req.Compliant)
      (lt : d.datasize.toNat < h.req.wLength.toNat)
      (packet : d.periph.rxPacket.length = min 64 (h.req.wLength.toNat - d.datasize.toNat))
      (count : d.datasize.toNat + d.periph.rxPacket.length = h.count)
      (fsm : d.fsm = outFsm h.req.wLength.toNat d.datasize.toNat)
      (received : chunks d.log = h.received)
  /-- the status packet of a write waits to be fetched -/
  | statusIn (setup nak : Bool) (rx : BitVec 16)
      (link : Link d.periph ⟨⟨false, false, setup, rx, txStatValid⟩, nak, latchedAddr d.log⟩)
      (stage : h.stage = .statusIn) (fsm : d.fsm = .statusIn)
      (received : chunks d.log = h.received)
  /-- it was fetched -/
  | statusInDone (setup nak : Bool) (rx : BitVec 16)
      (link : Link d.periph ⟨⟨false, true, setup, rx, txStatNak⟩, nak, latchedAddr d.log⟩)
      (stage : h.stage = .ready) (fsm : d.fsm = .statusIn)
      (received : chunks d.log = h.received)

/-- The log is in order. -/
structure LogOk (log : List UsbEvent) : Prop where
  completed : AllLog SetupAfterCompletion log
  refused : AllLog StallAfterRefusal log

/-- The joint invariant. -/
structure Joint (s : Sys) : Prop where
  phase : Phase s.dev s.host
  log : LogOk s.dev.log

/-- A phase is one of the state of endpoint 0 and its packets. -/
theorem Phase.of_periph {d : Dev} {h : Host} (hphase : Phase d h) {p : Periph}
    (hlink : ∀ x, Link d.periph x → Link p x) (htx : p.txPacket = d.periph.txPacket)
    (hrx : p.rxPacket = d.periph.rxPacket) : Phase { d with periph := p } h := by
  cases hphase with
  | idle setup nak rx tx link stage settled received =>
    exact .idle setup nak rx tx (hlink _ link) stage settled received
  | setup nak link packet compliant stage count settled received =>
    exact .setup nak (hlink _ link) (hrx.trans packet) compliant stage count settled received
  | stalled setup nak link stage stalled received =>
    exact .stalled setup nak (hlink _ link) stage stalled received
  | inWaiting setup link stage req packet received =>
    rw [← htx] at packet received
    have hpacket : PacketOf { d with periph := p } p.txPacket.length
        (h.req.wLength.toNat - h.count) := packet
    exact .inWaiting setup (hlink _ link) stage req hpacket received
  | inFetched setup link stage req fsm more received =>
    exact .inFetched setup (hlink _ link) stage req fsm more received
  | inLast setup link stage req fsm received =>
    exact .inLast setup (hlink _ link) stage req fsm received
  | statusOut setup link stage req fsm received =>
    exact .statusOut setup (hlink _ link) stage req fsm received
  | statusOutDone link stage req fsm received =>
    exact .statusOutDone (hlink _ link) stage req fsm received
  | outWaiting setup link stage req compliant count lt fsm received =>
    exact .outWaiting setup (hlink _ link) stage req compliant count lt fsm received
  | outReceived link stage req compliant lt packet count fsm received =>
    rw [← hrx] at packet count
    exact .outReceived (hlink _ link) stage req compliant lt packet count fsm received
  | statusIn setup nak rx link stage fsm received =>
    exact .statusIn setup nak rx (hlink _ link) stage fsm received
  | statusInDone setup nak rx link stage fsm received =>
    exact .statusInDone setup nak rx (hlink _ link) stage fsm received

/-! ### Polls -/

/-- An entry that is neither a SETUP packet nor a stall keeps the log in order. -/
theorem LogOk.other {log : List UsbEvent} (h : LogOk log) {e : UsbEvent}
    (hsetup : ∀ req, e ≠ .setup req) (hstall : e ≠ .stall) : LogOk (e :: log) where
  completed := (allLog_cons ..).mpr ⟨fun req he => absurd he (hsetup req), h.completed⟩
  refused := (allLog_cons ..).mpr ⟨fun he => absurd he hstall, h.refused⟩

/-- The next chunk is handed to the endpoint. -/
theorem sendChunk_phase {d : Dev} {h : Host} {setup : Bool} {tx : BitVec 16}
    (link : Link d.periph ⟨⟨false, false, setup, rxStatNak, tx⟩, true, latchedAddr d.log⟩)
    (htx : tx ≠ txStatValid) (stage : h.stage = .dataIn) (req : d.usbReq.bmRequestType ≠ 0)
    (more : MoreToCome d.usbNeedsZlp d.datasize.toNat (h.req.wLength.toNat - h.count))
    (received : chunks d.log = h.received) (log : LogOk d.log) :
    Phase (usbControlSendChunk d) h ∧ LogOk (usbControlSendChunk d).log := by
  obtain ⟨hwanted, hle, hempty, hshort⟩ := more
  have hchunk (off : Nat) (data : List UInt8) : LogOk (.chunk off data :: d.log) :=
    log.other (by simp) (by simp)
  by_cases hmore : 64 < d.datasize.toNat
  · obtain ⟨p, hlink, hpacket, hsend⟩ := usbControlSendChunk_more link htx hmore
    rw [hsend]
    refine ⟨.inWaiting setup hlink stage req (Or.inl ⟨rfl, ?_, ?_⟩) ?_, hchunk _ _⟩
    · show p.txPacket.length = 64
      rw [hpacket, ctrlBytes_length]
    · have hrest : (d.datasize - 64).toNat = d.datasize.toNat - 64 :=
        UInt16.toNat_sub_of_le _ _ (UInt16.le_iff_toNat_le.mpr (Nat.le_of_lt hmore))
      show MoreToCome d.usbNeedsZlp (d.datasize - 64).toNat _
      rw [hrest]
      refine ⟨by omega, by omega, fun hz => ?_, fun hz => ?_⟩
      · have := hempty hz
        omega
      · have := hshort hz
        omega
    · show p.txPacket :: chunks d.log = _
      rw [received]
  · obtain ⟨p, hlink, hpacket, hsend⟩ := usbControlSendChunk_last link htx (by omega)
    rw [hsend]
    refine ⟨.inWaiting setup hlink stage req ?_ ?_, hchunk _ _⟩
    · have hlength : p.txPacket.length = d.datasize.toNat := by
        rw [hpacket, ctrlBytes_length]
      cases hz : d.usbNeedsZlp with
      | true =>
        -- an empty packet follows
        have := hempty hz
        refine Or.inl ⟨by simp, by show p.txPacket.length = 64; omega, ?_⟩
        show MoreToCome false (0 : UInt16).toNat _
        exact ⟨by omega, Nat.zero_le _, fun h => absurd h Bool.false_ne_true,
          fun _ => Or.inr (Or.inr rfl)⟩
      | false =>
        have := hshort hz
        refine Or.inr ⟨by simp, ?_⟩
        show p.txPacket.length < 64 ∨ _ ≤ p.txPacket.length
        omega
    · show p.txPacket :: chunks d.log = _
      rw [received]

/-- The endpoint is stalled. -/
theorem stall_phase {d : Dev} {h : Host} {setup nak : Bool} {rx tx : BitVec 16}
    (link : Link d.periph ⟨⟨false, false, setup, rx, tx⟩, nak, latchedAddr d.log⟩)
    (stage : h.stage ≠ .ready) (received : chunks d.log = h.received) (log : LogOk d.log)
    (hrefused : StallAfterRefusal .stall d.log) :
    Phase (stallTransaction d) h ∧ LogOk (stallTransaction d).log :=
  ⟨.stalled setup nak (stallTransaction_link link) stage ⟨d.log, rfl⟩ received,
    { completed := (allLog_cons ..).mpr ⟨fun req he => by simp at he, log.completed⟩
      refused := (allLog_cons ..).mpr ⟨hrefused, log.refused⟩ }⟩

/-- The status packet of a write is handed to the endpoint. -/
theorem statusIn_phase {d : Dev} {h : Host} {setup nak : Bool} {rx tx : BitVec 16}
    (link : Link d.periph ⟨⟨false, false, setup, rx, tx⟩, nak, latchedAddr d.log⟩)
    (htx : tx ≠ txStatValid) (stage : h.stage = .statusIn) (received : chunks d.log = h.received) :
    Phase { d with periph := (usbdEpWritePacket d.periph 0 (fun _ => 0) 0).1, fsm := .statusIn }
      h := by
  obtain ⟨hlink, -⟩ := link.writePacket htx (fun _ => 0)
    (show (0 : UInt16).toNat ≤ 64 from Nat.zero_le _)
  exact .statusIn setup nak rx hlink stage rfl received

/-- A request is dispatched: a refusal stalls the endpoint, and is on record for it. -/
theorem dispatched_refused (req : UsbSetupData) (log : List UsbEvent) :
    StallAfterRefusal .stall (.dispatched req .notsupp :: log) :=
  fun _ => Or.inl ⟨req, log, rfl⟩

/-- `_needs_zlp`, in numbers. -/
theorem needsZlp_iff (len wLength : UInt16) :
    needsZlp len wLength bMaxPacketSize0 = true
      ↔ len.toNat < wLength.toNat ∧ len.toNat ≠ 0 ∧ len.toNat % 64 = 0 := by
  have h0 : (0 : UInt16).toNat = 0 := rfl
  have h64 : bMaxPacketSize0.toNat = 64 := rfl
  simp only [needsZlp, Bool.and_eq_true, decide_eq_true_eq, UInt16.lt_iff_toNat_lt, ne_eq,
    ← UInt16.toNat_inj, UInt16.toNat_mod, h0, h64]

/-- A reply cut to `wLength` opens a data stage that the host takes the end of. -/
theorem moreToCome_reply {len wLength : UInt16} (h : wLength ≠ 0)
    (hle : len.toNat ≤ wLength.toNat) :
    MoreToCome (needsZlp len wLength bMaxPacketSize0) len.toNat wLength.toNat where
  wanted := uint16_pos h
  le := hle
  empty := by
    intro hz
    have := (needsZlp_iff len wLength).mp hz
    omega
  short := by
    intro hz
    have hnot : ¬ (len.toNat < wLength.toNat ∧ len.toNat ≠ 0 ∧ len.toNat % 64 = 0) := by
      rw [← needsZlp_iff, hz]
      exact Bool.false_ne_true
    omega

/-- The first stage of a transfer by the class of its request. -/
theorem UsbSetupData.isRead_cases (req : UsbSetupData) :
    req.isRead = true ∧ req.wLength = 0 ∧ req.firstStage = .statusIn
      ∨ req.isRead = true ∧ req.wLength ≠ 0 ∧ req.bmRequestType ≠ 0 ∧ req.firstStage = .dataIn
      ∨ req.isRead = false ∧ req.wLength ≠ 0 ∧ req.firstStage = .dataOut := by
  unfold UsbSetupData.isRead UsbSetupData.firstStage
  by_cases hlen : req.wLength = 0
  · exact Or.inl ⟨by simp [hlen], hlen, by rw [if_pos hlen]⟩
  right
  by_cases hdir : req.bmRequestType &&& 0x80 = 0
  · exact Or.inr ⟨by simp [hlen, hdir], hlen, by rw [if_neg hlen, if_neg (not_not_intro hdir)]⟩
  · refine Or.inl ⟨by simp [hdir], hlen, fun h0 => hdir ?_, by rw [if_neg hlen, if_pos hdir]⟩
    rw [h0]
    rfl

/-- **A read** is answered, stalled or acknowledged. -/
theorem setupRead_phase {d : Dev} {h : Host}
    (link : Link d.periph ⟨⟨false, false, true, rxStatNak, txStatNak⟩, true, latchedAddr d.log⟩)
    (req : d.usbReq = h.req) (compliant : h.req.Compliant) (read : h.req.isRead = true)
    (stage : h.stage = h.req.firstStage) (count : h.count = 0)
    (received : chunks d.log = h.received) (log : LogOk d.log) :
    Phase (usbControlSetupRead d) h ∧ LogOk (usbControlSetupRead d).log := by
  have hcompliant : ({ d with dataoff := 0 } : Dev).usbReq.Compliant := by
    show d.usbReq.Compliant
    rw [req]
    exact compliant
  have hafter := usbControlRequestDispatch_link (d := { d with dataoff := 0 }) link hcompliant
  obtain ⟨hlog, -, -, hreq⟩ := usbControlRequestDispatch_frame { d with dataoff := 0 }
  unfold usbControlSetupRead
  revert hafter hlog hreq
  generalize usbControlRequestDispatch { d with dataoff := 0 } = r
  obtain ⟨code, d'⟩ := r
  rintro ⟨rx, tx, hlink, htx, hsame⟩ hlog hreq
  simp only at hlink htx hsame hlog hreq ⊢
  have hlatched : latchedAddr d'.log = latchedAddr d.log := by rw [hlog]; rfl
  have hreceived : chunks d'.log = h.received := by rw [hlog]; exact received
  have hlogok : LogOk d'.log := by
    rw [hlog]
    exact log.other (by simp) (by simp)
  rw [← hlatched] at hlink
  rw [req] at hreq hsame
  have htxne : tx ≠ txStatValid := by
    rcases htx with rfl | rfl | rfl <;> decide
  by_cases hcode : code = .notsupp
  · -- refused
    rw [if_neg (not_not_intro hcode)]
    refine stall_phase hlink ?_ hreceived hlogok ?_
    · rw [stage]
      rcases h.req.isRead_cases with ⟨-, -, hs⟩ | ⟨-, -, -, hs⟩ | ⟨-, -, hs⟩ <;> rw [hs] <;> decide
    · rw [hlog, hcode]
      exact dispatched_refused _ _
  rw [if_pos hcode]
  -- the reply, cut to `wLength`
  obtain ⟨d₂, hd₂⟩ : ∃ d₂, d₂ = if d'.datasize > d.usbReq.wLength
      then { d' with datasize := d.usbReq.wLength } else d' := ⟨_, rfl⟩
  rw [← hd₂]
  have hcut : d₂.periph = d'.periph ∧ d₂.log = d'.log ∧ d₂.usbReq = d'.usbReq
      ∧ d₂.datasize.toNat ≤ h.req.wLength.toNat := by
    rw [hd₂, req]
    split
    · exact ⟨rfl, rfl, rfl, Nat.le_refl _⟩
    · rename_i hle
      refine ⟨rfl, rfl, rfl, ?_⟩
      rw [gt_iff_lt, UInt16.lt_iff_toNat_lt] at hle
      omega
  obtain ⟨hperiph, hlog₂, hreq₂, hle⟩ := hcut
  rw [← hperiph, ← hlog₂] at hlink
  rw [← hlog₂] at hreceived hlogok
  rw [req]
  rcases h.req.isRead_cases with ⟨-, hlen, hs⟩ | ⟨-, hlen, htype, hs⟩ | ⟨hno, -⟩
  · rw [if_neg (not_not_intro hlen)]
    exact ⟨statusIn_phase hlink htxne (by rw [stage, hs]) hreceived, hlogok⟩
  · rw [if_pos hlen]
    obtain ⟨rfl, rfl⟩ := hsame hlen
    refine sendChunk_phase (d := { d₂ with usbNeedsZlp := _ }) hlink htxne (by rw [stage, hs]) ?_ ?_
      hreceived hlogok
    · show d₂.usbReq.bmRequestType ≠ 0
      rw [hreq₂, hreq]
      exact htype
    · rw [count, Nat.sub_zero]
      exact moreToCome_reply hlen hle
  · rw [read] at hno
    exact absurd hno (by decide)

/-- **A write** waits for its data, or is stalled because there is no room for them. -/
theorem setupWrite_phase {d : Dev} {h : Host}
    (link : Link d.periph ⟨⟨false, false, true, rxStatNak, txStatNak⟩, true, latchedAddr d.log⟩)
    (req : d.usbReq = h.req) (compliant : h.req.Compliant) (write : h.req.isRead = false)
    (stage : h.stage = h.req.firstStage) (count : h.count = 0)
    (received : chunks d.log = h.received) (log : LogOk d.log)
    (hsetup : ∃ older, d.log = .setup h.req :: older) :
    Phase (usbControlSetupWrite d) h ∧ LogOk (usbControlSetupWrite d).log := by
  obtain ⟨hread, -⟩ | ⟨hread, -⟩ | ⟨-, hlen, hs⟩ := h.req.isRead_cases
  · rw [write] at hread
    exact absurd hread (by decide)
  · rw [write] at hread
    exact absurd hread (by decide)
  rw [hs] at stage
  by_cases hbig : d.usbReq.wLength.toNat > dfuTransferSize
  · unfold usbControlSetupWrite
    rw [if_pos hbig]
    refine stall_phase link (by rw [stage]; decide) received log fun _ => Or.inr ?_
    obtain ⟨older, hlog⟩ := hsetup
    rw [req] at hbig
    exact ⟨h.req, older, hlog, write, hbig⟩
  · have hpos := uint16_pos hlen
    rw [usbControlSetupWrite_eq (Nat.not_lt.mp hbig)]
    refine ⟨.outWaiting true (link.nakSet false) stage req compliant ?_ (by omega) ?_ received, log⟩
    · rw [count]
      rfl
    · rw [req, count]

/-- **A SETUP packet** is taken up. -/
theorem setup_phase {d : Dev} {h : Host} {nak : Bool}
    (link : Link d.periph ⟨⟨true, false, true, rxStatNak, txStatNak⟩, nak, latchedAddr d.log⟩)
    (packet : d.periph.rxPacket = h.req.bytes) (compliant : h.req.Compliant)
    (stage : h.stage = h.req.firstStage) (count : h.count = 0) (hsettled : settled d.log = true)
    (received : chunks d.log = h.received) (log : LogOk d.log) :
    Phase (usbdControlSetup d) h ∧ LogOk (usbdControlSetup d).log := by
  obtain ⟨p, hlink, heq⟩ := usbdControlSetup_eq link packet
  have hlog : LogOk (.setup h.req :: d.log) :=
    { completed := (allLog_cons ..).mpr ⟨fun req he => hsettled, log.completed⟩
      refused := (allLog_cons ..).mpr ⟨fun he => by simp at he, log.refused⟩ }
  rw [heq]
  cases hread : h.req.isRead with
  | true =>
    rw [if_pos rfl]
    exact setupRead_phase hlink rfl compliant hread stage count received hlog
  | false =>
    rw [if_neg Bool.false_ne_true]
    exact setupWrite_phase hlink rfl compliant hread stage count received hlog ⟨d.log, rfl⟩

/-- **A status packet that was fetched** completes the transfer; the address of a
    `SET_ADDRESS` is latched with it. -/
theorem statusInDone_phase {d : Dev} {h : Host} {setup nak : Bool} {rx : BitVec 16}
    (link : Link d.periph ⟨⟨false, true, setup, rx, txStatNak⟩, nak, latchedAddr d.log⟩)
    (stage : h.stage = .ready) (fsm : d.fsm = .statusIn) (received : chunks d.log = h.received)
    (log : LogOk d.log) : Phase (d.serve .tx) h ∧ LogOk (d.serve .tx).log := by
  have hclear := link.clrTxCtr
  simp only [Dev.serve, link.servedEp, usbdControlIn, fsm, completeTransfer]
  refine ⟨.idle setup nak rx txStatNak ?_ stage rfl received, log.other (by simp) (by simp)⟩
  show Link (if d.usbReq.bmRequestType = 0 ∧ d.usbReq.bRequest = 5
      then latchAddress (usbClrEpTxCtr d.periph 0) d.usbReq.wValue else usbClrEpTxCtr d.periph 0)
    ⟨_, _, if d.usbReq.bmRequestType = 0 ∧ d.usbReq.bRequest = 5
      then (d.usbReq.wValue.toBitVec &&& 0x007F#16) ||| usbDaddrEf else latchedAddr d.log⟩
  by_cases haddr : d.usbReq.bmRequestType = 0 ∧ d.usbReq.bRequest = 5
  · rw [if_pos haddr, if_pos haddr]
    exact hclear.latchAddress _
  · rw [if_neg haddr, if_neg haddr]
    exact hclear

/-- **A status packet that was received** completes the transfer. -/
theorem statusOutDone_phase {d : Dev} {h : Host}
    (link : Link d.periph ⟨⟨true, false, false, rxStatNak, txStatNak⟩, false, latchedAddr d.log⟩)
    (stage : h.stage = .ready) (req : d.usbReq.bmRequestType ≠ 0) (fsm : d.fsm = .statusOut)
    (received : chunks d.log = h.received) (log : LogOk d.log) :
    Phase (d.serve .out) h ∧ LogOk (d.serve .out).log := by
  obtain ⟨p, hread, hlink⟩ := link.readPacket rxStatNak_ne_valid (fun _ => 0) 0
  simp only [Dev.serve, usbdControlOut, fsm, hread, completeTransfer]
  -- a read is no `SET_ADDRESS`
  have hnot : ¬ (d.usbReq.bmRequestType = 0 ∧ d.usbReq.bRequest = 5) := fun haddr => req haddr.1
  have hlatched : latchedAddr (.complete d.usbReq :: d.log) = latchedAddr d.log := if_neg hnot
  rw [← hlatched] at hlink
  exact ⟨.idle false false rxStatValid txStatNak hlink stage rfl received,
    log.other (by simp) (by simp)⟩

/-- The last packet of a write is in: its request is dispatched. -/
theorem dispatchWrite_phase {d : Dev} {h : Host}
    (link : Link d.periph ⟨⟨false, false, false, rxStatValid, txStatNak⟩, false, latchedAddr d.log⟩)
    (req : d.usbReq = h.req) (compliant : h.req.Compliant) (hlen : h.req.wLength ≠ 0)
    (stage : h.stage = .statusIn) (received : chunks d.log = h.received) (log : LogOk d.log) :
    let r := usbControlRequestDispatch d
    let d' := if r.1 ≠ .notsupp then
        { r.2 with periph := (usbdEpWritePacket r.2.periph 0 (fun _ => 0) 0).1, fsm := .statusIn }
      else stallTransaction r.2
    Phase d' h ∧ LogOk d'.log := by
  have hafter := usbControlRequestDispatch_link link (by rw [req]; exact compliant)
  obtain ⟨hlog, -, -, hreq⟩ := usbControlRequestDispatch_frame d
  revert hafter hlog hreq
  generalize usbControlRequestDispatch d = r
  obtain ⟨code, d'⟩ := r
  rintro ⟨rx, tx, hlink, -, hsame⟩ hlog hreq
  simp only at hlink hsame hlog hreq ⊢
  rw [req] at hreq hsame
  obtain ⟨rfl, rfl⟩ := hsame hlen
  have hlatched : latchedAddr d'.log = latchedAddr d.log := by rw [hlog]; rfl
  have hreceived : chunks d'.log = h.received := by rw [hlog]; exact received
  have hlogok : LogOk d'.log := by
    rw [hlog]
    exact log.other (by simp) (by simp)
  rw [← hlatched] at hlink
  by_cases hcode : code = .notsupp
  · rw [if_neg (not_not_intro hcode)]
    refine stall_phase hlink (by rw [stage]; decide) hreceived hlogok ?_
    rw [hlog, hcode]
    exact dispatched_refused _ _
  · rw [if_pos hcode]
    exact ⟨statusIn_phase hlink (show txStatNak ≠ txStatValid by decide) stage hreceived, hlogok⟩

/-- **A packet of an OUT data stage** is stored; the last one leads to the request. -/
theorem outReceived_phase {d : Dev} {h : Host}
    (link : Link d.periph ⟨⟨true, false, false, rxStatNak, txStatNak⟩, false, latchedAddr d.log⟩)
    (stage : h.stage = if h.req.wLength.toNat ≤ h.count then .statusIn else .dataOut)
    (req : d.usbReq = h.req) (compliant : h.req.Compliant)
    (lt : d.datasize.toNat < h.req.wLength.toNat)
    (packet : d.periph.rxPacket.length = min 64 (h.req.wLength.toNat - d.datasize.toNat))
    (count : d.datasize.toNat + d.periph.rxPacket.length = h.count)
    (fsm : d.fsm = outFsm h.req.wLength.toNat d.datasize.toNat)
    (received : chunks d.log = h.received) (log : LogOk d.log) :
    Phase (d.serve .out) h ∧ LogOk (d.serve .out).log := by
  obtain ⟨p, hlink, hrecv⟩ := usbControlRecvChunk_eq link rxStatNak_ne_valid (by rw [req]; omega)
    (by rw [req]; exact packet)
  have hlen : h.req.wLength ≠ 0 := by
    intro h0
    rw [h0] at lt
    exact absurd lt (Nat.not_lt_zero _)
  have hsize : (d.datasize + UInt16.ofNat d.periph.rxPacket.length).toNat = h.count := by
    have hw := h.req.wLength.toNat_lt
    rw [UInt16.toNat_add, UInt16.toNat_ofNat']
    omega
  by_cases hlast : h.req.wLength.toNat ≤ d.datasize.toNat + 64
  · rw [outFsm, if_pos hlast] at fsm
    rw [if_pos (by omega)] at stage
    show Phase (usbdControlOut d) h ∧ LogOk (usbdControlOut d).log
    rw [usbdControlOut_last fsm hrecv rfl]
    exact dispatchWrite_phase (d := { d with periph := p, ctrl := _, datasize := _ }) hlink req
      compliant hlen stage received log
  · rw [outFsm, if_neg hlast] at fsm
    rw [if_neg (by omega)] at stage
    show Phase (usbdControlOut d) h ∧ LogOk (usbdControlOut d).log
    rw [usbdControlOut_more fsm hrecv fsm]
    simp only [hsize, req]
    exact ⟨.outWaiting false hlink stage rfl compliant hsize (by omega) rfl received, log⟩

/-- **What a poll serves** leads from one phase to the next. -/
theorem Phase.serve {d : Dev} {h : Host} (hphase : Phase d h) (log : LogOk d.log) :
    Phase (d.serve d.periph.served) h ∧ LogOk (d.serve d.periph.served).log := by
  cases hphase with
  | idle setup nak rx tx link stage settled received =>
    rw [link.served]
    exact ⟨.idle setup nak rx tx link stage settled received, log⟩
  | setup nak link packet compliant stage count settled received =>
    rw [link.served]
    exact setup_phase link packet compliant stage count settled received log
  | stalled setup nak link stage stalled received =>
    rw [link.served]
    exact ⟨.stalled setup nak link stage stalled received, log⟩
  | inWaiting setup link stage req packet received =>
    rw [link.served]
    exact ⟨.inWaiting setup link stage req packet received, log⟩
  | inFetched setup link stage req fsm more received =>
    rw [link.served]
    simp only [Bool.false_eq_true, if_false, if_true, Dev.serve, link.servedEp, usbdControlIn, fsm]
    exact sendChunk_phase (d := { d with periph := usbClrEpTxCtr d.periph 0 }) link.clrTxCtr
      txStatNak_ne_valid stage req more received log
  | inLast setup link stage req fsm received =>
    rw [link.served]
    simp only [Bool.false_eq_true, if_false, if_true, Dev.serve, link.servedEp, usbdControlIn, fsm]
    exact ⟨.statusOut setup (link.clrTxCtr.nakSet false) stage req rfl received, log⟩
  | statusOut setup link stage req fsm received =>
    rw [link.served]
    exact ⟨.statusOut setup link stage req fsm received, log⟩
  | statusOutDone link stage req fsm received =>
    rw [link.served]
    exact statusOutDone_phase link stage req fsm received log
  | outWaiting setup link stage req compliant count lt fsm received =>
    rw [link.served]
    exact ⟨.outWaiting setup link stage req compliant count lt fsm received, log⟩
  | outReceived link stage req compliant lt packet count fsm received =>
    rw [link.served]
    exact outReceived_phase link stage req compliant lt packet count fsm received log
  | statusIn setup nak rx link stage fsm received =>
    rw [link.served]
    exact ⟨.statusIn setup nak rx link stage fsm received, log⟩
  | statusInDone setup nak rx link stage fsm received =>
    rw [link.served]
    exact statusInDone_phase link stage fsm received log

/-- Every phase has a peripheral that is set up. -/
theorem Phase.link {d : Dev} {h : Host} (hphase : Phase d h) :
    ∃ x, Link d.periph x ∧ x.daddr = latchedAddr d.log := by
  cases hphase <;> exact ⟨_, ‹Link _ _›, rfl⟩

/-- **One poll.** -/
theorem poll_phase {d : Dev} {h : Host} (hphase : Phase d h) (log : LogOk d.log)
    (hrun : d.dfu.reset = false) : Phase (d.step .poll) h ∧ LogOk (d.step .poll).log := by
  obtain ⟨x, link, -⟩ := hphase.link
  obtain ⟨hnext, hlog⟩ := hphase.serve log
  have hstep := step_poll_eq link hrun
  rw [← link.served] at hstep
  rw [hstep]
  obtain ⟨x', link', -⟩ := hnext.link
  obtain ⟨-, htx, hrx⟩ := endPoll_link link' (d.periph.read regIstr)
  exact ⟨hnext.of_periph (fun y hy => (endPoll_link hy _).1) htx hrx, hlog⟩

/-! ### Packets of the host -/

/-- A packet that is neither accepted nor stalled is tried again. -/
theorem Host.next_ignored (h : Host) {p : Periph} {e : BusEvent} (ha : p.accepts e = false)
    (hs : p.stalls e = false) : h.next p e = h := by
  unfold Host.next
  rw [ha, hs, if_neg Bool.false_ne_true, if_neg Bool.false_ne_true]

/-- A packet that is stalled ends the transfer. -/
theorem Host.next_stalled (h : Host) {p : Periph} {e : BusEvent} (ha : p.accepts e = false)
    (hs : p.stalls e = true) : h.next p e = { h with stage := .ready } := by
  unfold Host.next
  rw [ha, hs, if_neg Bool.false_ne_true, if_pos rfl]

section

variable {p : Periph} {x : Ep0}

/-- What the device answers to each packet. -/
theorem Link.accepts_setup (h : Link p x) (req : UsbSetupData) :
    p.accepts (.setup req) = (x.rxStat != rxStatDisabled) := by
  simp only [Periph.accepts, h.isEnabled, h.rxStat_eq, Bool.true_and]

theorem Link.accepts_out (h : Link p x) (data : List UInt8) :
    p.accepts (.out data) = (x.rxStat == rxStatValid && decide (data.length ≤ 96)) := by
  simp only [Periph.accepts, h.isEnabled, h.rxStat_eq, h.rxCapacity, Bool.true_and]

theorem Link.accepts_ack (h : Link p x) : p.accepts .ack = (x.txStat == txStatValid) := by
  simp only [Periph.accepts, h.isEnabled, h.txStat_eq, Bool.true_and]

theorem Link.stalls_out (h : Link p x) (data : List UInt8) :
    p.stalls (.out data) = (x.rxStat == rxStatStall) := by
  simp only [Periph.stalls, h.rxStat_eq]

theorem Link.stalls_ack (h : Link p x) : p.stalls .ack = (x.txStat == txStatStall) := by
  simp only [Periph.stalls, h.txStat_eq]

/-- A NAK: nothing changes on either side. -/
theorem Link.out_nak (h : Link p x) (hx : x.rxStat = rxStatNak) (host : Host) (data : List UInt8) :
    p.bus (.out data) = p ∧ host.next p (.out data) = host := by
  refine ⟨h.bus_out_ignored data (by rw [hx]; exact rxStatNak_ne_valid), host.next_ignored ?_ ?_⟩
  · rw [h.accepts_out, hx]
    rfl
  · rw [h.stalls_out, hx]
    rfl

theorem Link.ack_nak (h : Link p x) (hx : x.txStat = txStatNak) (host : Host) :
    p.bus .ack = p ∧ host.next p .ack = host := by
  refine ⟨h.bus_ack_ignored (by rw [hx]; exact txStatNak_ne_valid), host.next_ignored ?_ ?_⟩
  · rw [h.accepts_ack, hx]
    rfl
  · rw [h.stalls_ack, hx]
    rfl

end

/-- **A SETUP packet** of a host that is ready, with nothing pending. -/
theorem sendSetup_phase {d : Dev} {h : Host} (hphase : Phase d h) {req : UsbSetupData}
    (ready : h.stage = .ready) (compliant : req.Compliant)
    (hprompt : (epView (d.periph.reg 0)).rxCtr = false ∧ (epView (d.periph.reg 0)).txCtr = false) :
    Phase { d with periph := d.periph.bus (.setup req) } (h.next d.periph (.setup req)) := by
  cases hphase with
  | idle setup nak rx tx link stage settled received =>
    by_cases hrx : rx = rxStatDisabled
    · have hignored : h.next d.periph (.setup req) = h := by
        refine h.next_ignored ?_ rfl
        rw [link.accepts_setup, hrx]
        rfl
      rw [link.bus_setup_ignored req hrx, hignored]
      exact .idle setup nak rx tx link stage settled received
    · obtain ⟨hlink, hpacket⟩ := link.bus_setup req hrx
      have hnext : h.next d.periph (.setup req)
          = { h with stage := req.firstStage, req := req, count := 0 } := by
        unfold Host.next
        rw [link.accepts_setup, if_pos (bne_iff_ne.mpr hrx)]
      rw [hnext]
      exact .setup nak hlink hpacket compliant rfl rfl settled received
  | setup nak link packet compliant stage =>
    rw [stage] at ready
    obtain ⟨-, -, hs⟩ | ⟨-, -, -, hs⟩ | ⟨-, -, hs⟩ := h.req.isRead_cases <;>
      rw [hs] at ready <;> cases ready
  | stalled setup nak link stage => exact absurd ready stage
  | inWaiting setup link stage => rw [stage] at ready; cases ready
  | inFetched setup link stage => rw [stage] at ready; cases ready
  | inLast setup link stage => rw [stage] at ready; cases ready
  | statusOut setup link stage => rw [stage] at ready; cases ready
  | statusOutDone link =>
    rw [link.view] at hprompt
    cases hprompt.1
  | outWaiting setup link stage => rw [stage] at ready; cases ready
  | outReceived link =>
    rw [link.view] at hprompt
    cases hprompt.1
  | statusIn setup nak rx link stage => rw [stage] at ready; cases ready
  | statusInDone setup nak rx link =>
    rw [link.view] at hprompt
    cases hprompt.2

/-- **An IN token**: the packet that waits is fetched, or the host is told to wait, or that
    the transfer is refused. -/
theorem sendAck_phase {d : Dev} {h : Host} (hphase : Phase d h)
    (hstage : h.stage = .dataIn ∨ h.stage = .statusIn) :
    Phase { d with periph := d.periph.bus .ack } (h.next d.periph .ack) := by
  cases hphase with
  | setup nak link packet compliant stage count settled received =>
    obtain ⟨hbus, hnext⟩ := link.ack_nak rfl h
    rw [hbus, hnext]
    exact .setup nak link packet compliant stage count settled received
  | stalled setup nak link stage stalled received =>
    have hstalled : h.next d.periph .ack = { h with stage := .ready } :=
      h.next_stalled (by rw [link.accepts_ack]; rfl) (by rw [link.stalls_ack]; rfl)
    obtain ⟨older, hlog⟩ := stalled
    have hignored : d.periph.bus .ack = d.periph :=
      link.bus_ack_ignored (show txStatStall ≠ txStatValid by decide)
    rw [hstalled, hignored]
    exact .idle setup nak _ _ link rfl (by rw [hlog]; rfl) received
  | inWaiting setup link stage req packet received =>
    have hlink := link.bus_ack rfl
    have hnext : h.next d.periph .ack = { h with
        stage := if d.periph.txPacket.length < 64
          ∨ h.req.wLength.toNat ≤ h.count + d.periph.txPacket.length then .statusOut else .dataIn
        count := h.count + d.periph.txPacket.length
        received := d.periph.txPacket :: h.received } := by
      unfold Host.next
      rw [link.accepts_ack, stage]
      rfl
    rw [hnext]
    rcases packet with ⟨hfsm, hlength, hmore⟩ | ⟨hfsm, hlast⟩
    · -- more follow: the packet was full and the host wants more
      have hwanted := hmore.wanted
      rw [if_neg (by omega), hlength]
      refine .inFetched setup hlink rfl req hfsm ?_ received
      have hrest : h.req.wLength.toNat - (h.count + 64) = h.req.wLength.toNat - h.count - 64 := by
        omega
      rw [hrest]
      exact hmore
    · rw [if_pos (by omega)]
      exact .inLast setup hlink rfl req hfsm received
  | inFetched setup link stage req fsm more received =>
    obtain ⟨hbus, hnext⟩ := link.ack_nak rfl h
    rw [hbus, hnext]
    exact .inFetched setup link stage req fsm more received
  | outReceived link stage req compliant lt packet count fsm received =>
    obtain ⟨hbus, hnext⟩ := link.ack_nak rfl h
    rw [hbus, hnext]
    exact .outReceived link stage req compliant lt packet count fsm received
  | statusIn setup nak rx link stage fsm received =>
    have hlink := link.bus_ack rfl
    have hnext : h.next d.periph .ack = { h with stage := .ready } := by
      unfold Host.next
      rw [link.accepts_ack, stage]
      rfl
    rw [hnext]
    exact .statusInDone setup nak rx hlink rfl fsm received
  | idle setup nak rx tx link stage => rw [stage] at hstage; simp at hstage
  | inLast setup link stage => rw [stage] at hstage; simp at hstage
  | statusOut setup link stage => rw [stage] at hstage; simp at hstage
  | statusOutDone link stage => rw [stage] at hstage; simp at hstage
  | outWaiting setup link stage => rw [stage] at hstage; simp at hstage
  | statusInDone setup nak rx link stage => rw [stage] at hstage; simp at hstage

/-- **An OUT packet** of a data stage or of the status stage of a read. -/
theorem sendOut_phase {d : Dev} {h : Host} (hphase : Phase d h) {data : List UInt8}
    (hsend : h.MaySend (.out data)) :
    Phase { d with periph := d.periph.bus (.out data) } (h.next d.periph (.out data)) := by
  have hstage : h.stage = .statusOut ∨ h.stage = .dataOut := hsend.imp And.left And.left
  cases hphase with
  | setup nak link packet compliant stage count settled received =>
    obtain ⟨hbus, hnext⟩ := link.out_nak rfl h data
    rw [hbus, hnext]
    exact .setup nak link packet compliant stage count settled received
  | stalled setup nak link stage stalled received =>
    have hstalled : h.next d.periph (.out data) = { h with stage := .ready } :=
      h.next_stalled (by rw [link.accepts_out]; rfl) (by rw [link.stalls_out]; rfl)
    obtain ⟨older, hlog⟩ := stalled
    have hignored : d.periph.bus (.out data) = d.periph :=
      link.bus_out_ignored data (show rxStatStall ≠ rxStatValid by decide)
    rw [hstalled, hignored]
    exact .idle setup nak _ _ link rfl (by rw [hlog]; rfl) received
  | inLast setup link stage req fsm received =>
    obtain ⟨hbus, hnext⟩ := link.out_nak rfl h data
    rw [hbus, hnext]
    exact .inLast setup link stage req fsm received
  | statusOut setup link stage req fsm received =>
    obtain ⟨-, rfl⟩ | ⟨hdata, -⟩ := hsend
    · have hempty : ([] : List UInt8).length ≤ 96 := Nat.zero_le _
      obtain ⟨hlink, -⟩ := link.bus_out rfl hempty
      have hnext : h.next d.periph (.out []) = { h with stage := .ready } := by
        unfold Host.next
        rw [link.accepts_out, stage]
        rfl
      rw [hnext]
      exact .statusOutDone hlink rfl req fsm received
    · rw [stage] at hdata
      cases hdata
  | outWaiting setup link stage req compliant count lt fsm received =>
    obtain ⟨hstatus, -⟩ | ⟨-, hlength⟩ := hsend
    · rw [stage] at hstatus
      cases hstatus
    · have h96 : data.length ≤ 96 := by omega
      obtain ⟨hlink, hpacket⟩ := link.bus_out rfl h96
      have hnext : h.next d.periph (.out data) = { h with
          stage := if h.req.wLength.toNat ≤ h.count + data.length then .statusIn else .dataOut
          count := h.count + data.length } := by
        unfold Host.next
        rw [link.accepts_out, stage, if_pos (by simpa using h96)]
      rw [hnext]
      refine .outReceived hlink rfl req compliant (by rw [count]; exact lt) ?_ ?_ ?_ received
      · rw [hpacket, hlength, count]
      · show d.datasize.toNat + (d.periph.bus (.out data)).rxPacket.length = h.count + data.length
        rw [hpacket, count]
      · show d.fsm = _
        rw [fsm, count]
  | outReceived link stage req compliant lt packet count fsm received =>
    obtain ⟨hbus, hnext⟩ := link.out_nak rfl h data
    rw [hbus, hnext]
    exact .outReceived link stage req compliant lt packet count fsm received
  | idle setup nak rx tx link stage => rw [stage] at hstage; simp at hstage
  | inWaiting setup link stage => rw [stage] at hstage; simp at hstage
  | inFetched setup link stage => rw [stage] at hstage; simp at hstage
  | statusOutDone link stage => rw [stage] at hstage; simp at hstage
  | statusIn setup nak rx link stage => rw [stage] at hstage; simp at hstage
  | statusInDone setup nak rx link stage => rw [stage] at hstage; simp at hstage

/-! ### Runs -/

/-- The host does not begin a transfer while the device has not yet taken up the completion
    of the one before: no transfer flag of endpoint 0 is pending. -/
def Sys.Prompt (s : Sys) (e : BusEvent) : Prop :=
  ∀ req, e = .setup req →
    (epView (s.dev.periph.reg 0)).rxCtr = false ∧ (epView (s.dev.periph.reg 0)).txCtr = false

/-- **A step** of a compliant and prompt host, or a poll, keeps the joint invariant. -/
theorem step_joint {s : Sys} (hs : Joint s) {e : BusEvent} (hsend : s.host.MaySend e)
    (hprompt : s.Prompt e) : Joint (s.step e) := by
  obtain ⟨hphase, hlog⟩ := hs
  unfold Sys.step
  split
  · exact ⟨hphase, hlog⟩
  rename_i hreset
  have hrun : s.dev.dfu.reset = false := by simpa using hreset
  have hstep (hpoll : e ≠ .poll) : s.dev.step e = { s.dev with periph := s.dev.periph.bus e } := by
    unfold Dev.step
    rw [if_neg hreset]
    cases e <;> first | rfl | exact absurd rfl hpoll
  cases e with
  | poll =>
    obtain ⟨hnext, hlog'⟩ := poll_phase hphase hlog hrun
    have hhost : s.host.next s.dev.periph .poll = s.host := s.host.next_ignored rfl rfl
    rw [hhost]
    exact ⟨hnext, hlog'⟩
  | busReset => exact absurd hsend id
  | raise flags =>
    have hhost : s.host.next s.dev.periph (.raise flags) = s.host := s.host.next_ignored rfl rfl
    obtain ⟨x, link, -⟩ := hphase.link
    have hraised := link.bus_raise flags
    rw [hhost, hstep (by simp)]
    refine ⟨hphase.of_periph (fun y hy => hy.bus_raise flags) ?_ ?_, hlog⟩
    · rw [hraised.txPacket_eq, link.txPacket_eq]
      rfl
    · rw [hraised.rxPacket_eq, link.rxPacket_eq]
      rfl
  | setup req =>
    rw [hstep (by simp)]
    exact ⟨sendSetup_phase hphase hsend.1 hsend.2 (hprompt req rfl), hlog⟩
  | out data =>
    rw [hstep (by simp)]
    exact ⟨sendOut_phase hphase hsend, hlog⟩
  | ack =>
    rw [hstep (by simp)]
    exact ⟨sendAck_phase hphase hsend, hlog⟩

instance (s : Sys) (e : BusEvent) : Decidable (s.Prompt e) :=
  match e with
  | .setup _  => decidable_of_iff (_ ∧ _) ⟨fun h _ _ => h, fun h => h _ rfl⟩
  | .poll     => .isTrue fun _ h => by cases h
  | .busReset => .isTrue fun _ h => by cases h
  | .raise _  => .isTrue fun _ h => by cases h
  | .out _    => .isTrue fun _ h => by cases h
  | .ack      => .isTrue fun _ h => by cases h

/-- The joint invariant at the start. -/
theorem init_joint (b : Board) : Joint (Sys.init b) where
  phase := .idle false false rxStatValid txStatNak
    (by
      have hlog : (Sys.init b).dev.log = [] := by
        show ((Dev.init b).run [.busReset, .poll]).log = []
        rw [run_busReset]
        rfl
      rw [hlog]
      exact init_link b)
    rfl
    (by
      show settled ((Dev.init b).run [.busReset, .poll]).log = true
      rw [run_busReset]
      rfl)
    (by
      show chunks ((Dev.init b).run [.busReset, .poll]).log = []
      rw [run_busReset]
      rfl)
  log := by
    show LogOk ((Dev.init b).run [.busReset, .poll]).log
    rw [run_busReset]
    exact ⟨allLog_nil _, allLog_nil _⟩

/-- In every phase the host has received what was sent, but for a packet that waits. -/
theorem Phase.delivered {d : Dev} {h : Host} (hphase : Phase d h) :
    chunks d.log = h.received
      ∨ h.stage = .dataIn ∧ ∃ data, chunks d.log = data :: h.received := by
  cases hphase with
  | inWaiting setup link stage req packet received => exact Or.inr ⟨stage, _, received⟩
  | _ => exact Or.inl ‹_›

/-- In every phase a STALL that the host is about to see is on record. -/
theorem Phase.seen {d : Dev} {h : Host} (hphase : Phase d h) (hsees : Sys.SeesStall ⟨d, h⟩) :
    ∃ older, d.log = .stall :: older := by
  have hnever {x : Ep0} (link : Link d.periph x)
      (hin : h.stage = .dataIn ∨ h.stage = .statusIn → x.txStat ≠ txStatStall)
      (hout : h.stage = .dataOut ∨ h.stage = .statusOut → x.rxStat ≠ rxStatStall) :
      ∃ older, d.log = .stall :: older := by
    rcases hsees with ⟨hstage, hstat⟩ | ⟨hstage, hstat⟩
    · exact absurd (link.txStat_eq.symm.trans hstat) (hin hstage)
    · exact absurd (link.rxStat_eq.symm.trans hstat) (hout hstage)
  have hrx : rxStatNak ≠ rxStatStall := by decide
  have hrx' : rxStatValid ≠ rxStatStall := by decide
  have htx : txStatNak ≠ txStatStall := by decide
  have htx' : txStatValid ≠ txStatStall := by decide
  cases hphase with
  | idle setup nak rx tx link stage =>
    exact hnever link (by rw [stage]; simp) (by rw [stage]; simp)
  | setup nak link => exact hnever link (fun _ => htx) (fun _ => hrx)
  | stalled setup nak link stage stalled => exact stalled
  | inWaiting setup link => exact hnever link (fun _ => htx') (fun _ => hrx)
  | inFetched setup link => exact hnever link (fun _ => htx) (fun _ => hrx)
  | inLast setup link => exact hnever link (fun _ => htx) (fun _ => hrx)
  | statusOut setup link => exact hnever link (fun _ => htx) (fun _ => hrx')
  | statusOutDone link => exact hnever link (fun _ => htx) (fun _ => hrx)
  | outWaiting setup link => exact hnever link (fun _ => htx) (fun _ => hrx')
  | outReceived link => exact hnever link (fun _ => htx) (fun _ => hrx)
  | statusIn setup nak rx link stage => exact hnever link (fun _ => htx') (by rw [stage]; simp)
  | statusInDone setup nak rx link stage => exact hnever link (fun _ => htx) (by rw [stage]; simp)

/-- The joint invariant is what transfers are meant to come to, and more. -/
theorem Joint.transfersOk {s : Sys} (h : Joint s) : TransfersOk s := by
  obtain ⟨x, link, hdaddr⟩ := h.phase.link
  exact {
    completed := h.log.completed
    latched := link.daddr.trans hdaddr
    delivered := h.phase.delivered
    refused := h.log.refused
    seen := h.phase.seen }

/-- **Every run** of a compliant host whose SETUP packets find the transfer before them taken
    up: completions come in time, chunks arrive whole and in order, and only what is not
    supported is stalled. -/
theorem run_transfersOk (b : Board) (evs : List BusEvent)
    (h : AllSteps Sys.step (fun s e => s.host.MaySend e ∧ s.Prompt e) (Sys.init b) evs) :
    TransfersOk (run Sys.step (Sys.init b) evs) := by
  have hjoint : Joint (run Sys.step (Sys.init b) evs) := by
    apply run_invariant (I := Joint) _ (init_joint b) h
    intro s e hs hc
    exact step_joint hs hc.1 hc.2
  exact hjoint.transfersOk

/-- The SETUP packet of `SET_ADDRESS`. -/
def setAddressRequest (addr : UInt16) : UsbSetupData :=
  { bmRequestType := 0, bRequest := 5, wValue := addr, wIndex := 0, wLength := 0 }

/-- `SET_ADDRESS` and a `GETSTATUS`, each packet polled. -/
theorem run_transfersOk_setAddress :
    TransfersOk (run Sys.step (Sys.init blankBoard)
      (polled (.setup (setAddressRequest 5) :: .ack :: getstatusPackets))) :=
  run_transfersOk blankBoard _ (by decide +kernel)

/-- The `GETSTATUS` comes before the poll that would have completed `SET_ADDRESS`. -/
def lateCompletion : List BusEvent :=
  [.setup (setAddressRequest 5), .poll, .ack, .setup getstatusRequest, .poll]

/-- Its SETUP packet is taken up first: the transfer before it is not completed, and the
    address is not latched. -/
theorem lateCompletion_lost :
    AllSteps Sys.step (fun s e => s.host.MaySend e) (Sys.init blankBoard) lateCompletion
      ∧ ¬ TransfersOk (run Sys.step (Sys.init blankBoard) lateCompletion) := by
  refine ⟨by decide +kernel, fun h => ?_⟩
  have hlog : (run Sys.step (Sys.init blankBoard) lateCompletion).dev.log
      = [.chunk 0 [0, 0, 0, 0, 2, 0], .dispatched getstatusRequest .handled,
         .setup getstatusRequest,
         .dispatched (setAddressRequest 5) .handled, .setup (setAddressRequest 5)] := by
    decide +kernel
  have hsuffix : [UsbEvent.setup getstatusRequest, .dispatched (setAddressRequest 5) .handled,
      .setup (setAddressRequest 5)] <:+ (run Sys.step (Sys.init blankBoard) lateCompletion).dev.log :=
    ⟨[.chunk 0 [0, 0, 0, 0, 2, 0], .dispatched getstatusRequest .handled], hlog.symm⟩
  have hsettled := h.completed _ _ hsuffix getstatusRequest rfl
  exact absurd hsettled (by decide)

end Stm32F1Dfu
