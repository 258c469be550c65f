import Stm32F1Dfu.Retry
import Stm32F1Dfu.Uploads

namespace Stm32F1Dfu

open Machine PageStore Frames

/-!
# A download that is read back

A host that verifies what it wrote uploads the blocks again and compares.  What it compares are the
packets that it takes from the transmit buffer, whenever it takes them.

* `Dev.fetched` — the bytes that a host takes in a run;
* `run_upload` — one `DFU_UPLOAD`, with any pacing: the bytes of the flash, and an idle device;
* `run_uploads` — any number of them, which leave the flash alone;
* `verify_usb` — the file comes back as it went in.
-/

/-! ### What a host takes -/

/-- The packet of an IN transaction that is acknowledged. -/
def Periph.taken (p : Periph) : BusEvent → List UInt8
  | .ack => if p.enabled = true ∧ (epView (p.reg 0)).txStat = txStatValid then p.txPacket else []
  | _    => []

/-- The bytes that a host takes from endpoint 0 in a run. -/
def Dev.fetched (d : Dev) : List BusEvent → List UInt8
  | []       => []
  | e :: evs => d.periph.taken e ++ (d.step e).fetched evs

theorem Dev.fetched_append (d : Dev) (evs evs' : List BusEvent) :
    d.fetched (evs ++ evs') = d.fetched evs ++ (d.run evs).fetched evs' := by
  induction evs generalizing d with
  | nil => rfl
  | cons e evs ih =>
    rw [List.cons_append, Dev.fetched, Dev.fetched, ih, Dev.run_cons, List.append_assoc]

/-- Nothing is taken in a gap. -/
theorem Dev.fetched_lull (d : Dev) {gap : List BusEvent} (hgap : Lull gap) : d.fetched gap = [] := by
  induction gap generalizing d with
  | nil => rfl
  | cons e gap ih =>
    have hrest : Lull gap := fun e' he' => hgap e' (List.mem_cons_of_mem _ he')
    rw [Dev.fetched, ih _ hrest]
    rcases hgap e (List.mem_cons_self ..) with rfl | ⟨flags, rfl⟩ <;> rfl

/-- With a packet and the gap behind it the packet is. -/
theorem Dev.fetched_packet (d : Dev) (e : BusEvent) {gap : List BusEvent} (hgap : Lull gap) :
    d.fetched (e :: gap) = d.periph.taken e := by
  rw [Dev.fetched, Dev.fetched_lull _ hgap, List.append_nil]

/-- A packet that waits is taken. -/
theorem Link.taken_ack {p : Periph} {x : Ep0} (h : Link p x) (hs : x.txStat = txStatValid) :
    p.taken .ack = p.txPacket :=
  if_pos ⟨h.isEnabled, by rw [h.txStat_eq, hs]⟩

/-! ### Gaps that leave the packet where it is -/

section

variable {d : Dev} {x y : Ep0}

/-- With nothing pending the packet stays in the transmit buffer. -/
theorem run_lull_packet (h : Link d.periph x) (hrx : x.rxCtr = false) (htx : x.txCtr = false)
    (hrun : d.dfu.reset = false) {gap : List BusEvent} (hgap : Lull gap) :
    ∃ p, d.run gap = { d with periph := p } ∧ Link p x ∧ p.txPacket = d.periph.txPacket := by
  induction gap generalizing d with
  | nil => exact ⟨d.periph, rfl, h, rfl⟩
  | cons e gap ih =>
    have hrest : Lull gap := fun e' he' => hgap e' (List.mem_cons_of_mem _ he')
    obtain ⟨p, hstep, hlink, hpacket⟩ : ∃ p, d.step e = { d with periph := p } ∧ Link p x
        ∧ p.txPacket = d.periph.txPacket := by
      rcases hgap e (List.mem_cons_self ..) with rfl | ⟨flags, rfl⟩
      · have hpoll := step_poll_eq h hrun
        rw [hrx, htx] at hpoll
        obtain ⟨hlink, hpacket, -⟩ := endPoll_link h (d.periph.read regIstr)
        exact ⟨_, hpoll, hlink, hpacket⟩
      · have hraise := h.bus_raise flags
        refine ⟨_, step_bus hrun (by simp), hraise, ?_⟩
        rw [hraise.txPacket_eq, h.txPacket_eq]
        rfl
    obtain ⟨p', hrun', hlink', hpacket'⟩ :=
      ih (d := { d with periph := p }) hlink hrun hrest
    rw [Dev.run_cons, hstep]
    exact ⟨p', hrun', hlink', hpacket'.trans hpacket⟩

/-- A packet and its gap, for a `Q` that looks at the transmit buffer too. -/
theorem run_packet_sent {Q : Dev → Prop} {e : BusEvent} (he : e ≠ .poll)
    (hrun : d.dfu.reset = false) (hbus : Link (d.periph.bus e) x)
    (hserve : ∀ p, Same (d.periph.bus e) p x →
      let d' := ({ d with periph := p } : Dev).serve p.served
      Link d'.periph y ∧ d'.dfu.reset = false ∧ Q d')
    (hrx : y.rxCtr = false) (htx : y.txCtr = false)
    (hQ : ∀ d p, p.txPacket = d.periph.txPacket → Q d → Q { d with periph := p })
    {gap : List BusEvent} (hgap : Lull gap) (hpoll : .poll ∈ gap) :
    Link (d.run (e :: gap)).periph y ∧ (d.run (e :: gap)).dfu.reset = false
      ∧ Q (d.run (e :: gap)) := by
  rw [Dev.run_cons, step_bus hrun he]
  generalize hp : d.periph.bus e = p at *
  clear hp
  induction gap generalizing p with
  | nil => exact absurd hpoll List.not_mem_nil
  | cons e' gap ih =>
    have hrest : Lull gap := fun e'' he'' => hgap e'' (List.mem_cons_of_mem _ he'')
    rw [Dev.run_cons]
    rcases hgap e' (List.mem_cons_self ..) with rfl | ⟨flags, rfl⟩
    · -- the first poll: the handler, and nothing is pending any more
      have hstep := step_poll_eq (d := { d with periph := p }) hbus hrun
      rw [← hbus.served] at hstep
      obtain ⟨hlink, hrun', hq⟩ := hserve p ⟨hbus, rfl⟩
      rw [hstep]
      obtain ⟨hend, hpacket, -⟩ := endPoll_link hlink (p.read regIstr)
      obtain ⟨p', hidle, hlink', hpacket'⟩ := run_lull_packet hend hrx htx hrun' hrest
      rw [hidle]
      exact ⟨hlink', hrun', hQ _ _ hpacket' (hQ _ _ hpacket hq)⟩
    · have hraise := hbus.raise_same flags
      rw [step_bus (d := { d with periph := p }) hrun (by simp)]
      refine ih hrest (by simpa using hpoll) (p.bus (.raise flags)) hraise.link ?_
      intro p' hp'
      exact hserve p' ⟨hp'.link, hp'.packet.trans hraise.packet⟩

end

/-! ### One upload -/

/-- The SETUP packet of a `DFU_UPLOAD` of `len` bytes of block `n`. -/
def uploadOf (n len : UInt16) : UsbSetupData := dfuRequest 0xA1 2 n len

theorem uploadOf_isUpload (n len : UInt16) : (uploadOf n len).IsUpload n len :=
  ⟨rfl, rfl, rfl, rfl⟩

/-- The packets with which a host reads `len` bytes of block `n`. -/
def uploadPackets (n len : UInt16) : List BusEvent :=
  .setup (uploadOf n len) :: (List.replicate ((len.toNat + 63) / 64) .ack ++ [.out []])

/-- The driver once the request of the upload was dispatched. -/
def afterUpload (f : Dfu) : Dfu :=
  { f with state := .uploadIdle, log := .request .upload :: f.log }

/-- A packet of an upload waits to be taken, the first of `bytes`. -/
structure Uploading (f : Dfu) (bytes : List UInt8) (d : Dev) : Prop where
  fsm : d.fsm = if d.datasize.toNat = 0 then .lastDataIn else .dataIn
  callback : d.usbCompleteCb = false
  zlp : d.usbNeedsZlp = false
  dfu : d.dfu = f
  bytes : d.periph.txPacket ++ ctrlBytes d.ctrl d.dataoff.toNat d.datasize.toNat = bytes
  inBuffer : d.dataoff.toNat + d.datasize.toNat ≤ 1024

theorem Uploading.periph {f : Dfu} {bytes : List UInt8} {d : Dev} {p : Periph}
    (hpacket : p.txPacket = d.periph.txPacket) (h : Uploading f bytes d) :
    Uploading f bytes { d with periph := p } where
  fsm := h.fsm
  callback := h.callback
  zlp := h.zlp
  dfu := h.dfu
  bytes := by
    show p.txPacket ++ _ = _
    rw [hpacket]
    exact h.bytes
  inBuffer := h.inBuffer

theorem ctrlBytes_append (ctrl : Nat → UInt8) (off m n : Nat) :
    ctrlBytes ctrl off m ++ ctrlBytes ctrl (off + m) n = ctrlBytes ctrl off (m + n) := by
  rw [ctrlBytes, ctrlBytes, ctrlBytes, List.range_add, List.map_append, List.map_map]
  congr 1
  apply List.map_congr_left
  intro i _
  show ctrl (off + m + i) = ctrl (off + (m + i))
  rw [Nat.add_assoc]

section

variable {d : Dev} {f : Dfu} {daddr : BitVec 16} {bytes : List UInt8}

/-- **A chunk** puts the first of the bytes that are left into the transmit buffer. -/
theorem sendChunk_uploading {x : Ep0} (link : Link d.periph x) (hs : x.txStat ≠ txStatValid)
    (hcallback : d.usbCompleteCb = false) (hzlp : d.usbNeedsZlp = false) (hdfu : d.dfu = f)
    (hin : d.dataoff.toNat + d.datasize.toNat ≤ 1024) :
    Link (usbControlSendChunk d).periph { x with txStat := txStatValid }
      ∧ Uploading f (ctrlBytes d.ctrl d.dataoff.toNat d.datasize.toNat) (usbControlSendChunk d)
      ∧ (usbControlSendChunk d).datasize.toNat = d.datasize.toNat - 64 := by
  have h64 : (64 : UInt16).toNat = 64 := rfl
  by_cases hmore : 64 < d.datasize.toNat
  · obtain ⟨p, hlink, hpacket, heq⟩ := usbControlSendChunk_more link hs hmore
    have hle : (64 : UInt16) ≤ d.datasize := UInt16.le_iff_toNat_le.mpr (by omega)
    have hsize : (d.datasize - 64).toNat = d.datasize.toNat - 64 := UInt16.toNat_sub_of_le _ _ hle
    have hoff : (d.dataoff + 64).toNat = d.dataoff.toNat + 64 := by
      rw [UInt16.toNat_add, h64]
      omega
    rw [heq]
    refine ⟨hlink, ⟨?_, hcallback, hzlp, hdfu, ?_, ?_⟩, hsize⟩
    · show UsbFsmState.dataIn = if (d.datasize - 64).toNat = 0 then _ else _
      rw [if_neg (by omega)]
    · show p.txPacket ++ ctrlBytes d.ctrl (d.dataoff + 64).toNat (d.datasize - 64).toNat = _
      rw [hpacket, hoff, hsize, ctrlBytes_append, Nat.add_sub_cancel' (Nat.le_of_lt hmore)]
    · show (d.dataoff + 64).toNat + (d.datasize - 64).toNat ≤ 1024
      omega
  · obtain ⟨p, hlink, hpacket, heq⟩ := usbControlSendChunk_last link hs (by omega)
    rw [heq]
    refine ⟨hlink, ⟨?_, hcallback, rfl, hdfu, ?_, ?_⟩, ?_⟩
    · show (if d.usbNeedsZlp then UsbFsmState.dataIn else .lastDataIn) = _
      rw [hzlp]
      rfl
    · show p.txPacket ++ [] = _
      rw [hpacket, List.append_nil]
    · show d.dataoff.toNat + 0 ≤ 1024
      omega
    · show 0 = d.datasize.toNat - 64
      omega

/-- The copy of the flash that a `DFU_UPLOAD` leaves in the control buffer. -/
def uploadCopy (f : Dfu) (n : UInt16) (ctrl : Nat → UInt8) : Nat → UInt8 :=
  memcpy ctrl (fun i => f.store.flash (blockAddr f.prog.addr n + UInt32.ofNat i)) dfuTransferSize

/-- **The request of an upload** of a block in range copies 1 KB of the flash. -/
theorem dispatch_upload {n len : UInt16} (hreq : d.usbReq = uploadOf n len) (hn : n ≠ 0)
    (hin : inRange (blockAddr d.dfu.prog.addr n) 1024 = true) :
    usbControlRequestDispatch d
      = (.handled, { d with dfu := afterUpload d.dfu, ctrl := uploadCopy d.dfu n d.ctrl,
                            datasize := 1024,
                            log := .dispatched d.usbReq .handled :: d.log }) := by
  have hupload : d.usbReq.IsUpload n len := by
    rw [hreq]
    exact uploadOf_isUpload n len
  have hcode : DfuReq.ofCode d.usbReq.bRequest ≠ none := by
    rw [hupload.bRequest]
    decide
  have hcall := usbdfuControlRequest_upload hupload hn d.dfu d.ctrl d.usbCompleteCb
  rw [if_pos hin] at hcall
  have hdfu : dispatchDfu d
      = (.handled, { d with dfu := afterUpload d.dfu, ctrl := uploadCopy d.dfu n d.ctrl,
                            datasize := 1024 }) := by
    unfold dispatchDfu
    rw [hcall]
    rfl
  unfold usbControlRequestDispatch
  rw [dispatchRequest_class hupload.isClassInterface, if_neg hcode, hdfu]

/-- Its first packet goes into the transmit buffer. -/
theorem setupRead_upload {x : Ep0} {n len : UInt16} (link : Link d.periph x)
    (htx : x.txStat ≠ txStatValid) (hreq : d.usbReq = uploadOf n len)
    (hcallback : d.usbCompleteCb = false) (hdfu : d.dfu = f) (hn : n ≠ 0)
    (hin : inRange (blockAddr f.prog.addr n) 1024 = true) (hlen : len ≠ 0)
    (hle : len.toNat ≤ 1024) :
    Link (usbControlSetupRead d).periph { x with txStat := txStatValid }
      ∧ Uploading (afterUpload f) (f.store.bytes (blockAddr f.prog.addr n) len.toNat)
          (usbControlSetupRead d)
      ∧ (usbControlSetupRead d).datasize.toNat = len.toNat - 64 := by
  subst hdfu
  have hdispatch := dispatch_upload (d := { d with dataoff := 0 }) hreq hn hin
  have hw : d.usbReq.wLength = len := by
    rw [hreq]
    rfl
  -- the reply is cut to what the host asked for, and needs no empty packet
  have hcut : (if (1024 : UInt16) > len then len else 1024) = len := by
    split
    · rfl
    · rename_i hge
      rw [gt_iff_lt, UInt16.lt_iff_toNat_lt] at hge
      have h1024 : (1024 : UInt16).toNat = 1024 := rfl
      exact UInt16.toNat_inj.mp (by omega)
  have hzlp : needsZlp len len bMaxPacketSize0 = false := by
    simp [needsZlp]
  have heq : usbControlSetupRead d = usbControlSendChunk
      { d with dataoff := 0, dfu := afterUpload d.dfu, ctrl := uploadCopy d.dfu n d.ctrl,
               datasize := len, log := .dispatched d.usbReq .handled :: d.log,
               usbNeedsZlp := false } := by
    unfold usbControlSetupRead
    simp only [hdispatch, hw]
    rw [if_pos (by simp), if_pos hlen]
    by_cases hgt : (1024 : UInt16) > len
    · rw [if_pos hgt, hzlp]
    · rw [if_neg hgt] at hcut ⊢
      rw [← hcut] at hzlp ⊢
      rw [hzlp]
  have hbytes : ctrlBytes (uploadCopy d.dfu n d.ctrl) (0 : UInt16).toNat len.toNat
      = d.dfu.store.bytes (blockAddr d.dfu.prog.addr n) len.toNat :=
    ctrlBytes_memcpy d.ctrl d.dfu.store (blockAddr d.dfu.prog.addr n) hle
  rw [heq, ← hbytes]
  exact sendChunk_uploading
    (d := { d with dataoff := 0, dfu := afterUpload d.dfu, ctrl := uploadCopy d.dfu n d.ctrl,
                   datasize := len, log := .dispatched d.usbReq .handled :: d.log,
                   usbNeedsZlp := false })
    link htx hcallback rfl rfl (by show 0 + len.toNat ≤ 1024; omega)

/-- Its SETUP packet. -/
theorem run_upload_setup {n len : UInt16} (h : Idle d f) (hn : n ≠ 0)
    (hin : inRange (blockAddr f.prog.addr n) 1024 = true) (hlen : len ≠ 0)
    (hle : len.toNat ≤ 1024) {gap : List BusEvent} (hgap : Lull gap) (hpoll : .poll ∈ gap) :
    ∃ daddr, let d' := d.run (.setup (uploadOf n len) :: gap)
      Link d'.periph ⟨⟨false, false, true, rxStatNak, txStatValid⟩, true, daddr⟩
        ∧ d'.dfu.reset = false
        ∧ Uploading (afterUpload f) (f.store.bytes (blockAddr f.prog.addr n) len.toNat) d'
        ∧ d'.datasize.toNat = len.toNat - 64 := by
  obtain ⟨⟨setup, rx, tx, nak, daddr, link, hrx⟩, hdfu, hrun⟩ := h
  obtain ⟨hbus, hpacket⟩ := link.bus_setup (uploadOf n len) hrx
  refine ⟨daddr, run_packet_sent
    (Q := fun d' => Uploading (afterUpload f)
        (f.store.bytes (blockAddr f.prog.addr n) len.toNat) d'
      ∧ d'.datasize.toNat = len.toNat - 64)
    (by simp) (by rw [hdfu]; exact hrun) hbus ?_ rfl rfl ?_ hgap hpoll⟩
  · intro p hp
    have hserved : p.served = .setup := hp.link.served
    obtain ⟨p', hlink, heq⟩ := usbdControlSetup_eq (d := { d with periph := p }) hp.link
      (hp.packet.trans hpacket)
    have hread : (uploadOf n len).isRead = true := (uploadOf_isUpload n len).isRead
    rw [hread, if_pos rfl] at heq
    obtain ⟨hlink', hsending, hsize⟩ := setupRead_upload
      (d := { d with usbCompleteCb := false, periph := p', usbReq := uploadOf n len,
                     log := .setup (uploadOf n len) :: d.log })
      hlink txStatNak_ne_valid rfl rfl hdfu hn hin hlen hle
    rw [hserved]
    show Link (usbdControlSetup { d with periph := p }).periph _
      ∧ (usbdControlSetup { d with periph := p }).dfu.reset = false
      ∧ Uploading _ _ (usbdControlSetup { d with periph := p })
      ∧ (usbdControlSetup { d with periph := p }).datasize.toNat = _
    rw [heq]
    refine ⟨hlink', ?_, hsending, hsize⟩
    rw [hsending.dfu]
    exact hrun
  · intro d p hpacket hq
    exact ⟨hq.1.periph hpacket, hq.2⟩

/-- **A packet before the last one** is taken, and the next one follows. -/
theorem run_upload_more
    (link : Link d.periph ⟨⟨false, false, true, rxStatNak, txStatValid⟩, true, daddr⟩)
    (hrun : d.dfu.reset = false) (h : Uploading f bytes d) (hleft : d.datasize.toNat ≠ 0)
    {gap : List BusEvent} (hgap : Lull gap) (hpoll : .poll ∈ gap) :
    let d' := d.run (.ack :: gap)
    ∃ rest, bytes = d.periph.txPacket ++ rest
      ∧ Link d'.periph ⟨⟨false, false, true, rxStatNak, txStatValid⟩, true, daddr⟩
      ∧ d'.dfu.reset = false ∧ Uploading f rest d'
      ∧ d'.datasize.toNat = d.datasize.toNat - 64 := by
  have hbus := link.bus_ack rfl
  refine ⟨ctrlBytes d.ctrl d.dataoff.toNat d.datasize.toNat, h.bytes.symm, ?_⟩
  refine run_packet_sent
    (Q := fun d' => Uploading f (ctrlBytes d.ctrl d.dataoff.toNat d.datasize.toNat) d'
      ∧ d'.datasize.toNat = d.datasize.toNat - 64)
    (by simp) hrun hbus ?_ rfl rfl ?_ hgap hpoll
  · intro p hp
    have hserved : p.served = .tx := hp.link.served
    have hfsm : d.fsm = .dataIn := h.fsm.trans (if_neg hleft)
    have hclear := hp.link.clrTxCtr
    rw [hserved]
    simp only [Dev.serve, hp.link.servedEp, usbdControlIn, hfsm]
    obtain ⟨hlink, hsending, hsize⟩ := sendChunk_uploading
      (d := { d with periph := usbClrEpTxCtr p 0, fsm := .dataIn }) hclear txStatNak_ne_valid
      h.callback h.zlp h.dfu h.inBuffer
    refine ⟨hlink, ?_, hsending, hsize⟩
    rw [hsending.dfu, ← h.dfu]
    exact hrun
  · intro d p hpacket hq
    exact ⟨hq.1.periph hpacket, hq.2⟩

/-- **The last packet** is taken: the device waits for the status stage. -/
theorem run_upload_last
    (link : Link d.periph ⟨⟨false, false, true, rxStatNak, txStatValid⟩, true, daddr⟩)
    (hrun : d.dfu.reset = false) (h : Uploading f bytes d) (hleft : d.datasize.toNat = 0)
    {gap : List BusEvent} (hgap : Lull gap) (hpoll : .poll ∈ gap) :
    let d' := d.run (.ack :: gap)
    bytes = d.periph.txPacket
      ∧ Link d'.periph ⟨⟨false, false, true, rxStatValid, txStatNak⟩, false, daddr⟩
      ∧ d'.dfu.reset = false
      ∧ d'.fsm = .statusOut ∧ d'.usbCompleteCb = false ∧ d'.dfu = f := by
  have hbus := link.bus_ack rfl
  refine ⟨?_, ?_⟩
  · have hbytes := h.bytes
    rw [hleft] at hbytes
    exact hbytes.symm.trans (List.append_nil _)
  refine run_packet (Q := fun d' => d'.fsm = .statusOut ∧ d'.usbCompleteCb = false ∧ d'.dfu = f)
    (by simp) hrun hbus ?_ rfl rfl (fun _ _ hq => hq) hgap hpoll
  intro p hp
  have hserved : p.served = .tx := hp.link.served
  have hfsm : d.fsm = .lastDataIn := h.fsm.trans (if_pos hleft)
  rw [hserved]
  simp only [Dev.serve, hp.link.servedEp, usbdControlIn, hfsm]
  exact ⟨hp.link.clrTxCtr.nakSet false, hrun, trivial, h.callback, h.dfu⟩

/-- The packet of its status stage, behind which there is no callback. -/
theorem run_upload_status
    (link : Link d.periph ⟨⟨false, false, true, rxStatValid, txStatNak⟩, false, daddr⟩)
    (hrun : d.dfu.reset = false) (hfsm : d.fsm = .statusOut) (hcallback : d.usbCompleteCb = false)
    (hdfu : d.dfu = f) {gap : List BusEvent} (hgap : Lull gap) (hpoll : .poll ∈ gap) :
    Idle (d.run (.out [] :: gap)) f := by
  have hempty : ([] : List UInt8).length ≤ 96 := Nat.zero_le _
  obtain ⟨hbus, -⟩ := link.bus_out rfl hempty
  obtain ⟨hlink, hrun', hdfu'⟩ : Link (d.run (.out [] :: gap)).periph
      ⟨⟨false, false, false, rxStatValid, txStatNak⟩, false, daddr⟩
      ∧ (d.run (.out [] :: gap)).dfu.reset = false ∧ (d.run (.out [] :: gap)).dfu = f := by
    refine run_packet (Q := fun d' => d'.dfu = f) (by simp) hrun hbus ?_ rfl rfl (fun _ _ hq => hq)
      hgap hpoll
    intro p hp
    have hserved : p.served = .out := hp.link.served
    obtain ⟨p', hread, hlink⟩ := hp.link.readPacket rxStatNak_ne_valid (fun _ => 0) 0
    rw [hserved]
    simp only [Dev.serve, usbdControlOut, hfsm, hread, completeTransfer, hcallback,
      Bool.false_eq_true, if_false]
    exact ⟨hlink, hrun, hdfu⟩
  rw [hdfu'] at hrun'
  exact ⟨⟨_, _, _, _, _, hlink, by decide⟩, hdfu', hrun'⟩

/-- **The data stage**: by induction on the packets that are left, which together are the bytes. -/
theorem run_upload_data (n : Nat) {d : Dev} {bytes : List UInt8}
    (link : Link d.periph ⟨⟨false, false, true, rxStatNak, txStatValid⟩, true, daddr⟩)
    (hrun : d.dfu.reset = false) (h : Uploading f bytes d)
    (hn : (d.datasize.toNat + 63) / 64 = n) {evs : List BusEvent}
    (hpaced : Paced (List.replicate (n + 1) .ack) evs) :
    d.fetched evs = bytes
      ∧ Link (d.run evs).periph ⟨⟨false, false, true, rxStatValid, txStatNak⟩, false, daddr⟩
      ∧ (d.run evs).dfu.reset = false ∧ (d.run evs).fsm = .statusOut
      ∧ (d.run evs).usbCompleteCb = false ∧ (d.run evs).dfu = f := by
  induction n generalizing d bytes evs with
  | zero =>
    cases hpaced with
    | cons _ lull polled rest =>
      cases rest
      obtain ⟨hbytes, hend⟩ := run_upload_last link hrun h (by omega) lull polled
      rw [List.append_nil]
      refine ⟨?_, hend⟩
      rw [Dev.fetched_packet d .ack lull, link.taken_ack rfl, hbytes]
  | succ n ih =>
    cases hpaced with
    | cons _ lull polled rest =>
      rename_i gap evs'
      obtain ⟨left, hbytes, hlink, hrun', hnext, hsize⟩ :=
        run_upload_more link hrun h (by omega) lull polled
      obtain ⟨hfetched, hend⟩ := ih hlink hrun' hnext (by omega) rest
      rw [← Dev.run_append] at hend
      refine ⟨?_, hend⟩
      rw [Dev.fetched_append, hfetched, Dev.fetched_packet d .ack lull, link.taken_ack rfl, hbytes]

end

/-- **An upload** of a block in range: the host takes the bytes of the flash, and the device is
    idle again with the flash and the address pointer as they were. -/
theorem run_upload {d : Dev} {f : Dfu} {n len : UInt16} (h : Idle d f) (hn : n ≠ 0)
    (hin : inRange (blockAddr f.prog.addr n) 1024 = true) (hlen : len ≠ 0)
    (hle : len.toNat ≤ 1024) {evs : List BusEvent} (hpaced : Paced (uploadPackets n len) evs) :
    d.fetched evs = f.store.bytes (blockAddr f.prog.addr n) len.toNat
      ∧ Idle (d.run evs) (afterUpload f) := by
  have hpos := uint16_pos hlen
  have hcount : (len.toNat + 63) / 64 = (len.toNat - 64 + 63) / 64 + 1 := by omega
  unfold uploadPackets at hpaced
  rw [hcount] at hpaced
  cases hpaced with
  | cons _ lull polled rest =>
    rename_i gap tail
    obtain ⟨evs₁, evs₂, rfl, hdata, hstatus⟩ := rest.split
    obtain ⟨daddr, hlink, hrun, hopen, hsize⟩ := run_upload_setup h hn hin hlen hle lull polled
    obtain ⟨hfetched, hlink', hrun', hfsm, hcallback, hdfu⟩ :=
      run_upload_data _ hlink hrun hopen (by rw [hsize]) hdata
    cases hstatus with
    | cons _ lull' polled' rest' =>
      cases rest'
      have hidle := run_upload_status hlink' hrun' hfsm hcallback hdfu lull' polled'
      rw [List.append_nil, ← List.append_assoc, Dev.fetched_append, Dev.fetched_append,
        Dev.run_append, Dev.run_append, Dev.run_append]
      refine ⟨?_, hidle⟩
      rw [Dev.fetched_packet d _ lull, Dev.fetched_packet _ _ lull', hfetched]
      exact List.append_nil _

/-! ### A file -/

/-- The block numbers and lengths of a read of `len` bytes from the address pointer on. -/
def readBlocks (len : Nat) : List (UInt16 × UInt16) :=
  (List.range (pagesOf len)).map fun i =>
    (UInt16.ofNat (i + 2), UInt16.ofNat (min 1024 (len - 1024 * i)))

/-- The packets of uploads in a row. -/
def uploadsPackets (blocks : List (UInt16 × UInt16)) : List BusEvent :=
  blocks.flatMap fun b => uploadPackets b.1 b.2

/-- **Uploads in a row** of blocks in range: what the host takes is in the flash, and stays there. -/
theorem run_uploads {d : Dev} {f : Dfu} (h : Idle d f) {blocks : List (UInt16 × UInt16)}
    (hin : ∀ b ∈ blocks, b.1 ≠ 0 ∧ inRange (blockAddr f.prog.addr b.1) 1024 = true
      ∧ b.2 ≠ 0 ∧ b.2.toNat ≤ 1024)
    {evs : List BusEvent} (hpaced : Paced (uploadsPackets blocks) evs) :
    d.fetched evs = blocks.flatMap (fun b => f.store.bytes (blockAddr f.prog.addr b.1) b.2.toNat)
      ∧ ∃ f', Idle (d.run evs) f' ∧ f'.store = f.store ∧ f'.prog = f.prog := by
  induction blocks generalizing d f evs with
  | nil =>
    cases hpaced
    exact ⟨rfl, f, h, rfl, rfl⟩
  | cons b blocks ih =>
    obtain ⟨hn, hrange, hlen, hle⟩ := hin b (List.mem_cons_self ..)
    have hboth : Paced (uploadPackets b.1 b.2 ++ uploadsPackets blocks) evs := hpaced
    obtain ⟨evs₁, evs₂, rfl, hfirst, hrest⟩ := hboth.split
    obtain ⟨hfetched, hidle⟩ := run_upload h hn hrange hlen hle hfirst
    obtain ⟨hfetched', f', hidle', hstore, hprog⟩ :=
      ih hidle (fun b' hb' => hin b' (List.mem_cons_of_mem _ hb')) hrest
    rw [← Dev.run_append] at hidle'
    refine ⟨?_, f', hidle', hstore, hprog⟩
    rw [Dev.fetched_append, hfetched, hfetched', List.flatMap_cons]
    rfl

/-- The blocks of a read from the start of the application are in range. -/
theorem readBlocks_inRange {len : Nat} (hlen : len ≤ 122880) :
    ∀ b ∈ readBlocks len, b.1 ≠ 0 ∧ inRange (blockAddr appAddress b.1) 1024 = true
      ∧ b.2 ≠ 0 ∧ b.2.toNat ≤ 1024 := by
  intro b hb
  obtain ⟨i, hi, rfl⟩ := List.mem_map.mp hb
  rw [List.mem_range, pagesOf] at hi
  have hzero : (0 : UInt16).toNat = 0 := rfl
  have hsize : (UInt16.ofNat (min 1024 (len - 1024 * i))).toNat = min 1024 (len - 1024 * i) := by
    rw [UInt16.toNat_ofNat']
    omega
  refine ⟨fun h0 => ?_, ?_, fun h0 => ?_, ?_⟩
  · have hnum := congrArg UInt16.toNat h0
    rw [UInt16.toNat_ofNat', hzero] at hnum
    omega
  · rw [inRange_iff (by decide), blockAddr_appAddress (by omega), appAddress_toNat]
    left
    show 0x08002000 ≤ 0x08002000 + 1024 * i ∧ 0x08002000 + 1024 * i + 1024 ≤ 0x08020000
    omega
  · have hnum := congrArg UInt16.toNat h0
    rw [hsize, hzero] at hnum
    omega
  · rw [hsize]
    omega

/-- Block by block, the bytes of a file that is in the flash. -/
theorem readBlocks_bytes {s : Store} {out : List UInt8} (hlen : out.length ≤ 122880)
    (hflash : ∀ i < out.length, s.flash (appAddress + UInt32.ofNat i) = out.getD i 0) :
    (readBlocks out.length).flatMap (fun b => s.bytes (blockAddr appAddress b.1) b.2.toNat)
      = out := by
  have hblock : ∀ i ∈ List.range (pagesOf out.length),
      s.bytes (blockAddr appAddress (UInt16.ofNat (i + 2)))
        (UInt16.ofNat (min 1024 (out.length - 1024 * i))).toNat = frame 1024 out i := by
    intro i hi
    rw [List.mem_range, pagesOf] at hi
    have hsize : (UInt16.ofNat (min 1024 (out.length - 1024 * i))).toNat
        = min 1024 (out.length - 1024 * i) := by
      rw [UInt16.toNat_ofNat']
      omega
    rw [hsize]
    apply List.ext_getElem
    · rw [length_frame, Store.bytes, List.length_map, List.length_range]
    · intro j hj hj'
      rw [length_frame] at hj'
      have haddr : blockAddr appAddress (UInt16.ofNat (i + 2)) + UInt32.ofNat j
          = appAddress + UInt32.ofNat (1024 * i + j) := by
        apply UInt32.toNat_inj.mp
        have hbase := blockAddr_appAddress (i := i) (by omega)
        rw [appAddress_toNat] at hbase
        rw [toNat_add_ofNat (by omega), toNat_add_ofNat (by rw [appAddress_toNat]; omega), hbase,
          appAddress_toNat, Nat.add_assoc]
      have hbyte := hflash (1024 * i + j) (by omega)
      simp only [Store.bytes, List.getElem_map, List.getElem_range, haddr, hbyte, frame,
        List.getElem_take, List.getElem_drop]
      exact List.getD_eq_getElem _ _ (by omega)
  have hframes : (readBlocks out.length).flatMap
        (fun b => s.bytes (blockAddr appAddress b.1) b.2.toNat)
      = ((List.range (pagesOf out.length)).map (frame 1024 out)).flatten := by
    rw [readBlocks, List.flatMap_map, List.flatMap_def]
    congr 1
    exact List.map_congr_left hblock
  rw [hframes, flatten_range, List.take_of_length_le]
  rw [pagesOf]
  omega

/-- **What is downloaded is read back.**  After any run of the USB loop that leaves nothing to be
    served, a host downloads a file, by any commands and blocks whose last word on each page is the
    file's, sets the address pointer to the application and uploads as many bytes as the file has.
    With any pacing it takes exactly the file, and the uploads leave the flash as it is. -/
theorem verify_usb (b : Board) (hbuild : b.safeWrite = false) (past : List BusEvent)
    (hinside : AllSteps Dev.step (fun d e => ¬ ReachesOutside d e) (Dev.init b) past)
    (henabled : ((Dev.init b).run past).periph.enabled = true)
    (hrun : ((Dev.init b).run past).dfu.reset = false)
    (hquiet : ((Dev.init b).run past).periph.served = .nothing) (out : List UInt8)
    (hfit : out.length ≤ 122880) {a : PageAddr} {n k : ℕ} {cmds : List (DfuseCmd × ℕ)}
    (hin : ForApp a (cmds.map Prod.fst)) (hout : Delivered out (.setaddr a :: cmds.map Prod.fst))
    {evs₁ evs₂ evs₃ : List BusEvent}
    (hdown : Paced (sessionPackets ((.setaddr a, n) :: cmds)) evs₁)
    (hpoint : Paced ((DfuseCmd.setaddr ⟨appAddress, by decide⟩).packets k) evs₂)
    (hup : Paced (uploadsPackets (readBlocks out.length)) evs₃) :
    let d := ((Dev.init b).run past).run (evs₁ ++ evs₂)
    d.fetched evs₃ = out ∧ (d.run evs₃).dfu.store = d.dfu.store := by
  intro d
  have hidle := run_idle b hinside henabled hrun hquiet
  have hsafe := (run_build (Dev.init b) past).trans hbuild
  obtain ⟨f, addr, hidle', hsim⟩ := run_session_again hidle hsafe hin hdown
  obtain ⟨f', hidle'', hpages, haddr, -⟩ := run_command hidle' hsim
    (c := .setaddr ⟨appAddress, by decide⟩) (fun _ h => absurd h (by simp [DfuseCmd.target])) hpoint
  rw [← Dev.run_append] at hidle''
  -- the file is in the flash, and the address pointer before it
  have hpointer : f'.prog.addr = appAddress := haddr
  have hflash (i : Nat) (hi : i < out.length) :
      f'.store.flash (appAddress + UInt32.ofNat i) = out.getD i 0 := by
    obtain ⟨op, hlast, hcontent⟩ := hout i hi
    have hops : pageOps ⟨0, rfl⟩ (.setaddr a :: cmds.map Prod.fst)
        = pageOps a (cmds.map Prod.fst) := rfl
    rw [hops] at hlast
    have hkept : Holds f'.store.flash (PageStore.run 0xFF
        (flashPages ((Dev.init b).run past).dfu.store.flash) (pageOps a (cmds.map Prod.fst))) :=
      hpages
    rw [hkept, run_eq_last, hlast]
    exact hcontent
  obtain ⟨hfetched, f'', hend, hstore, -⟩ :=
    run_uploads hidle'' (by rw [hpointer]; exact readBlocks_inRange hfit) hup
  rw [hpointer, readBlocks_bytes hfit hflash] at hfetched
  exact ⟨hfetched, by rw [hend.dfu, hidle''.dfu, hstore]⟩

/-- The release is downloaded after all, and read back. -/
theorem verify_usb_twiceAbandoned :
    let d := ((Dev.init blankBoard).run twiceAbandoned).run
      (polled (sessionPackets ((.setaddr ⟨appAddress, by decide⟩, 0) :: nineWordsBlocks))
        ++ polled ((DfuseCmd.setaddr ⟨appAddress, by decide⟩).packets 1))
    d.fetched (polled (uploadsPackets (readBlocks 36))) = nineWordsRelease
      ∧ (d.run (polled (uploadsPackets (readBlocks 36)))).dfu.store = d.dfu.store := by
  obtain ⟨happ, hdelivered⟩ := downloadCmds_delivered nineWordsRelease (by decide) (by decide)
  refine verify_usb blankBoard rfl twiceAbandoned (by decide +kernel) (by decide +kernel)
    (by decide +kernel) (by decide +kernel) nineWordsRelease (by decide) ?_ ?_ (paced_polled _)
    (paced_polled _) (paced_polled _)
  · rw [nineWordsBlocks_cmds]
    exact happ.2
  · rw [nineWordsBlocks_cmds]
    exact hdelivered

end Stm32F1Dfu
