import Stm32F1Dfu.Stages
import Stm32F1Dfu.Transfers

namespace Stm32F1Dfu

/-!
# Transfers that are polled

What the transfers of a DFU host come to on a device whose packets are each polled before the
next one arrives, however often it is polled and whatever flags rise in between.

* `Paced` — packets with such gaps between them;
* `run_packet` — one packet and its gap: the handler of what it makes pending, and no more;
* `run_dnload` — a `DFU_DNLOAD` stores its bytes;
* `run_getstatus` — a `DFU_GETSTATUS` completes.
-/

/-! ### Gaps -/

/-- Polls, and flags that rise. -/
def Lull (evs : List BusEvent) : Prop := ∀ e ∈ evs, e = .poll ∨ ∃ flags, e = .raise flags

/-- Packets, each with polls behind it, at least one, and flags that rise in between. -/
inductive Paced : List BusEvent → List BusEvent → Prop
  | nil : Paced [] []
  | cons (e : BusEvent) {gap packets evs : List BusEvent} (lull : Lull gap) (polled : .poll ∈ gap)
      (rest : Paced packets evs) : Paced (e :: packets) (e :: gap ++ evs)

/-- The packets of two transfers, one after the other. -/
theorem Paced.split {ps qs evs : List BusEvent} (h : Paced (ps ++ qs) evs) :
    ∃ evs₁ evs₂, evs = evs₁ ++ evs₂ ∧ Paced ps evs₁ ∧ Paced qs evs₂ := by
  induction ps generalizing evs with
  | nil => exact ⟨[], evs, rfl, .nil, h⟩
  | cons p ps ih =>
    cases h with
    | cons _ lull polled rest =>
      rename_i gap tail
      obtain ⟨evs₁, evs₂, rfl, h₁, h₂⟩ := ih rest
      refine ⟨p :: gap ++ evs₁, evs₂, ?_, .cons p lull polled h₁, h₂⟩
      simp

/-- One poll behind each packet. -/
theorem paced_polled (packets : List BusEvent) : Paced packets (polled packets) := by
  induction packets with
  | nil => exact .nil
  | cons e packets ih =>
    have hlull : Lull [.poll] := by
      intro e' he'
      exact Or.inl (List.mem_singleton.mp he')
    exact .cons e hlull (List.mem_singleton_self _) ih

/-- The state of endpoint 0 and the packet in its receive buffer are as they were. -/
structure Same (p p' : Periph) (x : Ep0) : Prop where
  link : Link p' x
  packet : p'.rxPacket = p.rxPacket

/-- A flag that rises, and the flags a poll clears, are none of endpoint 0's. -/
theorem Link.raise_same {p : Periph} {x : Ep0} (h : Link p x) (flags : BitVec 16) :
    Same p (p.bus (.raise flags)) x where
  link := h.bus_raise flags
  packet := by
    rw [(h.bus_raise flags).rxPacket_eq, h.rxPacket_eq]
    rfl

section

variable {d : Dev} {x y : Ep0}

/-- **With nothing pending** polls do nothing to the device but for its peripheral. -/
theorem run_lull (h : Link d.periph x) (hrx : x.rxCtr = false) (htx : x.txCtr = false)
    (hrun : d.dfu.reset = false) {gap : List BusEvent} (hgap : Lull gap) :
    ∃ p, d.run gap = { d with periph := p } ∧ Link p x := by
  induction gap generalizing d with
  | nil => exact ⟨d.periph, rfl, h⟩
  | cons e gap ih =>
    have hrest : Lull gap := fun e' he' => hgap e' (List.mem_cons_of_mem _ he')
    obtain ⟨p, hstep, hlink⟩ : ∃ p, d.step e = { d with periph := p } ∧ Link p x := by
      rcases hgap e (List.mem_cons_self ..) with rfl | ⟨flags, rfl⟩
      · have hpoll := step_poll_eq h hrun
        rw [hrx, htx] at hpoll
        exact ⟨_, hpoll, (endPoll_link h _).1⟩
      · exact ⟨_, step_bus hrun (by simp), h.bus_raise flags⟩
    rw [Dev.run_cons, hstep]
    exact ih (d := { d with periph := p }) hlink hrun hrest

/-- **A gap behind a packet.**  What the packet made pending is served once; `Q` says what
    the handler leaves, without looking at the peripheral. -/
theorem run_gap {Q : Dev → Prop} (h : Link d.periph x) (hrun : d.dfu.reset = false)
    (hserve : ∀ p, Same d.periph p x →
      let d' := ({ d with periph := p } : Dev).serve p.served
      Link d'.periph y ∧ d'.dfu.reset = false ∧ Q d')
    (hrx : y.rxCtr = false) (htx : y.txCtr = false) (hQ : ∀ d p, Q d → Q { d with periph := p })
    {gap : List BusEvent} (hgap : Lull gap) (hpoll : .poll ∈ gap) :
    Link (d.run gap).periph y ∧ (d.run gap).dfu.reset = false ∧ Q (d.run gap) := by
  induction gap generalizing d with
  | nil => exact absurd hpoll List.not_mem_nil
  | cons e gap ih =>
    have hrest : Lull gap := fun e' he' => hgap e' (List.mem_cons_of_mem _ he')
    rw [Dev.run_cons]
    rcases hgap e (List.mem_cons_self ..) with rfl | ⟨flags, rfl⟩
    · -- the first poll: the handler, and nothing is pending any more
      have hstep := step_poll_eq h hrun
      rw [← h.served] at hstep
      obtain ⟨hlink, hrun', hq⟩ := hserve d.periph ⟨h, rfl⟩
      rw [hstep]
      obtain ⟨p, hidle, hlink'⟩ := run_lull (endPoll_link hlink (d.periph.read regIstr)).1 hrx htx
        hrun' hrest
      rw [hidle]
      exact ⟨hlink', hrun', hQ _ _ (hQ _ _ hq)⟩
    · have hraise := h.raise_same flags
      rw [step_bus hrun (by simp)]
      refine ih (d := { d with periph := d.periph.bus (.raise flags) }) hraise.link hrun ?_ hrest ?_
      · intro p hp
        exact hserve p ⟨hp.link, hp.packet.trans hraise.packet⟩
      · simpa using hpoll

/-- **A packet and its gap.** -/
theorem run_packet {Q : Dev → Prop} {e : BusEvent} (he : e ≠ .poll) (hrun : d.dfu.reset = false)
    (hbus : Link (d.periph.bus e) x)
    (hserve : ∀ p, Same (d.periph.bus e) p x →
      let d' := ({ d with periph := p } : Dev).serve p.served
      Link d'.periph y ∧ d'.dfu.reset = false ∧ Q d')
    (hrx : y.rxCtr = false) (htx : y.txCtr = false) (hQ : ∀ d p, Q d → Q { d with periph := p })
    {gap : List BusEvent} (hgap : Lull gap) (hpoll : .poll ∈ gap) :
    Link (d.run (e :: gap)).periph y ∧ (d.run (e :: gap)).dfu.reset = false
      ∧ Q (d.run (e :: gap)) := by
  rw [Dev.run_cons, step_bus hrun he]
  exact run_gap (d := { d with periph := d.periph.bus e }) hbus hrun hserve hrx htx hQ hgap hpoll

end

/-! ### Between transfers -/

/-- A device that runs, with nothing pending and the driver `f`. -/
structure Idle (d : Dev) (f : Dfu) : Prop where
  link : ∃ setup rx tx nak daddr,
    Link d.periph ⟨⟨false, false, setup, rx, tx⟩, nak, daddr⟩ ∧ rx ≠ rxStatDisabled
  dfu : d.dfu = f
  runs : f.reset = false

/-- The device is idle once the bus reset is handled. -/
theorem init_idle (b : Board) :
    Idle ((Dev.init b).run [.busReset, .poll]) (Dfu.init b.safeWrite b.store) where
  link := ⟨false, rxStatValid, txStatNak, false, usbDaddrEf, init_link b, by decide⟩
  dfu := by
    rw [run_busReset]
    rfl
  runs := rfl

/-! ### `DFU_DNLOAD` -/

/-- A write with its first `count` bytes in. -/
structure Receiving (f : Dfu) (req : UsbSetupData) (data : List UInt8) (count : Nat) (d : Dev) :
    Prop where
  fsm : d.fsm = outFsm data.length count
  req : d.usbReq = req
  size : d.datasize.toNat = count
  callback : d.usbCompleteCb = false
  dfu : d.dfu = f
  bytes : ∀ i < count, d.ctrl i = data.getD i 0

/-- A write whose request was carried out by the driver. -/
structure Answering (f : Dfu) (d : Dev) : Prop where
  fsm : d.fsm = .statusIn
  type : d.usbReq.bmRequestType ≠ 0
  callback : d.usbCompleteCb = false
  dfu : d.dfu = f

/-- The driver `f'` is `f` with the bytes `data` stored as the download `blocknum`. -/
def Stored (f : Dfu) (blocknum : UInt16) (data : List UInt8) (f' : Dfu) : Prop :=
  ∃ p, f' = { f with prog := p, state := .dnloadSync, log := .dnload p :: f.log }
    ∧ p.addr = f.prog.addr ∧ p.blocknum = blocknum ∧ p.len.toNat = data.length
    ∧ ∀ i < data.length, p.buf i = data.getD i 0

theorem dnloadRequest_wLength (blocknum : UInt16) {data : List UInt8} (hle : data.length ≤ 1024) :
    (dnloadRequest blocknum (UInt16.ofNat data.length)).wLength.toNat = data.length := by
  show (UInt16.ofNat data.length).toNat = _
  rw [UInt16.toNat_ofNat']
  omega

theorem length_ne_zero {data : List UInt8} (hpos : 0 < data.length) (hle : data.length ≤ 1024) :
    UInt16.ofNat data.length ≠ 0 := by
  intro h0
  have hzero := congrArg UInt16.toNat h0
  rw [UInt16.toNat_ofNat', UInt16.toNat_zero] at hzero
  omega

/-- Bytes placed behind the first `count` ones are the next ones. -/
theorem place_bytes {ctrl : Nat → UInt8} {data packet : List UInt8} {count : Nat}
    (h : ∀ i < count, ctrl i = data.getD i 0)
    (hp : ∀ i < packet.length, packet.getD i 0 = data.getD (count + i) 0) :
    ∀ i < count + packet.length, place ctrl count packet i = data.getD i 0 := by
  intro i hi
  unfold place
  by_cases hc : i < count
  · rw [if_neg (by omega), h i hc]
  · rw [if_pos (by omega), hp _ (by omega)]
    congr 1
    omega

/-- The driver once the request of a non-empty `DFU_DNLOAD` was dispatched. -/
def afterDnload (d : Dev) : Dfu :=
  let p := storeProg d.dfu.prog d.ctrl d.usbReq.wValue d.usbReq.wLength
  { d.dfu with prog := p, state := .dnloadSync, log := .dnload p :: d.dfu.log }

/-- **The request of a `DFU_DNLOAD`** is handled by the driver. -/
theorem dispatch_dnload {d : Dev} {blocknum len : UInt16} (hreq : d.usbReq = dnloadRequest blocknum len)
    (hlen : len ≠ 0) :
    usbControlRequestDispatch d
      = (.handled, { d with dfu := afterDnload d, datasize := d.usbReq.wLength,
                            log := .dispatched d.usbReq .handled :: d.log }) := by
  have hclass : d.usbReq.isClassInterface = true := by
    rw [hreq]
    show ((0x21 : UInt8) &&& 0x7F == 0x21) = true
    decide
  have hcode : DfuReq.ofCode d.usbReq.bRequest = some .dnload := by
    rw [hreq]
    rfl
  have hne : d.usbReq.wLength ≠ 0 := by
    rw [hreq]
    exact hlen
  have hdfu : dispatchDfu d
      = (.handled, { d with dfu := afterDnload d, datasize := d.usbReq.wLength }) := by
    unfold dispatchDfu usbdfuControlRequest
    rw [hcode]
    simp only [if_neg hne]
    rfl
  unfold usbControlRequestDispatch
  rw [dispatchRequest_class hclass, hcode, if_neg (by simp), hdfu]

/-- What it stores are the bytes that are in. -/
theorem Receiving.stored {f : Dfu} {blocknum : UInt16} {data : List UInt8} {d : Dev}
    (h : Receiving f (dnloadRequest blocknum (UInt16.ofNat data.length)) data data.length d)
    (hle : data.length ≤ 1024) : Stored f blocknum data (afterDnload d) := by
  have hlen : d.usbReq.wLength.toNat = data.length := by
    rw [h.req, dnloadRequest_wLength blocknum hle]
  refine ⟨storeProg d.dfu.prog d.ctrl d.usbReq.wValue d.usbReq.wLength, ?_, ?_, ?_, ?_, ?_⟩
  · rw [← h.dfu]
    rfl
  · rw [← h.dfu]
    rfl
  · show d.usbReq.wValue = blocknum
    rw [h.req]
    rfl
  · rw [storeProg_len, hlen]
    omega
  · intro i hi
    have hcut : ¬ d.usbReq.wLength.toNat > dfuTransferSize := by
      rw [hlen]
      exact Nat.not_lt.mpr hle
    show memcpy d.dfu.prog.buf d.ctrl (if d.usbReq.wLength.toNat > dfuTransferSize
      then (1024 : UInt16) else d.usbReq.wLength).toNat i = _
    rw [if_neg hcut, hlen, memcpy, if_pos hi, h.bytes i hi]

section

variable {d : Dev} {f : Dfu} {blocknum : UInt16} {data : List UInt8} {daddr : BitVec 16}

/-- Its SETUP packet opens the data stage. -/
theorem run_dnload_setup (blocknum : UInt16) (h : Idle d f) (hpos : 0 < data.length) (hle : data.length ≤ 1024)
    {gap : List BusEvent} (hgap : Lull gap) (hpoll : .poll ∈ gap) :
    ∃ daddr, let d' := d.run (.setup (dnloadRequest blocknum (UInt16.ofNat data.length)) :: gap)
      Link d'.periph ⟨⟨false, false, true, rxStatValid, txStatNak⟩, false, daddr⟩
        ∧ d'.dfu.reset = false
        ∧ Receiving f (dnloadRequest blocknum (UInt16.ofNat data.length)) data 0 d' := by
  obtain ⟨⟨setup, rx, tx, nak, daddr, link, hrx⟩, hdfu, hrun⟩ := h
  have hlen := dnloadRequest_wLength blocknum hle
  have hread : (dnloadRequest blocknum (UInt16.ofNat data.length)).isRead = false := by
    have hne := length_ne_zero hpos hle
    have hdir : (0x21 : UInt8) &&& 0x80 = 0 := by decide
    simp [UsbSetupData.isRead, dnloadRequest, dfuRequest, hne, hdir]
  obtain ⟨hbus, hpacket⟩ := link.bus_setup (dnloadRequest blocknum (UInt16.ofNat data.length)) hrx
  refine ⟨daddr, run_packet (by simp) (by rw [hdfu]; exact hrun) hbus ?_ rfl rfl ?_ hgap hpoll⟩
  · intro p hp
    have hserved : p.served = .setup := hp.link.served
    obtain ⟨p', hlink, heq⟩ := usbdControlSetup_eq (d := { d with periph := p }) hp.link
      (hp.packet.trans hpacket)
    rw [hserved]
    show Link (usbdControlSetup { d with periph := p }).periph _
      ∧ (usbdControlSetup { d with periph := p }).dfu.reset = false
      ∧ Receiving _ _ _ _ (usbdControlSetup { d with periph := p })
    rw [heq, hread, if_neg Bool.false_ne_true, usbControlSetupWrite_eq (by simp only [hlen]; exact hle)]
    refine ⟨hlink.nakSet false, by simp only [hdfu, hrun], ?_⟩
    exact {
      fsm := by simp only [hlen]
      req := rfl
      size := rfl
      callback := rfl
      dfu := hdfu
      bytes := fun i hi => absurd hi (Nat.not_lt_zero i) }
  · intro d p hq
    exact ⟨hq.fsm, hq.req, hq.size, hq.callback, hq.dfu, hq.bytes⟩

/-- The number of bytes that are in. -/
theorem Receiving.size_add {req : UsbSetupData} {count n : Nat} (h : Receiving f req data count d)
    (hle : count + n ≤ 1024) : (d.datasize + UInt16.ofNat n).toNat = count + n := by
  have hsize := h.size
  rw [UInt16.toNat_add, UInt16.toNat_ofNat']
  omega

/-- A packet of a data stage is stored behind the ones before. -/
theorem Receiving.packet {req : UsbSetupData} {count : Nat} {packet : List UInt8} {p : Periph}
    (h : Receiving f req data count d) (hcount : count + packet.length ≤ data.length)
    (hp : ∀ i < packet.length, packet.getD i 0 = data.getD (count + i) 0)
    (hle : data.length ≤ 1024) {n : UsbFsmState} (hn : n = outFsm data.length (count + packet.length)) :
    Receiving f req data (count + packet.length)
      { d with periph := p, ctrl := place d.ctrl d.datasize.toNat packet,
               datasize := d.datasize + UInt16.ofNat packet.length, fsm := n } where
  fsm := hn
  req := h.req
  size := h.size_add (by omega)
  callback := h.callback
  dfu := h.dfu
  bytes := by
    show ∀ i < count + packet.length, place d.ctrl d.datasize.toNat packet i = _
    rw [h.size]
    exact place_bytes h.bytes hp

/-- **A packet before the last one.** -/
theorem run_data_more {count : Nat} {setup : Bool} {packet : List UInt8}
    (link : Link d.periph ⟨⟨false, false, setup, rxStatValid, txStatNak⟩, false, daddr⟩)
    (hrun : d.dfu.reset = false)
    (h : Receiving f (dnloadRequest blocknum (UInt16.ofNat data.length)) data count d)
    (hle : data.length ≤ 1024) (hmore : count + 64 < data.length) (hlength : packet.length = 64)
    (hp : ∀ i < packet.length, packet.getD i 0 = data.getD (count + i) 0)
    {gap : List BusEvent} (hgap : Lull gap) (hpoll : .poll ∈ gap) :
    let d' := d.run (.out packet :: gap)
    Link d'.periph ⟨⟨false, false, false, rxStatValid, txStatNak⟩, false, daddr⟩
      ∧ d'.dfu.reset = false
      ∧ Receiving f (dnloadRequest blocknum (UInt16.ofNat data.length)) data (count + 64) d' := by
  have hlen := dnloadRequest_wLength blocknum hle
  have hfits : packet.length ≤ 96 := by omega
  obtain ⟨hbus, hpacket⟩ := link.bus_out rfl hfits
  refine run_packet (by simp) hrun hbus ?_ rfl rfl ?_ hgap hpoll
  · intro p hp'
    have hserved : p.served = .out := hp'.link.served
    have hin : p.rxPacket = packet := hp'.packet.trans hpacket
    obtain ⟨p', hlink, hrecv⟩ := usbControlRecvChunk_eq (d := { d with periph := p }) hp'.link
      rxStatNak_ne_valid (by simp only [h.req, hlen, h.size]; omega)
      (by simp only [h.req, hlen, h.size, hin]; omega)
    simp only [hin] at hrecv
    have hfsm : d.fsm = .dataOut := by
      rw [h.fsm, outFsm, if_neg (by omega)]
    have hsize := h.size_add (n := packet.length) (by omega)
    have hfsm' : outFsm d.usbReq.wLength.toNat (d.datasize + UInt16.ofNat packet.length).toNat
        = outFsm data.length (count + packet.length) := by
      rw [h.req, hlen, hsize]
    have hnext := h.packet (p := p') (by omega) hp hle hfsm'
    rw [hserved]
    show Link (usbdControlOut { d with periph := p }).periph _
      ∧ (usbdControlOut { d with periph := p }).dfu.reset = false
      ∧ Receiving _ _ _ _ (usbdControlOut { d with periph := p })
    rw [usbdControlOut_more (d := { d with periph := p }) hfsm hrecv hfsm, ← hlength]
    exact ⟨hlink, hrun, hnext⟩
  · intro d p hq
    exact ⟨hq.fsm, hq.req, hq.size, hq.callback, hq.dfu, hq.bytes⟩

/-- With all bytes in, the poll of the last packet carries the request out. -/
theorem Receiving.served {d' : Dev}
    (h : Receiving f (dnloadRequest blocknum (UInt16.ofNat data.length)) data data.length d')
    (hle : data.length ≤ 1024) (hpos : 0 < data.length) (hfsm : d.fsm = .lastDataOut)
    (hrecv : usbControlRecvChunk d = (true, d'))
    (link : Link d'.periph ⟨⟨false, false, false, rxStatValid, txStatNak⟩, false, daddr⟩)
    (hrun : d'.dfu.reset = false) :
    Link (d.serve .out).periph ⟨⟨false, false, false, rxStatValid, txStatValid⟩, false, daddr⟩
      ∧ (d.serve .out).dfu.reset = false
      ∧ ∃ f', Stored f blocknum data f' ∧ Answering f' (d.serve .out) := by
  obtain ⟨hwrite, -⟩ := link.writePacket txStatNak_ne_valid (fun _ => 0)
    (show (0 : UInt16).toNat ≤ 64 from Nat.zero_le _)
  have hdispatch := dispatch_dnload h.req (length_ne_zero hpos hle)
  have hout := usbdControlOut_last hfsm hrecv hdispatch
  rw [if_pos (by simp)] at hout
  show Link (usbdControlOut d).periph _ ∧ (usbdControlOut d).dfu.reset = false
    ∧ ∃ f', Stored f blocknum data f' ∧ Answering f' (usbdControlOut d)
  rw [hout]
  refine ⟨hwrite, hrun, afterDnload d', h.stored hle, ?_⟩
  exact {
    fsm := rfl
    type := by
      show d'.usbReq.bmRequestType ≠ 0
      rw [h.req]
      show (0x21 : UInt8) ≠ 0
      decide
    callback := h.callback
    dfu := rfl }

/-- **The last packet.** -/
theorem run_data_last {count : Nat} {setup : Bool} {packet : List UInt8}
    (link : Link d.periph ⟨⟨false, false, setup, rxStatValid, txStatNak⟩, false, daddr⟩)
    (hrun : d.dfu.reset = false)
    (h : Receiving f (dnloadRequest blocknum (UInt16.ofNat data.length)) data count d)
    (hle : data.length ≤ 1024) (hpos : 0 < packet.length) (hlast : packet.length ≤ 64)
    (hlength : count + packet.length = data.length)
    (hp : ∀ i < packet.length, packet.getD i 0 = data.getD (count + i) 0)
    {gap : List BusEvent} (hgap : Lull gap) (hpoll : .poll ∈ gap) :
    let d' := d.run (.out packet :: gap)
    Link d'.periph ⟨⟨false, false, false, rxStatValid, txStatValid⟩, false, daddr⟩
      ∧ d'.dfu.reset = false ∧ ∃ f', Stored f blocknum data f' ∧ Answering f' d' := by
  have hlen := dnloadRequest_wLength blocknum hle
  have hfits : packet.length ≤ 96 := by omega
  obtain ⟨hbus, hpacket⟩ := link.bus_out rfl hfits
  refine run_packet (y := ⟨⟨false, false, false, rxStatValid, txStatValid⟩, false, daddr⟩)
    (Q := fun d' => ∃ f', Stored f blocknum data f' ∧ Answering f' d') (by simp) hrun hbus ?_ rfl rfl
    ?_ hgap hpoll
  · intro p hp'
    have hserved : p.served = .out := hp'.link.served
    have hin : p.rxPacket = packet := hp'.packet.trans hpacket
    obtain ⟨p', hlink, hrecv⟩ := usbControlRecvChunk_eq (d := { d with periph := p }) hp'.link
      rxStatNak_ne_valid (by simp only [h.req, hlen, h.size]; omega)
      (by simp only [h.req, hlen, h.size, hin]; omega)
    simp only [hin] at hrecv
    have hfsm : d.fsm = .lastDataOut := by
      rw [h.fsm, outFsm, if_pos (by omega)]
    have hlast' : d.fsm = outFsm data.length (count + packet.length) := by
      rw [hfsm, outFsm, if_pos (by omega)]
    have hfull := h.packet (p := p') (by omega) hp hle hlast'
    rw [hlength] at hfull
    rw [hserved]
    exact hfull.served hle (by omega) hfsm hrecv hlink hrun
  · rintro d p ⟨f', hstored, hq⟩
    exact ⟨f', hstored, hq.fsm, hq.type, hq.callback, hq.dfu⟩

/-- **The data stage**, from `count` bytes on. -/
theorem run_data {n count : Nat} {setup : Bool}
    (link : Link d.periph ⟨⟨false, false, setup, rxStatValid, txStatNak⟩, false, daddr⟩)
    (hrun : d.dfu.reset = false)
    (h : Receiving f (dnloadRequest blocknum (UInt16.ofNat data.length)) data count d)
    (hle : data.length ≤ 1024) (hcount : count < data.length) (hn : data.length ≤ count + 64 * n)
    {evs : List BusEvent} (hpaced : Paced ((packetsOf n (data.drop count)).map .out) evs) :
    let d' := d.run evs
    Link d'.periph ⟨⟨false, false, false, rxStatValid, txStatValid⟩, false, daddr⟩
      ∧ d'.dfu.reset = false ∧ ∃ f', Stored f blocknum data f' ∧ Answering f' d' := by
  induction n generalizing d count setup evs with
  | zero => omega
  | succ n ih =>
    unfold packetsOf at hpaced
    by_cases hlast : (data.drop count).length ≤ 64
    · rw [if_pos hlast] at hpaced
      have hlength : (data.drop count).length = data.length - count := List.length_drop
      cases hpaced with
      | cons _ lull polled rest =>
        cases rest
        rw [List.append_nil]
        exact run_data_last link hrun h hle (by omega) hlast (by omega)
          (fun i _ => by simp [List.getD_eq_getElem?_getD]) lull polled
    · rw [if_neg hlast] at hpaced
      rw [List.length_drop] at hlast
      have hlength : ((data.drop count).take 64).length = 64 := by
        rw [List.length_take, List.length_drop]
        omega
      cases hpaced with
      | cons _ lull polled rest =>
        rw [List.drop_drop] at rest
        obtain ⟨hlink, hrun', hnext⟩ := run_data_more link hrun h hle (by omega) hlength
          (fun i hi => by
            rw [hlength] at hi
            simp [List.getD_eq_getElem?_getD, hi]) lull polled
        rw [Dev.run_append]
        exact ih hlink hrun' hnext (by omega) (by omega) rest

/-- The status stage of a write. -/
theorem run_status (link : Link d.periph ⟨⟨false, false, false, rxStatValid, txStatValid⟩, false, daddr⟩)
    (hrun : d.dfu.reset = false) (h : Answering f d) {gap : List BusEvent} (hgap : Lull gap)
    (hpoll : .poll ∈ gap) : Idle (d.run (.ack :: gap)) f := by
  have hbus := link.bus_ack rfl
  have hend : Link (d.run (.ack :: gap)).periph
      ⟨⟨false, false, false, rxStatValid, txStatNak⟩, false, daddr⟩
      ∧ (d.run (.ack :: gap)).dfu.reset = false ∧ (d.run (.ack :: gap)).dfu = f := by
    refine run_packet (Q := fun d' => d'.dfu = f) (by simp) hrun hbus ?_ rfl rfl (fun _ _ hq => hq)
      hgap hpoll
    intro p hp
    have hserved : p.served = .tx := hp.link.served
    have hclear := hp.link.clrTxCtr
    have hnot : ¬ (d.usbReq.bmRequestType = 0 ∧ d.usbReq.bRequest = 5) := fun haddr => h.type haddr.1
    rw [hserved]
    simp only [Dev.serve, hp.link.servedEp, usbdControlIn, h.fsm, completeTransfer, h.callback,
      Bool.false_eq_true, if_false, if_neg hnot]
    exact ⟨hclear, hrun, h.dfu⟩
  obtain ⟨hlink, hrun', hdfu⟩ := hend
  rw [hdfu] at hrun'
  exact ⟨⟨_, _, _, _, _, hlink, by decide⟩, hdfu, hrun'⟩

end

/-- **A `DFU_DNLOAD`** of 1 to 1024 bytes stores them. -/
theorem run_dnload {d : Dev} {f : Dfu} {blocknum : UInt16} {data : List UInt8} (h : Idle d f)
    (hpos : 0 < data.length) (hle : data.length ≤ 1024) {evs : List BusEvent}
    (hpaced : Paced (dnloadPackets blocknum data) evs) :
    ∃ f', Stored f blocknum data f' ∧ Idle (d.run evs) f' := by
  unfold dnloadPackets at hpaced
  rw [List.cons_append] at hpaced
  cases hpaced with
  | cons _ lull polled rest =>
    obtain ⟨evs₁, evs₂, rfl, hdata, hstatus⟩ := rest.split
    obtain ⟨daddr, hlink, hrun, hopen⟩ := run_dnload_setup blocknum h hpos hle lull polled
    have hall : Paced ((packetsOf (data.length / 64 + 1) (data.drop 0)).map .out) evs₁ := hdata
    obtain ⟨hlink', hrun', f', hstored, hanswer⟩ := run_data hlink hrun hopen hle hpos (by omega) hall
    rw [Dev.run_append, Dev.run_append]
    refine ⟨f', hstored, ?_⟩
    cases hstatus with
    | cons _ lull' polled' rest' =>
      cases rest'
      rw [List.append_nil]
      exact run_status hlink' hrun' hanswer lull' polled'

/-! ### `DFU_GETSTATUS` -/

/-- The driver once the request of a `DFU_GETSTATUS` was dispatched. -/
def afterGetstatus (f : Dfu) : Dfu :=
  let (bStatus, _, f') := usbdfuGetstatus f 0
  { f' with log := .status bStatus f'.state :: f.log }

@[simp] theorem afterGetstatus_reset (f : Dfu) : (afterGetstatus f).reset = f.reset := by
  unfold afterGetstatus usbdfuGetstatus
  cases f.state <;> rfl

/-- A read with its completion callback set, in the stage `fsm`. -/
structure Reporting (fsm : UsbFsmState) (f : Dfu) (d : Dev) : Prop where
  fsm : d.fsm = fsm
  callback : d.usbCompleteCb = true
  dfu : d.dfu = f

/-- **The request of a `DFU_GETSTATUS`** prepares six bytes and sets the callback. -/
theorem dispatch_getstatus {d : Dev} (hreq : d.usbReq = getstatusRequest) :
    ∃ ctrl log, usbControlRequestDispatch d
      = (.handled, { d with dfu := afterGetstatus d.dfu, ctrl := ctrl, datasize := 6,
                            usbCompleteCb := true, log := log }) := by
  have hclass : d.usbReq.isClassInterface = true := by
    rw [hreq]
    decide
  have hcode : DfuReq.ofCode d.usbReq.bRequest = some .getstatus := by
    rw [hreq]
    rfl
  refine ⟨(usbdfuControlRequest d.dfu d.ctrl d.usbReq d.usbReq.wLength d.usbCompleteCb).ctrl,
    .dispatched d.usbReq .handled :: d.log, ?_⟩
  unfold usbControlRequestDispatch
  rw [dispatchRequest_class hclass, hcode, if_neg (by simp)]
  simp only [dispatchDfu, usbdfuControlRequest, hcode, afterGetstatus]

section

variable {d : Dev} {f : Dfu} {daddr : BitVec 16}

/-- The SETUP packet is answered. -/
theorem setupRead_getstatus {x : Ep0} (link : Link d.periph x) (htx : x.txStat ≠ txStatValid)
    (hreq : d.usbReq = getstatusRequest) (hdfu : d.dfu = f) :
    Link (usbControlSetupRead d).periph { x with txStat := txStatValid }
      ∧ Reporting .lastDataIn (afterGetstatus f) (usbControlSetupRead d) := by
  obtain ⟨ctrl, log, hdispatch⟩ := dispatch_getstatus (d := { d with dataoff := 0 }) hreq
  have hlen : d.usbReq.wLength = 6 := by
    rw [hreq]
    rfl
  have hzlp : needsZlp 6 6 bMaxPacketSize0 = false := by decide
  obtain ⟨p, hlink, -, hsend⟩ := usbControlSendChunk_last
    (d := { d with dataoff := 0, dfu := afterGetstatus d.dfu, ctrl := ctrl, datasize := 6,
                   usbCompleteCb := true, log := log, usbNeedsZlp := false }) link htx
    (show (6 : UInt16).toNat ≤ 64 by decide)
  have heq : usbControlSetupRead d = usbControlSendChunk
      { d with dataoff := 0, dfu := afterGetstatus d.dfu, ctrl := ctrl, datasize := 6,
               usbCompleteCb := true, log := log, usbNeedsZlp := false } := by
    unfold usbControlSetupRead
    simp only [hdispatch, hlen]
    rw [if_pos (by simp), if_pos (by decide), if_neg (by decide), hzlp]
  rw [heq, hsend]
  exact ⟨hlink, rfl, rfl, by rw [← hdfu]⟩

theorem run_getstatus_setup (h : Idle d f) {gap : List BusEvent} (hgap : Lull gap)
    (hpoll : .poll ∈ gap) :
    ∃ daddr, let d' := d.run (.setup getstatusRequest :: gap)
      Link d'.periph ⟨⟨false, false, true, rxStatNak, txStatValid⟩, true, daddr⟩
        ∧ d'.dfu.reset = false ∧ Reporting .lastDataIn (afterGetstatus f) d' := by
  obtain ⟨⟨setup, rx, tx, nak, daddr, link, hrx⟩, hdfu, hrun⟩ := h
  obtain ⟨hbus, hpacket⟩ := link.bus_setup getstatusRequest hrx
  refine ⟨daddr, run_packet (by simp) (by rw [hdfu]; exact hrun) hbus ?_ rfl rfl ?_ hgap hpoll⟩
  · intro p hp
    have hserved : p.served = .setup := hp.link.served
    obtain ⟨p', hlink, heq⟩ := usbdControlSetup_eq (d := { d with periph := p }) hp.link
      (hp.packet.trans hpacket)
    have hread : getstatusRequest.isRead = true := by decide
    rw [hread, if_pos rfl] at heq
    obtain ⟨hlink', hreport⟩ := setupRead_getstatus
      (d := { d with usbCompleteCb := false, periph := p', usbReq := getstatusRequest,
                     log := .setup getstatusRequest :: d.log }) hlink txStatNak_ne_valid rfl hdfu
    rw [hserved]
    show Link (usbdControlSetup { d with periph := p }).periph _
      ∧ (usbdControlSetup { d with periph := p }).dfu.reset = false
      ∧ Reporting _ _ (usbdControlSetup { d with periph := p })
    rw [heq]
    refine ⟨hlink', ?_, hreport⟩
    rw [hreport.dfu, afterGetstatus_reset, hrun]
  · intro d p hq
    exact ⟨hq.fsm, hq.callback, hq.dfu⟩

/-- Its reply is fetched. -/
theorem run_getstatus_reply
    (link : Link d.periph ⟨⟨false, false, true, rxStatNak, txStatValid⟩, true, daddr⟩)
    (hrun : d.dfu.reset = false) (h : Reporting .lastDataIn f d) {gap : List BusEvent}
    (hgap : Lull gap) (hpoll : .poll ∈ gap) :
    let d' := d.run (.ack :: gap)
    Link d'.periph ⟨⟨false, false, true, rxStatValid, txStatNak⟩, false, daddr⟩
      ∧ d'.dfu.reset = false ∧ Reporting .statusOut f d' := by
  have hbus := link.bus_ack rfl
  refine run_packet (by simp) hrun hbus ?_ rfl rfl ?_ hgap hpoll
  · intro p hp
    have hserved : p.served = .tx := hp.link.served
    rw [hserved]
    simp only [Dev.serve, hp.link.servedEp, usbdControlIn, h.fsm]
    exact ⟨hp.link.clrTxCtr.nakSet false, hrun, rfl, h.callback, h.dfu⟩
  · intro d p hq
    exact ⟨hq.fsm, hq.callback, hq.dfu⟩

/-- The packet of its status stage runs the callback. -/
theorem run_getstatus_status
    (link : Link d.periph ⟨⟨false, false, true, rxStatValid, txStatNak⟩, false, daddr⟩)
    (hrun : d.dfu.reset = false) (h : Reporting .statusOut f d)
    (hresets : (usbdfuGetstatusComplete f).reset = false) {gap : List BusEvent}
    (hgap : Lull gap) (hpoll : .poll ∈ gap) :
    Idle (d.run (.out [] :: gap)) (usbdfuGetstatusComplete f) := by
  have hempty : ([] : List UInt8).length ≤ 96 := Nat.zero_le _
  obtain ⟨hbus, -⟩ := link.bus_out rfl hempty
  have hend : Link (d.run (.out [] :: gap)).periph
      ⟨⟨false, false, false, rxStatValid, txStatNak⟩, false, daddr⟩
      ∧ (d.run (.out [] :: gap)).dfu.reset = false
      ∧ (d.run (.out [] :: gap)).dfu = usbdfuGetstatusComplete f := by
    refine run_packet (Q := fun d' => d'.dfu = usbdfuGetstatusComplete f) (by simp) hrun hbus ?_ rfl
      rfl (fun _ _ hq => hq) hgap hpoll
    intro p hp
    have hserved : p.served = .out := hp.link.served
    obtain ⟨p', hread, hlink⟩ := hp.link.readPacket rxStatNak_ne_valid (fun _ => 0) 0
    rw [hserved]
    simp only [Dev.serve, usbdControlOut, h.fsm, hread, completeTransfer, h.callback, if_true, h.dfu]
    exact ⟨hlink, hresets, trivial⟩
  obtain ⟨hlink, -, hdfu⟩ := hend
  exact ⟨⟨_, _, _, _, _, hlink, by decide⟩, hdfu, hresets⟩

end

/-- **A `DFU_GETSTATUS`** reports, and completes. -/
theorem run_getstatus {d : Dev} {f : Dfu} (h : Idle d f)
    (hresets : (usbdfuGetstatusComplete (afterGetstatus f)).reset = false) {evs : List BusEvent}
    (hpaced : Paced getstatusPackets evs) :
    Idle (d.run evs) (usbdfuGetstatusComplete (afterGetstatus f)) := by
  cases hpaced with
  | cons _ lull polled rest =>
    obtain ⟨daddr, hlink, hrun, hreport⟩ := run_getstatus_setup h lull polled
    cases rest with
    | cons _ lull' polled' rest' =>
      obtain ⟨hlink', hrun', hreport'⟩ := run_getstatus_reply hlink hrun hreport lull' polled'
      cases rest' with
      | cons _ lull'' polled'' rest'' =>
        cases rest''
        rw [List.append_nil, Dev.run_append, Dev.run_append]
        exact run_getstatus_status hlink' hrun' hreport' hresets lull'' polled''

end Stm32F1Dfu
