import Stm32F1Dfu.Bookkeeping
import Stm32F1Dfu.Records
import Stm32F1Dfu.Stale

namespace Stm32F1Dfu

open Machine

/-!
# What a SETUP packet finds

Each SETUP starts from scratch: two devices that agree on the driver, the control buffer and the
registers, and take the same packet up, behave the same from then on, whatever transfers came
before and wherever they were broken off.  The exceptions are the requests that are handled
without setting `datasize`, and then answered with as many bytes as it says.

* `Dfu.kept` — what the driver does not look at either: the SRAM, and whether the flash is locked;
* `Agree` — the two devices agree;
* `run_setup_scratch` — the two runs;
* `getStatus_agree` — what a `GET_STATUS` leaves behind, handled or refused;
* `setConfiguration_answers_leftover` — a request that is answered with it.
-/

/-! ### What the driver does not look at -/

/-- The driver with `sram` in the SRAM and the flash controller locked or not. -/
def Dfu.kept (f : Dfu) (sram : Nat → UInt8) (locked : Bool) : Dfu :=
  { f with store := { f.store with sram := sram, locked := locked } }

/-- A driver that differs in no more. -/
theorem Dfu.eq_kept {f g : Dfu} (hstate : g.state = f.state) (hprog : g.prog = f.prog)
    (hflash : g.store.flash = f.store.flash) (hops : g.store.ops = f.store.ops)
    (hsafe : g.safeWrite = f.safeWrite) (herased : g.erased = f.erased)
    (hreset : g.reset = f.reset) (hlog : g.log = f.log) :
    g = f.kept g.store.sram g.store.locked := by
  show g = Dfu.mk f.state f.prog ⟨f.store.flash, g.store.sram, g.store.locked, f.store.ops⟩
    f.safeWrite f.erased f.reset f.log
  rw [← hstate, ← hprog, ← hflash, ← hops, ← hsafe, ← herased, ← hreset, ← hlog]

/-- The flash after some operations is made of the flash before. -/
theorem replay_flash_congr {s s' : Store} (h : s'.flash = s.flash) (ops : List StoreOp) :
    (replay ops s').flash = (replay ops s).flash := by
  induction ops with
  | nil => exact h
  | cons op older ih => cases op <;> simp [replay, StoreOp.apply, ih]

section

variable (f : Dfu) (sram : Nat → UInt8) (locked : Bool)

/-- The operations of a completion are those of the stored download, and so is what they make of
    the flash. -/
theorem usbdfuGetstatusComplete_kept_store (h : f.state = .dnbusy) :
    (usbdfuGetstatusComplete (f.kept sram locked)).store.ops = (usbdfuGetstatusComplete f).store.ops
      ∧ (usbdfuGetstatusComplete (f.kept sram locked)).store.flash
          = (usbdfuGetstatusComplete f).store.flash := by
  have hissued := usbdfuGetstatusComplete_issued h
  have hissued' := @usbdfuGetstatusComplete_issued (f.kept sram locked) h
  refine ⟨hissued'.ops.trans hissued.ops.symm, ?_⟩
  rw [hissued'.flash, hissued.flash]
  exact @replay_flash_congr f.store (f.kept sram locked).store rfl _

/-- **The completion** unlocks the flash itself. -/
theorem usbdfuGetstatusComplete_kept :
    ∃ sram' locked', usbdfuGetstatusComplete (f.kept sram locked)
      = (usbdfuGetstatusComplete f).kept sram' locked' := by
  by_cases hs : f.state = .dnbusy
  · have hs' : (f.kept sram locked).state = .dnbusy := hs
    obtain ⟨hops, hflash⟩ := usbdfuGetstatusComplete_kept_store f sram locked hs
    have herased : (usbdfuGetstatusComplete (f.kept sram locked)).erased
        = (usbdfuGetstatusComplete f).erased := by
      rw [usbdfuGetstatusComplete_dnbusy hs, usbdfuGetstatusComplete_dnbusy hs']
      simp only [execProg_erased]
      rfl
    have hdone := usbdfuGetstatusComplete_dnbusy hs
    have hdone' := usbdfuGetstatusComplete_dnbusy hs'
    exact ⟨_, _, Dfu.eq_kept
      ((congrArg Dfu.state hdone').trans (congrArg Dfu.state hdone).symm)
      ((congrArg Dfu.prog hdone').trans (congrArg Dfu.prog hdone).symm) hflash hops
      ((congrArg Dfu.safeWrite hdone').trans (congrArg Dfu.safeWrite hdone).symm) herased
      ((congrArg Dfu.reset hdone').trans (congrArg Dfu.reset hdone).symm)
      ((congrArg Dfu.log hdone').trans (congrArg Dfu.log hdone).symm)⟩
  · have hs' : (f.kept sram locked).state ≠ .dnbusy := hs
    refine ⟨sram, locked, ?_⟩
    rw [usbdfuGetstatusComplete_other hs', usbdfuGetstatusComplete_other hs]
    show (if f.state = .manifest then _ else _) = _
    split <;> rfl

/-- **A request** reads the flash at most. -/
theorem usbdfuControlRequest_kept (ctrl : Nat → UInt8) (req : UsbSetupData) (len : UInt16)
    (complete : Bool) :
    usbdfuControlRequest (f.kept sram locked) ctrl req len complete
      = (usbdfuControlRequest f ctrl req len complete).driven (·.kept sram locked) := by
  unfold usbdfuControlRequest
  cases DfuReq.ofCode req.bRequest with
  | none => rfl
  | some r =>
    cases r with
    | dnload =>
      simp only
      split <;> rfl
    | upload =>
      simp only
      by_cases h0 : req.wValue = 0
      · rw [if_pos h0, if_pos h0]
        rfl
      · rw [if_neg h0, if_neg h0]
        show (if inRange (blockAddr f.prog.addr req.wValue) 1024 then _ else _) = _
        split <;> rfl
    | getstatus =>
      simp only [usbdfuGetstatus]
      have hstate : (f.kept sram locked).state = f.state := rfl
      rw [hstate]
      cases f.state <;> rfl
    | detach | clrstatus | getstate | abort => rfl

end

/-- The device with such a driver. -/
def Dev.keeping (d : Dev) (sram : Nat → UInt8) (locked : Bool) : Dev :=
  { d with dfu := d.dfu.kept sram locked }

/-- **A step** does the same, whatever the SRAM holds and whether the flash is locked. -/
theorem step_keeping (d : Dev) (sram : Nat → UInt8) (locked : Bool) (e : BusEvent) :
    ∃ sram' locked', (d.keeping sram locked).step e = (d.step e).keeping sram' locked' := by
  have hdriven (sram' : Nat → UInt8) (locked' : Bool)
      (h : Stands d e (·.kept sram locked) (·.kept sram' locked')) :
      (d.keeping sram locked).step e = (d.step e).keeping sram' locked' := by
    have hstep := step_driven d _ [] h
    rw [Dev.driven_nil, Dev.driven_nil] at hstep
    exact hstep
  by_cases hc : d.Completes e
  · obtain ⟨sram', locked', hcomplete⟩ := usbdfuGetstatusComplete_kept d.dfu sram locked
    refine ⟨sram', locked', hdriven sram' locked' ?_⟩
    exact {
      reset := rfl
      build := fun _ => rfl
      request := fun req hh => absurd hc (step_dfu_of_hands hh).1
      completion := fun _ => hcomplete
      other := fun hno => absurd hc hno }
  · refine ⟨sram, locked, hdriven sram locked ?_⟩
    exact {
      reset := rfl
      build := fun _ => rfl
      request := fun req _ ctrl complete =>
        usbdfuControlRequest_kept d.dfu sram locked ctrl req req.wLength complete
      completion := fun hyes => absurd hyes hc
      other := fun _ _ => rfl }

/-! ### Steps of two devices -/

section

variable {s : Dev} {q : Nat → UInt16}

/-- The SETUP packet that is read is the same, and so is the condition on it. -/
theorem SamePackets.answersOwn (h : SamePackets s.periph q) (horderly : Orderly s.periph)
    {e : BusEvent} (ha : AnswersOwn s e) : AnswersOwn (s.withPm q) e := by
  intro req hs hnext
  have hserved : s.Polls e .setup := hs
  rw [h.nextSetup (horderly.of_setup hserved.2.2).1] at hnext
  exact ha req hserved hnext

/-- `t` differs from `s` in stale packets, in what the stage of the transfer does not look at, and
    in what the driver does not. -/
def Mirrors (s t : Dev) : Prop :=
  ∃ q k sram locked, t = ((s.withPm q).withBook k).keeping sram locked
    ∧ SamePackets s.periph q ∧ Orderly s.periph ∧ Covers s k

/-- **The SETUP packet** is taken up whatever the stage is. -/
theorem mirrors_setup (h : SamePackets s.periph q) (horderly : Orderly s.periph)
    (hs : s.Polls .poll .setup) (ha : AnswersOwn s .poll) (hin : ¬ ReachesOutside s .poll)
    (fsm : UsbFsmState) (nak : Bool) (k : Bookkeeping) (sram : Nat → UInt8) (locked : Bool) :
    Mirrors (s.step .poll) ((((s.withPm q).leftBy fsm nak k).keeping sram locked).step .poll) := by
  obtain ⟨q', hpm, hpackets⟩ := step_withPm h horderly hin
  have hs' : (s.withPm q).Polls .poll .setup := hs
  obtain ⟨k', hbook, hcovers⟩ := setup_covers fsm nak k hs' (h.answersOwn horderly ha)
  obtain ⟨sram', locked', hdfu⟩ := step_keeping ((s.withPm q).leftBy fsm nak k) sram locked .poll
  rw [hpm] at hbook hcovers
  refine ⟨q', k', sram', locked', ?_, hpackets, horderly.step .poll, hcovers.periph _⟩
  rw [hdfu, hbook]

/-- **Every step** that meets the conditions. -/
theorem Mirrors.step {t : Dev} (h : Mirrors s t) {e : BusEvent} (ha : AnswersOwn s e)
    (hin : ¬ ReachesOutside s e) : Mirrors (s.step e) (t.step e) := by
  obtain ⟨q, k, sram, locked, rfl, hpackets, horderly, hcovers⟩ := h
  obtain ⟨q', hpm, hpackets'⟩ := step_withPm hpackets horderly hin
  obtain ⟨k', hbook, hcovers'⟩ := step_covers (hcovers.periph (s.periph.withPm q))
    (hpackets.answersOwn horderly ha)
  obtain ⟨sram', locked', hdfu⟩ := step_keeping ((s.withPm q).withBook k) sram locked e
  have hbook' : ((s.withPm q).withBook k).step e = ((s.withPm q).step e).withBook k' := hbook
  have hcovers'' : Covers ((s.withPm q).step e) k' := hcovers'
  rw [hpm] at hbook' hcovers''
  refine ⟨q', k', sram', locked', ?_, hpackets', horderly.step e, hcovers''.periph _⟩
  rw [hdfu, hbook']

end

/-! ### Two runs -/

/-- A state that is reached without a request for an endpoint past 7. -/
def ReachedInside (d : Dev) : Prop :=
  ∃ b evs, d = (Dev.init b).run evs
    ∧ AllSteps Dev.step (fun d e => ¬ ReachesOutside d e) (Dev.init b) evs

/-- Two states of a device that agree on the driver, the flash, the control buffer and the
    registers. -/
structure Agree (d d' : Dev) : Prop where
  state : d'.dfu.state = d.dfu.state
  prog : d'.dfu.prog = d.dfu.prog
  flash : d'.dfu.store.flash = d.dfu.store.flash
  /-- the static of `check_do_erase`, where it is compiled in -/
  erased : d.dfu.safeWrite = true → d'.dfu.erased = d.dfu.erased
  /-- the control buffer, and the memory behind it -/
  ctrl : d'.ctrl = d.ctrl
  reg : ∀ i ≤ regBtable, d'.periph.reg i = d.periph.reg i
  /-- one build, on one chip -/
  safeWrite : d'.dfu.safeWrite = d.dfu.safeWrite
  uniqueId : d'.uniqueId = d.uniqueId

/-- From `d` to `r` and from `d'` to `r'` the two devices did the same: the same packets,
    handshakes and operations were recorded, the same packets wait in endpoint 0, and the
    registers, the stage, the control buffer and the driver are the same. -/
structure SameRun (d r d' r' : Dev) : Prop where
  records : ∃ new : Records, r.records = new.onto d.records ∧ r'.records = new.onto d'.records
  sent : (epView (r.periph.reg 0)).txStat = txStatValid → r'.periph.txPacket = r.periph.txPacket
  received : (epView (r.periph.reg 0)).rxCtr = true → r'.periph.rxPacket = r.periph.rxPacket
  reg : r'.periph.reg = r.periph.reg
  fsm : r'.fsm = r.fsm
  ctrl : r'.ctrl = r.ctrl
  state : r'.dfu.state = r.dfu.state
  prog : r'.dfu.prog = r.dfu.prog
  flash : r'.dfu.store.flash = r.dfu.store.flash
  erased : r'.dfu.erased = r.dfu.erased
  reset : r'.dfu.reset = r.dfu.reset

/-- Without `ENABLE_SAFEWRITE` nothing is wiped. -/
theorem reachable_not_erased {d : Dev} (h : Reachable d) (hsafe : d.dfu.safeWrite = false) :
    d.dfu.erased = false := by
  obtain ⟨b, evs, rfl⟩ := h
  refine run_dfu_invariant (I := fun f : Dfu => f.safeWrite = false → f.erased = false)
    (fun f f' he hf hs => ?_) (fun f hf hs => ?_) (fun _ => rfl) evs hsafe
  · obtain ⟨-, -, hsafe', herased, -⟩ := he.frame
    rw [herased, hf (hsafe'.symm.trans hs)]
  · by_cases hbusy : f.state = .dnbusy
    · rw [usbdfuGetstatusComplete_dnbusy hbusy] at hs ⊢
      simp only [execProg_erased, hf hs, show f.safeWrite = false from hs, Bool.or_self, ite_self]
    · rw [usbdfuGetstatusComplete_other hbusy] at hs ⊢
      revert hs
      split <;> exact hf

/-- The device with nothing recorded. -/
def Dev.bare (d : Dev) : Dev :=
  { d with dfu := { d.dfu with store := { d.dfu.store with ops := [] }, log := [] }, log := [] }

/-- Two states that agree, with nothing recorded. -/
theorem Agree.bare_eq {d d' : Dev} (h : Agree d d') (hd : Reachable d) (hd' : Reachable d')
    (hreset : d'.dfu.reset = d.dfu.reset) (htop : d'.periph.usbPmTop = d.periph.usbPmTop) :
    d'.bare = ((d.bare.withPm d'.periph.pm).leftBy d'.fsm (d'.periph.usbForceNak 0)
      d'.book).keeping d'.dfu.store.sram d'.dfu.store.locked := by
  have hreg : d'.periph.reg = d.periph.reg := by
    funext i
    by_cases hi : i ≤ regBtable
    · exact h.reg i hi
    · rw [reachable_reg_past hd (by omega), reachable_reg_past hd' (by omega)]
  have hnak : d'.periph.usbForceNak
      = Function.update d.periph.usbForceNak 0 (d'.periph.usbForceNak 0) := by
    funext ep
    by_cases hep : ep = 0
    · rw [hep, Function.update_self]
    · rw [Function.update_of_ne hep, (reachable_statics hd).forceNak ep hep,
        (reachable_statics hd').forceNak ep hep]
  have herased : d'.dfu.erased = d.dfu.erased := by
    cases hsafe : d.dfu.safeWrite with
    | true => exact h.erased hsafe
    | false =>
      rw [reachable_not_erased hd hsafe, reachable_not_erased hd' (h.safeWrite.trans hsafe)]
  have hperiph : d'.periph = { d.periph.withPm d'.periph.pm with
      usbForceNak := Function.update d.periph.usbForceNak 0 (d'.periph.usbForceNak 0) } := by
    show d'.periph = Periph.mk d.periph.reg d'.periph.pm d.periph.usbPmTop _
    rw [← hnak, ← hreg, ← htop]
  have hdfu : d'.bare.dfu = d.bare.dfu.kept d'.dfu.store.sram d'.dfu.store.locked := by
    show Dfu.mk d'.dfu.state d'.dfu.prog
        ⟨d'.dfu.store.flash, d'.dfu.store.sram, d'.dfu.store.locked, []⟩ d'.dfu.safeWrite
        d'.dfu.erased d'.dfu.reset [] = _
    rw [h.state, h.prog, h.flash, h.safeWrite, herased, hreset]
    rfl
  show Dev.mk d'.periph d'.fsm d'.datasize d'.dataoff d'.usbNeedsZlp d'.usbReq d'.usbCompleteCb
    d'.ctrl d'.uniqueId d'.bare.dfu [] = Dev.mk _ d'.fsm d'.datasize d'.dataoff d'.usbNeedsZlp
    d'.usbReq d'.usbCompleteCb d.ctrl d.uniqueId
    (d.bare.dfu.kept d'.dfu.store.sram d'.dfu.store.locked) []
  rw [← hdfu, h.ctrl, h.uniqueId]
  exact congrArg (Dev.mk · _ _ _ _ _ _ _ _ _ _) hperiph

/-- Where a SETUP packet is served endpoint 0 has its buffers, and `usb_pm_top` lies behind
    them. -/
theorem ReachedInside.placed {d : Dev} (h : ReachedInside d) (hs : d.Polls .poll .setup) :
    Placed d.periph ∧ d.periph.usbPmTop = 0xC0 := by
  obtain ⟨b, evs, rfl, hinside⟩ := h
  obtain ⟨a, hkept⟩ : ∃ a, AddressKept ((Dev.init b).run evs) a :=
    run_invariant (I := fun d : Dev => ∃ a, AddressKept d a)
      (fun _ _ ⟨_, h⟩ hout => ⟨_, h.step hout⟩) ⟨0, init_addressKept b⟩ hinside
  refine ⟨hkept.placed hs (by decide) (by decide), ?_⟩
  refine (reachable_statics ⟨b, evs, rfl⟩).pmTop.resolve_left fun hsilent => ?_
  rcases hsilent.served with hserved | hserved
  · exact Served.noConfusion (hserved.symm.trans hs.2.2)
  · exact Served.noConfusion (hserved.symm.trans hs.2.2)

/-- **Each SETUP starts from scratch.**  Two states that agree, however they were reached, take the
    same SETUP packet up and do the same then and at every event behind it, as long as no poll
    takes up a read with data of a request that is handled without setting `datasize`, and none
    dispatches a request for an endpoint past 7. -/
theorem run_setup_scratch {d d' : Dev} (hd : ReachedInside d) (hd' : ReachedInside d')
    (hagree : Agree d d') (hs : d.Polls .poll .setup) (hs' : d'.Polls .poll .setup)
    (hpacket : d'.periph.rxPacket = d.periph.rxPacket) (evs : List BusEvent)
    (hall : AllSteps Dev.step (fun d e => AnswersOwn d e ∧ ¬ ReachesOutside d e) d
      (.poll :: evs)) :
    SameRun d (d.run (.poll :: evs)) d' (d'.run (.poll :: evs)) := by
  have hreach : Reachable d := let ⟨b, past, h, _⟩ := hd; ⟨b, past, h⟩
  have hreach' : Reachable d' := let ⟨b, past, h, _⟩ := hd'; ⟨b, past, h⟩
  obtain ⟨hplaced, htop⟩ := hd.placed hs
  obtain ⟨hplaced', htop'⟩ := hd'.placed hs'
  have horderly := reachable_orderly hreach
  have hbare_eq := hagree.bare_eq hreach hreach' (hs'.1.trans hs.1.symm) (htop'.trans htop.symm)
  -- the SETUP packet waits in both, and nothing waits to be sent
  have hother : (d.periph.withPm d'.periph.pm).reg regBtable = 0#16 := hplaced.btable
  have hpackets : SamePackets d.bare.periph d'.periph.pm :=
    { placed := hplaced
      other :=
        { btable := hother
          txAddr := hplaced'.txAddr
          rxAddr := hplaced'.rxAddr
          rxBlocks := hplaced'.rxBlocks }
      received := fun _ => by
        refine Eq.trans ?_ hpacket
        exact Periph.rxPacket_congr rfl (hplaced.btable.trans hplaced'.btable.symm)
      sent := fun hvalid => by
        obtain ⟨hrx, hsetup⟩ := horderly.of_setup hs.2.2
        have hnak := (horderly.setup hrx hsetup).2
        exact absurd (hnak.symm.trans hvalid) (by decide) }
  -- what was recorded before plays no part: both devices are run without it
  have hcommutes (s : Dev) (e : BusEvent) :
      (s.step e).onto d.records = (s.onto d.records).step e :=
    (step_onto s d.records e).symm
  have hbare : AllSteps Dev.step (fun d e => AnswersOwn d e ∧ ¬ ReachesOutside d e) d.bare
      (.poll :: evs) :=
    ((allSteps_map (f := fun s : Dev => s.onto d.records) hcommutes
      (fun d e => AnswersOwn d e ∧ ¬ ReachesOutside d e) d.bare (.poll :: evs)).mpr hall).mono
      fun _ _ h => h
  have hfirst : Mirrors (d.bare.step .poll) (d'.bare.step .poll) := by
    rw [hbare_eq]
    exact mirrors_setup hpackets horderly hs hbare.1.1 hbare.1.2 _ _ _ _ _
  have hstep (s t : Dev) (e : BusEvent) (h : Mirrors s t)
      (ha : AnswersOwn s e ∧ ¬ ReachesOutside s e) : Mirrors (Dev.step s e) (Dev.step t e) :=
    h.step ha.1 ha.2
  obtain ⟨q, k, sram, locked, hrun, hwaits, -, -⟩ :
      Mirrors (d.bare.run (.poll :: evs)) (d'.bare.run (.poll :: evs)) :=
    run_related hstep hfirst hbare.2
  have hr : d.run (.poll :: evs) = (d.bare.run (.poll :: evs)).onto d.records :=
    run_onto d.bare d.records _
  have hr' : d'.run (.poll :: evs)
      = ((((d.bare.run (.poll :: evs)).withPm q).withBook k).keeping sram locked).onto
          d'.records := by
    rw [← hrun]
    exact run_onto d'.bare d'.records _
  rw [hr, hr']
  exact {
    records := ⟨(d.bare.run (.poll :: evs)).records, rfl, rfl⟩
    sent := fun hvalid => (hwaits.sent hvalid).1
    received := fun hrx => hwaits.received hrx
    reg := rfl
    fsm := rfl
    ctrl := rfl
    state := rfl
    prog := rfl
    flash := rfl
    erased := rfl
    reset := rfl }

/-! ### What a `GET_STATUS` leaves behind -/

/-- A `GET_STATUS` of the device (`0x80`), which is answered, or of the interface (`0x81`), which
    is refused with the answer prepared. -/
def statusOf (bmRequestType : UInt8) : UsbSetupData :=
  { bmRequestType, bRequest := 0, wValue := 0, wIndex := 0, wLength := 2 }

section

variable {d : Dev} {t : UInt8}

theorem statusOf_dispatch (ht : t = 0x80 ∨ t = 0x81) (h : d.usbReq = statusOf t) :
    (usbControlRequestDispatch d).2.ctrl = assign d.ctrl [0, 0]
      ∧ (usbControlRequestDispatch d).2.dfu = d.dfu
      ∧ (usbControlRequestDispatch d).2.uniqueId = d.uniqueId := by
  have hclass : d.usbReq.isClassInterface = false := by
    rw [h]
    rcases ht with rfl | rfl <;> rfl
  have hvendor : ¬ (d.usbReq.bmRequestType &&& 0x7F = 0x40 ∧ d.usbReq.bRequest = 0x41) := by
    rw [h]
    exact fun hcode => absurd hcode.2 (by decide : (0 : UInt8) ≠ 0x41)
  have htype : ¬ d.usbReq.bmRequestType &&& 0x60 ≠ 0 := by
    rw [h]
    rcases ht with rfl | rfl <;> decide
  have hcode : d.usbReq.bRequest = 0 := by rw [h]; rfl
  show (dispatchRequest d).2.ctrl = _ ∧ (dispatchRequest d).2.dfu = _
    ∧ (dispatchRequest d).2.uniqueId = _
  rw [dispatchRequest_other hclass, dispatchOther, if_neg hvendor, usbdStandardRequest,
    if_neg htype]
  rcases ht with rfl | rfl
  · have hrecipient : d.usbReq.bmRequestType &&& 0x1F = 0 := by rw [h]; rfl
    simp only [hrecipient, usbdStandardRequestDevice, hcode, and_self]
  · have hrecipient : d.usbReq.bmRequestType &&& 0x1F = 1 := by rw [h]; rfl
    simp only [hrecipient, usbdStandardRequestInterface, hcode, and_self]

/-- The poll that takes it up: of all that two states can agree on it writes two bytes of the
    control buffer. -/
theorem statusOf_step (ht : t = 0x80 ∨ t = 0x81) (hs : d.Polls .poll .setup)
    (hnext : d.nextSetup = some (statusOf t)) :
    (d.step .poll).ctrl = assign d.ctrl [0, 0] ∧ (d.step .poll).dfu = d.dfu
      ∧ (d.step .poll).uniqueId = d.uniqueId := by
  obtain ⟨hrun, -, hserved⟩ := hs
  have hread : (statusOf t).isRead = true := by rcases ht with rfl | rfl <;> rfl
  have hdispatch : (d.dispatchRead (statusOf t)).2.ctrl = assign d.ctrl [0, 0]
      ∧ (d.dispatchRead (statusOf t)).2.dfu = d.dfu
      ∧ (d.dispatchRead (statusOf t)).2.uniqueId = d.uniqueId :=
    statusOf_dispatch (d := { d.afterSetup (statusOf t) with dataoff := 0 }) ht rfl
  obtain ⟨p, hpoll⟩ := step_poll hrun
  have hserve : d.serve .setup = usbControlSetupRead (d.afterSetup (statusOf t)) := by
    show usbdControlSetup d = _
    rw [usbdControlSetup_some hnext, if_pos hread]
  rw [hpoll, hserved, hserve]
  rcases usbControlSetupRead_turn d (statusOf t) with
    ⟨-, h⟩ | ⟨-, -, p', n, h⟩ | ⟨-, -, p', s, n, o, z, off, data, -, h⟩
  all_goals
    rw [h]
    exact hdispatch

end

/-- **What is left behind** is none of what two states have to agree on. -/
theorem statusOf_agree {d : Dev} {t : UInt8} (ht : t = 0x80 ∨ t = 0x81) (req : UsbSetupData)
    (hrun : d.dfu.reset = false) (hzero : d.ctrl 0 = 0 ∧ d.ctrl 1 = 0)
    (hs : (d.run [.setup (statusOf t)]).Polls .poll .setup)
    (hnext : (d.run [.setup (statusOf t)]).nextSetup = some (statusOf t))
    (hreg : ∀ i ≤ regBtable, (d.run [.setup (statusOf t), .poll, .setup req]).periph.reg i
      = (d.run [.setup req]).periph.reg i) :
    Agree (d.run [.setup req]) (d.run [.setup (statusOf t), .poll, .setup req]) := by
  have hbus (d : Dev) (hrun : d.dfu.reset = false) (req : UsbSetupData) :
      (d.step (.setup req)).ctrl = d.ctrl ∧ (d.step (.setup req)).dfu = d.dfu
        ∧ (d.step (.setup req)).uniqueId = d.uniqueId := by
    rw [step_bus hrun (by simp)]
    exact ⟨rfl, rfl, rfl⟩
  have hsame : assign d.ctrl [0, 0] = d.ctrl := by
    funext i
    unfold assign memcpy
    match i with
    | 0 => exact hzero.1.symm
    | 1 => exact hzero.2.symm
    | i + 2 => rfl
  -- the packets change the peripheral only, and the poll writes what is there
  obtain ⟨hctrl₁, hdfu₁, hid₁⟩ := hbus d hrun req
  obtain ⟨hctrl₂, hdfu₂, hid₂⟩ := hbus d hrun (statusOf t)
  have hpoll : ((d.step (.setup (statusOf t))).step .poll).ctrl = d.ctrl
      ∧ ((d.step (.setup (statusOf t))).step .poll).dfu = d.dfu
      ∧ ((d.step (.setup (statusOf t))).step .poll).uniqueId = d.uniqueId := by
    obtain ⟨hctrl, hdfu, hid⟩ := statusOf_step ht hs hnext
    exact ⟨hctrl.trans ((congrArg (assign · [0, 0]) hctrl₂).trans hsame), hdfu.trans hdfu₂,
      hid.trans hid₂⟩
  obtain ⟨hctrl₃, hdfu₃, hid₃⟩ := hbus ((d.step (.setup (statusOf t))).step .poll)
    (hpoll.2.1 ▸ hrun) req
  have hdfu' : (d.run [.setup (statusOf t), .poll, .setup req]).dfu = (d.run [.setup req]).dfu :=
    hdfu₃.trans (hpoll.2.1.trans hdfu₁.symm)
  exact {
    state := by rw [hdfu']
    prog := by rw [hdfu']
    flash := by rw [hdfu']
    erased := fun _ => by rw [hdfu']
    ctrl := hctrl₃.trans (hpoll.1.trans hctrl₁.symm)
    reg := hreg
    safeWrite := by rw [hdfu']
    uniqueId := hid₃.trans (hpoll.2.2.trans hid₁.symm) }

/-- The device after a bus reset. -/
def afterReset : Dev := (Dev.init blankBoard).run [.busReset, .poll]

/-- A SETUP packet waits, the first one. -/
def firstSetup (req : UsbSetupData) : Dev := afterReset.run [.setup req]

/-- The same, after a `GET_STATUS` of which the reply was not fetched. -/
def laterSetup (t : UInt8) (req : UsbSetupData) : Dev :=
  afterReset.run [.setup (statusOf t), .poll, .setup req]

/-- The events after a bus reset keep to the eight endpoints. -/
theorem reachedInside_afterReset {evs : List BusEvent}
    (h : AllSteps Dev.step (fun d e => ¬ ReachesOutside d e) (Dev.init blankBoard)
      ([.busReset, .poll] ++ evs)) : ReachedInside (afterReset.run evs) := by
  refine ⟨blankBoard, [.busReset, .poll] ++ evs, ?_, h⟩
  rw [Dev.run_append]
  rfl

/-- The first transfer of an enumeration. -/
def getDescriptor : UsbSetupData :=
  { bmRequestType := 0x80, bRequest := 6, wValue := 0x100, wIndex := 0, wLength := 18 }

/-- One device has the reply to a `GET_STATUS` in its packet memory that was never fetched. -/
theorem getDescriptor_scratch :
    (laterSetup 0x80 getDescriptor).periph.txPacket ≠ (firstSetup getDescriptor).periph.txPacket
      ∧ SameRun (firstSetup getDescriptor) ((firstSetup getDescriptor).run [.poll, .ack, .poll])
          (laterSetup 0x80 getDescriptor)
          ((laterSetup 0x80 getDescriptor).run [.poll, .ack, .poll]) := by
  obtain ⟨hrun, hzero, hs, hnext, hreg⟩ : afterReset.dfu.reset = false
      ∧ (afterReset.ctrl 0 = 0 ∧ afterReset.ctrl 1 = 0)
      ∧ (firstSetup (statusOf 0x80)).Polls .poll .setup
      ∧ (firstSetup (statusOf 0x80)).nextSetup = some (statusOf 0x80)
      ∧ ∀ i ≤ regBtable, (laterSetup 0x80 getDescriptor).periph.reg i
          = (firstSetup getDescriptor).periph.reg i := by
    decide +kernel
  refine ⟨by decide +kernel, ?_⟩
  exact run_setup_scratch (reachedInside_afterReset (by decide +kernel))
    (reachedInside_afterReset (by decide +kernel))
    (statusOf_agree (Or.inl rfl) getDescriptor hrun hzero hs hnext hreg) (by decide +kernel)
    (by decide +kernel) (by decide +kernel) [.ack, .poll] (by decide +kernel)

/-- A `SET_CONFIGURATION` that asks for data. -/
def setConfiguration : UsbSetupData :=
  { bmRequestType := 0x80, bRequest := 9, wValue := 1, wIndex := 0, wLength := 64 }

/-- Two devices agree and take the same packet up, but one answers it with no byte, and the other,
    where a `GET_STATUS` was refused before, with the two bytes that were prepared for that. -/
theorem setConfiguration_answers_leftover :
    ReachedInside (firstSetup setConfiguration) ∧ ReachedInside (laterSetup 0x81 setConfiguration)
      ∧ Agree (firstSetup setConfiguration) (laterSetup 0x81 setConfiguration)
      ∧ (firstSetup setConfiguration).Polls .poll .setup
      ∧ (laterSetup 0x81 setConfiguration).Polls .poll .setup
      ∧ (laterSetup 0x81 setConfiguration).periph.rxPacket
          = (firstSetup setConfiguration).periph.rxPacket
      ∧ (firstSetup setConfiguration).nextSetup = some setConfiguration
      ∧ (laterSetup 0x81 setConfiguration).nextSetup = some setConfiguration
      ∧ ((firstSetup setConfiguration).run [.poll]).periph.txPacket = []
      ∧ ((laterSetup 0x81 setConfiguration).run [.poll]).periph.txPacket = [0, 0]
      ∧ ¬ SameRun (firstSetup setConfiguration) ((firstSetup setConfiguration).run [.poll])
          (laterSetup 0x81 setConfiguration)
          ((laterSetup 0x81 setConfiguration).run [.poll]) := by
  obtain ⟨hrun, hzero, hs, hnext, hreg⟩ : afterReset.dfu.reset = false
      ∧ (afterReset.ctrl 0 = 0 ∧ afterReset.ctrl 1 = 0)
      ∧ (firstSetup (statusOf 0x81)).Polls .poll .setup
      ∧ (firstSetup (statusOf 0x81)).nextSetup = some (statusOf 0x81)
      ∧ ∀ i ≤ regBtable, (laterSetup 0x81 setConfiguration).periph.reg i
          = (firstSetup setConfiguration).periph.reg i := by
    decide +kernel
  obtain ⟨hvalid, htx, htx'⟩ :
      (epView (((firstSetup setConfiguration).run [.poll]).periph.reg 0)).txStat = txStatValid
        ∧ ((firstSetup setConfiguration).run [.poll]).periph.txPacket = []
        ∧ ((laterSetup 0x81 setConfiguration).run [.poll]).periph.txPacket = [0, 0] := by
    decide +kernel
  refine ⟨reachedInside_afterReset (by decide +kernel),
    reachedInside_afterReset (by decide +kernel),
    statusOf_agree (Or.inr rfl) setConfiguration hrun hzero hs hnext hreg, by decide +kernel,
    by decide +kernel, by decide +kernel, by decide +kernel, by decide +kernel, htx, htx', ?_⟩
  intro hsame
  rw [hsame.sent hvalid, htx] at htx'
  exact absurd htx' (by simp)

end Stm32F1Dfu
