import Stm32F1Dfu.Commands
import Stm32F1Dfu.Downloads

namespace Stm32F1Dfu

open LittleEndian

/-!
# Reading back what a block programmed

Whether the flash holds the payload of a block once the device reports it finished.  The
code programs `len / 2` half-words over what its erase left, so the last byte of an odd
length stays behind, and so do half-words past the end of the erased page that were not
blank.

* `execBlock_heldBy_iff` — one execution, against what the flash held before it;
* `ReportsDone` — from one execution to the report nothing changes the flash;
* `run_readsBack_iff` — the block as the host reads it back, in every run.
-/

/-! ### One execution -/

/-- The flash holds the payload of `p` at its address. -/
def Prog.HeldBy (p : Prog) (m : UInt32 → UInt8) : Prop :=
  ∀ i < p.len.toNat, m (p.baseaddr + UInt32.ofNat i) = p.buf i

instance (p : Prog) (m : UInt32 → UInt8) : Decidable (p.HeldBy m) := by
  unfold Prog.HeldBy
  infer_instance

/-- What the half-words of block `p` are programmed over: the flash after the wipe, if it is
    due, and after the erase of the page of the base, if the window there is dirty. -/
def Dfu.erasedFor (d : Dfu) (p : Prog) : UInt32 → UInt8 := fun b =>
  if d.Wiped b
    ∨ flashPageIsErased d.store.flash p.baseaddr = false ∧ pageOf b = pageOf p.baseaddr
  then 0xFF else d.store.flash b

/-- Byte `i` of block `p` is there after programming over `m`: it is there already, or it
    belongs to one of the `len / 2` half-words and that half-word is blank. -/
def Prog.ByteTaken (p : Prog) (m : UInt32 → UInt8) (i : Nat) : Prop :=
  m (p.baseaddr + UInt32.ofNat i) = p.buf i
    ∨ i < 2 * (p.len.toNat / 2) ∧ halfAt m (p.baseaddr + UInt32.ofNat (2 * (i / 2))) = 0xFFFF

instance (p : Prog) (m : UInt32 → UInt8) (i : Nat) : Decidable (p.ByteTaken m i) :=
  inferInstanceAs (Decidable (_ ∨ _ ∧ _))

/-- Every byte of block `p` is taken when it is carried out in state `d`. -/
def Dfu.Takes (d : Dfu) (p : Prog) : Prop :=
  ∀ i < p.len.toNat, p.ByteTaken (d.erasedFor p) i

instance (d : Dfu) (p : Prog) : Decidable (d.Takes p) := by unfold Dfu.Takes; infer_instance

/-- The range of the block lies in the application region. -/
def Prog.RangeInApp (p : Prog) : Prop :=
  startAddr.toNat ≤ p.baseaddr.toNat ∧ p.baseaddr.toNat + p.len.toNat ≤ endAddr.toNat

instance (p : Prog) : Decidable p.RangeInApp := inferInstanceAs (Decidable (_ ∧ _))

/-- A byte of the range lies in the application region. -/
theorem Prog.RangeInApp.inApp {p : Prog} (h : p.RangeInApp) {i : Nat} (hi : i < p.len.toNat) :
    InApp (p.baseaddr + UInt32.ofNat i) := by
  obtain ⟨hlo, hhi⟩ := h
  rw [startAddr_toNat] at hlo
  rw [endAddr_toNat] at hhi
  rw [inApp_iff, toNat_add_ofNat (by omega)]
  omega

/-- The flash a block is programmed over, at the bytes of the application region. -/
theorem eraseIfDirty_erasedFor {d : Dfu} (hu : d.store.locked = false) (p : Prog) {b : UInt32}
    (hb : InApp b) :
    (eraseIfDirty (ifdefSafeWrite d).store p.baseaddr).flash b = d.erasedFor p b := by
  rw [eraseIfDirty_flash (by simp [hu]), ifdefSafeWrite_flash hu, Dfu.erasedFor]
  cases hw : d.wipes with
  | true =>
    have hwiped : d.Wiped b := ⟨hw, hb⟩
    simp [hwiped, hb]
  | false =>
    have hnone : ifdefSafeWrite d = d := by
      rw [ifdefSafeWrite_eq, hw]
      rfl
    have hwiped : ¬ d.Wiped b := fun h => by simp [h.1] at hw
    simp [hnone, hwiped]

/-- **One execution.**  After a block in the application region is carried out, the flash
    holds its payload exactly when every byte was taken. -/
theorem execBlock_heldBy_iff {d : Dfu} (hu : d.store.locked = false) (hr : d.prog.RangeInApp) :
    d.prog.HeldBy (execBlock d).store.flash ↔ d.Takes d.prog := by
  have hbound := hr.2
  rw [endAddr_toNat] at hbound
  have hrange : inRange d.prog.baseaddr d.prog.len.toUInt32 = true := by
    have hlo := hr.1
    rw [startAddr_toNat] at hlo
    simp only [inRange, Bool.and_eq_true, decide_eq_true_eq, UInt32.le_iff_toNat_le,
      UInt32.toNat_add, startAddr_toNat, endAddr_toNat, UInt16.toNat_toUInt32]
    omega
  have hbefore {i : Nat} (hi : i < d.prog.len.toNat) :=
    eraseIfDirty_erasedFor hu d.prog (hr.inApp hi)
  have hbyte (i : Nat) (hi : i < d.prog.len.toNat) :
      (execBlock d).store.flash (d.prog.baseaddr + UInt32.ofNat i) = d.prog.buf i
        ↔ d.prog.ByteTaken (d.erasedFor d.prog) i := by
    by_cases hprog : i < 2 * (d.prog.len.toNat / 2)
    · -- byte `i` is in half-word `i / 2`
      have hhalf : halfAt (eraseIfDirty (ifdefSafeWrite d).store d.prog.baseaddr).flash
            (d.prog.baseaddr + UInt32.ofNat (2 * (i / 2)))
          = halfAt (d.erasedFor d.prog) (d.prog.baseaddr + UInt32.ofNat (2 * (i / 2))) := by
        simp only [halfAt, offset_succ]
        rw [hbefore (by omega), hbefore (by omega)]
      obtain ⟨h0, h1⟩ := flashProgramLoop_half
        (s := eraseIfDirty (ifdefSafeWrite d).store d.prog.baseaddr) (by simp [hu])
        d.prog.baseaddr d.prog.buf (n := d.prog.len.toNat / 2) (k := i / 2) (by omega) (by omega)
      have hstored : (execBlock d).store.flash (d.prog.baseaddr + UInt32.ofNat i)
          = if halfAt (d.erasedFor d.prog) (d.prog.baseaddr + UInt32.ofNat (2 * (i / 2))) = 0xFFFF
            then d.prog.buf i else d.erasedFor d.prog (d.prog.baseaddr + UInt32.ofNat i) := by
        rw [execBlock_store, if_pos hrange, ← hbefore hi, ← hhalf]
        obtain hodd | hodd : i = 2 * (i / 2) ∨ i = 2 * (i / 2) + 1 := by omega
        · rw [← hodd] at h0 ⊢
          exact h0
        · rw [← hodd] at h1
          exact h1
      rw [hstored, Prog.ByteTaken]
      by_cases hblank : halfAt (d.erasedFor d.prog)
          (d.prog.baseaddr + UInt32.ofNat (2 * (i / 2))) = 0xFFFF
      · rw [if_pos hblank]
        exact ⟨fun _ => Or.inr ⟨hprog, hblank⟩, fun _ => rfl⟩
      · rw [if_neg hblank]
        exact ⟨Or.inl, fun h => h.resolve_right fun hc => hblank hc.2⟩
    · -- the last byte of an odd length
      rw [execBlock_flash_frame hrange, hbefore hi, Prog.ByteTaken]
      · simp [hprog]
      · intro j hj
        rw [Ne, add_ofNat_inj (by omega) (by omega)]
        omega
  constructor
  · intro h i hi
    exact (hbyte i hi).mp (h i hi)
  · intro h i hi
    exact (hbyte i hi).mpr (h i hi)

/-! ### From the execution to the report -/

/-- The newest entry of `log` is a `DFU_GETSTATUS` answered with an OK status and
    `dfuDNLOAD-IDLE`, and nothing was carried out since the log was `older`. -/
def ReportsDone (older log : List DfuEvent) : Prop :=
  ∃ new, log = .status dfuStatusOk .dnloadIdle :: new ++ older ∧ ∀ p, .exec p ∉ new

/-- With such a report the flash is what it was. -/
theorem Quiet.flash_of_reportsDone {f f' : Dfu} (h : Quiet f f') (hr : ReportsDone f.log f'.log) :
    f'.store.flash = f.store.flash := by
  obtain ⟨new, hlog, hflash⟩ := h
  obtain ⟨mid, hmid, hno⟩ := hr
  have hnew : new = .status dfuStatusOk .dnloadIdle :: mid :=
    List.append_cancel_right (hlog.symm.trans hmid)
  apply hflash
  intro p hp
  rw [hnew] at hp
  simp only [List.mem_cons, reduceCtorEq, false_or] at hp
  exact hno p hp

/-- The entry is such a report. -/
def DfuEvent.reportsIdle : DfuEvent → Bool
  | .status bStatus bState => bStatus == dfuStatusOk && bState == .dnloadIdle
  | _ => false

/-- A log with one entry more, which is such a report. -/
theorem Quiet.reportsDone {f f' : Dfu} (h : Quiet f f')
    (hlen : f'.log.length = f.log.length + 1)
    (hnew : f'.log.head?.any DfuEvent.reportsIdle = true) : ReportsDone f.log f'.log := by
  obtain ⟨new, hlog, -⟩ := h
  rw [hlog] at hlen hnew ⊢
  obtain ⟨one, rfl⟩ : ∃ one, new = [one] := by
    rw [List.length_append] at hlen
    exact List.length_eq_one_iff.mp (by omega)
  refine ⟨[], ?_, by simp⟩
  cases one with
  | status bStatus bState =>
    simp only [List.cons_append, List.nil_append, List.head?_cons, Option.any_some,
      DfuEvent.reportsIdle, Bool.and_eq_true, beq_iff_eq] at hnew
    rw [hnew.1, hnew.2]
  | _ => simp [DfuEvent.reportsIdle] at hnew

/-! ### Runs -/

/-- Event `e` carries out the block `p` that was dispatched last, and its range lies in the
    application region. -/
structure BlockExecuted (d : Dev) (e : BusEvent) (p : Prog) : Prop where
  completes : d.Completes e
  busy : d.dfu.state = .dnbusy
  last : lastDnload d.dfu.log = some p
  block : p.blocknum ≠ 0
  range : p.RangeInApp

/-- **Reading back.**  In every run, once the device reports the block finished that was
    downloaded last, the flash holds its payload exactly when every byte was taken: it was
    there before, or it is in one of the `len / 2` half-words and that half-word was blank
    once the page of the base had been erased, if the window there was dirty. -/
theorem run_readsBack_iff (b : Board) (evs : List BusEvent) {e : BusEvent} {p : Prog}
    (h : BlockExecuted ((Dev.init b).run evs) e p) (evs' : List BusEvent)
    (hdone : ReportsDone (((Dev.init b).run evs).step e).dfu.log
      ((((Dev.init b).run evs).step e).run evs').dfu.log) :
    p.HeldBy ((((Dev.init b).run evs).step e).run evs').dfu.store.flash
      ↔ ((Dev.init b).run evs).dfu.Takes p := by
  rw [(run_quiet _ evs').flash_of_reportsDone hdone]
  obtain ⟨hcomplete, hbusy, hlast, hblock, hrange⟩ := h
  obtain ⟨hwait, -⟩ := (run_downloadInv b evs).state.1 (Or.inr hbusy)
  obtain rfl : ((Dev.init b).run evs).dfu.prog = p := by
    rw [hlast] at hwait
    exact (Option.some.inj hwait).symm
  revert hcomplete hbusy hblock hrange
  generalize (Dev.init b).run evs = d
  intro hcomplete hbusy hblock hrange
  rw [step_dfu_of_completes hcomplete, usbdfuGetstatusComplete_block hbusy hblock]
  -- the store is unlocked before anything else is done
  refine (execBlock_heldBy_iff (d := { d.dfu with store := flashUnlock d.dfu.store })
    (by simp) hrange).trans ?_
  have herased : ({ d.dfu with store := flashUnlock d.dfu.store } : Dfu).erasedFor d.dfu.prog
      = d.dfu.erasedFor d.dfu.prog := by
    funext x
    simp only [Dfu.erasedFor, flashUnlock_flash]
    rfl
  simp only [Dfu.Takes, herased]

/-- A host downloads the single byte `0xAA` to `0x08002000`; the poll that carries the block
    out and the `DFU_GETSTATUS` after it are still to come. -/
def oddBlock : List BusEvent :=
  (session (dnloadPackets 0 (commandBytes cmdSetaddr 0x08002000) ++ getstatusPackets
    ++ dnloadPackets 2 [0xAA] ++ getstatusPackets)).dropLast

/-- What the two runs come to, evaluated once. -/
theorem oddBlock_evaluated :
    (((Dev.init blankBoard).run oddBlock).Completes .poll
        ∧ ((Dev.init blankBoard).run oddBlock).dfu.state = .dnbusy
        ∧ ((Dev.init blankBoard).run oddBlock).dfu.prog.blocknum ≠ 0
        ∧ ((Dev.init blankBoard).run oddBlock).dfu.prog.RangeInApp)
      ∧ ((((Dev.init blankBoard).run oddBlock).step .poll).run
            (polled getstatusPackets)).dfu.log.length
          = (((Dev.init blankBoard).run oddBlock).step .poll).dfu.log.length + 1
      ∧ ((((Dev.init blankBoard).run oddBlock).step .poll).run
            (polled getstatusPackets)).dfu.log.head?.any DfuEvent.reportsIdle = true
      ∧ ¬ ((Dev.init blankBoard).run oddBlock).dfu.prog.HeldBy
          ((((Dev.init blankBoard).run oddBlock).step .poll).run
            (polled getstatusPackets)).dfu.store.flash := by
  decide +kernel

/-- The block is carried out and reported as finished. -/
theorem oddBlock_reported :
    BlockExecuted ((Dev.init blankBoard).run oddBlock) .poll
        ((Dev.init blankBoard).run oddBlock).dfu.prog
      ∧ ReportsDone (((Dev.init blankBoard).run oddBlock).step .poll).dfu.log
          ((((Dev.init blankBoard).run oddBlock).step .poll).run
            (polled getstatusPackets)).dfu.log := by
  obtain ⟨⟨hcomplete, hbusy, hblock, hrange⟩, hlength, hreport, -⟩ := oddBlock_evaluated
  have hinv := run_downloadInv blankBoard oddBlock
  exact ⟨⟨hcomplete, hbusy, (hinv.state.1 (Or.inr hbusy)).1, hblock, hrange⟩,
    (run_quiet _ _).reportsDone hlength hreport⟩

/-- Its byte is not there. -/
theorem oddBlock_not_held :
    BlockExecuted ((Dev.init blankBoard).run oddBlock) .poll
        ((Dev.init blankBoard).run oddBlock).dfu.prog
      ∧ ReportsDone (((Dev.init blankBoard).run oddBlock).step .poll).dfu.log
          ((((Dev.init blankBoard).run oddBlock).step .poll).run
            (polled getstatusPackets)).dfu.log
      ∧ ¬ ((Dev.init blankBoard).run oddBlock).dfu.prog.HeldBy
          ((((Dev.init blankBoard).run oddBlock).step .poll).run
            (polled getstatusPackets)).dfu.store.flash := by
  obtain ⟨-, -, -, hlost⟩ := oddBlock_evaluated
  exact ⟨oddBlock_reported.1, oddBlock_reported.2, hlost⟩

/-- The general statement there. -/
theorem run_readsBack_oddBlock :
    ((Dev.init blankBoard).run oddBlock).dfu.prog.HeldBy
        ((((Dev.init blankBoard).run oddBlock).step .poll).run
          (polled getstatusPackets)).dfu.store.flash
      ↔ ((Dev.init blankBoard).run oddBlock).dfu.Takes
          ((Dev.init blankBoard).run oddBlock).dfu.prog :=
  run_readsBack_iff blankBoard oddBlock oddBlock_reported.1 (polled getstatusPackets)
    oddBlock_reported.2

end Stm32F1Dfu
