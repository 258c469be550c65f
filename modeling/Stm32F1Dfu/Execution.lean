import Stm32F1Dfu.Service

namespace Stm32F1Dfu

/-!
# Carrying out a stored download

What `usbdfu_getstatus_complete` does in `dfuDNBUSY`, one lemma for each of its parts, and
the invariants of the stored download.

* `ifdefSafeWrite_flash` — the wipe of `check_do_erase`, at most once;
* `execErase_store`, `execBlock_store` — the two commands that reach the flash;
* `execProg_frame` — everything else they leave alone;
* `execProg_issued` — the operations of an execution are those that the payload asks for;
* `usbdfuGetstatusComplete_dnbusy` — the completion;
* `run_lenOk` — a download that waits to be carried out has 1 to 1024 bytes.
-/

/-! ### The wipe of `check_do_erase` -/

/-- The wipe happens when it is compiled in and has not happened yet. -/
def Dfu.wipes (d : Dfu) : Bool := d.safeWrite && !d.erased

theorem ifdefSafeWrite_eq (d : Dfu) :
    ifdefSafeWrite d
      = if d.wipes then { d with store := erasePages d.store startAddr 120, erased := true }
        else d := by
  unfold ifdefSafeWrite checkDoErase Dfu.wipes
  cases d.safeWrite <;> cases d.erased <;> rfl

@[simp] theorem ifdefSafeWrite_prog (d : Dfu) : (ifdefSafeWrite d).prog = d.prog := by
  rw [ifdefSafeWrite_eq]
  split <;> rfl

@[simp] theorem ifdefSafeWrite_locked (d : Dfu) :
    (ifdefSafeWrite d).store.locked = d.store.locked := by
  rw [ifdefSafeWrite_eq]
  split <;> simp

/-- **The wipe** leaves the application region blank and the rest of the flash alone. -/
theorem ifdefSafeWrite_flash {d : Dfu} (hu : d.store.locked = false) (b : UInt32) :
    (ifdefSafeWrite d).store.flash b
      = if d.wipes = true ∧ InApp b then 0xFF else d.store.flash b := by
  rw [ifdefSafeWrite_eq]
  cases d.wipes with
  | false => simp
  | true =>
    show (erasePages d.store startAddr 120).flash b = _
    rw [erasePages_flash hu (by decide) (by decide)]
    simp [inApp_iff]

/-! ### The range check -/

/-- **What the range check says.**  The range lies in the region, or it ends at or past
    2³². -/
theorem inRange_iff {a n : UInt32} (hn : n.toNat ≤ 1024) :
    inRange a n = true
      ↔ 0x08002000 ≤ a.toNat ∧ a.toNat + n.toNat ≤ 0x08020000 ∨ 2 ^ 32 ≤ a.toNat + n.toNat := by
  have ha := a.toNat_lt
  simp only [inRange, Bool.and_eq_true, decide_eq_true_eq, UInt32.le_iff_toNat_le,
    UInt32.toNat_add, startAddr_toNat, endAddr_toNat]
  omega

/-! ### The commands -/

/-- `CMD_ERASE`: the page is erased when the range check passes and its window is dirty. -/
theorem execErase_store (d : Dfu) :
    (execErase d).store
      = if inRange d.prog.operand 1024 then eraseIfDirty (ifdefSafeWrite d).store d.prog.operand
        else (ifdefSafeWrite d).store := by
  simp only [execErase, ifdefSafeWrite_prog]
  split <;> rfl

/-- A block: its page is erased as for `CMD_ERASE`, and its half-words are programmed. -/
theorem execBlock_store (d : Dfu) :
    (execBlock d).store
      = if inRange d.prog.baseaddr d.prog.len.toUInt32 then
          flashProgramBuffer (eraseIfDirty (ifdefSafeWrite d).store d.prog.baseaddr)
            d.prog.baseaddr d.prog.buf d.prog.len.toNat
        else (ifdefSafeWrite d).store := by
  simp only [execBlock, ifdefSafeWrite_prog]
  split <;> rfl

/-- The address pointer after the stored download was carried out. -/
def Prog.addrAfter (p : Prog) : UInt32 :=
  if p.blocknum = 0 ∧ p.buf 0 = cmdSetaddr then p.operand else p.addr

/-- The stored download reaches the flash: it is a block or `CMD_ERASE`. -/
def Prog.Writes (p : Prog) : Prop := p.blocknum ≠ 0 ∨ p.buf 0 = cmdErase

instance (p : Prog) : Decidable p.Writes := inferInstanceAs (Decidable (_ ∨ _))

theorem cmdErase_ne_cmdSetaddr : cmdErase ≠ cmdSetaddr := by decide

/-- The two commands change the stores and `erased` only. -/
theorem execErase_frame (d : Dfu) :
    execErase d = { d with store := (execErase d).store, erased := (execErase d).erased } := by
  simp only [execErase, ifdefSafeWrite_eq]
  split <;> split <;> rfl

theorem execBlock_frame (d : Dfu) :
    execBlock d = { d with store := (execBlock d).store, erased := (execBlock d).erased } := by
  simp only [execBlock, ifdefSafeWrite_eq]
  split <;> split <;> rfl

/-- **Frame of an execution.**  Beside the stores and `erased` only the address pointer
    can change. -/
theorem execProg_frame (d : Dfu) :
    execProg d = { d with store := (execProg d).store, erased := (execProg d).erased,
                          prog := { d.prog with addr := d.prog.addrAfter } } := by
  unfold execProg Prog.addrAfter
  by_cases hb : d.prog.blocknum = 0
  · rw [if_pos hb]
    by_cases he : d.prog.buf 0 = cmdErase
    · rw [if_pos he, if_neg (by rw [he]; simp [cmdErase_ne_cmdSetaddr])]
      exact execErase_frame d
    · rw [if_neg he]
      by_cases hs : d.prog.buf 0 = cmdSetaddr
      · rw [if_pos hs, if_pos ⟨hb, hs⟩]
      · rw [if_neg hs, if_neg fun h => hs h.2]
  · rw [if_neg hb, if_neg fun h => hb h.1]
    exact execBlock_frame d

/-- The wipe is over after an execution that reaches the flash. -/
theorem execProg_erased (d : Dfu) :
    (execProg d).erased = if d.prog.Writes then d.erased || d.safeWrite else d.erased := by
  have hwipe : (ifdefSafeWrite d).erased = (d.erased || d.safeWrite) := by
    unfold ifdefSafeWrite checkDoErase
    cases hs : d.safeWrite <;> cases he : d.erased <;> simp [he]
  unfold execProg
  by_cases hb : d.prog.blocknum = 0
  · rw [if_pos hb]
    by_cases he : d.prog.buf 0 = cmdErase
    · have hw : d.prog.Writes := Or.inr he
      rw [if_pos he, if_pos hw, ← hwipe]
      simp only [execErase]
      split <;> rfl
    · have hw : ¬ d.prog.Writes := fun h => h.elim (fun h => h hb) he
      rw [if_neg he, if_neg hw]
      split <;> rfl
  · have hw : d.prog.Writes := Or.inl hb
    rw [if_neg hb, if_pos hw, ← hwipe]
    simp only [execBlock]
    split <;> rfl

/-! ### The operations of an execution -/

/-- The flash after the wipe of `check_do_erase`, if it is due. -/
def wipedFlash (m : UInt32 → UInt8) (wipes : Bool) : UInt32 → UInt8 :=
  fun b => if wipes = true ∧ InApp b then 0xFF else m b

/-- The operations of carrying `p` out once on flash `m`, newest first: the wipe if it is
    due, and then, in range, the erase of the page unless its window is blank, and for a block
    its half-words. -/
def Prog.carryOps (p : Prog) (m : UInt32 → UInt8) (wipes : Bool) : List StoreOp :=
  let wipe := if wipes then walkOps m startAddr 120 else []
  if p.blocknum = 0 then
    if p.buf 0 = cmdErase then
      (if inRange p.operand 1024 then eraseOps (wipedFlash m wipes) p.operand else []) ++ wipe
    else []
  else
    (if inRange p.baseaddr p.len.toUInt32 then
        programOps p.baseaddr p.buf (p.len.toNat / 2) ++ eraseOps (wipedFlash m wipes) p.baseaddr
      else []) ++ wipe

/-- The operations of the wipe. -/
theorem ifdefSafeWrite_issued {d : Dfu} (hu : d.store.locked = false) :
    Issued d.store (if d.wipes then walkOps d.store.flash startAddr 120 else [])
      (ifdefSafeWrite d).store := by
  rw [ifdefSafeWrite_eq]
  cases d.wipes with
  | false => exact ⟨rfl, rfl, rfl⟩
  | true =>
    have h0 : Issued d.store [] d.store := ⟨rfl, rfl, rfl⟩
    have h := h0.erasePages_walk hu (a := startAddr) (n := 120) (by decide) (by decide)
    rwa [List.append_nil] at h

/-- **The operations of an execution** are those of carrying the stored download out. -/
theorem execProg_issued {d : Dfu} (hu : d.store.locked = false) :
    Issued d.store (d.prog.carryOps d.store.flash d.wipes) (execProg d).store := by
  have hwipe := ifdefSafeWrite_issued hu
  have hopen : (ifdefSafeWrite d).store.locked = false := by simp [hu]
  have hflash : (ifdefSafeWrite d).store.flash = wipedFlash d.store.flash d.wipes :=
    funext fun b => ifdefSafeWrite_flash hu b
  have herase (a : UInt32) := hwipe.eraseIfDirty hopen a
  rw [hflash] at herase
  unfold execProg Prog.carryOps
  by_cases hb : d.prog.blocknum = 0
  · rw [if_pos hb, if_pos hb]
    by_cases he : d.prog.buf 0 = cmdErase
    · rw [if_pos he, if_pos he, execErase_store]
      by_cases hr : inRange d.prog.operand 1024 = true
      · rw [if_pos hr, if_pos hr]
        exact herase d.prog.operand
      · rw [if_neg hr, if_neg hr]
        exact hwipe
    · -- neither `CMD_SETADDR` nor an unknown command reaches the stores
      rw [if_neg he, if_neg he]
      split <;> exact ⟨rfl, rfl, rfl⟩
  · rw [if_neg hb, if_neg hb, execBlock_store]
    by_cases hr : inRange d.prog.baseaddr d.prog.len.toUInt32 = true
    · rw [if_pos hr, if_pos hr, List.append_assoc]
      exact (herase d.prog.baseaddr).flashProgramLoop (by simp [hu]) _ _ _
    · rw [if_neg hr, if_neg hr]
      exact hwipe

/-! ### The completion -/

/-- **The completion in `dfuDNBUSY`** carries the stored download out with the controller
    unlocked, locks it and goes to `dfuDNLOAD-IDLE`. -/
theorem usbdfuGetstatusComplete_dnbusy {d : Dfu} (h : d.state = .dnbusy) :
    usbdfuGetstatusComplete d
      = { d with
          store := flashLock (execProg { d with store := flashUnlock d.store }).store
          erased := (execProg { d with store := flashUnlock d.store }).erased
          prog := { d.prog with addr := d.prog.addrAfter }
          state := .dnloadIdle
          log := .exec d.prog :: d.log } := by
  have hframe := execProg_frame { d with store := flashUnlock d.store }
  unfold usbdfuGetstatusComplete
  split
  · simp only
    rw [hframe]
  · rename_i hs
    exact absurd (h.symm.trans hs) (by decide)
  · rename_i hs _
    exact absurd h hs

/-- It issues the operations of the stored download, once. -/
theorem usbdfuGetstatusComplete_issued {d : Dfu} (h : d.state = .dnbusy) :
    Issued d.store (d.prog.carryOps d.store.flash d.wipes) (usbdfuGetstatusComplete d).store := by
  obtain ⟨hops, hflash, hsram⟩ :=
    execProg_issued (d := { d with store := flashUnlock d.store }) (by simp)
  have hreplay (ops : List StoreOp) :
      (replay ops (flashUnlock d.store)).flash = (replay ops d.store).flash
        ∧ (replay ops (flashUnlock d.store)).sram = (replay ops d.store).sram := by
    induction ops with
    | nil => exact ⟨flashUnlock_flash _, flashUnlock_sram _⟩
    | cons op older ih => cases op <;> simp [replay, StoreOp.apply, ih.1, ih.2]
  rw [usbdfuGetstatusComplete_dnbusy h]
  simp only [flashUnlock_ops, flashUnlock_flash] at hops hflash hsram
  exact ⟨hops, hflash.trans (hreplay _).1, hsram.trans (hreplay _).2⟩

/-- The completion of a block leaves the flash as the block does. -/
theorem usbdfuGetstatusComplete_block {d : Dfu} (h : d.state = .dnbusy)
    (hb : d.prog.blocknum ≠ 0) :
    (usbdfuGetstatusComplete d).store.flash
      = (execBlock { d with store := flashUnlock d.store }).store.flash := by
  rw [usbdfuGetstatusComplete_dnbusy h]
  show (execProg { d with store := flashUnlock d.store }).store.flash = _
  unfold execProg
  rw [if_neg hb]

/-- The completion of `CMD_ERASE` leaves the flash as the command does. -/
theorem usbdfuGetstatusComplete_erase {d : Dfu} (h : d.state = .dnbusy)
    (hb : d.prog.blocknum = 0) (he : d.prog.buf 0 = cmdErase) :
    (usbdfuGetstatusComplete d).store.flash
      = (execErase { d with store := flashUnlock d.store }).store.flash := by
  rw [usbdfuGetstatusComplete_dnbusy h]
  show (execProg { d with store := flashUnlock d.store }).store.flash = _
  unfold execProg
  rw [if_pos hb, if_pos he]

/-- The completion of a stored command that is no erase, in `dfuDNBUSY`. -/
theorem usbdfuGetstatusComplete_of_not_writes {f : Dfu} (hs : f.state = .dnbusy)
    (hw : ¬ f.prog.Writes) :
    usbdfuGetstatusComplete f
      = { f with
          store := flashLock f.store
          prog := { f.prog with addr := f.prog.addrAfter }
          state := .dnloadIdle
          log := .exec f.prog :: f.log } := by
  have hblock : f.prog.blocknum = 0 := by
    by_contra hne
    exact hw (Or.inl hne)
  have herase : f.prog.buf 0 ≠ cmdErase := fun he => hw (Or.inr he)
  have hexec (g : Dfu) (hg : g.prog = f.prog) :
      (execProg g).store = g.store ∧ (execProg g).erased = g.erased := by
    unfold execProg
    rw [hg, if_pos hblock, if_neg herase]
    split <;> exact ⟨rfl, rfl⟩
  have hlock : flashLock (flashUnlock f.store) = flashLock f.store := by
    unfold flashUnlock
    split <;> rfl
  obtain ⟨hstore, herased⟩ := hexec { f with store := flashUnlock f.store } rfl
  rw [usbdfuGetstatusComplete_dnbusy hs, hstore, herased, hlock]

/-- In the other states it resets the system or does nothing. -/
theorem usbdfuGetstatusComplete_other {d : Dfu} (h : d.state ≠ .dnbusy) :
    usbdfuGetstatusComplete d = if d.state = .manifest then { d with reset := true } else d := by
  unfold usbdfuGetstatusComplete
  cases hs : d.state <;> first | exact absurd hs h | rfl

/-! ### The stored download -/

/-- A download that waits to be carried out has between 1 and 1024 bytes. -/
def Dfu.LenOk (d : Dfu) : Prop :=
  d.state = .dnloadSync ∨ d.state = .dnbusy → 0 < d.prog.len.toNat ∧ d.prog.len.toNat ≤ 1024

theorem RequestEffect.lenOk {d d' : Dfu} (he : RequestEffect d d') (h : d.LenOk) : d'.LenOk := by
  cases he with
  | download p haddr hlen => exact fun _ => hlen
  | pass => exact h
  | status bStatus s hs =>
    intro hwait
    apply h
    rcases hs with ⟨h0, -, -⟩ | ⟨-, rfl, -⟩ | ⟨-, rfl, -⟩ | ⟨-, -, -, rfl, -⟩
    · exact Or.inl h0
    · simp at hwait
    · simp at hwait
    · exact hwait
  | getstate => exact h
  | other r s hs =>
    intro hwait
    rcases hs with rfl | rfl | rfl | ⟨rfl, -⟩ | rfl
    · simp at hwait
    · simp at hwait
    · simp at hwait
    · simp at hwait
    · exact h hwait

theorem usbdfuGetstatusComplete_lenOk (d : Dfu) (h : d.LenOk) :
    (usbdfuGetstatusComplete d).LenOk := by
  by_cases hs : d.state = .dnbusy
  · rw [usbdfuGetstatusComplete_dnbusy hs]
    intro hwait
    simp at hwait
  · rw [usbdfuGetstatusComplete_other hs]
    split
    · exact h
    · exact h

/-- The stored length is one the driver can carry out, in every run. -/
theorem run_lenOk {d : Dev} (h : d.dfu.LenOk) (evs : List BusEvent) : (d.run evs).dfu.LenOk :=
  run_dfu_invariant (fun _ _ he => he.lenOk) usbdfuGetstatusComplete_lenOk h evs

end Stm32F1Dfu
