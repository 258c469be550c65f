import Stm32F1Dfu.Driver

namespace Stm32F1Dfu

/-!
# No code reads what was recorded

The operations of a store and the two logs only record what was done.  `onto` puts older
records under those of a store, of the driver or of the device, and commutes with
everything that the code does (`step_onto`): a step does the same whatever was recorded
before, and records the same on top of it.
-/

/-! ### The stores -/

/-- The store with `ops` issued before. -/
def Store.onto (s : Store) (ops : List StoreOp) : Store := { s with ops := s.ops ++ ops }

theorem flashUnlock_onto (s : Store) (ops : List StoreOp) :
    flashUnlock (s.onto ops) = (flashUnlock s).onto ops := by
  unfold flashUnlock Store.onto
  split <;> rfl

theorem Store.issue_onto (s : Store) (op : StoreOp) (ops : List StoreOp) :
    (s.onto ops).issue op = (s.issue op).onto ops := by
  cases op <;> rfl

theorem eraseIfDirty_onto (s : Store) (a : UInt32) (ops : List StoreOp) :
    eraseIfDirty (s.onto ops) a = (eraseIfDirty s a).onto ops := by
  have herase : flashErasePage (s.onto ops) a = (flashErasePage s a).onto ops := by
    unfold flashErasePage
    rw [Store.issue_onto]
    show (if s.locked then s.onto ops else _) = _
    split <;> rfl
  unfold eraseIfDirty
  rw [herase]
  show (if !flashPageIsErased s.flash a then _ else s.onto ops) = _
  split <;> rfl

theorem erasePages_onto (s : Store) (a : UInt32) (n : Nat) (ops : List StoreOp) :
    erasePages (s.onto ops) a n = (erasePages s a n).onto ops := by
  induction n with
  | zero => rfl
  | succ n ih => rw [erasePages, ih, eraseIfDirty_onto, erasePages]

theorem flashProgramLoop_onto (s : Store) (a : UInt32) (data : Nat → UInt8) (n : Nat)
    (ops : List StoreOp) :
    flashProgramLoop (s.onto ops) a data n = (flashProgramLoop s a data n).onto ops := by
  have hhalf (s : Store) (a : UInt32) (w : UInt16) :
      flashProgramHalf (s.onto ops) a w = (flashProgramHalf s a w).onto ops := by
    unfold flashProgramHalf
    rw [Store.issue_onto]
    show (if s.locked then s.onto ops else _) = _
    split <;> rfl
  induction n with
  | zero => rfl
  | succ n ih => rw [flashProgramLoop, ih, hhalf, flashProgramLoop]

/-! ### The driver -/

/-- The driver with `log` recorded and `ops` issued before. -/
def Dfu.onto (f : Dfu) (log : List DfuEvent) (ops : List StoreOp) : Dfu :=
  { f with store := f.store.onto ops, log := f.log ++ log }

section

variable (f : Dfu) (log : List DfuEvent) (ops : List StoreOp)

theorem ifdefSafeWrite_onto :
    ifdefSafeWrite (f.onto log ops) = (ifdefSafeWrite f).onto log ops := by
  have hcheck : checkDoErase (f.onto log ops) = (checkDoErase f).onto log ops := by
    unfold checkDoErase
    show (if f.erased then f.onto log ops
      else { f.onto log ops with store := erasePages (f.store.onto ops) startAddr 120,
                                 erased := true }) = _
    rw [erasePages_onto]
    split <;> rfl
  unfold ifdefSafeWrite
  rw [hcheck]
  show (if f.safeWrite then _ else f.onto log ops) = _
  split <;> rfl

theorem execErase_onto : execErase (f.onto log ops) = (execErase f).onto log ops := by
  unfold execErase
  rw [ifdefSafeWrite_onto]
  generalize ifdefSafeWrite f = g
  show (if inRange g.prog.operand 1024 then
      { g.onto log ops with store := eraseIfDirty (g.store.onto ops) g.prog.operand }
    else g.onto log ops) = _
  rw [eraseIfDirty_onto]
  simp only
  split <;> rfl

theorem execBlock_onto : execBlock (f.onto log ops) = (execBlock f).onto log ops := by
  unfold execBlock
  rw [ifdefSafeWrite_onto]
  generalize ifdefSafeWrite f = g
  show (if inRange g.prog.baseaddr g.prog.len.toUInt32 then
      { g.onto log ops with
        store := flashProgramLoop (eraseIfDirty (g.store.onto ops) g.prog.baseaddr)
          g.prog.baseaddr g.prog.buf (g.prog.len.toNat / 2) }
    else g.onto log ops) = _
  rw [eraseIfDirty_onto, flashProgramLoop_onto]
  simp only
  split <;> rfl

theorem execProg_onto : execProg (f.onto log ops) = (execProg f).onto log ops := by
  unfold execProg
  rw [execErase_onto, execBlock_onto]
  show (if f.prog.blocknum = 0 then
      if f.prog.buf 0 = cmdErase then _
      else if f.prog.buf 0 = cmdSetaddr then _ else f.onto log ops
    else _) = _
  split_ifs <;> rfl

/-- **The completion** records on top of what is there. -/
theorem usbdfuGetstatusComplete_onto :
    usbdfuGetstatusComplete (f.onto log ops) = (usbdfuGetstatusComplete f).onto log ops := by
  by_cases hs : f.state = .dnbusy
  · have hs' : (f.onto log ops).state = .dnbusy := hs
    have hexec : execProg { f.onto log ops with store := flashUnlock (f.onto log ops).store }
        = (execProg { f with store := flashUnlock f.store }).onto log ops := by
      show execProg { f.onto log ops with store := flashUnlock (f.store.onto ops) } = _
      rw [flashUnlock_onto, ← execProg_onto]
      rfl
    rw [usbdfuGetstatusComplete_dnbusy hs', usbdfuGetstatusComplete_dnbusy hs, hexec]
    rfl
  · have hs' : (f.onto log ops).state ≠ .dnbusy := hs
    rw [usbdfuGetstatusComplete_other hs', usbdfuGetstatusComplete_other hs]
    show (if f.state = .manifest then _ else _) = _
    split <;> rfl

/-- What a request returns, with older records. -/
def DfuReturn.onto (r : DfuReturn) (log : List DfuEvent) (ops : List StoreOp) : DfuReturn :=
  { r with dfu := r.dfu.onto log ops }

/-- **A request** records on top of what is there. -/
theorem usbdfuControlRequest_onto (ctrl : Nat → UInt8) (req : UsbSetupData) (len : UInt16)
    (complete : Bool) :
    usbdfuControlRequest (f.onto log ops) ctrl req len complete
      = (usbdfuControlRequest f ctrl req len complete).onto log ops := by
  unfold usbdfuControlRequest
  cases DfuReq.ofCode req.bRequest with
  | none => rfl
  | some r =>
    cases r with
    | dnload =>
      simp only
      split <;> rfl
    | upload =>
      simp only
      by_cases h0 : req.wValue = 0
      · rw [if_pos h0, if_pos h0]
        rfl
      · rw [if_neg h0, if_neg h0]
        show (if inRange (blockAddr f.prog.addr req.wValue) 1024 then _ else _) = _
        split <;> rfl
    | getstatus =>
      simp only [usbdfuGetstatus]
      have hstate : (f.onto log ops).state = f.state := rfl
      rw [hstate]
      cases f.state <;> rfl
    | detach | clrstatus | getstate | abort => rfl

end

/-! ### The device -/

/-- What was done: the two logs and the operations issued, newest first. -/
structure Records where
  usb : List UsbEvent
  dfu : List DfuEvent
  ops : List StoreOp

/-- The records of a device. -/
def Dev.records (d : Dev) : Records where
  usb := d.log
  dfu := d.dfu.log
  ops := d.dfu.store.ops

/-- Records on top of older ones. -/
def Records.onto (r older : Records) : Records where
  usb := r.usb ++ older.usb
  dfu := r.dfu ++ older.dfu
  ops := r.ops ++ older.ops

/-- The device with `r` recorded before. -/
def Dev.onto (d : Dev) (r : Records) : Dev :=
  { d with dfu := d.dfu.onto r.dfu r.ops, log := d.log ++ r.usb }

/-- **A step** does the same whatever was recorded before. -/
theorem step_onto (d : Dev) (r : Records) (e : BusEvent) :
    (d.onto r).step e = (d.step e).onto r := by
  have hstands : Stands d e (·.onto r.dfu r.ops) (·.onto r.dfu r.ops) := by
    constructor
    case reset => rfl
    case build => exact fun _ => rfl
    case request =>
      intro req _ ctrl complete
      exact usbdfuControlRequest_onto d.dfu r.dfu r.ops ctrl req req.wLength complete
    case completion => exact fun _ => usbdfuGetstatusComplete_onto d.dfu r.dfu r.ops
    case other => exact fun _ _ => rfl
  exact step_driven d _ r.usb hstands

/-- **A run** does the same whatever was recorded before. -/
theorem run_onto (d : Dev) (r : Records) (evs : List BusEvent) :
    (d.onto r).run evs = (d.run evs).onto r :=
  (Machine.run_map (f := fun d : Dev => d.onto r) (fun d e => (step_onto d r e).symm) d evs).symm

end Stm32F1Dfu
