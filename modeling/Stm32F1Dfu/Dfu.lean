import Stm32F1Dfu.Flash

namespace Stm32F1Dfu

open LittleEndian

/-!
# `usbdfu.c`

The DFU class driver: its state, the control requests it handles and the completion
callback in which erases and writes are carried out.

A request only stores its payload (`usbdfuControlRequest`); the work is done when the
status stage of a later `GETSTATUS` completes (`usbdfuGetstatusComplete`).  `Dfu.log`
records what the driver did, newest first; no code reads it.
-/

/-! ### Requests, states and status codes of `usb.h` -/

/-- `struct usb_setup_data`. -/
structure UsbSetupData where
  bmRequestType : UInt8
  bRequest : UInt8
  wValue : UInt16
  wIndex : UInt16
  wLength : UInt16
  deriving DecidableEq, Repr

/-- `enum usbd_request_return_codes`. -/
inductive UsbdRequestReturnCodes where
  | notsupp | handled | nextCallback
  deriving DecidableEq, Repr

/-- `enum dfu_req`. -/
inductive DfuReq where
  | detach | dnload | upload | getstatus | clrstatus | getstate | abort
  deriving DecidableEq, Repr

/-- The request a `bRequest` byte names. -/
def DfuReq.ofCode : UInt8 → Option DfuReq
  | 0 => some .detach
  | 1 => some .dnload
  | 2 => some .upload
  | 3 => some .getstatus
  | 4 => some .clrstatus
  | 5 => some .getstate
  | 6 => some .abort
  | _ => none

/-- `enum dfu_state`. -/
inductive DfuState where
  | appIdle | appDetach | dfuIdle | dnloadSync | dnbusy | dnloadIdle
  | manifestSync | manifest | manifestWaitReset | uploadIdle | error
  deriving DecidableEq, Repr

/-- The number of a state in `enum dfu_state`. -/
def DfuState.code : DfuState → UInt8
  | .appIdle => 0
  | .appDetach => 1
  | .dfuIdle => 2
  | .dnloadSync => 3
  | .dnbusy => 4
  | .dnloadIdle => 5
  | .manifestSync => 6
  | .manifest => 7
  | .manifestWaitReset => 8
  | .uploadIdle => 9
  | .error => 10

/-- `DFU_STATUS_OK`. -/
def dfuStatusOk : UInt8 := 0

/-- `CMD_SETADDR`. -/
def cmdSetaddr : UInt8 := 0x21
/-- `CMD_ERASE`. -/
def cmdErase : UInt8 := 0x41

/-- `DFU_TRANSFER_SIZE`, also the size of `usbd_control_buffer` and `prog.buf`. -/
def dfuTransferSize : Nat := 1024

/-! ### The driver's state -/

/-- `prog`: the block or command of the last download and the address pointer. -/
structure Prog where
  buf : Nat → UInt8
  len : UInt16
  addr : UInt32
  blocknum : UInt16

/-- What the driver did, for the log. -/
inductive DfuEvent where
  /-- a non-empty `DFU_DNLOAD` was dispatched and stored as `p` -/
  | dnload (p : Prog)
  /-- a `DFU_GETSTATUS` was answered with this status and state -/
  | status (bStatus : UInt8) (bState : DfuState)
  /-- a `DFU_GETSTATE` was answered with this state -/
  | getstate (bState : DfuState)
  /-- another request was handled -/
  | request (r : DfuReq)
  /-- `usbdfu_getstatus_complete` ran in `dfuDNBUSY` with the stored `p` -/
  | exec (p : Prog)

/-- The statics of `usbdfu.c` and the stores it works on. -/
structure Dfu where
  /-- `usbdfu_state` -/
  state : DfuState
  prog : Prog
  store : Store
  /-- whether `ENABLE_SAFEWRITE` is compiled in -/
  safeWrite : Bool
  /-- the static `erased` of `check_do_erase` -/
  erased : Bool
  /-- `_full_system_reset` was called: the processor does nothing more -/
  reset : Bool
  log : List DfuEvent

/-- The driver at reset: idle, with zeroed statics. -/
def Dfu.init (safeWrite : Bool) (store : Store) : Dfu where
  state := .dfuIdle
  prog := { buf := fun _ => 0, len := 0, addr := 0, blocknum := 0 }
  store := store
  safeWrite := safeWrite
  erased := false
  reset := false
  log := []

/-! ### `GETSTATUS` -/

/-- `usbdfu_getstatus`: the status to report, the poll timeout and the next state. -/
def usbdfuGetstatus (d : Dfu) (bwPollTimeout : UInt32) : UInt8 × UInt32 × Dfu :=
  match d.state with
  | .dnloadSync   => (dfuStatusOk, 100, { d with state := .dnbusy })
  -- the device resets when the read is complete
  | .manifestSync => (dfuStatusOk, bwPollTimeout, { d with state := .manifest })
  | .error        => (DfuState.error.code, bwPollTimeout, d)
  | _             => (dfuStatusOk, bwPollTimeout, d)

/-- The range check of the erase and write paths and of `DFU_UPLOAD`, on 32-bit words:
    `baseaddr >= start_addr && baseaddr + n <= end_addr`. -/
def inRange (baseaddr n : UInt32) : Bool :=
  startAddr ≤ baseaddr && baseaddr + n ≤ endAddr

/-- `check_do_erase`: the application region is wiped once, page by page. -/
def checkDoErase (d : Dfu) : Dfu :=
  if d.erased then d
  else { d with store := erasePages d.store startAddr 120, erased := true }

/-- The call of `check_do_erase` under `#ifdef ENABLE_SAFEWRITE`. -/
def ifdefSafeWrite (d : Dfu) : Dfu := if d.safeWrite then checkDoErase d else d

/-- The operand of a command: `*(uint32_t *)(prog.buf + 1)`. -/
def Prog.operand (p : Prog) : UInt32 := word (p.buf 1) (p.buf 2) (p.buf 3) (p.buf 4)

/-- The address of a block: `addr + (wBlockNum - 2) * DFU_TRANSFER_SIZE`, where the
    signed offset is added modulo 2³². -/
def blockAddr (addr : UInt32) (wBlockNum : UInt16) : UInt32 :=
  addr + (wBlockNum.toUInt32 - 2) * 1024

/-- The address of the stored block. -/
def Prog.baseaddr (p : Prog) : UInt32 := blockAddr p.addr p.blocknum

/-- `usbdfu_getstatus_complete`, case `CMD_ERASE`. -/
def execErase (d : Dfu) : Dfu :=
  let d := ifdefSafeWrite d
  let baseaddr := d.prog.operand
  if inRange baseaddr 1024 then { d with store := eraseIfDirty d.store baseaddr } else d

/-- `usbdfu_getstatus_complete`, the write of a block. -/
def execBlock (d : Dfu) : Dfu :=
  let d := ifdefSafeWrite d
  let baseaddr := d.prog.baseaddr
  if inRange baseaddr d.prog.len.toUInt32 then
    { d with store := flashProgramBuffer (eraseIfDirty d.store baseaddr) baseaddr
                        d.prog.buf d.prog.len.toNat }
  else d

/-- `usbdfu_getstatus_complete`, between `_flash_unlock` and `_flash_lock`. -/
def execProg (d : Dfu) : Dfu :=
  if d.prog.blocknum = 0 then
    if d.prog.buf 0 = cmdErase then execErase d
    else if d.prog.buf 0 = cmdSetaddr then
      { d with prog := { d.prog with addr := d.prog.operand } }
    else d
  else execBlock d

/-- `usbdfu_getstatus_complete`. -/
def usbdfuGetstatusComplete (d : Dfu) : Dfu :=
  match d.state with
  | .dnbusy =>
      let d' := execProg { d with store := flashUnlock d.store }
      { d' with store := flashLock d'.store, state := .dnloadIdle,
                log := .exec d.prog :: d.log }
  | .manifest => { d with reset := true }
  | _ => d

/-! ### Control requests -/

/-- What `usbdfu_control_request` returns and leaves behind: the code, the driver, the
    control buffer, `*len` and whether `*complete` is set. -/
structure DfuReturn where
  code : UsbdRequestReturnCodes
  dfu : Dfu
  ctrl : Nat → UInt8
  len : UInt16
  complete : Bool

/-- `memcpy(dst, src, n)`. -/
def memcpy (dst src : Nat → UInt8) (n : Nat) : Nat → UInt8 :=
  fun i => if i < n then src i else dst i

/-- The control buffer with its first bytes assigned from a list. -/
def assign (dst : Nat → UInt8) (bytes : List UInt8) : Nat → UInt8 :=
  memcpy dst (fun i => bytes.getD i 0) bytes.length

/-- The `prog` that a non-empty `DFU_DNLOAD` stores. -/
def storeProg (p : Prog) (ctrl : Nat → UInt8) (wValue len : UInt16) : Prog :=
  let len := if len.toNat > dfuTransferSize then 1024 else len
  { p with blocknum := wValue, len := len, buf := memcpy p.buf ctrl len.toNat }

/-- `usbdfu_control_request`, with `usbd_control_buffer`, `*len` and `*complete` as they
    are on entry. -/
def usbdfuControlRequest (d : Dfu) (ctrl : Nat → UInt8) (req : UsbSetupData) (len : UInt16)
    (complete : Bool) : DfuReturn :=
  let log (r : DfuReq) := DfuEvent.request r :: d.log
  match DfuReq.ofCode req.bRequest with
  | some .dnload =>
      if len = 0 then
        { code := .handled, dfu := { d with state := .manifestSync, log := log .dnload },
          ctrl, len, complete := true }
      else
        let p := storeProg d.prog ctrl req.wValue len
        { code := .handled,
          dfu := { d with prog := p, state := .dnloadSync, log := .dnload p :: d.log },
          ctrl, len, complete }
  | some .clrstatus =>
      let state := if d.state = .error then .dfuIdle else d.state
      { code := .handled, dfu := { d with state := state, log := log .clrstatus },
        ctrl, len, complete }
  | some .abort =>
      { code := .handled, dfu := { d with state := .dfuIdle, log := log .abort },
        ctrl, len, complete }
  | some .detach =>
      { code := .handled, dfu := { d with state := .manifestSync, log := log .detach },
        ctrl, len, complete := true }
  | some .upload =>
      if req.wValue = 0 then
        { code := .handled, dfu := { d with state := .uploadIdle, log := log .upload },
          ctrl := assign ctrl [0x00, cmdSetaddr, cmdErase], len := 3, complete }
      else
        let baseaddr := blockAddr d.prog.addr req.wValue
        if inRange baseaddr 1024 then
          { code := .handled, dfu := { d with state := .uploadIdle, log := log .upload },
            ctrl := memcpy ctrl (fun i => d.store.flash (baseaddr + UInt32.ofNat i))
              dfuTransferSize,
            len := 1024, complete }
        else
          { code := .handled, dfu := { d with state := .error, log := log .upload },
            ctrl, len := 0, complete }
  | some .getstatus =>
      let (bStatus, bwPollTimeout, d') := usbdfuGetstatus d 0
      { code := .handled, dfu := { d' with log := .status bStatus d'.state :: d.log },
        ctrl := assign ctrl [bStatus, bwPollTimeout.toUInt8, (bwPollTimeout >>> 8).toUInt8,
          (bwPollTimeout >>> 16).toUInt8, d'.state.code, 0],
        len := 6, complete := true }
  | some .getstate =>
      { code := .handled, dfu := { d with log := .getstate d.state :: d.log },
        ctrl := assign ctrl [d.state.code], len := 1, complete }
  | none => { code := .nextCallback, dfu := d, ctrl, len, complete }

/-! ### What a request does to the driver -/

/-- The ways in which a request changes the driver. -/
inductive RequestEffect (d : Dfu) : Dfu → Prop where
  /-- it is not a request of the class -/
  | pass : RequestEffect d d
  /-- a non-empty `DFU_DNLOAD` stores 1 to 1024 bytes -/
  | download (p : Prog) (haddr : p.addr = d.prog.addr)
      (hlen : 0 < p.len.toNat ∧ p.len.toNat ≤ 1024) :
      RequestEffect d { d with prog := p, state := .dnloadSync, log := .dnload p :: d.log }
  /-- `DFU_GETSTATUS` takes the next state and reports it -/
  | status (bStatus : UInt8) (s : DfuState)
      (h : d.state = .dnloadSync ∧ s = .dnbusy ∧ bStatus = dfuStatusOk
        ∨ d.state = .manifestSync ∧ s = .manifest ∧ bStatus = dfuStatusOk
        ∨ d.state = .error ∧ s = .error ∧ bStatus = DfuState.error.code
        ∨ d.state ≠ .dnloadSync ∧ d.state ≠ .manifestSync ∧ d.state ≠ .error ∧ s = d.state
            ∧ bStatus = dfuStatusOk) :
      RequestEffect d { d with state := s, log := .status bStatus s :: d.log }
  /-- `DFU_GETSTATE` reports the state -/
  | getstate : RequestEffect d { d with log := .getstate d.state :: d.log }
  /-- another request of the class sets the state: to `dfuERROR` only if it is a
      `DFU_UPLOAD` -/
  | other (r : DfuReq) (s : DfuState)
      (h : s = .manifestSync ∨ s = .dfuIdle ∨ s = .uploadIdle ∨ s = .error ∧ r = .upload
        ∨ s = d.state) :
      RequestEffect d { d with state := s, log := .request r :: d.log }

/-- A stored length is cut to the size of `prog.buf`. -/
theorem storeProg_len (p : Prog) (ctrl : Nat → UInt8) (wValue len : UInt16) :
    (storeProg p ctrl wValue len).len.toNat = min len.toNat 1024 := by
  show (if len.toNat > 1024 then (1024 : UInt16) else len).toNat = min len.toNat 1024
  by_cases h : len.toNat > 1024
  · rw [if_pos h]
    show 1024 = _
    omega
  · rw [if_neg h]
    omega

theorem uint16_pos {n : UInt16} (h : n ≠ 0) : 0 < n.toNat := by
  rw [Nat.pos_iff_ne_zero]
  intro h0
  exact h (UInt16.toNat_inj.mp h0)

/-- **What a request does to the driver.** -/
theorem usbdfuControlRequest_effect (d : Dfu) (ctrl : Nat → UInt8) (req : UsbSetupData)
    (len : UInt16) (complete : Bool) :
    RequestEffect d (usbdfuControlRequest d ctrl req len complete).dfu := by
  unfold usbdfuControlRequest
  cases DfuReq.ofCode req.bRequest with
  | none => exact .pass
  | some r =>
    cases r with
    | dnload =>
      simp only
      by_cases h0 : len = 0
      · rw [if_pos h0]
        exact .other _ _ (Or.inl rfl)
      · rw [if_neg h0]
        refine .download _ rfl ?_
        have hpos := uint16_pos h0
        rw [storeProg_len]
        omega
    | clrstatus =>
      refine .other _ _ ?_
      by_cases hs : d.state = .error
      · rw [if_pos hs]
        exact Or.inr (Or.inl rfl)
      · rw [if_neg hs]
        exact Or.inr (Or.inr (Or.inr (Or.inr rfl)))
    | abort => exact .other _ _ (Or.inr (Or.inl rfl))
    | detach => exact .other _ _ (Or.inl rfl)
    | upload =>
      simp only
      by_cases h0 : req.wValue = 0
      · rw [if_pos h0]
        exact .other _ _ (Or.inr (Or.inr (Or.inl rfl)))
      · rw [if_neg h0]
        split
        · exact .other _ _ (Or.inr (Or.inr (Or.inl rfl)))
        · exact .other _ _ (Or.inr (Or.inr (Or.inr (Or.inl ⟨rfl, rfl⟩))))
    | getstatus =>
      show RequestEffect d { (usbdfuGetstatus d 0).2.2 with
        log := .status (usbdfuGetstatus d 0).1 (usbdfuGetstatus d 0).2.2.state :: d.log }
      have hkeep (h1 : d.state ≠ .dnloadSync) (h2 : d.state ≠ .manifestSync)
          (h3 : d.state ≠ .error) : usbdfuGetstatus d 0 = (dfuStatusOk, 0, d) := by
        unfold usbdfuGetstatus
        cases hs : d.state <;> first | rfl | exact absurd hs ‹_›
      by_cases h1 : d.state = .dnloadSync
      · simp only [usbdfuGetstatus, h1]
        exact .status _ _ (Or.inl ⟨h1, rfl, rfl⟩)
      by_cases h2 : d.state = .manifestSync
      · simp only [usbdfuGetstatus, h2]
        exact .status _ _ (Or.inr (Or.inl ⟨h2, rfl, rfl⟩))
      by_cases h3 : d.state = .error
      · have hget : usbdfuGetstatus d 0 = (DfuState.error.code, 0, d) := by
          simp only [usbdfuGetstatus, h3]
        rw [hget]
        exact .status _ _ (Or.inr (Or.inr (Or.inl ⟨h3, h3, rfl⟩)))
      · rw [hkeep h1 h2 h3]
        exact .status _ _ (Or.inr (Or.inr (Or.inr ⟨h1, h2, h3, rfl, rfl⟩)))
    | getstate => exact .getstate

/-- A request leaves the stores, the address pointer and the build option alone: it only
    stores what the completion will act on. -/
theorem RequestEffect.frame {d d' : Dfu} (h : RequestEffect d d') :
    d'.store = d.store ∧ d'.prog.addr = d.prog.addr ∧ d'.safeWrite = d.safeWrite
      ∧ d'.erased = d.erased ∧ d'.reset = d.reset := by
  cases h with
  | download p haddr hlen => exact ⟨rfl, haddr, rfl, rfl, rfl⟩
  | pass => exact ⟨rfl, rfl, rfl, rfl, rfl⟩
  | status bStatus s h => exact ⟨rfl, rfl, rfl, rfl, rfl⟩
  | getstate => exact ⟨rfl, rfl, rfl, rfl, rfl⟩
  | other r s h => exact ⟨rfl, rfl, rfl, rfl, rfl⟩

@[simp] theorem usbdfuControlRequest_store (d : Dfu) (ctrl : Nat → UInt8) (req : UsbSetupData)
    (len : UInt16) (complete : Bool) :
    (usbdfuControlRequest d ctrl req len complete).dfu.store = d.store :=
  (usbdfuControlRequest_effect d ctrl req len complete).frame.1

@[simp] theorem usbdfuControlRequest_addr (d : Dfu) (ctrl : Nat → UInt8) (req : UsbSetupData)
    (len : UInt16) (complete : Bool) :
    (usbdfuControlRequest d ctrl req len complete).dfu.prog.addr = d.prog.addr :=
  (usbdfuControlRequest_effect d ctrl req len complete).frame.2.1

@[simp] theorem usbdfuControlRequest_safeWrite (d : Dfu) (ctrl : Nat → UInt8)
    (req : UsbSetupData) (len : UInt16) (complete : Bool) :
    (usbdfuControlRequest d ctrl req len complete).dfu.safeWrite = d.safeWrite :=
  (usbdfuControlRequest_effect d ctrl req len complete).frame.2.2.1

@[simp] theorem usbdfuControlRequest_erased (d : Dfu) (ctrl : Nat → UInt8)
    (req : UsbSetupData) (len : UInt16) (complete : Bool) :
    (usbdfuControlRequest d ctrl req len complete).dfu.erased = d.erased :=
  (usbdfuControlRequest_effect d ctrl req len complete).frame.2.2.2.1

@[simp] theorem usbdfuControlRequest_reset (d : Dfu) (ctrl : Nat → UInt8)
    (req : UsbSetupData) (len : UInt16) (complete : Bool) :
    (usbdfuControlRequest d ctrl req len complete).dfu.reset = d.reset :=
  (usbdfuControlRequest_effect d ctrl req len complete).frame.2.2.2.2

/-- The reply to a `DFU_GETSTATUS` carries the status and the state the log records. -/
theorem getstatus_reply {d : Dfu} {ctrl : Nat → UInt8} {req : UsbSetupData} {len : UInt16}
    {complete : Bool} (h : DfuReq.ofCode req.bRequest = some .getstatus) :
    let r := usbdfuControlRequest d ctrl req len complete
    r.len = 6 ∧ r.dfu.log = .status (r.ctrl 0) r.dfu.state :: d.log
      ∧ r.ctrl 4 = r.dfu.state.code := by
  unfold usbdfuControlRequest
  rw [h]
  exact ⟨rfl, rfl, rfl⟩

/-- So does the reply to a `DFU_GETSTATE`. -/
theorem getstate_reply {d : Dfu} {ctrl : Nat → UInt8} {req : UsbSetupData} {len : UInt16}
    {complete : Bool} (h : DfuReq.ofCode req.bRequest = some .getstate) :
    let r := usbdfuControlRequest d ctrl req len complete
    r.len = 1 ∧ r.dfu.log = .getstate r.dfu.state :: d.log ∧ r.ctrl 0 = r.dfu.state.code := by
  unfold usbdfuControlRequest
  rw [h]
  exact ⟨rfl, rfl, rfl⟩

end Stm32F1Dfu
