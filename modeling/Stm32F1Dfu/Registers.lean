import Stm32F1Dfu.Link
import Stm32F1Dfu.Turns

namespace Stm32F1Dfu

open Machine

/-!
# The accesses of the control handlers to the peripheral

`Dev.accesses` lists, in order, the register writes and the stores to the packet memory and
to the two statics that `_usbd_control_setup`, `_usbd_control_out` and `_usbd_control_in`
make: the calls of the endpoint macros, as the code makes them, with their arguments.
`serve_accesses` says that carrying them out is what the handlers do to the peripheral.

`Access.reg` is the word of the register block that an access writes, so where the
handlers write is read off the list.
-/

/-! ### Accesses -/

/-- One access to the peripheral. -/
inductive Access where
  /-- `USB_SET_EP_RX_STAT` -/
  | setRxStat (ep : UInt8) (stat : BitVec 16)
  /-- `USB_SET_EP_TX_STAT` -/
  | setTxStat (ep : UInt8) (stat : BitVec 16)
  /-- `USB_CLR_EP_RX_CTR` -/
  | clrRxCtr (ep : UInt8)
  /-- `USB_CLR_EP_RX_DTOG` -/
  | clrRxDtog (ep : UInt8)
  /-- `USB_CLR_EP_TX_DTOG` -/
  | clrTxDtog (ep : UInt8)
  /-- the write of `USB_DADDR_REG` -/
  | latchAddress (wValue : UInt16)
  /-- `st_usbfs_copy_to_pm` into the transmit buffer -/
  | copyToPm (ep : UInt8) (buf : Nat → UInt8) (len : UInt16)
  /-- `USB_SET_EP_TX_COUNT`, in the buffer table -/
  | setTxCount (ep : UInt8) (len : UInt16)
  /-- the static `usb_force_nak[ep]` -/
  | forceNak (ep : UInt8) (nak : Bool)
  /-- the static `usb_pm_top` -/
  | pmTop (top : UInt16)

/-- What an access makes of the peripheral. -/
def Access.run (p : Periph) : Access → Periph
  | .setRxStat ep stat   => usbSetEpRxStat p ep stat
  | .setTxStat ep stat   => usbSetEpTxStat p ep stat
  | .clrRxCtr ep         => usbClrEpRxCtr p ep
  | .clrRxDtog ep        => usbClrEpRxDtog p ep
  | .clrTxDtog ep        => usbClrEpTxDtog p ep
  | .latchAddress wValue => Stm32F1Dfu.latchAddress p wValue
  | .copyToPm ep buf len =>
      { p with pm := Stm32F1Dfu.copyToPm p.pm (usbGetEpTxAddr p ep).toNat buf len.toNat }
  | .setTxCount ep len   => usbSetEpTxCount p ep len
  | .forceNak ep nak     => { p with usbForceNak := Function.update p.usbForceNak ep nak }
  | .pmTop top           => { p with usbPmTop := top }

/-- The register word an access writes. -/
def Access.reg : Access → Option Nat
  | .setRxStat ep _ | .setTxStat ep _ | .clrRxCtr ep | .clrRxDtog ep | .clrTxDtog ep =>
      some ep.toNat
  | .latchAddress _ => some regDaddr
  | .copyToPm _ _ _ | .setTxCount _ _ | .forceNak _ _ | .pmTop _ => none

/-- Accesses one after the other. -/
def runAccesses (p : Periph) (as : List Access) : Periph := Machine.run Access.run p as

theorem runAccesses_append (p : Periph) (as bs : List Access) :
    runAccesses p (as ++ bs) = runAccesses (runAccesses p as) bs :=
  run_append Access.run p as bs

/-- An access that writes another register, or none, leaves a register alone. -/
theorem Access.run_reg {a : Access} {i : Nat} (h : a.reg ≠ some i) (p : Periph) :
    (a.run p).reg i = p.reg i := by
  cases a with
  | setRxStat ep | setTxStat ep | clrRxCtr ep | clrRxDtog ep | clrTxDtog ep =>
    exact p.write_reg_of_ne _ fun hi => h (congrArg some hi.symm)
  | latchAddress wValue => exact p.write_reg_of_ne _ fun hi => h (congrArg some hi.symm)
  | copyToPm | setTxCount | forceNak | pmTop => rfl

theorem runAccesses_reg {as : List Access} {i : Nat} (h : ∀ a ∈ as, a.reg ≠ some i)
    (p : Periph) : (runAccesses p as).reg i = p.reg i := by
  induction as generalizing p with
  | nil => rfl
  | cons a as ih =>
    show (runAccesses (a.run p) as).reg i = p.reg i
    rw [ih (fun b hb => h b (List.mem_cons_of_mem a hb)), a.run_reg (h a List.mem_cons_self)]

/-! ### The endpoint routines -/

/-- The accesses of `_usbd_ep_write_packet`. -/
def writePacketAccesses (p : Periph) (addr : UInt8) (buf : Nat → UInt8) (len : UInt16) :
    List Access :=
  let addr := addr &&& 0x7F
  if p.read addr.toNat &&& usbEpTxStat = txStatValid then []
  else [.copyToPm addr buf len, .setTxCount addr len, .setTxStat addr txStatValid]

theorem writePacket_accesses (p : Periph) (addr : UInt8) (buf : Nat → UInt8) (len : UInt16) :
    (usbdEpWritePacket p addr buf len).1
      = runAccesses p (writePacketAccesses p addr buf len) := by
  unfold usbdEpWritePacket writePacketAccesses
  simp only
  split <;> rfl

/-- The accesses of `_usbd_ep_read_packet`. -/
def readPacketAccesses (p : Periph) (addr : UInt8) : List Access :=
  if p.read addr.toNat &&& usbEpRxStat = rxStatValid then []
  else if p.usbForceNak addr then [.clrRxCtr addr]
  else [.clrRxCtr addr, .setRxStat addr rxStatValid]

theorem readPacket_accesses (p : Periph) (addr : UInt8) (buf : Nat → UInt8) (len : UInt16) :
    (usbdEpReadPacket p addr buf len).1 = runAccesses p (readPacketAccesses p addr) := by
  unfold usbdEpReadPacket readPacketAccesses
  by_cases hvalid : p.read addr.toNat &&& usbEpRxStat = rxStatValid
  · rw [if_pos hvalid, if_pos hvalid]
    rfl
  · rw [if_neg hvalid, if_neg hvalid]
    -- clearing the flag leaves `usb_force_nak` alone
    have hnak : (usbClrEpRxCtr p addr).usbForceNak addr = p.usbForceNak addr :=
      congrFun (p.write_nak _ _) addr
    simp only [hnak]
    split <;> rfl

/-- The accesses of `_usbd_ep_nak_set`. -/
def nakSetAccesses (addr : UInt8) (nak : Bool) : List Access :=
  if addr &&& 0x80 ≠ 0 then []
  else [.forceNak addr nak, .setRxStat addr (if nak then rxStatNak else rxStatValid)]

theorem nakSet_accesses (p : Periph) (addr : UInt8) (nak : Bool) :
    usbdEpNakSet p addr nak = runAccesses p (nakSetAccesses addr nak) := by
  unfold usbdEpNakSet nakSetAccesses
  split
  · rfl
  · cases nak <;> rfl

/-- The accesses of `_ep_stall_set`. -/
def stallSetAccesses (addr : UInt8) (stall : Bool) : List Access :=
  let txStat := if stall then txStatStall else txStatNak
  (if addr = 0 then [.setTxStat addr txStat] else [])
    ++ if addr &&& 0x80 ≠ 0 then
        .setTxStat (addr &&& 0x7F) txStat :: if stall then [] else [.clrTxDtog (addr &&& 0x7F)]
      else
        (if stall then [] else [.clrRxDtog addr])
          ++ [.setRxStat addr (if stall then rxStatStall else rxStatValid)]

theorem stallSet_accesses (p : Periph) (addr : UInt8) (stall : Bool) :
    epStallSet p addr stall = runAccesses p (stallSetAccesses addr stall) := by
  unfold epStallSet stallSetAccesses
  simp only
  by_cases h0 : addr = 0
  · subst h0
    cases stall <;> rfl
  · rw [if_neg h0, if_neg h0]
    split <;> cases stall <;> rfl

/-- The accesses of the loop of `SET_CONFIGURATION`. -/
def disableAccesses : Nat → List Access
  | 0     => []
  | i + 1 =>
      disableAccesses i ++ [.setTxStat (UInt8.ofNat (i + 1)) txStatDisabled,
        .setRxStat (UInt8.ofNat (i + 1)) rxStatDisabled]

theorem disable_accesses (p : Periph) (n : Nat) :
    disableEndpoints p n = runAccesses p (disableAccesses n) := by
  induction n with
  | zero => rfl
  | succ n ih =>
    rw [disableAccesses, runAccesses_append, ← ih]
    rfl

/-! ### Requests -/

/-- The accesses of `_usbd_standard_request_device`: those of `SET_CONFIGURATION`. -/
def deviceRequestAccesses (req : UsbSetupData) : List Access :=
  if req.bRequest = 9 ∧ req.wValue = 1 then
    disableAccesses 7 ++ [.pmTop (usbdPmTop + 2 * bMaxPacketSize0)]
  else []

/-- The accesses of `_usbd_standard_request_endpoint`: those of `CLEAR_FEATURE` and
    `SET_FEATURE`. -/
def endpointRequestAccesses (req : UsbSetupData) : List Access :=
  if (req.bRequest = 1 ∨ req.bRequest = 3) ∧ req.wValue = 0 then
    stallSetAccesses req.wIndex.toUInt8 (req.bRequest == 3)
  else []

/-- The accesses of `_usbd_standard_request`. -/
def standardRequestAccesses (req : UsbSetupData) : List Access :=
  if req.bmRequestType &&& 0x60 ≠ 0 then []
  else if req.bmRequestType &&& 0x1F = 0 then deviceRequestAccesses req
  else if req.bmRequestType &&& 0x1F = 2 then endpointRequestAccesses req
  else []

/-- The accesses of `usb_control_request_dispatch`: neither the class driver nor the vendor
    request makes one. -/
def dispatchAccesses (req : UsbSetupData) : List Access :=
  if req.isClassInterface = true ∨ req.bmRequestType &&& 0x7F = 0x40 ∧ req.bRequest = 0x41 then []
  else standardRequestAccesses req

theorem getDescriptor_periph (d : Dev) : (usbStandardGetDescriptor d).2.periph = d.periph := by
  unfold usbStandardGetDescriptor
  simp only
  split_ifs <;> rfl

theorem deviceRequest_accesses (d : Dev) :
    (usbdStandardRequestDevice d).2.periph
      = runAccesses d.periph (deviceRequestAccesses d.usbReq) := by
  have hother (h : d.usbReq.bRequest ≠ 9) : deviceRequestAccesses d.usbReq = [] :=
    if_neg fun h' => h h'.1
  unfold usbdStandardRequestDevice
  split
  case h_1 h5 =>
    rw [hother (by simp [h5])]
    split <;> rfl
  case h_2 h9 =>
    by_cases h1 : d.usbReq.wValue = 1
    · have hconfig : deviceRequestAccesses d.usbReq
          = disableAccesses 7 ++ [.pmTop (usbdPmTop + 2 * bMaxPacketSize0)] := if_pos ⟨h9, h1⟩
      rw [if_pos h1, hconfig, runAccesses_append, ← disable_accesses]
      rfl
    · have hrefused : deviceRequestAccesses d.usbReq = [] := if_neg fun h => h1 h.2
      rw [if_neg h1, hrefused]
      rfl
  case h_3 h8 =>
    rw [hother (by simp [h8])]
    rfl
  case h_4 h6 =>
    rw [hother (by simp [h6])]
    exact getDescriptor_periph d
  case h_5 h0 =>
    rw [hother (by simp [h0])]
    rfl
  case h_6 =>
    rw [hother (by assumption)]
    rfl

theorem endpointRequest_accesses (d : Dev) :
    (usbdStandardRequestEndpoint d).2.periph
      = runAccesses d.periph (endpointRequestAccesses d.usbReq) := by
  have hset (stall : Bool) (hreq : d.usbReq.bRequest = 1 ∨ d.usbReq.bRequest = 3)
      (hstall : (d.usbReq.bRequest == 3) = stall) (h0 : d.usbReq.wValue = 0) :
      endpointRequestAccesses d.usbReq = stallSetAccesses d.usbReq.wIndex.toUInt8 stall :=
    hstall ▸ if_pos ⟨hreq, h0⟩
  have hvalue (h0 : d.usbReq.wValue ≠ 0) : endpointRequestAccesses d.usbReq = [] :=
    if_neg fun h => h0 h.2
  have hother (h1 : d.usbReq.bRequest ≠ 1) (h3 : d.usbReq.bRequest ≠ 3) :
      endpointRequestAccesses d.usbReq = [] :=
    if_neg fun h => h.1.elim h1 h3
  unfold usbdStandardRequestEndpoint
  split
  case h_1 h1 =>
    by_cases h0 : d.usbReq.wValue = 0
    · rw [if_pos h0, hset false (Or.inl h1) (by simp [h1]) h0]
      exact stallSet_accesses _ _ _
    · rw [if_neg h0, hvalue h0]
      rfl
  case h_2 h3 =>
    by_cases h0 : d.usbReq.wValue = 0
    · rw [if_pos h0, hset true (Or.inr h3) (by simp [h3]) h0]
      exact stallSet_accesses _ _ _
    · rw [if_neg h0, hvalue h0]
      rfl
  case h_3 h0 =>
    rw [hother (by simp [h0]) (by simp [h0])]
    rfl
  case h_4 h1 h3 h0 =>
    rw [hother h1 h3]
    rfl

theorem standardRequest_accesses (d : Dev) :
    (usbdStandardRequest d).2.periph = runAccesses d.periph (standardRequestAccesses d.usbReq) := by
  unfold usbdStandardRequest standardRequestAccesses
  by_cases htype : d.usbReq.bmRequestType &&& 0x60 ≠ 0
  · rw [if_pos htype, if_pos htype]
    rfl
  rw [if_neg htype, if_neg htype]
  split
  case h_1 h0 =>
    rw [if_pos h0]
    exact deviceRequest_accesses d
  case h_2 h1 =>
    -- an interface is no recipient with accesses
    rw [if_neg (by simp [h1]), if_neg (by simp [h1])]
    unfold usbdStandardRequestInterface
    split <;> rfl
  case h_3 h2 =>
    rw [if_neg (by simp [h2]), if_pos h2]
    exact endpointRequest_accesses d
  case h_4 h0 h1 h2 =>
    rw [if_neg h0, if_neg h2]
    rfl

/-- The class driver and the vendor request leave the peripheral alone. -/
theorem dispatch_accesses (d : Dev) :
    (usbControlRequestDispatch d).2.periph
      = runAccesses d.periph (dispatchAccesses d.usbReq) := by
  show (dispatchRequest d).2.periph = _
  unfold dispatchAccesses
  cases hclass : d.usbReq.isClassInterface with
  | true =>
    rw [dispatchRequest_class hclass, if_pos (Or.inl rfl)]
    split <;> rfl
  | false =>
    rw [dispatchRequest_other hclass]
    unfold dispatchOther
    by_cases hvendor : d.usbReq.bmRequestType &&& 0x7F = 0x40 ∧ d.usbReq.bRequest = 0x41
    · rw [if_pos hvendor, if_pos (Or.inr hvendor)]
      rfl
    · rw [if_neg hvendor, if_neg (by simp [hvendor])]
      exact standardRequest_accesses d

/-! ### The handlers -/

/-- The accesses of `_stall_transaction`. -/
def stallAccesses : List Access := stallSetAccesses 0 true

theorem stall_accesses (d : Dev) :
    (stallTransaction d).periph = runAccesses d.periph stallAccesses :=
  stallSet_accesses d.periph 0 true

/-- The accesses of `usb_control_send_chunk`. -/
def Dev.sendChunkAccesses (d : Dev) : List Access :=
  writePacketAccesses d.periph 0 (fun i => d.ctrl (d.dataoff.toNat + i))
    (if bMaxPacketSize0 < d.datasize then bMaxPacketSize0 else d.datasize)

theorem sendChunk_accesses (d : Dev) :
    (usbControlSendChunk d).periph = runAccesses d.periph d.sendChunkAccesses := by
  unfold usbControlSendChunk Dev.sendChunkAccesses
  split <;> exact writePacket_accesses d.periph 0 _ _

/-- The accesses of `_usb_control_setup_read`. -/
def Dev.setupReadAccesses (d : Dev) : List Access :=
  dispatchAccesses d.usbReq
    ++ if d.dispatchAtOnce.1 = .notsupp then stallAccesses
      else if d.usbReq.wLength ≠ 0 then d.dispatchAtOnce.2.replying.sendChunkAccesses
      else writePacketAccesses d.dispatchAtOnce.2.periph 0 (fun _ => 0) 0

theorem dispatchAtOnce_accesses (d : Dev) :
    d.dispatchAtOnce.2.periph = runAccesses d.periph (dispatchAccesses d.usbReq) :=
  dispatch_accesses { d with dataoff := 0 }

theorem setupRead_accesses (d : Dev) :
    (usbControlSetupRead d).periph = runAccesses d.periph d.setupReadAccesses := by
  unfold Dev.setupReadAccesses
  rw [runAccesses_append, ← dispatchAtOnce_accesses]
  by_cases hcode : d.dispatchAtOnce.1 = .notsupp
  · rw [usbControlSetupRead_refused hcode, if_pos hcode]
    exact stall_accesses _
  rw [if_neg hcode]
  by_cases h0 : d.usbReq.wLength = 0
  · rw [usbControlSetupRead_status hcode h0, if_neg (not_not_intro h0)]
    exact writePacket_accesses _ 0 _ 0
  · rw [usbControlSetupRead_data hcode h0, if_pos h0]
    exact sendChunk_accesses _

/-- The accesses of `_usb_control_setup_write`. -/
def Dev.setupWriteAccesses (d : Dev) : List Access :=
  if d.usbReq.wLength.toNat > dfuTransferSize then stallAccesses else nakSetAccesses 0 false

theorem setupWrite_accesses (d : Dev) :
    (usbControlSetupWrite d).periph = runAccesses d.periph d.setupWriteAccesses := by
  unfold usbControlSetupWrite Dev.setupWriteAccesses
  split
  · exact stall_accesses d
  · exact nakSet_accesses d.periph 0 false

/-- The accesses of `_usbd_control_setup`. -/
def Dev.setupAccesses (d : Dev) : List Access :=
  nakSetAccesses 0 true ++ readPacketAccesses (usbdEpNakSet d.periph 0 true) 0
    ++ match d.nextSetup with
      | none => stallAccesses
      | some req =>
          if req.isRead then (d.afterSetup req).setupReadAccesses
          else (d.afterSetup req).setupWriteAccesses

/-- Up to the request that was read. -/
theorem readSetup_accesses (d : Dev) :
    (usbdEpReadPacket (usbdEpNakSet d.periph 0 true) 0 d.usbReq.toBytes 8).1
      = runAccesses d.periph
          (nakSetAccesses 0 true ++ readPacketAccesses (usbdEpNakSet d.periph 0 true) 0) := by
  rw [runAccesses_append, ← nakSet_accesses, ← readPacket_accesses]

theorem setup_accesses (d : Dev) :
    (usbdControlSetup d).periph = runAccesses d.periph d.setupAccesses := by
  unfold Dev.setupAccesses
  rw [runAccesses_append, ← readSetup_accesses]
  cases hreq : d.nextSetup with
  | none =>
    obtain ⟨req, heq⟩ := usbdControlSetup_none hreq
    rw [heq]
    exact stall_accesses _
  | some req =>
    rw [usbdControlSetup_some hreq]
    simp only
    split
    · exact setupRead_accesses (d.afterSetup req)
    · exact setupWrite_accesses (d.afterSetup req)

/-- The accesses of `_usbd_control_out`. -/
def Dev.outAccesses (d : Dev) : List Access :=
  match d.fsm with
  | .dataOut =>
      readPacketAccesses d.periph 0 ++ if d.chunkFits then [] else stallAccesses
  | .lastDataOut =>
      readPacketAccesses d.periph 0
        ++ if d.chunkFits then
            dispatchAccesses d.usbReq
              ++ if d.dispatchWrite.1 = .notsupp then stallAccesses
                else writePacketAccesses d.dispatchWrite.2.periph 0 (fun _ => 0) 0
          else stallAccesses
  | .statusOut => readPacketAccesses d.periph 0
  | _ => stallAccesses

theorem afterChunk_accesses (d : Dev) :
    d.afterChunk.periph = runAccesses d.periph (readPacketAccesses d.periph 0) :=
  readPacket_accesses d.periph 0 _ _

theorem out_accesses (d : Dev) :
    (usbdControlOut d).periph = runAccesses d.periph d.outAccesses := by
  have hread := afterChunk_accesses d
  unfold Dev.outAccesses
  cases hfsm : d.fsm with
  | dataOut =>
    simp only
    rw [runAccesses_append, ← hread]
    cases hfits : d.chunkFits with
    | true =>
      rw [usbdControlOut_dataOut hfsm hfits]
      rfl
    | false =>
      rw [usbdControlOut_short (Or.inl hfsm) hfits]
      exact stall_accesses d.afterChunk
  | lastDataOut =>
    simp only
    rw [runAccesses_append, ← hread]
    cases hfits : d.chunkFits with
    | true =>
      have hdispatch : d.dispatchWrite.2.periph
          = runAccesses d.afterChunk.periph (dispatchAccesses d.usbReq) :=
        dispatch_accesses d.stored
      rw [usbdControlOut_lastDataOut hfsm hfits, if_pos rfl, runAccesses_append, ← hdispatch]
      by_cases hcode : (usbControlRequestDispatch d.stored).1 = .notsupp
      · have hcode' : d.dispatchWrite.1 = .notsupp := hcode
        rw [if_neg (not_not_intro hcode), if_pos hcode']
        exact stall_accesses _
      · have hcode' : d.dispatchWrite.1 ≠ .notsupp := hcode
        rw [if_pos hcode, if_neg hcode']
        exact writePacket_accesses _ 0 _ 0
    | false =>
      rw [usbdControlOut_short (Or.inr hfsm) hfits]
      exact stall_accesses d.afterChunk
  | statusOut =>
    unfold usbdControlOut
    rw [hfsm]
    exact readPacket_accesses d.periph 0 _ 0
  | idle | stalled | dataIn | lastDataIn | statusIn =>
    rw [usbdControlOut_unexpected (by simp [hfsm]) (by simp [hfsm]) (by simp [hfsm])]
    exact stall_accesses d

/-- A `SET_ADDRESS`, as `_usbd_control_in` recognises it. -/
def UsbSetupData.isSetAddress (req : UsbSetupData) : Bool :=
  req.bmRequestType == 0 && req.bRequest == 5

/-- The accesses of `_usbd_control_in`. -/
def Dev.inAccesses (d : Dev) : List Access :=
  match d.fsm with
  | .dataIn => d.sendChunkAccesses
  | .lastDataIn => nakSetAccesses 0 false
  | .statusIn => if d.usbReq.isSetAddress then [.latchAddress d.usbReq.wValue] else []
  | _ => stallAccesses

theorem in_accesses (d : Dev) :
    (usbdControlIn d).periph = runAccesses d.periph d.inAccesses := by
  unfold usbdControlIn Dev.inAccesses
  cases hfsm : d.fsm with
  | dataIn => exact sendChunk_accesses d
  | lastDataIn => exact nakSet_accesses d.periph 0 false
  | statusIn =>
    simp only
    by_cases h : d.usbReq.isSetAddress = true
    · rw [if_pos h, if_pos (by simpa [UsbSetupData.isSetAddress, completeTransfer] using h)]
      rfl
    · rw [if_neg h, if_neg (by simpa [UsbSetupData.isSetAddress, completeTransfer] using h)]
      rfl
  | idle | stalled | dataOut | lastDataOut | statusOut => exact stall_accesses d

/-- The device that the handler of `s` works on: an acknowledged IN packet has its flag
    cleared before. -/
def Dev.entering (d : Dev) : Served → Dev
  | .tx => { d with periph := usbClrEpTxCtr d.periph d.periph.servedEp }
  | _   => d

/-- The accesses of the handler of `s`. -/
def Dev.accesses (d : Dev) : Served → List Access
  | .setup => d.setupAccesses
  | .out   => d.outAccesses
  | .tx    => (d.entering .tx).inAccesses
  | _      => []

/-- **The handlers and their accesses.**  What `_usbd_control_setup`, `_usbd_control_out` and
    `_usbd_control_in` do to the peripheral are their accesses, in order. -/
theorem serve_accesses (d : Dev) {s : Served} (hs : s ≠ .reset) :
    (d.serve s).periph = runAccesses (d.entering s).periph (d.accesses s) := by
  cases s with
  | reset => exact absurd rfl hs
  | setup => exact setup_accesses d
  | out => exact out_accesses d
  | tx => exact in_accesses (d.entering .tx)
  | nothing => rfl

/-! ### What all accesses have in common -/

/-- `P` holds of every access of the endpoint routines and of the requests. -/
structure OfRoutines (P : Access → Prop) : Prop where
  nakSet : ∀ nak, ∀ a ∈ nakSetAccesses 0 nak, P a
  readPacket : ∀ p, ∀ a ∈ readPacketAccesses p 0, P a
  writePacket : ∀ p buf len, ∀ a ∈ writePacketAccesses p 0 buf len, P a
  stall : ∀ a ∈ stallAccesses, P a
  dispatch : ∀ req, ∀ a ∈ dispatchAccesses req, P a
  latchAddress : ∀ wValue, P (.latchAddress wValue)

section

variable {P : Access → Prop}

theorem OfRoutines.setupReadAccesses (h : OfRoutines P) (d : Dev) :
    ∀ a ∈ d.setupReadAccesses, P a := by
  refine List.forall_mem_append.mpr ⟨h.dispatch _, ?_⟩
  split
  · exact h.stall
  · split
    · exact h.writePacket _ _ _
    · exact h.writePacket _ _ _

theorem OfRoutines.setupAccesses (h : OfRoutines P) (d : Dev) :
    ∀ a ∈ d.setupAccesses, P a := by
  refine List.forall_mem_append.mpr
    ⟨List.forall_mem_append.mpr ⟨h.nakSet true, h.readPacket _⟩, ?_⟩
  split
  · exact h.stall
  · split
    · exact h.setupReadAccesses _
    · unfold Dev.setupWriteAccesses
      split
      · exact h.stall
      · exact h.nakSet false

theorem OfRoutines.outAccesses (h : OfRoutines P) (d : Dev) :
    ∀ a ∈ d.outAccesses, P a := by
  unfold Dev.outAccesses
  split
  · refine List.forall_mem_append.mpr ⟨h.readPacket _, ?_⟩
    split
    · exact List.forall_mem_nil _
    · exact h.stall
  · refine List.forall_mem_append.mpr ⟨h.readPacket _, ?_⟩
    split
    · refine List.forall_mem_append.mpr ⟨h.dispatch _, ?_⟩
      split
      · exact h.stall
      · exact h.writePacket _ _ _
    · exact h.stall
  · exact h.readPacket _
  · exact h.stall

theorem OfRoutines.inAccesses (h : OfRoutines P) (d : Dev) :
    ∀ a ∈ d.inAccesses, P a := by
  unfold Dev.inAccesses
  split
  · exact h.writePacket _ _ _
  · exact h.nakSet false
  · split
    · exact List.forall_mem_singleton.mpr (h.latchAddress _)
    · exact List.forall_mem_nil _
  · exact h.stall

/-- It holds of **every access of a handler**. -/
theorem OfRoutines.accesses (h : OfRoutines P) (d : Dev) (s : Served) :
    ∀ a ∈ d.accesses s, P a := by
  cases s with
  | setup => exact h.setupAccesses d
  | out => exact h.outAccesses d
  | tx => exact h.inAccesses _
  | reset | nothing => exact List.forall_mem_nil _

end

end Stm32F1Dfu
