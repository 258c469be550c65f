import Stm32F1Dfu.Dfu
import Stm32F1Dfu.Endpoint

namespace Stm32F1Dfu

open LittleEndian

/-!
# The control endpoint of `usb.c`

The statics of `usb.c`, the standard and vendor requests and the state machine of
endpoint 0: what each handler does with one SETUP, OUT or IN event.

`Dev.ctrl` is the memory from `usbd_control_buffer` on, so an access past the 1024 bytes
of the buffer reaches whatever lies behind it.  `Dev.log` records what the driver did,
newest first; no code reads it.
-/

/-! ### State -/

/-- The USB FSM state of `usb.c`. -/
inductive UsbFsmState where
  | idle | stalled | dataIn | lastDataIn | statusIn | dataOut | lastDataOut | statusOut
  deriving DecidableEq, Repr

/-- What the control endpoint did, for the log. -/
inductive UsbEvent where
  /-- a SETUP packet was taken up -/
  | setup (req : UsbSetupData)
  /-- its request was dispatched, with this return code -/
  | dispatched (req : UsbSetupData) (code : UsbdRequestReturnCodes)
  /-- `usb_control_send_chunk` handed the bytes from offset `off` on to the endpoint -/
  | chunk (off : Nat) (data : List UInt8)
  /-- the completion of a transfer ran -/
  | complete (req : UsbSetupData)
  /-- the endpoint was stalled -/
  | stall
  deriving DecidableEq

/-- The device: the peripheral, the statics of `usb.c`, the DFU driver and the unique ID
    of the chip. -/
structure Dev where
  periph : Periph
  /-- `usb_fsm_state` -/
  fsm : UsbFsmState
  datasize : UInt16
  dataoff : UInt16
  usbNeedsZlp : Bool
  usbReq : UsbSetupData
  /-- `usb_complete_cb` is set (to `usbdfu_getstatus_complete`) -/
  usbCompleteCb : Bool
  /-- memory from `usbd_control_buffer` on -/
  ctrl : Nat → UInt8
  /-- the unique ID at `0x1FFFF7E8` -/
  uniqueId : Nat → UInt8
  dfu : Dfu
  log : List UsbEvent

/-! ### Descriptors -/

/-- `dev_desc`. -/
def devDesc : List UInt8 :=
  [18, 1, 0x00, 0x02, 0, 0, 0, 64, 0x83, 0x04, 0x11, 0xDF, 0x00, 0x02, 1, 2, 3, 1]

/-- `config_desc`: configuration, interface and DFU functional descriptor. -/
def configDesc : List UInt8 :=
  [9, 2, 27, 0, 1, 1, 5, 0xC0, 0x32,
   9, 4, 0, 0, 0, 0xFE, 1, 2, 4,
   9, 0x21, 0x0B, 0xFF, 0x00, 0x00, 0x04, 0x1A, 0x01]

/-- The WCID descriptor of the vendor request. -/
def winusbDesc : List UInt8 :=
  [0x28, 0x00, 0x00, 0x00, 0x00, 0x01, 0x04, 0x00, 0x01,
   0x00, 0x00, 0x00, 0x00, 0x00, 0x00, 0x00, 0x00, 0x01,
   0x57, 0x49, 0x4E, 0x55, 0x53, 0x42, 0x00, 0x00,
   0x00, 0x00, 0x00, 0x00, 0x00, 0x00, 0x00, 0x00,
   0x00, 0x00, 0x00, 0x00, 0x00, 0x00]

/-- The characters of a string constant. -/
def chars (s : String) : List UInt8 := s.toList.map fun c => UInt8.ofNat c.toNat

/-- `hcharset`. -/
def hcharset (nibble : UInt8) : UInt8 :=
  (chars "0123456789ABCDEF").getD nibble.toNat 0

/-- `get_dev_unique_id`: two characters for each of the 12 bytes. -/
def getDevUniqueId (uniqueId : Nat → UInt8) : List UInt8 :=
  (List.range 12).flatMap fun i =>
    [hcharset ((uniqueId i >>> 4) &&& 0xF), hcharset (uniqueId i &&& 0xF)]

/-- `_usb_strings[i]`; `safeWrite` is whether `ENABLE_SAFEWRITE` is compiled in. -/
def usbStrings (safeWrite : Bool) (uniqueId : Nat → UInt8) : Nat → List UInt8
  | 0 => chars "ESTELAR"
  | 1 => chars "DFU bootloader [02.00]"
  | 2 => getDevUniqueId uniqueId
  | 3 => chars "@Internal Flash /0x08000000/8*001Ka,120*001Kg"
  | _ => chars "Bootloader config: " ++ (if safeWrite then chars "SafeWr " else [])
      ++ chars "FW-CRC "

/-- Characters as UTF-16: each with a zero high byte. -/
def utf16 (s : List UInt8) : List UInt8 := s.flatMap fun c => [c, 0]

/-! ### Standard requests -/

/-- `usb_standard_get_descriptor`. -/
def usbStandardGetDescriptor (d : Dev) : UsbdRequestReturnCodes × Dev :=
  let descrIdx := (d.usbReq.wValue &&& 0xFF).toNat
  let descrType := d.usbReq.wValue >>> 8
  if descrType = 1 then
    (.handled, { d with ctrl := assign d.ctrl devDesc, datasize := 18 })
  else if descrType = 2 then
    (.handled, { d with ctrl := assign d.ctrl configDesc, datasize := 27 })
  else if descrType = 3 then
    -- `sd->bDescriptorType` is written before the index is looked at
    let ctrl := Function.update d.ctrl 1 3
    if descrIdx = 0 then
      (.handled, { d with ctrl := assign ctrl [4, 3, 0x09, 0x04], datasize := 4 })
    else if descrIdx = 0xEE then
      (.handled, { d with ctrl := assign ctrl ([20, 3] ++ utf16 (chars "MSFT100A" ++ [0])),
                          datasize := 20 })
    else if descrIdx - 1 ≥ 5 then (.notsupp, { d with ctrl := ctrl })
    else if d.usbReq.wIndex ≠ 0x409 then (.notsupp, { d with ctrl := ctrl })
    else
      let s := usbStrings d.dfu.safeWrite d.uniqueId (descrIdx - 1)
      let bLength := UInt8.ofNat (s.length * 2 + 2)
      (.handled, { d with ctrl := assign ctrl ([bLength, 3] ++ utf16 s),
                          datasize := bLength.toUInt16 })
  else (.notsupp, d)

/-- The loop of `SET_CONFIGURATION`: endpoints 1 to `n` are disabled. -/
def disableEndpoints (p : Periph) : Nat → Periph
  | 0     => p
  | i + 1 =>
      let p := disableEndpoints p i
      let p := usbSetEpTxStat p (UInt8.ofNat (i + 1)) txStatDisabled
      usbSetEpRxStat p (UInt8.ofNat (i + 1)) rxStatDisabled

/-- `_usbd_standard_request_device`. -/
def usbdStandardRequestDevice (d : Dev) : UsbdRequestReturnCodes × Dev :=
  match d.usbReq.bRequest with
  | 5 => -- SET_ADDRESS; the address is latched at the STATUS IN stage
      if d.usbReq.bmRequestType ≠ 0 ∨ d.usbReq.wValue ≥ 128 then (.notsupp, d)
      else (.handled, d)
  | 9 => -- SET_CONFIGURATION
      if d.usbReq.wValue = 1 then
        (.handled, { d with periph := { disableEndpoints d.periph 7 with
                                        usbPmTop := usbdPmTop + 2 * bMaxPacketSize0 } })
      else (.notsupp, d)
  | 8 => -- GET_CONFIGURATION
      (.handled, { d with ctrl := assign d.ctrl [1], datasize := 1 })
  | 6 => usbStandardGetDescriptor d
  | 0 => -- GET_STATUS always responds with zero reply
      (.handled, { d with ctrl := assign d.ctrl [0, 0], datasize := 2 })
  | _ => (.notsupp, d)

/-- `_usbd_standard_request_interface`; its `GET_STATUS` prepares the reply and then
    breaks out to the refusal. -/
def usbdStandardRequestInterface (d : Dev) : UsbdRequestReturnCodes × Dev :=
  match d.usbReq.bRequest with
  | 10 => (.handled, { d with ctrl := assign d.ctrl [1], datasize := 1 })
  | 11 => (.handled, { d with datasize := 0 })
  | 0  => (.notsupp, { d with ctrl := assign d.ctrl [0, 0], datasize := 2 })
  | _  => (.notsupp, d)

/-- `_usbd_standard_request_endpoint`; `wIndex` is truncated to the `uint8_t` argument. -/
def usbdStandardRequestEndpoint (d : Dev) : UsbdRequestReturnCodes × Dev :=
  match d.usbReq.bRequest with
  | 1 => -- CLEAR_FEATURE
      if d.usbReq.wValue = 0 then
        (.handled, { d with periph := epStallSet d.periph d.usbReq.wIndex.toUInt8 false })
      else (.notsupp, d)
  | 3 => -- SET_FEATURE
      if d.usbReq.wValue = 0 then
        (.handled, { d with periph := epStallSet d.periph d.usbReq.wIndex.toUInt8 true })
      else (.notsupp, d)
  | 0 => -- GET_STATUS
      (.handled,
        { d with ctrl := assign d.ctrl
                  [if epStallGet d.periph d.usbReq.wIndex.toUInt8 then 1 else 0, 0],
                 datasize := 2 })
  | _ => (.notsupp, d)

/-- `_usbd_standard_request`. -/
def usbdStandardRequest (d : Dev) : UsbdRequestReturnCodes × Dev :=
  if d.usbReq.bmRequestType &&& 0x60 ≠ 0 then (.notsupp, d)
  else
    match d.usbReq.bmRequestType &&& 0x1F with
    | 0 => usbdStandardRequestDevice d
    | 1 => usbdStandardRequestInterface d
    | 2 => usbdStandardRequestEndpoint d
    | _ => (.notsupp, d)

/-! ### Dispatch -/

/-- A class request to the interface: type and recipient, whatever the direction bit. -/
def UsbSetupData.isClassInterface (req : UsbSetupData) : Bool :=
  req.bmRequestType &&& 0x7F == 0x21

/-- The part of `usb_control_request_dispatch` after the class driver passed. -/
def dispatchOther (d : Dev) : UsbdRequestReturnCodes × Dev :=
  if d.usbReq.bmRequestType &&& 0x7F = 0x40 ∧ d.usbReq.bRequest = 0x41 then
    (.handled, { d with ctrl := assign d.ctrl winusbDesc, datasize := 40 })
  else usbdStandardRequest d

/-- The call of `usbdfu_control_request` with `datasize` preloaded with `wLength`. -/
def dispatchDfu (d : Dev) : UsbdRequestReturnCodes × Dev :=
  let r := usbdfuControlRequest d.dfu d.ctrl d.usbReq d.usbReq.wLength d.usbCompleteCb
  (r.code, { d with dfu := r.dfu, ctrl := r.ctrl, datasize := r.len,
                    usbCompleteCb := r.complete })

/-- `usb_control_request_dispatch`, unlogged. -/
def dispatchRequest (d : Dev) : UsbdRequestReturnCodes × Dev :=
  if d.usbReq.isClassInterface then
    let (code, d') := dispatchDfu d
    if code = .handled ∨ code = .notsupp then (code, d') else dispatchOther d'
  else dispatchOther d

/-- `usb_control_request_dispatch`. -/
def usbControlRequestDispatch (d : Dev) : UsbdRequestReturnCodes × Dev :=
  let (code, d') := dispatchRequest d
  (code, { d' with log := .dispatched d.usbReq code :: d'.log })

/-! ### The stages of a control transfer -/

/-- `_stall_transaction`. -/
def stallTransaction (d : Dev) : Dev :=
  { d with periph := epStallSet d.periph 0 true, fsm := .idle, log := .stall :: d.log }

/-- The `n` bytes of memory from offset `off` of the control buffer on. -/
def ctrlBytes (ctrl : Nat → UInt8) (off n : Nat) : List UInt8 :=
  (List.range n).map fun i => ctrl (off + i)

theorem ctrlBytes_length (ctrl : Nat → UInt8) (off n : Nat) :
    (ctrlBytes ctrl off n).length = n := by
  simp [ctrlBytes]

/-- The chunk handed to `_usbd_ep_write_packet`, and its record. -/
def writeChunk (d : Dev) (n : UInt16) : Dev :=
  let off := d.dataoff.toNat
  { d with periph := (usbdEpWritePacket d.periph 0 (fun i => d.ctrl (off + i)) n).1,
           log := .chunk off (ctrlBytes d.ctrl off n.toNat) :: d.log }

/-- `usb_control_send_chunk`. -/
def usbControlSendChunk (d : Dev) : Dev :=
  if bMaxPacketSize0 < d.datasize then
    let d := writeChunk d bMaxPacketSize0
    { d with fsm := .dataIn, dataoff := d.dataoff + bMaxPacketSize0,
             datasize := d.datasize - bMaxPacketSize0 }
  else
    let d := writeChunk d d.datasize
    { d with fsm := if d.usbNeedsZlp then .dataIn else .lastDataIn,
             usbNeedsZlp := false, datasize := 0 }

/-- `MIN(bMaxPacketSize0, wLength - datasize)`, compared as `int`. -/
def recvPacketsize (wLength datasize : UInt16) : UInt16 :=
  if datasize.toNat + bMaxPacketSize0.toNat < wLength.toNat then bMaxPacketSize0
  else wLength - datasize

/-- Memory `ctrl` with everything from offset `off` on replaced by `tail`. -/
def splice (ctrl : Nat → UInt8) (off : Nat) (tail : Nat → UInt8) : Nat → UInt8 :=
  fun i => if i < off then ctrl i else tail (i - off)

/-- `usb_control_recv_chunk`: whether the packet had the size expected, and the device. -/
def usbControlRecvChunk (d : Dev) : Bool × Dev :=
  let packetsize := recvPacketsize d.usbReq.wLength d.datasize
  let off := d.datasize.toNat
  let (p, buf, size) := usbdEpReadPacket d.periph 0 (fun i => d.ctrl (off + i)) packetsize
  let d := { d with periph := p, ctrl := splice d.ctrl off buf }
  if size ≠ packetsize then (false, stallTransaction d)
  else (true, { d with datasize := d.datasize + size })

/-- `_needs_zlp`. -/
def needsZlp (len wLength ep_size : UInt16) : Bool :=
  len < wLength && (len ≠ 0 && len % ep_size = 0)

/-- The bytes of a `usb_setup_data` in memory. -/
def UsbSetupData.toBytes (r : UsbSetupData) (i : Nat) : UInt8 :=
  [r.bmRequestType, r.bRequest, r.wValue.toUInt8, (r.wValue >>> 8).toUInt8, r.wIndex.toUInt8,
    (r.wIndex >>> 8).toUInt8, r.wLength.toUInt8, (r.wLength >>> 8).toUInt8].getD i 0

/-- The `usb_setup_data` that eight bytes of memory hold. -/
def UsbSetupData.ofBytes (b : Nat → UInt8) : UsbSetupData where
  bmRequestType := b 0
  bRequest := b 1
  wValue := half (b 2) (b 3)
  wIndex := half (b 4) (b 5)
  wLength := half (b 6) (b 7)

/-- `_usb_control_setup_read`. -/
def usbControlSetupRead (d : Dev) : Dev :=
  let maxdataout := d.usbReq.wLength
  let (code, d) := usbControlRequestDispatch { d with dataoff := 0 }
  if code ≠ .notsupp then
    let d := if d.datasize > maxdataout then { d with datasize := maxdataout } else d
    if maxdataout ≠ 0 then
      usbControlSendChunk
        { d with usbNeedsZlp := needsZlp d.datasize maxdataout bMaxPacketSize0 }
    else
      { d with periph := (usbdEpWritePacket d.periph 0 (fun _ => 0) 0).1, fsm := .statusIn }
  else stallTransaction d

/-- `_usb_control_setup_write`. -/
def usbControlSetupWrite (d : Dev) : Dev :=
  if d.usbReq.wLength.toNat > dfuTransferSize then stallTransaction d
  else
    { d with datasize := 0,
             fsm := if d.usbReq.wLength > bMaxPacketSize0 then .dataOut else .lastDataOut,
             periph := usbdEpNakSet d.periph 0 false }

/-- Whether a SETUP packet goes to `_usb_control_setup_read`. -/
def UsbSetupData.isRead (req : UsbSetupData) : Bool :=
  req.wLength == 0 || req.bmRequestType &&& 0x80 != 0

/-- `_usbd_control_setup`. -/
def usbdControlSetup (d : Dev) : Dev :=
  let d := { d with usbCompleteCb := false, periph := usbdEpNakSet d.periph 0 true }
  let (p, buf, size) := usbdEpReadPacket d.periph 0 d.usbReq.toBytes 8
  let d := { d with periph := p, usbReq := .ofBytes buf }
  if size ≠ 8 then stallTransaction d
  else
    let d := { d with log := .setup d.usbReq :: d.log }
    if d.usbReq.isRead then usbControlSetupRead d else usbControlSetupWrite d

/-- The call of `usb_complete_cb` and the end of a status stage. -/
def completeTransfer (d : Dev) : Dev :=
  { d with dfu := if d.usbCompleteCb then usbdfuGetstatusComplete d.dfu else d.dfu,
           log := .complete d.usbReq :: d.log }

/-- `_usbd_control_out`. -/
def usbdControlOut (d : Dev) : Dev :=
  match d.fsm with
  | .dataOut =>
      let (ok, d) := usbControlRecvChunk d
      if ¬ ok then d
      else if d.usbReq.wLength.toNat ≤ d.datasize.toNat + bMaxPacketSize0.toNat then
        { d with fsm := .lastDataOut }
      else d
  | .lastDataOut =>
      let (ok, d) := usbControlRecvChunk d
      if ¬ ok then d
      else
        -- the full payload is in: process it
        let (code, d) := usbControlRequestDispatch d
        if code ≠ .notsupp then
          { d with periph := (usbdEpWritePacket d.periph 0 (fun _ => 0) 0).1, fsm := .statusIn }
        else stallTransaction d
  | .statusOut =>
      let d := { d with periph := (usbdEpReadPacket d.periph 0 (fun _ => 0) 0).1, fsm := .idle }
      { completeTransfer d with usbCompleteCb := false }
  | _ => stallTransaction d

/-- `SET_REG(USB_DADDR_REG, (wValue & USB_DADDR_ADDR) | USB_DADDR_EF)`. -/
def latchAddress (p : Periph) (wValue : UInt16) : Periph :=
  p.write regDaddr ((wValue.toBitVec &&& 0x007F#16) ||| usbDaddrEf)

/-- `_usbd_control_in`. -/
def usbdControlIn (d : Dev) : Dev :=
  match d.fsm with
  | .dataIn => usbControlSendChunk d
  | .lastDataIn => { d with fsm := .statusOut, periph := usbdEpNakSet d.periph 0 false }
  | .statusIn =>
      let d := completeTransfer d
      -- exception: SET_ADDRESS takes effect here
      let p := if d.usbReq.bmRequestType = 0 ∧ d.usbReq.bRequest = 5
        then latchAddress d.periph d.usbReq.wValue else d.periph
      { d with periph := p, fsm := .idle }
  | _ => stallTransaction d

end Stm32F1Dfu
