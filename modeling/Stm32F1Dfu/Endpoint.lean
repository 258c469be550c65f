import Stm32F1Dfu.EndpointRegister
import Stm32F1Dfu.PacketMemory

namespace Stm32F1Dfu

/-!
# The peripheral and the endpoint routines of `usb.c`

`Periph` is the USB register block, indexed by 32-bit word from `USB_DEV_FS_BASE`, the
packet memory, and the two statics of the endpoint routines.  `Periph.read` and
`Periph.write` are register accesses as the hardware serves them: an endpoint number past
7 that reaches `USB_EP_REG` is an access to whatever register lies there.

`ISTR.CTR`, `DIR` and `EP_ID` are not stored: they follow the flags of endpoint 0, the
only endpoint with traffic.
-/

/-- `bMaxPacketSize0` of the device descriptor. -/
def bMaxPacketSize0 : UInt16 := 64

/-- `USBD_PM_TOP`. -/
def usbdPmTop : UInt16 := 0x40

/-! ### The register block -/

/-- Word index of `USB_CNTR_REG`. -/
abbrev regCntr : Nat := 16
/-- Word index of `USB_ISTR_REG`. -/
abbrev regIstr : Nat := 17
/-- Word index of `USB_DADDR_REG`. -/
abbrev regDaddr : Nat := 19
/-- Word index of `USB_BTABLE_REG`. -/
abbrev regBtable : Nat := 20

/-- `USB_ISTR_CTR`. -/
def usbIstrCtr : BitVec 16 := 0x8000#16
/-- `USB_ISTR_DIR`. -/
def usbIstrDir : BitVec 16 := 0x0010#16
/-- `USB_ISTR_RESET`. -/
def usbIstrReset : BitVec 16 := 0x0400#16
/-- `USB_ISTR_SUSP`. -/
def usbIstrSusp : BitVec 16 := 0x0800#16
/-- `USB_ISTR_WKUP`. -/
def usbIstrWkup : BitVec 16 := 0x1000#16
/-- `USB_ISTR_SOF`. -/
def usbIstrSof : BitVec 16 := 0x0200#16
/-- `USB_ISTR_EP_ID`. -/
def usbIstrEpId : BitVec 16 := 0x000F#16
/-- `USB_CNTR_SOFM`. -/
def usbCntrSofm : BitVec 16 := 0x0200#16
/-- `USB_DADDR_EF`. -/
def usbDaddrEf : BitVec 16 := 0x0080#16

/-- The USB peripheral with the statics `usb_pm_top` and `usb_force_nak`. -/
structure Periph where
  reg : Nat → BitVec 16
  pm : Nat → UInt16
  usbPmTop : UInt16
  usbForceNak : UInt8 → Bool

/-- The transfer bits of `USB_ISTR_REG`: `DIR` reads 1 whenever a reception is pending,
    also when a transmission is pending with it. -/
def Periph.istrCtr (p : Periph) : BitVec 16 :=
  if (epView (p.reg 0)).rxCtr then usbIstrCtr ||| usbIstrDir
  else if (epView (p.reg 0)).txCtr then usbIstrCtr
  else 0#16

/-- Read of the register at word `i`. -/
def Periph.read (p : Periph) (i : Nat) : BitVec 16 :=
  if i = regIstr then p.reg i ||| p.istrCtr else p.reg i

/-- Write of the register at word `i`; reserved and read-only words ignore it. -/
def Periph.write (p : Periph) (i : Nat) (w : BitVec 16) : Periph :=
  if i < 8 then { p with reg := Function.update p.reg i (epWrite (p.reg i) w) }
  else if i = regCntr then { p with reg := Function.update p.reg i (w &&& 0xFF1F#16) }
  -- a flag of ISTR is cleared by writing 0 to it
  else if i = regIstr then { p with reg := Function.update p.reg i (p.reg i &&& w) }
  else if i = regDaddr then { p with reg := Function.update p.reg i (w &&& 0x00FF#16) }
  else if i = regBtable then { p with reg := Function.update p.reg i (w &&& 0xFFF8#16) }
  else p

/-! ### Endpoint register macros at `USB_EP_REG(EP)` -/

/-- `USB_SET_EP_RX_STAT`. -/
def usbSetEpRxStat (p : Periph) (ep : UInt8) (stat : BitVec 16) : Periph :=
  p.write ep.toNat (setEpRxStat (p.read ep.toNat) stat)

/-- `USB_SET_EP_TX_STAT`. -/
def usbSetEpTxStat (p : Periph) (ep : UInt8) (stat : BitVec 16) : Periph :=
  p.write ep.toNat (setEpTxStat (p.read ep.toNat) stat)

/-- `USB_CLR_EP_RX_CTR`. -/
def usbClrEpRxCtr (p : Periph) (ep : UInt8) : Periph :=
  p.write ep.toNat (clrEpRxCtr (p.read ep.toNat))

/-- `USB_CLR_EP_TX_CTR`. -/
def usbClrEpTxCtr (p : Periph) (ep : UInt8) : Periph :=
  p.write ep.toNat (clrEpTxCtr (p.read ep.toNat))

/-- `USB_CLR_EP_RX_DTOG`. -/
def usbClrEpRxDtog (p : Periph) (ep : UInt8) : Periph :=
  p.write ep.toNat (clrEpRxDtog (p.read ep.toNat))

/-- `USB_CLR_EP_TX_DTOG`. -/
def usbClrEpTxDtog (p : Periph) (ep : UInt8) : Periph :=
  p.write ep.toNat (clrEpTxDtog (p.read ep.toNat))

/-- `USB_SET_EP_TYPE`. -/
def usbSetEpType (p : Periph) (ep : UInt8) (type : BitVec 16) : Periph :=
  p.write ep.toNat (setEpType (p.read ep.toNat) type)

/-- `USB_SET_EP_ADDR`. -/
def usbSetEpAddr (p : Periph) (ep : UInt8) (addr : BitVec 16) : Periph :=
  p.write ep.toNat (setEpAddr (p.read ep.toNat) addr)

/-! ### The buffer table -/

/-- Slot of entry `k` (0, 2, 4, 6) of an endpoint in the buffer table. -/
def Periph.btableSlot (p : Periph) (ep : UInt8) (k : Nat) : Nat :=
  (p.read regBtable).toNat + ep.toNat * 8 + k

/-- `USB_GET_EP_TX_ADDR`. -/
def usbGetEpTxAddr (p : Periph) (ep : UInt8) : UInt16 := p.pm (p.btableSlot ep 0)
/-- `USB_GET_EP_TX_COUNT`. -/
def usbGetEpTxCount (p : Periph) (ep : UInt8) : UInt16 := p.pm (p.btableSlot ep 2)
/-- `USB_GET_EP_RX_ADDR`. -/
def usbGetEpRxAddr (p : Periph) (ep : UInt8) : UInt16 := p.pm (p.btableSlot ep 4)
/-- `USB_GET_EP_RX_COUNT`. -/
def usbGetEpRxCount (p : Periph) (ep : UInt8) : UInt16 := p.pm (p.btableSlot ep 6)

/-- The bytes that a receive buffer takes, by its word of the buffer table: `NUM_BLOCK`
    blocks of 2 bytes, or one more of 32 bytes where `BL_SIZE` is set. -/
def rxCapacity (count : UInt16) : Nat :=
  let numBlock := ((count >>> 10) &&& 0x1f).toNat
  if count &&& 0x8000 = 0 then 2 * numBlock else 32 * (numBlock + 1)

/-- A store into the packet memory. -/
def Periph.setSlot (p : Periph) (slot : Nat) (v : UInt16) : Periph :=
  { p with pm := Function.update p.pm slot v }

/-- `USB_SET_EP_TX_ADDR`. -/
def usbSetEpTxAddr (p : Periph) (ep : UInt8) (v : UInt16) : Periph :=
  p.setSlot (p.btableSlot ep 0) v
/-- `USB_SET_EP_TX_COUNT`. -/
def usbSetEpTxCount (p : Periph) (ep : UInt8) (v : UInt16) : Periph :=
  p.setSlot (p.btableSlot ep 2) v
/-- `USB_SET_EP_RX_ADDR`. -/
def usbSetEpRxAddr (p : Periph) (ep : UInt8) (v : UInt16) : Periph :=
  p.setSlot (p.btableSlot ep 4) v
/-- `USB_SET_EP_RX_COUNT`. -/
def usbSetEpRxCount (p : Periph) (ep : UInt8) (v : UInt16) : Periph :=
  p.setSlot (p.btableSlot ep 6) v

/-! ### Packets -/

/-- `_usbd_ep_write_packet`: nothing is written while a packet waits to be sent. -/
def usbdEpWritePacket (p : Periph) (addr : UInt8) (buf : Nat → UInt8) (len : UInt16) :
    Periph × UInt16 :=
  let addr := addr &&& 0x7F
  if p.read addr.toNat &&& usbEpTxStat = txStatValid then (p, 0)
  else
    let p := { p with pm := copyToPm p.pm (usbGetEpTxAddr p addr).toNat buf len.toNat }
    let p := usbSetEpTxCount p addr len
    (usbSetEpTxStat p addr txStatValid, len)

/-- `_usbd_ep_read_packet`: returns the memory from `buf` on and the number of bytes. -/
def usbdEpReadPacket (p : Periph) (addr : UInt8) (buf : Nat → UInt8) (len : UInt16) :
    Periph × (Nat → UInt8) × UInt16 :=
  if p.read addr.toNat &&& usbEpRxStat = rxStatValid then (p, buf, 0)
  else
    let count := usbGetEpRxCount p addr &&& 0x3ff
    let len := if count < len then count else len
    let buf := copyFromPm buf p.pm (usbGetEpRxAddr p addr).toNat len.toNat
    let p := usbClrEpRxCtr p addr
    let p := if p.usbForceNak addr then p else usbSetEpRxStat p addr rxStatValid
    (p, buf, len)

/-- `_usbd_ep_nak_set`. -/
def usbdEpNakSet (p : Periph) (addr : UInt8) (nak : Bool) : Periph :=
  -- it does not make sense to force NAK on IN endpoints
  if addr &&& 0x80 ≠ 0 then p
  else
    let p := { p with usbForceNak := Function.update p.usbForceNak addr nak }
    if nak then usbSetEpRxStat p addr rxStatNak else usbSetEpRxStat p addr rxStatValid

/-- `_ep_stall_set`. -/
def epStallSet (p : Periph) (addr : UInt8) (stall : Bool) : Periph :=
  let txStat := if stall then txStatStall else txStatNak
  let p := if addr = 0 then usbSetEpTxStat p addr txStat else p
  if addr &&& 0x80 ≠ 0 then
    let addr := addr &&& 0x7F
    let p := usbSetEpTxStat p addr txStat
    -- reset to DATA0 if clearing the stall condition
    if stall then p else usbClrEpTxDtog p addr
  else
    let p := if stall then p else usbClrEpRxDtog p addr
    usbSetEpRxStat p addr (if stall then rxStatStall else rxStatValid)

/-- `_ep_stall_get`. -/
def epStallGet (p : Periph) (addr : UInt8) : Bool :=
  if addr &&& 0x80 ≠ 0 then
    p.read (addr &&& 0x7F).toNat &&& usbEpTxStat == txStatStall
  else
    p.read addr.toNat &&& usbEpRxStat == rxStatStall

/-! ### Setting up an endpoint -/

/-- `_set_ep_rx_bufsize`: the block size and count of a receive buffer. -/
def setEpRxBufsize (p : Periph) (ep : UInt8) (size : UInt32) : Periph :=
  if size > 62 then
    let size := if size &&& 0x1f ≠ 0 then size - 32 else size
    usbSetEpRxCount p ep ((size <<< 5) ||| 0x8000).toUInt16
  else
    let size := if size &&& 1 ≠ 0 then size + 1 else size
    usbSetEpRxCount p ep (size <<< 10).toUInt16

/-- The table `typelookup` of `_usbd_ep_setup`. -/
def typelookup : UInt8 → BitVec 16
  | 0 => usbEpTypeControl
  | 1 => 0x0400#16
  | 2 => 0x0000#16
  | _ => 0x0600#16

/-- `_usbd_ep_setup`. -/
def usbdEpSetup (p : Periph) (addr type : UInt8) (maxSize : UInt16) : Periph :=
  let dir := addr &&& 0x80
  let addr := addr &&& 0x7f
  let p := usbSetEpAddr p addr (BitVec.ofNat 16 addr.toNat)
  let p := usbSetEpType p addr (typelookup type)
  let p :=
    if dir ≠ 0 ∨ addr = 0 then
      let p := usbSetEpTxAddr p addr p.usbPmTop
      let p := usbClrEpTxDtog p addr
      let p := usbSetEpTxStat p addr txStatNak
      { p with usbPmTop := p.usbPmTop + maxSize }
    else p
  if dir = 0 then
    let p := usbSetEpRxAddr p addr p.usbPmTop
    let p := setEpRxBufsize p addr maxSize.toUInt32
    let p := usbClrEpRxDtog p addr
    let p := usbSetEpRxStat p addr rxStatValid
    { p with usbPmTop := p.usbPmTop + maxSize }
  else p

end Stm32F1Dfu
