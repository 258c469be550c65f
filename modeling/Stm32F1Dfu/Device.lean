import Stm32F1Dfu.Control
import Stm32F1Dfu.Lib.Machine

namespace Stm32F1Dfu

/-!
# The device: polling, the bus and runs

`doUsbPoll` is one round of the bootloader's loop.  `BusEvent` lists what can happen to
the device: a poll, or something on the bus, which the peripheral takes up as the
reference manual says:

* a SETUP packet is accepted whatever the two status fields say (unless reception is
  disabled); it sets `RX_CTR` and `SETUP`, sets both directions to NAK and leaves a
  pending `TX_CTR` alone;
* an OUT packet is accepted in status VALID only, sets `RX_CTR`, clears `SETUP` and sets
  reception to NAK;
* an IN packet is sent in status VALID only, sets `TX_CTR` and sets transmission to NAK.

A packet that is not accepted changes nothing, so every list of events is a run
(`Dev.run`).  The data toggles, which no code here looks at, are left out.
-/

/-! ### `usb_init` and `do_usb_poll` -/

/-- `usb_init`. -/
def usbInit (p : Periph) : Periph :=
  let p := p.write regCntr 0#16
  let p := p.write regBtable 0#16
  let p := p.write regIstr 0#16
  p.write regCntr 0x9C00#16

/-- `CLR_REG_BIT(USB_ISTR_REG, flag)`. -/
def clrIstr (p : Periph) (flag : BitVec 16) : Periph := p.write regIstr (~~~flag)

/-- `do_usb_poll`, the handling of `USB_ISTR_RESET`. -/
def handleReset (d : Dev) : Dev :=
  let p := clrIstr d.periph usbIstrReset
  let p := { p with usbPmTop := usbdPmTop }
  let p := usbdEpSetup p 0 0 bMaxPacketSize0
  { d with periph := p.write regDaddr usbDaddrEf }

/-- `do_usb_poll`, the handling of `USB_ISTR_CTR`: one direction is served, reception
    first. -/
def handleTransfer (d : Dev) (istr : BitVec 16) : Dev :=
  let ep := UInt8.ofNat (istr &&& usbIstrEpId).toNat
  if istr &&& usbIstrDir ≠ 0#16 then
    if d.periph.read ep.toNat &&& usbEpSetup ≠ 0#16 then usbdControlSetup d
    else usbdControlOut d
  else usbdControlIn { d with periph := usbClrEpTxCtr d.periph ep }

/-- `do_usb_poll`, the flags cleared at the end. -/
def handleFlags (p : Periph) (istr : BitVec 16) : Periph :=
  let p := if istr &&& usbIstrSusp ≠ 0#16 then clrIstr p usbIstrSusp else p
  let p := if istr &&& usbIstrWkup ≠ 0#16 then clrIstr p usbIstrWkup else p
  let p := if istr &&& usbIstrSof ≠ 0#16 then clrIstr p usbIstrSof else p
  p.write regCntr (p.read regCntr &&& ~~~usbCntrSofm)

/-- `do_usb_poll`. -/
def doUsbPoll (d : Dev) : Dev :=
  let istr := d.periph.read regIstr
  if istr &&& usbIstrReset ≠ 0#16 then handleReset d
  else
    let d := if istr &&& usbIstrCtr ≠ 0#16 then handleTransfer d istr else d
    { d with periph := handleFlags d.periph istr }

/-! ### The bus -/

/-- What can happen to the device. -/
inductive BusEvent where
  /-- one call of `do_usb_poll` -/
  | poll
  /-- a bus reset -/
  | busReset
  /-- suspend, wakeup or start of frame: flags of `USB_ISTR_REG` rise -/
  | raise (flags : BitVec 16)
  /-- a SETUP packet for endpoint 0 -/
  | setup (req : UsbSetupData)
  /-- an OUT data packet for endpoint 0 -/
  | out (data : List UInt8)
  /-- an IN token for endpoint 0, its packet acknowledged -/
  | ack
  deriving DecidableEq

/-- The flags of `USB_ISTR_REG` that `BusEvent.raise` can set. -/
def raisable : BitVec 16 := usbIstrSusp ||| usbIstrWkup ||| usbIstrSof

/-- The peripheral handles packets at all: `USB_DADDR_EF`. -/
def Periph.enabled (p : Periph) : Bool := (p.reg regDaddr).getLsbD 7

/-- A packet of `len` bytes `buf` is stored in the receive buffer of endpoint 0, which
    becomes `r`. -/
def Periph.receive (p : Periph) (buf : Nat → UInt8) (len : Nat) (r : BitVec 16) : Periph :=
  let base := (usbGetEpRxAddr p 0).toNat
  let count := (usbGetEpRxCount p 0 &&& 0xFC00) ||| UInt16.ofNat len
  let p' := { p with pm := pmImage p.pm base buf len, reg := Function.update p.reg 0 r }
  p'.setSlot (p.btableSlot 0 6) count

/-- A bus reset: the endpoint registers but for their flags, and the address, go to 0. -/
def Periph.busReset (p : Periph) : Periph :=
  { p with reg := fun i =>
      if i < 8 then epBusReset (p.reg i)
      else if i = regDaddr then 0#16
      else if i = regIstr then p.reg i ||| usbIstrReset
      else p.reg i }

/-- What the bus does to the peripheral. -/
def Periph.bus (p : Periph) : BusEvent → Periph
  | .poll => p
  | .busReset => p.busReset
  | .raise flags =>
      { p with reg := Function.update p.reg regIstr (p.reg regIstr ||| (flags &&& raisable)) }
  | .setup req =>
      if p.enabled ∧ (epView (p.reg 0)).rxStat ≠ rxStatDisabled then
        p.receive req.toBytes 8 (epSetupReceived (p.reg 0))
      else p
  | .out data =>
      -- a packet that the receive buffer does not hold is not acknowledged
      if p.enabled ∧ (epView (p.reg 0)).rxStat = rxStatValid
          ∧ data.length ≤ rxCapacity (usbGetEpRxCount p 0) then
        p.receive (fun i => data.getD i 0) data.length (epOutReceived (p.reg 0))
      else p
  | .ack =>
      if p.enabled ∧ (epView (p.reg 0)).txStat = txStatValid then
        { p with reg := Function.update p.reg 0 (epInCompleted (p.reg 0)) }
      else p

/-- One event.  After a system reset the processor takes no part any more. -/
def Dev.step (d : Dev) (e : BusEvent) : Dev :=
  if d.dfu.reset then d
  else
    match e with
    | .poll => doUsbPoll d
    | e     => { d with periph := d.periph.bus e }

/-! ### Runs -/

/-- What the program finds and does not set: the contents of the memories, the unique ID
    and the build option. -/
structure Board where
  flash : UInt32 → UInt8
  sram : Nat → UInt8
  /-- whether the flash controller is locked when the loop is entered -/
  locked : Bool
  /-- memory behind `usbd_control_buffer` -/
  ram : Nat → UInt8
  pm : Nat → UInt16
  uniqueId : Nat → UInt8
  safeWrite : Bool

/-- The stores of a board, with nothing issued yet. -/
def Board.store (b : Board) : Store :=
  { flash := b.flash, sram := b.sram, locked := b.locked, ops := [] }

/-- The device when the loop of `main` is entered. -/
def Dev.init (b : Board) : Dev where
  periph := usbInit { reg := fun _ => 0#16, pm := b.pm, usbPmTop := 0,
                      usbForceNak := fun _ => false }
  fsm := .idle
  datasize := 0
  dataoff := 0
  usbNeedsZlp := false
  usbReq := { bmRequestType := 0, bRequest := 0, wValue := 0, wIndex := 0, wLength := 0 }
  usbCompleteCb := false
  ctrl := fun i => if i < dfuTransferSize then 0 else b.ram i
  uniqueId := b.uniqueId
  dfu := .init b.safeWrite b.store
  log := []

/-- The device after the events `evs`. -/
def Dev.run (d : Dev) (evs : List BusEvent) : Dev := Machine.run Dev.step d evs

/-- The states the device can be in. -/
def Reachable (d : Dev) : Prop := ∃ b evs, d = (Dev.init b).run evs

end Stm32F1Dfu
