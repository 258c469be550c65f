import Stm32F1Dfu.Device

namespace Stm32F1Dfu

/-!
# Control transfers of a host

The packets of the transfers a DFU host makes, and the board the examples run on.  A
download is a `DFU_DNLOAD` followed by a `DFU_GETSTATUS`, in whose status stage it is
carried out.
-/

/-! ### Packets -/

/-- The packets of `n` data stages of 64 bytes at most, for `data` of up to `64 * n`
    bytes. -/
def packetsOf : Nat → List UInt8 → List (List UInt8)
  | 0, _        => []
  | n + 1, data => if data.length ≤ 64 then [data] else data.take 64 :: packetsOf n (data.drop 64)

/-- The packets a data stage is cut into. -/
def packets (data : List UInt8) : List (List UInt8) := packetsOf (data.length / 64 + 1) data

/-- A request to the DFU interface. -/
def dfuRequest (bmRequestType bRequest : UInt8) (wValue wLength : UInt16) : UsbSetupData :=
  { bmRequestType, bRequest, wValue, wIndex := 0, wLength }

/-- The SETUP packet of a host-to-device `DFU_DNLOAD`. -/
def dnloadRequest (blocknum len : UInt16) : UsbSetupData := dfuRequest 0x21 1 blocknum len

/-- The SETUP packet of a `DFU_GETSTATUS`. -/
def getstatusRequest : UsbSetupData := dfuRequest 0xA1 3 0 6

/-- The packets of a host-to-device `DFU_DNLOAD`. -/
def dnloadPackets (blocknum : UInt16) (data : List UInt8) : List BusEvent :=
  .setup (dnloadRequest blocknum (UInt16.ofNat data.length))
    :: (packets data).map .out ++ [.ack]

/-- The packets of a `DFU_GETSTATUS`: its six bytes fit one packet. -/
def getstatusPackets : List BusEvent := [.setup getstatusRequest, .ack, .out []]

/-- The bytes of a command with an address operand. -/
def commandBytes (cmd : UInt8) (addr : UInt32) : List UInt8 :=
  [cmd, addr.toUInt8, (addr >>> 8).toUInt8, (addr >>> 16).toUInt8, (addr >>> 24).toUInt8]

/-- Every packet followed by one poll. -/
def polled (packets : List BusEvent) : List BusEvent := packets.flatMap fun e => [e, .poll]

/-- A bus reset, then packets that are polled one by one. -/
def session (packets : List BusEvent) : List BusEvent := polled (.busReset :: packets)

/-- A board with blank memories. -/
def blankBoard : Board where
  flash := fun _ => 0xFF
  sram := fun _ => 0xFF
  locked := true
  ram := fun _ => 0
  pm := fun _ => 0
  uniqueId := fun _ => 0
  safeWrite := false

end Stm32F1Dfu
