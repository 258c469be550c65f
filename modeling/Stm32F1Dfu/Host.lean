import Stm32F1Dfu.Stages
import Stm32F1Dfu.Transfers

namespace Stm32F1Dfu

open Machine

/-!
# A compliant host

A host that goes through control transfers one after the other.  It sends what the stage of
its transfer asks for, tries again what the device does not accept, gives up a transfer that
the device stalls, and may begin the next one as soon as the status stage is acknowledged.

* `Sys` — the device with such a host, one step for each poll and each packet;
* `Host.MaySend` — what a compliant host may send next;
* `TransfersOk` — what transfers are meant to come to.
-/

/-! ### The host -/

/-- What the host does next. -/
inductive HostStage where
  /-- a new transfer -/
  | ready
  | dataIn | statusOut | dataOut | statusIn
  deriving DecidableEq, Repr

/-- The host: the stage of its transfer, the request of it, the bytes of its data stage that
    went over the bus, and all packets of IN data stages received so far, newest first. -/
structure Host where
  stage : HostStage
  req : UsbSetupData
  count : Nat
  received : List (List UInt8)

/-- The stage that follows the SETUP packet of a request. -/
def UsbSetupData.firstStage (req : UsbSetupData) : HostStage :=
  if req.wLength = 0 then .statusIn
  else if req.bmRequestType &&& 0x80 ≠ 0 then .dataIn
  else .dataOut

/-- What a compliant host may send.  It sends no bus reset. -/
def Host.MaySend (h : Host) : BusEvent → Prop
  | .poll      => True
  | .raise _   => True
  | .busReset  => False
  | .setup req => h.stage = .ready ∧ req.Compliant
  | .ack       => h.stage = .dataIn ∨ h.stage = .statusIn
  | .out data  =>
      h.stage = .statusOut ∧ data = []
        ∨ h.stage = .dataOut ∧ data.length = min 64 (h.req.wLength.toNat - h.count)

instance (h : Host) (e : BusEvent) : Decidable (h.MaySend e) := by
  cases e <;> unfold Host.MaySend <;> infer_instance

/-- The device accepts the packet, as `Periph.bus` does. -/
def Periph.accepts (p : Periph) : BusEvent → Bool
  | .setup _  => p.enabled && (epView (p.reg 0)).rxStat != rxStatDisabled
  | .out data =>
      p.enabled && ((epView (p.reg 0)).rxStat == rxStatValid
        && decide (data.length ≤ rxCapacity (usbGetEpRxCount p 0)))
  | .ack      => p.enabled && (epView (p.reg 0)).txStat == txStatValid
  | _         => false

/-- The device answers the packet with STALL. -/
def Periph.stalls (p : Periph) : BusEvent → Bool
  | .out _ => (epView (p.reg 0)).rxStat == rxStatStall
  | .ack   => (epView (p.reg 0)).txStat == txStatStall
  | _      => false

/-- The host after a packet: what was accepted moves its transfer on, a STALL ends it. -/
def Host.next (h : Host) (p : Periph) (e : BusEvent) : Host :=
  if p.accepts e then
    match e, h.stage with
    | .setup req, _ => { h with stage := req.firstStage, req := req, count := 0 }
    | .ack, .dataIn =>
        let data := p.txPacket
        { h with
          stage := if data.length < 64 ∨ h.req.wLength.toNat ≤ h.count + data.length
            then .statusOut else .dataIn
          count := h.count + data.length
          received := data :: h.received }
    | .ack, .statusIn => { h with stage := .ready }
    | .out data, .dataOut =>
        { h with
          stage := if h.req.wLength.toNat ≤ h.count + data.length then .statusIn else .dataOut
          count := h.count + data.length }
    | .out _, .statusOut => { h with stage := .ready }
    | _, _ => h
  else if p.stalls e then { h with stage := .ready }
  else h

/-- The device and its host. -/
structure Sys where
  dev : Dev
  host : Host

/-- One event.  A device that was reset by its driver has left the bus. -/
def Sys.step (s : Sys) (e : BusEvent) : Sys :=
  if s.dev.dfu.reset then s
  else { dev := s.dev.step e, host := s.host.next s.dev.periph e }

/-- A device that has handled a bus reset, and a host that has sent nothing yet. -/
def Sys.init (b : Board) : Sys where
  dev := (Dev.init b).run [.busReset, .poll]
  host := { stage := .ready, count := 0, received := [],
            req := { bmRequestType := 0, bRequest := 0, wValue := 0, wIndex := 0, wLength := 0 } }

/-! ### What transfers come to -/

/-- The transfer of the newest SETUP packet is over: completed, or stalled. -/
def settled : List UsbEvent → Bool
  | []                => true
  | .complete _ :: _  => true
  | .stall :: _       => true
  | .setup _ :: _     => false
  | _ :: older        => settled older

/-- A SETUP packet is taken up only when the transfer before it is over. -/
def SetupAfterCompletion (e : UsbEvent) (older : List UsbEvent) : Prop :=
  ∀ req, e = .setup req → settled older = true

/-- A stall answers a request that is not supported, or a write of more than the control
    buffer holds. -/
def StallAfterRefusal (e : UsbEvent) (older : List UsbEvent) : Prop :=
  e = .stall →
    (∃ req rest, older = .dispatched req .notsupp :: rest)
      ∨ ∃ req rest, older = .setup req :: rest ∧ req.isRead = false
          ∧ dfuTransferSize < req.wLength.toNat

/-- The address of the last `SET_ADDRESS` that was completed. -/
def latchedAddr : List UsbEvent → BitVec 16
  | [] => usbDaddrEf
  | .complete req :: older =>
      if req.bmRequestType = 0 ∧ req.bRequest = 5
      then (req.wValue.toBitVec &&& 0x007F#16) ||| usbDaddrEf
      else latchedAddr older
  | _ :: older => latchedAddr older

/-- The chunks handed to the endpoint, newest first. -/
def chunks : List UsbEvent → List (List UInt8)
  | []                  => []
  | .chunk _ data :: older => data :: chunks older
  | _ :: older          => chunks older

/-- The host is about to see a STALL. -/
def Sys.SeesStall (s : Sys) : Prop :=
  (s.host.stage = .dataIn ∨ s.host.stage = .statusIn)
      ∧ (epView (s.dev.periph.reg 0)).txStat = txStatStall
    ∨ (s.host.stage = .dataOut ∨ s.host.stage = .statusOut)
      ∧ (epView (s.dev.periph.reg 0)).rxStat = rxStatStall

/-- What transfers are meant to come to. -/
structure TransfersOk (s : Sys) : Prop where
  /-- every transfer is completed before the next SETUP packet is taken up -/
  completed : AllLog SetupAfterCompletion s.dev.log
  /-- the address is that of the last `SET_ADDRESS` completed -/
  latched : s.dev.periph.reg regDaddr = latchedAddr s.dev.log
  /-- the host has received the chunks, whole, once and in order; in an IN data stage the last
      one may be on its way -/
  delivered : chunks s.dev.log = s.host.received
    ∨ s.host.stage = .dataIn ∧ ∃ data, chunks s.dev.log = data :: s.host.received
  /-- only what is not supported is stalled -/
  refused : AllLog StallAfterRefusal s.dev.log
  /-- and the host sees a STALL for no other reason -/
  seen : s.SeesStall → ∃ older, s.dev.log = .stall :: older

end Stm32F1Dfu
