import Stm32F1Dfu.Boot
import Stm32F1Dfu.Gpio
import Stm32F1Dfu.Lib.Serial

namespace Stm32F1Dfu

open Serial

/-!
# `spi_sram.c` on the wire

Port B, the SPI2 peripheral and the chip behind them: the routines of `spi_sram.c` write the
registers and wait for the flags, and the chip sees chip select and bytes.  How long each flag
takes is left open.

* `spiSramXferByte` — one byte through SPI2; `spiSramGpioXferByte` — the same bit by bit;
* `sram23` — the chip, by the commands it is sent;
* `Wire.spiSramRead`, `Wire.spiSramWrite`, `spiSramSelfTest`, `spiSramHwInit`.
-/

/-! ### SPI2 -/

/-- How many reads of `SPI2_SR` the flags take, for the `n`-th byte. -/
structure Pace where
  txe : Nat → Nat
  rxne : Nat → Nat
  bsy : Nat → Nat
  bound : Nat
  le_bound : ∀ n, txe n ≤ bound ∧ rxne n ≤ bound ∧ bsy n ≤ bound

/-- The peripheral. -/
structure Spi2 where
  cr1 : UInt32
  /-- the byte received, and `RXNE` -/
  rx : UInt8
  rxne : Bool
  /-- the byte on its way in, and the reads until it is there -/
  coming : Option (UInt8 × Nat)
  /-- the reads until `TXE` -/
  txe : Nat
  /-- the reads until `BSY` is clear -/
  bsy : Nat

/-- `SPI2_SR`. -/
def Spi2.sr (p : Spi2) : UInt32 :=
  (if p.rxne then 0x01 else 0) ||| (if p.txe = 0 then 0x02 else 0)
    ||| (if p.bsy = 0 then 0 else 0x80)

/-- `SPI2_CR1` makes it a master in mode 0, full duplex, with bytes, the most significant bit
    first, and chip select left to the program.  The baud rate is free. -/
def Spi2.mode0 (p : Spi2) : Bool := p.cr1 &&& 0xFFC7 == 0x0344

/-- Time passes.  A byte that comes in while the last one is not read is lost. -/
def Spi2.pass (p : Spi2) : Spi2 :=
  match p.coming with
  | none            => { p with txe := p.txe - 1, bsy := p.bsy - 1 }
  | some (b, 0)     =>
      { p with txe := p.txe - 1, bsy := p.bsy - 1, coming := none,
               rx := if p.rxne then p.rx else b, rxne := true }
  | some (b, n + 1) => { p with txe := p.txe - 1, bsy := p.bsy - 1, coming := some (b, n) }

/-- A loop that reads `SPI2_SR` until it says `done`. -/
def Spi2.waitFor (done : UInt32 → Bool) : Nat → Spi2 → Option Spi2
  | fuel, p =>
    if done p.sr then some p.pass
    else
      match fuel with
      | 0 => none
      | fuel + 1 => waitFor done fuel p.pass

/-- `SPI_SR_TXE` is set. -/
def txeSet (sr : UInt32) : Bool := sr &&& 0x02 != 0
/-- `SPI_SR_RXNE` is set. -/
def rxneSet (sr : UInt32) : Bool := sr &&& 0x01 != 0
/-- `SPI_SR_BSY` is clear. -/
def bsyClear (sr : UInt32) : Bool := sr &&& 0x80 == 0

/-- A read of `SPI2_DR`. -/
def Spi2.readDr (p : Spi2) : UInt8 × Spi2 := (p.rx, { p with rxne := false })

/-! ### The bus -/

/-- `SPI_SRAM_CS_PIN`. -/
def spiSramCsPin : UInt16 := 12
/-- `SPI_SRAM_SCK_PIN`. -/
def spiSramSckPin : UInt16 := 13
/-- `SPI_SRAM_MISO_PIN`. -/
def spiSramMisoPin : UInt16 := 14
/-- `SPI_SRAM_MOSI_PIN`. -/
def spiSramMosiPin : UInt16 := 15

/-- The clocks, `SPI_SRAM_PORT`, SPI2 and the device, with the number of bytes sent. -/
structure Bus (σ : Type) where
  apb1enr : UInt32
  apb2enr : UInt32
  gpio : Gpio
  spi : Spi2
  dev : σ
  sent : Nat

variable {σ : Type}

/-- The port drives the chip select line low. -/
def Gpio.selects (p : Gpio) : Bool := p.modes 12 == 2 && !p.level 12

/-- The port gives its pins to SPI2: the clock and the output as alternate functions, the input
    as an input. -/
def Gpio.wired (p : Gpio) : Bool := p.modes 13 == 11 && p.modes 14 == 8 && p.modes 15 == 11

/-- A write to the registers of the port, and what chip select makes of it. -/
def Bus.writeGpio (d : Device σ) (b : Bus σ) (f : Gpio → Gpio) : Bus σ :=
  if b.apb2enr.toNat.testBit 3 then
    { b with
        gpio := f b.gpio
        dev := if !b.gpio.selects && (f b.gpio).selects then d.select b.dev
               else if b.gpio.selects && !(f b.gpio).selects then d.deselect b.dev
               else b.dev }
  else b

/-- A write to `SPI2_DR`.  It needs the clock, the configuration and an empty transmit buffer;
    what is on a line that nothing drives reads as ones. -/
def Bus.writeDr (d : Device σ) (pace : Pace) (b : Bus σ) (out : UInt8) : Bus σ :=
  if b.apb1enr.toNat.testBit 14 && b.spi.mode0 && b.spi.txe == 0 then
    let shown := b.gpio.wired && b.gpio.selects
    { b with
        spi := { b.spi with coming := some (if shown then d.reply b.dev else 0xFF, pace.rxne b.sent)
                            txe := pace.txe b.sent, bsy := pace.bsy b.sent }
        dev := if shown then d.accept b.dev out else b.dev
        sent := b.sent + 1 }
  else b

/-- `spi_sram_cs_assert`. -/
def spiSramCsAssert (d : Device σ) (b : Bus σ) : Bus σ := b.writeGpio d (gpioClear · spiSramCsPin)
/-- `spi_sram_cs_deassert`. -/
def spiSramCsDeassert (d : Device σ) (b : Bus σ) : Bus σ := b.writeGpio d (gpioSet · spiSramCsPin)

/-- `spi_sram_xfer_byte`. -/
def spiSramXferByte (d : Device σ) (pace : Pace) (fuel : Nat) (b : Bus σ) (out : UInt8) :
    Option (UInt8 × Bus σ) := do
  -- a byte nobody read
  let spi := if rxneSet b.spi.sr then b.spi.pass.readDr.2 else b.spi.pass
  let spi ← spi.waitFor txeSet fuel
  let b := { b with spi := spi }.writeDr d pace out
  let spi ← b.spi.waitFor rxneSet fuel
  let (byte, spi) := spi.readDr
  let spi ← spi.waitFor bsyClear fuel
  some (byte, { b with spi := spi })

/-- Calls of it in a row. -/
def spiSramXferBytes (d : Device σ) (pace : Pace) (fuel : Nat) :
    Bus σ → List UInt8 → Option (List UInt8 × Bus σ)
  | b, []           => some ([], b)
  | b, out :: outs => do
      let (byte, b) ← spiSramXferByte d pace fuel b out
      let (bytes, b) ← spiSramXferBytes d pace fuel b outs
      some (byte :: bytes, b)

/-- An opcode and a 24-bit address. -/
def spiSramCommand (opcode : UInt8) (addr : UInt32) : List UInt8 :=
  [opcode, (addr >>> 16).toUInt8, (addr >>> 8).toUInt8, addr.toUInt8]

/-- `spi_sram_read` with a buffer: what is read, or `none` for its error. -/
def Wire.spiSramRead (d : Device σ) (pace : Pace) (fuel : Nat) (b : Bus σ) (addr len : UInt32) :
    Option (Option (List UInt8) × Bus σ) :=
  if len = 0 then some (none, b)
  else do
    let b := spiSramCsAssert d b
    let (_, b) ← spiSramXferBytes d pace fuel b (spiSramCommand 0x03 addr)
    let (bytes, b) ← spiSramXferBytes d pace fuel b (List.replicate len.toNat 0x00)
    some (some bytes, spiSramCsDeassert d b)

/-- `spi_sram_write` of the bytes of a buffer: whether it reports success. -/
def Wire.spiSramWrite (d : Device σ) (pace : Pace) (fuel : Nat) (b : Bus σ) (addr : UInt32)
    (bytes : List UInt8) : Option (Bool × Bus σ) :=
  if bytes = [] then some (false, b)
  else do
    let b := spiSramCsAssert d b
    let (_, b) ← spiSramXferBytes d pace fuel b (spiSramCommand 0x02 addr)
    let (_, b) ← spiSramXferBytes d pace fuel b bytes
    some (true, spiSramCsDeassert d b)

/-- The pattern of the self-test. -/
def testPattern : List UInt8 := (List.range 16).map fun i => 0xA5 ^^^ UInt8.ofNat i

/-- `spi_sram_self_test`. -/
def spiSramSelfTest (d : Device σ) (pace : Pace) (fuel : Nat) (b : Bus σ) :
    Option (Int × Bus σ) := do
  let (written, b) ← Wire.spiSramWrite d pace fuel b 0 testPattern
  if !written then some (-1, b)
  else do
    let (test_read, b) ← Wire.spiSramRead d pace fuel b 0 16
    match test_read with
    | none => some (-2, b)
    | some bytes =>
      match (List.range 16).find? fun i => bytes.getD i 0 != testPattern.getD i 0 with
      | some i => some (3 + (i : Int), b)
      | none   => some (0, b)

/-- A write to `SPI2_CR1`. -/
def Bus.writeCr1 (b : Bus σ) (v : UInt32) : Bus σ :=
  if b.apb1enr.toNat.testBit 14 then { b with spi := { b.spi with cr1 := v } } else b

/-- `spi_sram_hw_init`. -/
def spiSramHwInit (d : Device σ) (b : Bus σ) : Bus σ :=
  let b := { b with apb2enr := b.apb2enr ||| (1 : UInt32) <<< 3 } -- `rcc_gpio_enable`
  let b := b.writeGpio d (gpioSetOutput · spiSramCsPin)
  let b := b.writeGpio d (gpioSet · spiSramCsPin)
  let b := b.writeGpio d (gpioSetMode · spiSramSckPin 0xB)
  let b := b.writeGpio d (gpioSetMode · spiSramMosiPin 0xB)
  let b := b.writeGpio d (gpioSet · spiSramMisoPin)
  let b := b.writeGpio d (gpioSetMode · spiSramMisoPin 0x8)
  let b := { b with apb1enr := b.apb1enr ||| (1 : UInt32) <<< 14 }
  let b := { b with apb2enr := b.apb2enr ||| (1 : UInt32) <<< 0 }
  let b := b.writeCr1 0
  let b := b.writeCr1 (b.spi.cr1 ||| (1 : UInt32) <<< 2)
  let b := b.writeCr1 (b.spi.cr1 ||| (3 : UInt32) <<< 3)
  let b := b.writeCr1 (b.spi.cr1 ||| (1 : UInt32) <<< 9)
  let b := b.writeCr1 (b.spi.cr1 ||| (1 : UInt32) <<< 8)
  b.writeCr1 (b.spi.cr1 ||| (1 : UInt32) <<< 6)

/-! ### Bit by bit -/

/-- The port and a device behind its shift register. -/
structure Lines (σ : Type) where
  gpio : Gpio
  dev : Shift σ

/-- A write to the port, with the pins as outputs: the edges of the clock line. -/
def Lines.write (d : Slave σ) (l : Lines σ) (f : Gpio → Gpio) : Lines σ where
  gpio := f l.gpio
  dev := if !l.gpio.level 13 && (f l.gpio).level 13 then l.dev.rise d ((f l.gpio).level 15)
         else if l.gpio.level 13 && !(f l.gpio).level 13 then l.dev.fall d
         else l.dev

/-- `GPIO_IDR` as far as the input line goes. -/
def Lines.idr (l : Lines σ) : UInt32 := if l.dev.output then (1 : UInt32) <<< 14 else 0

/-- The loop of `spi_sram_gpio_xfer_byte`, from bit `n - 1` down. -/
def gpioXferLoop (d : Slave σ) (out : UInt8) : Nat → Lines σ → UInt8 → UInt8 × Lines σ
  | 0, l, byte     => (byte, l)
  | n + 1, l, byte =>
      let l := if out.toUInt32 &&& ((1 : UInt32) <<< UInt32.ofNat n) ≠ 0 then
                 l.write d (gpioSet · spiSramMosiPin)
               else l.write d (gpioClear · spiSramMosiPin)
      let l := l.write d (gpioSet · spiSramSckPin)
      let byte := byte <<< 1
      let byte := byte ||| (if gpioRead l.idr spiSramMisoPin ≠ 0 then 1 else 0)
      gpioXferLoop d out n (l.write d (gpioClear · spiSramSckPin)) byte

/-- `spi_sram_gpio_xfer_byte`. -/
def spiSramGpioXferByte (d : Slave σ) (l : Lines σ) (out : UInt8) : UInt8 × Lines σ :=
  gpioXferLoop d out 8 l 0

/-! ### The chip -/

/-- How far the chip is in a command. -/
inductive ChipPhase where
  | idle
  | opcode
  /-- the bytes of the address that came, and their value -/
  | address (write : Bool) (got : Nat) (value : Nat)
  | data (write : Bool) (a : Nat)
  /-- a command of another kind -/
  | other

/-- The 23LCV1024. -/
structure Sram23 where
  mem : Nat → UInt8
  phase : ChipPhase

/-- **The chip**: after chip select an opcode, 24 bits of address of which it decodes 17, and
    data bytes from there on, past the end from the start again. -/
def sram23 : Device Sram23 where
  reply s :=
    match s.phase with
    | .data false a => s.mem a
    | _             => 0xFF
  accept s byte :=
    match s.phase with
    | .idle   => s
    | .other  => s
    | .opcode =>
        if byte = 0x03 then { s with phase := .address false 0 0 }
        else if byte = 0x02 then { s with phase := .address true 0 0 }
        else { s with phase := .other }
    | .address write got value =>
        if got = 2 then { s with phase := .data write ((256 * value + byte.toNat) % sramSize) }
        else { s with phase := .address write (got + 1) (256 * value + byte.toNat) }
    | .data false a => { s with phase := .data false ((a + 1) % sramSize) }
    | .data true a  =>
        { mem := fun i => if i = a then byte else s.mem i
          phase := .data true ((a + 1) % sramSize) }
  select s := { s with phase := .opcode }
  deselect s := { s with phase := .idle }

end Stm32F1Dfu
