import Stm32F1Dfu.Spi

namespace Stm32F1Dfu

open Serial WordBits

/-!
# Bytes on the wire

With SPI2 set up by `spi_sram_hw_init` the waits of `spi_sram_xfer_byte` end, whatever the flags
take, and a byte goes each way, with any device behind the pins.

* `Bus.Ready` — the clocks, the pins and SPI2 between two bytes;
* `xferByte_ready`, `xferBytes_ready` — one byte, many bytes;
* `hwInit_ready` — `spi_sram_hw_init` gets there from any registers;
* `wireRead_ready`, `wireWrite_ready` — `spi_sram_read` and `spi_sram_write`;
* `gpioXferBytes_eq_spi` — the bit-banged bytes are the same exchange.
-/

variable {σ : Type}

/-! ### The flags -/

theorem txeSet_sr (p : Spi2) : txeSet p.sr = decide (p.txe = 0) := by
  unfold txeSet Spi2.sr
  cases p.rxne <;> by_cases ht : p.txe = 0 <;> by_cases hb : p.bsy = 0 <;>
    simp only [ht, hb] <;> rfl

theorem rxneSet_sr (p : Spi2) : rxneSet p.sr = p.rxne := by
  unfold rxneSet Spi2.sr
  cases p.rxne <;> by_cases ht : p.txe = 0 <;> by_cases hb : p.bsy = 0 <;>
    simp only [ht, hb] <;> rfl

theorem bsyClear_sr (p : Spi2) : bsyClear p.sr = decide (p.bsy = 0) := by
  unfold bsyClear Spi2.sr
  cases p.rxne <;> by_cases ht : p.txe = 0 <;> by_cases hb : p.bsy = 0 <;>
    simp only [ht, hb] <;> rfl

/-! ### The waits -/

/-- The flag is there: the loop ends. -/
theorem waitFor_done {done : UInt32 → Bool} {p : Spi2} (h : done p.sr = true) (fuel : Nat) :
    p.waitFor done fuel = some p.pass := by
  cases fuel <;> rw [Spi2.waitFor, if_pos h]

/-- The flag is not there: the loop goes on. -/
theorem waitFor_not {done : UInt32 → Bool} {p : Spi2} (h : done p.sr = false) (fuel : Nat) :
    p.waitFor done (fuel + 1) = p.pass.waitFor done fuel := by
  rw [Spi2.waitFor, if_neg (by rw [h]; exact Bool.false_ne_true)]

/-- Nothing on its way in: time only runs the flags down. -/
theorem pass_none {p : Spi2} (h : p.coming = none) :
    p.pass = { p with txe := p.txe - 1, bsy := p.bsy - 1 } := by
  rw [Spi2.pass, h]

/-- The wait for `TXE`. -/
theorem wait_txe {p : Spi2} (h : p.coming = none) {fuel : Nat} (hfuel : p.txe ≤ fuel) :
    ∃ bsy ≤ p.bsy, p.waitFor txeSet fuel = some { p with txe := 0, bsy := bsy } := by
  induction fuel generalizing p with
  | zero =>
    have htxe : p.txe = 0 := Nat.le_zero.mp hfuel
    refine ⟨p.bsy - 1, Nat.sub_le .., ?_⟩
    rw [waitFor_done ((txeSet_sr p).trans (decide_eq_true htxe)), pass_none h, htxe]
  | succ fuel ih =>
    by_cases htxe : p.txe = 0
    · refine ⟨p.bsy - 1, Nat.sub_le .., ?_⟩
      rw [waitFor_done ((txeSet_sr p).trans (decide_eq_true htxe)), pass_none h, htxe]
    · rw [waitFor_not ((txeSet_sr p).trans (decide_eq_false htxe)), pass_none h]
      obtain ⟨bsy, hbsy, hwait⟩ :=
        ih (p := { p with txe := p.txe - 1, bsy := p.bsy - 1 }) h (by show p.txe - 1 ≤ fuel; omega)
      exact ⟨bsy, le_trans hbsy (Nat.sub_le ..), hwait⟩

/-- The wait for `BSY` to clear. -/
theorem wait_bsy {p : Spi2} (h : p.coming = none) {fuel : Nat} (hfuel : p.bsy ≤ fuel) :
    ∃ txe ≤ p.txe, p.waitFor bsyClear fuel = some { p with txe := txe, bsy := 0 } := by
  induction fuel generalizing p with
  | zero =>
    have hbsy : p.bsy = 0 := Nat.le_zero.mp hfuel
    refine ⟨p.txe - 1, Nat.sub_le .., ?_⟩
    rw [waitFor_done ((bsyClear_sr p).trans (decide_eq_true hbsy)), pass_none h, hbsy]
  | succ fuel ih =>
    by_cases hbsy : p.bsy = 0
    · refine ⟨p.txe - 1, Nat.sub_le .., ?_⟩
      rw [waitFor_done ((bsyClear_sr p).trans (decide_eq_true hbsy)), pass_none h, hbsy]
    · rw [waitFor_not ((bsyClear_sr p).trans (decide_eq_false hbsy)), pass_none h]
      obtain ⟨txe, htxe, hwait⟩ :=
        ih (p := { p with txe := p.txe - 1, bsy := p.bsy - 1 }) h (by show p.bsy - 1 ≤ fuel; omega)
      exact ⟨txe, le_trans htxe (Nat.sub_le ..), hwait⟩

/-- The wait for `RXNE`, with a byte on its way in and the last one read. -/
theorem wait_rxne {p : Spi2} (byte : UInt8) {n : Nat} (h : p.coming = some (byte, n))
    (hrxne : p.rxne = false) {fuel : Nat} (hfuel : n < fuel) :
    ∃ txe ≤ p.txe, ∃ bsy ≤ p.bsy, p.waitFor rxneSet fuel
      = some { p with txe := txe, bsy := bsy, coming := none, rx := byte, rxne := true } := by
  induction fuel generalizing p n with
  | zero => exact absurd hfuel (Nat.not_lt_zero n)
  | succ fuel ih =>
    rw [waitFor_not ((rxneSet_sr p).trans hrxne)]
    cases n with
    | zero =>
      -- the byte arrives; the next read of the flags sees it
      have hpass : p.pass = { p with txe := p.txe - 1, bsy := p.bsy - 1, coming := none,
                                     rx := byte, rxne := true } := by
        rw [Spi2.pass, h, hrxne]
        rfl
      refine ⟨p.txe - 1 - 1, by omega, p.bsy - 1 - 1, by omega, ?_⟩
      rw [hpass, waitFor_done (rxneSet_sr _), pass_none rfl]
    | succ n =>
      have hpass : p.pass = { p with txe := p.txe - 1, bsy := p.bsy - 1,
                                     coming := some (byte, n) } := by
        rw [Spi2.pass, h]
      obtain ⟨txe, htxe, bsy, hbsy, hwait⟩ :=
        ih (p := { p with txe := p.txe - 1, bsy := p.bsy - 1, coming := some (byte, n) }) rfl hrxne
          (by omega)
      exact ⟨txe, le_trans htxe (Nat.sub_le ..), bsy, le_trans hbsy (Nat.sub_le ..),
        by rw [hpass]; exact hwait⟩

/-! ### Bytes -/

/-- Between two bytes: the clocks run, the port gives its pins to SPI2 and drives chip select
    (`cs`: low), SPI2 is set up and nothing is on its way in.  A byte nobody read may be there. -/
structure Bus.Ready (pace : Pace) (cs : Bool) (b : Bus σ) : Prop where
  spiClock : b.apb1enr.toNat.testBit 14 = true
  portClock : b.apb2enr.toNat.testBit 3 = true
  wired : b.gpio.wired = true
  output : b.gpio.modes 12 = 2
  level : b.gpio.level 12 = !cs
  mode0 : b.spi.mode0 = true
  quiet : b.spi.coming = none
  txe : b.spi.txe ≤ pace.bound
  bsy : b.spi.bsy ≤ pace.bound

variable {d : Device σ} {pace : Pace} {fuel : Nat} {b : Bus σ} {cs : Bool}

theorem Bus.Ready.selects (h : b.Ready pace cs) : b.gpio.selects = cs := by
  rw [Gpio.selects, h.output, h.level, Bool.not_not]
  rfl

/-- The read of a byte nobody read. -/
theorem clear_stale {p : Spi2} (h : p.coming = none) :
    (if rxneSet p.sr then p.pass.readDr.2 else p.pass)
      = { p with txe := p.txe - 1, bsy := p.bsy - 1, rxne := false } := by
  rw [rxneSet_sr, pass_none h]
  cases hrxne : p.rxne with
  | true => rfl
  | false => rw [if_neg Bool.false_ne_true, ← hrxne]

/-- **One byte.**  The device gets the byte and its own comes back, whatever the flags take. -/
theorem xferByte_ready (h : b.Ready pace true) (hfuel : pace.bound < fuel) (out : UInt8) :
    ∃ b', spiSramXferByte d pace fuel b out = some (d.reply b.dev, b')
      ∧ b'.dev = d.accept b.dev out ∧ b'.Ready pace true := by
  obtain ⟨hpt, hpr, hpb⟩ := pace.le_bound b.sent
  have htxe := h.txe
  have hbsy := h.bsy
  -- the transmit buffer is empty
  obtain ⟨bsy, hbsyle, hwait⟩ := wait_txe
    (p := { b.spi with txe := b.spi.txe - 1, bsy := b.spi.bsy - 1, rxne := false }) h.quiet
    (show b.spi.txe - 1 ≤ fuel by omega)
  -- the byte goes out, the device's byte is on its way in
  have hwrite : ({ b with spi := { b.spi with txe := 0, bsy := bsy, rxne := false } }).writeDr d
      pace out
      = { b with
          spi := { b.spi with rxne := false, coming := some (d.reply b.dev, pace.rxne b.sent)
                              txe := pace.txe b.sent, bsy := pace.bsy b.sent }
          dev := d.accept b.dev out
          sent := b.sent + 1 } := by
    have hmode : ({ b.spi with txe := 0, bsy := bsy, rxne := false } : Spi2).mode0 = true := h.mode0
    simp only [Bus.writeDr, h.spiClock, hmode, h.wired, h.selects, BEq.rfl, Bool.and_self, if_true]
  -- it comes in
  obtain ⟨txe', htxe', bsy', hbsy', hwait'⟩ := wait_rxne
    (p := { b.spi with rxne := false, coming := some (d.reply b.dev, pace.rxne b.sent)
                       txe := pace.txe b.sent, bsy := pace.bsy b.sent })
    (d.reply b.dev) (n := pace.rxne b.sent) rfl rfl (show _ < fuel by omega)
  -- and SPI2 comes to rest
  obtain ⟨txe'', htxe'', hwait''⟩ := wait_bsy
    (p := { b.spi with txe := txe', bsy := bsy', coming := none, rx := d.reply b.dev,
                       rxne := false }) rfl
    (show bsy' ≤ fuel from le_trans (show bsy' ≤ pace.bsy b.sent from hbsy') (by omega))
  dsimp only at hwrite hwait hwait' hwait''
  refine ⟨{ b with
      spi := { b.spi with txe := txe'', bsy := 0, coming := none, rx := d.reply b.dev,
                          rxne := false }
      dev := d.accept b.dev out
      sent := b.sent + 1 }, ?_, rfl, ?_⟩
  · rw [spiSramXferByte, clear_stale h.quiet]
    simp only [hwait, Option.bind_eq_bind, Option.bind_some, hwrite, hwait', Spi2.readDr, hwait'']
  · exact { spiClock := h.spiClock, portClock := h.portClock, wired := h.wired, output := h.output,
            level := h.level, mode0 := h.mode0, quiet := rfl
            txe := show txe'' ≤ pace.bound by
              have : txe'' ≤ txe' := htxe''
              have : txe' ≤ pace.txe b.sent := htxe'
              omega
            bsy := Nat.zero_le _ }

/-- Many bytes are a transfer. -/
theorem xferBytes_ready (h : b.Ready pace true) (hfuel : pace.bound < fuel) (outs : List UInt8) :
    ∃ b', spiSramXferBytes d pace fuel b outs = some ((d.transfer b.dev outs).1, b')
      ∧ b'.dev = (d.transfer b.dev outs).2 ∧ b'.Ready pace true := by
  induction outs generalizing b with
  | nil => exact ⟨b, rfl, rfl, h⟩
  | cons out outs ih =>
    obtain ⟨b₁, hbyte, hdev, hready⟩ := xferByte_ready (d := d) h hfuel out
    obtain ⟨b₂, hbytes, hdev', hready'⟩ := ih hready
    refine ⟨b₂, ?_, ?_, hready'⟩
    · simp only [spiSramXferBytes, hbyte, hbytes, Option.bind_eq_bind, Option.bind_some, hdev,
        transfer_cons]
    · rw [hdev', hdev, transfer_cons]

/-! ### Chip select -/

/-- A write to the port with its clock running. -/
theorem writeGpio_of_clock (h : b.apb2enr.toNat.testBit 3 = true) (f : Gpio → Gpio) :
    b.writeGpio d f
      = { b with
            gpio := f b.gpio
            dev := if !b.gpio.selects && (f b.gpio).selects then d.select b.dev
                   else if b.gpio.selects && !(f b.gpio).selects then d.deselect b.dev
                   else b.dev } := if_pos h

/-- **`spi_sram_cs_assert`** selects the device. -/
theorem csAssert_ready (h : b.Ready pace false) :
    (spiSramCsAssert d b).dev = d.select b.dev ∧ (spiSramCsAssert d b).Ready pace true := by
  have hlevel : (gpioClear b.gpio spiSramCsPin).level 12 = false :=
    (gpioClear_level b.gpio (show spiSramCsPin.toNat < 16 by decide) (by decide)).trans (if_pos rfl)
  have hsel : (gpioClear b.gpio spiSramCsPin).selects = true := by
    rw [Gpio.selects, hlevel, show (gpioClear b.gpio spiSramCsPin).modes 12 = 2 from h.output]
    rfl
  rw [spiSramCsAssert, writeGpio_of_clock h.portClock, h.selects, hsel]
  exact ⟨rfl, { h with level := hlevel }⟩

/-- **`spi_sram_cs_deassert`** releases it. -/
theorem csDeassert_ready (h : b.Ready pace true) :
    (spiSramCsDeassert d b).dev = d.deselect b.dev ∧ (spiSramCsDeassert d b).Ready pace false := by
  have hlevel : (gpioSet b.gpio spiSramCsPin).level 12 = true :=
    (gpioSet_level b.gpio (show spiSramCsPin.toNat < 16 by decide) (by decide)).trans (if_pos rfl)
  have hsel : (gpioSet b.gpio spiSramCsPin).selects = false := by
    rw [Gpio.selects, hlevel, Bool.not_true, Bool.and_false]
  rw [spiSramCsDeassert, writeGpio_of_clock h.portClock, h.selects, hsel]
  exact ⟨rfl, { h with level := hlevel }⟩

/-! ### `spi_sram_hw_init` -/

/-- The port after it. -/
def hwPort (p : Gpio) : Gpio :=
  let p := gpioSet (gpioSetOutput p spiSramCsPin) spiSramCsPin
  let p := gpioSetMode (gpioSetMode p spiSramSckPin 0xB) spiSramMosiPin 0xB
  gpioSetMode (gpioSet p spiSramMisoPin) spiSramMisoPin 0x8

/-- Four modes are replaced. -/
theorem hwPort_modes (p : Gpio) (n : Fin 16) :
    (hwPort p).modes n
      = if n = 14 then 8 else if n = 15 then 11 else if n = 13 then 11 else if n = 12 then 2
        else p.modes n := by
  have hset (p : Gpio) (pin : UInt16) : (gpioSet p pin).modes = p.modes := rfl
  unfold hwPort gpioSetOutput
  rw [gpioSetMode_modes _ (show spiSramMisoPin.toNat < 16 by decide) (by decide), hset,
    gpioSetMode_modes _ (show spiSramMosiPin.toNat < 16 by decide) (by decide),
    gpioSetMode_modes _ (show spiSramSckPin.toNat < 16 by decide) (by decide), hset,
    gpioSetMode_modes _ (show spiSramCsPin.toNat < 16 by decide) (by decide)]
  simp only [Function.update_apply]
  rfl

/-- Two levels are set. -/
theorem hwPort_level (p : Gpio) {n : Nat} (hn : n < 16) :
    (hwPort p).level n = if n = 14 then true else if n = 12 then true else p.level n := by
  unfold hwPort gpioSetOutput
  rw [gpioSetMode_level, gpioSet_level _ (show spiSramMisoPin.toNat < 16 by decide) hn,
    gpioSetMode_level, gpioSetMode_level,
    gpioSet_level _ (show spiSramCsPin.toNat < 16 by decide) hn, gpioSetMode_level]
  rfl

/-- The mode of another pin does not change chip select. -/
theorem selects_setMode (p : Gpio) {pin : UInt16} {mode : UInt8} (hpin : pin.toNat < 16)
    (hmode : mode.toNat < 16) (hne : pin.toNat ≠ 12) :
    (gpioSetMode p pin mode).selects = p.selects := by
  have hne' : (12 : Fin 16) ≠ ⟨pin.toNat, hpin⟩ := fun h => hne (congrArg Fin.val h).symm
  rw [Gpio.selects, Gpio.selects, gpioSetMode_level, gpioSetMode_modes p hpin hmode,
    Function.update_of_ne hne']

/-- What `spi_sram_hw_init` does to the device: chip select comes up, after a pulse when the
    latch was low and did not drive the line. -/
def hwSelect (d : Device σ) (b : Bus σ) : σ :=
  if b.gpio.level 12 then b.dev else d.deselect (if b.gpio.selects then b.dev else d.select b.dev)

/-- **`spi_sram_hw_init`**, from any registers. -/
theorem hwInit_eq (d : Device σ) (b : Bus σ) :
    spiSramHwInit d b
      = { apb1enr := b.apb1enr ||| (1 : UInt32) <<< 14
          apb2enr := (b.apb2enr ||| (1 : UInt32) <<< 3) ||| (1 : UInt32) <<< 0
          gpio := hwPort b.gpio
          spi := { b.spi with cr1 := 0x35C }
          dev := hwSelect d b
          sent := b.sent } := by
  have hone : ((1 : UInt32) <<< 3).toNat.testBit 3 = true := by decide
  have hclock : (b.apb2enr ||| (1 : UInt32) <<< 3).toNat.testBit 3 = true := by
    rw [UInt32.toNat_or, Nat.testBit_or, hone, Bool.or_true]
  have hone' : ((1 : UInt32) <<< 14).toNat.testBit 14 = true := by decide
  have hclock' : (b.apb1enr ||| (1 : UInt32) <<< 14).toNat.testBit 14 = true := by
    rw [UInt32.toNat_or, Nat.testBit_or, hone', Bool.or_true]
  have hcr1 (b : Bus σ) (v : UInt32) (h : b.apb1enr.toNat.testBit 14 = true) :
      b.writeCr1 v = { b with spi := { b.spi with cr1 := v } } := if_pos h
  -- the line is an output at the level of its latch, then high
  have hout : (gpioSetOutput b.gpio spiSramCsPin).selects = !b.gpio.level 12 := by
    rw [gpioSetOutput, Gpio.selects, gpioSetMode_level,
      gpioSetMode_modes _ (show spiSramCsPin.toNat < 16 by decide) (by decide),
      show (12 : Fin 16) = ⟨spiSramCsPin.toNat, by decide⟩ from rfl, Function.update_self]
    rfl
  have hhigh (p : Gpio) : (gpioSet p spiSramCsPin).selects = false := by
    rw [Gpio.selects, gpioSet_level p (show spiSramCsPin.toNat < 16 by decide) (by decide),
      if_pos (by rfl), Bool.not_true, Bool.and_false]
  have hmiso (p : Gpio) : (gpioSet p spiSramMisoPin).selects = p.selects := by
    rw [Gpio.selects, Gpio.selects,
      gpioSet_level p (show spiSramMisoPin.toNat < 16 by decide) (by decide), if_neg (by decide)]
    rfl
  have hsck (p : Gpio) : (gpioSetMode p spiSramSckPin 0xB).selects = p.selects :=
    selects_setMode p (by decide) (by decide) (by decide)
  have hmosi (p : Gpio) : (gpioSetMode p spiSramMosiPin 0xB).selects = p.selects :=
    selects_setMode p (by decide) (by decide) (by decide)
  have hmiso' (p : Gpio) : (gpioSetMode p spiSramMisoPin 0x8).selects = p.selects :=
    selects_setMode p (by decide) (by decide) (by decide)
  simp only [spiSramHwInit, writeGpio_of_clock, hclock, hcr1, hclock', hout, hhigh, hsck, hmosi,
    hmiso, hmiso', Bool.not_false, Bool.and_false, Bool.and_true, Bool.false_eq_true, if_false,
    Bool.not_not]
  unfold hwSelect
  cases hlevel : b.gpio.level 12 with
  | true =>
    have hsel : b.gpio.selects = false := by
      rw [Gpio.selects, hlevel, Bool.not_true, Bool.and_false]
    rw [hsel]
    rfl
  | false => cases b.gpio.selects <;> rfl

/-- SPI2 is ready after it, whatever the registers held, once nothing is on its way in. -/
theorem hwInit_ready (hquiet : b.spi.coming = none) (htxe : b.spi.txe ≤ pace.bound)
    (hbsy : b.spi.bsy ≤ pace.bound) : (spiSramHwInit d b).Ready pace false := by
  have hone : ((1 : UInt32) <<< 3).toNat.testBit 3 = true := by decide
  have hone' : ((1 : UInt32) <<< 14).toNat.testBit 14 = true := by decide
  rw [hwInit_eq]
  exact {
    spiClock := by
      rw [UInt32.toNat_or, Nat.testBit_or, hone', Bool.or_true]
    portClock := by
      rw [UInt32.toNat_or, Nat.testBit_or, UInt32.toNat_or, Nat.testBit_or, hone, Bool.or_true,
        Bool.true_or]
    wired := by
      rw [Gpio.wired, hwPort_modes, hwPort_modes, hwPort_modes]
      rfl
    output := by
      rw [hwPort_modes]
      rfl
    level := hwPort_level b.gpio (by decide)
    mode0 := show ((0x35C : UInt32) &&& 0xFFC7 == 0x0344) = true by decide
    quiet := hquiet
    txe := htxe
    bsy := hbsy }

/-! ### Calls on the wire -/

/-- `spi_sram_read` on the wire: a command, and the replies to the zeros after it. -/
theorem wireRead_ready (h : b.Ready pace false) (hfuel : pace.bound < fuel) (addr : UInt32)
    {len : UInt32} (hlen : len ≠ 0) :
    let sent := d.transfer (d.select b.dev) (spiSramCommand 0x03 addr)
    let answer := d.transfer sent.2 (List.replicate len.toNat 0x00)
    ∃ b', Wire.spiSramRead d pace fuel b addr len = some (some answer.1, b')
      ∧ b'.dev = d.deselect answer.2 ∧ b'.Ready pace false := by
  obtain ⟨hdev, hready⟩ := csAssert_ready (d := d) h
  obtain ⟨b₁, hcmd, hdev₁, hready₁⟩ :=
    xferBytes_ready (d := d) hready hfuel (spiSramCommand 0x03 addr)
  obtain ⟨b₂, hdata, hdev₂, hready₂⟩ :=
    xferBytes_ready (d := d) hready₁ hfuel (List.replicate len.toNat 0x00)
  obtain ⟨hdev₃, hready₃⟩ := csDeassert_ready (d := d) hready₂
  rw [hdev₁, hdev] at hdata hdev₂
  refine ⟨spiSramCsDeassert d b₂, ?_, ?_, hready₃⟩
  · rw [Wire.spiSramRead, if_neg hlen]
    simp only [hcmd, hdata, Option.bind_eq_bind, Option.bind_some]
  · rw [hdev₃, hdev₂]

/-- `spi_sram_write` on the wire: a command and the data. -/
theorem wireWrite_ready (h : b.Ready pace false) (hfuel : pace.bound < fuel) (addr : UInt32)
    {bytes : List UInt8} (hbytes : bytes ≠ []) :
    let sent := d.transfer (d.select b.dev) (spiSramCommand 0x02 addr)
    ∃ b', Wire.spiSramWrite d pace fuel b addr bytes = some (true, b')
      ∧ b'.dev = d.deselect (d.transfer sent.2 bytes).2 ∧ b'.Ready pace false := by
  obtain ⟨hdev, hready⟩ := csAssert_ready (d := d) h
  obtain ⟨b₁, hcmd, hdev₁, hready₁⟩ :=
    xferBytes_ready (d := d) hready hfuel (spiSramCommand 0x02 addr)
  obtain ⟨b₂, hdata, hdev₂, hready₂⟩ := xferBytes_ready (d := d) hready₁ hfuel bytes
  obtain ⟨hdev₃, hready₃⟩ := csDeassert_ready (d := d) hready₂
  rw [hdev₁, hdev] at hdata hdev₂
  refine ⟨spiSramCsDeassert d b₂, ?_, ?_, hready₃⟩
  · rw [Wire.spiSramWrite, if_neg hbytes]
    simp only [hcmd, hdata, Option.bind_eq_bind, Option.bind_some]
  · rw [hdev₃, hdev₂]

/-! ### Bit by bit -/

theorem write_quiet {d : Slave σ} {l : Lines σ} {f : Gpio → Gpio}
    (h : (f l.gpio).level 13 = l.gpio.level 13) : l.write d f = { l with gpio := f l.gpio } := by
  rw [Lines.write, h]
  cases l.gpio.level 13 <;> rfl

/-- The data line takes bit `n`; the clock line stays low. -/
theorem dataLine_eq (d : Slave σ) (out : UInt8) {n : Nat} (hn : n < 8) {l : Lines σ}
    (hclk : l.gpio.level 13 = false) :
    ∃ g : Gpio, g.level 13 = false ∧ g.level 15 = bit out n
      ∧ (if out.toUInt32 &&& ((1 : UInt32) <<< UInt32.ofNat n) ≠ 0
          then l.write d (gpioSet · spiSramMosiPin) else l.write d (gpioClear · spiSramMosiPin))
        = { l with gpio := g } := by
  have hmosi : spiSramMosiPin.toNat < 16 := by decide
  have hk : (UInt32.ofNat n).toNat = n := by
    rw [UInt32.toNat_ofNat']
    omega
  have hbit := and_one_shl32_ne_zero out.toUInt32 (k := UInt32.ofNat n) (by omega)
  rw [hk, UInt8.toNat_toUInt32] at hbit
  rw [if_congr hbit rfl rfl, bit]
  cases out.toNat.testBit n with
  | true =>
    have h13 : (gpioSet l.gpio spiSramMosiPin).level 13 = l.gpio.level 13 :=
      (gpioSet_level l.gpio hmosi (by decide)).trans (if_neg (by decide))
    have h15 : (gpioSet l.gpio spiSramMosiPin).level 15 = true :=
      (gpioSet_level l.gpio hmosi (by decide)).trans (if_pos (by decide))
    exact ⟨gpioSet l.gpio spiSramMosiPin, h13.trans hclk, h15,
      (if_pos rfl).trans (write_quiet (f := (gpioSet · spiSramMosiPin)) h13)⟩
  | false =>
    have h13 : (gpioClear l.gpio spiSramMosiPin).level 13 = l.gpio.level 13 :=
      (gpioClear_level l.gpio hmosi (by decide)).trans (if_neg (by decide))
    have h15 : (gpioClear l.gpio spiSramMosiPin).level 15 = false :=
      (gpioClear_level l.gpio hmosi (by decide)).trans (if_pos (by decide))
    exact ⟨gpioClear l.gpio spiSramMosiPin, h13.trans hclk, h15,
      (if_neg Bool.false_ne_true).trans
        (write_quiet (f := (gpioClear · spiSramMosiPin)) h13)⟩

/-- The clock line goes up: the device takes the bit on the data line. -/
theorem clockUp_eq (d : Slave σ) {l : Lines σ} (hclk : l.gpio.level 13 = false) :
    (gpioSet l.gpio spiSramSckPin).level 13 = true
      ∧ l.write d (gpioSet · spiSramSckPin)
        = ⟨gpioSet l.gpio spiSramSckPin, l.dev.rise d (l.gpio.level 15)⟩ := by
  have hsck : spiSramSckPin.toNat < 16 := by decide
  have h13 : (gpioSet l.gpio spiSramSckPin).level 13 = true :=
    (gpioSet_level l.gpio hsck (by decide)).trans (if_pos (by decide))
  have h15 : (gpioSet l.gpio spiSramSckPin).level 15 = l.gpio.level 15 :=
    (gpioSet_level l.gpio hsck (by decide)).trans (if_neg (by decide))
  refine ⟨h13, ?_⟩
  simp only [Lines.write, hclk, h13, h15, Bool.not_false, Bool.and_self, if_true]

/-- And down: it puts out its next bit. -/
theorem clockDown_eq (d : Slave σ) {l : Lines σ} (hclk : l.gpio.level 13 = true) :
    (gpioClear l.gpio spiSramSckPin).level 13 = false
      ∧ l.write d (gpioClear · spiSramSckPin)
        = ⟨gpioClear l.gpio spiSramSckPin, l.dev.fall d⟩ := by
  have h13 : (gpioClear l.gpio spiSramSckPin).level 13 = false :=
    (gpioClear_level l.gpio (show spiSramSckPin.toNat < 16 by decide) (by decide)).trans
      (if_pos (by decide))
  refine ⟨h13, ?_⟩
  simp only [Lines.write, hclk, h13, Bool.not_true, Bool.not_false, Bool.and_self,
    Bool.false_eq_true, if_false, if_true]

/-- **A clock cycle** of the loop: the data line takes the bit, the input is sampled between the
    edges. -/
theorem gpioXferLoop_succ (d : Slave σ) (out : UInt8) {n : Nat} (hn : n < 8) {l : Lines σ}
    (hclk : l.gpio.level 13 = false) (byte : UInt8) :
    ∃ g : Gpio, g.level 13 = false ∧ gpioXferLoop d out (n + 1) l byte
      = gpioXferLoop d out n ⟨g, (l.dev.rise d (bit out n)).fall d⟩
          (shiftIn byte l.dev.output) := by
  obtain ⟨g, hg13, hg15, hdata⟩ := dataLine_eq d out hn hclk
  obtain ⟨hup13, hup⟩ := clockUp_eq d (l := { l with gpio := g }) hg13
  rw [hg15] at hup
  obtain ⟨hdown13, hdown⟩ :=
    clockDown_eq d (l := ⟨gpioSet g spiSramSckPin, l.dev.rise d (bit out n)⟩) hup13
  -- what is sampled in between
  have hidr : (gpioRead (Lines.idr ⟨gpioSet g spiSramSckPin, l.dev.rise d (bit out n)⟩)
        spiSramMisoPin ≠ 0) ↔ l.dev.output = true := by
    rw [gpioRead_eq _ (show spiSramMisoPin.toNat < 16 by decide), Lines.idr, rise_output]
    cases l.dev.output <;> decide
  refine ⟨_, hdown13, ?_⟩
  rw [gpioXferLoop]
  simp only [hdata, hup, hdown, if_congr hidr rfl rfl]
  rfl

/-- The rest of a byte. -/
theorem gpioXferLoop_within (d : Slave σ) (s : σ) (out : UInt8) {n k : Nat} (hnk : n + 1 + k = 8)
    {l : Lines σ} (hclk : l.gpio.level 13 = false) (hdev : l.dev = Shift.within d s out k) :
    ∃ g : Gpio, g.level 13 = false
      ∧ gpioXferLoop d out (n + 1) l (top (d.reply s) k)
        = (d.reply s, ⟨g, Shift.start d (d.accept s out)⟩) := by
  induction n generalizing k l with
  | zero =>
    obtain rfl : k = 7 := by omega
    obtain ⟨g, hg, hloop⟩ := gpioXferLoop_succ d out (show 0 < 8 by decide) hclk (top (d.reply s) 7)
    have hout : l.dev.output = bit (d.reply s) 0 := by rw [hdev]; rfl
    have hbyte : shiftIn (top (d.reply s) 7) (bit (d.reply s) 0) = d.reply s :=
      (shiftIn_top (d.reply s) (by decide : 7 < 8)).trans (top_eight _)
    refine ⟨g, hg, ?_⟩
    rw [hloop, hdev, clock_last, ← hdev, hout, hbyte]
    rfl
  | succ n ih =>
    have hk : 7 - k = n + 1 := by omega
    obtain ⟨g, hg, hloop⟩ :=
      gpioXferLoop_succ d out (show n + 1 < 8 by omega) hclk (top (d.reply s) k)
    have hout : l.dev.output = bit (d.reply s) (7 - k) := by rw [hdev]; rfl
    have hnext := clock_within d s out (show k < 7 by omega)
    rw [hk] at hnext
    rw [hloop, hout, shiftIn_top _ (show k < 8 by omega), hdev, hnext]
    exact ih (k := k + 1) (by omega) (l := ⟨g, Shift.within d s out (k + 1)⟩) hg rfl

/-- **`spi_sram_gpio_xfer_byte`**: the same exchange as through SPI2. -/
theorem gpioXferByte_start (d : Slave σ) (s : σ) (out : UInt8) {l : Lines σ}
    (hclk : l.gpio.level 13 = false) (hdev : l.dev = Shift.start d s) :
    ∃ g : Gpio, g.level 13 = false
      ∧ spiSramGpioXferByte d l out = (d.reply s, ⟨g, Shift.start d (d.accept s out)⟩) := by
  have h := gpioXferLoop_within d s out (show 7 + 1 + 0 = 8 from rfl) hclk
    (hdev.trans (within_zero d s out).symm)
  rwa [top_zero] at h

/-- Calls of it in a row. -/
def spiSramGpioXferBytes (d : Slave σ) : Lines σ → List UInt8 → List UInt8 × Lines σ
  | l, []          => ([], l)
  | l, out :: outs =>
      ((spiSramGpioXferByte d l out).1
          :: (spiSramGpioXferBytes d (spiSramGpioXferByte d l out).2 outs).1,
        (spiSramGpioXferBytes d (spiSramGpioXferByte d l out).2 outs).2)

/-- Many bytes are a transfer. -/
theorem gpioXferBytes_start (d : Slave σ) (s : σ) (outs : List UInt8) {l : Lines σ}
    (hclk : l.gpio.level 13 = false) (hdev : l.dev = Shift.start d s) :
    ∃ g : Gpio, g.level 13 = false ∧ spiSramGpioXferBytes d l outs
      = ((d.transfer s outs).1, ⟨g, Shift.start d (d.transfer s outs).2⟩) := by
  induction outs generalizing s l with
  | nil => exact ⟨l.gpio, hclk, congrArg (([], ⟨l.gpio, ·⟩) : Shift σ → List UInt8 × Lines σ) hdev⟩
  | cons out outs ih =>
    obtain ⟨g, hg, hbyte⟩ := gpioXferByte_start d s out hclk hdev
    obtain ⟨g', hg', hbytes⟩ :=
      ih (d.accept s out) (l := ⟨g, Shift.start d (d.accept s out)⟩) hg rfl
    exact ⟨g', hg', by rw [spiSramGpioXferBytes, hbyte, hbytes, transfer_cons]⟩

/-- **The two ways to send bytes agree**: with any device, from SPI2 ready and the device at the
    start of a byte, the bytes through SPI2 and the bit-banged ones get the same replies and
    leave the device alike. -/
theorem gpioXferBytes_eq_spi {d : Device σ} {b : Bus σ} {pace : Pace} {fuel : Nat}
    (h : b.Ready pace true) (hfuel : pace.bound < fuel) {l : Lines σ}
    (hclk : l.gpio.level 13 = false) (hdev : l.dev = Shift.start d.toSlave b.dev)
    (outs : List UInt8) :
    ∃ b', spiSramXferBytes d pace fuel b outs
        = some ((spiSramGpioXferBytes d.toSlave l outs).1, b')
      ∧ (spiSramGpioXferBytes d.toSlave l outs).2.dev = Shift.start d.toSlave b'.dev := by
  obtain ⟨b', hspi, hdev', _⟩ := xferBytes_ready (d := d) h hfuel outs
  obtain ⟨g, _, hgpio⟩ := gpioXferBytes_start d.toSlave b.dev outs hclk hdev
  exact ⟨b', by rw [hspi, hgpio], by rw [hgpio, hdev']⟩

/-- The bus after a reset, with a chip that is not selected. -/
def coldBus (mem : Nat → UInt8) : Bus Sram23 where
  apb1enr := 0
  apb2enr := 0
  gpio := ⟨0x44444444, 0x44444444, 0⟩
  spi := ⟨0, 0, false, none, 0, 0⟩
  dev := ⟨mem, .idle⟩
  sent := 0

/-- Flags that take two or three reads. -/
def steadyPace : Pace := ⟨fun _ => 2, fun _ => 2, fun _ => 3, 3, fun _ => by decide⟩

theorem gpioXferBytes_eq_spi_command :
    let b := spiSramCsAssert sram23 (spiSramHwInit sram23 (coldBus fun _ => 0xFF))
    let l : Lines Sram23 := ⟨⟨0, 0, 0⟩, Shift.start sram23.toSlave b.dev⟩
    let outs : List UInt8 := [0x03, 0, 0, 0, 0]
    ∃ b', spiSramXferBytes sram23 steadyPace 4 b outs
        = some ((spiSramGpioXferBytes sram23.toSlave l outs).1, b')
      ∧ (spiSramGpioXferBytes sram23.toSlave l outs).2.dev = Shift.start sram23.toSlave b'.dev :=
  gpioXferBytes_eq_spi
    (csAssert_ready (hwInit_ready rfl (Nat.zero_le _) (Nat.zero_le _))).2 (by decide) rfl rfl _

end Stm32F1Dfu
