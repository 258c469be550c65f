import Stm32F1Dfu.Update
import Stm32F1Dfu.Wire

namespace Stm32F1Dfu

open Serial LittleEndian

/-!
# The chip behind the calls

With the 23LCV1024 on the wire `spi_sram_read` and `spi_sram_write` are those on the bytes it
keeps, so what is proved with these holds with SPI2 and its flags.

* `sram23_command`, `sram23_read`, `sram23_write` — what the chip makes of the bytes of a call;
* `Bus.Keeps` — SPI2 is ready and the chip keeps the SRAM of the stores;
* `calls_wire` — any calls in a row, by induction on them;
* `wire_refines` — the same from `spi_sram_hw_init` on;
* `selfTest_passes` — the self-test passes, and no image survives it.
-/

variable {pace : Pace} {fuel : Nat}

/-! ### The chip -/

/-- A command of four bytes takes the chip to the data at the address, modulo its size. -/
theorem sram23_command (c : Sram23) (write : Bool) {opcode : UInt8} (addr : UInt32)
    (hop : sram23.accept ⟨c.mem, .opcode⟩ opcode = ⟨c.mem, .address write 0 0⟩) :
    (sram23.transfer (sram23.select c) (spiSramCommand opcode addr)).2
      = ⟨c.mem, .data write (addr.toNat % sramSize)⟩ := by
  -- the value of the three bytes
  have hshift (k : UInt32) :
      (addr >>> k).toUInt8.toNat = addr.toNat / 2 ^ (k.toNat % 32) % 2 ^ 8 := by
    rw [UInt32.toNat_toUInt8, UInt32.toNat_shiftRight, Nat.shiftRight_eq_div_pow]
  have hhigh : (addr >>> 16).toUInt8.toNat = addr.toNat / 2 ^ 16 % 2 ^ 8 := hshift 16
  have hmid : (addr >>> 8).toUInt8.toNat = addr.toNat / 2 ^ 8 % 2 ^ 8 := hshift 8
  have hlow : addr.toUInt8.toNat = addr.toNat % 2 ^ 8 := UInt32.toNat_toUInt8 ..
  have hvalue : (256 * (256 * (256 * 0 + (addr >>> 16).toUInt8.toNat) + (addr >>> 8).toUInt8.toNat)
      + addr.toUInt8.toNat) % sramSize = addr.toNat % sramSize := by
    rw [hhigh, hmid, hlow]
    show _ % 131072 = _ % 131072
    omega
  have hselect : sram23.select c = ⟨c.mem, .opcode⟩ := rfl
  rw [hselect, spiSramCommand, transfer_cons, hop, ← hvalue]
  rfl

/-- Zeros clocked in while it is read. -/
theorem sram23_read (m : Nat → UInt8) {a : Nat} (ha : a < sramSize) (n : Nat) :
    sram23.transfer ⟨m, .data false a⟩ (List.replicate n 0x00)
      = ((List.range n).map fun i => m ((a + i) % sramSize),
          ⟨m, .data false ((a + n) % sramSize)⟩) := by
  induction n generalizing a with
  | zero => rw [Nat.add_zero, Nat.mod_eq_of_lt ha]; rfl
  | succ n ih =>
    have hsize : 0 < sramSize := by decide
    have hreply : sram23.reply ⟨m, .data false a⟩ = m a := rfl
    have haccept : sram23.accept ⟨m, .data false a⟩ 0x00 = ⟨m, .data false ((a + 1) % sramSize)⟩ :=
      rfl
    have hnext (i : Nat) : ((a + 1) % sramSize + i) % sramSize = (a + (i + 1)) % sramSize := by
      rw [Nat.mod_add_mod, Nat.add_assoc, Nat.add_comm 1 i]
    rw [List.replicate_succ, transfer_cons, hreply, haccept, ih (Nat.mod_lt _ hsize), hnext,
      List.range_succ_eq_map, List.map_cons, List.map_map]
    simp only [hnext, Function.comp_def, Nat.succ_eq_add_one, Nat.add_zero, Nat.mod_eq_of_lt ha]

/-- Data clocked in while it is written: what the calls on the stores write. -/
theorem sram23_write (s : Store) (addr : UInt32) (bytes : List UInt8) :
    (sram23.transfer ⟨s.sram, .data true (addr.toNat % sramSize)⟩ bytes).2
      = ⟨(spiSramWrite s addr bytes).sram,
          .data true ((addr.toNat + bytes.length) % sramSize)⟩ := by
  induction bytes generalizing s addr with
  | nil => rfl
  | cons byte rest ih =>
    have haccept : sram23.accept ⟨s.sram, .data true (addr.toNat % sramSize)⟩ byte
        = ⟨(s.issue (.sramWrite addr byte)).sram, .data true ((addr + 1).toNat % sramSize)⟩ := by
      have hnext : (addr.toNat % sramSize + 1) % sramSize = (addr + 1).toNat % sramSize := by
        rw [UInt32.toNat_add]
        show (addr.toNat % 131072 + 1) % 131072 = (addr.toNat + 1) % 2 ^ 32 % 131072
        omega
      rw [← hnext]
      rfl
    have hlen : ((addr + 1).toNat + rest.length) % sramSize
        = (addr.toNat + (rest.length + 1)) % sramSize := by
      rw [UInt32.toNat_add]
      show ((addr.toNat + 1) % 2 ^ 32 + rest.length) % 131072
        = (addr.toNat + (rest.length + 1)) % 131072
      omega
    rw [transfer_cons, haccept, ih, spiSramWrite, hlen, List.length_cons]

/-! ### A program's calls -/

/-- A call of the SRAM routines. -/
inductive SramCall where
  | read (addr len : UInt32)
  | write (addr : UInt32) (bytes : List UInt8)

/-- What it gives: what was read, `0`, or the error. -/
inductive SramReply where
  | bytes (bs : List UInt8)
  | done
  | error
  deriving DecidableEq

/-- A call on the stores. -/
def SramCall.onStore (s : Store) : SramCall → SramReply × Store
  | .read addr len =>
      match spiSramRead s addr len with
      | none     => (.error, s)
      | some buf => (.bytes ((List.range len.toNat).map buf), s)
  | .write addr bytes => if bytes = [] then (.error, s) else (.done, spiSramWrite s addr bytes)

/-- A call on the wire. -/
def SramCall.onWire (d : Device σ) (pace : Pace) (fuel : Nat) (b : Bus σ) :
    SramCall → Option (SramReply × Bus σ)
  | .read addr len => do
      match ← Wire.spiSramRead d pace fuel b addr len with
      | (none, b)       => some (.error, b)
      | (some bytes, b) => some (.bytes bytes, b)
  | .write addr bytes => do
      let (written, b) ← Wire.spiSramWrite d pace fuel b addr bytes
      some (if written then .done else .error, b)

/-- Calls in a row on the stores. -/
def callsOnStore : Store → List SramCall → List SramReply × Store
  | s, []            => ([], s)
  | s, call :: calls =>
      ((call.onStore s).1 :: (callsOnStore (call.onStore s).2 calls).1,
        (callsOnStore (call.onStore s).2 calls).2)

/-- Calls in a row on the wire. -/
def callsOnWire (d : Device σ) (pace : Pace) (fuel : Nat) :
    Bus σ → List SramCall → Option (List SramReply × Bus σ)
  | b, []            => some ([], b)
  | b, call :: calls => do
      let (reply, b) ← call.onWire d pace fuel b
      let (replies, b) ← callsOnWire d pace fuel b calls
      some (reply :: replies, b)

/-- SPI2 is ready and the chip, not selected, keeps the SRAM of the stores. -/
structure Bus.Keeps (pace : Pace) (b : Bus Sram23) (s : Store) : Prop where
  ready : b.Ready pace false
  dev : b.dev = ⟨s.sram, .idle⟩

variable {b : Bus Sram23} {s : Store}

/-- **`spi_sram_read`** on the wire reads the SRAM of the stores. -/
theorem read_wire (h : b.Keeps pace s) (hfuel : pace.bound < fuel) (addr len : UInt32)
    (hlen : len ≠ 0) :
    ∃ b', Wire.spiSramRead sram23 pace fuel b addr len
        = some (some ((List.range len.toNat).map fun i => s.sram ((addr.toNat + i) % sramSize)), b')
      ∧ b'.Keeps pace s := by
  have hsize : 0 < sramSize := by decide
  obtain ⟨b', hread, hdev, hready⟩ :=
    wireRead_ready (d := sram23) h.ready hfuel addr hlen
  rw [sram23_command b.dev false addr rfl, h.dev,
    sram23_read _ (Nat.mod_lt _ hsize)] at hread hdev
  simp only [Nat.mod_add_mod] at hread
  exact ⟨b', hread, hready, hdev⟩

/-- **`spi_sram_write`** on the wire writes it. -/
theorem write_wire (h : b.Keeps pace s) (hfuel : pace.bound < fuel) (addr : UInt32)
    (bytes : List UInt8) (hbytes : bytes ≠ []) :
    ∃ b', Wire.spiSramWrite sram23 pace fuel b addr bytes = some (true, b')
      ∧ b'.Keeps pace (spiSramWrite s addr bytes) := by
  obtain ⟨b', hwrite, hdev, hready⟩ :=
    wireWrite_ready (d := sram23) h.ready hfuel addr hbytes
  rw [sram23_command b.dev true addr rfl, h.dev, sram23_write] at hdev
  exact ⟨b', hwrite, hready, hdev⟩

/-- **One call** gives on the wire what it gives on the stores, and leaves them alike. -/
theorem call_wire (h : b.Keeps pace s) (hfuel : pace.bound < fuel) (call : SramCall) :
    ∃ b', call.onWire sram23 pace fuel b = some ((call.onStore s).1, b')
      ∧ b'.Keeps pace (call.onStore s).2 := by
  cases call with
  | read addr len =>
    by_cases hlen : len = 0
    · refine ⟨b, ?_, ?_⟩
      · simp only [SramCall.onWire, SramCall.onStore, Wire.spiSramRead, spiSramRead, if_pos hlen,
          Option.bind_eq_bind, Option.bind_some]
      · simpa only [SramCall.onStore, spiSramRead, if_pos hlen] using h
    · obtain ⟨b', hread, hkeeps⟩ := read_wire h hfuel addr len hlen
      refine ⟨b', ?_, ?_⟩
      · simp only [SramCall.onWire, SramCall.onStore, hread, spiSramRead, if_neg hlen,
          Option.bind_eq_bind, Option.bind_some]
      · simpa only [SramCall.onStore, spiSramRead, if_neg hlen] using hkeeps
  | write addr bytes =>
    by_cases hbytes : bytes = []
    · refine ⟨b, ?_, ?_⟩
      · simp only [SramCall.onWire, SramCall.onStore, Wire.spiSramWrite, if_pos hbytes,
          Option.bind_eq_bind, Option.bind_some, Bool.false_eq_true, if_false]
      · simpa only [SramCall.onStore, if_pos hbytes] using h
    · obtain ⟨b', hwrite, hkeeps⟩ := write_wire h hfuel addr bytes hbytes
      refine ⟨b', ?_, ?_⟩
      · simp only [SramCall.onWire, SramCall.onStore, hwrite, if_neg hbytes, Option.bind_eq_bind,
          Option.bind_some, if_true]
      · simpa only [SramCall.onStore, if_neg hbytes] using hkeeps

/-- **Many calls.** -/
theorem calls_wire (h : b.Keeps pace s) (hfuel : pace.bound < fuel) (calls : List SramCall) :
    ∃ b', callsOnWire sram23 pace fuel b calls = some ((callsOnStore s calls).1, b')
      ∧ b'.Keeps pace (callsOnStore s calls).2 := by
  induction calls generalizing b s with
  | nil => exact ⟨b, rfl, h⟩
  | cons call calls ih =>
    obtain ⟨b₁, hcall, hkeeps⟩ := call_wire h hfuel call
    obtain ⟨b₂, hcalls, hkeeps'⟩ := ih hkeeps
    refine ⟨b₂, ?_, hkeeps'⟩
    simp only [callsOnWire, hcall, hcalls, Option.bind_eq_bind, Option.bind_some, callsOnStore]

/-- `spi_sram_hw_init` leaves the chip's bytes alone and the chip not selected. -/
theorem hwInit_keeps (hquiet : b.spi.coming = none) (htxe : b.spi.txe ≤ pace.bound)
    (hbsy : b.spi.bsy ≤ pace.bound) (hidle : b.gpio.selects = false → b.dev.phase = .idle)
    (hmem : b.dev.mem = s.sram) : (spiSramHwInit sram23 b).Keeps pace s := by
  refine ⟨hwInit_ready hquiet htxe hbsy, ?_⟩
  rw [hwInit_eq, ← hmem]
  show hwSelect sram23 b = _
  unfold hwSelect
  cases hlevel : b.gpio.level 12 with
  | true =>
    -- not driven low, hence not selected
    have hsel : b.gpio.selects = false := by
      rw [Gpio.selects, hlevel, Bool.not_true, Bool.and_false]
    rw [if_pos rfl, ← hidle hsel]
  | false => cases b.gpio.selects <;> rfl

/-- **The wire carries the calls.**  From any registers, with nothing on its way in and a chip
    that is not in a command unless the port selects it, `spi_sram_hw_init` and any calls after
    it give on the wire what the calls give on the stores, whatever the flags take, and the chip
    keeps what the stores keep. -/
theorem wire_refines (hquiet : b.spi.coming = none) (htxe : b.spi.txe ≤ pace.bound)
    (hbsy : b.spi.bsy ≤ pace.bound) (hidle : b.gpio.selects = false → b.dev.phase = .idle)
    (hmem : b.dev.mem = s.sram) (hfuel : pace.bound < fuel) (calls : List SramCall) :
    ∃ b', callsOnWire sram23 pace fuel (spiSramHwInit sram23 b) calls
        = some ((callsOnStore s calls).1, b')
      ∧ b'.dev.mem = (callsOnStore s calls).2.sram := by
  obtain ⟨b', hcalls, hkeeps⟩ :=
    calls_wire (hwInit_keeps hquiet htxe hbsy hidle hmem) hfuel calls
  exact ⟨b', hcalls, by rw [hkeeps.dev]⟩

/-- Data written across the end of the chip, read back, and the two errors. -/
def someCalls : List SramCall :=
  [.write 0x1FFFF [1, 2], .read 0 2, .read 7 0, .write 7 []]

theorem wire_refines_someCalls :
    ∃ b', callsOnWire sram23 steadyPace 4 (spiSramHwInit sram23 (coldBus fun _ => 0xFF)) someCalls
        = some ((callsOnStore ⟨fun _ => 0xFF, fun _ => 0xFF, true, []⟩ someCalls).1, b')
      ∧ b'.dev.mem = (callsOnStore ⟨fun _ => 0xFF, fun _ => 0xFF, true, []⟩ someCalls).2.sram :=
  wire_refines rfl (Nat.zero_le _) (Nat.zero_le _) (fun _ => rfl) rfl (by decide) someCalls

/-! ### The self-test -/

/-- An image begins with the low byte of its magic. -/
theorem not_validImage_of_first {s : Store} (h : s.sram 0 ≠ 0x53) :
    sramHasValidImage s = false := by
  rw [Bool.eq_false_iff]
  intro hv
  have hmagic := ((sramHasValidImage_iff s).mp hv).magic
  have hlow : word (s.sram 0) (s.sram 1) (s.sram 2) (s.sram 3) = word 0x53 0x42 0x41 0x4D :=
    hmagic.trans (by decide)
  rw [word_inj] at hlow
  exact h hlow.1

/-- **`spi_sram_self_test`** passes after `spi_sram_hw_init`, whatever the flags take; it leaves
    its pattern in the first sixteen bytes of the chip, the others as they were, and no image that
    a boot would take. -/
theorem selfTest_passes (hquiet : b.spi.coming = none) (htxe : b.spi.txe ≤ pace.bound)
    (hbsy : b.spi.bsy ≤ pace.bound) (hidle : b.gpio.selects = false → b.dev.phase = .idle)
    (hfuel : pace.bound < fuel) :
    ∃ b', spiSramSelfTest sram23 pace fuel (spiSramHwInit sram23 b) = some (0, b')
      ∧ (∀ i, b'.dev.mem i = if i < 16 then testPattern.getD i 0 else b.dev.mem i)
      ∧ ∀ s : Store, s.sram = b'.dev.mem → sramHasValidImage s = false := by
  have hfit : (0 : UInt32).toNat + testPattern.length ≤ sramSize := by decide
  -- the stores the chip stands for
  let s : Store := ⟨fun _ => 0xFF, b.dev.mem, true, []⟩
  have hkeeps : (spiSramHwInit sram23 b).Keeps pace s := hwInit_keeps hquiet htxe hbsy hidle rfl
  obtain ⟨b₁, hwrite, hkeeps₁⟩ := write_wire hkeeps hfuel 0 testPattern (by decide)
  obtain ⟨b₂, hread, hkeeps₂⟩ := read_wire hkeeps₁ hfuel 0 16 (by decide)
  have hmem (i : Nat) : (spiSramWrite s 0 testPattern).sram i
      = if i < 16 then testPattern.getD i 0 else b.dev.mem i := by
    rw [spiSramWrite_sram s 0 testPattern hfit]
    simp only [UInt32.toNat_zero, Nat.zero_le, true_and, Nat.zero_add, Nat.sub_zero]
    rfl
  have hback : (List.range 16).find? (fun i =>
      ((List.range 16).map fun i => (spiSramWrite s 0 testPattern).sram i).getD i 0
        != testPattern.getD i 0) = none := by
    rw [List.find?_eq_none]
    intro i hi
    have hi : i < 16 := List.mem_range.mp hi
    rw [List.getD_eq_getElem _ _ (by simpa using hi), List.getElem_map, List.getElem_range, hmem,
      if_pos hi]
    simp
  refine ⟨b₂, ?_, ?_, ?_⟩
  · have hmod : ((List.range (16 : UInt32).toNat).map fun i =>
        (spiSramWrite s 0 testPattern).sram (((0 : UInt32).toNat + i) % sramSize))
        = (List.range 16).map fun i => (spiSramWrite s 0 testPattern).sram i := by
      refine List.map_congr_left fun i hi => ?_
      have hi : i < 16 := List.mem_range.mp hi
      have hsize : i < sramSize := by
        show i < 131072
        omega
      rw [UInt32.toNat_zero, Nat.zero_add, Nat.mod_eq_of_lt hsize]
    rw [hmod] at hread
    simp only [spiSramSelfTest, hwrite, hread, Option.bind_eq_bind, Option.bind_some, Bool.not_true,
      Bool.false_eq_true, if_false, hback]
  · intro i
    rw [hkeeps₂.dev]
    exact hmem i
  · intro s' hs'
    refine not_validImage_of_first ?_
    rw [hs', hkeeps₂.dev]
    show (spiSramWrite s 0 testPattern).sram 0 ≠ 0x53
    rw [hmem, if_pos (by decide)]
    decide

theorem selfTest_passes_coldBus :
    ∃ b', spiSramSelfTest sram23 steadyPace 4 (spiSramHwInit sram23 (coldBus fun _ => 0xFF))
        = some (0, b')
      ∧ (∀ i, b'.dev.mem i = if i < 16 then testPattern.getD i 0 else 0xFF)
      ∧ ∀ s : Store, s.sram = b'.dev.mem → sramHasValidImage s = false :=
  selfTest_passes rfl (Nat.zero_le _) (Nat.zero_le _) (fun _ => rfl) (by decide)

end Stm32F1Dfu
