import Stm32F1Dfu.Flash
import Stm32F1Dfu.Lib.XorFold

namespace Stm32F1Dfu

open LittleEndian XorFold

/-!
# Booting: `main.c`, `checksum.c` and `spi_sram_image.c`

What the processor does from reset until it jumps to the application, resets again or
enters the USB loop: the image in the SPI SRAM, its validation, the update path and the
boot decision.

Loops whose bound is computed take fuel and return `none` when it runs out.  Transfers to
the SRAM always complete.  Clocks, pins and the LEDs are left out.
-/

/-! ### `checksum.c` -/

/-- `CHECKSUM_XOR_START`. -/
def checksumXorStart : UInt32 := 0xB4DC0FEE

/-- `validate_checksum`. -/
def validateChecksum (image : Nat → UInt32) (size : UInt32) : Bool :=
  xorFold checksumXorStart image size.toNat == 0

/-- Word `i` of a buffer, as `validate_checksum_stream` assembles it. -/
def bufWord (buf : Nat → UInt8) (i : Nat) : UInt32 :=
  word (buf (i * 4)) (buf (i * 4 + 1)) (buf (i * 4 + 2)) (buf (i * 4 + 3))

/-- A read callback: `none` when it reports an error. -/
abbrev ReadCb := UInt32 → UInt32 → Option (Nat → UInt8)

/-- The `while (remaining)` loop of `validate_checksum_stream`: `some none` when the
    callback fails, `some (some xorv)` when it ends. -/
def streamLoop (read_cb : ReadCb) (chunk : UInt32) :
    Nat → UInt32 → UInt32 → UInt32 → Option (Option UInt32)
  | fuel, addr, remaining, xorv =>
    if remaining = 0 then some (some xorv)
    else
      match fuel with
      | 0 => none
      | fuel + 1 =>
        let toread := if remaining > chunk then chunk else remaining
        match read_cb addr toread with
        | none => some none
        | some buf =>
            streamLoop read_cb chunk fuel (addr + toread) (remaining - toread)
              (xorFold xorv (bufWord buf) (toread / 4).toNat)

/-- `validate_checksum_stream`, with a callback that is set. -/
def validateChecksumStream (fuel : Nat) (read_cb : ReadCb) (chunk start_addr size_bytes : UInt32) :
    Option Bool :=
  if size_bytes &&& 3 ≠ 0 then some false
  else
    match streamLoop read_cb chunk fuel start_addr size_bytes checksumXorStart with
    | none => none
    | some none => some false
    | some (some xorv) => some (xorv == 0)

/-! ### The SPI SRAM and the image header -/

/-- `SRAM_IMAGE_CHUNK_BYTES`. -/
def sramImageChunkBytes : UInt32 := 256
/-- `SRAM_IMAGE_HEADER_OFFSET`. -/
def sramImageHeaderOffset : UInt32 := 0
/-- `SRAM_IMAGE_MAGIC`. -/
def sramImageMagic : UInt32 := 0x4D414253

/-- `struct sram_image_header`. -/
structure SramImageHeader where
  magic : UInt32
  offset : UInt32
  size : UInt32
  deriving DecidableEq, Repr

/-- `sizeof(sram_image_header)`. -/
def sizeofHeader : UInt32 := 12

/-- `sram_le32`. -/
def sramLe32 (v : UInt32) : UInt32 :=
  word v.toUInt8 (v >>> 8).toUInt8 (v >>> 16).toUInt8 (v >>> 24).toUInt8

/-- `spi_sram_read`: the bytes from `addr` on; the chip decodes 17 address bits and wraps at
    its end. -/
def spiSramRead (s : Store) (addr len : UInt32) : Option (Nat → UInt8) :=
  if len = 0 then none else some fun i => s.sram ((addr.toNat + i) % sramSize)

/-- The bytes of `spi_sram_write` after its opcode, one by one. -/
def spiSramWrite (s : Store) (addr : UInt32) : List UInt8 → Store
  | []           => s
  | byte :: rest => spiSramWrite (s.issue (.sramWrite addr byte)) (addr + 1) rest

/-- `spi_sram_read(SRAM_IMAGE_HEADER_OFFSET, &hdr, sizeof(hdr))`. -/
def readHeader (s : Store) : Option SramImageHeader :=
  (spiSramRead s sramImageHeaderOffset sizeofHeader).map fun b =>
    { magic := word (b 0) (b 1) (b 2) (b 3)
      offset := word (b 4) (b 5) (b 6) (b 7)
      size := word (b 8) (b 9) (b 10) (b 11) }

/-- `sram_has_valid_image`. -/
def sramHasValidImage (s : Store) : Bool :=
  match readHeader s with
  | none => false
  | some hdr =>
    if sramLe32 hdr.magic ≠ sramImageMagic then false
    else
      let img_offset := sramLe32 hdr.offset
      let img_size := sramLe32 hdr.size
      let header_end := sramImageHeaderOffset + sizeofHeader
      let max_bytes := flashBootldrPayloadSizeKb * 1024
      if img_size = 0 then false
      -- the checksum operates on 32-bit words
      else if img_size &&& 3 ≠ 0 then false
      else if img_offset < header_end then false
      else if img_size > max_bytes then false
      else if img_offset > header_end + max_bytes then false
      else if img_offset > 0xFFFFFFFF - img_size then false
      else if img_offset + img_size > header_end + max_bytes then false
      else validateChecksumStream img_size.toNat (spiSramRead s) sramImageChunkBytes img_offset
        img_size == some true

/-! ### The update path of `main` -/

/-- `APP_ADDRESS`. -/
def appAddress : UInt32 := flashBaseAddr + flashBootldrSizeKb * 1024

/-- The loop that erases the pages from `a` up to `stop`. -/
def eraseLoop (s : Store) (stop : UInt32) : Nat → UInt32 → Option Store
  | fuel, a =>
    if a < stop then
      match fuel with
      | 0 => none
      | fuel + 1 => eraseLoop (eraseIfDirty s a) stop fuel (a + 1024)
    else some s

/-- The `while (written < img_size)` loop. -/
def programLoop (s : Store) (img_offset img_size : UInt32) : Nat → UInt32 → Option Store
  | fuel, written =>
    if written < img_size then
      match fuel with
      | 0 => none
      | fuel + 1 =>
        let toread := img_size - written
        let toread := if toread > sramImageChunkBytes then sramImageChunkBytes else toread
        match spiSramRead s (img_offset + written) toread with
        | none => some s -- read failed; the loop is left
        | some sram_buf =>
            programLoop (flashProgramBuffer s (appAddress + written) sram_buf toread.toNat)
              img_offset img_size fuel (written + toread)
    else some s

/-- `spi_sram_write(SRAM_IMAGE_HEADER_OFFSET, &clr, sizeof(clr))`. -/
def clearHeader (s : Store) : Store :=
  spiSramWrite s sramImageHeaderOffset (List.replicate 12 0)

/-- The update path of `main`, up to the reset. -/
def programImage (fuel : Nat) (s : Store) (hdr : SramImageHeader) : Option Store :=
  let img_offset := sramLe32 hdr.offset
  let img_size := sramLe32 hdr.size
  match eraseLoop (flashUnlock s) (appAddress + img_size) fuel appAddress with
  | none => none
  | some s => programLoop (clearHeader s) img_offset img_size fuel 0

/-! ### The boot decision -/

/-- What `main` comes to. -/
inductive BootOutcome where
  /-- a system reset, after an update -/
  | reset
  /-- the jump to the application -/
  | jump
  /-- the USB loop -/
  | dfu
  deriving DecidableEq, Repr

/-- What `main` is told from outside the stores: the word at `_stack` and the pin. -/
structure BootRequest where
  rebootWord : UInt32
  forceDfuGpio : Bool

/-- `rebooted_into_dfu() || force_dfu_gpio()`. -/
def BootRequest.dfu (r : BootRequest) : Bool := r.rebootWord == 0xCC00FFEE || r.forceDfuGpio

/-- `imagesize`: the word at `0x20` of the application. -/
def imagesize (m : UInt32 → UInt8) : UInt32 := wordAt m (startAddr + 0x20)

/-- Word `i` of the application (`base_addr[i]`). -/
def appWord (m : UInt32 → UInt8) (i : Nat) : UInt32 := wordAt m (startAddr + 4 * UInt32.ofNat i)

/-- The tests of the boot decision on the flash alone: the size bound, the stack pointer
    mask and the checksum. -/
def bootGate (m : UInt32 → UInt8) : Bool :=
  !(imagesize m > flashBootldrPayloadSizeKb * 1024 / 4)
    && wordAt m appAddress &&& 0x2FFE0000 == 0x20000000
    && validateChecksum (appWord m) (imagesize m)

/-- `main`, from reset.  `imagesize` is read before the update, which no outcome after the
    update sees. -/
def main (fuel : Nat) (r : BootRequest) (s : Store) : Option (BootOutcome × Store) :=
  let decision : Option (BootOutcome × Store) :=
    some (if !r.dfu && bootGate s.flash then .jump else .dfu, s)
  if sramHasValidImage s then
    match readHeader s with
    | some hdr => (programImage fuel s hdr).map fun s => (.reset, s)
    | none     => decision
  else decision

end Stm32F1Dfu
