import Stm32F1Dfu.Lib.LittleEndian

namespace Stm32F1Dfu

open LittleEndian

/-!
# The non-volatile stores: flash and SPI SRAM

The memories that outlive a reset, as the hardware changes them:

* `Store.flash` — the flash as bytes over the 32-bit address space;
* `Store.sram` — the external SPI SRAM, 128 KB, addressed modulo its size;
* `StoreOp` — one hardware operation: a page erase, the programming of a half-word, or
  one SRAM byte written;
* `Store.ops` — the operations issued so far, newest first.  A power cut between two
  operations leaves what a suffix of that list makes of the store (`replay`).

The layout constants are those of `flash_config.h`.
-/

/-! ### Layout -/

/-- `FLASH_BASE_ADDR`. -/
def flashBaseAddr : UInt32 := 0x08000000
/-- `FLASH_SIZE_KB`. -/
def flashSizeKb : UInt32 := 128
/-- `FLASH_BOOTLDR_PAYLOAD_SIZE_KB`. -/
def flashBootldrPayloadSizeKb : UInt32 := 120
/-- `FLASH_BOOTLDR_SIZE_KB`. -/
def flashBootldrSizeKb : UInt32 := 8

/-- First address of the application region (`start_addr`). -/
def startAddr : UInt32 := flashBaseAddr + flashBootldrSizeKb * 1024
/-- First address past the flash (`end_addr`). -/
def endAddr : UInt32 := flashBaseAddr + flashSizeKb * 1024

@[simp] theorem startAddr_toNat : startAddr.toNat = 0x08002000 := by decide
@[simp] theorem endAddr_toNat : endAddr.toNat = 0x08020000 := by decide

/-- Size of the SPI SRAM in bytes. -/
def sramSize : Nat := 128 * 1024

/-- Number of the 1 KB flash page that holds an address. -/
def pageOf (a : UInt32) : Nat := a.toNat / 1024

/-- The address is one of the application region. -/
def InApp (a : UInt32) : Prop := startAddr ≤ a ∧ a < endAddr

instance (a : UInt32) : Decidable (InApp a) := inferInstanceAs (Decidable (_ ∧ _))

/-- The application region in numbers. -/
theorem inApp_iff (a : UInt32) : InApp a ↔ 0x08002000 ≤ a.toNat ∧ a.toNat < 0x08020000 := by
  simp [InApp, UInt32.le_iff_toNat_le, UInt32.lt_iff_toNat_lt]

/-! ### What the flash does with one operation -/

/-- The half-word at `a`. -/
def halfAt (m : UInt32 → UInt8) (a : UInt32) : UInt16 := half (m a) (m (a + 1))

/-- The word at `a`. -/
def wordAt (m : UInt32 → UInt8) (a : UInt32) : UInt32 :=
  word (m a) (m (a + 1)) (m (a + 2)) (m (a + 3))

/-- Words whose bytes agree are equal. -/
theorem wordAt_congr {m m' : UInt32 → UInt8} {a : UInt32}
    (h : ∀ j < 4, m (a + UInt32.ofNat j) = m' (a + UInt32.ofNat j)) : wordAt m a = wordAt m' a := by
  have h0 := h 0 (by omega)
  rw [show UInt32.ofNat 0 = 0 from rfl, UInt32.add_zero] at h0
  unfold wordAt
  rw [h0, show m (a + 1) = m' (a + 1) from h 1 (by omega),
    show m (a + 2) = m' (a + 2) from h 2 (by omega), show m (a + 3) = m' (a + 3) from h 3 (by omega)]

/-- A page erase: the whole page that holds `page_address` reads `0xFF`. -/
def erasePage (m : UInt32 → UInt8) (page_address : UInt32) : UInt32 → UInt8 :=
  fun b => if pageOf b = pageOf page_address then 0xFF else m b

/-- Programming the half-word at `address`: it is stored when the half-word there reads
    `0xFFFF`, and refused (`PGERR`) otherwise.  An odd address names the two bytes from
    it on. -/
def programHalf (m : UInt32 → UInt8) (address : UInt32) (data : UInt16) : UInt32 → UInt8 :=
  if halfAt m address = 0xFFFF then
    fun b => if b = address then data.toUInt8
      else if b = address + 1 then (data >>> 8).toUInt8 else m b
  else m

/-- One operation on the stores. -/
inductive StoreOp where
  /-- erase of the flash page that holds the address -/
  | erase (page_address : UInt32)
  /-- programming of one flash half-word -/
  | program (address : UInt32) (data : UInt16)
  /-- one byte written to the SPI SRAM -/
  | sramWrite (addr : UInt32) (data : UInt8)
  deriving DecidableEq

/-- The stores, the flash lock (`FLASH_CR_LOCK`) and the operations issued so far. -/
structure Store where
  flash : UInt32 → UInt8
  sram : Nat → UInt8
  locked : Bool
  ops : List StoreOp

/-- What one operation makes of the stores. -/
def StoreOp.apply : StoreOp → Store → Store
  | .erase a, s       => { s with flash := erasePage s.flash a }
  | .program a d, s   => { s with flash := programHalf s.flash a d }
  | .sramWrite a d, s =>
      { s with sram := fun i => if i = a.toNat % sramSize then d else s.sram i }

/-- Issue an operation: the hardware carries it out and it is recorded. -/
def Store.issue (s : Store) (op : StoreOp) : Store :=
  { op.apply s with ops := op :: s.ops }

/-- What the operations `ops` (newest first) make of the stores. -/
def replay : List StoreOp → Store → Store
  | [], s          => s
  | op :: older, s => op.apply (replay older s)

/-! ### Reach of an operation -/

/-- The flash bytes an operation may change. -/
def StoreOp.Touches : StoreOp → UInt32 → Prop
  | .erase a, b       => pageOf b = pageOf a
  | .program a _, b   => b = a ∨ b = a + 1
  | .sramWrite _ _, _ => False

/-- Every flash byte the operation may change is one of the application region. -/
def StoreOp.InApp (op : StoreOp) : Prop := ∀ b, op.Touches b → Stm32F1Dfu.InApp b

/-- A byte an erase does not touch keeps its value. -/
theorem erasePage_of_ne {m : UInt32 → UInt8} {a b : UInt32} (h : pageOf b ≠ pageOf a) :
    erasePage m a b = m b := if_neg h

/-- Every byte of the erased page reads `0xFF`. -/
theorem erasePage_of_eq {m : UInt32 → UInt8} {a b : UInt32} (h : pageOf b = pageOf a) :
    erasePage m a b = 0xFF := if_pos h

/-- A byte outside the programmed half-word keeps its value. -/
theorem programHalf_of_ne {m : UInt32 → UInt8} {a b : UInt32} {d : UInt16}
    (h0 : b ≠ a) (h1 : b ≠ a + 1) : programHalf m a d b = m b := by
  unfold programHalf
  split
  · simp only [h0, h1, if_false]
  · rfl

/-- **Frame.**  An operation leaves every flash byte alone that it does not touch. -/
theorem StoreOp.apply_flash_of_not_touches {op : StoreOp} {s : Store} {b : UInt32}
    (h : ¬ op.Touches b) : (op.apply s).flash b = s.flash b := by
  cases op with
  | erase a => exact erasePage_of_ne h
  | program a d =>
    simp only [Touches, not_or] at h
    exact programHalf_of_ne h.1 h.2
  | sramWrite a d => rfl

/-- An erase stays in the application region exactly when its address is there: the
    region is made of whole pages. -/
theorem StoreOp.erase_inApp (a : UInt32) :
    (StoreOp.erase a).InApp ↔ Stm32F1Dfu.InApp a := by
  constructor
  · intro h
    exact h a rfl
  · intro h b hb
    simp only [Touches, pageOf] at hb
    rw [inApp_iff] at h ⊢
    omega

/-- A half-word stays in the application region when both its bytes are there. -/
theorem StoreOp.program_inApp (a : UInt32) (d : UInt16) :
    (StoreOp.program a d).InApp ↔ Stm32F1Dfu.InApp a ∧ Stm32F1Dfu.InApp (a + 1) := by
  constructor
  · intro h
    exact ⟨h a (Or.inl rfl), h (a + 1) (Or.inr rfl)⟩
  · rintro ⟨h0, h1⟩ b (rfl | rfl)
    · exact h0
    · exact h1

@[simp] theorem Store.issue_flash (s : Store) (op : StoreOp) :
    (s.issue op).flash = (op.apply s).flash := rfl
@[simp] theorem Store.issue_sram (s : Store) (op : StoreOp) :
    (s.issue op).sram = (op.apply s).sram := rfl
@[simp] theorem Store.issue_ops (s : Store) (op : StoreOp) :
    (s.issue op).ops = op :: s.ops := rfl
@[simp] theorem Store.issue_locked (s : Store) (op : StoreOp) :
    (s.issue op).locked = s.locked := by cases op <;> rfl

end Stm32F1Dfu
