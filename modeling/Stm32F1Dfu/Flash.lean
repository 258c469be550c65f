import Stm32F1Dfu.Store
import Mathlib.Data.List.Basic

namespace Stm32F1Dfu

open LittleEndian

/-!
# `flash.c`

The flash routines of the bootloader over `Store`.  Busy waits are left out: an
operation is complete when the routine returns.  The controller ignores erases and
programming while `FLASH_CR_LOCK` is set.

* `flashPageIsErased_iff` — the blank check looks at the 1 KB *window* from its
  address, whatever page that address lies in;
* `eraseIfDirty_flash` — what the check-then-erase pair does to every byte;
* `flashProgramLoop_stored` / `flashProgramLoop_frame` — what programming a buffer
  stores, and that it leaves the rest alone;
* `flashProgramLoop_ops` — the operations it issues;
* `Issued` — the stores are what the operations recorded make of them.
-/

/-- `_flash_lock`. -/
def flashLock (s : Store) : Store := { s with locked := true }

/-- `_flash_unlock`: the keys are written only if the controller is locked. -/
def flashUnlock (s : Store) : Store := if s.locked then { s with locked := false } else s

/-- `_flash_erase_page`. -/
def flashErasePage (s : Store) (page_address : UInt32) : Store :=
  if s.locked then s else s.issue (.erase page_address)

/-- `_flash_page_is_erased`: the 256 words from `addr` on all read `0xffffffff`. -/
def flashPageIsErased (m : UInt32 → UInt8) (addr : UInt32) : Bool :=
  (List.range 256).all fun i => wordAt m (addr + 4 * UInt32.ofNat i) == 0xFFFFFFFF

/-- The check-then-erase pair of lines that every caller of `_flash_erase_page` uses. -/
def eraseIfDirty (s : Store) (a : UInt32) : Store :=
  if !flashPageIsErased s.flash a then flashErasePage s a else s

/-- `n` rounds of the loop that walks the pages from `a` on with that pair of lines. -/
def erasePages (s : Store) (a : UInt32) : Nat → Store
  | 0     => s
  | i + 1 => eraseIfDirty (erasePages s a i) (a + 1024 * UInt32.ofNat i)

/-- One store `addr_ptr[i] = data[i]` with `FLASH_CR_PG` set. -/
def flashProgramHalf (s : Store) (address : UInt32) (data : UInt16) : Store :=
  if s.locked then s else s.issue (.program address data)

/-- The loop of `_flash_program_buffer` after `n` half-words; `data` is the byte buffer
    that the code reads as `uint16_t`. -/
def flashProgramLoop (s : Store) (address : UInt32) (data : Nat → UInt8) : Nat → Store
  | 0     => s
  | i + 1 =>
      flashProgramHalf (flashProgramLoop s address data i) (address + 2 * UInt32.ofNat i)
        (half (data (2 * i)) (data (2 * i + 1)))

/-- `_flash_program_buffer`: `len / 2` half-words, so the last byte of an odd length is
    not programmed. -/
def flashProgramBuffer (s : Store) (address : UInt32) (data : Nat → UInt8) (len : Nat) :
    Store :=
  flashProgramLoop s address data (len / 2)

@[simp] theorem flashLock_flash (s : Store) : (flashLock s).flash = s.flash := rfl
@[simp] theorem flashLock_sram (s : Store) : (flashLock s).sram = s.sram := rfl
@[simp] theorem flashLock_ops (s : Store) : (flashLock s).ops = s.ops := rfl

@[simp] theorem flashUnlock_flash (s : Store) : (flashUnlock s).flash = s.flash := by
  unfold flashUnlock; split <;> rfl
@[simp] theorem flashUnlock_sram (s : Store) : (flashUnlock s).sram = s.sram := by
  unfold flashUnlock; split <;> rfl
@[simp] theorem flashUnlock_ops (s : Store) : (flashUnlock s).ops = s.ops := by
  unfold flashUnlock; split <;> rfl
@[simp] theorem flashUnlock_locked (s : Store) : (flashUnlock s).locked = false := by
  unfold flashUnlock
  cases h : s.locked <;> simp [h]

/-! ### Addresses in a window -/

/-- An offset that does not pass the end of the address space is added exactly. -/
theorem toNat_add_ofNat {a : UInt32} {i : Nat} (h : a.toNat + i < 2 ^ 32) :
    (a + UInt32.ofNat i).toNat = a.toNat + i := by
  simp only [UInt32.toNat_add, UInt32.toNat_ofNat']
  omega

/-- Different offsets below 2³² are different addresses, also past a wrap. -/
theorem add_ofNat_inj {a : UInt32} {i j : Nat} (hi : i < 2 ^ 32) (hj : j < 2 ^ 32) :
    a + UInt32.ofNat i = a + UInt32.ofNat j ↔ i = j := by
  have ha := a.toNat_lt
  simp only [← UInt32.toNat_inj, UInt32.toNat_add, UInt32.toNat_ofNat']
  omega

/-- Every address lies at some offset from every other. -/
theorem exists_offset (a b : UInt32) : ∃ i < 2 ^ 32, b = a + UInt32.ofNat i := by
  refine ⟨(b - a).toNat, (b - a).toNat_lt, ?_⟩
  rw [UInt32.ofNat_toNat, UInt32.add_comm, UInt32.sub_add_cancel]

/-- The address of half-word `i` of a buffer, as a byte offset. -/
theorem halfAddr_low (a : UInt32) (i : Nat) :
    a + 2 * UInt32.ofNat i = a + UInt32.ofNat (2 * i) := by
  rw [UInt32.ofNat_mul]
  rfl

/-- One byte further is the next offset. -/
theorem offset_succ (a : UInt32) (i : Nat) :
    a + UInt32.ofNat i + 1 = a + UInt32.ofNat (i + 1) := by
  rw [UInt32.ofNat_add, UInt32.add_assoc]
  rfl

/-- Byte `j` of word `k` of a window, as an offset into the window. -/
theorem windowByte (addr : UInt32) (k j : Nat) :
    addr + 4 * UInt32.ofNat k + UInt32.ofNat j = addr + UInt32.ofNat (4 * k + j) := by
  rw [UInt32.ofNat_add, UInt32.ofNat_mul, UInt32.add_assoc]
  rfl

/-! ### The blank check -/

/-- **The blank check reads a window.**  It holds when the 1024 bytes from `addr` on
    (modulo 2³²) all read `0xFF`. -/
theorem flashPageIsErased_iff (m : UInt32 → UInt8) (addr : UInt32) :
    flashPageIsErased m addr = true ↔ ∀ i < 1024, m (addr + UInt32.ofNat i) = 0xFF := by
  simp only [flashPageIsErased, List.all_eq_true, List.mem_range, beq_iff_eq, wordAt,
    word_eq_ones]
  have off := windowByte addr
  have off0 (i : Nat) : addr + 4 * UInt32.ofNat i = addr + UInt32.ofNat (4 * i) := by
    simp
  constructor
  · intro h i hi
    -- byte `i` lies in word `i / 4`, at one of its four places
    obtain ⟨h0, h1, h2, h3⟩ := h (i / 4) (by omega)
    have hsplit : i = 4 * (i / 4) + i % 4 := by omega
    obtain hr | hr | hr | hr : i % 4 = 0 ∨ i % 4 = 1 ∨ i % 4 = 2 ∨ i % 4 = 3 := by omega
    all_goals rw [hr] at hsplit; rw [hsplit]
    · exact (off0 _) ▸ h0
    · exact (off _ 1) ▸ h1
    · exact (off _ 2) ▸ h2
    · exact (off _ 3) ▸ h3
  · intro h i hi
    refine ⟨?_, ?_, ?_, ?_⟩
    · rw [off0]; exact h (4 * i) (by omega)
    · exact (off i 1) ▸ h (4 * i + 1) (by omega)
    · exact (off i 2) ▸ h (4 * i + 2) (by omega)
    · exact (off i 3) ▸ h (4 * i + 3) (by omega)

/-- On a page address the window is the page: the check holds when the page is blank. -/
theorem flashPageIsErased_aligned {m : UInt32 → UInt8} {a : UInt32} (ha : a.toNat % 1024 = 0) :
    flashPageIsErased m a = true ↔ ∀ b, pageOf b = pageOf a → m b = 0xFF := by
  rw [flashPageIsErased_iff]
  have hlt := a.toNat_lt
  constructor
  · intro h b hb
    simp only [pageOf] at hb
    obtain ⟨i, hi, rfl⟩ := exists_offset a b
    by_cases hi' : i < 1024
    · exact h i hi'
    · -- past the window the page number differs, also when the offset wraps
      simp only [UInt32.toNat_add, UInt32.toNat_ofNat'] at hb
      omega
  · intro h i hi
    apply h
    simp only [pageOf]
    rw [toNat_add_ofNat (by omega)]
    omega

/-! ### Check and erase -/

/-- What the check-then-erase pair does to every byte: a window that reads blank is left
    as it is, otherwise the page that holds `a` is erased. -/
theorem eraseIfDirty_flash {s : Store} (hu : s.locked = false) (a b : UInt32) :
    (eraseIfDirty s a).flash b
      = if flashPageIsErased s.flash a = false ∧ pageOf b = pageOf a then 0xFF
        else s.flash b := by
  cases h : flashPageIsErased s.flash a <;>
    simp [eraseIfDirty, flashErasePage, h, hu, StoreOp.apply, erasePage]

/-- On a page address the pair leaves the page blank and the rest of the flash alone. -/
theorem eraseIfDirty_aligned {s : Store} (hu : s.locked = false) {a : UInt32}
    (ha : a.toNat % 1024 = 0) (b : UInt32) :
    (eraseIfDirty s a).flash b = if pageOf b = pageOf a then 0xFF else s.flash b := by
  rw [eraseIfDirty_flash hu]
  by_cases hb : pageOf b = pageOf a
  · cases h : flashPageIsErased s.flash a with
    | true =>
      have hff := (flashPageIsErased_aligned ha).mp h b hb
      simp [hb, hff]
    | false => simp [hb]
  · simp [hb]

@[simp] theorem eraseIfDirty_locked (s : Store) (a : UInt32) :
    (eraseIfDirty s a).locked = s.locked := by
  unfold eraseIfDirty flashErasePage
  split <;> [split <;> simp; rfl]

@[simp] theorem eraseIfDirty_sram (s : Store) (a : UInt32) :
    (eraseIfDirty s a).sram = s.sram := by
  unfold eraseIfDirty flashErasePage
  split <;> [split <;> rfl; rfl]

/-- The pair issues one erase of a dirty window, and nothing otherwise. -/
theorem eraseIfDirty_ops {s : Store} (hu : s.locked = false) (a : UInt32) :
    (eraseIfDirty s a).ops
      = if flashPageIsErased s.flash a then s.ops else .erase a :: s.ops := by
  cases h : flashPageIsErased s.flash a <;> simp [eraseIfDirty, flashErasePage, h, hu]

/-! ### A loop of page erases -/

@[simp] theorem erasePages_locked (s : Store) (a : UInt32) (n : Nat) :
    (erasePages s a n).locked = s.locked := by
  induction n with
  | zero => rfl
  | succ n ih => simp [erasePages, ih]

@[simp] theorem erasePages_sram (s : Store) (a : UInt32) (n : Nat) :
    (erasePages s a n).sram = s.sram := by
  induction n with
  | zero => rfl
  | succ n ih => simp [erasePages, ih]

/-- Page `i` of a walk that starts on a page address and stays in the address space. -/
theorem pageAddr_toNat {a : UInt32} {n i : Nat} (hfit : a.toNat + 1024 * n ≤ 2 ^ 32)
    (hi : i < n) : (a + 1024 * UInt32.ofNat i).toNat = a.toNat + 1024 * i := by
  have hmul : (1024 : UInt32) * UInt32.ofNat i = UInt32.ofNat (1024 * i) := by
    rw [UInt32.ofNat_mul]
    rfl
  rw [hmul, toNat_add_ofNat (by omega)]

/-- **A walk over pages.**  It leaves the `n` pages from `a` on blank and the rest of the
    flash alone, whatever was blank before. -/
theorem erasePages_flash {s : Store} (hu : s.locked = false) {a : UInt32}
    (ha : a.toNat % 1024 = 0) {n : Nat} (hfit : a.toNat + 1024 * n ≤ 2 ^ 32) (b : UInt32) :
    (erasePages s a n).flash b
      = if a.toNat ≤ b.toNat ∧ b.toNat < a.toNat + 1024 * n then 0xFF else s.flash b := by
  induction n with
  | zero =>
    rw [if_neg (by omega)]
    rfl
  | succ n ih =>
    have hpage := pageAddr_toNat hfit (Nat.lt_succ_self n)
    rw [erasePages, eraseIfDirty_aligned (by simp [hu]) (by omega), ih (by omega)]
    simp only [pageOf, hpage]
    split_ifs <;> first | rfl | omega

/-- A walk over pages issues erases of those pages only. -/
theorem mem_erasePages_ops {s : Store} {a : UInt32} {n : Nat} {op : StoreOp}
    (h : op ∈ (erasePages s a n).ops) :
    op ∈ s.ops ∨ ∃ i < n, op = .erase (a + 1024 * UInt32.ofNat i) := by
  induction n with
  | zero => exact Or.inl h
  | succ n ih =>
    have hstep : op ∈ (erasePages s a n).ops ∨ op = .erase (a + 1024 * UInt32.ofNat n) := by
      simp only [erasePages, eraseIfDirty, flashErasePage] at h
      split at h
      · split at h
        · exact Or.inl h
        · exact (List.mem_cons.mp h).symm
      · exact Or.inl h
    rcases hstep with hold | hnew
    · exact (ih hold).imp_right fun ⟨i, hi, heq⟩ => ⟨i, by omega, heq⟩
    · exact Or.inr ⟨n, by omega, hnew⟩

/-- The operations issued before a walk stay recorded. -/
theorem erasePages_ops_mono {s : Store} {a : UInt32} {n : Nat} {op : StoreOp}
    (h : op ∈ s.ops) : op ∈ (erasePages s a n).ops := by
  induction n with
  | zero => exact h
  | succ n ih =>
    simp only [erasePages, eraseIfDirty, flashErasePage]
    split
    · split
      · exact ih
      · exact List.mem_cons_of_mem _ ih
    · exact ih

/-! ### Programming a buffer -/

@[simp] theorem flashProgramHalf_locked (s : Store) (a : UInt32) (d : UInt16) :
    (flashProgramHalf s a d).locked = s.locked := by
  unfold flashProgramHalf; split <;> simp

@[simp] theorem flashProgramHalf_sram (s : Store) (a : UInt32) (d : UInt16) :
    (flashProgramHalf s a d).sram = s.sram := by
  unfold flashProgramHalf; split <;> rfl

@[simp] theorem flashProgramLoop_locked (s : Store) (a : UInt32) (data : Nat → UInt8) (n : Nat) :
    (flashProgramLoop s a data n).locked = s.locked := by
  induction n with
  | zero => rfl
  | succ n ih => simp [flashProgramLoop, ih]

@[simp] theorem flashProgramLoop_sram (s : Store) (a : UInt32) (data : Nat → UInt8) (n : Nat) :
    (flashProgramLoop s a data n).sram = s.sram := by
  induction n with
  | zero => rfl
  | succ n ih => simp [flashProgramLoop, ih]

/-- A byte outside a half-word is left alone when the half-word is programmed. -/
theorem flashProgramHalf_frame {s : Store} {a b : UInt32} {d : UInt16} (h0 : b ≠ a)
    (h1 : b ≠ a + 1) : (flashProgramHalf s a d).flash b = s.flash b := by
  unfold flashProgramHalf
  split
  · rfl
  · exact programHalf_of_ne h0 h1

/-- **Frame of a programmed buffer.**  A byte at none of its offsets is left alone. -/
theorem flashProgramLoop_frame (s : Store) (a : UInt32) (data : Nat → UInt8) {n : Nat}
    {b : UInt32} (h : ∀ i < 2 * n, b ≠ a + UInt32.ofNat i) :
    (flashProgramLoop s a data n).flash b = s.flash b := by
  induction n with
  | zero => rfl
  | succ n ih =>
    have h0 : b ≠ a + 2 * UInt32.ofNat n := halfAddr_low a n ▸ h (2 * n) (by omega)
    have h1 : b ≠ a + 2 * UInt32.ofNat n + 1 := by
      rw [halfAddr_low, offset_succ]
      exact h (2 * n + 1) (by omega)
    rw [flashProgramLoop, flashProgramHalf_frame h0 h1]
    exact ih fun i hi => h i (by omega)

/-- **Half-word by half-word.**  Half-word `k` of a programmed buffer is stored when the
    flash read `0xFFFF` there before the loop, and keeps its value otherwise. -/
theorem flashProgramLoop_half {s : Store} (hu : s.locked = false) (a : UInt32)
    (data : Nat → UInt8) {n k : Nat} (hn : 2 * n ≤ 2 ^ 32) (hk : k < n) :
    ((flashProgramLoop s a data n).flash (a + UInt32.ofNat (2 * k))
        = if halfAt s.flash (a + UInt32.ofNat (2 * k)) = 0xFFFF then data (2 * k)
          else s.flash (a + UInt32.ofNat (2 * k))) ∧
      ((flashProgramLoop s a data n).flash (a + UInt32.ofNat (2 * k + 1))
        = if halfAt s.flash (a + UInt32.ofNat (2 * k)) = 0xFFFF then data (2 * k + 1)
          else s.flash (a + UInt32.ofNat (2 * k + 1))) := by
  induction n with
  | zero => omega
  | succ n ih =>
    have hne (i j : Nat) (hi : i < 2 ^ 32) (hj : j < 2 ^ 32) (hij : i ≠ j) :
        a + UInt32.ofNat i ≠ a + UInt32.ofNat j := by
      rw [Ne, add_ofNat_inj hi hj]
      exact hij
    rw [flashProgramLoop]
    rcases Nat.lt_succ_iff_lt_or_eq.mp hk with hlt | rfl
    · -- an earlier half-word: the last store is elsewhere
      have key (j : Nat) (hj : j < 2 * n) :
          (flashProgramHalf (flashProgramLoop s a data n) (a + 2 * UInt32.ofNat n)
            (half (data (2 * n)) (data (2 * n + 1)))).flash (a + UInt32.ofNat j)
          = (flashProgramLoop s a data n).flash (a + UInt32.ofNat j) := by
        apply flashProgramHalf_frame
        · rw [halfAddr_low]; exact hne _ _ (by omega) (by omega) (by omega)
        · rw [halfAddr_low, offset_succ]; exact hne _ _ (by omega) (by omega) (by omega)
      rw [key _ (by omega), key _ (by omega)]
      exact ih (by omega) hlt
    · -- the last half-word: the loop before it has not touched its two bytes
      have keep (j : Nat) (hj : 2 * k ≤ j) (hj' : j < 2 ^ 32) :
          (flashProgramLoop s a data k).flash (a + UInt32.ofNat j)
            = s.flash (a + UInt32.ofNat j) :=
        flashProgramLoop_frame s a data fun i hi => hne _ _ hj' (by omega) (by omega)
      have hread : halfAt (flashProgramLoop s a data k).flash (a + 2 * UInt32.ofNat k)
          = halfAt s.flash (a + UInt32.ofNat (2 * k)) := by
        simp only [halfAt, halfAddr_low, offset_succ]
        rw [keep _ (by omega) (by omega), keep _ (by omega) (by omega)]
      have hl : (flashProgramLoop s a data k).locked = false := by simp [hu]
      have hdiff : a + UInt32.ofNat (2 * k + 1) ≠ a + UInt32.ofNat (2 * k) :=
        hne _ _ (by omega) (by omega) (by omega)
      simp only [flashProgramHalf, hl, Bool.false_eq_true, if_false, Store.issue_flash,
        StoreOp.apply, programHalf, hread]
      split
      · simp only [halfAddr_low, offset_succ, hdiff, if_true, if_false, half_low, half_high,
          and_self]
      · exact ⟨keep _ (by omega) (by omega), keep _ (by omega) (by omega)⟩

/-- Programming over blank flash stores the buffer. -/
theorem flashProgramLoop_stored {s : Store} (hu : s.locked = false) (a : UInt32)
    (data : Nat → UInt8) {n : Nat} (hn : 2 * n ≤ 2 ^ 32)
    (hblank : ∀ i < 2 * n, s.flash (a + UInt32.ofNat i) = 0xFF) {i : Nat} (hi : i < 2 * n) :
    (flashProgramLoop s a data n).flash (a + UInt32.ofNat i) = data i := by
  have hread : halfAt s.flash (a + UInt32.ofNat (2 * (i / 2))) = 0xFFFF := by
    rw [halfAt, offset_succ, half_eq_ones]
    exact ⟨hblank _ (by omega), hblank _ (by omega)⟩
  obtain ⟨h0, h1⟩ := flashProgramLoop_half hu a data hn (k := i / 2) (by omega)
  rw [if_pos hread] at h0 h1
  obtain hr | hr : i = 2 * (i / 2) ∨ i = 2 * (i / 2) + 1 := by omega
  · rw [hr]; exact h0
  · rw [hr]; exact h1

/-- The operations of the programming loop, newest first. -/
def programOps (a : UInt32) (data : Nat → UInt8) : Nat → List StoreOp
  | 0     => []
  | i + 1 =>
      .program (a + 2 * UInt32.ofNat i) (half (data (2 * i)) (data (2 * i + 1)))
        :: programOps a data i

/-- The loop issues its half-words in order and nothing else. -/
theorem flashProgramLoop_ops {s : Store} (hu : s.locked = false) (a : UInt32)
    (data : Nat → UInt8) (n : Nat) :
    (flashProgramLoop s a data n).ops = programOps a data n ++ s.ops := by
  induction n with
  | zero => rfl
  | succ n ih => simp [flashProgramLoop, flashProgramHalf, programOps, hu, ih]

/-- The operations of the loop: one for every half-word. -/
theorem mem_programOps {a : UInt32} {data : Nat → UInt8} {n : Nat} {op : StoreOp} :
    op ∈ programOps a data n ↔
      ∃ i < n, op = .program (a + 2 * UInt32.ofNat i)
        (half (data (2 * i)) (data (2 * i + 1))) := by
  induction n with
  | zero => simp [programOps]
  | succ n ih =>
    simp only [programOps, List.mem_cons, ih]
    constructor
    · rintro (rfl | ⟨i, hi, rfl⟩)
      · exact ⟨n, by omega, rfl⟩
      · exact ⟨i, by omega, rfl⟩
    · rintro ⟨i, hi, rfl⟩
      rcases Nat.lt_succ_iff_lt_or_eq.mp hi with hlt | rfl
      · exact Or.inr ⟨i, hlt, rfl⟩
      · exact Or.inl rfl

/-! ### Operations issued -/

/-- The stores `s'` are what the operations `new` make of `s`. -/
structure Issued (s : Store) (new : List StoreOp) (s' : Store) : Prop where
  ops : s'.ops = new ++ s.ops
  flash : s'.flash = (replay new s).flash
  sram : s'.sram = (replay new s).sram

theorem Issued.nil (s : Store) : Issued s [] (flashUnlock s) where
  ops := flashUnlock_ops s
  flash := flashUnlock_flash s
  sram := flashUnlock_sram s

/-- One more operation. -/
theorem Issued.issue {s s' : Store} {new : List StoreOp} (h : Issued s new s') (op : StoreOp) :
    Issued s (op :: new) (s'.issue op) where
  ops := by rw [Store.issue_ops, h.ops]; rfl
  flash := by cases op <;> simp [replay, StoreOp.apply, h.flash]
  sram := by cases op <;> simp [replay, StoreOp.apply, h.sram]

/-- The programming loop issues its half-words. -/
theorem Issued.flashProgramLoop {s s' : Store} {new : List StoreOp} (h : Issued s new s')
    (hu : s'.locked = false) (a : UInt32) (data : Nat → UInt8) (n : Nat) :
    Issued s (programOps a data n ++ new) (Stm32F1Dfu.flashProgramLoop s' a data n) := by
  induction n with
  | zero => exact h
  | succ n ih =>
    have hopen : (Stm32F1Dfu.flashProgramLoop s' a data n).locked = false := by simp [hu]
    rw [Stm32F1Dfu.flashProgramLoop, flashProgramHalf, if_neg (by rw [hopen]; decide)]
    exact ih.issue _

/-- The erase of the check-then-erase pair, on flash that reads `m`. -/
def eraseOps (m : UInt32 → UInt8) (a : UInt32) : List StoreOp :=
  if flashPageIsErased m a then [] else [.erase a]

/-- The erases of a walk over `n` pages, newest first. -/
def walkOps (m : UInt32 → UInt8) (a : UInt32) : Nat → List StoreOp
  | 0     => []
  | i + 1 => eraseOps m (a + 1024 * UInt32.ofNat i) ++ walkOps m a i

/-- The pair issues its erase. -/
theorem Issued.eraseIfDirty {s s' : Store} {new : List StoreOp} (h : Issued s new s')
    (hu : s'.locked = false) (a : UInt32) :
    Issued s (eraseOps s'.flash a ++ new) (Stm32F1Dfu.eraseIfDirty s' a) := by
  unfold Stm32F1Dfu.eraseIfDirty eraseOps flashErasePage
  cases flashPageIsErased s'.flash a with
  | true => exact h
  | false =>
    rw [if_neg (by decide), if_pos (by decide), if_neg (by rw [hu]; decide)]
    exact h.issue (.erase a)

/-- The walk issues the erase of every page that was not blank before it: the page that it
    comes to is none of those behind it. -/
theorem Issued.erasePages_walk {s s' : Store} {new : List StoreOp} (h : Issued s new s')
    (hu : s'.locked = false) {a : UInt32} (ha : a.toNat % 1024 = 0) {n : Nat}
    (hfit : a.toNat + 1024 * n ≤ 2 ^ 32) :
    Issued s (walkOps s'.flash a n ++ new) (Stm32F1Dfu.erasePages s' a n) := by
  induction n with
  | zero => exact h
  | succ n ih =>
    have hpage := pageAddr_toNat hfit (Nat.lt_succ_self n)
    have hwindow : flashPageIsErased (Stm32F1Dfu.erasePages s' a n).flash
        (a + 1024 * UInt32.ofNat n) = flashPageIsErased s'.flash (a + 1024 * UInt32.ofNat n) := by
      rw [Bool.eq_iff_iff, flashPageIsErased_aligned (by omega),
        flashPageIsErased_aligned (by omega)]
      have hsame (b : UInt32) (hb : pageOf b = pageOf (a + 1024 * UInt32.ofNat n)) :
          (Stm32F1Dfu.erasePages s' a n).flash b = s'.flash b := by
        simp only [pageOf, hpage] at hb
        rw [erasePages_flash hu ha (by omega), if_neg (by omega)]
      exact ⟨fun hall b hb => (hsame b hb).symm.trans (hall b hb),
        fun hall b hb => (hsame b hb).trans (hall b hb)⟩
    have hnext := (ih (by omega)).eraseIfDirty (by simp [hu]) (a + 1024 * UInt32.ofNat n)
    rw [eraseOps, hwindow, ← eraseOps, ← List.append_assoc] at hnext
    exact hnext

end Stm32F1Dfu
