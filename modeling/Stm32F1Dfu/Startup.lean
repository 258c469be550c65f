import Stm32F1Dfu.Flash

namespace Stm32F1Dfu

open LittleEndian

/-!
# From reset to `main`: `init.c`, `reboot.h` and the linker script

`reset_handler` copies `.data` and zeroes `.bss` with two pointers; the word at `_stack`, in
which the application leaves its wishes for the next boot, lies just behind the RAM the
linker gives out.

* `copyLoop_eq`, `zeroLoop_eq` — the two loops, byte by byte;
* `resetHandler_memory` — what `reset_handler` makes of the memory, for every layout;
* `resetHandler_requests` — a request of `reboot.h` gets through it;
* `resetHandler_correct` — all of this.
-/

/-! ### The linker script -/

/-- `ORIGIN(ram)`. -/
def ramOrigin : UInt32 := 0x20000000
/-- `_stack`: `ORIGIN(ram) + LENGTH(ram)`. -/
def stackAddr : UInt32 := ramOrigin + 0x4FF8
/-- `ORIGIN(rom) + LENGTH(rom)`. -/
def romEnd : UInt32 := 0x08000000 + 0x2000

/-- The symbols of the linker script that `reset_handler` uses, as a link that succeeds sets
    them. -/
structure Layout where
  /-- `_data_loadaddr` -/
  dataLoadaddr : UInt32
  /-- `_data` -/
  data : UInt32
  /-- `_edata` -/
  edata : UInt32
  /-- `_ebss` -/
  ebss : UInt32
  /-- the `ALIGN(4)` of the sections -/
  aligned : data.toNat % 4 = 0 ∧ edata.toNat % 4 = 0 ∧ ebss.toNat % 4 = 0
  /-- the sections lie in `ram`, in order -/
  inRam : ramOrigin.toNat ≤ data.toNat ∧ data.toNat ≤ edata.toNat ∧ edata.toNat ≤ ebss.toNat
    ∧ ebss.toNat ≤ stackAddr.toNat
  /-- the initial values lie in `rom` -/
  inRom : dataLoadaddr.toNat + (edata.toNat - data.toNat) ≤ romEnd.toNat

/-! ### Words in memory -/

/-- A word stored at `a`. -/
def storeWord (m : UInt32 → UInt8) (a v : UInt32) : UInt32 → UInt8 := fun b =>
  if b = a then v.toUInt8
  else if b = a + 1 then (v >>> 8).toUInt8
  else if b = a + 2 then (v >>> 16).toUInt8
  else if b = a + 3 then (v >>> 24).toUInt8
  else m b

/-! ### `reboot.h` -/

/-- `reboot_into_bootloader`, without the reset. -/
def rebootIntoBootloader (m : UInt32 → UInt8) : UInt32 → UInt8 := storeWord m stackAddr 0xCC00FFEE
/-- `reboot_into_updater`, without the reset. -/
def rebootIntoUpdater (m : UInt32 → UInt8) : UInt32 → UInt8 := storeWord m stackAddr 0x600DF00D
/-- `clear_reboot_flags`. -/
def clearRebootFlags (m : UInt32 → UInt8) : UInt32 → UInt8 := storeWord m stackAddr 0
/-- `rebooted_into_dfu`. -/
def rebootedIntoDfu (m : UInt32 → UInt8) : Bool := wordAt m stackAddr == 0xCC00FFEE
/-- `rebooted_into_updater`. -/
def rebootedIntoUpdater (m : UInt32 → UInt8) : Bool := wordAt m stackAddr == 0x600DF00D

/-! ### `reset_handler` -/

/-- The loop that copies `.data`; it leaves `dest` where it stopped. -/
def copyLoop (edata : UInt32) :
    Nat → (UInt32 → UInt8) → UInt32 → UInt32 → Option ((UInt32 → UInt8) × UInt32)
  | fuel, m, src, dest =>
    if dest < edata then
      match fuel with
      | 0 => none
      | fuel + 1 => copyLoop edata fuel (storeWord m dest (wordAt m src)) (src + 4) (dest + 4)
    else some (m, dest)

/-- The loop that zeroes `.bss`. -/
def zeroLoop (ebss : UInt32) :
    Nat → (UInt32 → UInt8) → UInt32 → Option (UInt32 → UInt8)
  | fuel, m, dest =>
    if dest < ebss then
      match fuel with
      | 0 => none
      | fuel + 1 => zeroLoop ebss fuel (storeWord m dest 0) (dest + 4)
    else some m

/-- The Configuration and Control Register of the processor. -/
def scbCcr : UInt32 := 0xE000ED14

/-- `reset_handler`, up to the call of `main`. -/
def resetHandler (fuel : Nat) (l : Layout) (m : UInt32 → UInt8) : Option (UInt32 → UInt8) :=
  match copyLoop l.edata fuel m l.dataLoadaddr l.data with
  | none => none
  | some (m, dest) =>
      match zeroLoop l.ebss fuel m dest with
      | none => none
      | some m => some (storeWord m scbCcr (wordAt m scbCcr ||| (1 : UInt32) <<< 9))

/-! ### One word -/

@[simp] theorem stackAddr_toNat : stackAddr.toNat = 0x20004FF8 := by decide

/-- A stored word, byte by byte. -/
theorem storeWord_offset (m : UInt32 → UInt8) (a v : UInt32) {i : Nat} (hi : i < 2 ^ 32) :
    storeWord m a v (a + UInt32.ofNat i)
      = if i < 4 then
          [v.toUInt8, (v >>> 8).toUInt8, (v >>> 16).toUInt8, (v >>> 24).toUInt8].getD i 0
        else m (a + UInt32.ofNat i) := by
  have h0 : a + UInt32.ofNat i = a ↔ i = 0 := by
    simpa using add_ofNat_inj (a := a) (j := 0) hi (by omega)
  have h1 : a + UInt32.ofNat i = a + 1 ↔ i = 1 :=
    add_ofNat_inj (j := 1) hi (by omega)
  have h2 : a + UInt32.ofNat i = a + 2 ↔ i = 2 :=
    add_ofNat_inj (j := 2) hi (by omega)
  have h3 : a + UInt32.ofNat i = a + 3 ↔ i = 3 :=
    add_ofNat_inj (j := 3) hi (by omega)
  simp only [storeWord, h0, h1, h2, h3]
  match i with
  | 0 | 1 | 2 | 3 => rfl
  | i + 4 => rw [if_neg (by omega), if_neg (by omega), if_neg (by omega), if_neg (by omega),
      if_neg (by omega)]

/-- The bytes of an assembled word. -/
theorem bytes_word (b0 b1 b2 b3 : UInt8) :
    (word b0 b1 b2 b3).toUInt8 = b0 ∧ (word b0 b1 b2 b3 >>> 8).toUInt8 = b1
      ∧ (word b0 b1 b2 b3 >>> 16).toUInt8 = b2 ∧ (word b0 b1 b2 b3 >>> 24).toUInt8 = b3 :=
  word_inj.mp (word_bytes (word b0 b1 b2 b3))

/-- The word that was stored is read back. -/
@[simp] theorem wordAt_storeWord (m : UInt32 → UInt8) (a v : UInt32) :
    wordAt (storeWord m a v) a = v := by
  have hbyte (i : Nat) (hi : i < 4) := storeWord_offset m a v (i := i) (by omega)
  have h0 := hbyte 0 (by omega)
  rw [show UInt32.ofNat 0 = 0 from rfl, UInt32.add_zero] at h0
  unfold wordAt
  rw [h0, show storeWord m a v (a + 1) = _ from hbyte 1 (by omega),
    show storeWord m a v (a + 2) = _ from hbyte 2 (by omega),
    show storeWord m a v (a + 3) = _ from hbyte 3 (by omega)]
  exact word_bytes v

/-- A byte outside the word is left alone. -/
theorem storeWord_of_ne {m : UInt32 → UInt8} {a b : UInt32} (v : UInt32)
    (ha : a.toNat + 4 ≤ 2 ^ 32) (h : b.toNat < a.toNat ∨ a.toNat + 4 ≤ b.toNat) :
    storeWord m a v b = m b := by
  obtain ⟨i, hi, rfl⟩ := exists_offset a b
  rw [storeWord_offset m a v hi, if_neg]
  intro hlt
  rw [toNat_add_ofNat (by omega)] at h
  omega

/-- An address inside a word lies at one of four offsets. -/
theorem exists_offset_word {a b : UInt32} (h : a.toNat ≤ b.toNat ∧ b.toNat < a.toNat + 4) :
    ∃ i < 4, b = a + UInt32.ofNat i := by
  refine ⟨b.toNat - a.toNat, by omega, ?_⟩
  rw [← UInt32.toNat_inj, toNat_add_ofNat (by have := b.toNat_lt; omega)]
  omega

/-- Copying a word copies its bytes. -/
theorem storeWord_wordAt (m : UInt32 → UInt8) {dest src b : UInt32}
    (hb : dest.toNat ≤ b.toNat ∧ b.toNat < dest.toNat + 4) :
    storeWord m dest (wordAt m src) b = m (src + (b - dest)) := by
  obtain ⟨i, hi, rfl⟩ := exists_offset_word hb
  have hsub : dest + UInt32.ofNat i - dest = UInt32.ofNat i := by
    rw [UInt32.add_comm, UInt32.add_sub_cancel]
  obtain ⟨h0, h1, h2, h3⟩ := bytes_word (m src) (m (src + 1)) (m (src + 2)) (m (src + 3))
  rw [storeWord_offset m dest _ (by omega), if_pos hi, hsub, wordAt]
  obtain rfl | rfl | rfl | rfl : i = 0 ∨ i = 1 ∨ i = 2 ∨ i = 3 := by omega
  · rw [show src + UInt32.ofNat 0 = src from UInt32.add_zero src]
    exact h0
  · exact h1
  · exact h2
  · exact h3

/-- A word of zeros has zero bytes. -/
theorem storeWord_zero (m : UInt32 → UInt8) {dest b : UInt32}
    (hb : dest.toNat ≤ b.toNat ∧ b.toNat < dest.toNat + 4) : storeWord m dest 0 b = 0 := by
  obtain ⟨i, hi, rfl⟩ := exists_offset_word hb
  rw [storeWord_offset m dest _ (by omega), if_pos hi]
  obtain rfl | rfl | rfl | rfl : i = 0 ∨ i = 1 ∨ i = 2 ∨ i = 3 := by omega
  all_goals rfl

/-! ### The loops -/

/-- **The copy loop.**  With the source below the destination it ends, with `dest` at
    `_edata`, and the `n` words from `dest` on are those from `src` on. -/
theorem copyLoop_eq (edata : UInt32) (n fuel : Nat) (hfuel : n ≤ fuel) :
    ∀ (m : UInt32 → UInt8) (src dest : UInt32), dest.toNat + 4 * n = edata.toNat →
      src.toNat + 4 * n ≤ dest.toNat →
      ∃ m', copyLoop edata fuel m src dest = some (m', edata)
        ∧ ∀ b, m' b = if dest.toNat ≤ b.toNat ∧ b.toNat < edata.toNat then m (src + (b - dest))
            else m b := by
  have hedata := edata.toNat_lt
  induction n generalizing fuel with
  | zero =>
    intro m src dest hend hsrc
    have heq : dest = edata := UInt32.toNat_inj.mp (by omega)
    refine ⟨m, ?_, fun b => ?_⟩
    · unfold copyLoop
      rw [heq, if_neg (UInt32.lt_irrefl edata)]
    · rw [heq, if_neg (by omega)]
  | succ n ih =>
    intro m src dest hend hsrc
    obtain ⟨fuel, rfl⟩ : ∃ k, fuel = k + 1 := ⟨fuel - 1, by omega⟩
    have hlt : dest < edata := by
      rw [UInt32.lt_iff_toNat_lt]
      omega
    have hnext (a : UInt32) (ha : a.toNat + 4 < 2 ^ 32) : (a + 4).toNat = a.toNat + 4 :=
      toNat_add_ofNat (i := 4) ha
    have hdest := hnext dest (by omega)
    have hsrc' := hnext src (by omega)
    obtain ⟨m', hrun, hm'⟩ := ih fuel (by omega) (storeWord m dest (wordAt m src)) (src + 4)
      (dest + 4) (by omega) (by omega)
    refine ⟨m', ?_, fun b => ?_⟩
    · unfold copyLoop
      rw [if_pos hlt]
      exact hrun
    · rw [hm' b, hdest]
      by_cases hlater : dest.toNat + 4 ≤ b.toNat ∧ b.toNat < edata.toNat
      · -- a later word: its source is not overwritten yet
        have hoff : src + 4 + (b - (dest + 4)) = src + (b - dest) := by
          rw [← UInt32.toNat_inj]
          simp only [UInt32.toNat_add, UInt32.toNat_sub, UInt32.reduceToNat]
          omega
        have hbelow : (src + (b - dest)).toNat < dest.toNat := by
          have hsub : (b - dest).toNat = b.toNat - dest.toNat :=
            UInt32.toNat_sub_of_le _ _ (UInt32.le_iff_toNat_le.mpr (by omega))
          rw [UInt32.toNat_add, hsub]
          omega
        rw [if_pos hlater, if_pos (by omega), hoff, storeWord_of_ne _ (by omega) (by omega)]
      · rw [if_neg hlater]
        by_cases hfirst : dest.toNat ≤ b.toNat ∧ b.toNat < dest.toNat + 4
        · rw [if_pos (by omega), storeWord_wordAt m hfirst]
        · rw [if_neg (by omega), storeWord_of_ne _ (by omega) (by omega)]

/-- **The zero loop.**  It ends, and the `n` words from `dest` on are zero. -/
theorem zeroLoop_eq (ebss : UInt32) (n fuel : Nat) (hfuel : n ≤ fuel) :
    ∀ (m : UInt32 → UInt8) (dest : UInt32), dest.toNat + 4 * n = ebss.toNat →
      ∃ m', zeroLoop ebss fuel m dest = some m'
        ∧ ∀ b, m' b = if dest.toNat ≤ b.toNat ∧ b.toNat < ebss.toNat then 0 else m b := by
  have hebss := ebss.toNat_lt
  induction n generalizing fuel with
  | zero =>
    intro m dest hend
    have heq : dest = ebss := UInt32.toNat_inj.mp (by omega)
    refine ⟨m, ?_, fun b => ?_⟩
    · unfold zeroLoop
      rw [heq, if_neg (UInt32.lt_irrefl ebss)]
    · rw [heq, if_neg (by omega)]
  | succ n ih =>
    intro m dest hend
    obtain ⟨fuel, rfl⟩ : ∃ k, fuel = k + 1 := ⟨fuel - 1, by omega⟩
    have hlt : dest < ebss := by
      rw [UInt32.lt_iff_toNat_lt]
      omega
    have hdest : (dest + 4).toNat = dest.toNat + 4 := toNat_add_ofNat (i := 4) (by omega)
    obtain ⟨m', hrun, hm'⟩ := ih fuel (by omega) (storeWord m dest 0) (dest + 4) (by omega)
    refine ⟨m', ?_, fun b => ?_⟩
    · unfold zeroLoop
      rw [if_pos hlt]
      exact hrun
    · rw [hm' b, hdest]
      by_cases hlater : dest.toNat + 4 ≤ b.toNat ∧ b.toNat < ebss.toNat
      · rw [if_pos hlater, if_pos (by omega)]
      · rw [if_neg hlater]
        by_cases hfirst : dest.toNat ≤ b.toNat ∧ b.toNat < dest.toNat + 4
        · rw [if_pos (by omega), storeWord_zero m hfirst]
        · rw [if_neg (by omega), storeWord_of_ne _ (by omega) (by omega)]

/-! ### The memory that `main` finds -/

/-- What `reset_handler` leaves: the two sections set, and every other byte as it was but for
    the register it sets a bit of. -/
theorem resetHandler_memory (l : Layout) (m : UInt32 → UInt8) {fuel : Nat} (hfuel : 5118 ≤ fuel) :
    ∃ m', resetHandler fuel l m = some m'
      ∧ (∀ b, l.data.toNat ≤ b.toNat → b.toNat < l.edata.toNat →
          m' b = m (l.dataLoadaddr + (b - l.data)))
      ∧ (∀ b, l.edata.toNat ≤ b.toNat → b.toNat < l.ebss.toNat → m' b = 0)
      ∧ ∀ b, b.toNat < l.data.toNat ∨ l.ebss.toNat ≤ b.toNat ∧ b.toNat < scbCcr.toNat
            ∨ scbCcr.toNat + 4 ≤ b.toNat → m' b = m b := by
  obtain ⟨hdata, hedata, hebss⟩ := l.aligned
  obtain ⟨horigin, hordered, hordered', hend⟩ := l.inRam
  have hrom := l.inRom
  have horigin0 : ramOrigin.toNat = 0x20000000 := by decide
  have hrom0 : romEnd.toNat = 0x08002000 := by decide
  have hccr : scbCcr.toNat = 0xE000ED14 := by decide
  rw [stackAddr_toNat] at hend
  rw [horigin0] at horigin
  rw [hrom0] at hrom
  obtain ⟨m₁, hcopy, hm₁⟩ :=
    copyLoop_eq l.edata ((l.edata.toNat - l.data.toNat) / 4) fuel (by omega) m
    l.dataLoadaddr l.data (by omega) (by omega)
  obtain ⟨m₂, hzero, hm₂⟩ :=
    zeroLoop_eq l.ebss ((l.ebss.toNat - l.edata.toNat) / 4) fuel (by omega) m₁
    l.edata (by omega)
  have hreg (b : UInt32) (hb : b.toNat < scbCcr.toNat ∨ scbCcr.toNat + 4 ≤ b.toNat) :
      storeWord m₂ scbCcr (wordAt m₂ scbCcr ||| (1 : UInt32) <<< 9) b = m₂ b :=
    storeWord_of_ne _ (by omega) hb
  refine ⟨storeWord m₂ scbCcr (wordAt m₂ scbCcr ||| (1 : UInt32) <<< 9), ?_, fun b hge hlt => ?_,
    fun b hge hlt => ?_, fun b hb => ?_⟩
  · simp only [resetHandler, hcopy, hzero]
  · rw [hreg b (by omega), hm₂ b, if_neg (by omega), hm₁ b, if_pos ⟨hge, hlt⟩]
  · rw [hreg b (by omega), hm₂ b, if_pos ⟨hge, hlt⟩]
  · rw [hreg b (by omega), hm₂ b, if_neg (by omega), hm₁ b, if_neg (by omega)]

/-- `main` finds at `_stack` what was there before the reset. -/
theorem resetHandler_rebootWord (l : Layout) (m : UInt32 → UInt8) {fuel : Nat}
    (hfuel : 5118 ≤ fuel) :
    ∃ m', resetHandler fuel l m = some m' ∧ wordAt m' stackAddr = wordAt m stackAddr := by
  obtain ⟨m', hrun, -, -, hkeep⟩ := resetHandler_memory l m hfuel
  refine ⟨m', hrun, wordAt_congr fun j hj => hkeep _ (Or.inr (Or.inl ?_))⟩
  have hend := l.inRam.2.2.2
  have hccr : scbCcr.toNat = 0xE000ED14 := by decide
  rw [stackAddr_toNat] at hend
  rw [toNat_add_ofNat (by rw [stackAddr_toNat]; omega), stackAddr_toNat]
  omega

/-- A word left at `_stack` before the reset is the one that `main` tests. -/
theorem resetHandler_request (l : Layout) (m : UInt32 → UInt8) {fuel : Nat}
    (hfuel : 5118 ≤ fuel) (v : UInt32) :
    ∃ m', resetHandler fuel l (storeWord m stackAddr v) = some m'
      ∧ rebootedIntoDfu m' = (v == 0xCC00FFEE) ∧ rebootedIntoUpdater m' = (v == 0x600DF00D) := by
  obtain ⟨m', hrun, hword⟩ := resetHandler_rebootWord l (storeWord m stackAddr v) hfuel
  rw [wordAt_storeWord] at hword
  refine ⟨m', hrun, ?_, ?_⟩
  · rw [rebootedIntoDfu, hword]
  · rw [rebootedIntoUpdater, hword]

/-- **The requests of `reboot.h`** are told apart after the reset: each is seen as itself, and
    none after `clear_reboot_flags`. -/
theorem resetHandler_requests (l : Layout) (m : UInt32 → UInt8) {fuel : Nat}
    (hfuel : 5118 ≤ fuel) :
    (∃ m', resetHandler fuel l (rebootIntoBootloader m) = some m'
        ∧ rebootedIntoDfu m' = true ∧ rebootedIntoUpdater m' = false)
      ∧ (∃ m', resetHandler fuel l (rebootIntoUpdater m) = some m'
        ∧ rebootedIntoDfu m' = false ∧ rebootedIntoUpdater m' = true)
      ∧ ∃ m', resetHandler fuel l (clearRebootFlags m) = some m'
        ∧ rebootedIntoDfu m' = false ∧ rebootedIntoUpdater m' = false :=
  ⟨resetHandler_request l m hfuel _, resetHandler_request l m hfuel _,
    resetHandler_request l m hfuel _⟩

/-- **`reset_handler`.**  For every layout and every memory it ends; then `.data` holds its
    initial values, `.bss` is zero, no other byte of the memory has changed but for the
    register it sets a bit of, and the tests of `reboot.h` say what they said before: each of
    its requests is seen after the reset as itself, and none after `clear_reboot_flags`. -/
theorem resetHandler_correct (l : Layout) (m : UInt32 → UInt8) (fuel : Nat) (hfuel : 5118 ≤ fuel) :
    (∃ m', resetHandler fuel l m = some m'
      ∧ (∀ b, l.data.toNat ≤ b.toNat → b.toNat < l.edata.toNat →
          m' b = m (l.dataLoadaddr + (b - l.data)))
      ∧ (∀ b, l.edata.toNat ≤ b.toNat → b.toNat < l.ebss.toNat → m' b = 0)
      ∧ (∀ b, b.toNat < l.data.toNat ∨ l.ebss.toNat ≤ b.toNat ∧ b.toNat < scbCcr.toNat
            ∨ scbCcr.toNat + 4 ≤ b.toNat → m' b = m b)
      ∧ rebootedIntoDfu m' = rebootedIntoDfu m
      ∧ rebootedIntoUpdater m' = rebootedIntoUpdater m)
    ∧ (∃ m', resetHandler fuel l (rebootIntoBootloader m) = some m'
        ∧ rebootedIntoDfu m' = true ∧ rebootedIntoUpdater m' = false)
    ∧ (∃ m', resetHandler fuel l (rebootIntoUpdater m) = some m'
        ∧ rebootedIntoDfu m' = false ∧ rebootedIntoUpdater m' = true)
    ∧ ∃ m', resetHandler fuel l (clearRebootFlags m) = some m'
        ∧ rebootedIntoDfu m' = false ∧ rebootedIntoUpdater m' = false := by
  refine ⟨?_, resetHandler_requests l m hfuel⟩
  obtain ⟨m', hrun, hdata, hbss, hkeep⟩ := resetHandler_memory l m hfuel
  obtain ⟨m'', hrun', hword⟩ := resetHandler_rebootWord l m hfuel
  have hsame : m'' = m' := Option.some.inj (hrun'.symm.trans hrun)
  rw [hsame] at hword
  refine ⟨m', hrun, hdata, hbss, hkeep, ?_, ?_⟩
  · rw [rebootedIntoDfu, rebootedIntoDfu, hword]
  · rw [rebootedIntoUpdater, rebootedIntoUpdater, hword]

/-- A program with 16 bytes of `.data` and a little over 4 KB of `.bss`. -/
def smallLayout : Layout where
  dataLoadaddr := 0x08001F00
  data := 0x20000000
  edata := 0x20000010
  ebss := 0x20001200
  aligned := by decide
  inRam := by decide
  inRom := by decide

theorem resetHandler_correct_smallLayout :
    (∃ m', resetHandler 5118 smallLayout (fun b => b.toUInt8) = some m'
      ∧ (∀ b, smallLayout.data.toNat ≤ b.toNat → b.toNat < smallLayout.edata.toNat →
          m' b = (fun b => b.toUInt8) (smallLayout.dataLoadaddr + (b - smallLayout.data)))
      ∧ (∀ b, smallLayout.edata.toNat ≤ b.toNat → b.toNat < smallLayout.ebss.toNat → m' b = 0)
      ∧ (∀ b, b.toNat < smallLayout.data.toNat
            ∨ smallLayout.ebss.toNat ≤ b.toNat ∧ b.toNat < scbCcr.toNat
            ∨ scbCcr.toNat + 4 ≤ b.toNat → m' b = b.toUInt8)
      ∧ rebootedIntoDfu m' = rebootedIntoDfu (fun b => b.toUInt8)
      ∧ rebootedIntoUpdater m' = rebootedIntoUpdater (fun b => b.toUInt8))
    ∧ (∃ m', resetHandler 5118 smallLayout (rebootIntoBootloader fun b => b.toUInt8) = some m'
        ∧ rebootedIntoDfu m' = true ∧ rebootedIntoUpdater m' = false)
    ∧ (∃ m', resetHandler 5118 smallLayout (rebootIntoUpdater fun b => b.toUInt8) = some m'
        ∧ rebootedIntoDfu m' = false ∧ rebootedIntoUpdater m' = true)
    ∧ ∃ m', resetHandler 5118 smallLayout (clearRebootFlags fun b => b.toUInt8) = some m'
        ∧ rebootedIntoDfu m' = false ∧ rebootedIntoUpdater m' = false :=
  resetHandler_correct smallLayout (fun b => b.toUInt8) 5118 (Nat.le_refl 5118)

end Stm32F1Dfu
