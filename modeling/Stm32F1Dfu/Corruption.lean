import Stm32F1Dfu.NextBoot

namespace Stm32F1Dfu

open LittleEndian XorFold

/-!
# A corrupted application

The boot decision on a flash in which one word of the checksummed application differs.

* `appWord_replaceWord` — the words of the flash with one of them replaced;
* `bootGate_iff` — the boot decision as three conditions on the words;
* `corrupted_boots_iff` — a replaced word is noticed, unless it is the size word: there the
  words between the two counts decide.
-/

/-- Byte `j` of a word. -/
def wordByte (v : UInt32) : Nat → UInt8
  | 0 => v.toUInt8
  | 1 => (v >>> 8).toUInt8
  | 2 => (v >>> 16).toUInt8
  | _ => (v >>> 24).toUInt8

/-- The flash with word `i` of the application replaced by `v`. -/
def replaceWord (m : UInt32 → UInt8) (i : Nat) (v : UInt32) : UInt32 → UInt8 := fun b =>
  if appAddress.toNat ≤ b.toNat ∧ (b.toNat - appAddress.toNat) / 4 = i
  then wordByte v ((b.toNat - appAddress.toNat) % 4) else m b

/-- Byte `j` of word `k` is one of the replaced bytes exactly when `k` is the word. -/
theorem replaceWord_byte (m : UInt32 → UInt8) (i : Nat) (v : UInt32) {k j : Nat}
    (hk : k < 30720) (hj : j < 4) :
    replaceWord m i v (startAddr + 4 * UInt32.ofNat k + UInt32.ofNat j)
      = if k = i then wordByte v j else m (startAddr + 4 * UInt32.ofNat k + UInt32.ofNat j) := by
  have haddr := appWord_address hk j hj
  have hword : (4 * k + j) / 4 = k := by omega
  have hbyte : (4 * k + j) % 4 = j := by omega
  unfold replaceWord
  rw [haddr, Nat.add_sub_cancel_left, hword, hbyte]
  simp only [Nat.le_add_right, true_and]

/-- The words of the flash, one of them replaced. -/
theorem appWord_replaceWord (m : UInt32 → UInt8) (i : Nat) (v : UInt32) {k : Nat}
    (hk : k < 30720) : appWord (replaceWord m i v) k = Function.update (appWord m) i v k := by
  by_cases hki : k = i
  · subst hki
    have hbyte (j : Nat) (hj : j < 4) :
        replaceWord m k v (startAddr + 4 * UInt32.ofNat k + UInt32.ofNat j) = wordByte v j := by
      rw [replaceWord_byte m k v hk hj, if_pos rfl]
    rw [Function.update_self, appWord_of_bytes _ hbyte]
    exact word_bytes v
  · rw [Function.update_of_ne hki]
    apply wordAt_congr
    intro j hj
    rw [replaceWord_byte m i v hk hj, if_neg hki]

/-- **The boot decision** on the words of the application. -/
theorem bootGate_iff (m : UInt32 → UInt8) :
    bootGate m = true ↔ (appWord m 8).toNat ≤ 30720
      ∧ appWord m 0 &&& 0x2FFE0000 = 0x20000000
      ∧ xorFold checksumXorStart (appWord m) (appWord m 8).toNat = 0 := by
  have hsize : imagesize m = appWord m 8 := rfl
  have hfirst : wordAt m appAddress = appWord m 0 := rfl
  have hmax : (flashBootldrPayloadSizeKb * 1024 / 4).toNat = 30720 := by decide
  unfold bootGate validateChecksum
  rw [hsize, hfirst]
  simp only [Bool.and_eq_true, Bool.not_eq_true', decide_eq_false_iff_not, gt_iff_lt,
    UInt32.lt_iff_toNat_lt, hmax, beq_iff_eq, not_lt, and_assoc]

/-! ### One word replaced -/

/-- With another size word `v` in place of the count `n`, the decision still passes: `v` is
    within its bound, and the words between the two counts make up for the difference (which
    only counts where the size word is among the words counted). -/
def ResizedBoots (m : UInt32 → UInt8) (v : UInt32) : Prop :=
  v.toNat ≤ 30720
    ∧ xorBetween (appWord m) (min v.toNat (imagesize m).toNat) (max v.toNat (imagesize m).toNat)
      = if 8 < v.toNat then imagesize m ^^^ v else 0

/-- A word other than the size word: the fold comes out as the difference. -/
theorem xorFold_replaced {m : UInt32 → UInt8} (hgate : bootGate m = true) {i : Nat}
    (hi : i < (imagesize m).toNat) (v : UInt32) :
    xorFold checksumXorStart (appWord (replaceWord m i v)) (imagesize m).toNat
      = appWord m i ^^^ v := by
  obtain ⟨hle, -, hsum⟩ := (bootGate_iff m).mp hgate
  have hle : (imagesize m).toNat ≤ 30720 := hle
  have hsum : xorFold checksumXorStart (appWord m) (imagesize m).toNat = 0 := hsum
  rw [xorFold_congr fun k hk => appWord_replaceWord m i v (by omega), xorFold_update _ _ hi, hsum,
    UInt32.zero_xor]

/-- The size word: the fold over the new count. -/
theorem xorFold_resized {m : UInt32 → UInt8} (hgate : bootGate m = true) {v : UInt32}
    (hv : v.toNat ≤ 30720) :
    xorFold checksumXorStart (appWord (replaceWord m 8 v)) v.toNat
      = xorBetween (appWord m) (min v.toNat (imagesize m).toNat) (max v.toNat (imagesize m).toNat)
        ^^^ if 8 < v.toNat then imagesize m ^^^ v else 0 := by
  obtain ⟨-, -, hsum⟩ := (bootGate_iff m).mp hgate
  rw [xorFold_congr fun k hk => appWord_replaceWord m 8 v (by omega)]
  split
  · -- the size word is one of the words that are counted
    rename_i h8
    rw [xorFold_update _ _ h8, xorFold_of_zero hsum]
    rfl
  · -- the size word itself is not counted any more
    rename_i h8
    have hbelow : xorFold checksumXorStart (Function.update (appWord m) 8 v) v.toNat
        = xorFold checksumXorStart (appWord m) v.toNat :=
      xorFold_congr fun k hk => Function.update_of_ne (by omega) _ _
    rw [hbelow, xorFold_of_zero hsum, UInt32.xor_zero]
    rfl

/-- **A corrupted application.**  Where the boot decision passes, replacing one of the words
    it counts by another value makes it refuse, if the word is not the size word; if it is,
    the decision passes exactly when `ResizedBoots` says so. -/
theorem corrupted_boots_iff (m : UInt32 → UInt8) (hgate : bootGate m = true) (i : Nat)
    (hi : i < (imagesize m).toNat) (v : UInt32) (hv : v ≠ appWord m i) :
    bootGate (replaceWord m i v) = true ↔ i = 8 ∧ ResizedBoots m v := by
  obtain ⟨hle, hstack, -⟩ := (bootGate_iff m).mp hgate
  have hle : (imagesize m).toNat ≤ 30720 := hle
  have hword (k : Nat) (hk : k < 30720) :
      appWord (replaceWord m i v) k = Function.update (appWord m) i v k :=
    appWord_replaceWord m i v hk
  rw [bootGate_iff, hword 8 (by omega), hword 0 (by omega)]
  by_cases h8 : i = 8
  · -- another count, and with it another fold
    subst h8
    rw [Function.update_self, Function.update_of_ne (by omega)]
    constructor
    · rintro ⟨hsize, -, hsum⟩
      rw [xorFold_resized hgate hsize, UInt32.xor_eq_zero_iff] at hsum
      exact ⟨rfl, hsize, hsum⟩
    · rintro ⟨-, hsize, hbetween⟩
      refine ⟨hsize, hstack, ?_⟩
      rw [xorFold_resized hgate hsize, UInt32.xor_eq_zero_iff]
      exact hbetween
  · -- the count stays, and so does a difference in the fold
    rw [Function.update_of_ne (Ne.symm h8)]
    refine iff_of_false ?_ fun h => h8 h.1
    rintro ⟨-, -, hsum⟩
    have hdiff := xorFold_replaced hgate hi v
    rw [show (imagesize m).toNat = (appWord m 8).toNat from rfl, hsum] at hdiff
    exact hv (UInt32.xor_eq_zero_iff.mp hdiff.symm).symm

/-- **A corrupted application is not jumped to.**  A boot from a flash whose application was
    accepted before one of its words was replaced jumps only where the word is the size word
    and `ResizedBoots` holds. -/
theorem main_corrupted (m : UInt32 → UInt8) (hgate : bootGate m = true) (i : Nat)
    (hi : i < (imagesize m).toNat) (v : UInt32) (hv : v ≠ appWord m i) :
    (bootGate (replaceWord m i v) = true ↔ i = 8 ∧ ResizedBoots m v)
      ∧ ∀ (s s' : Store) (fuel : Nat) (r : BootRequest), s.flash = replaceWord m i v →
          main fuel r s = some (.jump, s') → i = 8 ∧ ResizedBoots m v := by
  refine ⟨corrupted_boots_iff m hgate i hi v hv, ?_⟩
  intro s s' fuel r hflash hmain
  rw [← corrupted_boots_iff m hgate i hi v hv, ← hflash]
  by_cases himage : sramHasValidImage s = true
  · -- an update ends in a reset
    unfold main at hmain
    rw [if_pos himage, readHeader_eq] at hmain
    simp only [Option.map_eq_some_iff, Prod.mk.injEq] at hmain
    obtain ⟨-, -, hreset, -⟩ := hmain
    exact absurd hreset (by decide)
  · -- without an image the boot decision is made on the flash
    rw [main_of_invalid (by simpa using himage)] at hmain
    cases hboots : bootGate s.flash with
    | true => rfl
    | false => simp [hboots] at hmain

/-- An application of twelve words: a stack pointer, the size word, and words that make up
    for both. -/
def twelveWords : UInt32 → UInt8 := fun b =>
  ([0, 0, 0, 0x20] ++ List.replicate 28 0 ++ [12, 0, 0, 0] ++ [0xE4, 0x0F, 0xDC, 0x94]
    ++ [6, 0, 0, 0] ++ [0, 0, 0, 0] : List UInt8).getD (b.toNat - appAddress.toNat) 0xFF

/-- Its size word replaced by 7: refused. -/
theorem main_corrupted_twelveWords :
    (bootGate (replaceWord twelveWords 8 7) = true ↔ 8 = 8 ∧ ResizedBoots twelveWords 7)
      ∧ ∀ (s s' : Store) (fuel : Nat) (r : BootRequest),
          s.flash = replaceWord twelveWords 8 7 →
          main fuel r s = some (.jump, s') → 8 = 8 ∧ ResizedBoots twelveWords 7 :=
  main_corrupted twelveWords (by decide +kernel) 8 (by decide +kernel) 7 (by decide +kernel)

/-- Its size word replaced by 10: the words 10 and 11 fold to the difference of the two
    counts, and the boot decision still passes. -/
theorem twelveWords_resized :
    bootGate twelveWords = true ∧ 8 < (imagesize twelveWords).toNat
      ∧ (10 : UInt32) ≠ appWord twelveWords 8
      ∧ bootGate (replaceWord twelveWords 8 10) = true := by
  decide +kernel

end Stm32F1Dfu
