import Stm32F1Dfu.Image

namespace Stm32F1Dfu

open LittleEndian XorFold

/-!
# `Releas-PRG/checksum.py`

The tool that patches a firmware file, and what the bootloader makes of its result.  The
file is a list of bytes; a step that raises an exception in Python gives `none`.

* `checksumPy_eq` — on files of at least `0x24` bytes the tool writes the checksum and the
  word count, and nothing else;
* `checksumPy_agrees` — the file it writes passes both checksums of the bootloader.
-/

/-! ### The tool -/

/-- `struct.pack("<I", v)`. -/
def packU32 (v : Int) : Option (List UInt8) :=
  if 0 ≤ v ∧ v < 2 ^ 32 then
    let w := UInt32.ofNat v.toNat
    some [w.toUInt8, (w >>> 8).toUInt8, (w >>> 16).toUInt8, (w >>> 24).toUInt8]
  else none

/-- `struct.unpack("<I", b)[0]`. -/
def unpackU32 : List UInt8 → Option UInt32
  | [b0, b1, b2, b3] => some (word b0 b1 b2 b3)
  | _ => none

/-- `while len(fwbin) % 4 != 0: fwbin += b"\x00"`. -/
def padLoop : Nat → List UInt8 → Option (List UInt8)
  | fuel, fwbin =>
    if fwbin.length % 4 ≠ 0 then
      match fuel with
      | 0 => none
      | fuel + 1 => padLoop fuel (fwbin ++ [0])
    else some fwbin

/-- `xorv` after `n` rounds of `for i in range(0, fwlen, 4)`. -/
def xorRounds (fwbin : List UInt8) : Nat → Option UInt32
  | 0 => some 0xB4DC0FEE
  | n + 1 => do
      let xorv ← xorRounds fwbin n
      let w ← unpackU32 ((fwbin.drop (4 * n)).take 4)
      some (xorv ^^^ w)

/-- `fwlen`: the argument, which has to be a multiple of four, or the length of the file. -/
def checksumLen (arg : Option Int) (fwbin : List UInt8) : Option Int :=
  match arg with
  | some n => if n % 4 = 0 then some n else none -- the assertion
  | none => some fwbin.length

/-- `checksum.py`, from the file and the second argument to the file it writes. -/
def checksumPy (file : List UInt8) (arg : Option Int) : Option (List UInt8) := do
  let fwbin ← padLoop 3 file
  let fwlen ← checksumLen arg fwbin
  let sizestr ← packU32 (fwlen / 4)
  let fwbin := fwbin.take 0x1C ++ [0, 0, 0, 0] ++ sizestr ++ fwbin.drop 0x24
  let xorv ← xorRounds fwbin (fwlen / 4).toNat
  let xorv ← packU32 xorv.toNat
  some (fwbin.take 0x1C ++ xorv ++ fwbin.drop 0x20)

/-! ### Its steps -/

/-- The length of the file once it is padded. -/
def paddedLen (file : List UInt8) : Nat := 4 * ((file.length + 3) / 4)

/-- The padded file. -/
def padded (file : List UInt8) : List UInt8 :=
  file ++ List.replicate (paddedLen file - file.length) 0

theorem padded_length (file : List UInt8) : (padded file).length = paddedLen file := by
  simp only [padded, paddedLen, List.length_append, List.length_replicate]
  omega

/-- The padding loop ends within three rounds. -/
theorem padLoop_eq (file : List UInt8) : padLoop 3 file = some (padded file) := by
  have hround (fuel : Nat) : ∀ b : List UInt8, paddedLen b - b.length ≤ fuel →
      padLoop fuel b = some (padded b) := by
    induction fuel with
    | zero =>
      intro b hb
      have hzero : b.length % 4 = 0 := by
        simp only [paddedLen] at hb
        omega
      have hpad : padded b = b := by
        simp only [padded, Nat.le_zero.mp hb, List.replicate_zero, List.append_nil]
      unfold padLoop
      rw [if_neg (not_not_intro hzero), hpad]
    | succ fuel ih =>
      intro b hb
      unfold padLoop
      by_cases h4 : b.length % 4 = 0
      · have hnone : paddedLen b - b.length = 0 := by
          simp only [paddedLen]
          omega
        rw [if_neg (not_not_intro h4), padded, hnone, List.replicate_zero, List.append_nil]
      · -- one more zero, and one less to go
        have hsame : paddedLen (b ++ [0]) = paddedLen b := by
          simp only [paddedLen, List.length_append, List.length_singleton]
          omega
        have hleft : paddedLen b - b.length
            = (paddedLen (b ++ [0]) - (b ++ [(0 : UInt8)]).length) + 1 := by
          rw [hsame]
          simp only [paddedLen, List.length_append, List.length_singleton]
          omega
        rw [if_pos h4]
        simp only
        rw [ih (b ++ [0]) (by omega), padded, padded, hleft, Nat.add_comm _ 1, List.replicate_add,
          List.append_assoc]
        rfl
  refine hround 3 file ?_
  simp only [paddedLen]
  omega

/-- The four bytes of a word. -/
def wordBytes (w : UInt32) : List UInt8 :=
  [w.toUInt8, (w >>> 8).toUInt8, (w >>> 16).toUInt8, (w >>> 24).toUInt8]

theorem packU32_eq {n : Nat} (h : n < 2 ^ 32) :
    packU32 (n : Int) = some (wordBytes (UInt32.ofNat n)) := by
  have hrange : 0 ≤ (n : Int) ∧ (n : Int) < 2 ^ 32 := by omega
  simp only [packU32, if_pos hrange, Int.toNat_natCast]
  rfl

/-- Word `i` of a file. -/
def fileWord (l : List UInt8) (i : Nat) : UInt32 := memWord (fun a => l.getD a 0) 0 i

/-- Unpacking reads the word of a file, where the file has it. -/
theorem unpackU32_slice {l : List UInt8} {i : Nat} (h : 4 * i + 4 ≤ l.length) :
    unpackU32 ((l.drop (4 * i)).take 4) = some (fileWord l i) := by
  have hslice : (l.drop (4 * i)).take 4
      = [l.getD (4 * i) 0, l.getD (4 * i + 1) 0, l.getD (4 * i + 2) 0, l.getD (4 * i + 3) 0] := by
    rw [List.drop_eq_getElem_cons (by omega), List.drop_eq_getElem_cons (by omega),
      List.drop_eq_getElem_cons (by omega), List.drop_eq_getElem_cons (by omega)]
    simp only [List.take_succ_cons, List.take_zero, List.getD_eq_getElem?_getD,
      List.getElem?_eq_getElem (show 4 * i < l.length by omega),
      List.getElem?_eq_getElem (show 4 * i + 1 < l.length by omega),
      List.getElem?_eq_getElem (show 4 * i + 2 < l.length by omega),
      List.getElem?_eq_getElem (show 4 * i + 3 < l.length by omega), Option.getD_some]
  rw [hslice]
  simp only [unpackU32, fileWord, memWord, Nat.zero_add]

/-- The loop over the words folds them. -/
theorem xorRounds_eq {l : List UInt8} {n : Nat} (h : 4 * n ≤ l.length) :
    xorRounds l n = some (xorFold 0xB4DC0FEE (fileWord l) n) := by
  induction n with
  | zero => rfl
  | succ n ih =>
    rw [xorRounds, ih (by omega), xorFold_succ, unpackU32_slice (by omega)]
    rfl

/-! ### Bytes replaced -/

/-- The file with the bytes from offset `k` on replaced by `mid`. -/
def overwrite (l : List UInt8) (k : Nat) (mid : List UInt8) : List UInt8 :=
  l.take k ++ mid ++ l.drop (k + mid.length)

theorem overwrite_length {l mid : List UInt8} {k : Nat} (h : k + mid.length ≤ l.length) :
    (overwrite l k mid).length = l.length := by
  simp only [overwrite, List.length_append, List.length_take, List.length_drop]
  omega

/-- A byte of such a file. -/
theorem overwrite_getD {l mid : List UInt8} {k : Nat} (h : k + mid.length ≤ l.length) (i : Nat) :
    (overwrite l k mid).getD i 0
      = if k ≤ i ∧ i < k + mid.length then mid.getD (i - k) 0 else l.getD i 0 := by
  have htake : (l.take k).length = k := by
    rw [List.length_take]
    omega
  unfold overwrite
  by_cases hlow : i < k
  · rw [if_neg (by omega), List.append_assoc, List.getD_append _ _ _ _ (by omega)]
    simp only [List.getD_eq_getElem?_getD, List.getElem?_take_of_lt hlow]
  · by_cases hmid : i < k + mid.length
    · rw [if_pos ⟨by omega, hmid⟩, List.getD_append _ _ _ _ (by simp [htake]; omega),
        List.getD_append_right _ _ _ _ (by omega), htake]
    · rw [if_neg (by omega), List.getD_append_right _ _ _ _ (by simp [htake]; omega)]
      simp only [List.getD_eq_getElem?_getD, List.getElem?_drop, List.length_append, htake]
      congr 2
      omega

/-- Two files of one length are equal when their bytes are. -/
theorem file_ext {l l' : List UInt8} (hlen : l.length = l'.length)
    (h : ∀ i < l.length, l.getD i 0 = l'.getD i 0) : l = l' := by
  apply List.ext_getElem hlen
  intro i hi hi'
  have hbyte := h i hi
  rwa [List.getD_eq_getElem _ _ hi, List.getD_eq_getElem _ _ hi'] at hbyte

@[simp] theorem wordBytes_length (w : UInt32) : (wordBytes w).length = 4 := rfl

/-- Replacing the bytes of a word replaces the word. -/
theorem fileWord_overwrite {l : List UInt8} {j : Nat} (h : 4 * j + 4 ≤ l.length) (w : UInt32) :
    fileWord (overwrite l (4 * j) (wordBytes w)) = Function.update (fileWord l) j w := by
  have hfit : 4 * j + (wordBytes w).length ≤ l.length := by
    rw [wordBytes_length]
    exact h
  have hbyte (i : Nat) := overwrite_getD hfit i
  rw [wordBytes_length] at hbyte
  funext i
  simp only [fileWord, memWord, Nat.zero_add, hbyte]
  by_cases hij : i = j
  · subst hij
    rw [Function.update_self, if_pos (by omega), if_pos (by omega), if_pos (by omega),
      if_pos (by omega), Nat.sub_self, Nat.add_sub_cancel_left, Nat.add_sub_cancel_left,
      Nat.add_sub_cancel_left]
    exact word_bytes w
  · rw [Function.update_of_ne hij, if_neg (by omega), if_neg (by omega), if_neg (by omega),
      if_neg (by omega)]
    simp only [fileWord, memWord, Nat.zero_add]

/-! ### What the tool writes -/

/-- The length the checksum is taken over: that of the padded file, or the argument. -/
def FwLen (file : List UInt8) (arg : Option Int) (fwlen : Nat) : Prop :=
  arg = none ∧ fwlen = paddedLen file
    ∨ arg = some (fwlen : Int) ∧ fwlen % 4 = 0 ∧ 0x24 ≤ fwlen ∧ fwlen ≤ paddedLen file

/-- The file with its checksum zeroed and its size set. -/
def patched (file : List UInt8) (fwlen : Nat) : List UInt8 :=
  overwrite (padded file) 0x1C ([0, 0, 0, 0] ++ wordBytes (UInt32.ofNat (fwlen / 4)))

/-- The checksum of that file. -/
def patchedSum (file : List UInt8) (fwlen : Nat) : UInt32 :=
  xorFold 0xB4DC0FEE (fileWord (patched file fwlen)) (fwlen / 4)

/-- The file the tool writes. -/
def released (file : List UInt8) (fwlen : Nat) : List UInt8 :=
  overwrite (patched file fwlen) 0x1C (wordBytes (patchedSum file fwlen))

section Released

variable {file : List UInt8} {fwlen : Nat}

theorem patched_length (h : 0x24 ≤ file.length) :
    (patched file fwlen).length = paddedLen file := by
  have hfit : 0x24 ≤ paddedLen file := by
    simp only [paddedLen]
    omega
  rw [patched, overwrite_length, padded_length]
  rw [padded_length]
  exact hfit

theorem released_length (h : 0x24 ≤ file.length) :
    (released file fwlen).length = paddedLen file := by
  have hfit : 0x24 ≤ paddedLen file := by
    simp only [paddedLen]
    omega
  rw [released, overwrite_length, patched_length h]
  rw [patched_length h, wordBytes_length]
  omega

/-- A byte of the patched file. -/
theorem patched_getD (h : 0x24 ≤ file.length) (i : Nat) :
    (patched file fwlen).getD i 0
      = if 0x1C ≤ i ∧ i < 0x24 then
          ([0, 0, 0, 0] ++ wordBytes (UInt32.ofNat (fwlen / 4))).getD (i - 0x1C) 0
        else (padded file).getD i 0 := by
  refine overwrite_getD ?_ i
  rw [padded_length]
  simp only [paddedLen, List.length_append, wordBytes_length, List.length_cons, List.length_nil]
  omega

/-- A byte of the padded file is one of the file, or zero. -/
theorem padded_getD (file : List UInt8) (i : Nat) : (padded file).getD i 0 = file.getD i 0 := by
  unfold padded
  by_cases hi : i < file.length
  · exact List.getD_append _ _ _ _ hi
  · rw [List.getD_append_right _ _ _ _ (by omega), List.getD_eq_default file 0 (by omega)]
    rw [List.getD_eq_getElem?_getD, List.getElem?_replicate]
    split <;> rfl

/-- The bytes outside the two words are the file's, or padding. -/
theorem released_getD (h : 0x24 ≤ file.length) {i : Nat} (hi : i < 0x1C ∨ 0x24 ≤ i) :
    (released file fwlen).getD i 0 = file.getD i 0 := by
  rw [released, overwrite_getD]
  · rw [if_neg (by rw [wordBytes_length]; omega), patched_getD h, if_neg (by omega), padded_getD]
  · rw [patched_length h, wordBytes_length]
    simp only [paddedLen]
    omega

/-- The words of the file written: the checksum in word 7, the rest as patched. -/
theorem fileWord_released (h : 0x24 ≤ file.length) :
    fileWord (released file fwlen)
      = Function.update (fileWord (patched file fwlen)) 7 (patchedSum file fwlen) := by
  refine fileWord_overwrite (j := 7) ?_ _
  rw [patched_length h]
  simp only [paddedLen]
  omega

/-- The two words the tool sets, before the checksum is put in. -/
theorem fileWord_patched (h : 0x24 ≤ file.length) :
    fileWord (patched file fwlen) 7 = 0
      ∧ fileWord (patched file fwlen) 8 = UInt32.ofNat (fwlen / 4) := by
  simp only [fileWord, memWord, patched_getD h, Nat.reduceMul, Nat.reduceAdd, Nat.reduceLeDiff,
    Nat.reduceLT, and_self, if_true, Nat.reduceSub]
  refine ⟨?_, word_bytes _⟩
  show word 0 0 0 0 = 0
  decide

/-- **The checksum** over the words of the file written is zero. -/
theorem released_sum (h : 0x24 ≤ file.length) (hlen : 0x24 ≤ fwlen) :
    xorFold checksumXorStart (fileWord (released file fwlen)) (fwlen / 4) = 0 := by
  rw [fileWord_released h, xorFold_update _ _ (by omega), (fileWord_patched h).1, UInt32.zero_xor]
  exact UInt32.xor_self

/-- Running over its own result, the tool patches it to the same file. -/
theorem patched_released (h : 0x24 ≤ file.length) :
    patched (released file fwlen) fwlen = patched file fwlen := by
  have hlen : (released file fwlen).length = paddedLen file := released_length h
  have hout : 0x24 ≤ (released file fwlen).length := by
    rw [hlen]
    simp only [paddedLen]
    omega
  apply file_ext
  · rw [patched_length hout, patched_length h]
    simp only [paddedLen] at hlen ⊢
    omega
  · intro i _
    rw [patched_getD hout, patched_getD h]
    by_cases hi : 0x1C ≤ i ∧ i < 0x24
    · rw [if_pos hi, if_pos hi]
    · rw [if_neg hi, if_neg hi, padded_getD, padded_getD, released_getD h (by omega)]

end Released

/-- **What the tool writes.** -/
theorem checksumPy_eq {file : List UInt8} (h : 0x24 ≤ file.length) {arg : Option Int}
    {fwlen : Nat} (hlen : FwLen file arg fwlen) (hfit : fwlen < 2 ^ 32) :
    checksumPy file arg = some (released file fwlen) := by
  have h4 : fwlen % 4 = 0 := by
    rcases hlen with ⟨-, rfl⟩ | ⟨-, h4, -⟩
    · simp only [paddedLen]
      omega
    · exact h4
  have hle : fwlen ≤ paddedLen file := by
    rcases hlen with ⟨-, rfl⟩ | ⟨-, -, -, hle⟩
    · exact Nat.le_refl _
    · exact hle
  -- the length the script settles on
  have harg : checksumLen arg (padded file) = some (fwlen : Int) := by
    rcases hlen with ⟨rfl, hpad⟩ | ⟨rfl, -⟩
    · simp only [checksumLen, padded_length, hpad]
    · exact if_pos (by omega)
  have hdiv : (fwlen : Int) / 4 = ((fwlen / 4 : Nat) : Int) := by omega
  have hpatch : (padded file).take 0x1C ++ [0, 0, 0, 0] ++ wordBytes (UInt32.ofNat (fwlen / 4))
      ++ (padded file).drop 0x24 = patched file fwlen := by
    simp only [patched, overwrite, List.append_assoc, List.length_append, wordBytes_length,
      List.length_cons, List.length_nil, Nat.reduceAdd]
  have hcount := packU32_eq (n := fwlen / 4) (by omega)
  have hrounds : xorRounds (patched file fwlen) (fwlen / 4) = some (patchedSum file fwlen) :=
    xorRounds_eq (by rw [patched_length h]; omega)
  have hsum := packU32_eq (patchedSum file fwlen).toNat_lt
  rw [UInt32.ofNat_toNat] at hsum
  unfold checksumPy
  rw [padLoop_eq, Option.bind_eq_bind, Option.bind_some, harg, Option.bind_eq_bind,
    Option.bind_some, hdiv, hcount]
  simp only [Option.bind_eq_bind, Option.bind_some]
  rw [hpatch, Int.toNat_natCast, hrounds, Option.bind_some, hsum, Option.bind_some, released,
    overwrite, wordBytes_length]

/-! ### The bootloader on the file written -/

/-- Words of the application where the flash holds a file. -/
theorem appWord_of_file {m : UInt32 → UInt8} {l : List UInt8} {n : Nat}
    (hm : ∀ i < n, m (appAddress + UInt32.ofNat i) = l.getD i 0) {i : Nat} (hi : 4 * i + 4 ≤ n) :
    appWord m i = fileWord l i := by
  have hbase : startAddr + 4 * UInt32.ofNat i = appAddress + UInt32.ofNat (4 * i) := by
    rw [UInt32.ofNat_mul]
    rfl
  have hoff (k : Nat) : appAddress + UInt32.ofNat (4 * i) + UInt32.ofNat k
      = appAddress + UInt32.ofNat (4 * i + k) := by
    rw [UInt32.ofNat_add, UInt32.add_assoc]
  have h1 : m (appAddress + UInt32.ofNat (4 * i) + 1) = l.getD (4 * i + 1) 0 :=
    (congrArg m (hoff 1)).trans (hm _ (by omega))
  have h2 : m (appAddress + UInt32.ofNat (4 * i) + 2) = l.getD (4 * i + 2) 0 :=
    (congrArg m (hoff 2)).trans (hm _ (by omega))
  have h3 : m (appAddress + UInt32.ofNat (4 * i) + 3) = l.getD (4 * i + 3) 0 :=
    (congrArg m (hoff 3)).trans (hm _ (by omega))
  rw [appWord, wordAt, hbase, hm _ (by omega), h1, h2, h3]
  simp only [fileWord, memWord, Nat.zero_add]

/-- **The release tool and the bootloader.**  For every file of at least `0x24` bytes and
    every checksum length below 2³² that the tool takes: the file it writes passes
    `validate_checksum` at `APP_ADDRESS` with the word count stored at `0x20`, and
    `validate_checksum_stream` over its first `fwlen` bytes; its other bytes are the old
    ones and at most three zeros; and a second run writes it again. -/
theorem checksumPy_agrees {file : List UInt8} (h : 0x24 ≤ file.length) {arg : Option Int}
    {fwlen : Nat} (hlen : FwLen file arg fwlen) (hfit : fwlen < 2 ^ 32) :
    ∃ out, checksumPy file arg = some out
      ∧ (∀ m : UInt32 → UInt8, (∀ i < fwlen, m (appAddress + UInt32.ofNat i) = out.getD i 0) →
          imagesize m = UInt32.ofNat (fwlen / 4)
            ∧ validateChecksum (appWord m) (imagesize m) = true)
      ∧ (∀ (read_cb : ReadCb) (mem : Nat → UInt8) (start : UInt32) (fuel : Nat),
          Delivers read_cb mem → (∀ i < fwlen, mem (start.toNat + i) = out.getD i 0) →
          start.toNat + fwlen < 2 ^ 32 → fwlen ≤ fuel →
          validateChecksumStream fuel read_cb sramImageChunkBytes start (UInt32.ofNat fwlen)
            = some true)
      ∧ (file.length ≤ out.length ∧ out.length ≤ file.length + 3
          ∧ ∀ i, i < 0x1C ∨ 0x24 ≤ i → out.getD i 0 = file.getD i 0)
      ∧ checksumPy out arg = some out := by
  have h4 : fwlen % 4 = 0 := by
    rcases hlen with ⟨-, rfl⟩ | ⟨-, h4, -⟩
    · simp only [paddedLen]
      omega
    · exact h4
  have hge : 0x24 ≤ fwlen := by
    rcases hlen with ⟨-, rfl⟩ | ⟨-, -, hge, -⟩
    · simp only [paddedLen]
      omega
    · exact hge
  have hsum := released_sum h hge
  have hlength : (released file fwlen).length = paddedLen file := released_length h
  refine ⟨released file fwlen, checksumPy_eq h hlen hfit, fun m hm => ?_,
    fun read_cb mem start fuel hcb hmem hend hfuel => ?_, ⟨?_, ?_, fun i hi => ?_⟩, ?_⟩
  · -- at `APP_ADDRESS`
    have hsize : imagesize m = UInt32.ofNat (fwlen / 4) := by
      have hword := appWord_of_file hm (i := 8) (by omega)
      rw [fileWord_released h, Function.update_of_ne (by decide), (fileWord_patched h).2] at hword
      exact hword
    refine ⟨hsize, ?_⟩
    have hcount : (UInt32.ofNat (fwlen / 4)).toNat = fwlen / 4 := by
      rw [UInt32.toNat_ofNat']
      omega
    rw [hsize, validateChecksum, hcount, xorFold_congr fun i hi => appWord_of_file hm (by omega),
      hsum]
    rfl
  · -- in the SRAM
    have hcount : (UInt32.ofNat fwlen).toNat = fwlen := by
      rw [UInt32.toNat_ofNat']
      omega
    have hwords (i : Nat) (hi : i < fwlen / 4) :
        memWord mem start.toNat i = fileWord (released file fwlen) i := by
      simp only [memWord, fileWord, Nat.zero_add, Nat.add_assoc]
      rw [hmem _ (by omega), hmem _ (by omega), hmem _ (by omega), hmem _ (by omega)]
    rw [validateChecksumStream_eq hcb (by decide) (by decide) (by rw [hcount]; exact hfuel)
      (by rw [hcount]; exact h4) (by rw [hcount]; exact hend), hcount, xorFold_congr hwords, hsum]
    rfl
  · rw [hlength]
    simp only [paddedLen]
    omega
  · rw [hlength]
    simp only [paddedLen]
    omega
  · exact released_getD h hi
  · -- the second run
    have hpad : paddedLen (released file fwlen) = paddedLen file := by
      simp only [paddedLen] at hlength ⊢
      omega
    have hlen' : FwLen (released file fwlen) arg fwlen := by
      unfold FwLen
      rw [hpad]
      exact hlen
    rw [checksumPy_eq (by rw [hlength]; simp only [paddedLen]; omega) hlen' hfit]
    show some (overwrite (patched (released file fwlen) fwlen) 0x1C (wordBytes
      (xorFold 0xB4DC0FEE (fileWord (patched (released file fwlen) fwlen)) (fwlen / 4)))) = _
    rw [patched_released h]
    rfl

/-- A file of `0x25` bytes, which the tool pads to `0x28`. -/
theorem checksumPy_agrees_padded : ∃ out,
    checksumPy (List.replicate 0x25 1) none = some out ∧ out.length ≤ 0x25 + 3
      ∧ checksumPy out none = some out := by
  have hlen : FwLen (List.replicate 0x25 1) none 0x28 := Or.inl ⟨rfl, rfl⟩
  have hsize : 0x24 ≤ (List.replicate 0x25 (1 : UInt8)).length := by decide
  obtain ⟨out, hout, -, -, ⟨-, hmost, -⟩, hagain⟩ := checksumPy_agrees hsize hlen (by decide)
  exact ⟨out, hout, hmost, hagain⟩

end Stm32F1Dfu
