import Stm32F1Dfu.NextBoot

namespace Stm32F1Dfu

open LittleEndian XorFold

/-!
# Power cuts during an update

The update is the list of operations it issues; a cut between two of them leaves what the
older part of that list makes of the stores.  The operations come in three runs: page
erases, the twelve bytes of the header, and the half-words of the image.

* `programmed_issued` — the operations of the update, and that the stores are what they make
  of them;
* `torn_cases` — the stores after a cut: the image still valid, or its header cleared and the
  first half-words of the image programmed;
* `torn_update` — what the boots after the cut come to.
-/

/-! ### Operations issued -/

/-- A walk over pages issues erases only. -/
theorem Issued.erasePages {s s' : Store} {new : List StoreOp} (h : Issued s new s') (a : UInt32)
    (n : Nat) :
    ∃ erases, (∀ op ∈ erases, ∃ p, op = .erase p)
      ∧ Issued s (erases ++ new) (Stm32F1Dfu.erasePages s' a n) := by
  induction n with
  | zero => exact ⟨[], fun op hop => absurd hop List.not_mem_nil, h⟩
  | succ n ih =>
    obtain ⟨erases, herases, hissued⟩ := ih
    -- the pair erases the page, or leaves the stores as they are
    obtain ⟨p, heq⟩ : ∃ p, Stm32F1Dfu.eraseIfDirty (Stm32F1Dfu.erasePages s' a n) p
        = Stm32F1Dfu.erasePages s' a (n + 1) := ⟨_, rfl⟩
    rw [← heq]
    unfold Stm32F1Dfu.eraseIfDirty flashErasePage
    split
    · split
      · exact ⟨erases, herases, hissued⟩
      · refine ⟨.erase p :: erases, ?_, hissued.issue _⟩
        intro op hop
        rcases List.mem_cons.mp hop with rfl | hold
        · exact ⟨p, rfl⟩
        · exact herases op hold
    · exact ⟨erases, herases, hissued⟩

/-- A sequential write issues its bytes. -/
theorem Issued.spiSramWrite {s s' : Store} {new : List StoreOp} (h : Issued s new s') (a : UInt32)
    (bytes : List UInt8) :
    Issued s (sramOps a bytes ++ new) (Stm32F1Dfu.spiSramWrite s' a bytes) := by
  induction bytes generalizing s' new a with
  | nil => exact h
  | cons byte rest ih =>
    rw [sramOps, List.append_assoc]
    exact ih (h.issue (.sramWrite a byte)) (a + 1)

/-- The bytes of the header cleared, newest first. -/
def clearOps : List StoreOp := sramOps sramImageHeaderOffset (List.replicate 12 0)

/-- **The operations of the update**: erases, the header, and the half-words in order. -/
theorem programmed_issued (s : Store) :
    ∃ erases, (∀ op ∈ erases, ∃ p, op = .erase p)
      ∧ ∀ k, Issued s (programOps appAddress s.imageByte k ++ (clearOps ++ erases))
          (s.programmed k) := by
  obtain ⟨erases, herases, hissued⟩ :=
    (Issued.nil s).erasePages appAddress (pagesOf s.imgSize)
  rw [List.append_nil] at hissued
  refine ⟨erases, herases, fun k => ?_⟩
  exact (hissued.spiSramWrite _ _).flashProgramLoop s.prepared_locked _ _ k

/-! ### Where the power is cut -/

/-- A suffix of an appended list ends in the second part, or is a part of the first with the
    whole second. -/
theorem suffix_append_cases {α : Type} {l a b : List α} (h : l <:+ a ++ b) :
    l <:+ b ∨ ∃ c, c <:+ a ∧ c ≠ [] ∧ l = c ++ b := by
  induction a with
  | nil => exact Or.inl h
  | cons x a ih =>
    rcases List.suffix_cons_iff.mp h with heq | hrest
    · exact Or.inr ⟨x :: a, List.suffix_refl _, List.cons_ne_nil _ _, heq⟩
    · rcases ih hrest with hb | ⟨c, hc, hne, heq⟩
      · exact Or.inl hb
      · exact Or.inr ⟨c, hc.trans (List.suffix_cons x a), hne, heq⟩

/-- An older part of the half-words is what was programmed up to some half-word. -/
theorem suffix_programOps {a : UInt32} {data : Nat → UInt8} {n : Nat} {c : List StoreOp} :
    c <:+ programOps a data n ↔ ∃ k ≤ n, c = programOps a data k := by
  induction n with
  | zero => simp [programOps]
  | succ n ih =>
    rw [programOps, List.suffix_cons_iff, ih]
    constructor
    · rintro (heq | ⟨k, hk, heq⟩)
      · exact ⟨n + 1, Nat.le_refl _, heq⟩
      · exact ⟨k, Nat.le_succ_of_le hk, heq⟩
    · rintro ⟨k, hk, heq⟩
      rcases Nat.lt_or_eq_of_le hk with hlt | rfl
      · exact Or.inr ⟨k, by omega, heq⟩
      · exact Or.inl heq

/-- Whether the operation is one of the SRAM. -/
def StoreOp.isSramWrite : StoreOp → Bool
  | .sramWrite .. => true
  | _             => false

/-- Whether the operation programs a half-word. -/
def StoreOp.isProgram : StoreOp → Bool
  | .program .. => true
  | _           => false

theorem countP_programOps (a : UInt32) (data : Nat → UInt8) (k : Nat) :
    (programOps a data k).countP StoreOp.isProgram = k := by
  induction k with
  | zero => rfl
  | succ k ih => rw [programOps, List.countP_cons, ih]; rfl

/-- The power is lost in an update boot from `s`, right after the operations `done`. -/
def PowerLost (fuel : Nat) (r : BootRequest) (s : Store) (done : List StoreOp) : Prop :=
  ∃ s' new, main fuel r s = some (.reset, s') ∧ s'.ops = new ++ s.ops ∧ done <:+ new

/-- Erases leave the SRAM alone. -/
theorem replay_erases_sram {erases : List StoreOp} (h : ∀ op ∈ erases, ∃ p, op = .erase p)
    (s : Store) : (replay erases s).sram = s.sram := by
  induction erases with
  | nil => rfl
  | cons op rest ih =>
    obtain ⟨p, rfl⟩ := h op List.mem_cons_self
    exact ih fun op hop => h op (List.mem_cons_of_mem _ hop)

/-- Zeros written to the SRAM leave a first byte that is zero at zero, and the flash alone. -/
theorem replay_zeros {zeros rest : List StoreOp} (h : ∀ op ∈ zeros, ∃ a, op = .sramWrite a 0)
    (s : Store) :
    (replay (zeros ++ rest) s).flash = (replay rest s).flash
      ∧ ((replay rest s).sram 0 = 0 → (replay (zeros ++ rest) s).sram 0 = 0) := by
  induction zeros with
  | nil => exact ⟨rfl, id⟩
  | cons op zeros ih =>
    obtain ⟨a, rfl⟩ := h op List.mem_cons_self
    obtain ⟨hflash, hsram⟩ := ih fun op hop => h op (List.mem_cons_of_mem _ hop)
    refine ⟨hflash, fun h0 => ?_⟩
    show (if 0 = a.toNat % sramSize then 0 else (replay (zeros ++ rest) s).sram 0) = 0
    rw [hsram h0, ite_self]

theorem mem_clearOps {op : StoreOp} (h : op ∈ clearOps) : ∃ a, op = .sramWrite a 0 := by
  have hsram (a : UInt32) (n : Nat) (hmem : op ∈ sramOps a (List.replicate n 0)) :
      ∃ a, op = .sramWrite a 0 := by
    induction n generalizing a with
    | zero => exact absurd hmem List.not_mem_nil
    | succ n ih =>
      rcases List.mem_append.mp hmem with hlater | hfirst
      · exact ih (a + 1) hlater
      · exact ⟨a, List.mem_singleton.mp hfirst⟩
  exact hsram _ _ h

/-- The header is cleared from its first byte on. -/
theorem suffix_clearOps {c : List StoreOp} (h : c <:+ clearOps) (hne : c ≠ []) :
    ∃ zeros, c = zeros ++ [.sramWrite 0 0] ∧ ∀ op ∈ zeros, ∃ a, op = .sramWrite a 0 := by
  have hsplit : clearOps
      = sramOps (sramImageHeaderOffset + 1) (List.replicate 11 0) ++ [.sramWrite 0 0] := rfl
  rw [hsplit] at h
  rcases suffix_append_cases h with hlast | ⟨zeros, hzeros, -, heq⟩
  · rcases List.suffix_cons_iff.mp hlast with heq | hnil
    · exact ⟨[], heq, fun op hop => absurd hop List.not_mem_nil⟩
    · exact absurd (List.suffix_nil.mp hnil) hne
  · refine ⟨zeros, heq, fun op hop => ?_⟩
    exact mem_clearOps (hsplit ▸ List.mem_append_left _ (hzeros.mem hop))

/-- **The stores after a cut.**  Before the first byte of the header is cleared, the SRAM is
    as it was; from then on the header is invalid and the flash is that after the half-words
    programmed so far. -/
theorem torn_cases {s : Store} (h : ValidImage s) {r : BootRequest} {fuel : Nat}
    (hfuel : 122880 ≤ fuel) {done : List StoreOp} (hlost : PowerLost fuel r s done) :
    (done.any StoreOp.isSramWrite = false ∧ (replay done s).sram = s.sram)
      ∨ done.any StoreOp.isSramWrite = true ∧ (replay done s).sram 0 = 0
          ∧ 2 * done.countP StoreOp.isProgram ≤ s.imgSize
          ∧ (replay done s).flash = s.tornFlash (done.countP StoreOp.isProgram) := by
  obtain ⟨s', new, hmain, hops, hdone⟩ := hlost
  rw [main_of_valid h r hfuel] at hmain
  cases hmain
  obtain ⟨erases, herases, hissued⟩ := programmed_issued s
  have hnew := (hissued (s.imgSize / 2)).ops
  rw [hops, List.append_cancel_right_eq] at hnew
  rw [hnew] at hdone
  -- erases are neither header bytes nor half-words
  have hplain (ops : List StoreOp) (hops : ∀ op ∈ ops, ∃ p, op = .erase p) :
      ops.any StoreOp.isSramWrite = false ∧ ops.countP StoreOp.isProgram = 0 := by
    rw [List.any_eq_false, List.countP_eq_zero]
    refine ⟨fun op hop => ?_, fun op hop => ?_⟩ <;>
      · obtain ⟨p, rfl⟩ := hops op hop
        exact Bool.false_ne_true
  rcases suffix_append_cases hdone with hrest | ⟨c, hc, -, rfl⟩
  · rcases suffix_append_cases hrest with hold | ⟨c, hc, hne, rfl⟩
    · -- among the erases
      left
      have herase (op : StoreOp) (hop : op ∈ done) : ∃ p, op = .erase p := herases op (hold.mem hop)
      exact ⟨(hplain done herase).1, replay_erases_sram herase s⟩
    · -- among the bytes of the header
      right
      obtain ⟨zeros, rfl, hzeros⟩ := suffix_clearOps hc hne
      have hcount : (zeros ++ [StoreOp.sramWrite 0 0] ++ erases).countP StoreOp.isProgram = 0 := by
        rw [List.countP_append, List.countP_append, (hplain erases herases).2,
          List.countP_eq_zero.mpr fun op hop => ?_]
        · rfl
        · obtain ⟨a, rfl⟩ := hzeros op hop
          exact Bool.false_ne_true
      have hzero := @replay_zeros zeros ([.sramWrite 0 0] ++ erases) hzeros s
      rw [← List.append_assoc] at hzero
      refine ⟨by simp [StoreOp.isSramWrite], hzero.2 rfl, by omega, ?_⟩
      have hprepared := (hissued 0).flash
      have hclear := @replay_zeros clearOps erases (fun op hop => mem_clearOps hop) s
      rw [hcount, ← Store.programmed_tornFlash h (by omega), hprepared, hzero.1]
      exact hclear.1.symm
  · -- among the half-words
    right
    obtain ⟨k, hk, rfl⟩ := suffix_programOps.mp hc
    have hcount : (programOps appAddress s.imageByte k ++ (clearOps ++ erases)).countP
        StoreOp.isProgram = k := by
      have hclear : clearOps.countP StoreOp.isProgram = 0 := by decide
      rw [List.countP_append, List.countP_append, (hplain erases herases).2, countP_programOps,
        hclear]
      omega
    have hwritten : (clearOps ++ erases).any StoreOp.isSramWrite = true := by
      rw [List.any_append, show clearOps.any StoreOp.isSramWrite = true by decide, Bool.true_or]
    refine ⟨by rw [List.any_append, hwritten, Bool.or_true], ?_, by omega, ?_⟩
    · rw [← (hissued k).sram, Store.programmed_sram, Store.prepared_sram, if_pos (by omega)]
    · rw [hcount, ← (hissued k).flash, Store.programmed_tornFlash h (by omega)]

/-! ### The boots after a cut -/

/-- Boot number `n` after a power cut that left the stores `s`: every boot runs to its end on
    the stores the one before it left. -/
def boots (fuel : Nat) (r : BootRequest) : Nat → Store → Option (BootOutcome × Store)
  | 0, s     => main fuel r s.powerUp
  | n + 1, s => (main fuel r s.powerUp).bind fun next => boots fuel r n next.2

/-- Without a valid image every boot makes the same decision and leaves the stores alone. -/
theorem boots_of_invalid {s : Store} (h : sramHasValidImage s.powerUp = false) (r : BootRequest)
    (fuel n : Nat) :
    boots fuel r n s
      = some (if !r.dfu && bootGate s.flash then .jump else .dfu, s.powerUp) := by
  induction n generalizing s with
  | zero => exact main_of_invalid h r fuel
  | succ n ih =>
    rw [boots, main_of_invalid h r fuel]
    exact ih h

/-- The image is in the SRAM alone. -/
theorem ValidImage.congr {s s' : Store} (h : ValidImage s) (hsram : s'.sram = s.sram) :
    ValidImage s' ∧ s'.imgSize = s.imgSize ∧ s'.imageByte = s.imageByte := by
  obtain ⟨flash, sram, locked, ops⟩ := s
  obtain ⟨flash', sram', locked', ops'⟩ := s'
  subst hsram
  exact ⟨⟨h.magic, h.size_pos, h.size_words, h.offset_ge, h.size_le, h.fits, h.checksum⟩,
    rfl, rfl⟩

/-- **An update that starts over** ends with the whole image in the flash, and whatever boots
    later finds it there. -/
theorem boots_of_valid {s : Store} (h : ValidImage s) {r : BootRequest} {fuel : Nat}
    (hfuel : 122880 ≤ fuel) (n : Nat) :
    ∃ o s', boots fuel r n s = some (o, s') ∧ (n = 0 → o = .reset)
      ∧ ∀ i < s.imgSize, s'.flash (appAddress + UInt32.ofNat i) = s.imageByte i := by
  have h4 := h.size_words
  obtain ⟨hup, hsize, hbyte⟩ := h.congr (Store.powerUp_sram s)
  have hpages := hup.pages
  have hfirst := main_of_valid hup r hfuel
  have hwhole : 2 * (s.powerUp.imgSize / 2) = s.imgSize := by omega
  have himage (i : Nat) (hi : i < s.imgSize) :
      (s.powerUp.programmed (s.powerUp.imgSize / 2)).flash (appAddress + UInt32.ofNat i)
        = s.imageByte i := by
    have hoff : (appAddress + UInt32.ofNat i).toNat = appAddress.toNat + i :=
      toNat_add_ofNat (by rw [appAddress_toNat]; omega)
    have hin : s.powerUp.InPages (appAddress + UInt32.ofNat i) := by
      rw [Store.InPages, hoff]
      omega
    rw [Store.programmed_flash hup (by omega), if_pos hin, hoff, Nat.add_sub_cancel_left,
      if_pos (by omega), hbyte]
  cases n with
  | zero => exact ⟨.reset, _, hfirst, fun _ => rfl, himage⟩
  | succ n =>
    have hcleared := s.powerUp.programmed_cleared (s.powerUp.imgSize / 2)
    have hlater := boots_of_invalid hcleared r fuel n
    have hboots : boots fuel r (n + 1) s
        = boots fuel r n (s.powerUp.programmed (s.powerUp.imgSize / 2)) := by
      rw [boots, hfirst]
      rfl
    rw [← hboots] at hlater
    exact ⟨_, _, hlater, fun hn => absurd hn (Nat.succ_ne_zero n), himage⟩

/-- **Power cuts.**  Whatever operation of an update the power is lost after, the boots that
    follow without a DFU request end.  Where no byte of the header is cleared yet, the update
    starts over, and a boot that jumps finds the whole image in the flash.  From the first
    byte on, the flash stays as it is, and the boots jump exactly when it passes the tests of
    the boot decision. -/
theorem torn_update (s : Store) (hvalid : sramHasValidImage s = true) (r₀ r : BootRequest)
    (hr : r.dfu = false) (fuel : Nat) (hfuel : 122880 ≤ fuel) (done : List StoreOp)
    (hlost : PowerLost fuel r₀ s done) (n : Nat) :
    ∃ o s', boots fuel r n (replay done s) = some (o, s')
      ∧ (done.any StoreOp.isSramWrite = false → (n = 0 → o = .reset)
          ∧ ∀ i < s.imgSize, s'.flash (appAddress + UInt32.ofNat i) = s.imageByte i)
      ∧ (done.any StoreOp.isSramWrite = true →
          s'.flash = s.tornFlash (done.countP StoreOp.isProgram)
          ∧ (o = .jump ↔ TornBoots s (done.countP StoreOp.isProgram))) := by
  have h := (sramHasValidImage_iff s).mp hvalid
  rcases torn_cases h hfuel hlost with ⟨hwritten, hsram⟩ | ⟨hwritten, hsram, hk, hflash⟩
  · -- the image is still there
    obtain ⟨hcut, hsize, hbyte⟩ := h.congr hsram
    obtain ⟨o, s', hboots, hreset, himage⟩ := boots_of_valid hcut (r := r) hfuel n
    refine ⟨o, s', hboots, fun _ => ⟨hreset, fun i hi => ?_⟩, fun hsome => ?_⟩
    · rw [himage i (by omega), hbyte]
    · rw [hwritten] at hsome
      exact absurd hsome Bool.false_ne_true
  · -- the image is consumed
    have hcleared : sramHasValidImage (replay done s).powerUp = false :=
      not_validImage_of_cleared hsram
    refine ⟨_, _, boots_of_invalid hcleared r fuel n, fun hnone => ?_, fun _ => ⟨hflash, ?_⟩⟩
    · rw [hwritten] at hnone
      exact absurd hnone (by decide)
    · rw [← bootGate_tornFlash h hk, ← hflash, hr]
      cases bootGate (replay done s).flash <;> simp

/-- The update with the image of eleven words, cut before its last four half-words. -/
def lastWordsMissing : List StoreOp :=
  programOps appAddress elevenWords.imageByte 18 ++ clearOps

theorem lastWordsMissing_lost : PowerLost 122880 noRequest elevenWords lastWordsMissing := by
  have h : ValidImage elevenWords := (sramHasValidImage_iff _).mp (by decide +kernel)
  have hblank : (erasePages (flashUnlock elevenWords) appAddress 1).ops = [] := by decide +kernel
  have hsize : elevenWords.imgSize = 44 := by decide +kernel
  refine ⟨_, _, main_of_valid h noRequest (Nat.le_refl _), (List.append_nil _).symm, ?_⟩
  rw [hsize, Store.programmed, flashProgramLoop_ops (Store.prepared_locked _), Store.prepared,
    clearHeader, spiSramWrite_ops, hsize]
  show lastWordsMissing <:+ programOps appAddress elevenWords.imageByte 22
    ++ (clearOps ++ (erasePages (flashUnlock elevenWords) appAddress 1).ops)
  rw [hblank, List.append_nil]
  obtain ⟨later, hlater⟩ := suffix_programOps.mpr ⟨18, (by omega : 18 ≤ 22), rfl⟩
  exact ⟨later, by rw [← hlater, lastWordsMissing, List.append_assoc]⟩

theorem torn_update_lastWordsMissing :
    ∃ o s', boots 122880 noRequest 0 (replay lastWordsMissing elevenWords) = some (o, s')
      ∧ (lastWordsMissing.any StoreOp.isSramWrite = false → (0 = 0 → o = .reset)
          ∧ ∀ i < elevenWords.imgSize,
              s'.flash (appAddress + UInt32.ofNat i) = elevenWords.imageByte i)
      ∧ (lastWordsMissing.any StoreOp.isSramWrite = true →
          s'.flash = elevenWords.tornFlash (lastWordsMissing.countP StoreOp.isProgram)
          ∧ (o = .jump
              ↔ TornBoots elevenWords (lastWordsMissing.countP StoreOp.isProgram))) :=
  torn_update elevenWords (by decide +kernel) noRequest noRequest rfl 122880 (Nat.le_refl _)
    lastWordsMissing lastWordsMissing_lost 0

/-- A torn update that boots: the two words missing are equal, and so are the two blank
    words in their place. -/
theorem lastWordsMissing_boots :
    ∃ s', PowerLost 122880 noRequest elevenWords lastWordsMissing
      ∧ boots 122880 noRequest 0 (replay lastWordsMissing elevenWords) = some (.jump, s')
      ∧ s'.flash (appAddress + 36) = 0xFF ∧ elevenWords.imageByte 36 = 0 := by
  have h : ValidImage elevenWords := (sramHasValidImage_iff _).mp (by decide +kernel)
  have hcount : lastWordsMissing.countP StoreOp.isProgram = 18 := by decide +kernel
  rcases torn_cases h (Nat.le_refl _) lastWordsMissing_lost with
    ⟨hwritten, -⟩ | ⟨-, hsram, hk, hflash⟩
  · exact absurd hwritten (by decide +kernel)
  rw [hcount] at hk hflash
  have hgate : bootGate (replay lastWordsMissing elevenWords).flash = true := by
    rw [hflash, bootGate_tornFlash h hk]
    decide +kernel
  have hcleared : sramHasValidImage (replay lastWordsMissing elevenWords).powerUp = false :=
    not_validImage_of_cleared hsram
  have hboots := boots_of_invalid hcleared noRequest 122880 0
  rw [hgate] at hboots
  have hmissing : (replay lastWordsMissing elevenWords).powerUp.flash (appAddress + 36) = 0xFF := by
    rw [Store.powerUp_flash, hflash]
    decide +kernel
  have himage : elevenWords.imageByte 36 = 0 := by decide +kernel
  exact ⟨_, lastWordsMissing_lost, hboots, hmissing, himage⟩

end Stm32F1Dfu
