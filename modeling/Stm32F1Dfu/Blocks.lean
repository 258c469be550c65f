import Stm32F1Dfu.Execution
import Stm32F1Dfu.Transfers

namespace Stm32F1Dfu

/-!
# What carrying out a download does to every byte

The byte-level effect of blocks and erases, and how a block acts on an earlier one.

* `execBlock_flash_frame` — outside its half-words a block does what its erase does;
* `execBlock_page` — on a page address a block leaves its page with its bytes and `0xFF`
  behind them;
* `laterBlock_changes_iff` — an earlier block loses exactly its bytes in the page the later
  one erases.
-/

/-! ### Blocks -/

/-- **Frame of a block.**  A byte that is in none of its half-words sees the wipe and the
    erase only. -/
theorem execBlock_flash_frame {d : Dfu}
    (hr : inRange d.prog.baseaddr d.prog.len.toUInt32 = true) {x : UInt32}
    (hx : ∀ i < 2 * (d.prog.len.toNat / 2), x ≠ d.prog.baseaddr + UInt32.ofNat i) :
    (execBlock d).store.flash x
      = (eraseIfDirty (ifdefSafeWrite d).store d.prog.baseaddr).flash x := by
  rw [execBlock_store, if_pos hr]
  exact flashProgramLoop_frame _ _ _ hx

/-- **A block on a page address.**  Its page holds its half-words and `0xFF` behind them,
    whatever the page held before; the other pages see the wipe only. -/
theorem execBlock_page {d : Dfu} (hu : d.store.locked = false)
    (hr : inRange d.prog.baseaddr d.prog.len.toUInt32 = true)
    (ha : d.prog.baseaddr.toNat % 1024 = 0) (hlen : d.prog.len.toNat ≤ 1024) (x : UInt32) :
    (execBlock d).store.flash x
      = if pageOf x = pageOf d.prog.baseaddr then
          if x.toNat - d.prog.baseaddr.toNat < 2 * (d.prog.len.toNat / 2) then
            d.prog.buf (x.toNat - d.prog.baseaddr.toNat)
          else 0xFF
        else (ifdefSafeWrite d).store.flash x := by
  have hu' : (ifdefSafeWrite d).store.locked = false := by simp [hu]
  have herase := eraseIfDirty_aligned hu' ha
  have hpage : pageOf x = pageOf d.prog.baseaddr
      ↔ d.prog.baseaddr.toNat ≤ x.toNat ∧ x.toNat < d.prog.baseaddr.toNat + 1024 := by
    simp only [pageOf]
    omega
  have hfit : d.prog.baseaddr.toNat + 1024 ≤ 2 ^ 32 := by
    have := d.prog.baseaddr.toNat_lt
    omega
  by_cases hin : pageOf x = pageOf d.prog.baseaddr
  · rw [if_pos hin]
    obtain ⟨hge, hlt⟩ := hpage.mp hin
    -- the byte by its offset in the page
    obtain ⟨i, hi, hxi⟩ : ∃ i < 1024, x = d.prog.baseaddr + UInt32.ofNat i := by
      refine ⟨x.toNat - d.prog.baseaddr.toNat, by omega, ?_⟩
      rw [← UInt32.toNat_inj, toNat_add_ofNat (by omega)]
      omega
    have hoff : x.toNat - d.prog.baseaddr.toNat = i := by
      rw [hxi, toNat_add_ofNat (by omega)]
      omega
    rw [hoff]
    by_cases hprog : i < 2 * (d.prog.len.toNat / 2)
    · rw [if_pos hprog, execBlock_store, if_pos hr, hxi]
      refine flashProgramLoop_stored (by simp [hu]) _ _ (by omega) ?_ hprog
      intro j hj
      rw [herase, if_pos]
      simp only [pageOf, toNat_add_ofNat (show d.prog.baseaddr.toNat + j < 2 ^ 32 by omega)]
      omega
    · rw [if_neg hprog, execBlock_flash_frame hr, herase, if_pos hin]
      intro j hj
      rw [hxi, Ne, add_ofNat_inj (by omega) (by omega)]
      omega
  · rw [if_neg hin, execBlock_flash_frame hr, herase, if_neg hin]
    intro j hj hxj
    refine hin (hpage.mpr ?_)
    rw [hxj, toNat_add_ofNat (by omega)]
    omega

/-! ### The wipe in runs -/

/-- A block of `len` bytes at `base` was carried out. -/
def executedBlock (log : List DfuEvent) (base : UInt32) (len : UInt16) : Bool :=
  log.any fun
    | .exec p => p.blocknum != 0 && (p.baseaddr == base && p.len == len)
    | _ => false

/-- The wipe has happened, if there is one, before anything is on record as written. -/
def WipedFirst (d : Dfu) : Prop := (∃ p, .exec p ∈ d.log ∧ p.Writes) → d.wipes = false

theorem RequestEffect.wipedFirst {d d' : Dfu} (he : RequestEffect d d') (h : WipedFirst d) :
    WipedFirst d' := by
  have hframe := he.frame
  rintro ⟨p, hp, hw⟩
  have hold : .exec p ∈ d.log := by
    cases he with
    | pass => exact hp
    | download q haddr hlen => simpa using hp
    | status bStatus s hs => simpa using hp
    | getstate => simpa using hp
    | other r s hs => simpa using hp
  have := h ⟨p, hold, hw⟩
  simpa [Dfu.wipes, hframe] using this

theorem usbdfuGetstatusComplete_wipedFirst {d : Dfu} (h : WipedFirst d) :
    WipedFirst (usbdfuGetstatusComplete d) := by
  by_cases hs : d.state = .dnbusy
  · rw [usbdfuGetstatusComplete_dnbusy hs]
    rintro ⟨p, hp, hw⟩
    show (d.safeWrite && !(execProg { d with store := flashUnlock d.store }).erased) = false
    rw [execProg_erased]
    by_cases hwrites : d.prog.Writes
    · rw [if_pos hwrites]
      cases d.safeWrite <;> simp
    · rw [if_neg hwrites]
      -- the entry that was there before: this execution wrote nothing
      rcases List.mem_cons.mp hp with hnew | hold
      · obtain rfl : p = d.prog := by simpa using hnew
        exact absurd hw hwrites
      · exact h ⟨p, hold, hw⟩
  · rw [usbdfuGetstatusComplete_other hs]
    split <;> exact h

theorem run_wipedFirst (b : Board) (evs : List BusEvent) :
    WipedFirst ((Dev.init b).run evs).dfu :=
  run_dfu_invariant (fun _ _ he => he.wipedFirst) (fun _ => usbdfuGetstatusComplete_wipedFirst)
    (fun ⟨_, hp, _⟩ => absurd hp List.not_mem_nil) evs

/-- A block on record as carried out rules out a wipe. -/
theorem WipedFirst.of_executedBlock {d : Dfu} (h : WipedFirst d) {base : UInt32} {len : UInt16}
    (hb : executedBlock d.log base len = true) : d.wipes = false := by
  obtain ⟨e, he, hcheck⟩ := List.any_eq_true.mp hb
  cases e with
  | exec p =>
    simp only [Bool.and_eq_true, bne_iff_ne] at hcheck
    exact h ⟨p, he, Or.inl hcheck.1⟩
  | _ => simp at hcheck

/-! ### A block after a block -/

/-- **What a block does outside its range.**  With no wipe due it changes exactly the bytes
    of the page of its base that read other than `0xFF`, if its window is dirty. -/
theorem usbdfuGetstatusComplete_changes_iff {d : Dfu} (hbusy : d.state = .dnbusy)
    (hblock : d.prog.blocknum ≠ 0) (hwipe : d.wipes = false)
    (hr : inRange d.prog.baseaddr d.prog.len.toUInt32 = true) {x : UInt32}
    (hx : ∀ i < d.prog.len.toNat, x ≠ d.prog.baseaddr + UInt32.ofNat i) :
    (usbdfuGetstatusComplete d).store.flash x ≠ d.store.flash x
      ↔ flashPageIsErased d.store.flash d.prog.baseaddr = false
          ∧ pageOf x = pageOf d.prog.baseaddr ∧ d.store.flash x ≠ 0xFF := by
  have hexec : (usbdfuGetstatusComplete d).store.flash x
      = (execBlock { d with store := flashUnlock d.store }).store.flash x :=
    congrFun (usbdfuGetstatusComplete_block hbusy hblock) x
  have hnowipe : ifdefSafeWrite { d with store := flashUnlock d.store }
      = { d with store := flashUnlock d.store } := by
    rw [ifdefSafeWrite_eq, if_neg]
    show ¬ d.wipes = true
    simp [hwipe]
  have hframe := execBlock_flash_frame (d := { d with store := flashUnlock d.store }) hr
    (x := x) fun i hi => hx i (by have : i < 2 * (d.prog.len.toNat / 2) := hi; omega)
  rw [hexec, hframe, hnowipe, eraseIfDirty_flash (by simp), flashUnlock_flash]
  by_cases herase : flashPageIsErased d.store.flash d.prog.baseaddr = false
      ∧ pageOf x = pageOf d.prog.baseaddr
  · rw [if_pos herase]
    simp [herase, eq_comm]
  · rw [if_neg herase]
    simp only [ne_eq, not_true_eq_false, false_iff]
    exact fun h => herase ⟨h.1, h.2.1⟩

/-- Event `e` carries out a block with its range in the application region, disjoint from
    the range of a block of `len₁` bytes at `base₁` that was carried out before. -/
structure LaterBlock (d : Dev) (e : BusEvent) (base₁ : UInt32) (len₁ : UInt16) : Prop where
  first : executedBlock d.dfu.log base₁ len₁ = true
  completes : d.Completes e
  busy : d.dfu.state = .dnbusy
  block : d.dfu.prog.blocknum ≠ 0
  range : startAddr.toNat ≤ d.dfu.prog.baseaddr.toNat
    ∧ d.dfu.prog.baseaddr.toNat + d.dfu.prog.len.toNat ≤ endAddr.toNat
  disjoint : base₁.toNat + len₁.toNat ≤ d.dfu.prog.baseaddr.toNat
    ∨ d.dfu.prog.baseaddr.toNat + d.dfu.prog.len.toNat ≤ base₁.toNat

instance (d : Dev) (e : BusEvent) (base₁ : UInt32) (len₁ : UInt16) :
    Decidable (LaterBlock d e base₁ len₁) :=
  decidable_of_iff
    (executedBlock d.dfu.log base₁ len₁ = true ∧ d.Completes e ∧ d.dfu.state = .dnbusy
      ∧ d.dfu.prog.blocknum ≠ 0
      ∧ (startAddr.toNat ≤ d.dfu.prog.baseaddr.toNat
        ∧ d.dfu.prog.baseaddr.toNat + d.dfu.prog.len.toNat ≤ endAddr.toNat)
      ∧ (base₁.toNat + len₁.toNat ≤ d.dfu.prog.baseaddr.toNat
        ∨ d.dfu.prog.baseaddr.toNat + d.dfu.prog.len.toNat ≤ base₁.toNat))
    ⟨fun ⟨h1, h2, h3, h4, h5, h6⟩ => ⟨h1, h2, h3, h4, h5, h6⟩,
      fun ⟨h1, h2, h3, h4, h5, h6⟩ => ⟨h1, h2, h3, h4, h5, h6⟩⟩

/-- The address is one of the `len` bytes from `base` on. -/
def InBlock (base : UInt32) (len : UInt16) (x : UInt32) : Prop :=
  base.toNat ≤ x.toNat ∧ x.toNat < base.toNat + len.toNat

instance (base : UInt32) (len : UInt16) (x : UInt32) : Decidable (InBlock base len x) :=
  inferInstanceAs (Decidable (_ ∧ _))

/-- **An earlier block under a later one.**  In every run, where a block has been carried
    out and a second one with a disjoint range in the application region is, the second
    changes exactly those bytes of the first's range that lie in the page of its own base
    address and read other than `0xFF`, and only if the 1 KB window at its base is dirty. -/
theorem laterBlock_changes_iff (b : Board) (evs : List BusEvent) {e : BusEvent}
    {base₁ : UInt32} {len₁ : UInt16} (h : LaterBlock ((Dev.init b).run evs) e base₁ len₁)
    {x : UInt32} (hx : InBlock base₁ len₁ x) :
    (((Dev.init b).run evs).step e).dfu.store.flash x ≠ ((Dev.init b).run evs).dfu.store.flash x
      ↔ flashPageIsErased ((Dev.init b).run evs).dfu.store.flash
            ((Dev.init b).run evs).dfu.prog.baseaddr = false
          ∧ pageOf x = pageOf ((Dev.init b).run evs).dfu.prog.baseaddr
          ∧ ((Dev.init b).run evs).dfu.store.flash x ≠ 0xFF := by
  have hwipe := (run_wipedFirst b evs).of_executedBlock h.first
  have hlen : ((Dev.init b).run evs).dfu.LenOk :=
    run_lenOk (fun h => by simp [Dev.init, Dfu.init] at h) evs
  obtain ⟨-, hle⟩ := hlen (Or.inr h.busy)
  obtain ⟨-, hcompletes, hbusy, hblock, hrange, hdisjoint⟩ := h
  rw [step_dfu_of_completes hcompletes]
  generalize ((Dev.init b).run evs).dfu = d at *
  rw [startAddr_toNat, endAddr_toNat] at hrange
  refine usbdfuGetstatusComplete_changes_iff hbusy hblock hwipe ?_ ?_
  · rw [inRange_iff (by simpa using hle), UInt16.toNat_toUInt32]
    exact Or.inl hrange
  · intro i hi hxi
    have hoff : (d.prog.baseaddr + UInt32.ofNat i).toNat = d.prog.baseaddr.toNat + i :=
      toNat_add_ofNat (by omega)
    rw [InBlock, hxi, hoff] at hx
    omega

/-- A host downloads two bytes to `0x08002010` and then two bytes to `0x08002000`; the last
    poll, which carries out the second block, is still to come. -/
def overlappingPages : List BusEvent :=
  (session (dnloadPackets 0 (commandBytes cmdSetaddr 0x08002010) ++ getstatusPackets
    ++ dnloadPackets 2 [0xAA, 0x55] ++ getstatusPackets
    ++ dnloadPackets 0 (commandBytes cmdSetaddr 0x08002000) ++ getstatusPackets
    ++ dnloadPackets 2 [0x11, 0x22] ++ getstatusPackets)).dropLast

/-- What the run comes to: the last poll carries out a second block, whose range is disjoint
    from the first one's, and what it makes of the first byte. -/
theorem overlappingPages_evaluated :
    LaterBlock ((Dev.init blankBoard).run overlappingPages) .poll 0x08002010 2
      ∧ (((Dev.init blankBoard).run overlappingPages).dfu.store.flash 0x08002010,
          (((Dev.init blankBoard).run overlappingPages).step .poll).dfu.store.flash 0x08002010)
        = (0xAA, 0xFF) := by
  decide +kernel

/-- The two ranges are disjoint, and the second block erases the first one's bytes. -/
theorem overlappingPages_destroyed :
    LaterBlock ((Dev.init blankBoard).run overlappingPages) .poll 0x08002010 2
      ∧ ((Dev.init blankBoard).run overlappingPages).dfu.store.flash 0x08002010 = 0xAA
      ∧ (((Dev.init blankBoard).run overlappingPages).step .poll).dfu.store.flash 0x08002010
          = 0xFF := by
  obtain ⟨hlater, hbytes⟩ := overlappingPages_evaluated
  exact ⟨hlater, Prod.mk.inj hbytes⟩

/-- The first of these bytes, by the general statement. -/
theorem laterBlock_changes_overlappingPages :
    (((Dev.init blankBoard).run overlappingPages).step .poll).dfu.store.flash 0x08002010
        ≠ ((Dev.init blankBoard).run overlappingPages).dfu.store.flash 0x08002010
      ↔ flashPageIsErased ((Dev.init blankBoard).run overlappingPages).dfu.store.flash
            ((Dev.init blankBoard).run overlappingPages).dfu.prog.baseaddr = false
          ∧ pageOf 0x08002010
              = pageOf ((Dev.init blankBoard).run overlappingPages).dfu.prog.baseaddr
          ∧ ((Dev.init blankBoard).run overlappingPages).dfu.store.flash 0x08002010 ≠ 0xFF :=
  laterBlock_changes_iff blankBoard overlappingPages overlappingPages_evaluated.1 (by decide)

end Stm32F1Dfu
