import Stm32F1Dfu.Execution
import Stm32F1Dfu.Transfers

namespace Stm32F1Dfu

/-!
# Erases and programs against the application region

Which operations the completion of a `GETSTATUS` issues outside the application region.
The range check `baseaddr >= start_addr && baseaddr + n <= end_addr` is made on 32-bit
words: a range that ends at or past 2³² wraps to a small sum and passes.

* `Store.Confined` — no operation issued so far touches a byte outside the region;
* `Dfu.RangeExact` — the stored download does not run into a wrapped sum, or has no
  effect there;
* `usbdfuGetstatusComplete_confined` — a completion keeps the flash outside the region
  untouched exactly under that condition;
* `run_confined_iff` — so does a run, step by step.
-/

/-- No operation issued so far touches a flash byte outside the application region. -/
def Store.Confined (s : Store) : Prop := ∀ op ∈ s.ops, op.InApp

/-- The stored download, if it is carried out, does not end at or past 2³², unless the
    range check does not matter: the window is blank, and there is nothing to program. -/
def Dfu.RangeExact (d : Dfu) : Prop :=
  if d.prog.blocknum = 0 then
    d.prog.buf 0 = cmdErase →
      d.prog.operand.toNat + 1024 < 2 ^ 32
        ∨ flashPageIsErased d.store.flash d.prog.operand = true
  else
    d.prog.baseaddr.toNat + d.prog.len.toNat < 2 ^ 32
      ∨ d.prog.len.toNat < 2 ∧ flashPageIsErased d.store.flash d.prog.baseaddr = true

instance (d : Dfu) : Decidable d.RangeExact := by unfold Dfu.RangeExact; infer_instance

/-- The condition on one step of the device: where it carries out a stored download, that
    download's range is exact. -/
def RangeExactStep (d : Dev) (e : BusEvent) : Prop :=
  d.Completes e → d.dfu.state = .dnbusy → d.dfu.RangeExact

/-! ### The routines of `flash.c` -/

/-- A dirty window has its page erased, so the page has to be one of the region. -/
theorem eraseIfDirty_confined {s : Store} (hu : s.locked = false) (a : UInt32) :
    (eraseIfDirty s a).Confined
      ↔ s.Confined ∧ (InApp a ∨ flashPageIsErased s.flash a = true) := by
  unfold Store.Confined
  rw [eraseIfDirty_ops hu]
  cases h : flashPageIsErased s.flash a with
  | true => simp
  | false => simp [StoreOp.erase_inApp, and_comm]

/-- A programmed buffer has to have all its half-words in the region. -/
theorem flashProgramBuffer_confined {s : Store} (hu : s.locked = false) (a : UInt32)
    (data : Nat → UInt8) (len : Nat) :
    (flashProgramBuffer s a data len).Confined
      ↔ s.Confined ∧ ∀ i < 2 * (len / 2), InApp (a + UInt32.ofNat i) := by
  unfold Store.Confined flashProgramBuffer
  rw [flashProgramLoop_ops hu]
  constructor
  · intro h
    refine ⟨fun op hop => h op (List.mem_append_right _ hop), fun i hi => ?_⟩
    -- byte `i` belongs to half-word `i / 2`
    have hhalf := h _ (List.mem_append_left _ (mem_programOps.mpr ⟨i / 2, by omega, rfl⟩))
    rw [StoreOp.program_inApp, halfAddr_low, offset_succ] at hhalf
    obtain hr | hr : i = 2 * (i / 2) ∨ i = 2 * (i / 2) + 1 := by omega
    · exact hr ▸ hhalf.1
    · exact hr ▸ hhalf.2
  · rintro ⟨hs, hrange⟩ op hop
    rcases List.mem_append.mp hop with hnew | hold
    · obtain ⟨i, hi, rfl⟩ := mem_programOps.mp hnew
      rw [StoreOp.program_inApp, halfAddr_low, offset_succ]
      exact ⟨hrange _ (by omega), hrange _ (by omega)⟩
    · exact hs op hold

/-- The wipe of the application region stays in it. -/
theorem erasePages_startAddr_confined (s : Store) :
    (erasePages s startAddr 120).Confined ↔ s.Confined := by
  constructor
  · intro h op hop
    exact h op (erasePages_ops_mono hop)
  · intro h op hop
    rcases mem_erasePages_ops hop with hold | ⟨i, hi, rfl⟩
    · exact h op hold
    · rw [StoreOp.erase_inApp, inApp_iff, pageAddr_toNat (by decide) hi, startAddr_toNat]
      omega

theorem ifdefSafeWrite_confined (d : Dfu) :
    (ifdefSafeWrite d).store.Confined ↔ d.store.Confined := by
  rw [ifdefSafeWrite_eq]
  split
  · exact erasePages_startAddr_confined d.store
  · rfl

/-- A window at the end of the address space wraps to its beginning: no byte of it lies in
    the application region, and the wipe does not change what the blank check says. -/
theorem flashPageIsErased_ifdefSafeWrite {d : Dfu} (hu : d.store.locked = false) {a : UInt32}
    (ha : 2 ^ 32 ≤ a.toNat + 1024) :
    flashPageIsErased (ifdefSafeWrite d).store.flash a = flashPageIsErased d.store.flash a := by
  have hsame (i : Nat) (hi : i < 1024) :
      (ifdefSafeWrite d).store.flash (a + UInt32.ofNat i)
        = d.store.flash (a + UInt32.ofNat i) := by
    have hout : ¬ InApp (a + UInt32.ofNat i) := by
      have := a.toNat_lt
      rw [inApp_iff, UInt32.toNat_add, UInt32.toNat_ofNat']
      omega
    rw [ifdefSafeWrite_flash hu, if_neg fun h => hout h.2]
  rw [Bool.eq_iff_iff, flashPageIsErased_iff, flashPageIsErased_iff]
  constructor
  · intro h i hi
    exact (hsame i hi).symm.trans (h i hi)
  · intro h i hi
    exact (hsame i hi).trans (h i hi)

/-! ### The commands -/

/-- The erase of `CMD_ERASE` stays in the region exactly when its sum does not wrap or the
    window is blank. -/
theorem execErase_confined {d : Dfu} (hu : d.store.locked = false) :
    (execErase d).store.Confined
      ↔ d.store.Confined ∧ (d.prog.operand.toNat + 1024 < 2 ^ 32
          ∨ flashPageIsErased d.store.flash d.prog.operand = true) := by
  have hlt := d.prog.operand.toNat_lt
  have hcheck := inRange_iff (a := d.prog.operand) (n := 1024) (by decide)
  have h1024 : (1024 : UInt32).toNat = 1024 := rfl
  rw [execErase_store]
  by_cases hr : inRange d.prog.operand 1024 = true
  · rw [if_pos hr, eraseIfDirty_confined (by simp [hu]), ifdefSafeWrite_confined, inApp_iff]
    rw [hr, h1024] at hcheck
    rcases hcheck.mp rfl with hin | hwrap
    · have hleft : d.prog.operand.toNat + 1024 < 2 ^ 32 := by omega
      have happ : 0x08002000 ≤ d.prog.operand.toNat ∧ d.prog.operand.toNat < 0x08020000 := by
        omega
      simp only [hleft, happ, and_self, true_or, and_true]
    · rw [flashPageIsErased_ifdefSafeWrite hu hwrap]
      have hleft : ¬ d.prog.operand.toNat + 1024 < 2 ^ 32 := by omega
      have hout : ¬ (0x08002000 ≤ d.prog.operand.toNat ∧ d.prog.operand.toNat < 0x08020000) := by
        omega
      simp only [hleft, hout, false_or]
  · rw [if_neg hr, ifdefSafeWrite_confined]
    have hleft : d.prog.operand.toNat + 1024 < 2 ^ 32 := by
      by_contra hwrap
      exact hr (hcheck.mpr (Or.inr (by omega)))
    simp only [hleft, true_or, and_true]

/-- The erase and the programming of a block stay in the region exactly when its sum does
    not wrap, or there is neither an erase nor a half-word to program. -/
theorem execBlock_confined {d : Dfu} (hu : d.store.locked = false)
    (hlen : 0 < d.prog.len.toNat ∧ d.prog.len.toNat ≤ 1024) :
    (execBlock d).store.Confined
      ↔ d.store.Confined ∧ (d.prog.baseaddr.toNat + d.prog.len.toNat < 2 ^ 32
          ∨ d.prog.len.toNat < 2 ∧ flashPageIsErased d.store.flash d.prog.baseaddr = true) := by
  have hlt := d.prog.baseaddr.toNat_lt
  have hcheck := inRange_iff (a := d.prog.baseaddr) (n := d.prog.len.toUInt32)
    (by simpa using hlen.2)
  rw [UInt16.toNat_toUInt32] at hcheck
  rw [execBlock_store]
  by_cases hr : inRange d.prog.baseaddr d.prog.len.toUInt32 = true
  · rw [if_pos hr, flashProgramBuffer_confined (by simp [hu]), eraseIfDirty_confined (by simp [hu]),
      ifdefSafeWrite_confined, inApp_iff]
    rw [hr] at hcheck
    rcases hcheck.mp rfl with hin | hwrap
    · -- every half-word lies between the two bounds the check compared with
      have hleft : d.prog.baseaddr.toNat + d.prog.len.toNat < 2 ^ 32 := by omega
      have happ : 0x08002000 ≤ d.prog.baseaddr.toNat ∧ d.prog.baseaddr.toNat < 0x08020000 := by
        omega
      have hall : ∀ i < 2 * (d.prog.len.toNat / 2), InApp (d.prog.baseaddr + UInt32.ofNat i) := by
        intro i hi
        rw [inApp_iff, toNat_add_ofNat (by omega)]
        omega
      rw [and_iff_left hall]
      simp only [hleft, happ, true_or, and_true, and_self]
    · rw [flashPageIsErased_ifdefSafeWrite hu (by omega)]
      have hleft : ¬ d.prog.baseaddr.toNat + d.prog.len.toNat < 2 ^ 32 := by omega
      have hout : ¬ (0x08002000 ≤ d.prog.baseaddr.toNat ∧ d.prog.baseaddr.toNat < 0x08020000) := by
        omega
      -- the first byte of a half-word would be the base, past the region
      have hprog : (∀ i < 2 * (d.prog.len.toNat / 2), InApp (d.prog.baseaddr + UInt32.ofNat i))
          ↔ d.prog.len.toNat < 2 := by
        constructor
        · intro h
          by_contra hge
          have h0 := h 0 (by omega)
          rw [inApp_iff, toNat_add_ofNat (by omega)] at h0
          omega
        · intro h i hi
          omega
      simp only [hleft, hout, hprog, false_or]
      tauto
  · rw [if_neg hr, ifdefSafeWrite_confined]
    have hleft : d.prog.baseaddr.toNat + d.prog.len.toNat < 2 ^ 32 := by
      by_contra hwrap
      exact hr (hcheck.mpr (Or.inr (by omega)))
    simp only [hleft, true_or, and_true]

/-! ### The driver and its runs -/

theorem execProg_confined {d : Dfu} (hu : d.store.locked = false)
    (hlen : 0 < d.prog.len.toNat ∧ d.prog.len.toNat ≤ 1024) :
    (execProg d).store.Confined ↔ d.store.Confined ∧ d.RangeExact := by
  unfold execProg Dfu.RangeExact
  by_cases hb : d.prog.blocknum = 0
  · rw [if_pos hb, if_pos hb]
    by_cases he : d.prog.buf 0 = cmdErase
    · rw [if_pos he, execErase_confined hu]
      simp [he]
    · rw [if_neg he]
      split <;> simp [he]
  · rw [if_neg hb, if_neg hb, execBlock_confined hu hlen]

/-- **A completion and the region.**  It keeps every operation in the region exactly when
    the stored download it carries out has an exact range. -/
theorem usbdfuGetstatusComplete_confined {d : Dfu} (hlen : d.LenOk) :
    (usbdfuGetstatusComplete d).store.Confined
      ↔ d.store.Confined ∧ (d.state = .dnbusy → d.RangeExact) := by
  by_cases hs : d.state = .dnbusy
  · rw [usbdfuGetstatusComplete_dnbusy hs]
    have hexec := execProg_confined (d := { d with store := flashUnlock d.store })
      (by simp) (hlen (Or.inr hs))
    have hrange : ({ d with store := flashUnlock d.store } : Dfu).RangeExact ↔ d.RangeExact := by
      simp only [Dfu.RangeExact, flashUnlock_flash]
    have hlock (s : Store) : (flashLock s).Confined ↔ s.Confined := Iff.rfl
    have hunlock : (flashUnlock d.store).Confined ↔ d.store.Confined := by
      simp only [Store.Confined, flashUnlock_ops]
    rw [hrange, hunlock] at hexec
    rw [hlock, hexec]
    simp [hs]
  · rw [usbdfuGetstatusComplete_other hs]
    split <;> simp [hs]

/-- **A step and the region.** -/
theorem step_confined {d : Dev} (hlen : d.dfu.LenOk) (e : BusEvent) :
    (d.step e).dfu.store.Confined ↔ d.dfu.store.Confined ∧ RangeExactStep d e := by
  by_cases hc : d.Completes e
  · rw [step_dfu_of_completes hc, usbdfuGetstatusComplete_confined hlen]
    simp [RangeExactStep, hc]
  · have hsame : (d.step e).dfu.store = d.dfu.store := by
      rcases step_dfu_of_not_completes hc with h | ⟨ctrl, req, complete, h⟩
      · rw [h]
      · rw [h, usbdfuControlRequest_store]
    rw [hsame]
    simp [RangeExactStep, hc]

/-- **Every erase and every program of a run stays in the application region exactly when
    no download is carried out whose range ends at or past 2³²** (but for those without
    an effect). -/
theorem run_confined_iff (b : Board) (evs : List BusEvent) :
    (∀ op ∈ ((Dev.init b).run evs).dfu.store.ops, op.InApp)
      ↔ Machine.AllSteps Dev.step RangeExactStep (Dev.init b) evs := by
  have hinit : (Dev.init b).dfu.store.Confined := by
    intro op hop
    exact absurd hop (List.not_mem_nil)
  have hlen : (Dev.init b).dfu.LenOk := fun h => by simp [Dev.init, Dfu.init] at h
  have hrun : ((Dev.init b).run evs).dfu.store.Confined ↔ (Dev.init b).dfu.store.Confined
      ∧ Machine.AllSteps Dev.step RangeExactStep (Dev.init b) evs :=
    Machine.run_iff (I := fun d : Dev => d.dfu.store.Confined) (J := fun d => d.dfu.LenOk)
      (fun _ e h => run_lenOk h [e]) (fun _ e h => step_confined h e) hlen evs
  exact hrun.trans (by simp [hinit])

/-- A host sets the address pointer to the last half-word below 2³² and downloads a block
    of two bytes to it. -/
def wrappedBlock : List BusEvent :=
  session (dnloadPackets 0 (commandBytes cmdSetaddr 0xFFFFFFFE) ++ getstatusPackets
    ++ dnloadPackets 2 [0xAA, 0x55] ++ getstatusPackets)

/-- The range of that block ends at 2³², passes the range check and is programmed. -/
theorem wrappedBlock_not_confined :
    ¬ ∀ op ∈ ((Dev.init blankBoard).run wrappedBlock).dfu.store.ops, op.InApp := by
  have hops : ((Dev.init blankBoard).run wrappedBlock).dfu.store.ops
      = [.program 0xFFFFFFFE 0x55AA] := by decide +kernel
  intro h
  have hprog := h (.program 0xFFFFFFFE 0x55AA) (by rw [hops]; exact List.mem_singleton_self _)
  rw [StoreOp.program_inApp] at hprog
  exact absurd hprog.1 (by decide)

end Stm32F1Dfu
