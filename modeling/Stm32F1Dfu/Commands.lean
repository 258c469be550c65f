import Stm32F1Dfu.Blocks
import Stm32F1Dfu.Region

namespace Stm32F1Dfu

open LittleEndian

/-!
# The commands of block 0

What `CMD_ERASE` and `CMD_SETADDR` make of their operand.

* `acceptedErase_erasesPage_iff` — an erase that passes the range check blanks its page and
  only it, exactly when the window of the blank check does not hide a dirty page and no
  wipe is due;
* `dependsOnPayload_iff` — the payloads whose effect does not depend on what was left in
  `prog.buf`.
-/

/-! ### Erase -/

/-- `m'` is `m` with the page that holds `a` blank. -/
def ErasesPage (m m' : UInt32 → UInt8) (a : UInt32) : Prop :=
  ∀ b, m' b = if pageOf b = pageOf a then 0xFF else m b

/-- Event `e` carries out a complete `CMD_ERASE` whose operand passes the range check. -/
structure AcceptedErase (d : Dev) (e : BusEvent) : Prop where
  completes : d.Completes e
  busy : d.dfu.state = .dnbusy
  command : d.dfu.prog.blocknum = 0 ∧ d.dfu.prog.buf 0 = cmdErase
  complete : 5 ≤ d.dfu.prog.len.toNat
  range : inRange d.dfu.prog.operand 1024 = true

instance (d : Dev) (e : BusEvent) : Decidable (AcceptedErase d e) :=
  decidable_of_iff
    (d.Completes e ∧ d.dfu.state = .dnbusy
      ∧ (d.dfu.prog.blocknum = 0 ∧ d.dfu.prog.buf 0 = cmdErase) ∧ 5 ≤ d.dfu.prog.len.toNat
      ∧ inRange d.dfu.prog.operand 1024 = true)
    ⟨fun ⟨h1, h2, h3, h4, h5⟩ => ⟨h1, h2, h3, h4, h5⟩,
      fun ⟨h1, h2, h3, h4, h5⟩ => ⟨h1, h2, h3, h4, h5⟩⟩

/-- The byte is one that the wipe of `check_do_erase`, if it is due, blanks first. -/
def Dfu.Wiped (d : Dfu) (b : UInt32) : Prop := d.wipes = true ∧ InApp b

instance (d : Dfu) (b : UInt32) : Decidable (d.Wiped b) := inferInstanceAs (Decidable (_ ∧ _))

/-- What the blank check reads is what the erase changes: a blank window means a blank
    page, and the wipe, if it is due, finds nothing to erase on the other pages. -/
def Dfu.EraseExact (d : Dfu) : Prop :=
  (flashPageIsErased d.store.flash d.prog.operand = true →
      ∀ b, pageOf b = pageOf d.prog.operand → d.Wiped b ∨ d.store.flash b = 0xFF)
    ∧ ∀ b, pageOf b ≠ pageOf d.prog.operand → d.Wiped b → d.store.flash b = 0xFF

/-- Whether one address of a page lies in the application region does not depend on the
    address: the region is made of whole pages. -/
theorem inApp_of_page {a b : UInt32} (h : pageOf b = pageOf a) (ha : InApp a) : InApp b := by
  simp only [pageOf] at h
  rw [inApp_iff] at ha ⊢
  omega

/-- What the blank check says after the wipe, for a window that the range check accepts:
    the wipe blanks all of it or none of it. -/
theorem flashPageIsErased_afterWipe {d : Dfu} (hu : d.store.locked = false) {a : UInt32}
    (hr : inRange a 1024 = true) :
    flashPageIsErased (ifdefSafeWrite d).store.flash a = true
      ↔ d.Wiped a ∨ flashPageIsErased d.store.flash a = true := by
  rcases (inRange_iff (n := 1024) (by decide)).mp hr with ⟨hlo, hhi⟩ | hwrap
  · have hhi : a.toNat + 1024 ≤ 0x08020000 := hhi
    have happ (i : Nat) (hi : i < 1024) : InApp (a + UInt32.ofNat i) := by
      rw [inApp_iff, toNat_add_ofNat (by omega)]
      omega
    have ha : InApp a := by
      rw [inApp_iff]
      omega
    cases hw : d.wipes with
    | true =>
      simp only [Dfu.Wiped, hw, ha, and_self, true_or, iff_true]
      rw [flashPageIsErased_iff]
      intro i hi
      rw [ifdefSafeWrite_flash hu, if_pos ⟨hw, happ i hi⟩]
    | false =>
      have hnone : ifdefSafeWrite d = d := by
        rw [ifdefSafeWrite_eq, hw]
        rfl
      simp [Dfu.Wiped, hw, hnone]
  · -- the window starts past the region
    have hout : ¬ d.Wiped a := by
      rintro ⟨-, ha⟩
      rw [inApp_iff] at ha
      have hwrap : 2 ^ 32 ≤ a.toNat + 1024 := hwrap
      omega
    rw [flashPageIsErased_ifdefSafeWrite hu hwrap]
    simp only [hout, false_or]

/-- **An accepted erase**, with the controller unlocked: it blanks its page and only it
    exactly under `EraseExact`. -/
theorem execErase_erasesPage_iff {d : Dfu} (hu : d.store.locked = false)
    (hr : inRange d.prog.operand 1024 = true) :
    ErasesPage d.store.flash (execErase d).store.flash d.prog.operand ↔ d.EraseExact := by
  have hwipe (b : UInt32) : (ifdefSafeWrite d).store.flash b
      = if d.Wiped b then 0xFF else d.store.flash b := ifdefSafeWrite_flash hu b
  have hexec (b : UInt32) : (execErase d).store.flash b
      = if flashPageIsErased (ifdefSafeWrite d).store.flash d.prog.operand = false
          ∧ pageOf b = pageOf d.prog.operand then 0xFF
        else if d.Wiped b then 0xFF else d.store.flash b := by
    rw [execErase_store, if_pos hr, eraseIfDirty_flash (by simp [hu]), hwipe]
  have hwindow := flashPageIsErased_afterWipe hu hr
  constructor
  · intro h
    refine ⟨fun hblank b hb => ?_, fun b hb hw => ?_⟩
    · -- the window read blank, so nothing but the wipe changed the page
      have hskip := hwindow.mpr (Or.inr hblank)
      have hff := h b
      rw [hexec, if_pos hb, if_neg (by simp [hskip])] at hff
      by_cases hw : d.Wiped b
      · exact Or.inl hw
      · rw [if_neg hw] at hff
        exact Or.inr hff
    · have hkeep := h b
      rw [hexec, if_neg hb, if_neg fun hc => hb hc.2, if_pos hw] at hkeep
      exact hkeep.symm
  · rintro ⟨hpage, hother⟩ b
    rw [hexec]
    by_cases hb : pageOf b = pageOf d.prog.operand
    · rw [if_pos hb]
      by_cases hskip : flashPageIsErased (ifdefSafeWrite d).store.flash d.prog.operand = true
      · rw [if_neg (by simp [hskip])]
        rcases hwindow.mp hskip with ⟨hw, ha⟩ | hblank
        · exact if_pos ⟨hw, inApp_of_page hb ha⟩
        · rcases hpage hblank b hb with hw | hff
          · exact if_pos hw
          · rw [hff, ite_self]
      · exact if_pos ⟨by simpa using hskip, hb⟩
    · rw [if_neg hb, if_neg fun hc => hb hc.2]
      by_cases hw : d.Wiped b
      · rw [if_pos hw, hother b hb hw]
      · rw [if_neg hw]

/-- **Accepted erases.**  The step that carries one out leaves the page of its operand
    blank and the rest of the flash alone, exactly when a blank window means a blank page
    and the wipe of `check_do_erase`, if it is due, finds the other pages blank. -/
theorem acceptedErase_erasesPage_iff {d : Dev} {e : BusEvent} (h : AcceptedErase d e) :
    ErasesPage d.dfu.store.flash (d.step e).dfu.store.flash d.dfu.prog.operand
      ↔ d.dfu.EraseExact := by
  have hexec : (d.step e).dfu.store.flash
      = (execErase { d.dfu with store := flashUnlock d.dfu.store }).store.flash := by
    rw [step_dfu_of_completes h.completes,
      usbdfuGetstatusComplete_erase h.busy h.command.1 h.command.2]
  have hiff := execErase_erasesPage_iff (d := { d.dfu with store := flashUnlock d.dfu.store })
    (by simp) h.range
  have hcond : ({ d.dfu with store := flashUnlock d.dfu.store } : Dfu).EraseExact
      ↔ d.dfu.EraseExact := by
    simp only [Dfu.EraseExact, Dfu.Wiped, Dfu.wipes, flashUnlock_flash]
  rw [hcond] at hiff
  rw [hexec, ← hiff]
  simp only [flashUnlock_flash]

/-- A board whose application region holds a byte at its start. -/
def dirtyBoard : Board :=
  { blankBoard with flash := fun a => if a = 0x08002000 then 0xAA else 0xFF }

/-- A host erases the page of `0x08002200`, which is the same; the last poll, which carries
    the erase out, is still to come. -/
def hiddenPage : List BusEvent :=
  (session (dnloadPackets 0 (commandBytes cmdErase 0x08002200) ++ getstatusPackets)).dropLast

/-- The window at `0x08002200` is blank, so the erase is skipped and the byte stays. -/
theorem hiddenPage_evaluated :
    AcceptedErase ((Dev.init dirtyBoard).run hiddenPage) .poll
      ∧ pageOf 0x08002000 = pageOf ((Dev.init dirtyBoard).run hiddenPage).dfu.prog.operand
      ∧ (((Dev.init dirtyBoard).run hiddenPage).step .poll).dfu.store.flash 0x08002000
          ≠ 0xFF := by
  decide +kernel

theorem hiddenPage_not_erased :
    AcceptedErase ((Dev.init dirtyBoard).run hiddenPage) .poll
      ∧ ¬ ErasesPage ((Dev.init dirtyBoard).run hiddenPage).dfu.store.flash
          (((Dev.init dirtyBoard).run hiddenPage).step .poll).dfu.store.flash
          ((Dev.init dirtyBoard).run hiddenPage).dfu.prog.operand := by
  obtain ⟨herase, hpage, hstays⟩ := hiddenPage_evaluated
  exact ⟨herase, fun h => hstays ((h 0x08002000).trans (if_pos hpage))⟩

/-- The general statement there. -/
theorem acceptedErase_erasesPage_hiddenPage :
    ErasesPage ((Dev.init dirtyBoard).run hiddenPage).dfu.store.flash
        (((Dev.init dirtyBoard).run hiddenPage).step .poll).dfu.store.flash
        ((Dev.init dirtyBoard).run hiddenPage).dfu.prog.operand
      ↔ ((Dev.init dirtyBoard).run hiddenPage).dfu.EraseExact :=
  acceptedErase_erasesPage_iff hiddenPage_evaluated.1

/-! ### Short commands -/

/-- The DFU states agree but for what an earlier download left in `prog.buf`. -/
structure SameButBuffers (d d' : Dfu) : Prop where
  state : d.state = d'.state
  addr : d.prog.addr = d'.prog.addr
  flash : d.store.flash = d'.store.flash
  safeWrite : d.safeWrite = d'.safeWrite
  erased : d.erased = d'.erased

/-- A `DFU_DNLOAD` of `payload` to block 0, whose data stage has overwritten the first bytes
    of the control buffer. -/
def sendCommand (d : Dfu) (ctrl : Nat → UInt8) (payload : List UInt8) : DfuReturn :=
  let wLength := UInt16.ofNat payload.length
  usbdfuControlRequest d (assign ctrl payload) (dnloadRequest 0 wLength) wLength false

/-- The download, the `DFU_GETSTATUS` after it and its completion. -/
def executeCommand (d : Dfu) (ctrl : Nat → UInt8) (payload : List UInt8) : Dfu :=
  let r := sendCommand d ctrl payload
  usbdfuGetstatusComplete (usbdfuControlRequest r.dfu r.ctrl getstatusRequest 6 false).dfu

/-- Carrying the payload out has the same effect whatever the buffers held before. -/
def DependsOnPayload (payload : List UInt8) : Prop :=
  ∀ d d' ctrl ctrl', SameButBuffers d d' →
    (executeCommand d ctrl payload).store.flash = (executeCommand d' ctrl' payload).store.flash
      ∧ (executeCommand d ctrl payload).prog.addr = (executeCommand d' ctrl' payload).prog.addr

/-- The lower three bytes of the operand in a payload, as a number. -/
def operandLow (payload : List UInt8) : Nat :=
  (payload.getD 1 0).toNat + 256 * (payload.getD 2 0).toNat + 65536 * (payload.getD 3 0).toNat

/-- The payload carries all that is read of it: it has the five bytes of a command, it is no
    command, or it is an erase of four bytes that no fifth byte brings into range. -/
def SelfContained (payload : List UInt8) : Prop :=
  5 ≤ payload.length
    ∨ payload.getD 0 0 ≠ cmdErase ∧ payload.getD 0 0 ≠ cmdSetaddr
    ∨ payload.getD 0 0 = cmdErase ∧ payload.length = 4
        ∧ (operandLow payload < 0x2000
          ∨ 0x1FC00 < operandLow payload ∧ operandLow payload < 0xFFFC00)

instance (payload : List UInt8) : Decidable (SelfContained payload) :=
  inferInstanceAs (Decidable (_ ∨ _ ∧ _ ∨ _ ∧ _ ∧ _))

/-- The flash after the rest of `CMD_ERASE`: the range check, the blank check, the erase. -/
def erasedFlash (m : UInt32 → UInt8) (a : UInt32) : UInt32 → UInt8 :=
  if inRange a 1024 = true ∧ flashPageIsErased m a = false then erasePage m a else m

theorem erasedFlash_of_not_inRange {m : UInt32 → UInt8} {a : UInt32}
    (h : inRange a 1024 ≠ true) : erasedFlash m a = m := if_neg fun hc => h hc.1

/-- The flash after `CMD_ERASE`, from the flash, the wipe and the operand alone. -/
theorem execErase_flash {d : Dfu} (hu : d.store.locked = false) :
    (execErase d).store.flash = erasedFlash (wipedFlash d.store.flash d.wipes) d.prog.operand := by
  have hwipe : (ifdefSafeWrite d).store.flash = wipedFlash d.store.flash d.wipes :=
    funext fun b => ifdefSafeWrite_flash hu b
  rw [execErase_store, erasedFlash]
  by_cases hr : inRange d.prog.operand 1024 = true
  · rw [if_pos hr]
    funext b
    rw [eraseIfDirty_flash (by simp [hu]), hwipe]
    by_cases hdirty : flashPageIsErased (wipedFlash d.store.flash d.wipes) d.prog.operand = false
    · simp only [hr, hdirty, true_and, and_self, if_true]
      rfl
    · simp [hdirty]
  · rw [if_neg hr, if_neg fun h => hr h.1, hwipe]

/-- The `prog` that a payload to block 0 leaves. -/
def commandProg (d : Dfu) (ctrl : Nat → UInt8) (payload : List UInt8) : Prog :=
  storeProg d.prog (assign ctrl payload) 0 (UInt16.ofNat payload.length)

/-- A byte of the stored buffer is one of the payload, or left over. -/
theorem commandProg_buf (d : Dfu) (ctrl : Nat → UInt8) {payload : List UInt8}
    (hlen : payload.length ≤ 1024) (i : Nat) :
    (commandProg d ctrl payload).buf i
      = if i < payload.length then payload.getD i 0 else d.prog.buf i := by
  have hcut : (commandProg d ctrl payload).len.toNat = payload.length := by
    have hsize := storeProg_len d.prog (assign ctrl payload) 0 (UInt16.ofNat payload.length)
    rw [UInt16.toNat_ofNat_of_lt' (by show _ < 65536; omega)] at hsize
    show (storeProg _ _ _ _).len.toNat = _
    omega
  show (if i < (commandProg d ctrl payload).len.toNat then assign ctrl payload i
    else d.prog.buf i) = _
  rw [hcut]
  by_cases hi : i < payload.length
  · rw [if_pos hi, if_pos hi]
    show (if i < payload.length then payload.getD i 0 else ctrl i) = _
    rw [if_pos hi]
  · rw [if_neg hi, if_neg hi]

/-- **A command from its payload to the flash.** -/
theorem executeCommand_eq (d : Dfu) (ctrl : Nat → UInt8) {payload : List UInt8}
    (hpos : payload ≠ []) (hlen : payload.length ≤ 1024) :
    (executeCommand d ctrl payload).prog.addr = (commandProg d ctrl payload).addrAfter
      ∧ (executeCommand d ctrl payload).store.flash
        = if (commandProg d ctrl payload).buf 0 = cmdErase then
            erasedFlash (wipedFlash d.store.flash d.wipes) (commandProg d ctrl payload).operand
          else d.store.flash := by
  have hne : UInt16.ofNat payload.length ≠ 0 := by
    intro h
    have hzero := congrArg UInt16.toNat h
    rw [UInt16.toNat_ofNat_of_lt' (by show _ < 65536; omega)] at hzero
    exact hpos (List.eq_nil_of_length_eq_zero hzero)
  -- the driver in `dfuDNBUSY`, with the payload stored
  obtain ⟨f, hf, hbusy, hprog, hflash, hwipes⟩ : ∃ f,
      executeCommand d ctrl payload = usbdfuGetstatusComplete f ∧ f.state = .dnbusy
        ∧ f.prog = commandProg d ctrl payload ∧ f.store.flash = d.store.flash
        ∧ f.wipes = d.wipes := by
    refine ⟨_, rfl, ?_⟩
    have hsend : (sendCommand d ctrl payload).dfu
        = { d with prog := commandProg d ctrl payload, state := .dnloadSync,
                   log := .dnload (commandProg d ctrl payload) :: d.log } := by
      show (if UInt16.ofNat payload.length = 0 then _ else _ : DfuReturn).dfu = _
      rw [if_neg hne]
      rfl
    rw [hsend]
    exact ⟨rfl, rfl, rfl, rfl⟩
  have hblock : f.prog.blocknum = 0 := by
    rw [hprog]
    rfl
  rw [hf, usbdfuGetstatusComplete_dnbusy hbusy]
  refine ⟨by rw [hprog], ?_⟩
  show (execProg { f with store := flashUnlock f.store }).store.flash = _
  unfold execProg
  rw [if_pos hblock]
  by_cases he : f.prog.buf 0 = cmdErase
  · rw [if_pos he, execErase_flash (by simp), ← hprog, if_pos he]
    have hw : ({ f with store := flashUnlock f.store } : Dfu).wipes = d.wipes := hwipes
    rw [hw, flashUnlock_flash, hflash]
  · rw [if_neg he, ← hprog, if_neg he]
    split <;> simp [hflash]

/-! ### What is left over -/

/-- A byte of the operand as a number. -/
theorem Prog.operand_toNat (p : Prog) :
    p.operand.toNat = (p.buf 1).toNat + 256 * (p.buf 2).toNat + 65536 * (p.buf 3).toNat
      + 16777216 * (p.buf 4).toNat := word_toNat ..

/-- A payload that carries all that is read of it has one effect. -/
theorem SelfContained.dependsOnPayload {payload : List UInt8} (hpos : payload ≠ [])
    (hlen : payload.length ≤ 1024) (h : SelfContained payload) : DependsOnPayload payload := by
  intro d d' ctrl ctrl' hsame
  obtain ⟨haddr, hflash⟩ := executeCommand_eq d ctrl hpos hlen
  obtain ⟨haddr', hflash'⟩ := executeCommand_eq d' ctrl' hpos hlen
  have hbuf := commandProg_buf d ctrl hlen
  have hbuf' := commandProg_buf d' ctrl' hlen
  have hwipes : d.wipes = d'.wipes := by
    simp only [Dfu.wipes, hsame.safeWrite, hsame.erased]
  have hold : (commandProg d ctrl payload).addr = (commandProg d' ctrl' payload).addr :=
    hsame.addr
  have hhead : 0 < payload.length := List.length_pos_iff.mpr hpos
  have h0 : (commandProg d ctrl payload).buf 0 = payload.getD 0 0 := by
    rw [hbuf, if_pos hhead]
  have h0' : (commandProg d' ctrl' payload).buf 0 = payload.getD 0 0 := by
    rw [hbuf', if_pos hhead]
  rw [haddr, haddr', hflash, hflash', ← hwipes, ← hsame.flash, h0, h0']
  rcases h with hfull | ⟨hne, hns⟩ | ⟨he, h4, hout⟩
  · -- all five bytes are the payload's
    have hop : (commandProg d ctrl payload).operand = (commandProg d' ctrl' payload).operand := by
      simp only [Prog.operand]
      rw [hbuf, hbuf, hbuf, hbuf, hbuf', hbuf', hbuf', hbuf']
      simp only [show 1 < payload.length by omega, show 2 < payload.length by omega,
        show 3 < payload.length by omega, show 4 < payload.length by omega, if_true]
    refine ⟨by rw [hop], ?_⟩
    simp only [Prog.addrAfter, h0, h0', hop, hold]
    rfl
  · -- no command: nothing is done
    simp only [Prog.addrAfter, h0, h0', hne, hns, and_false, if_false, hold, and_self]
  · -- neither operand is in range
    have hrange (p : Prog) (h1 : p.buf 1 = payload.getD 1 0) (h2 : p.buf 2 = payload.getD 2 0)
        (h3 : p.buf 3 = payload.getD 3 0) : inRange p.operand 1024 ≠ true := by
      have hval := p.operand_toNat
      have hlow : operandLow payload
          = (p.buf 1).toNat + 256 * (p.buf 2).toNat + 65536 * (p.buf 3).toNat := by
        rw [h1, h2, h3]
        rfl
      have hhigh := (p.buf 4).toNat_lt
      rw [Ne, inRange_iff (by decide)]
      show ¬ (_ ∧ p.operand.toNat + 1024 ≤ _ ∨ _ ≤ p.operand.toNat + 1024)
      omega
    have hin : ∀ i < 4, i < payload.length := fun i hi => by omega
    have hr := hrange (commandProg d ctrl payload) (by rw [hbuf, if_pos (hin 1 (by decide))])
      (by rw [hbuf, if_pos (hin 2 (by decide))]) (by rw [hbuf, if_pos (hin 3 (by decide))])
    have hr' := hrange (commandProg d' ctrl' payload) (by rw [hbuf', if_pos (hin 1 (by decide))])
      (by rw [hbuf', if_pos (hin 2 (by decide))]) (by rw [hbuf', if_pos (hin 3 (by decide))])
    have hns : payload.getD 0 0 ≠ cmdSetaddr := by
      rw [he]
      exact cmdErase_ne_cmdSetaddr
    rw [erasedFlash_of_not_inRange hr, erasedFlash_of_not_inRange hr']
    simp only [Prog.addrAfter, h0, h0', hns, and_false, if_false, hold, and_self]

/-- A driver with a flash full of zeros whose buffer holds `x` and `y` where a command has
    the upper bytes of its operand. -/
def leftover (x y : UInt8) : Dfu :=
  { Dfu.init false { flash := fun _ => 0, sram := fun _ => 0, locked := true, ops := [] } with
    prog := { buf := fun i => if i = 3 then x else if i = 4 then y else 0, len := 0, addr := 0,
              blocknum := 0 } }

theorem leftover_same (x y x' y' : UInt8) : SameButBuffers (leftover x y) (leftover x' y') :=
  ⟨rfl, rfl, rfl, rfl, rfl⟩

@[simp] theorem leftover_flash (x y : UInt8) (a : UInt32) :
    wipedFlash (leftover x y).store.flash (leftover x y).wipes a = 0 := rfl

theorem leftover_dirty (x y : UInt8) (a : UInt32) :
    flashPageIsErased (wipedFlash (leftover x y).store.flash (leftover x y).wipes) a = false := by
  by_contra hblank
  have hff := (flashPageIsErased_iff _ _).mp (by simpa using hblank) 0 (by decide)
  rw [leftover_flash] at hff
  exact absurd hff (by decide)

/-- A short erase that is not self-contained is brought into range by some bytes left
    over. -/
theorem exists_leftover_inRange {payload : List UInt8} (hlen : payload.length ≤ 1024)
    (hshort : payload.length < 5)
    (h : payload.length ≠ 4 ∨ 0x2000 ≤ operandLow payload
      ∧ (operandLow payload ≤ 0x1FC00 ∨ 0xFFFC00 ≤ operandLow payload)) :
    ∃ x y, inRange (commandProg (leftover x y) (fun _ => 0) payload).operand 1024 = true := by
  have hbuf (x y : UInt8) := commandProg_buf (leftover x y) (fun _ => 0) hlen
  have hval (x y : UInt8) := (commandProg (leftover x y) (fun _ => 0) payload).operand_toNat
  have h4 (x y : UInt8) : (commandProg (leftover x y) (fun _ => 0) payload).buf 4 = y := by
    rw [hbuf, if_neg (by omega)]
    rfl
  have hlift {p : Prog} (hin : 0x08002000 ≤ p.operand.toNat ∧ p.operand.toNat ≤ 0x0801FC00
      ∨ 2 ^ 32 ≤ p.operand.toNat + 1024) : inRange p.operand 1024 = true := by
    rw [inRange_iff (by decide)]
    show _ ∧ p.operand.toNat + 1024 ≤ _ ∨ _ ≤ p.operand.toNat + 1024
    omega
  have h8 : (8 : UInt8).toNat = 8 := rfl
  have h255 : (255 : UInt8).toNat = 255 := rfl
  by_cases hfour : payload.length = 4
  · -- only the highest byte is left over
    obtain ⟨hlo, hhi⟩ := h.resolve_left (not_not_intro hfour)
    have hlow (x y : UInt8) : (commandProg (leftover x y) (fun _ => 0) payload).operand.toNat
        = operandLow payload + 16777216 * y.toNat := by
      rw [hval, h4, hbuf, hbuf, hbuf, if_pos (by omega), if_pos (by omega), if_pos (by omega)]
      rfl
    rcases hhi with hle | hge
    · refine ⟨0, 8, hlift ?_⟩
      rw [hlow, h8]
      omega
    · refine ⟨0, 255, hlift ?_⟩
      rw [hlow, h255]
      omega
  · -- the upper two bytes are: one of the two 64 KB halves has a page for any lower two
    have h3 (x y : UInt8) : (commandProg (leftover x y) (fun _ => 0) payload).buf 3 = x := by
      rw [hbuf, if_neg (by omega)]
      rfl
    have hsame (i : Nat) (hi : i < 3) (x y : UInt8) :
        (commandProg (leftover x y) (fun _ => 0) payload).buf i
          = (commandProg (leftover 0 0) (fun _ => 0) payload).buf i := by
      rw [hbuf, hbuf]
      have h3 : i ≠ 3 := by omega
      have h4 : i ≠ 4 := by omega
      simp only [leftover, h3, h4, if_false]
    have hlow (x y : UInt8) := hval x y
    simp only [hsame 1 (by decide), hsame 2 (by decide), h3, h4] at hlow
    have h1 := ((commandProg (leftover 0 0) (fun _ => 0) payload).buf 1).toNat_lt
    have h2 := ((commandProg (leftover 0 0) (fun _ => 0) payload).buf 2).toNat_lt
    have hzero : (0 : UInt8).toNat = 0 := rfl
    have hone : (1 : UInt8).toNat = 1 := rfl
    by_cases hle : ((commandProg (leftover 0 0) (fun _ => 0) payload).buf 1).toNat
        + 256 * ((commandProg (leftover 0 0) (fun _ => 0) payload).buf 2).toNat ≤ 0xFC00
    · refine ⟨1, 8, hlift ?_⟩
      rw [hlow, h8, hone]
      omega
    · refine ⟨0, 8, hlift ?_⟩
      rw [hlow, h8, hzero]
      omega

/-- **Short commands.**  A payload to block 0 has one effect, whatever the buffers held
    before, exactly when it carries all that is read of it. -/
theorem dependsOnPayload_iff {payload : List UInt8} (hpos : payload ≠ [])
    (hlen : payload.length ≤ 1024) : DependsOnPayload payload ↔ SelfContained payload := by
  refine ⟨fun h => ?_, fun h => h.dependsOnPayload hpos hlen⟩
  by_contra hself
  simp only [SelfContained, not_or, not_and_or, not_not, not_le, not_lt] at hself
  obtain ⟨hshort, hcmd, herase⟩ := hself
  have hhead : 0 < payload.length := List.length_pos_iff.mpr hpos
  have hbuf (x y : UInt8) := commandProg_buf (leftover x y) (fun _ => 0) hlen
  have h0 (x y : UInt8) :
      (commandProg (leftover x y) (fun _ => 0) payload).buf 0 = payload.getD 0 0 := by
    rw [hbuf, if_pos hhead]
  -- the fifth byte is always left over
  have h4 (x y : UInt8) : (commandProg (leftover x y) (fun _ => 0) payload).buf 4 = y := by
    rw [hbuf, if_neg (by omega)]
    rfl
  by_cases hs : payload.getD 0 0 = cmdSetaddr
  · -- two address pointers that differ in that byte
    have haddr := (h (leftover 0 0) (leftover 0 1) (fun _ => 0) (fun _ => 0)
      (leftover_same ..)).2
    rw [(executeCommand_eq _ _ hpos hlen).1, (executeCommand_eq _ _ hpos hlen).1, Prog.addrAfter,
      Prog.addrAfter, if_pos ⟨rfl, (h0 0 0).trans hs⟩, if_pos ⟨rfl, (h0 0 1).trans hs⟩] at haddr
    have hbyte := (word_inj.mp haddr).2.2.2
    rw [h4, h4] at hbyte
    exact absurd hbyte (by decide)
  · have he : payload.getD 0 0 = cmdErase := hcmd.resolve_right hs
    have hval (x y : UInt8) :=
      (commandProg (leftover x y) (fun _ => 0) payload).operand_toNat
    have hout : inRange (commandProg (leftover 0 0) (fun _ => 0) payload).operand 1024 ≠ true := by
      have hlow := hval 0 0
      rw [h4] at hlow
      have hzero : (0 : UInt8).toNat = 0 := rfl
      have h1 := ((commandProg (leftover 0 0) (fun _ => 0) payload).buf 1).toNat_lt
      have h2 := ((commandProg (leftover 0 0) (fun _ => 0) payload).buf 2).toNat_lt
      have h3 := ((commandProg (leftover 0 0) (fun _ => 0) payload).buf 3).toNat_lt
      rw [Ne, inRange_iff (by decide)]
      show ¬ (_ ∧ _ + 1024 ≤ _ ∨ _ ≤ _ + 1024)
      omega
    obtain ⟨x, y, hr⟩ := exists_leftover_inRange hlen (by omega)
      (herase.resolve_left (not_not_intro he))
    have hflash := (h (leftover x y) (leftover 0 0) (fun _ => 0) (fun _ => 0)
      (leftover_same ..)).1
    rw [(executeCommand_eq _ _ hpos hlen).2, (executeCommand_eq _ _ hpos hlen).2,
      if_pos ((h0 x y).trans he), if_pos ((h0 0 0).trans he), erasedFlash_of_not_inRange hout,
      erasedFlash, if_pos ⟨hr, leftover_dirty ..⟩] at hflash
    -- the erased page reads `0xFF` in one run and `0` in the other
    have hbyte := congrFun hflash (commandProg (leftover x y) (fun _ => 0) payload).operand
    rw [erasePage_of_eq rfl, leftover_flash] at hbyte
    exact absurd hbyte (by decide)

/-- A device that was sent an unknown command of five bytes before: their last four are left
    in `prog.buf`. -/
def afterUnknown : Dfu := executeCommand (leftover 0 0) (fun _ => 0) [0x00, 1, 2, 3, 4]

/-- An address command of one byte takes its operand from there. -/
theorem shortSetaddr_dependsOnLeftover : ¬ DependsOnPayload [cmdSetaddr] := by
  have hsame : SameButBuffers afterUnknown
      { afterUnknown with prog := { afterUnknown.prog with buf := fun _ => 0 } } :=
    ⟨rfl, rfl, rfl, rfl, rfl⟩
  intro h
  have haddr := (h _ _ (fun _ => 0) (fun _ => 0) hsame).2
  revert haddr
  decide +kernel

/-- The general statement at an erase of four bytes that cannot come into range. -/
theorem dependsOnPayload_shortErase :
    DependsOnPayload [cmdErase, 0, 0, 0] ↔ SelfContained [cmdErase, 0, 0, 0] :=
  dependsOnPayload_iff (by decide) (by decide)

end Stm32F1Dfu
