import Stm32F1Dfu.Reads
import Stm32F1Dfu.Records
import Stm32F1Dfu.Transfers

namespace Stm32F1Dfu

open Machine

/-!
# Nothing is left of the firmware that was there

With `ENABLE_SAFEWRITE` compiled in, two boards that differ in the application flash only
are told apart by an upload of flash data or not at all, once the first erase or block is
carried out.

* `Dev.withFlash` — the device with another flash;
* `step_withFlash` — a step that uploads no flash data and carries out no erase or block
  does the same with it;
* `usbdfuGetstatusComplete_withFlash_writes` — the first erase or block wipes what differs,
  up to the operations issued;
* `run_safeWrite` — the two runs.
-/

/-! ### Another flash -/

/-- The device with another flash. -/
def Dev.withFlash (d : Dev) (m : UInt32 → UInt8) : Dev := { d with dfu := d.dfu.withFlash m }

/-- The step copies flash data into the reply to a `DFU_UPLOAD`. -/
def Dev.UploadsFlash (d : Dev) (e : BusEvent) : Prop :=
  ∃ req, d.Hands e req ∧ uploadReads d.dfu req ≠ []

/-- The step carries out an erase or a block. -/
def Dev.Modifies (d : Dev) (e : BusEvent) : Prop :=
  d.Completes e ∧ d.dfu.state = .dnbusy ∧ d.dfu.prog.Writes

instance (d : Dev) (e : BusEvent) : Decidable (d.Modifies e) :=
  inferInstanceAs (Decidable (_ ∧ _ ∧ _))

instance (d : Dev) (e : BusEvent) : Decidable (d.UploadsFlash e) :=
  match h : d.nextRequest with
  | none => isFalse fun hup => by
      obtain ⟨req, ⟨-, -, hnext⟩, -⟩ := hup
      rw [h] at hnext
      exact absurd hnext (by simp)
  | some req =>
      decidable_of_iff (d.Hands e req ∧ uploadReads d.dfu req ≠ []) (by
        constructor
        · exact fun hup => ⟨req, hup⟩
        · rintro ⟨req', hh, hreads⟩
          obtain rfl := Option.some.inj (hh.2.2.symm.trans h)
          exact ⟨hh, hreads⟩)

/-- A completion that carries out no erase and no block does the same with another flash. -/
theorem usbdfuGetstatusComplete_withFlash {f : Dfu} (h : f.state = .dnbusy → ¬ f.prog.Writes)
    (m : UInt32 → UInt8) :
    usbdfuGetstatusComplete (f.withFlash m) = (usbdfuGetstatusComplete f).withFlash m := by
  by_cases hs : f.state = .dnbusy
  · have hs' : (f.withFlash m).state = .dnbusy := hs
    have hw' : ¬ (f.withFlash m).prog.Writes := h hs
    rw [usbdfuGetstatusComplete_of_not_writes hs' hw',
      usbdfuGetstatusComplete_of_not_writes hs (h hs)]
    rfl
  · have hs' : (f.withFlash m).state ≠ .dnbusy := hs
    rw [usbdfuGetstatusComplete_other hs', usbdfuGetstatusComplete_other hs]
    show (if f.state = .manifest then _ else _) = _
    split <;> rfl

/-! ### Before the first erase or block -/

/-- The wipe of `ENABLE_SAFEWRITE` is still to come, and the flash reads `flash`. -/
structure Unwiped (d : Dev) (flash : UInt32 → UInt8) : Prop where
  safeWrite : d.dfu.safeWrite = true
  erased : d.dfu.erased = false
  flash : d.dfu.store.flash = flash

/-- **A step** that uploads no flash data and carries out no erase or block does the same
    with another flash. -/
theorem step_withFlash {d : Dev} {e : BusEvent} (hup : ¬ d.UploadsFlash e)
    (hmod : ¬ d.Modifies e) (m : UInt32 → UInt8) :
    (d.withFlash m).step e = (d.step e).withFlash m := by
  have hstands : Stands d e (·.withFlash m) (·.withFlash m) := by
    constructor
    case reset => rfl
    case build => exact fun _ => rfl
    case request =>
      intro req hh
      have hnone : uploadReads d.dfu req = [] := by
        by_contra hreads
        exact hup ⟨req, hh, hreads⟩
      apply answers_withFlash
      rw [hnone]
      exact List.forall_mem_nil _
    case completion =>
      intro hc
      apply usbdfuGetstatusComplete_withFlash
      exact fun hs hw => hmod ⟨hc, hs, hw⟩
    case other => exact fun _ _ => rfl
  have hstep := step_driven d (·.withFlash m) [] hstands
  rw [Dev.driven_nil, Dev.driven_nil] at hstep
  exact hstep

/-- Such a step wipes nothing. -/
theorem Unwiped.step {d : Dev} {flash : UInt32 → UInt8} (h : Unwiped d flash) {e : BusEvent}
    (hmod : ¬ d.Modifies e) : Unwiped (d.step e) flash := by
  obtain ⟨hsafe, herased, hflash⟩ := h
  by_cases hc : d.Completes e
  · have hdfu := step_dfu_of_completes hc
    by_cases hs : d.dfu.state = .dnbusy
    · rw [usbdfuGetstatusComplete_of_not_writes hs fun hw => hmod ⟨hc, hs, hw⟩] at hdfu
      constructor <;> rw [hdfu] <;> assumption
    · rw [usbdfuGetstatusComplete_other hs] at hdfu
      constructor <;> rw [hdfu] <;> split <;> assumption
  · -- at most one request, which reaches neither the store nor the two flags
    obtain hsame | ⟨ctrl, req, complete, hdfu⟩ := step_dfu_of_not_completes hc
    · constructor <;> rw [hsame] <;> assumption
    · obtain ⟨hstore, -, hsafe', herased', -⟩ :=
        (usbdfuControlRequest_effect d.dfu ctrl req req.wLength complete).frame
      rw [← hdfu] at hstore hsafe' herased'
      exact ⟨hsafe'.trans hsafe, herased'.trans herased, by rw [hstore, hflash]⟩

/-! ### Other operations recorded -/

/-- The driver with other operations recorded. -/
def Dfu.withOps (f : Dfu) (ops : List StoreOp) : Dfu := { f with store := { f.store with ops } }

/-- The device with other operations recorded. -/
def Dev.withOps (d : Dev) (ops : List StoreOp) : Dev := { d with dfu := d.dfu.withOps ops }

/-- Two drivers that differ in the operations recorded are one with some recorded before. -/
theorem Dfu.withOps_onto (f : Dfu) (ops : List StoreOp) :
    f.withOps ops = (f.withOps []).onto [] ops := by
  simp [Dfu.withOps, Dfu.onto, Store.onto]

theorem Dev.withOps_onto (d : Dev) (ops : List StoreOp) :
    d.withOps ops = (d.withOps []).onto ⟨[], [], ops⟩ := by
  simp [Dev.withOps, Dfu.withOps, Dev.onto, Dfu.onto, Store.onto]

/-- What is carried out does not depend on them. -/
theorem execProg_withOps (f : Dfu) (ops : List StoreOp) :
    ∃ ops', execProg (f.withOps ops) = (execProg f).withOps ops' := by
  have hexec (ops : List StoreOp) :
      execProg (f.withOps ops) = (execProg (f.withOps [])).onto [] ops := by
    rw [Dfu.withOps_onto, execProg_onto]
  have hown : execProg f = (execProg (f.withOps [])).onto [] f.store.ops := hexec f.store.ops
  rw [hexec, hown]
  exact ⟨_, rfl⟩

/-- **A step** does not depend on them either. -/
theorem step_withOps (d : Dev) (ops : List StoreOp) (e : BusEvent) :
    ∃ ops', (d.withOps ops).step e = (d.step e).withOps ops' := by
  have hstep (ops : List StoreOp) :
      (d.withOps ops).step e = ((d.withOps []).step e).onto ⟨[], [], ops⟩ := by
    rw [Dev.withOps_onto, step_onto]
  -- the device's own operations are just some other ones
  have hown : d.step e = ((d.withOps []).step e).onto ⟨[], [], d.dfu.store.ops⟩ :=
    hstep d.dfu.store.ops
  rw [hstep, hown]
  exact ⟨_, rfl⟩

/-! ### The first erase or block -/

/-- An erase or a block may find the wipe done. -/
theorem execProg_wiped {f : Dfu} (hw : f.prog.Writes) :
    execProg f = execProg (ifdefSafeWrite f) := by
  have htwice : ifdefSafeWrite (ifdefSafeWrite f) = ifdefSafeWrite f := by
    unfold ifdefSafeWrite checkDoErase
    cases hs : f.safeWrite <;> cases he : f.erased <;> simp [hs, he]
  unfold execProg
  rw [ifdefSafeWrite_prog]
  by_cases hb : f.prog.blocknum = 0
  · have herase : f.prog.buf 0 = cmdErase := hw.resolve_left (not_not_intro hb)
    rw [if_pos hb, if_pos hb, if_pos herase, if_pos herase]
    unfold execErase
    rw [htwice]
  · rw [if_neg hb, if_neg hb]
    unfold execBlock
    rw [htwice]

/-- Stores that differ in the operations recorded only. -/
theorem Store.eq_of_flash {s s' : Store} (hflash : s'.flash = s.flash) (hsram : s'.sram = s.sram)
    (hlocked : s'.locked = s.locked) : s' = { s with ops := s'.ops } := by
  obtain ⟨flash, sram, locked, ops⟩ := s
  obtain ⟨flash', sram', locked', ops'⟩ := s'
  obtain rfl : flash' = flash := hflash
  obtain rfl : sram' = sram := hsram
  obtain rfl : locked' = locked := hlocked
  rfl

/-- **The wipe** leaves nothing of what differs in the application region. -/
theorem ifdefSafeWrite_withFlash {f : Dfu} (hu : f.store.locked = false)
    (hsafe : f.safeWrite = true) (herased : f.erased = false) {m : UInt32 → UInt8}
    (hm : ∀ a, ¬ InApp a → m a = f.store.flash a) :
    ∃ ops, ifdefSafeWrite (f.withFlash m) = (ifdefSafeWrite f).withOps ops := by
  have hwipes : f.wipes = true := by simp [Dfu.wipes, hsafe, herased]
  have hwipes' : (f.withFlash m).wipes = true := hwipes
  have hflash : (ifdefSafeWrite (f.withFlash m)).store.flash = (ifdefSafeWrite f).store.flash := by
    -- the region is blank in both, and outside the two flashes are the same
    ext b
    rw [ifdefSafeWrite_flash hu, ifdefSafeWrite_flash (d := f.withFlash m) hu, hwipes, hwipes']
    by_cases happ : InApp b
    · rw [if_pos ⟨rfl, happ⟩, if_pos ⟨rfl, happ⟩]
    · rw [if_neg fun h => happ h.2, if_neg fun h => happ h.2]
      exact congrArg _ (hm b happ)
  rw [ifdefSafeWrite_eq, if_pos hwipes', ifdefSafeWrite_eq, if_pos hwipes] at hflash ⊢
  refine ⟨(erasePages (f.withFlash m).store startAddr 120).ops, ?_⟩
  have hstore : erasePages (f.withFlash m).store startAddr 120
      = { erasePages f.store startAddr 120 with
          ops := (erasePages (f.withFlash m).store startAddr 120).ops } := by
    apply Store.eq_of_flash hflash
    · rw [erasePages_sram, erasePages_sram]
      rfl
    · rw [erasePages_locked, erasePages_locked]
      rfl
  show ({ f with store := erasePages (f.withFlash m).store startAddr 120,
                 erased := true } : Dfu) = _
  rw [hstore]
  rfl

/-- **The first erase or block** does the same whatever the application flash was, up to the
    operations that the wipe issues. -/
theorem usbdfuGetstatusComplete_withFlash_writes {f : Dfu} (hs : f.state = .dnbusy)
    (hw : f.prog.Writes) (hsafe : f.safeWrite = true) (herased : f.erased = false)
    {m : UInt32 → UInt8} (hm : ∀ a, ¬ InApp a → m a = f.store.flash a) :
    ∃ ops, usbdfuGetstatusComplete (f.withFlash m)
      = (usbdfuGetstatusComplete f).withOps ops := by
  have hs' : (f.withFlash m).state = .dnbusy := hs
  have hunlock : flashUnlock (f.withFlash m).store = (flashUnlock f.store).withFlash m := by
    show flashUnlock (f.store.withFlash m) = _
    unfold flashUnlock Store.withFlash
    split <;> rfl
  have hm' (a : UInt32) (ha : ¬ InApp a) : m a = (flashUnlock f.store).flash a := by
    rw [flashUnlock_flash]
    exact hm a ha
  obtain ⟨ops, hwipe⟩ := ifdefSafeWrite_withFlash (f := { f with store := flashUnlock f.store })
    (flashUnlock_locked f.store) hsafe herased hm'
  obtain ⟨ops', hexec⟩ := execProg_withOps (ifdefSafeWrite { f with store := flashUnlock f.store })
    ops
  refine ⟨ops', ?_⟩
  -- what comes after the wipe finds the same flash
  have hprog : execProg { f.withFlash m with store := flashUnlock (f.withFlash m).store }
      = (execProg { f with store := flashUnlock f.store }).withOps ops' := by
    rw [execProg_wiped (f := { f with store := flashUnlock f.store }) hw, ← hexec, ← hwipe,
      ← execProg_wiped (by exact hw), hunlock]
    rfl
  rw [usbdfuGetstatusComplete_dnbusy hs', usbdfuGetstatusComplete_dnbusy hs, hprog]
  rfl

/-- **The step** that carries it out. -/
theorem step_withFlash_modifies {d : Dev} {e : BusEvent} {flash m : UInt32 → UInt8}
    (h : Unwiped d flash) (hmod : d.Modifies e) (hm : ∀ a, ¬ InApp a → m a = flash a) :
    ∃ ops, (d.withFlash m).step e = (d.step e).withOps ops := by
  obtain ⟨hc, hs, hw⟩ := hmod
  obtain ⟨ops, hcomplete⟩ := usbdfuGetstatusComplete_withFlash_writes hs hw h.safeWrite h.erased
    (by rwa [h.flash])
  have hstands : Stands d e (·.withFlash m) (·.withOps ops) := by
    constructor
    case reset => rfl
    case build => exact fun _ => rfl
    case request => exact fun req hh => absurd hc (step_dfu_of_hands hh).1
    case completion => exact fun _ => hcomplete
    case other => exact fun hno => absurd hc hno
  have hstep := step_driven d (·.withOps ops) [] hstands
  rw [Dev.driven_nil, Dev.driven_nil] at hstep
  exact ⟨ops, hstep⟩

/-! ### The two runs -/

/-- Nothing tells the two devices apart: not their flash, not what they sent and recorded,
    not what the peripheral shows on the bus. -/
structure Indistinct (d d' : Dev) : Prop where
  flash : d'.dfu.store.flash = d.dfu.store.flash
  replies : d'.log = d.log
  reports : d'.dfu.log = d.dfu.log
  bus : d'.periph = d.periph

/-- **No byte survives.**  Two boards with `ENABLE_SAFEWRITE` compiled in that differ in the
    application flash only go through the same events, in which no flash data is uploaded
    before the first erase or block is carried out.  Once it is, nothing tells them apart. -/
theorem run_safeWrite {b : Board} (hsafe : b.safeWrite = true) {m : UInt32 → UInt8}
    (hm : ∀ a, ¬ InApp a → m a = b.flash a) {evs : List BusEvent}
    (huntil : Until Dev.step (fun d e => ¬ d.UploadsFlash e) Dev.Modifies (Dev.init b) evs)
    (hcomes : ¬ AllSteps Dev.step (fun d e => ¬ d.Modifies e) (Dev.init b) evs) :
    Indistinct ((Dev.init b).run evs) ((Dev.init { b with flash := m }).run evs) := by
  have hinit : Dev.init { b with flash := m } = (Dev.init b).withFlash m := rfl
  have hunwiped : Unwiped (Dev.init b) b.flash := ⟨hsafe, rfl, rfl⟩
  -- up to the first erase or block the runs differ in the flash, from then on in the operations
  have hbefore (d d' : Dev) (e : BusEvent) (h : Unwiped d b.flash ∧ d' = d.withFlash m)
      (hup : ¬ d.UploadsFlash e) (hmod : ¬ d.Modifies e) :
      Unwiped (d.step e) b.flash ∧ d'.step e = (d.step e).withFlash m := by
    obtain ⟨h, rfl⟩ := h
    exact ⟨h.step hmod, step_withFlash hup hmod m⟩
  have hmeet (d d' : Dev) (e : BusEvent) (h : Unwiped d b.flash ∧ d' = d.withFlash m)
      (hmod : d.Modifies e) : ∃ ops, d'.step e = (d.step e).withOps ops := by
    obtain ⟨h, rfl⟩ := h
    exact step_withFlash_modifies h hmod hm
  have hafter (d d' : Dev) (e : BusEvent) (h : ∃ ops, d' = d.withOps ops) :
      ∃ ops, d'.step e = (d.step e).withOps ops := by
    obtain ⟨ops, rfl⟩ := h
    exact step_withOps d ops e
  obtain ⟨ops, hrun⟩ := run_related_until (R := fun d d' => Unwiped d b.flash ∧ d' = d.withFlash m)
    (S := fun d d' => ∃ ops, d' = d.withOps ops) hbefore hmeet hafter ⟨hunwiped, hinit⟩ huntil
    hcomes
  rw [Dev.run, Dev.run, hrun]
  exact ⟨rfl, rfl, rfl, rfl⟩

/-- A board with `ENABLE_SAFEWRITE` compiled in. -/
def safeBoard : Board := { blankBoard with safeWrite := true }

/-- A host has the first page erased and then uploads the next one. -/
def eraseThenUpload : List BusEvent :=
  session (dnloadPackets 0 (commandBytes cmdErase 0x08002000) ++ getstatusPackets
    ++ dnloadPackets 0 (commandBytes cmdSetaddr 0x08002000) ++ getstatusPackets
    ++ [.setup (dfuRequest 0xA1 2 3 1024)] ++ List.replicate 16 .ack)

/-- A firmware and a blank flash are not told apart by it. -/
theorem eraseThenUpload_safeWrite :
    Indistinct ((Dev.init safeBoard).run eraseThenUpload)
      ((Dev.init { safeBoard with flash := fun a => if InApp a then 0x5A else 0xFF }).run
        eraseThenUpload) :=
  run_safeWrite rfl (fun _ ha => if_neg ha) (by decide +kernel) (by decide +kernel)

end Stm32F1Dfu
