import Stm32F1Dfu.Region
import Stm32F1Dfu.Protocol
import Stm32F1Dfu.Startup
import Stm32F1Dfu.TornUpdate

namespace Stm32F1Dfu

open LittleEndian

/-!
# The life of a device

One board over any number of resets and power cuts: it boots, serves the USB host, or runs the
application, and the flash, the SPI SRAM and the word at `_stack` go on from one to the next.

* `Life.step` — one event: a boot, an event of the USB loop, what the application does, a reset
  or a power cut in the middle of any of them;
* `main_recorded`, `step_recorded` — boot and USB loop change the stores by the operations they
  record, so that a cut leaves what the older ones make of them;
* `Chip.boot_eq` — a boot in terms of `main` and the reboot word;
* `life_region_kept` — the flash outside the application region.
-/

/-! ### The board -/

/-- What no event changes: how the program is linked and built, and the chip's identity. -/
structure Chip where
  layout : Layout
  uniqueId : Nat → UInt8
  safeWrite : Bool

/-- What a boot finds in memories that nothing initializes. -/
structure Memories where
  ram : UInt32 → UInt8
  /-- memory behind `usbd_control_buffer` -/
  behind : Nat → UInt8
  /-- the packet memory -/
  pm : Nat → UInt16

/-- The memory as the processor addresses it. -/
def addressSpace (s : Store) (ram : UInt32 → UInt8) : UInt32 → UInt8 := fun a =>
  if flashBaseAddr ≤ a ∧ a < endAddr then s.flash a else ram a

/-- The memory when `main` is called. -/
def Chip.memory (c : Chip) (mem : Memories) (s : Store) (word : UInt32) :
    Option (UInt32 → UInt8) :=
  resetHandler 5118 c.layout (storeWord (addressSpace s mem.ram) stackAddr word)

/-- From reset to the end of the boot decision: the outcome, the stores, and the word that is
    left at `_stack`. -/
def Chip.boot (c : Chip) (pin : Bool) (mem : Memories) (s : Store) (word : UInt32) :
    Option (BootOutcome × Store × UInt32) :=
  match c.memory mem s word with
  | none   => none
  | some m =>
      (main 122880 { rebootWord := wordAt m stackAddr, forceDfuGpio := pin } s).map fun (o, s') =>
        match o with
        | .reset | .jump => (o, s', wordAt (clearRebootFlags m) stackAddr)
        | .dfu           => (o, s', wordAt m stackAddr)

/-- The board as the USB loop finds it. -/
def Chip.board (c : Chip) (mem : Memories) (s : Store) : Board where
  flash := s.flash
  sram := s.sram
  locked := s.locked
  ram := mem.behind
  pm := mem.pm
  uniqueId := c.uniqueId
  safeWrite := c.safeWrite

/-! ### Events -/

/-- What stops the processor: a reset leaves the RAM as it is, a power cut leaves anything. -/
inductive Loss where
  | reset
  | power (word : UInt32)

/-- The word at `_stack` afterwards. -/
def Loss.word : Loss → UInt32 → UInt32
  | .reset, word   => word
  | .power word, _ => word

/-- What the device is doing. -/
inductive Life where
  /-- it comes out of reset -/
  | start (s : Store) (word : UInt32)
  /-- it is in the USB loop -/
  | usb (d : Dev) (word : UInt32)
  /-- the application runs -/
  | app (s : Store) (word : UInt32)

inductive LifeEvent where
  /-- the processor runs from reset to the end of the boot decision -/
  | boot (pin : Bool) (mem : Memories)
  /-- a boot that is stopped after `k` operations on the stores -/
  | bootLost (pin : Bool) (mem : Memories) (k : Nat) (loss : Loss)
  /-- an event of the USB loop -/
  | usb (e : BusEvent)
  /-- an event whose handling is stopped after `k` operations -/
  | usbLost (e : BusEvent) (k : Nat) (loss : Loss)
  /-- the application works on the stores and leaves a word -/
  | app (ops : List StoreOp) (word : UInt32)
  /-- a reset or a power cut while nothing is under way -/
  | lost (loss : Loss)

def Life.store : Life → Store
  | .start s _ => s
  | .usb d _   => d.dfu.store
  | .app s _   => s

def Life.word : Life → UInt32
  | .start _ word => word
  | .usb _ word   => word
  | .app _ word   => word

/-- The operations issued between two stores, newest first. -/
def Store.newOps (s s' : Store) : List StoreOp := s'.ops.take (s'.ops.length - s.ops.length)

/-- The oldest `k` of them, which a cut after `k` operations leaves done. -/
def Store.doneOps (s s' : Store) (k : Nat) : List StoreOp :=
  (s.newOps s').drop ((s.newOps s').length - k)

/-- The stores out of reset. -/
def Life.restart (s : Store) (word : UInt32) : Life := .start s.powerUp word

/-- One event; what the device does not take part in leaves it alone. -/
def Life.step (c : Chip) : Life → LifeEvent → Life
  | .start s word, .boot pin mem =>
      match c.boot pin mem s word with
      | none                   => .start s word
      | some (.reset, s', w) => .restart s' w
      | some (.jump, s', w)  => .app s' w
      | some (.dfu, s', w)   => .usb (Dev.init (c.board mem s')) w
  | .start s word, .bootLost pin mem k loss =>
      match c.boot pin mem s word with
      | none             => .start s word
      | some (_, s', _) => .restart (replay (s.doneOps s' k) s) (loss.word word)
  | .usb d word, .usb e =>
      -- `usbdfu_getstatus_complete` clears the word before it resets
      if (d.step e).dfu.reset then .restart (d.step e).dfu.store 0 else .usb (d.step e) word
  | .usb d word, .usbLost e k loss =>
      .restart (replay (d.dfu.store.doneOps (d.step e).dfu.store k) d.dfu.store) (loss.word word)
  | .app s _, .app ops word => .app (replay ops s) word
  | l, .lost loss => .restart l.store (loss.word l.word)
  | l, _ => l

/-- The life of a device after the events `evs`. -/
def Life.run (c : Chip) (l : Life) (evs : List LifeEvent) : Life := Machine.run (Life.step c) l evs

@[simp] theorem Life.run_nil (c : Chip) (l : Life) : l.run c [] = l := rfl

theorem Life.run_cons (c : Chip) (l : Life) (e : LifeEvent) (evs : List LifeEvent) :
    l.run c (e :: evs) = (l.step c e).run c evs := rfl

theorem Life.run_append (c : Chip) (l : Life) (evs evs' : List LifeEvent) :
    l.run c (evs ++ evs') = (l.run c evs).run c evs' := Machine.run_append ..

/-! ### The stores are what the operations make of them -/

/-- What became of the stores is what the operations recorded since make of them, and these
    meet `P`. -/
def Store.Recorded (P : StoreOp → Prop) (s s' : Store) : Prop :=
  ∃ new, Issued s new s' ∧ ∀ op ∈ new, P op

namespace Store.Recorded

variable {P : StoreOp → Prop} {s s' : Store}

theorem refl (P : StoreOp → Prop) (s : Store) : s.Recorded P s :=
  ⟨[], ⟨rfl, rfl, rfl⟩, fun _ hop => absurd hop List.not_mem_nil⟩

theorem issue (h : s.Recorded P s') {op : StoreOp} (hop : P op) : s.Recorded P (s'.issue op) := by
  obtain ⟨new, hnew, hall⟩ := h
  refine ⟨op :: new, hnew.issue op, fun op' hop' => ?_⟩
  rcases List.mem_cons.mp hop' with rfl | hold
  · exact hop
  · exact hall op' hold

theorem flashUnlock (h : s.Recorded P s') : s.Recorded P (flashUnlock s') := by
  obtain ⟨new, ⟨hops, hflash, hsram⟩, hall⟩ := h
  exact ⟨new, ⟨by simpa using hops, by simpa using hflash, by simpa using hsram⟩, hall⟩

theorem flashLock (h : s.Recorded P s') : s.Recorded P (flashLock s') := by
  obtain ⟨new, ⟨hops, hflash, hsram⟩, hall⟩ := h
  exact ⟨new, ⟨hops, hflash, hsram⟩, hall⟩

theorem eraseIfDirty (h : s.Recorded P s') {a : UInt32} (hop : P (.erase a)) :
    s.Recorded P (eraseIfDirty s' a) := by
  unfold Stm32F1Dfu.eraseIfDirty flashErasePage
  split
  · split
    · exact h
    · exact h.issue hop
  · exact h

theorem erasePages (h : s.Recorded P s') {a : UInt32} {n : Nat}
    (hop : ∀ i < n, P (.erase (a + 1024 * UInt32.ofNat i))) :
    s.Recorded P (erasePages s' a n) := by
  induction n with
  | zero => exact h
  | succ n ih =>
    exact (ih fun i hi => hop i (Nat.lt_succ_of_lt hi)).eraseIfDirty (hop n (Nat.lt_succ_self n))

theorem spiSramWrite (h : s.Recorded P s') (hop : ∀ a v, P (.sramWrite a v)) (a : UInt32)
    (bytes : List UInt8) : s.Recorded P (spiSramWrite s' a bytes) := by
  induction bytes generalizing s' a with
  | nil => exact h
  | cons byte rest ih => exact ih (h.issue (hop a byte)) (a + 1)

theorem flashProgramLoop (h : s.Recorded P s') {a : UInt32} {n : Nat} (data : Nat → UInt8)
    (hop : ∀ i < n, ∀ v, P (.program (a + 2 * UInt32.ofNat i) v)) :
    s.Recorded P (flashProgramLoop s' a data n) := by
  induction n with
  | zero => exact h
  | succ n ih =>
    have hprev := ih fun i hi => hop i (Nat.lt_succ_of_lt hi)
    rw [Stm32F1Dfu.flashProgramLoop]
    unfold flashProgramHalf
    split
    · exact hprev
    · exact hprev.issue (hop n (Nat.lt_succ_self n) _)

/-- The operations recorded since are those counted off the record. -/
theorem newOps (h : s.Recorded P s') : Issued s (s.newOps s') s' ∧ ∀ op ∈ s.newOps s', P op := by
  obtain ⟨new, hnew, hall⟩ := h
  have heq : s.newOps s' = new := by
    rw [Store.newOps, hnew.ops, List.length_append, Nat.add_sub_cancel, List.take_left']
    rfl
  rw [heq]
  exact ⟨hnew, hall⟩

end Store.Recorded

/-- A byte that no operation touches keeps its value. -/
theorem replay_flash_of_not_touches {ops : List StoreOp} {s : Store} {b : UInt32}
    (h : ∀ op ∈ ops, ¬ op.Touches b) : (replay ops s).flash b = s.flash b := by
  induction ops with
  | nil => rfl
  | cons op older ih =>
    rw [replay, StoreOp.apply_flash_of_not_touches (h op List.mem_cons_self)]
    exact ih fun op' hop => h op' (List.mem_cons_of_mem _ hop)

/-- The operations done are the oldest of those recorded. -/
theorem doneOps_suffix (s s' : Store) (k : Nat) : s.doneOps s' k <:+ s.newOps s' :=
  List.drop_suffix _ _

/-- A byte that no operation recorded touches keeps its value, also where a cut leaves the
    stores in between. -/
theorem Store.Recorded.flash_frame {s s' : Store} {b : UInt32}
    (h : s.Recorded (fun op => ¬ op.Touches b) s') :
    s'.flash b = s.flash b ∧ ∀ k, (replay (s.doneOps s' k) s).flash b = s.flash b := by
  obtain ⟨hissued, hall⟩ := h.newOps
  refine ⟨?_, fun k => ?_⟩
  · rw [hissued.flash]
    exact replay_flash_of_not_touches hall
  · exact replay_flash_of_not_touches fun op hop => hall op ((doneOps_suffix s s' k).mem hop)

theorem Store.Recorded.mono {P Q : StoreOp → Prop} (hpq : ∀ op, P op → Q op) {s s' : Store}
    (h : s.Recorded P s') : s.Recorded Q s' := by
  obtain ⟨new, hnew, hall⟩ := h
  exact ⟨new, hnew, fun op hop => hpq op (hall op hop)⟩

/-! ### The boot -/

/-- **A boot** is `main` with the word that was there before the reset. -/
theorem Chip.boot_eq (c : Chip) (pin : Bool) (mem : Memories) (s : Store) (word : UInt32) :
    c.boot pin mem s word
      = (main 122880 { rebootWord := word, forceDfuGpio := pin } s).map fun (o, s') =>
          (o, s', if o = .dfu then word else 0) := by
  obtain ⟨m, hm, hword⟩ := resetHandler_rebootWord c.layout
    (storeWord (addressSpace s mem.ram) stackAddr word) (Nat.le_refl 5118)
  rw [wordAt_storeWord] at hword
  unfold Chip.boot Chip.memory
  rw [hm]
  simp only [hword]
  congr 1
  funext ⟨o, s'⟩
  cases o <;> simp [clearRebootFlags]

/-- A boot without a valid image decides on the flash, and leaves the stores alone. -/
theorem Chip.boot_of_invalid (c : Chip) (pin : Bool) (mem : Memories) {s : Store} (word : UInt32)
    (h : sramHasValidImage s = false) :
    c.boot pin mem s word
      = if !(word == 0xCC00FFEE || pin) && bootGate s.flash then some (.jump, s, 0)
        else some (.dfu, s, word) := by
  have hcases (jump : Bool) :
      (some (if jump then .jump else .dfu, s) : Option (BootOutcome × Store)).map
          (fun (o, s') => (o, s', if o = .dfu then word else 0))
        = if jump then some (.jump, s, 0) else some (.dfu, s, word) := by
    cases jump <;> rfl
  rw [Chip.boot_eq, main_of_invalid h]
  exact hcases _

/-- A boot with a valid image programs it. -/
theorem Chip.boot_of_valid (c : Chip) (pin : Bool) (mem : Memories) {s : Store} (word : UInt32)
    (h : ValidImage s) :
    c.boot pin mem s word = some (.reset, s.programmed (s.imgSize / 2), 0) := by
  rw [Chip.boot_eq, main_of_valid h _ (Nat.le_refl _)]
  rfl

/-- **The update** touches the pages of the image only. -/
theorem programmed_recorded {s : Store} (h : ValidImage s) {k : Nat} (hk : 2 * k ≤ s.imgSize) :
    s.Recorded (fun op => ∀ b, op.Touches b → s.InPages b) (s.programmed k) := by
  obtain ⟨hpages, hsize⟩ := h.pages
  have hoff (j : Nat) (hj : j < s.imgSize) : s.InPages (appAddress + UInt32.ofNat j) := by
    rw [Store.InPages, toNat_add_ofNat (by rw [appAddress_toNat]; omega), appAddress_toNat]
    omega
  unfold Store.programmed Store.prepared clearHeader
  refine .flashProgramLoop (.spiSramWrite (.erasePages (.flashUnlock (.refl _ s)) ?_) ?_ _ _) _ ?_
  · intro i hi b hb
    have haddr := pageAddr_toNat (a := appAddress) (n := pagesOf s.imgSize)
      (by rw [appAddress_toNat]; omega) hi
    rw [appAddress_toNat] at haddr
    simp only [StoreOp.Touches, pageOf, haddr] at hb
    rw [Store.InPages, appAddress_toNat]
    omega
  · intro a v b hb
    exact hb.elim
  · intro i hi v b hb
    rw [StoreOp.Touches, halfAddr_low, offset_succ] at hb
    rcases hb with rfl | rfl
    · exact hoff _ (by omega)
    · exact hoff _ (by omega)

/-- The pages of a valid image belong to the application region. -/
theorem ValidImage.inApp {s : Store} (h : ValidImage s) {b : UInt32} (hb : s.InPages b) :
    InApp b := by
  obtain ⟨hpages, hsize⟩ := h.pages
  rw [Store.InPages, appAddress_toNat] at hb
  rw [inApp_iff]
  omega

/-- Every boot ends, and works on the application region only. -/
theorem Chip.boot_recorded (c : Chip) (pin : Bool) (mem : Memories) (s : Store) (word : UInt32) :
    ∃ o s' w, c.boot pin mem s word = some (o, s', w) ∧ s.Recorded StoreOp.InApp s' := by
  cases hvalid : sramHasValidImage s with
  | false =>
    rw [c.boot_of_invalid pin mem word hvalid]
    split
    · exact ⟨_, _, _, rfl, .refl _ s⟩
    · exact ⟨_, _, _, rfl, .refl _ s⟩
  | true =>
    have h := (sramHasValidImage_iff s).mp hvalid
    refine ⟨_, _, _, c.boot_of_valid pin mem word h, ?_⟩
    exact (programmed_recorded h (by omega)).mono fun op hop b hb => h.inApp (hop b hb)

/-! ### Boots as events -/

/-- A boot with a valid image. -/
theorem Life.step_boot_of_valid (c : Chip) (pin : Bool) (mem : Memories) {s : Store} (word : UInt32)
    (h : ValidImage s) :
    (Life.start s word).step c (.boot pin mem) = .restart (s.programmed (s.imgSize / 2)) 0 := by
  rw [Life.step, c.boot_of_valid pin mem word h]

/-- A boot without one. -/
theorem Life.step_boot_of_invalid (c : Chip) (pin : Bool) (mem : Memories) {s : Store}
    (word : UInt32) (h : sramHasValidImage s = false) :
    (Life.start s word).step c (.boot pin mem)
      = if !(word == 0xCC00FFEE || pin) && bootGate s.flash then .app s 0
        else .usb (Dev.init (c.board mem s)) word := by
  rw [Life.step, c.boot_of_invalid pin mem word h]
  cases !(word == 0xCC00FFEE || pin) && bootGate s.flash <;> rfl

/-- A boot with a valid image that is stopped. -/
theorem Life.step_bootLost_of_valid (c : Chip) (pin : Bool) (mem : Memories) {s : Store}
    (word : UInt32) (h : ValidImage s) (k : Nat) (loss : Loss) :
    (Life.start s word).step c (.bootLost pin mem k loss)
      = .restart (replay (s.doneOps (s.programmed (s.imgSize / 2)) k) s) (loss.word word) := by
  rw [Life.step, c.boot_of_valid pin mem word h]

/-- Without one there is nothing to be stopped in. -/
theorem Life.step_bootLost_of_invalid (c : Chip) (pin : Bool) (mem : Memories) {s : Store}
    (word : UInt32) (h : sramHasValidImage s = false) (k : Nat) (loss : Loss) :
    (Life.start s word).step c (.bootLost pin mem k loss) = .restart s (loss.word word) := by
  have hdone : s.doneOps s k = [] := by
    rw [Store.doneOps, Store.newOps, Nat.sub_self, List.take_zero, List.drop_nil]
  rw [Life.step, c.boot_of_invalid pin mem word h]
  cases !(word == 0xCC00FFEE || pin) && bootGate s.flash <;>
    · show Life.restart (replay (s.doneOps s k) s) _ = _
      rw [hdone]
      rfl

/-! ### The USB loop -/

/-- The operation is one of the flash. -/
def StoreOp.OnFlash (op : StoreOp) : Prop := op.isSramWrite = false

/-- A stored download is carried out by the operations on the flash it records. -/
theorem execProg_recorded {d : Dfu} {s : Store} (h : s.Recorded StoreOp.OnFlash d.store) :
    s.Recorded StoreOp.OnFlash (execProg d).store := by
  have hwipe : s.Recorded StoreOp.OnFlash (ifdefSafeWrite d).store := by
    rw [ifdefSafeWrite_eq]
    split
    · exact h.erasePages fun _ _ => rfl
    · exact h
  unfold execProg
  split
  · split
    · rw [execErase_store]
      split
      · exact hwipe.eraseIfDirty rfl
      · exact hwipe
    · split
      · exact h
      · exact h
  · rw [execBlock_store]
    split
    · exact (hwipe.eraseIfDirty rfl).flashProgramLoop _ fun _ _ _ => rfl
    · exact hwipe

/-- **A step of the USB loop** changes the stores by the operations on the flash it records. -/
theorem step_recorded (d : Dev) (e : BusEvent) :
    d.dfu.store.Recorded StoreOp.OnFlash (d.step e).dfu.store := by
  rcases step_dfu d e with h | h | ⟨ctrl, req, complete, h⟩ <;> rw [h]
  · by_cases hs : d.dfu.state = .dnbusy
    · rw [usbdfuGetstatusComplete_dnbusy hs]
      exact (execProg_recorded (d := { d.dfu with store := flashUnlock d.dfu.store })
        (Store.Recorded.refl _ _).flashUnlock).flashLock
    · rw [usbdfuGetstatusComplete_other hs]
      split
      · exact .refl _ _
      · exact .refl _ _
  · exact .refl _ _
  · rw [usbdfuControlRequest_store]
    exact .refl _ _

/-- Operations on the flash leave the SRAM alone. -/
theorem replay_sram_of_onFlash {ops : List StoreOp} {s : Store} (h : ∀ op ∈ ops, op.OnFlash) :
    (replay ops s).sram = s.sram := by
  induction ops with
  | nil => rfl
  | cons op older ih =>
    have hrest := ih fun op' hop => h op' (List.mem_cons_of_mem _ hop)
    cases op with
    | erase a => exact hrest
    | program a v => exact hrest
    | sramWrite a v =>
      have hno : true = false := h (.sramWrite a v) List.mem_cons_self
      exact absurd hno (by decide)

/-- The USB loop leaves the SRAM alone, also where a cut leaves the stores in between. -/
theorem step_sram (d : Dev) (e : BusEvent) :
    (d.step e).dfu.store.sram = d.dfu.store.sram
      ∧ ∀ k, (replay (d.dfu.store.doneOps (d.step e).dfu.store k) d.dfu.store).sram
          = d.dfu.store.sram := by
  obtain ⟨hissued, hall⟩ := (step_recorded d e).newOps
  refine ⟨?_, fun k => ?_⟩
  · rw [hissued.sram]
    exact replay_sram_of_onFlash hall
  · exact replay_sram_of_onFlash fun op hop => hall op ((doneOps_suffix _ _ k).mem hop)

/-- **A session** in the life of a device: it ends in the USB loop, or where the device has
    reset itself. -/
theorem Life.run_usb (c : Chip) {d : Dev} (word : UInt32) (evs : List BusEvent)
    (hrun : d.dfu.reset = false) :
    (Life.usb d word).run c (evs.map .usb)
      = if (d.run evs).dfu.reset then .restart (d.run evs).dfu.store 0
        else .usb (d.run evs) word := by
  have hstart (s : Store) (evs : List BusEvent) :
      (Life.restart s 0).run c (evs.map .usb) = .restart s 0 := by
    induction evs with
    | nil => rfl
    | cons e evs ih => exact ih
  induction evs generalizing d with
  | nil =>
    show Life.usb d word = if d.dfu.reset then Life.restart d.dfu.store 0 else .usb d word
    rw [hrun]
    rfl
  | cons e evs ih =>
    rw [Dev.run_cons, List.map_cons, Life.run_cons]
    cases hreset : (d.step e).dfu.reset with
    | false =>
      have hnext : (Life.usb d word).step c (.usb e) = .usb (d.step e) word := by
        simp [Life.step, hreset]
      rw [hnext]
      exact ih hreset
    | true =>
      -- neither side takes part any more
      have hnext : (Life.usb d word).step c (.usb e) = .restart (d.step e).dfu.store 0 := by
        simp [Life.step, hreset]
      rw [hnext, run_of_reset hreset, hreset, if_pos rfl]
      exact hstart _ evs

/-- A boot into the USB loop and a session there in which the device resets itself. -/
theorem Life.run_session (c : Chip) (pin : Bool) (mem : Memories) (s : Store) (word : UInt32)
    (hboot : (Life.start s word).step c (.boot pin mem) = .usb (Dev.init (c.board mem s)) word)
    {evs : List BusEvent}
    (hreset : ((Dev.init (c.board mem s)).run evs).dfu.reset = true) :
    (Life.start s word).run c (.boot pin mem :: evs.map .usb)
      = .restart ((Dev.init (c.board mem s)).run evs).dfu.store 0 := by
  have husb := Life.run_usb c (d := Dev.init (c.board mem s)) word evs rfl
  rw [hreset, if_pos rfl] at husb
  rw [Life.run_cons, hboot]
  exact husb

/-! ### The flash outside the application region -/

/-- A step of the USB loop that meets the condition on ranges works on the application region
    only. -/
theorem step_recorded_inApp {d : Dev} {e : BusEvent} (hlen : d.dfu.LenOk)
    (hconf : d.dfu.store.Confined) (hrange : RangeExactStep d e) :
    d.dfu.store.Recorded StoreOp.InApp (d.step e).dfu.store := by
  obtain ⟨new, hissued, -⟩ := step_recorded d e
  have hafter := (step_confined hlen e).mpr ⟨hconf, hrange⟩
  refine ⟨new, hissued, fun op hop => hafter op ?_⟩
  rw [hissued.ops]
  exact List.mem_append_left _ hop

/-- The event is one of a sound life: a download the USB loop carries out has an exact range,
    and the application keeps to its region of the flash. -/
def Life.Sound : Life → LifeEvent → Prop
  | .usb d _, .usb e         => RangeExactStep d e
  | .usb d _, .usbLost e _ _ => RangeExactStep d e
  | .app _ _, .app ops _     => ∀ op ∈ ops, op.InApp
  | _, _                     => True

/-- What the USB loop keeps for the condition on ranges to be exact. -/
def Life.LoopOk : Life → Prop
  | .usb d _ => d.dfu.LenOk ∧ d.dfu.store.Confined
  | _        => True

theorem loopOk_init (b : Board) (word : UInt32) : (Life.usb (Dev.init b) word).LoopOk :=
  ⟨fun h => by simp [Dev.init, Dfu.init] at h, fun _ hop => absurd hop List.not_mem_nil⟩

/-- An operation of the application region leaves the rest alone. -/
theorem Store.Recorded.outside {s s' : Store} (h : s.Recorded StoreOp.InApp s') {b : UInt32}
    (hb : ¬ InApp b) :
    s'.flash b = s.flash b ∧ ∀ k, (replay (s.doneOps s' k) s).flash b = s.flash b := by
  apply Store.Recorded.flash_frame
  refine h.mono fun op hop => ?_
  exact fun ht => hb (hop b ht)

/-- **One event** of a sound life. -/
theorem Life.step_sound {c : Chip} {l : Life} {e : LifeEvent} (hloop : l.LoopOk)
    (hsound : l.Sound e) :
    (l.step c e).LoopOk ∧ ∀ b, ¬ InApp b → (l.step c e).store.flash b = l.store.flash b := by
  have hlost (s : Store) (word : UInt32) (hs : ∀ b, ¬ InApp b → s.flash b = l.store.flash b) :
      (Life.restart s word).LoopOk
        ∧ ∀ b, ¬ InApp b → (Life.restart s word).store.flash b = l.store.flash b := ⟨trivial, hs⟩
  have hstay : l.LoopOk ∧ ∀ b, ¬ InApp b → l.store.flash b = l.store.flash b :=
    ⟨hloop, fun _ _ => rfl⟩
  cases l with
  | start s word =>
    cases e with
    | boot pin mem =>
      obtain ⟨o, s', w, hboot, hrec⟩ := c.boot_recorded pin mem s word
      have hout (b : UInt32) (hb : ¬ InApp b) := (hrec.outside hb).1
      simp only [Life.step, hboot]
      cases o with
      | reset => exact hlost s' w hout
      | jump => exact ⟨trivial, hout⟩
      | dfu => exact ⟨loopOk_init _ w, hout⟩
    | bootLost pin mem k loss =>
      obtain ⟨o, s', w, hboot, hrec⟩ := c.boot_recorded pin mem s word
      simp only [Life.step, hboot]
      exact hlost _ _ fun b hb => (hrec.outside hb).2 k
    | lost loss => exact hlost s _ fun _ _ => rfl
    | usb _ | usbLost _ _ _ | app _ _ => exact hstay
  | usb d word =>
    obtain ⟨hlen, hconf⟩ := hloop
    cases e with
    | usb e =>
      have hrec := step_recorded_inApp hlen hconf hsound
      have hout (b : UInt32) (hb : ¬ InApp b) := (hrec.outside hb).1
      simp only [Life.step]
      split
      · exact hlost _ 0 hout
      · exact ⟨⟨run_lenOk hlen [e], (step_confined hlen e).mpr ⟨hconf, hsound⟩⟩, hout⟩
    | usbLost e k loss =>
      have hrec := step_recorded_inApp hlen hconf hsound
      exact hlost _ _ fun b hb => (hrec.outside hb).2 k
    | lost loss => exact hlost d.dfu.store _ fun _ _ => rfl
    | boot _ _ | bootLost _ _ _ _ | app _ _ => exact hstay
  | app s word =>
    cases e with
    | app ops w =>
      exact ⟨trivial,
        fun b hb => replay_flash_of_not_touches fun op hop ht => hb (hsound op hop b ht)⟩
    | lost loss => exact hlost s _ fun _ _ => rfl
    | boot _ _ | bootLost _ _ _ _ | usb _ | usbLost _ _ _ => exact hstay

/-- **The bootloader outlives everything.**  Over any number of boots, updates, downloads,
    resets and power cuts, wherever they fall, the flash outside the application region keeps
    its contents, as long as no download is carried out whose range ends at or past 2³² and the
    application does not write there itself. -/
theorem life_region_kept (c : Chip) (s : Store) (word : UInt32) (evs : List LifeEvent)
    (hsound : Machine.AllSteps (Life.step c) Life.Sound (.start s word) evs) (b : UInt32)
    (hb : ¬ InApp b) : ((Life.start s word).run c evs).store.flash b = s.flash b := by
  have hstep (l : Life) (e : LifeEvent)
      (h : l.LoopOk ∧ ∀ b, ¬ InApp b → l.store.flash b = s.flash b) (hsound : l.Sound e) :
      (l.step c e).LoopOk ∧ ∀ b, ¬ InApp b → (l.step c e).store.flash b = s.flash b := by
    obtain ⟨hloop, hkeep⟩ := Life.step_sound (c := c) h.1 hsound
    exact ⟨hloop, fun b hb => (hkeep b hb).trans (h.2 b hb)⟩
  have h0 : (Life.start s word).LoopOk
      ∧ ∀ b, ¬ InApp b → (Life.start s word).store.flash b = s.flash b := ⟨trivial, fun _ _ => rfl⟩
  exact (Machine.run_invariant hstep h0 hsound).2 b hb

/-- A board for runs on fixed inputs. -/
def someChip : Chip where
  layout := smallLayout
  uniqueId := fun _ => 0
  safeWrite := false

def noMemories : Memories where
  ram := fun _ => 0
  behind := fun _ => 0
  pm := fun _ => 0

/-- An update interrupted once, its reset, the application at work, and a session of the USB
    loop that it asks for. -/
def busyLife : List LifeEvent :=
  [.bootLost false noMemories 9 (.power 0), .boot false noMemories, .boot false noMemories,
   .app [.program 0x08003000 0x55AA] 0xCC00FFEE, .lost .reset, .boot false noMemories,
   .usb .busReset]

theorem life_region_kept_busyLife :
    ((Life.start elevenWords 0).run someChip busyLife).store.flash 0x08000000
      = elevenWords.flash 0x08000000 := by
  have hboot (l : Life) : l.Sound (.boot false noMemories) := by
    cases l <;> trivial
  have hcut (l : Life) : l.Sound (.bootLost false noMemories 9 (.power 0)) := by
    cases l <;> trivial
  have hlost (l : Life) : l.Sound (.lost .reset) := by
    cases l <;> trivial
  have happ (l : Life) : l.Sound (.app [.program 0x08003000 0x55AA] 0xCC00FFEE) := by
    cases l with
    | app s word =>
      intro op hop
      rw [List.mem_singleton.mp hop, StoreOp.program_inApp]
      decide
    | start _ _ | usb _ _ => trivial
  have hreset (l : Life) : l.Sound (.usb .busReset) := by
    cases l with
    | usb d word => exact fun hc => absurd hc.2.1 (by decide)
    | start _ _ | app _ _ => trivial
  have hall (l : Life) : Machine.AllSteps (Life.step someChip) Life.Sound l busyLife :=
    ⟨hcut _, hboot _, hboot _, happ _, hlost _, hboot _, hreset _, trivial⟩
  exact life_region_kept someChip elevenWords 0 busyLife (hall _) 0x08000000 (by decide)

end Stm32F1Dfu
