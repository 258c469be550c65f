import Stm32F1Dfu.Flash
import Stm32F1Dfu.Lib.Machine
import Stm32F1Dfu.Lib.WordBits

namespace Stm32F1Dfu

open LittleEndian Machine WordBits

/-!
# `flash.c` on the registers

The flash controller by its registers, and the routines of `flash.c` as they write them and wait
for `FLASH_SR_BSY`.  How long an operation takes is left open.  The controller notes an access it
does not allow: a register or flash write while it is busy, a key out of turn, a start without a
page erase, a flash write without `PG`.

* `Fpec.flashErasePage`, `Fpec.flashProgramBuffer`, … — the routines;
* `Fpec.Rest` — the controller between two routines, and the stores it stands for;
* `erasePage_rest`, `programLoop_rest`, … — what a routine does is what it does to the stores;
* `fpec_refines` — any calls in a row that program while unlocked, by induction on them.
-/

/-! ### The controller -/

/-- `FLASH_CR_OPTWRE`. -/
def flashCrOptwre : UInt32 := (1 : UInt32) <<< 9
/-- `FLASH_CR_LOCK`. -/
def flashCrLock : UInt32 := (1 : UInt32) <<< 7
/-- `FLASH_CR_STRT`. -/
def flashCrStrt : UInt32 := (1 : UInt32) <<< 6
/-- `FLASH_CR_PER`. -/
def flashCrPer : UInt32 := (1 : UInt32) <<< 1
/-- `FLASH_CR_PG`. -/
def flashCrPg : UInt32 := (1 : UInt32) <<< 0
/-- `FLASH_SR_BSY`. -/
def flashSrBsy : UInt32 := (1 : UInt32) <<< 0

/-- Where the controller is in the unlock sequence. -/
inductive KeyStage where
  | waiting
  | first
  /-- a wrong key: locked until the next reset -/
  | dead
  deriving DecidableEq

/-- The flash and its controller. -/
structure Fpec where
  flash : UInt32 → UInt8
  cr : UInt32
  ar : UInt32
  keys : KeyStage
  /-- the reads of `FLASH_SR` until `BSY` is clear -/
  busy : Nat
  /-- the operations started so far -/
  started : Nat
  /-- an access it does not allow -/
  illegal : Bool

/-- How many reads of `FLASH_SR` the `n`-th operation takes. -/
structure OpTime where
  reads : Nat → Nat
  bound : Nat
  le_bound : ∀ n, reads n ≤ bound

/-- A read of `FLASH_SR`, while time passes: `STRT` is cleared with `BSY`. -/
def Fpec.readSr (p : Fpec) : UInt32 × Fpec :=
  (if p.busy = 0 then 0 else flashSrBsy,
    { p with busy := p.busy - 1
             cr := if p.busy ≤ 1 then p.cr &&& ~~~flashCrStrt else p.cr })

/-- A write to `FLASH_KEYR`. -/
def Fpec.writeKeyr (p : Fpec) (v : UInt32) : Fpec :=
  if p.keys = .waiting ∧ v = 0x45670123 ∧ p.cr &&& flashCrLock ≠ 0 then { p with keys := .first }
  else if p.keys = .first ∧ v = 0xcdef89ab then
    { p with keys := .waiting, cr := p.cr &&& ~~~flashCrLock }
  else { p with keys := .dead, illegal := true }

/-- A write to `FLASH_CR`.  It does nothing while the controller is locked; with `STRT` and `PER`
    it starts the erase of the page in `FLASH_AR`. -/
def Fpec.writeCr (t : OpTime) (p : Fpec) (v : UInt32) : Fpec :=
  if p.busy ≠ 0 then { p with illegal := true }
  else if p.cr &&& flashCrLock ≠ 0 then p
  else if v &&& flashCrStrt = 0 then { p with cr := v }
  else if v &&& flashCrPer ≠ 0 ∧ v &&& flashCrPg = 0 then
    { p with cr := v, flash := erasePage p.flash p.ar, busy := t.reads p.started
             started := p.started + 1 }
  else { p with cr := v, illegal := true }

/-- A write to `FLASH_AR`. -/
def Fpec.writeAr (p : Fpec) (v : UInt32) : Fpec :=
  if p.busy ≠ 0 then { p with illegal := true } else { p with ar := v }

/-- A half-word written to the flash: programmed with `PG` set, and not allowed without. -/
def Fpec.writeFlash (t : OpTime) (p : Fpec) (address : UInt32) (data : UInt16) : Fpec :=
  if p.busy ≠ 0 then { p with illegal := true }
  else if p.cr &&& flashCrPg ≠ 0 then
    { p with flash := programHalf p.flash address data, busy := t.reads p.started
             started := p.started + 1 }
  else { p with illegal := true }

/-! ### The routines -/

/-- `_flash_wait_for_last_operation`. -/
def Fpec.waitForLastOperation : Nat → Fpec → Option Fpec
  | fuel, p =>
    if p.readSr.1 &&& flashSrBsy ≠ 0 then
      match fuel with
      | 0 => none
      | fuel + 1 => waitForLastOperation fuel p.readSr.2
    else some p.readSr.2

/-- `_flash_lock`. -/
def Fpec.flashLock (t : OpTime) (fuel : Nat) (p : Fpec) : Option Fpec := do
  let p ← p.waitForLastOperation fuel
  let p := p.writeCr t (p.cr &&& ~~~flashCrOptwre)
  let p := p.writeCr t (p.cr ||| flashCrLock)
  p.waitForLastOperation fuel

/-- `_flash_unlock`. -/
def Fpec.flashUnlock (p : Fpec) : Fpec :=
  if p.cr &&& flashCrLock ≠ 0 then (p.writeKeyr 0x45670123).writeKeyr 0xcdef89ab else p

/-- `_flash_erase_page`. -/
def Fpec.flashErasePage (t : OpTime) (fuel : Nat) (p : Fpec) (page_address : UInt32) :
    Option Fpec := do
  let p ← p.waitForLastOperation fuel
  let p := p.writeCr t (p.cr ||| flashCrPer)
  let p := p.writeAr page_address
  let p := p.writeCr t (p.cr ||| flashCrStrt)
  let p ← p.waitForLastOperation fuel
  some (p.writeCr t (p.cr &&& ~~~flashCrPer))

/-- The loop of `_flash_program_buffer` after `n` half-words. -/
def Fpec.programLoop (t : OpTime) (fuel : Nat) (p : Fpec) (address : UInt32)
    (data : Nat → UInt8) : Nat → Option Fpec
  | 0     => some p
  | i + 1 => do
      let p ← p.programLoop t fuel address data i
      (p.writeFlash t (address + 2 * UInt32.ofNat i)
        (half (data (2 * i)) (data (2 * i + 1)))).waitForLastOperation fuel

/-- `_flash_program_buffer`. -/
def Fpec.flashProgramBuffer (t : OpTime) (fuel : Nat) (p : Fpec) (address : UInt32)
    (data : Nat → UInt8) (len : Nat) : Option Fpec := do
  let p ← p.waitForLastOperation fuel
  let p := p.writeCr t (p.cr ||| flashCrPg)
  let p ← p.programLoop t fuel address data (len / 2)
  some (p.writeCr t (p.cr &&& ~~~flashCrPg))

/-! ### At rest -/

/-- The controller between two routines, and the stores it stands for. -/
structure Fpec.Rest (p : Fpec) (s : Store) : Prop where
  flash : p.flash = s.flash
  lock : p.cr &&& flashCrLock ≠ 0 ↔ s.locked = true
  strt : p.cr &&& flashCrStrt = 0
  per : p.cr &&& flashCrPer = 0
  pg : p.cr &&& flashCrPg = 0
  keys : p.keys = .waiting
  busy : p.busy = 0
  legal : p.illegal = false

variable {t : OpTime} {fuel : Nat} {p : Fpec} {s : Store}

/-- The last read of the wait. -/
theorem wait_last (h : p.busy = 0) (fuel : Nat) :
    p.waitForLastOperation fuel = some { p with busy := 0, cr := p.cr &&& ~~~flashCrStrt } := by
  have hsr : p.readSr = (0, { p with busy := 0, cr := p.cr &&& ~~~flashCrStrt }) := by
    rw [Fpec.readSr, h, if_pos rfl, if_pos (by decide)]
  have hoff : ¬ (0 : UInt32) &&& flashSrBsy ≠ 0 := by decide
  cases fuel <;> rw [Fpec.waitForLastOperation, hsr, if_neg hoff]

/-- **The wait** ends with the operation. -/
theorem wait_done (h : p.busy ≤ fuel) :
    p.waitForLastOperation fuel = some { p with busy := 0, cr := p.cr &&& ~~~flashCrStrt } := by
  induction fuel generalizing p with
  | zero => exact wait_last (Nat.le_zero.mp h) 0
  | succ fuel ih =>
    by_cases hbusy : p.busy = 0
    · exact wait_last hbusy (fuel + 1)
    · have hsr : p.readSr.1 = flashSrBsy := if_neg hbusy
      rw [Fpec.waitForLastOperation, hsr, if_pos (by decide), ih (by show p.busy - 1 ≤ fuel; omega)]
      by_cases hlast : p.busy ≤ 1
      · -- the flag of the start goes with the last read, and stays off
        simp only [Fpec.readSr, if_pos hlast, clear_of_off (clear_and_self p.cr flashCrStrt)]
      · simp only [Fpec.readSr, if_neg hlast]

/-- At rest there is nothing to wait for. -/
theorem wait_rest (hbusy : p.busy = 0) (hstrt : p.cr &&& flashCrStrt = 0) (fuel : Nat) :
    p.waitForLastOperation fuel = some p := by
  rw [wait_done (by omega), clear_of_off hstrt, ← hbusy]

/-- A write to `FLASH_CR` that starts nothing. -/
theorem writeCr_plain (hbusy : p.busy = 0) (hlock : p.cr &&& flashCrLock = 0) {v : UInt32}
    (hv : v &&& flashCrStrt = 0) : p.writeCr t v = { p with cr := v } := by
  rw [Fpec.writeCr, if_neg (not_not_intro hbusy), if_neg (not_not_intro hlock), if_pos hv]

/-- A write to `FLASH_CR` that the lock keeps out. -/
theorem writeCr_locked (hbusy : p.busy = 0) (hlock : p.cr &&& flashCrLock ≠ 0) (v : UInt32) :
    p.writeCr t v = p := by
  rw [Fpec.writeCr, if_neg (not_not_intro hbusy), if_pos hlock]

/-- A controller whose `LOCK` is clear is that of an unlocked flash. -/
theorem Fpec.Rest.unlocked (h : p.Rest s) (hlock : p.cr &&& flashCrLock = 0) :
    s.locked = false := by
  rw [← Bool.not_eq_true]
  exact fun hs => h.lock.mpr hs hlock

/-! ### Lock and unlock -/

/-- **`_flash_lock`.** -/
theorem flashLock_rest (h : p.Rest s) (fuel : Nat) :
    ∃ p', p.flashLock t fuel = some p' ∧ p'.Rest (flashLock s) := by
  have hwait := wait_rest h.busy h.strt fuel
  by_cases hlock : p.cr &&& flashCrLock = 0
  · -- the two writes
    have hoptwre : p.writeCr t (p.cr &&& ~~~flashCrOptwre)
        = { p with cr := p.cr &&& ~~~flashCrOptwre } :=
      writeCr_plain h.busy hlock
        ((clear_and (show flashCrOptwre &&& flashCrStrt = 0 by decide)).trans h.strt)
    have hflag (k : UInt32) (hk : flashCrLock &&& k = 0) (hk' : flashCrOptwre &&& k = 0) :
        (p.cr &&& ~~~flashCrOptwre ||| flashCrLock) &&& k = p.cr &&& k :=
      (set_and hk).trans (clear_and hk')
    have hset : ({ p with cr := p.cr &&& ~~~flashCrOptwre } : Fpec).writeCr t
          (p.cr &&& ~~~flashCrOptwre ||| flashCrLock)
        = { p with cr := p.cr &&& ~~~flashCrOptwre ||| flashCrLock } :=
      writeCr_plain (p := { p with cr := p.cr &&& ~~~flashCrOptwre }) h.busy
        ((clear_and (show flashCrOptwre &&& flashCrLock = 0 by decide)).trans hlock)
        ((hflag flashCrStrt (by decide) (by decide)).trans h.strt)
    refine ⟨{ p with cr := p.cr &&& ~~~flashCrOptwre ||| flashCrLock }, ?_, ?_⟩
    · rw [Fpec.flashLock, hwait]
      simp only [Option.bind_eq_bind, Option.bind_some, hoptwre, hset]
      exact wait_rest (p := { p with cr := p.cr &&& ~~~flashCrOptwre ||| flashCrLock }) h.busy
        ((hflag _ (by decide) (by decide)).trans h.strt) fuel
    · exact { h with
        lock := by
          show (p.cr &&& ~~~flashCrOptwre ||| flashCrLock) &&& flashCrLock ≠ 0 ↔ _
          rw [set_and_self]
          exact ⟨fun _ => rfl, fun _ => by decide⟩
        strt := (hflag _ (by decide) (by decide)).trans h.strt
        per := (hflag _ (by decide) (by decide)).trans h.per
        pg := (hflag _ (by decide) (by decide)).trans h.pg }
  · refine ⟨p, ?_, { h with lock := ⟨fun _ => rfl, fun _ => hlock⟩ }⟩
    rw [Fpec.flashLock, hwait]
    simp only [Option.bind_eq_bind, Option.bind_some, writeCr_locked h.busy hlock, hwait]

/-- **`_flash_unlock`** writes the keys in their order, and only to a locked controller. -/
theorem flashUnlock_rest (h : p.Rest s) : p.flashUnlock.Rest (flashUnlock s) := by
  by_cases hlock : p.cr &&& flashCrLock = 0
  · have hlocked : s.locked = false := h.unlocked hlock
    rw [Fpec.flashUnlock, if_neg (not_not_intro hlock), flashUnlock, hlocked,
      if_neg Bool.false_ne_true]
    exact h
  · have hfirst : p.writeKeyr 0x45670123 = { p with keys := .first } :=
      if_pos ⟨h.keys, rfl, hlock⟩
    have hsecond : ({ p with keys := .first } : Fpec).writeKeyr 0xcdef89ab
        = { p with keys := .waiting, cr := p.cr &&& ~~~flashCrLock } := by
      rw [Fpec.writeKeyr, if_neg (by simp), if_pos ⟨rfl, rfl⟩]
    have hflag (k : UInt32) (hk : flashCrLock &&& k = 0) :
        (p.cr &&& ~~~flashCrLock) &&& k = p.cr &&& k := clear_and hk
    rw [Fpec.flashUnlock, if_pos hlock, hfirst, hsecond, flashUnlock, if_pos (h.lock.mp hlock)]
    exact { h with
      lock := by
        show (p.cr &&& ~~~flashCrLock) &&& flashCrLock ≠ 0 ↔ _
        rw [clear_and_self]
        exact ⟨fun hne => absurd rfl hne, fun hf => absurd hf Bool.false_ne_true⟩
      strt := (hflag _ (by decide)).trans h.strt
      per := (hflag _ (by decide)).trans h.per
      pg := (hflag _ (by decide)).trans h.pg
      keys := rfl }

/-! ### Erase -/

/-- With `LOCK` clear the page is erased: `PER`, the address, the start, and `PER` cleared after
    the wait. -/
theorem erasePage_unlocked (h : p.Rest s) (hfuel : t.bound ≤ fuel) (page_address : UInt32)
    (hlock : p.cr &&& flashCrLock = 0) :
    p.flashErasePage t fuel page_address
      = some { p with ar := page_address, flash := Stm32F1Dfu.erasePage p.flash page_address
                      busy := 0, started := p.started + 1 } := by
  have hwait := wait_rest h.busy h.strt fuel
  -- `PER`, and the address
  have hper : p.writeCr t (p.cr ||| flashCrPer) = { p with cr := p.cr ||| flashCrPer } :=
    writeCr_plain h.busy hlock ((set_and (by decide)).trans h.strt)
  have har : ({ p with cr := p.cr ||| flashCrPer } : Fpec).writeAr page_address
      = { p with cr := p.cr ||| flashCrPer, ar := page_address } :=
    if_neg (not_not_intro h.busy)
  -- the start
  have hlock' : (p.cr ||| flashCrPer) &&& flashCrLock = 0 := (set_and (by decide)).trans hlock
  have hstrt : (p.cr ||| flashCrPer) &&& flashCrStrt = 0 := (set_and (by decide)).trans h.strt
  have hper' : ((p.cr ||| flashCrPer) ||| flashCrStrt) &&& flashCrPer ≠ 0 := by
    rw [set_and (by decide), set_and_self]
    decide
  have hpg' : ((p.cr ||| flashCrPer) ||| flashCrStrt) &&& flashCrPg = 0 :=
    (set_and (by decide)).trans ((set_and (by decide)).trans h.pg)
  have hstart : ({ p with cr := p.cr ||| flashCrPer, ar := page_address } : Fpec).writeCr t
        ((p.cr ||| flashCrPer) ||| flashCrStrt)
      = { p with cr := (p.cr ||| flashCrPer) ||| flashCrStrt, ar := page_address
                 flash := Stm32F1Dfu.erasePage p.flash page_address
                 busy := t.reads p.started, started := p.started + 1 } := by
    rw [Fpec.writeCr, if_neg (not_not_intro h.busy), if_neg (not_not_intro hlock'),
      if_neg (by rw [set_and_self]; decide), if_pos ⟨hper', hpg'⟩]
  -- its end
  have hend : ({ p with cr := (p.cr ||| flashCrPer) ||| flashCrStrt, ar := page_address
                        flash := Stm32F1Dfu.erasePage p.flash page_address
                        busy := t.reads p.started
                        started := p.started + 1 } : Fpec).waitForLastOperation fuel
      = some { p with cr := p.cr ||| flashCrPer, ar := page_address
                      flash := Stm32F1Dfu.erasePage p.flash page_address, busy := 0
                      started := p.started + 1 } := by
    rw [wait_done (show t.reads p.started ≤ fuel from le_trans (t.le_bound _) hfuel),
      set_clear hstrt]
  have hclear : ({ p with cr := p.cr ||| flashCrPer, ar := page_address
                          flash := Stm32F1Dfu.erasePage p.flash page_address, busy := 0
                          started := p.started + 1 } : Fpec).writeCr t
        ((p.cr ||| flashCrPer) &&& ~~~flashCrPer)
      = { p with ar := page_address, flash := Stm32F1Dfu.erasePage p.flash page_address
                 busy := 0, started := p.started + 1 } := by
    rw [set_clear h.per, writeCr_plain rfl hlock' h.strt]
  rw [Fpec.flashErasePage, hwait]
  simp only [Option.bind_eq_bind, Option.bind_some, hper, har, hstart, hend, hclear]

/-- With `LOCK` set only the address register takes what is written. -/
theorem erasePage_locked (h : p.Rest s) (page_address : UInt32)
    (hlock : ¬ p.cr &&& flashCrLock = 0) :
    p.flashErasePage t fuel page_address = some { p with ar := page_address } := by
  have har : p.writeAr page_address = { p with ar := page_address } :=
    if_neg (not_not_intro h.busy)
  have hcr (v : UInt32) : ({ p with ar := page_address } : Fpec).writeCr t v
      = { p with ar := page_address } :=
    writeCr_locked (p := { p with ar := page_address }) h.busy hlock v
  rw [Fpec.flashErasePage, wait_rest h.busy h.strt fuel]
  simp only [Option.bind_eq_bind, Option.bind_some, writeCr_locked h.busy hlock, har, hcr]
  rw [wait_rest (p := { p with ar := page_address }) h.busy h.strt, Option.bind_some, hcr]

/-- **`_flash_erase_page`.** -/
theorem erasePage_rest (h : p.Rest s) (hfuel : t.bound ≤ fuel) (page_address : UInt32) :
    ∃ p', p.flashErasePage t fuel page_address = some p'
      ∧ p'.Rest (flashErasePage s page_address) := by
  by_cases hlock : p.cr &&& flashCrLock = 0
  · refine ⟨_, erasePage_unlocked h hfuel page_address hlock, ?_⟩
    rw [flashErasePage, h.unlocked hlock, if_neg Bool.false_ne_true]
    exact { h with
      flash := by
        show Stm32F1Dfu.erasePage p.flash page_address = _
        rw [h.flash]
        rfl
      busy := rfl }
  · refine ⟨_, erasePage_locked h page_address hlock, ?_⟩
    rw [flashErasePage, if_pos (h.lock.mp hlock)]
    exact { h with }

/-! ### Program -/

/-- The loop with `PG` set: each half-word is programmed, and the wait after it ends. -/
theorem programLoop_pg (hbusy : p.busy = 0) (hpg : p.cr &&& flashCrPg ≠ 0)
    (hstrt : p.cr &&& flashCrStrt = 0) (hflash : p.flash = s.flash) (hlocked : s.locked = false)
    (hfuel : t.bound ≤ fuel) (address : UInt32) (data : Nat → UInt8) (n : Nat) :
    p.programLoop t fuel address data n
      = some { p with flash := (flashProgramLoop s address data n).flash, busy := 0
                      started := p.started + n } := by
  induction n with
  | zero => rw [Fpec.programLoop, flashProgramLoop, ← hflash, Nat.add_zero, ← hbusy]
  | succ n ih =>
    have hlocked' : (flashProgramLoop s address data n).locked = false := by
      rw [flashProgramLoop_locked, hlocked]
    have hflash' : (flashProgramLoop s address data (n + 1)).flash
        = programHalf (flashProgramLoop s address data n).flash (address + 2 * UInt32.ofNat n)
            (half (data (2 * n)) (data (2 * n + 1))) := by
      rw [flashProgramLoop, flashProgramHalf, hlocked', if_neg Bool.false_ne_true]
      rfl
    rw [Fpec.programLoop, ih, Option.bind_eq_bind, Option.bind_some, Fpec.writeFlash,
      if_neg (not_not_intro rfl), if_pos hpg,
      wait_done (show t.reads (p.started + n) ≤ fuel from le_trans (t.le_bound _) hfuel), hflash']
    simp only [clear_of_off hstrt, Nat.add_assoc]

/-- **`_flash_program_buffer`**, with the flash unlocked: `PG`, the half-words, and `PG` cleared. -/
theorem programBuffer_rest (h : p.Rest s) (hlocked : s.locked = false) (hfuel : t.bound ≤ fuel)
    (address : UInt32) (data : Nat → UInt8) (len : Nat) :
    ∃ p', p.flashProgramBuffer t fuel address data len = some p'
      ∧ p'.Rest (flashProgramBuffer s address data len) := by
  have hlock : p.cr &&& flashCrLock = 0 := by
    by_contra hne
    exact absurd (hlocked.symm.trans (h.lock.mp hne)) Bool.false_ne_true
  have hset : p.writeCr t (p.cr ||| flashCrPg) = { p with cr := p.cr ||| flashCrPg } :=
    writeCr_plain h.busy hlock ((set_and (by decide)).trans h.strt)
  have hloop := programLoop_pg (p := { p with cr := p.cr ||| flashCrPg }) (t := t) h.busy
    (by show (p.cr ||| flashCrPg) &&& flashCrPg ≠ 0; rw [set_and_self]; decide)
    ((set_and (by decide)).trans h.strt) h.flash hlocked hfuel address data (len / 2)
  have hlock' : (p.cr ||| flashCrPg) &&& flashCrLock = 0 := (set_and (by decide)).trans hlock
  refine ⟨{ p with flash := (flashProgramLoop s address data (len / 2)).flash, busy := 0
                   started := p.started + len / 2 }, ?_, ?_⟩
  · rw [Fpec.flashProgramBuffer, wait_rest h.busy h.strt fuel]
    simp only [Option.bind_eq_bind, Option.bind_some, hset, hloop, set_clear h.pg]
    rw [writeCr_plain rfl hlock' h.strt]
  · exact { h with
      flash := rfl
      lock := by rw [flashProgramBuffer, flashProgramLoop_locked]; exact h.lock
      busy := rfl }

/-! ### A program's calls -/

/-- A call of the flash routines. -/
inductive FlashCall where
  | lock
  | unlock
  | erasePage (page_address : UInt32)
  | pageIsErased (addr : UInt32)
  | programBuffer (address : UInt32) (data : Nat → UInt8) (len : Nat)

/-- A call on the stores: what it returns, and the stores after it. -/
def FlashCall.onStore (s : Store) : FlashCall → Option Bool × Store
  | .lock                       => (none, flashLock s)
  | .unlock                     => (none, flashUnlock s)
  | .erasePage a                => (none, flashErasePage s a)
  | .pageIsErased a             => (some (flashPageIsErased s.flash a), s)
  | .programBuffer a data len   => (none, flashProgramBuffer s a data len)

/-- A call on the registers. -/
def FlashCall.onFpec (t : OpTime) (fuel : Nat) (p : Fpec) : FlashCall → Option (Option Bool × Fpec)
  | .lock                       => (p.flashLock t fuel).map (none, ·)
  | .unlock                     => some (none, p.flashUnlock)
  | .erasePage a                => (p.flashErasePage t fuel a).map (none, ·)
  | .pageIsErased a             => some (some (flashPageIsErased p.flash a), p)
  | .programBuffer a data len   => (p.flashProgramBuffer t fuel a data len).map (none, ·)

/-- A buffer is programmed while the flash is unlocked; the other calls may come at any time. -/
def FlashCall.Allowed (s : Store) : FlashCall → Prop
  | .programBuffer .. => s.locked = false
  | _                 => True

/-- Calls in a row on the stores. -/
def flashCallsOnStore : Store → List FlashCall → List (Option Bool) × Store
  | s, []            => ([], s)
  | s, call :: calls =>
      ((call.onStore s).1 :: (flashCallsOnStore (call.onStore s).2 calls).1,
        (flashCallsOnStore (call.onStore s).2 calls).2)

/-- Calls in a row on the registers. -/
def flashCallsOnFpec (t : OpTime) (fuel : Nat) :
    Fpec → List FlashCall → Option (List (Option Bool) × Fpec)
  | p, []            => some ([], p)
  | p, call :: calls => do
      let (reply, p) ← call.onFpec t fuel p
      let (replies, p) ← flashCallsOnFpec t fuel p calls
      some (reply :: replies, p)

/-- **One call.** -/
theorem flashCall_rest (h : p.Rest s) (hfuel : t.bound ≤ fuel) {call : FlashCall}
    (hallowed : call.Allowed s) :
    ∃ p', call.onFpec t fuel p = some ((call.onStore s).1, p') ∧ p'.Rest (call.onStore s).2 := by
  cases call with
  | lock =>
    obtain ⟨p', hrun, hrest⟩ := flashLock_rest (t := t) h fuel
    exact ⟨p', by rw [FlashCall.onFpec, hrun]; rfl, hrest⟩
  | unlock => exact ⟨p.flashUnlock, rfl, flashUnlock_rest h⟩
  | erasePage a =>
    obtain ⟨p', hrun, hrest⟩ := erasePage_rest h hfuel a
    exact ⟨p', by rw [FlashCall.onFpec, hrun]; rfl, hrest⟩
  | pageIsErased a => exact ⟨p, by rw [FlashCall.onFpec, FlashCall.onStore, h.flash], h⟩
  | programBuffer a data len =>
    obtain ⟨p', hrun, hrest⟩ := programBuffer_rest h hallowed hfuel a data len
    exact ⟨p', by rw [FlashCall.onFpec, hrun]; rfl, hrest⟩

/-- **The registers carry the calls.**  From rest, any calls of the flash routines that program
    while the flash is unlocked return, whatever the operations take; on the registers they return
    what they return on the stores and leave the flash and the lock alike, the controller is at
    rest again, and on the way there was no access that it does not allow. -/
theorem fpec_refines (h : p.Rest s) (hfuel : t.bound ≤ fuel) (calls : List FlashCall)
    (hallowed : AllSteps (fun s call => (FlashCall.onStore s call).2) FlashCall.Allowed s calls) :
    ∃ p', flashCallsOnFpec t fuel p calls = some ((flashCallsOnStore s calls).1, p')
      ∧ p'.Rest (flashCallsOnStore s calls).2 := by
  induction calls generalizing p s with
  | nil => exact ⟨p, rfl, h⟩
  | cons call calls ih =>
    obtain ⟨p₁, hcall, hrest⟩ := flashCall_rest h hfuel hallowed.1
    obtain ⟨p₂, hcalls, hrest'⟩ := ih hrest hallowed.2
    refine ⟨p₂, ?_, hrest'⟩
    simp only [flashCallsOnFpec, hcall, hcalls, Option.bind_eq_bind, Option.bind_some,
      flashCallsOnStore]

/-- The controller after a reset. -/
def Fpec.afterReset (flash : UInt32 → UInt8) : Fpec := ⟨flash, 0x80, 0, .waiting, 0, 0, false⟩

theorem afterReset_rest (s : Store) (h : s.locked = true) :
    (Fpec.afterReset s.flash).Rest s where
  flash := rfl
  lock := ⟨fun _ => h, fun _ => show (0x80 : UInt32) &&& flashCrLock ≠ 0 by decide⟩
  strt := show (0x80 : UInt32) &&& flashCrStrt = 0 by decide
  per := show (0x80 : UInt32) &&& flashCrPer = 0 by decide
  pg := show (0x80 : UInt32) &&& flashCrPg = 0 by decide
  keys := rfl
  busy := rfl
  legal := rfl

/-- A page erased and a word programmed, between unlock and lock, and a write the lock refuses. -/
def someFlashCalls : List FlashCall :=
  [.unlock, .erasePage 0x08002000, .programBuffer 0x08002000 (fun i => UInt8.ofNat i) 5, .lock,
    .erasePage 0x08002000, .pageIsErased 0x08002000]

theorem fpec_refines_someFlashCalls :
    let s : Store := ⟨fun _ => 0, fun _ => 0, true, []⟩
    let t : OpTime := ⟨fun n => n % 3, 2, fun n => Nat.le_of_lt_succ (Nat.mod_lt n (by decide))⟩
    ∃ p', flashCallsOnFpec t 2 (Fpec.afterReset s.flash) someFlashCalls
        = some ((flashCallsOnStore s someFlashCalls).1, p')
      ∧ p'.Rest (flashCallsOnStore s someFlashCalls).2 :=
  fpec_refines (afterReset_rest ⟨fun _ => 0, fun _ => 0, true, []⟩ rfl) (le_refl 2) someFlashCalls
    ⟨trivial, trivial, by simp [FlashCall.Allowed, FlashCall.onStore, Stm32F1Dfu.flashErasePage],
      trivial, trivial, trivial, trivial⟩

end Stm32F1Dfu
