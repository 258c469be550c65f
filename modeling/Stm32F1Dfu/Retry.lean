import Stm32F1Dfu.Listening
import Stm32F1Dfu.Deploy

namespace Stm32F1Dfu

open Machine PageStore

/-!
# A download that failed can be repeated

A host that gave up in the middle of anything comes back and starts over, without a reset of the
device.  What it finds is a driver in any state, with any address pointer and any half of a download
stored; none of that is left in what it downloads now.

* `run_idle` — wherever a run gets, endpoint 0 is idle once nothing is left to be served;
* `Simulates.setaddr` — the first command of a session, on a driver in any state;
* `run_again` — a session from there;
* `retry_usb` — the application that it leaves.
-/

/-- The build option is what it was. -/
theorem run_build (d : Dev) (evs : List BusEvent) :
    (d.run evs).dfu.safeWrite = d.dfu.safeWrite := by
  refine run_dfu_invariant (I := fun f : Dfu => f.safeWrite = d.dfu.safeWrite)
    (fun f f' he h => he.frame.2.2.1.trans h) (fun f h => ?_) rfl evs
  by_cases hbusy : f.state = .dnbusy
  · rw [usbdfuGetstatusComplete_dnbusy hbusy]
    exact h
  · rw [usbdfuGetstatusComplete_other hbusy]
    split <;> exact h

/-- **The device is idle** when nothing is left to be served, whatever went before. -/
theorem run_idle (b : Board) {past : List BusEvent}
    (hinside : AllSteps Dev.step (fun d e => ¬ ReachesOutside d e) (Dev.init b) past)
    (henabled : ((Dev.init b).run past).periph.enabled = true)
    (hrun : ((Dev.init b).run past).dfu.reset = false)
    (hquiet : ((Dev.init b).run past).periph.served = .nothing) :
    Idle ((Dev.init b).run past) ((Dev.init b).run past).dfu := by
  obtain ⟨⟨⟨rxCtr, txCtr, setup, rx, tx⟩, nak, daddr⟩, hlink, hrx, -⟩ := run_link b hinside henabled
  have hserved := hlink.served.symm.trans hquiet
  cases rxCtr with
  | true => cases setup <;> cases hserved
  | false =>
    cases txCtr with
    | true => cases hserved
    | false => exact ⟨⟨setup, rx, tx, nak, daddr, hlink, hrx⟩, rfl, hrun⟩

/-- **The first command** of a session sets the address pointer, whatever it was. -/
theorem Simulates.setaddr {f f' : Dfu} {s : ℕ → Fin 1024 → UInt8} (hpages : Holds f.store.flash s)
    (hbuild : f.safeWrite = false) {a : PageAddr}
    (hstored : Stored f (DfuseCmd.setaddr a).blocknum (DfuseCmd.setaddr a).bytes f') :
    Simulates (usbdfuGetstatusComplete (afterGetstatus f')) a s := by
  obtain ⟨p, rfl, -, hnum, -, hbytes⟩ := hstored
  obtain ⟨log, hbusy⟩ : ∃ log, afterGetstatus
      { f with prog := p, state := .dnloadSync, log := .dnload p :: f.log }
        = { f with prog := p, state := .dnbusy, log := log } := ⟨_, rfl⟩
  obtain ⟨hcmd, hop⟩ := operand_eq hbytes
  have hzero : p.blocknum = 0 := hnum
  have hexec : execProg { f with prog := p, state := .dnbusy, log := log,
                                 store := flashUnlock f.store }
      = { f with prog := { p with addr := p.operand }, state := .dnbusy, log := log,
                 store := flashUnlock f.store } := by
    unfold execProg
    rw [if_pos hzero, hcmd, if_neg cmdErase_ne_cmdSetaddr.symm, if_pos rfl]
  rw [hbusy]
  unfold usbdfuGetstatusComplete
  simp only [hexec]
  refine ⟨?_, hop, hbuild⟩
  show Holds (flashLock (flashUnlock f.store)).flash s
  rw [flashLock_flash, flashUnlock_flash]
  exact hpages

/-- **A session from there**: the flash holds what its operations leave. -/
theorem run_session_again {d : Dev} {f : Dfu} (hidle : Idle d f) (hbuild : f.safeWrite = false)
    {a : PageAddr} {n : ℕ} {cmds : List (DfuseCmd × ℕ)} (hin : ForApp a (cmds.map Prod.fst))
    {evs : List BusEvent} (hpaced : Paced (sessionPackets ((.setaddr a, n) :: cmds)) evs) :
    ∃ f' addr, Idle (d.run evs) f'
      ∧ Simulates f' addr
          (PageStore.run 0xFF (flashPages f.store.flash) (pageOps a (cmds.map Prod.fst))) := by
  have hboth : Paced ((DfuseCmd.setaddr a).packets n ++ sessionPackets cmds) evs := hpaced
  obtain ⟨evs₁, evs₂, rfl, hfirst, hrest⟩ := hboth.split
  obtain ⟨f', log, hstored, hidle'⟩ := run_command_stored hidle hfirst
  obtain ⟨hpages, haddr, hbuild'⟩ :=
    Simulates.setaddr (holds_flashPages f.store.flash) hbuild hstored
  rw [Dev.run_append]
  exact run_session_idle hidle' ⟨hpages, haddr, hbuild'⟩ hin hrest

/-- And the device resets itself when it is asked to. -/
theorem run_again {d : Dev} {f : Dfu} (hidle : Idle d f) (hbuild : f.safeWrite = false)
    {a : PageAddr} {n : ℕ} {cmds : List (DfuseCmd × ℕ)} (hin : ForApp a (cmds.map Prod.fst))
    {blocknum : UInt16} {evs : List BusEvent}
    (hpaced : Paced (sessionPackets ((.setaddr a, n) :: cmds) ++ manifestPackets blocknum) evs) :
    (d.run evs).dfu.reset = true
      ∧ Holds (d.run evs).dfu.store.flash
          (PageStore.run 0xFF (flashPages f.store.flash) (pageOps a (cmds.map Prod.fst))) := by
  obtain ⟨evs₁, evs₂, rfl, hsession, hmanifest⟩ := hpaced.split
  obtain ⟨f', addr, hidle', hend⟩ := run_session_again hidle hbuild hin hsession
  obtain ⟨hreset, hstore⟩ := run_manifest hidle' hmanifest
  rw [Dev.run_append, hstore]
  exact ⟨hreset, hend.pages⟩

/-- **A failed download can be repeated.**  The device is in the USB loop, without an image in its
    SRAM, and the host did anything there that names none but the eight endpoints: gave up downloads
    in any stage, sent commands that make no sense, reset the bus.  When nothing is left to be
    served, it sets the address pointer and downloads the file that the tool wrote, by any commands
    and blocks whose last word on each page is the file's, with any pacing, and asks for
    manifestation.  Then the device resets itself, and the boot after that jumps to the application,
    which is the file. -/
theorem retry_usb (c : Chip) (b : Board) (hbuild : b.safeWrite = false) (past : List BusEvent)
    (hinside : AllSteps Dev.step (fun d e => ¬ ReachesOutside d e) (Dev.init b) past)
    (henabled : ((Dev.init b).run past).periph.enabled = true)
    (hrun : ((Dev.init b).run past).dfu.reset = false)
    (hquiet : ((Dev.init b).run past).periph.served = .nothing)
    (hsram : sramHasValidImage b.store = false) (file out : List UInt8)
    (hfile : 0x24 ≤ file.length) (hfit : paddedLen file ≤ 122880)
    (hstack : fileWord file 0 &&& 0x2FFE0000 = 0x20000000) (arg : Option Int) (fwlen : Nat)
    (hlen : FwLen file arg fwlen) (htool : checksumPy file arg = some out) {a : PageAddr} {n : ℕ}
    {cmds : List (DfuseCmd × ℕ)} (hin : ForApp a (cmds.map Prod.fst))
    (hout : Delivered out (.setaddr a :: cmds.map Prod.fst)) {blocknum : UInt16}
    {evs : List BusEvent}
    (hpaced : Paced (sessionPackets ((.setaddr a, n) :: cmds) ++ manifestPackets blocknum) evs)
    (word : UInt32) (mem : Memories) :
    ∃ s', (Life.usb ((Dev.init b).run past) word).run c (evs.map .usb ++ [.boot false mem])
        = .app s' 0
      ∧ ∀ i < out.length, s'.flash (appAddress + UInt32.ofNat i) = out.getD i 0 := by
  have hidle := run_idle b hinside henabled hrun hquiet
  have hsafe := (run_build (Dev.init b) past).trans hbuild
  obtain ⟨hreset, hpages⟩ := run_again hidle hsafe hin hpaced
  have hsession := Life.run_usb c word evs hrun
  rw [hreset, if_pos rfl] at hsession
  have hsame : (((Dev.init b).run past).run evs).dfu.store.sram = b.store.sram :=
    (run_sram _ evs).trans (run_sram _ past)
  generalize ((Dev.init b).run past).run evs = d at *
  have hflash (i : Nat) (hi : i < out.length) :
      d.dfu.store.flash (appAddress + UInt32.ofNat i) = out.getD i 0 := by
    obtain ⟨op, hlast, hcontent⟩ := hout i hi
    rw [hpages, run_eq_last]
    rw [show pageOps ⟨0, rfl⟩ (.setaddr a :: cmds.map Prod.fst) = pageOps a (cmds.map Prod.fst)
      from rfl] at hlast
    rw [hlast]
    exact hcontent
  refine ⟨d.dfu.store.powerUp, ?_, hflash⟩
  rw [Life.run_append, hsession, Life.run_cons, Life.run_nil,
    Life.boot_released c hfile hfit hstack hlen htool
      ((sramHasValidImage_congr hsame).trans hsram) hflash]

/-- The host gives up in the middle of a data stage, and asks for the state in the middle of the
    next. -/
def twiceAbandoned : List BusEvent :=
  abandonedDownload ++ [.poll, .setup (dnloadRequest 0 5), .poll, .setup getstatusRequest, .poll]

/-- The blocks of a release, behind the command that sets the address pointer. -/
def nineWordsBlocks : List (DfuseCmd × ℕ) :=
  (blockCmds nineWordsRelease 0 (pagesOf nineWordsRelease.length)).map fun c => (c, 0)

theorem nineWordsBlocks_cmds : nineWordsBlocks.map Prod.fst
    = blockCmds nineWordsRelease 0 (pagesOf nineWordsRelease.length) := by
  rw [nineWordsBlocks, List.map_map]
  exact List.map_id _

theorem retry_usb_twiceAbandoned :
    ∃ s', (Life.usb ((Dev.init blankBoard).run twiceAbandoned) 0).run someChip
        ((polled (sessionPackets ((.setaddr ⟨appAddress, by decide⟩, 0) :: nineWordsBlocks)
          ++ manifestPackets 0)).map .usb ++ [.boot false noMemories]) = .app s' 0
      ∧ ∀ i < nineWordsRelease.length,
          s'.flash (appAddress + UInt32.ofNat i) = nineWordsRelease.getD i 0 := by
  obtain ⟨happ, hdelivered⟩ := downloadCmds_delivered nineWordsRelease (by decide) (by decide)
  refine retry_usb someChip blankBoard rfl twiceAbandoned (by decide +kernel) (by decide +kernel)
    (by decide +kernel) (by decide +kernel) (by decide +kernel) nineWordsFile nineWordsRelease
    (by decide) (by decide) (by decide) none 36 (Or.inl ⟨rfl, by decide⟩) (by decide +kernel)
    ?_ ?_ (paced_polled _) 0 noMemories
  · rw [nineWordsBlocks_cmds]
    exact happ.2
  · rw [nineWordsBlocks_cmds]
    exact hdelivered

end Stm32F1Dfu
