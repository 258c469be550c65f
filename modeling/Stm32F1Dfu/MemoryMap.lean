import Stm32F1Dfu.Lib.SectorMap
import Stm32F1Dfu.Enumeration
import Stm32F1Dfu.Pages

namespace Stm32F1Dfu

open PageStore Descriptors SectorMap

/-!
# The memory map

The name of the interface is a memory map in the text of DfuSe.  A host that reads it knows which
sectors it may erase and write; the range checks of the driver and the pages of the flash are
written down elsewhere, and have to agree with it.

* `readMap` — a host that reads the map, and `flashMap`, what it finds;
* `DfuseCmd.expected` — what the host expects of a command by the map;
* `Holds.expected` — what the driver makes of it is that, also where the map forbids it;
* `run_expected` — a whole session;
* `memoryMap_honoured` — the map that is read and the sessions that follow.
-/

/-! ### The map -/

/-- A host that reads the map: one string record, its characters, and the map they stand for. -/
def readMap (bytes : List UInt8) : Option Map :=
  match Descriptors.parse bytes with
  | some [⟨3, body⟩] => (ofUtf16 body).bind fun s => SectorMap.parse (s.map Char.ofUInt8)
  | _                => none

/-- The map of this flash: the boot loader, to be read only, and the application. -/
def flashMap : Map := ⟨0x08000000, [⟨8, 1024, 1⟩, ⟨120, 1024, 7⟩]⟩

/-- The string is that map. -/
theorem readMap_usbStrings (safeWrite : Bool) (uniqueId : Nat → UInt8) :
    readMap (encodeAll [⟨3, utf16 (usbStrings safeWrite uniqueId 3)⟩]) = some flashMap := by
  have hfits : ∀ r ∈ [(⟨3, utf16 (usbStrings safeWrite uniqueId 3)⟩ : Descriptor)], r.Fits := by
    intro r hr
    obtain rfl := List.mem_singleton.mp hr
    show (utf16 _).length ≤ 253
    have hlen := usbStrings_length safeWrite uniqueId 3
    rw [utf16_length]
    omega
  rw [readMap, parse_encodeAll hfits]
  show (ofUtf16 (utf16 (usbStrings safeWrite uniqueId 3))).bind _ = _
  rw [ofUtf16_utf16]
  show SectorMap.parse
    ((chars "@Internal Flash /0x08000000/8*001Ka,120*001Kg").map Char.ofUInt8) = _
  decide

theorem flashMap_sectorAt (a : Nat) :
    (flashMap.sectorAt a).map Sector.kind
      = if a < 0x08000000 then none
        else if a < 0x08002000 then some 1
        else if a < 0x08020000 then some 7
        else none := by
  unfold Map.sectorAt flashMap
  simp only [SectorMap.sectorAt, Nat.reduceMul, Nat.reduceAdd]
  split
  · rfl
  · split
    · rfl
    · split <;> rfl

/-- Erasable and writable are the sectors of the application region. -/
theorem flashMap_kind_iff (a : UInt32) {k : Nat} (h1 : 1 / k % 2 ≠ 1) (h7 : 7 / k % 2 = 1) :
    (∃ s ∈ flashMap.sectorAt a.toNat, s.kind / k % 2 = 1) ↔ InApp a := by
  have hkind := flashMap_sectorAt a.toNat
  rw [inApp_iff]
  cases hs : flashMap.sectorAt a.toNat with
  | none =>
    rw [hs] at hkind
    simp only [Option.map_none, Option.not_mem_none, false_and, exists_false, false_iff] at hkind ⊢
    split_ifs at hkind <;> omega
  | some s =>
    rw [hs] at hkind
    simp only [Option.map_some, Option.mem_def, Option.some.injEq, exists_eq_left'] at hkind ⊢
    split_ifs at hkind with hlow hboot happ
    · rw [Option.some.inj hkind]
      exact iff_of_false h1 (by omega)
    · rw [Option.some.inj hkind]
      exact iff_of_true h7 (by omega)

theorem flashMap_erasable_iff (a : UInt32) : flashMap.Erasable a.toNat ↔ InApp a :=
  flashMap_kind_iff a (by decide) (by decide)

theorem flashMap_writable_iff (a : UInt32) : flashMap.Writable a.toNat ↔ InApp a :=
  flashMap_kind_iff a (by decide) (by decide)

/-- The sectors are the pages. -/
theorem flashMap_sector_iff {a : UInt32} {s : Sector} (h : flashMap.sectorAt a.toNat = some s)
    (b : UInt32) : flashMap.sectorAt b.toNat = some s ↔ pageOf b = pageOf a :=
  Map.sectorAt_uniform (by decide) (by decide) (by decide) h

/-! ### One command -/

/-- **What a host expects** of a command by the map: the operation if the sector is declared for
    it, and nothing otherwise. -/
def DfuseCmd.expected (m : Map) (addr : PageAddr) (c : DfuseCmd) : Option (PageOp ℕ UInt8) :=
  match c with
  | .setaddr _   => none
  | .erase a     => if m.Erasable a.1.toNat then c.pageOp addr else none
  | .block num _ => if m.Writable (blockAddr addr num).toNat then c.pageOp addr else none

/-- The same for a session. -/
def expectedOps (m : Map) : PageAddr → List DfuseCmd → List (PageOp ℕ UInt8)
  | _, []         => []
  | addr, c :: cs => (c.expected m addr).toList ++ expectedOps m (c.pointer addr) cs

/-- No erase and no block is for the last page of the address space, when the address pointer is
    `addr` at the start. -/
def OffLastPage : PageAddr → List DfuseCmd → Prop
  | _, []         => True
  | addr, c :: cs =>
      (∀ a ∈ c.target addr, a.toNat + 1024 < 2 ^ 32) ∧ OffLastPage (c.pointer addr) cs

section

variable {d : Dfu} {addr : PageAddr} {c : DfuseCmd}

/-- For the application region it is the operation. -/
theorem DfuseCmd.expected_in (hin : ∀ a ∈ c.target addr, InApp a) :
    c.expected flashMap addr = c.pageOp addr := by
  cases c with
  | setaddr a => rfl
  | erase a => exact if_pos ((flashMap_erasable_iff a).mpr (hin _ rfl))
  | block num data => exact if_pos ((flashMap_writable_iff _).mpr (hin _ rfl))

/-- Anywhere else it is nothing. -/
theorem DfuseCmd.expected_out {a : UInt32} (ha : a ∈ c.target addr) (hout : ¬ InApp a) :
    c.expected flashMap addr = none := by
  cases c with
  | setaddr a => rfl
  | erase b =>
    obtain rfl : b.1 = a := Option.some.inj ha
    exact if_neg fun h => hout ((flashMap_erasable_iff b).mp h)
  | block num data =>
    obtain rfl : blockAddr addr num = a := Option.some.inj ha
    exact if_neg fun h => hout ((flashMap_writable_iff _).mp h)

/-- The range check refuses what begins on a page of its own outside the region. -/
theorem inRange_out {a n : UInt32} (hpage : a.toNat % 1024 = 0) (hout : ¬ InApp a)
    (hoff : a.toNat + 1024 < 2 ^ 32) (hpos : 0 < n.toNat) (hle : n.toNat ≤ 1024) :
    ¬ inRange a n = true := by
  rw [inApp_iff] at hout
  rw [inRange_iff hle]
  omega

/-- A command for elsewhere is not carried out. -/
theorem execProg_out (hbuild : d.safeWrite = false) (hc : Carries d.prog addr c) {a : UInt32}
    (ha : a ∈ c.target addr) (hout : ¬ InApp a) (hoff : a.toNat + 1024 < 2 ^ 32) :
    Stm32F1Dfu.execProg d = d := by
  unfold Stm32F1Dfu.execProg
  cases c with
  | setaddr b => exact absurd ha (by simp [DfuseCmd.target])
  | erase b =>
    obtain rfl : b.1 = a := Option.some.inj ha
    obtain ⟨hcmd, hop⟩ := operand_eq hc.bytes
    have hnum : d.prog.blocknum = 0 := hc.blocknum
    rw [if_pos hnum, hcmd, if_pos rfl, Stm32F1Dfu.execErase, ifdefSafeWrite_off hbuild]
    exact if_neg (hop ▸ inRange_out b.2 hout hoff (by decide) (by decide))
  | block num data =>
    obtain rfl : blockAddr addr num = a := Option.some.inj ha
    have hnum : d.prog.blocknum ≠ 0 := by
      rw [hc.blocknum]
      exact num.2
    have hbase : d.prog.baseaddr = blockAddr addr num := by
      unfold Prog.baseaddr
      rw [hc.addr, hc.blocknum]
      rfl
    have hlen : d.prog.len.toUInt32.toNat = data.1.length := by
      rw [UInt16.toNat_toUInt32]
      exact hc.len
    rw [if_neg hnum, Stm32F1Dfu.execBlock, ifdefSafeWrite_off hbuild]
    exact if_neg (hbase ▸ inRange_out (blockAddr_aligned addr num) hout hoff
      (hlen ▸ data.2.1) (hlen ▸ data.2.2))

/-- **A command carried out** does what the map says of its sector. -/
theorem Simulates.expected {f f' : Dfu} {s : ℕ → Fin 1024 → UInt8} (h : Simulates f addr s)
    (hoff : ∀ a ∈ c.target addr, a.toNat + 1024 < 2 ^ 32)
    (hstored : Stored f c.blocknum c.bytes f') :
    Simulates (usbdfuGetstatusComplete (afterGetstatus f')) (c.pointer addr)
      (PageStore.run 0xFF s (c.expected flashMap addr).toList) := by
  by_cases hin : ∀ a ∈ c.target addr, InApp a
  · rw [DfuseCmd.expected_in hin]
    exact (h.execute hin hstored).1
  · push Not at hin
    obtain ⟨a, ha, hout⟩ := hin
    rw [DfuseCmd.expected_out ha hout]
    obtain ⟨p, rfl, haddr, hnum, hlen, hbytes⟩ := hstored
    obtain ⟨log, hbusy⟩ : ∃ log, afterGetstatus
        { f with prog := p, state := .dnloadSync, log := .dnload p :: f.log }
          = { f with prog := p, state := .dnbusy, log := log } := ⟨_, rfl⟩
    have hc : Carries p addr c := ⟨haddr.trans h.addr, hnum, hlen, hbytes⟩
    have hexec := execProg_out
      (d := { f with prog := p, state := .dnbusy, log := log, store := flashUnlock f.store })
      h.build hc ha hout (hoff a ha)
    -- the address pointer stays, as for every command with a target
    have hafter : p.addrAfter = p.addr :=
      congrArg (fun d : Dfu => d.prog.addr) ((execProg_frame _).symm.trans hexec)
    have hpointer : c.pointer addr = addr := by
      cases c with
      | setaddr b => exact absurd ha (by simp [DfuseCmd.target])
      | erase b => rfl
      | block num data => rfl
    rw [hbusy, usbdfuGetstatusComplete_dnbusy rfl, hpointer]
    dsimp only
    rw [hexec]
    refine ⟨?_, hafter.trans hc.addr, h.build⟩
    show Holds (flashLock (flashUnlock f.store)).flash s
    rw [flashLock_flash, flashUnlock_flash]
    exact h.pages

end

/-! ### Sessions -/

/-- **The simulation** over a session of commands for anywhere. -/
theorem run_expected {d : Dev} {f : Dfu} {addr : PageAddr} {s : ℕ → Fin 1024 → UInt8}
    (hidle : Idle d f) (h : Simulates f addr s) {cmds : List (DfuseCmd × ℕ)}
    (hoff : OffLastPage addr (cmds.map Prod.fst)) {evs : List BusEvent}
    (hpaced : Paced (sessionPackets cmds) evs) :
    Holds (d.run evs).dfu.store.flash
      (PageStore.run 0xFF s (expectedOps flashMap addr (cmds.map Prod.fst))) := by
  induction cmds generalizing d f addr s evs with
  | nil =>
    cases hpaced
    show Holds d.dfu.store.flash s
    rw [hidle.dfu]
    exact h.pages
  | cons c cmds ih =>
    obtain ⟨hhead, htail⟩ := hoff
    have hboth : Paced (c.1.packets c.2 ++ sessionPackets cmds) evs := hpaced
    obtain ⟨evs₁, evs₂, rfl, hcmd, hrest⟩ := hboth.split
    obtain ⟨f', log, hstored, hidle'⟩ := run_command_stored hidle hcmd
    obtain ⟨hpages, haddr, hbuild⟩ := h.expected hhead hstored
    have hholds := ih hidle' ⟨hpages, haddr, hbuild⟩ htail hrest
    rw [← PageStore.run_append, ← Dev.run_append] at hholds
    exact hholds

/-- The device does what the map `m` says: the sectors are the pages of the flash, and in any
    session an erase or a block for a sector that is declared for it is carried out, and any other
    leaves the flash as it is.  The build is the repository's, which defines `ENABLE_SAFEWRITE`
    nowhere. -/
structure Honours (m : Map) : Prop where
  sectors {a : UInt32} {s : Sector} (h : m.sectorAt a.toNat = some s) (b : UInt32) :
    m.sectorAt b.toNat = some s ↔ pageOf b = pageOf a
  sessions {d : Dev} {f : Dfu} {addr : PageAddr} {cmds : List (DfuseCmd × ℕ)} {evs : List BusEvent}
    (hidle : Idle d f) (hbuild : f.safeWrite = false) (haddr : f.prog.addr = addr)
    (hoff : OffLastPage addr (cmds.map Prod.fst)) (hpaced : Paced (sessionPackets cmds) evs) :
    Holds (d.run evs).dfu.store.flash
      (PageStore.run 0xFF (flashPages f.store.flash) (expectedOps m addr (cmds.map Prod.fst)))

theorem honours_flashMap : Honours flashMap where
  sectors h b := flashMap_sector_iff h b
  sessions hidle hbuild haddr hoff hpaced :=
    run_expected hidle ⟨holds_flashPages _, haddr, hbuild⟩ hoff hpaced

/-- **The memory map is honoured.**  Whatever the device did before, a host that asks for the name
    of the interface reads a map that the device keeps to. -/
theorem memoryMap_honoured {d : Dev} (req : UsbSetupData) (hd : Reachable d)
    (hs : d.Polls .poll .setup) (hnext : d.nextSetup = some req) (hreq : req.IsGetDescriptor)
    (hvalue : req.wValue = 0x0304) (hindex : req.wIndex = 0x0409) (hlen : 92 ≤ req.wLength.toNat) :
    ∃ k bytes m, d.Fetches k bytes ∧ readMap bytes = some m ∧ Honours m := by
  have hds : descriptors d.dfu.safeWrite d.uniqueId req.wValue req.wIndex
      = some [⟨3, utf16 (usbStrings d.dfu.safeWrite d.uniqueId 3)⟩] := by
    rw [hvalue, hindex]
    rfl
  have hne : req.wLength ≠ 0 := fun h0 => by
    rw [h0] at hlen
    exact absurd hlen (by decide)
  obtain ⟨⟨k, hfetch⟩, -⟩ := getDescriptor_reply hd hs hnext hreq hne hds
  have hall := (descriptors_fit hds).2
  rw [List.take_of_length_le (le_trans hall hlen)] at hfetch
  exact ⟨k, _, flashMap, hfetch, readMap_usbStrings _ d.uniqueId, honours_flashMap⟩

/-- A block for the application, and one for the boot loader. -/
def bothRegions : List (DfuseCmd × ℕ) :=
  [(.setaddr ⟨0x08005400, by decide⟩, 0), (.block ⟨6, by decide⟩ ⟨[0x11, 0x22], by decide⟩, 0),
   (.setaddr ⟨0x08000000, by decide⟩, 0), (.block ⟨6, by decide⟩ ⟨[0x33, 0x44], by decide⟩, 1)]

/-- The map is read, and the blocks are downloaded to a fresh device. -/
theorem memoryMap_honoured_bothRegions :
    ∃ k bytes m, ((Dev.init blankBoard).run getFlashNameRun).Fetches k bytes
      ∧ readMap bytes = some m
      ∧ Holds ((Dev.init blankBoard).run
            ([.busReset, .poll] ++ polled (sessionPackets bothRegions))).dfu.store.flash
          (PageStore.run 0xFF (flashPages blankBoard.flash)
            (expectedOps m ⟨0, rfl⟩ (bothRegions.map Prod.fst))) := by
  obtain ⟨k, bytes, m, hfetch, hread, hm⟩ :=
    memoryMap_honoured (d := (Dev.init blankBoard).run getFlashNameRun) getFlashName
      ⟨blankBoard, getFlashNameRun, rfl⟩ (by decide +kernel) (by decide +kernel) ⟨rfl, rfl⟩ rfl rfl
      (by decide)
  have hoff : OffLastPage ⟨0, rfl⟩ (bothRegions.map Prod.fst) := by
    simp [bothRegions, OffLastPage, DfuseCmd.target, DfuseCmd.pointer, blockAddr]
  rw [Dev.run_append]
  exact ⟨k, bytes, m, hfetch, hread,
    hm.sessions (init_idle blankBoard) rfl rfl hoff (paced_polled _)⟩

end Stm32F1Dfu
