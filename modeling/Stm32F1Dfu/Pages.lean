import Stm32F1Dfu.Sessions
import Stm32F1Dfu.Blocks
import Stm32F1Dfu.Lib.PageStore

namespace Stm32F1Dfu

open PageStore

/-!
# A DFU session and the pages of the flash

What a DfuSe host downloads, as operations on a store of pages, and that the flash is such a
store: pages are erased only when they are dirty, blocks are programmed over what is there,
everything is put off to the status stage of a `DFU_GETSTATUS` — and each page holds what the
last command addressed to it says.

* `DfuseCmd` — complete commands and blocks, and `DfuseCmd.pageOp`, what they mean;
* `Simulates.execute` — carrying one command out;
* `run_command` — the transfers of one command;
* `session_pages` — a whole session.
-/

/-! ### What a host downloads -/

/-- The address of a 1 KB page. -/
abbrev PageAddr := { a : UInt32 // a.toNat % 1024 = 0 }

/-- The number of a block; 0 marks a command. -/
abbrev BlockNum := { n : UInt16 // n ≠ 0 }

/-- The bytes of a block. -/
abbrev BlockData := { data : List UInt8 // 0 < data.length ∧ data.length ≤ 1024 }

/-- A complete command with a page address, or a block. -/
inductive DfuseCmd where
  | setaddr (a : PageAddr)
  | erase (a : PageAddr)
  | block (num : BlockNum) (data : BlockData)
  deriving DecidableEq

namespace DfuseCmd

/-- `wBlockNum` of its `DFU_DNLOAD`. -/
def blocknum : DfuseCmd → UInt16
  | setaddr _   => 0
  | erase _     => 0
  | block num _ => num

/-- The bytes it downloads. -/
def bytes : DfuseCmd → List UInt8
  | setaddr a    => commandBytes cmdSetaddr a
  | erase a      => commandBytes cmdErase a
  | block _ data => data

theorem bytes_length (c : DfuseCmd) : 0 < c.bytes.length ∧ c.bytes.length ≤ 1024 := by
  cases c with
  | setaddr a => exact ⟨Nat.succ_pos 4, show 5 ≤ 1024 by omega⟩
  | erase a => exact ⟨Nat.succ_pos 4, show 5 ≤ 1024 by omega⟩
  | block num data => exact data.2

/-- The address pointer after it, from `addr`. -/
def pointer (addr : PageAddr) : DfuseCmd → PageAddr
  | setaddr a => a
  | _         => addr

/-- The address it is for: the operand of an erase, the base of a block. -/
def target (addr : PageAddr) : DfuseCmd → Option UInt32
  | setaddr _   => none
  | erase a     => some a
  | block num _ => some (blockAddr addr num)

/-- **What it means** for the pages: an erase, or the whole half-words of a block. -/
def pageOp (addr : PageAddr) : DfuseCmd → Option (PageOp ℕ UInt8)
  | setaddr _      => none
  | erase a        => some (.erase (pageOf a))
  | block num data =>
      some (.write (pageOf (blockAddr addr num)) (data.1.take (2 * (data.1.length / 2))))

/-- The packets of its `DFU_DNLOAD`, and of `polls + 1` times `DFU_GETSTATUS`. -/
def packets (c : DfuseCmd) (polls : ℕ) : List BusEvent :=
  dnloadPackets c.blocknum c.bytes ++ (List.replicate (polls + 1) getstatusPackets).flatten

end DfuseCmd

/-- The packets of a session: each command with the number of times its status is asked for
    again. -/
def sessionPackets (cmds : List (DfuseCmd × ℕ)) : List BusEvent :=
  cmds.flatMap fun c => c.1.packets c.2

/-- Erases and blocks are for the application region, when the address pointer is `addr` at
    the start. -/
def ForApp : PageAddr → List DfuseCmd → Prop
  | _, []         => True
  | addr, c :: cs => (∀ a ∈ c.target addr, InApp a) ∧ ForApp (c.pointer addr) cs

instance DfuseCmd.decidableTarget (addr : PageAddr) (c : DfuseCmd) :
    Decidable (∀ a ∈ c.target addr, InApp a) :=
  match c with
  | .setaddr _   => .isTrue (by simp [target])
  | .erase a     => decidable_of_iff (InApp a) (by simp [target])
  | .block num _ => decidable_of_iff (InApp (blockAddr addr num)) (by simp [target])

instance ForApp.decidable : (addr : PageAddr) → (cmds : List DfuseCmd) → Decidable (ForApp addr cmds)
  | _, []         => .isTrue trivial
  | addr, c :: cs =>
      @instDecidableAnd _ _ (c.decidableTarget addr) (ForApp.decidable (c.pointer addr) cs)

/-- What a session means for the pages. -/
def pageOps : PageAddr → List DfuseCmd → List (PageOp ℕ UInt8)
  | _, []         => []
  | addr, c :: cs => (c.pageOp addr).toList ++ pageOps (c.pointer addr) cs

/-! ### The flash as a store of pages -/

/-- The place of an address in its page. -/
def pageOffset (a : UInt32) : Fin 1024 := ⟨a.toNat % 1024, Nat.mod_lt _ (by decide)⟩

/-- The pages of a flash. -/
def flashPages (m : UInt32 → UInt8) : ℕ → Fin 1024 → UInt8 :=
  fun page i => m (UInt32.ofNat (1024 * page + i))

/-- The flash `m` holds the pages `s`. -/
def Holds (m : UInt32 → UInt8) (s : ℕ → Fin 1024 → UInt8) : Prop :=
  ∀ a, m a = s (pageOf a) (pageOffset a)

theorem holds_flashPages (m : UInt32 → UInt8) : Holds m (flashPages m) := by
  intro a
  show m a = m (UInt32.ofNat (1024 * (a.toNat / 1024) + a.toNat % 1024))
  rw [Nat.div_add_mod, UInt32.ofNat_toNat]

/-- A flash that differs in one page holds the pages with that one replaced. -/
theorem Holds.apply {m m' : UInt32 → UInt8} {s : ℕ → Fin 1024 → UInt8} (h : Holds m s)
    {op : PageOp ℕ UInt8}
    (hm : ∀ a, m' a = if pageOf a = op.page then op.content 0xFF (pageOffset a) else m a) :
    Holds m' (PageStore.apply 0xFF s op) := by
  intro a
  rw [hm a]
  by_cases hpage : pageOf a = op.page
  · rw [if_pos hpage, hpage, apply_page]
  · rw [if_neg hpage, apply_of_ne _ _ hpage, h a]

/-- The bytes of a block, to the last whole half-word, and `0xFF` behind them. -/
theorem content_write (page i : ℕ) (hi : i < 1024) (data : List UInt8) :
    (PageOp.write page (data.take (2 * (data.length / 2)))).content 0xFF (⟨i, hi⟩ : Fin 1024)
      = if i < 2 * (data.length / 2) then data.getD i 0 else 0xFF := by
  show (data.take (2 * (data.length / 2))).getD i 0xFF = _
  by_cases hin : i < 2 * (data.length / 2)
  · have hlt : i < data.length := by omega
    simp [hin, hlt, List.getD_eq_getElem?_getD]
  · simp [hin, List.getD_eq_getElem?_getD]

/-- The address of a block is one of a page if the address pointer is. -/
theorem blockAddr_aligned (addr : PageAddr) (wBlockNum : UInt16) :
    (blockAddr addr wBlockNum).toNat % 1024 = 0 := by
  have haddr := addr.2
  unfold blockAddr
  rw [UInt32.toNat_add, UInt32.toNat_mul]
  have h1024 : (1024 : UInt32).toNat = 1024 := rfl
  rw [h1024]
  omega

/-! ### Carrying out one command -/

/-- The stored download `p` is the command `c`. -/
structure Carries (p : Prog) (addr : PageAddr) (c : DfuseCmd) : Prop where
  addr : p.addr = addr
  blocknum : p.blocknum = c.blocknum
  len : p.len.toNat = c.bytes.length
  bytes : ∀ i < c.bytes.length, p.buf i = c.bytes.getD i 0

section

variable {d : Dfu} {addr : PageAddr} {s : ℕ → Fin 1024 → UInt8}

/-- A command with an operand. -/
theorem operand_eq {p : Prog} {cmd : UInt8} {a : UInt32}
    (h : ∀ i < 5, p.buf i = (commandBytes cmd a).getD i 0) : p.buf 0 = cmd ∧ p.operand = a := by
  refine ⟨h 0 (by omega), ?_⟩
  unfold Prog.operand
  rw [h 1 (by omega), h 2 (by omega), h 3 (by omega), h 4 (by omega)]
  exact LittleEndian.word_bytes a

/-- Without `ENABLE_SAFEWRITE` nothing is wiped. -/
theorem ifdefSafeWrite_off (hbuild : d.safeWrite = false) : ifdefSafeWrite d = d := by
  unfold ifdefSafeWrite
  rw [hbuild, if_neg Bool.false_ne_true]

/-- **`CMD_ERASE`** makes the page blank, whether it has to be erased for that or not. -/
theorem Holds.execErase (h : Holds d.store.flash s) (hu : d.store.locked = false)
    (hbuild : d.safeWrite = false) {a : PageAddr} (hop : d.prog.operand = a) (hin : InApp a) :
    Holds (Stm32F1Dfu.execErase d).store.flash
      (PageStore.apply 0xFF s (.erase (pageOf a))) := by
  have hrange : inRange a 1024 = true := by
    rw [inApp_iff] at hin
    have ha := a.2
    rw [inRange_iff (by decide)]
    have h1024 : (1024 : UInt32).toNat = 1024 := rfl
    omega
  apply h.apply
  intro b
  rw [execErase_store, hop, if_pos hrange, ifdefSafeWrite_off hbuild, eraseIfDirty_aligned hu a.2]
  rfl

/-- **A block** replaces its page. -/
theorem Holds.execBlock (h : Holds d.store.flash s) (hu : d.store.locked = false)
    (hbuild : d.safeWrite = false) {num : BlockNum} {data : BlockData}
    (hc : Carries d.prog addr (.block num data)) (hin : InApp (blockAddr addr num)) :
    Holds (Stm32F1Dfu.execBlock d).store.flash
      (PageStore.apply 0xFF s
        (.write (pageOf (blockAddr addr num)) (data.1.take (2 * (data.1.length / 2))))) := by
  have hbase : d.prog.baseaddr = blockAddr addr num := by
    unfold Prog.baseaddr
    rw [hc.addr, hc.blocknum]
    rfl
  have hlen : d.prog.len.toNat = data.1.length := hc.len
  have halign := blockAddr_aligned addr num
  have hle := data.2.2
  have hrange : inRange d.prog.baseaddr d.prog.len.toUInt32 = true := by
    rw [inApp_iff] at hin
    rw [hbase, inRange_iff (by simpa [hlen] using hle), UInt16.toNat_toUInt32, hlen]
    omega
  apply h.apply
  intro a
  rw [execBlock_page hu hrange (by rw [hbase]; exact halign) (by omega), ifdefSafeWrite_off hbuild,
    hbase, hlen, PageOp.page_write]
  by_cases hpage : pageOf a = pageOf (blockAddr addr num)
  · rw [if_pos hpage, if_pos hpage]
    -- the offset from the base is the offset in the page
    have hoff : a.toNat - (blockAddr addr num).toNat = a.toNat % 1024 := by
      simp only [pageOf] at hpage
      omega
    rw [hoff, pageOffset, content_write]
    by_cases hlt : a.toNat % 1024 < 2 * (data.1.length / 2)
    · rw [if_pos hlt, if_pos hlt]
      exact hc.bytes _ (show a.toNat % 1024 < data.1.length by omega)
    · rw [if_neg hlt, if_neg hlt]
  · rw [if_neg hpage, if_neg hpage]

/-- **One command carried out** is its operation on the pages. -/
theorem Holds.execProg (h : Holds d.store.flash s) (hu : d.store.locked = false)
    (hbuild : d.safeWrite = false) {c : DfuseCmd} (hc : Carries d.prog addr c)
    (hin : ∀ a ∈ c.target addr, InApp a) :
    Holds (Stm32F1Dfu.execProg d).store.flash (PageStore.run 0xFF s (c.pageOp addr).toList)
      ∧ (d.prog.addrAfter = c.pointer addr) := by
  unfold Stm32F1Dfu.execProg Prog.addrAfter
  cases c with
  | setaddr a =>
    obtain ⟨hcmd, hop⟩ := operand_eq hc.bytes
    have hnum : d.prog.blocknum = 0 := hc.blocknum
    rw [if_pos hnum, hcmd, if_neg cmdErase_ne_cmdSetaddr.symm, if_pos rfl, if_pos ⟨hnum, rfl⟩]
    exact ⟨h, hop⟩
  | erase a =>
    obtain ⟨hcmd, hop⟩ := operand_eq hc.bytes
    have hnum : d.prog.blocknum = 0 := hc.blocknum
    rw [if_pos hnum, hcmd, if_pos rfl, if_neg fun hset => cmdErase_ne_cmdSetaddr hset.2]
    exact ⟨h.execErase hu hbuild hop (hin a rfl), hc.addr⟩
  | block num data =>
    have hnum : d.prog.blocknum ≠ 0 := by
      rw [hc.blocknum]
      exact num.2
    rw [if_neg hnum, if_neg fun hset => hnum hset.1]
    exact ⟨h.execBlock hu hbuild hc (hin _ rfl), hc.addr⟩

end

/-! ### Sessions -/

/-- The driver between two commands, with the address pointer `addr` and the pages `s`. -/
structure Simulates (f : Dfu) (addr : PageAddr) (s : ℕ → Fin 1024 → UInt8) : Prop where
  pages : Holds f.store.flash s
  addr : f.prog.addr = addr
  build : f.safeWrite = false

/-- **A step of the simulation**: the first `DFU_GETSTATUS` after its download carries a
    command out. -/
theorem Simulates.execute {f f' : Dfu} {addr : PageAddr} {s : ℕ → Fin 1024 → UInt8} {c : DfuseCmd}
    (h : Simulates f addr s) (hin : ∀ a ∈ c.target addr, InApp a)
    (hstored : Stored f c.blocknum c.bytes f') :
    let f'' := usbdfuGetstatusComplete (afterGetstatus f')
    Simulates f'' (c.pointer addr) (PageStore.run 0xFF s (c.pageOp addr).toList)
      ∧ f''.state = .dnloadIdle ∧ f''.reset = f.reset := by
  obtain ⟨p, rfl, haddr, hnum, hlen, hbytes⟩ := hstored
  -- `DFU_GETSTATUS` reports `dfuDNBUSY`, and its completion acts on it
  obtain ⟨log, hbusy⟩ : ∃ log, afterGetstatus
      { f with prog := p, state := .dnloadSync, log := .dnload p :: f.log }
        = { f with prog := p, state := .dnbusy, log := log } := ⟨_, rfl⟩
  have hc : Carries p addr c := ⟨haddr.trans h.addr, hnum, hlen, hbytes⟩
  obtain ⟨hpages, hpointer⟩ := Holds.execProg
    (d := { f with prog := p, state := .dnbusy, log := log, store := flashUnlock f.store })
    (by rw [flashUnlock_flash]; exact h.pages) (flashUnlock_locked _) h.build hc hin
  show Simulates (usbdfuGetstatusComplete (afterGetstatus _)) _ _ ∧ _
  rw [hbusy, usbdfuGetstatusComplete_dnbusy rfl]
  exact ⟨⟨hpages, hpointer, h.build⟩, rfl, rfl⟩

/-- Asking again does nothing. -/
theorem getstatus_dnloadIdle {f : Dfu} (h : f.state = .dnloadIdle) :
    ∃ log, usbdfuGetstatusComplete (afterGetstatus f) = { f with log := log } := by
  have hget : usbdfuGetstatus f 0 = (dfuStatusOk, 0, f) := by
    simp only [usbdfuGetstatus, h]
  have hafter : afterGetstatus f = { f with log := .status dfuStatusOk f.state :: f.log } := by
    unfold afterGetstatus
    rw [hget]
  rw [hafter, usbdfuGetstatusComplete_other (by rw [h]; simp), if_neg (by rw [h]; simp)]
  exact ⟨_, rfl⟩

/-- The status is asked for `n` more times. -/
theorem run_getstatus_again {d : Dev} {f : Dfu} (h : Idle d f) (hstate : f.state = .dnloadIdle)
    {n : ℕ} {evs : List BusEvent}
    (hpaced : Paced (List.replicate n getstatusPackets).flatten evs) :
    ∃ log, Idle (d.run evs) { f with log := log } := by
  induction n generalizing d f evs with
  | zero =>
    cases hpaced
    exact ⟨f.log, h⟩
  | succ n ih =>
    rw [List.replicate_succ, List.flatten_cons] at hpaced
    obtain ⟨evs₁, evs₂, rfl, h₁, h₂⟩ := hpaced.split
    obtain ⟨log, heq⟩ := getstatus_dnloadIdle hstate
    have hidle := run_getstatus h (by rw [heq]; exact h.runs) h₁
    rw [heq] at hidle
    rw [Dev.run_append]
    exact ih hidle hstate h₂

/-- **The transfers of one command** carry it out, once. -/
theorem run_command {d : Dev} {f : Dfu} {addr : PageAddr} {s : ℕ → Fin 1024 → UInt8} (hidle : Idle d f)
    (h : Simulates f addr s) {c : DfuseCmd} {polls : ℕ} (hin : ∀ a ∈ c.target addr, InApp a)
    {evs : List BusEvent} (hpaced : Paced (c.packets polls) evs) :
    ∃ f', Idle (d.run evs) f'
      ∧ Simulates f' (c.pointer addr) (PageStore.run 0xFF s (c.pageOp addr).toList) := by
  unfold DfuseCmd.packets at hpaced
  rw [List.replicate_succ, List.flatten_cons] at hpaced
  obtain ⟨evs₁, rest, rfl, hdnload, hpaced⟩ := hpaced.split
  obtain ⟨evs₂, evs₃, rfl, hget, hagain⟩ := hpaced.split
  obtain ⟨hpos, hle⟩ := c.bytes_length
  obtain ⟨f', hstored, hidle'⟩ := run_dnload hidle hpos hle hdnload
  obtain ⟨hsim, hstate, hreset⟩ := h.execute hin hstored
  have hidle'' := run_getstatus hidle' (hreset.trans hidle.runs) hget
  obtain ⟨log, hend⟩ := run_getstatus_again hidle'' hstate hagain
  rw [Dev.run_append, Dev.run_append]
  exact ⟨_, hend, hsim.pages, hsim.addr, hsim.build⟩

/-- The transfers of one command on any idle device: it is stored, and carried out by the first
    `DFU_GETSTATUS`. -/
theorem run_command_stored {d : Dev} {f : Dfu} (hidle : Idle d f) {c : DfuseCmd} {polls : ℕ}
    {evs : List BusEvent} (hpaced : Paced (c.packets polls) evs) :
    ∃ f' log, Stored f c.blocknum c.bytes f'
      ∧ Idle (d.run evs) { usbdfuGetstatusComplete (afterGetstatus f') with log := log } := by
  unfold DfuseCmd.packets at hpaced
  rw [List.replicate_succ, List.flatten_cons] at hpaced
  obtain ⟨evs₁, rest, rfl, hdnload, hpaced⟩ := hpaced.split
  obtain ⟨evs₂, evs₃, rfl, hget, hagain⟩ := hpaced.split
  obtain ⟨hpos, hle⟩ := c.bytes_length
  obtain ⟨f', hstored, hidle'⟩ := run_dnload hidle hpos hle hdnload
  obtain ⟨hstate, hreset⟩ : (usbdfuGetstatusComplete (afterGetstatus f')).state = .dnloadIdle
      ∧ (usbdfuGetstatusComplete (afterGetstatus f')).reset = f.reset := by
    obtain ⟨p, rfl, -⟩ := hstored
    obtain ⟨log, hbusy⟩ : ∃ log, afterGetstatus
        { f with prog := p, state := .dnloadSync, log := .dnload p :: f.log }
          = { f with prog := p, state := .dnbusy, log := log } := ⟨_, rfl⟩
    rw [hbusy, usbdfuGetstatusComplete_dnbusy rfl]
    exact ⟨rfl, rfl⟩
  have hidle'' := run_getstatus hidle' (hreset.trans hidle.runs) hget
  obtain ⟨log, hend⟩ := run_getstatus_again hidle'' hstate hagain
  rw [Dev.run_append, Dev.run_append]
  exact ⟨f', log, hstored, hend⟩

/-- **The simulation** over a session: it ends on an idle device. -/
theorem run_session_idle {d : Dev} {f : Dfu} {addr : PageAddr} {s : ℕ → Fin 1024 → UInt8}
    (hidle : Idle d f) (h : Simulates f addr s) {cmds : List (DfuseCmd × ℕ)}
    (hin : ForApp addr (cmds.map Prod.fst)) {evs : List BusEvent}
    (hpaced : Paced (sessionPackets cmds) evs) :
    ∃ f' addr', Idle (d.run evs) f'
      ∧ Simulates f' addr' (PageStore.run 0xFF s (pageOps addr (cmds.map Prod.fst))) := by
  induction cmds generalizing d f addr s evs with
  | nil =>
    cases hpaced
    exact ⟨f, addr, hidle, h⟩
  | cons c cmds ih =>
    obtain ⟨hhead, htail⟩ := hin
    have hboth : Paced (c.1.packets c.2 ++ sessionPackets cmds) evs := hpaced
    obtain ⟨evs₁, evs₂, rfl, hcmd, hrest⟩ := hboth.split
    obtain ⟨f', hidle', hsim⟩ := run_command hidle h hhead hcmd
    obtain ⟨f'', addr'', hidle'', hsim'⟩ := ih hidle' hsim htail hrest
    rw [← PageStore.run_append] at hsim'
    rw [← Dev.run_append] at hidle''
    exact ⟨f'', addr'', hidle'', hsim'⟩

/-- The flash after a session. -/
theorem run_session {d : Dev} {f : Dfu} {addr : PageAddr} {s : ℕ → Fin 1024 → UInt8}
    (hidle : Idle d f) (h : Simulates f addr s) {cmds : List (DfuseCmd × ℕ)}
    (hin : ForApp addr (cmds.map Prod.fst)) {evs : List BusEvent}
    (hpaced : Paced (sessionPackets cmds) evs) :
    Holds (d.run evs).dfu.store.flash
      (PageStore.run 0xFF s (pageOps addr (cmds.map Prod.fst))) := by
  obtain ⟨f', addr', hidle', hsim⟩ := run_session_idle hidle h hin hpaced
  rw [hidle'.dfu]
  exact hsim.pages

/-- **A session and the flash.**  From any contents of the flash, the transfers of any commands
    and blocks for the application region leave each page as the operations on it do: with the
    content of the last one that was addressed to it, and as it was if there is none.  The
    build is the repository's, which defines `ENABLE_SAFEWRITE` nowhere. -/
theorem session_pages (b : Board) (hbuild : b.safeWrite = false) {cmds : List (DfuseCmd × ℕ)}
    (hin : ForApp ⟨0, rfl⟩ (cmds.map Prod.fst)) {evs : List BusEvent}
    (hpaced : Paced (sessionPackets cmds) evs) :
    let flash := ((Dev.init b).run ([.busReset, .poll] ++ evs)).dfu.store.flash
    let ops := pageOps ⟨0, rfl⟩ (cmds.map Prod.fst)
    Holds flash (PageStore.run 0xFF (flashPages b.flash) ops)
      ∧ ∀ a, flash a = (lastOp (pageOf a) ops).elim (b.flash a)
          fun op => op.content 0xFF (pageOffset a) := by
  intro flash ops
  have hsim : Simulates (Dfu.init b.safeWrite b.store) ⟨0, rfl⟩ (flashPages b.flash) :=
    ⟨holds_flashPages b.flash, rfl, hbuild⟩
  have hholds : Holds flash (PageStore.run 0xFF (flashPages b.flash) ops) := by
    show Holds ((Dev.init b).run ([.busReset, .poll] ++ evs)).dfu.store.flash _
    rw [Dev.run_append]
    exact run_session (init_idle b) hsim hin hpaced
  refine ⟨hholds, fun a => ?_⟩
  rw [hholds a, run_eq_last]
  cases lastOp (pageOf a) ops with
  | none => exact (holds_flashPages b.flash a).symm
  | some op => rfl

/-- A page is written with an odd block, erased and written again; the one before it is
    erased. -/
def rewrittenPage : List (DfuseCmd × ℕ) :=
  [(.setaddr ⟨0x08002000, by decide⟩, 0),
   (.block ⟨3, by decide⟩ ⟨[0x11, 0x22, 0x33], by decide⟩, 1),
   (.erase ⟨0x08002400, by decide⟩, 0),
   (.block ⟨3, by decide⟩ ⟨[0xAA, 0x55], by decide⟩, 1),
   (.erase ⟨0x08002000, by decide⟩, 2)]

/-- That session on a flash that is all zero. -/
theorem session_pages_rewrittenPage :
    let flash := ((Dev.init { blankBoard with flash := fun _ => 0 }).run
      ([.busReset, .poll] ++ polled (sessionPackets rewrittenPage))).dfu.store.flash
    let ops := pageOps ⟨0, rfl⟩ (rewrittenPage.map Prod.fst)
    Holds flash (PageStore.run 0xFF (flashPages fun _ => 0) ops)
      ∧ ∀ a, flash a = (lastOp (pageOf a) ops).elim 0
          fun op => op.content 0xFF (pageOffset a) :=
  session_pages { blankBoard with flash := fun _ => 0 } rfl (by decide) (paced_polled _)

end Stm32F1Dfu
