import Stm32F1Dfu.Link
import Stm32F1Dfu.Lib.Bump

namespace Stm32F1Dfu

open Machine Bump

/-!
# The buffers of the endpoints

`_usbd_ep_setup` hands out the packet memory from `usb_pm_top` on, `max_size` bytes for each
buffer, and `_set_ep_rx_bufsize` tells the hardware how much a receive buffer takes, in
blocks of 2 or 32 bytes.

* `rxCapacity` — what the hardware makes of the word in the table, and `rxCapacity_rxBufsize`
  for the one that is written there;
* `Laid` — every receive buffer takes a packet of its `max_size`, and no buffer overlaps
  another one or the table;
* `Tracks` — the table holds the places that `Bump.alloc` gives out;
* `epSetups_laid_iff` — which calls of `_usbd_ep_setup` leave the buffers so.
-/

/-! ### The capacity of a receive buffer -/

/-- The word that `_set_ep_rx_bufsize` stores. -/
def rxBufsize (size : UInt32) : UInt16 :=
  if size > 62 then
    ((if size &&& 0x1f ≠ 0 then size - 32 else size) <<< 5 ||| 0x8000).toUInt16
  else ((if size &&& 1 ≠ 0 then size + 1 else size) <<< 10).toUInt16

theorem setEpRxBufsize_eq (p : Periph) (ep : UInt8) (size : UInt32) :
    setEpRxBufsize p ep size = usbSetEpRxCount p ep (rxBufsize size) := by
  unfold setEpRxBufsize rxBufsize
  split <;> rfl

/-- The capacity that comes of a `max_size`.  Up to 62 the number of bytes stands where that of
    the blocks belongs, and runs into `BL_SIZE` from 32 on. -/
def rxExtent (n : Nat) : Nat :=
  if n ≤ 30 then 2 * (n + n % 2)
  else if n ≤ 62 then 32 * (n + n % 2 - 31)
  else if 32 ∣ n then n + 32
  else n / 32 * 32

theorem rxCapacity_eq (c : UInt16) :
    rxCapacity c = if c.toNat < 2 ^ 15 then 2 * (c.toNat / 1024 % 32)
      else 32 * (c.toNat / 1024 % 32 + 1) := by
  have hblock : ((c >>> 10) &&& 0x1f).toNat = c.toNat / 1024 % 32 := by
    rw [UInt16.toNat_and, UInt16.toNat_shiftRight]
    show c.toNat >>> 10 &&& 2 ^ 5 - 1 = _
    rw [Nat.and_two_pow_sub_one_eq_mod, Nat.shiftRight_eq_div_pow]
  have hsize : c &&& 0x8000 = 0 ↔ c.toNat < 2 ^ 15 := by
    have hlt := c.toNat_lt
    rw [← UInt16.toNat_inj, UInt16.toNat_and]
    show c.toNat &&& 2 ^ 15 = 0 ↔ _
    rw [Nat.and_two_pow, Nat.testBit_eq_decide_div_mod_eq]
    by_cases hbit : c.toNat / 2 ^ 15 % 2 = 1
    · rw [decide_eq_true hbit]
      exact iff_of_false (by decide) (by omega)
    · rw [decide_eq_false hbit]
      exact iff_of_true (Nat.zero_mul _) (by omega)
  unfold rxCapacity
  simp only [hblock, hsize]

/-- `BL_SIZE` and the blocks of 32 bytes, as they are stored. -/
theorem wideCount_toNat {x : UInt32} (h : x.toNat ≤ 512) :
    (x <<< 5 ||| 0x8000).toUInt16.toNat = 32 * x.toNat + 2 ^ 15 := by
  have hshift : (x <<< 5).toNat = 32 * x.toNat := by
    rw [UInt32.toNat_shiftLeft]
    show x.toNat <<< 5 % 2 ^ 32 = _
    rw [Nat.shiftLeft_eq]
    omega
  rw [UInt32.toNat_toUInt16, UInt32.toNat_or, hshift]
  show (32 * x.toNat ||| 2 ^ 15) % 2 ^ 16 = _
  rw [Nat.or_two_pow_eq_add_of_lt (by omega)]
  omega

/-- The blocks of 2 bytes, as they are stored. -/
theorem narrowCount_toNat {x : UInt32} (h : x.toNat < 64) :
    (x <<< 10).toUInt16.toNat = 1024 * x.toNat := by
  rw [UInt32.toNat_toUInt16, UInt32.toNat_shiftLeft]
  show x.toNat <<< 10 % 2 ^ 32 % 2 ^ 16 = _
  rw [Nat.shiftLeft_eq]
  omega

/-- The stored word as a number. -/
theorem rxBufsize_toNat {n : Nat} (h : n ≤ 512) :
    (rxBufsize (UInt32.ofNat n)).toNat
      = if n ≤ 62 then 1024 * (n + n % 2)
        else 32 * (if 32 ∣ n then n else n - 32) + 2 ^ 15 := by
  have hn : (UInt32.ofNat n).toNat = n := by
    rw [UInt32.toNat_ofNat']
    omega
  have hmask (k : Nat) (m : UInt32) (hm : m.toNat = 2 ^ k - 1) :
      UInt32.ofNat n &&& m = 0 ↔ n % 2 ^ k = 0 := by
    rw [← UInt32.toNat_inj, UInt32.toNat_and, hn, hm, Nat.and_two_pow_sub_one_eq_mod]
    rfl
  have hwide : UInt32.ofNat n > 62 ↔ ¬ n ≤ 62 := by
    rw [gt_iff_lt, UInt32.lt_iff_toNat_lt, hn, Nat.not_le]
    rfl
  unfold rxBufsize
  by_cases hsmall : n ≤ 62
  -- blocks of 2 bytes
  · rw [if_neg (not_not_intro hsmall ∘ hwide.mp), if_pos hsmall, ite_not]
    have hodd := hmask 1 1 rfl
    have hsize : (if UInt32.ofNat n &&& 1 = 0 then UInt32.ofNat n else UInt32.ofNat n + 1).toNat
        = n + n % 2 := by
      split
      · rename_i heven
        have := hodd.mp heven
        omega
      · rename_i heven
        rw [hodd] at heven
        rw [UInt32.toNat_add, hn]
        show (n + 1) % 2 ^ 32 = _
        omega
    rw [narrowCount_toNat (by omega), hsize]
  -- blocks of 32 bytes
  · rw [if_pos (hwide.mpr hsmall), if_neg hsmall, ite_not]
    have hblocks := hmask 5 0x1f rfl
    have hsize :
        (if UInt32.ofNat n &&& 0x1f = 0 then UInt32.ofNat n else UInt32.ofNat n - 32).toNat
          = if 32 ∣ n then n else n - 32 := by
      have hle : (32 : UInt32) ≤ UInt32.ofNat n := by
        rw [UInt32.le_iff_toNat_le, hn]
        show 32 ≤ n
        omega
      by_cases hdvd : 32 ∣ n
      · rw [if_pos (hblocks.mpr (Nat.mod_eq_zero_of_dvd hdvd)), if_pos hdvd, hn]
      · rw [if_neg fun hzero => hdvd (Nat.dvd_of_mod_eq_zero (hblocks.mp hzero)), if_neg hdvd,
          UInt32.toNat_sub_of_le _ _ hle, hn]
        rfl
    rw [wideCount_toNat (by rw [hsize]; split <;> omega), hsize]

/-- **The capacity of a buffer that is set up.** -/
theorem rxCapacity_rxBufsize {n : Nat} (h : n ≤ 512) :
    rxCapacity (rxBufsize (UInt32.ofNat n)) = rxExtent n := by
  rw [rxCapacity_eq, rxBufsize_toNat h]
  unfold rxExtent
  by_cases hsmall : n ≤ 62
  · simp only [if_pos hsmall]
    -- from 32 on, the bit above NUM_BLOCK is set
    by_cases htiny : n ≤ 30
    · rw [if_pos (by omega), if_pos htiny]
      omega
    · rw [if_neg (by omega), if_neg htiny]
      omega
  · have hbig : ¬ n ≤ 30 := by omega
    simp only [if_neg hsmall, if_neg hbig]
    rw [if_neg (by omega)]
    by_cases hdvd : 32 ∣ n
    · simp only [if_pos hdvd]
      omega
    · simp only [if_neg hdvd]
      omega

/-! ### What is asked -/

/-- The packet memory has 512 bytes. -/
def packetMemorySize : Nat := 512

/-- The two buffers that an endpoint can have. -/
inductive PmBuffer where
  | tx (ep : UInt8)
  | rx (ep : UInt8)
  deriving DecidableEq

/-- A call of `_usbd_ep_setup`: one of the eight endpoints, a type in `typelookup` and a
    `max_size` from 1 to 512. -/
structure EpSetup where
  addr : UInt8
  type : UInt8
  maxSize : UInt16
  ep_lt : (addr &&& 0x7f).toNat < 8
  type_lt : type.toNat < 4
  size_pos : 0 < maxSize.toNat
  size_le : maxSize.toNat ≤ 512

/-- The number of the endpoint. -/
def EpSetup.ep (c : EpSetup) : UInt8 := c.addr &&& 0x7f

/-- The call. -/
def EpSetup.call (p : Periph) (c : EpSetup) : Periph := usbdEpSetup p c.addr c.type c.maxSize

/-- The buffers that it gives the endpoint, in the order in which they are handed out: endpoint
    0 gets both. -/
def EpSetup.buffers (c : EpSetup) : List (Request PmBuffer) :=
  (if c.addr &&& 0x80 ≠ 0 ∨ c.ep = 0 then [⟨.tx c.ep, c.maxSize.toNat⟩] else [])
    ++ if c.addr &&& 0x80 = 0 then [⟨.rx c.ep, c.maxSize.toNat⟩] else []

/-- The buffers that a list of calls hands out. -/
def buffers (cs : List EpSetup) : List (Request PmBuffer) := cs.flatMap EpSetup.buffers

/-- The bytes that the hardware may read of a transmit buffer of `n` bytes, or fill of a
    receive buffer, from the address in the table on. -/
def Periph.bufferBytes (p : Periph) (n : Nat) : PmBuffer → Set Nat
  | .tx ep => Set.Ico (usbGetEpTxAddr p ep).toNat ((usbGetEpTxAddr p ep).toNat + n)
  | .rx ep => Set.Ico (usbGetEpRxAddr p ep).toNat
      ((usbGetEpRxAddr p ep).toNat + rxCapacity (usbGetEpRxCount p ep))

/-- What the buffer table has to be like for the buffers in use, each with the `max_size` with
    which it was last set up. -/
structure Laid (p : Periph) (rs : List (Request PmBuffer)) : Prop where
  capacity : ∀ ep n, lastSize rs (.rx ep) = some n → n ≤ rxCapacity (usbGetEpRxCount p ep)
  apart : ∀ b b' n n', b ≠ b' → lastSize rs b = some n → lastSize rs b' = some n' →
    ∀ i ∈ p.bufferBytes n b, i ∉ p.bufferBytes n' b'
  table : ∀ b n, lastSize rs b = some n → ∀ i ∈ p.bufferBytes n b, usbdPmTop.toNat ≤ i

/-! ### What the calls leave in the table -/

/-- The extent of a buffer. -/
def PmBuffer.extent : PmBuffer → Nat → Nat
  | .tx _, n => n
  | .rx _, n => rxExtent n

/-- The table has the places that were handed out. -/
structure Tracks (p : Periph) (s : Arena PmBuffer) : Prop where
  top : p.usbPmTop = UInt16.ofNat s.top
  tx : ∀ ep a n, s.place (.tx ep) = some (a, n) → usbGetEpTxAddr p ep = UInt16.ofNat a
  rx : ∀ ep a n, s.place (.rx ep) = some (a, n) →
    usbGetEpRxAddr p ep = UInt16.ofNat a ∧ usbGetEpRxCount p ep = rxBufsize (UInt32.ofNat n)

section

variable {p : Periph} {s : Arena PmBuffer}

/-- What does not concern the table. -/
theorem Periph.slot_congr {p p' : Periph} (hpm : p'.pm = p.pm)
    (hbtable : p'.reg regBtable = p.reg regBtable) (ep : UInt8) (k : Nat) :
    p'.pm (p'.btableSlot ep k) = p.pm (p.btableSlot ep k) := by
  have hslot : p'.btableSlot ep k = p.btableSlot ep k := by
    show (p'.reg regBtable).toNat + _ + _ = _
    rw [hbtable]
    rfl
  rw [hpm, hslot]

theorem Tracks.congr (h : Tracks p s) {p' : Periph} (htop : p'.usbPmTop = p.usbPmTop)
    (hpm : p'.pm = p.pm) (hbtable : p'.reg regBtable = p.reg regBtable) : Tracks p' s := by
  have hslot := Periph.slot_congr hpm hbtable
  refine ⟨htop.trans h.top, fun ep a n hplace => ?_, fun ep a n hplace => ?_⟩
  · exact (hslot ep 0).trans (h.tx ep a n hplace)
  · obtain ⟨haddr, hcount⟩ := h.rx ep a n hplace
    exact ⟨(hslot ep 4).trans haddr, (hslot ep 6).trans hcount⟩

/-- Slots of the table. -/
theorem Periph.btableSlot_ne {ep ep' : UInt8} {k k' : Nat} (hk : k < 8) (hk' : k' < 8)
    (h : ep ≠ ep' ∨ k ≠ k') : p.btableSlot ep k ≠ p.btableSlot ep' k' := by
  unfold Periph.btableSlot
  rcases h with h | h
  · have hne : ep.toNat ≠ ep'.toNat := fun heq => h (UInt8.toNat_inj.mp heq)
    omega
  · by_cases heq : ep = ep'
    · subst heq
      omega
    · have hne : ep.toNat ≠ ep'.toNat := fun heq' => heq (UInt8.toNat_inj.mp heq')
      omega

/-- The top after a buffer is handed out. -/
theorem Tracks.top_add (h : Tracks p s) (maxSize : UInt16) :
    p.usbPmTop + maxSize = UInt16.ofNat (s.top + maxSize.toNat) := by
  rw [h.top, UInt16.ofNat_add, UInt16.ofNat_toNat]

/-- A transmit buffer is handed out. -/
theorem Tracks.allocTx (h : Tracks p s) (ep : UInt8) (maxSize : UInt16) :
    Tracks { p with
        pm := Function.update p.pm (p.btableSlot ep 0) p.usbPmTop
        usbPmTop := p.usbPmTop + maxSize }
      (alloc s ⟨.tx ep, maxSize.toNat⟩) where
  top := h.top_add maxSize
  tx ep' a n hplace := by
    show Function.update p.pm (p.btableSlot ep 0) p.usbPmTop (p.btableSlot ep' 0) = _
    by_cases hep : ep' = ep
    · subst hep
      obtain ⟨rfl, rfl⟩ := Prod.mk.inj (Option.some.inj ((alloc_place s _).symm.trans hplace))
      rw [Function.update_self, h.top]
    · rw [Function.update_of_ne (p.btableSlot_ne (by omega) (by omega) (Or.inl hep))]
      apply h.tx ep' a n
      rw [← hplace, alloc_place_of_ne s fun heq => hep (PmBuffer.tx.inj heq)]
  rx ep' a n hplace := by
    have hplace' : s.place (.rx ep') = some (a, n) := by
      rw [← hplace, alloc_place_of_ne s fun heq => PmBuffer.noConfusion heq]
    have hold := h.rx ep' a n hplace'
    have hslot {k : Nat} (hk : k < 8) (hne : k ≠ 0) :
        Function.update p.pm (p.btableSlot ep 0) p.usbPmTop (p.btableSlot ep' k)
          = p.pm (p.btableSlot ep' k) :=
      Function.update_of_ne (p.btableSlot_ne hk (by omega) (Or.inr hne)) _ _
    exact ⟨(hslot (by omega) (by omega)).trans hold.1, (hslot (by omega) (by omega)).trans hold.2⟩

/-- A receive buffer is handed out. -/
theorem Tracks.allocRx (h : Tracks p s) (ep : UInt8) (maxSize : UInt16) :
    Tracks { p with
        pm := Function.update (Function.update p.pm (p.btableSlot ep 4) p.usbPmTop)
          (p.btableSlot ep 6) (rxBufsize maxSize.toUInt32)
        usbPmTop := p.usbPmTop + maxSize }
      (alloc s ⟨.rx ep, maxSize.toNat⟩) where
  top := h.top_add maxSize
  tx ep' a n hplace := by
    show Function.update (Function.update p.pm (p.btableSlot ep 4) p.usbPmTop)
      (p.btableSlot ep 6) (rxBufsize maxSize.toUInt32) (p.btableSlot ep' 0) = _
    rw [Function.update_of_ne (p.btableSlot_ne (by omega) (by omega) (Or.inr (by omega))),
      Function.update_of_ne (p.btableSlot_ne (by omega) (by omega) (Or.inr (by omega)))]
    apply h.tx ep' a n
    rw [← hplace, alloc_place_of_ne s fun heq => PmBuffer.noConfusion heq]
  rx ep' a n hplace := by
    show Function.update (Function.update p.pm (p.btableSlot ep 4) p.usbPmTop)
        (p.btableSlot ep 6) (rxBufsize maxSize.toUInt32) (p.btableSlot ep' 4) = _
      ∧ Function.update (Function.update p.pm (p.btableSlot ep 4) p.usbPmTop)
        (p.btableSlot ep 6) (rxBufsize maxSize.toUInt32) (p.btableSlot ep' 6) = _
    by_cases hep : ep' = ep
    · subst hep
      obtain ⟨rfl, rfl⟩ := Prod.mk.inj (Option.some.inj ((alloc_place s _).symm.trans hplace))
      rw [Function.update_of_ne (p.btableSlot_ne (by omega) (by omega) (Or.inr (by omega))),
        Function.update_self, Function.update_self, h.top, UInt32.ofNat_uInt16ToNat]
      exact ⟨rfl, rfl⟩
    · have hslot {k k' : Nat} (hk : k < 8) (hk' : k' < 8) :
          p.btableSlot ep' k ≠ p.btableSlot ep k' := p.btableSlot_ne hk hk' (Or.inl hep)
      rw [Function.update_of_ne (hslot (by omega) (by omega)),
        Function.update_of_ne (hslot (by omega) (by omega)),
        Function.update_of_ne (hslot (by omega) (by omega)),
        Function.update_of_ne (hslot (by omega) (by omega))]
      apply h.rx ep' a n
      rw [← hplace, alloc_place_of_ne s fun heq => hep (PmBuffer.rx.inj heq)]

/-! ### The calls, one buffer at a time -/

/-- `_usbd_ep_setup`, the transmit buffer. -/
def setupTx (p : Periph) (addr : UInt8) (maxSize : UInt16) : Periph :=
  let p := usbSetEpTxAddr p addr p.usbPmTop
  let p := usbClrEpTxDtog p addr
  let p := usbSetEpTxStat p addr txStatNak
  { p with usbPmTop := p.usbPmTop + maxSize }

/-- `_usbd_ep_setup`, the receive buffer. -/
def setupRx (p : Periph) (addr : UInt8) (maxSize : UInt16) : Periph :=
  let p := usbSetEpRxAddr p addr p.usbPmTop
  let p := setEpRxBufsize p addr maxSize.toUInt32
  let p := usbClrEpRxDtog p addr
  let p := usbSetEpRxStat p addr rxStatValid
  { p with usbPmTop := p.usbPmTop + maxSize }

/-- `_usbd_ep_setup`, the register of the endpoint. -/
def setupReg (p : Periph) (addr type : UInt8) : Periph :=
  usbSetEpType (usbSetEpAddr p addr (BitVec.ofNat 16 addr.toNat)) addr (typelookup type)

theorem EpSetup.call_eq (p : Periph) (c : EpSetup) :
    EpSetup.call p c = (let p := setupReg p c.ep c.type
      let p := if c.addr &&& 0x80 ≠ 0 ∨ c.ep = 0 then setupTx p c.ep c.maxSize else p
      if c.addr &&& 0x80 = 0 then setupRx p c.ep c.maxSize else p) := rfl

/-- Two writes to the register of an endpoint do not concern the table. -/
theorem Tracks.of_writes (h : Tracks p s) {ep : UInt8} (hep : ep.toNat < 8) {q p' : Periph}
    {w w' : BitVec 16} (hpm : p'.pm = ((q.write ep.toNat w).write ep.toNat w').pm)
    (hreg : p'.reg = ((q.write ep.toNat w).write ep.toNat w').reg) (htop : p'.usbPmTop = p.usbPmTop)
    (hq : q.pm = p.pm) (hq' : q.reg = p.reg) : Tracks p' s := by
  have hne : regBtable ≠ ep.toNat := by
    unfold regBtable
    omega
  refine h.congr htop ?_ ?_
  · rw [hpm, Periph.write_pm, Periph.write_pm, hq]
  · rw [hreg, Periph.write_reg_of_ne _ _ hne, Periph.write_reg_of_ne _ _ hne, hq']

/-- The register is set before the buffers. -/
theorem Tracks.setupReg (h : Tracks p s) {ep : UInt8} (hep : ep.toNat < 8) (type : UInt8) :
    Tracks (Stm32F1Dfu.setupReg p ep type) s := by
  refine h.of_writes hep (q := p) rfl rfl ?_ rfl rfl
  exact (Periph.write_usbPmTop ..).trans (p.write_usbPmTop ..)

theorem Tracks.setupTx (h : Tracks p s) {ep : UInt8} (hep : ep.toNat < 8) (maxSize : UInt16) :
    Tracks (Stm32F1Dfu.setupTx p ep maxSize) (alloc s ⟨.tx ep, maxSize.toNat⟩) := by
  refine (h.allocTx ep maxSize).of_writes hep (q := usbSetEpTxAddr p ep p.usbPmTop) rfl rfl ?_
    rfl rfl
  show ((Periph.write _ _ _).write _ _).usbPmTop + maxSize = _
  rw [Periph.write_usbPmTop, Periph.write_usbPmTop]
  rfl

theorem Tracks.setupRx (h : Tracks p s) {ep : UInt8} (hep : ep.toNat < 8) (maxSize : UInt16) :
    Tracks (Stm32F1Dfu.setupRx p ep maxSize) (alloc s ⟨.rx ep, maxSize.toNat⟩) := by
  have hsize := setEpRxBufsize_eq (usbSetEpRxAddr p ep p.usbPmTop) ep maxSize.toUInt32
  refine (h.allocRx ep maxSize).of_writes hep
    (q := setEpRxBufsize (usbSetEpRxAddr p ep p.usbPmTop) ep maxSize.toUInt32) rfl rfl ?_ ?_ ?_
  · show ((Periph.write _ _ _).write _ _).usbPmTop + maxSize = _
    rw [Periph.write_usbPmTop, Periph.write_usbPmTop, hsize]
    rfl
  · rw [hsize]
    rfl
  · rw [hsize]
    rfl

/-- **A call** hands out its buffers. -/
theorem Tracks.call (h : Tracks p s) (c : EpSetup) :
    Tracks (EpSetup.call p c) (run alloc s c.buffers) := by
  have hreg := h.setupReg c.ep_lt c.type
  rw [EpSetup.call_eq, EpSetup.buffers]
  by_cases htx : c.addr &&& 0x80 ≠ 0 ∨ c.ep = 0
  · have hboth := hreg.setupTx c.ep_lt c.maxSize
    by_cases hrx : c.addr &&& 0x80 = 0
    · simp only [if_pos htx, if_pos hrx]
      exact hboth.setupRx c.ep_lt c.maxSize
    · simp only [if_pos htx, if_neg hrx]
      exact hboth
  · by_cases hrx : c.addr &&& 0x80 = 0
    · simp only [if_neg htx, if_pos hrx]
      exact hreg.setupRx c.ep_lt c.maxSize
    · simp only [if_neg htx, if_neg hrx]
      exact hreg

/-- **A list of calls** hands out all of them, in order. -/
theorem Tracks.calls (h : Tracks p s) (cs : List EpSetup) :
    Tracks (run EpSetup.call p cs) (run alloc s (buffers cs)) := by
  induction cs generalizing p s with
  | nil => exact h
  | cons c cs ih =>
    rw [run_cons, buffers, List.flatMap_cons, run_append]
    exact ih (h.call c)

/-- The bytes of a buffer, by its place. -/
theorem Tracks.bufferBytes_eq (h : Tracks p s) {b : PmBuffer} {a n : Nat}
    (hplace : s.place b = some (a, n)) (ha : a < 2 ^ 16) (hn : n ≤ 512) :
    p.bufferBytes n b = cells PmBuffer.extent b (a, n) := by
  have haddr : (UInt16.ofNat a).toNat = a := by
    rw [UInt16.toNat_ofNat']
    omega
  cases b with
  | tx ep =>
    rw [Periph.bufferBytes, h.tx ep a n hplace, haddr]
    rfl
  | rx ep =>
    obtain ⟨hrx, hcount⟩ := h.rx ep a n hplace
    rw [Periph.bufferBytes, hrx, hcount, haddr, rxCapacity_rxBufsize hn]
    rfl

end

/-! ### Which calls leave the buffers apart -/

/-- What the hardware may fill of a buffer beyond its `max_size`. -/
def PmBuffer.excess : PmBuffer → Nat → Nat
  | .tx _, _ => 0
  | .rx _, n =>
    if n ≤ 30 then n + 2 * (n % 2) else if n ≤ 62 then 32 * (n + n % 2 - 31) - n else 32

/-- No receive buffer in use has a `max_size` above 62 that is not a multiple of 32. -/
def Rounded (rs : List (Request PmBuffer)) : Prop :=
  ∀ ep n, lastSize rs (.rx ep) = some n → n ≤ 62 ∨ 32 ∣ n

/-- Besides, behind every buffer in use but the last one there is as much given up as it takes
    too much. -/
structure Spacious (rs : List (Request PmBuffer)) : Prop where
  rounded : Rounded rs
  spaced : Spaced (fun b n => n + b.excess n) rs

/-- The other sizes fall short. -/
theorem le_rxExtent_iff (n : Nat) : n ≤ rxExtent n ↔ n ≤ 62 ∨ 32 ∣ n := by
  unfold rxExtent
  split_ifs <;> omega

theorem PmBuffer.extent_eq {b : PmBuffer} {n : Nat} (h : ∀ ep, b = .rx ep → n ≤ 62 ∨ 32 ∣ n) :
    b.extent n = n + b.excess n := by
  cases b with
  | tx ep => rfl
  | rx ep =>
    have hn := h ep rfl
    simp only [PmBuffer.extent, PmBuffer.excess, rxExtent]
    split_ifs <;> omega

section

variable {p : Periph} {cs : List EpSetup}

/-- The table after the calls. -/
theorem tracks_calls (htop : p.usbPmTop = usbdPmTop) (cs : List EpSetup) :
    Tracks (run EpSetup.call p cs)
      (run alloc { top := usbdPmTop.toNat, place := fun _ => none } (buffers cs)) := by
  refine Tracks.calls ⟨?_, fun _ _ _ h => ?_, fun _ _ _ h => ?_⟩ cs
  · exact htop
  · exact absurd h (by simp)
  · exact absurd h (by simp)

/-- **The buffers by their places.** -/
theorem laid_iff_apart (htop : p.usbPmTop = usbdPmTop)
    (hfit : usbdPmTop.toNat + total (buffers cs) ≤ packetMemorySize) :
    Laid (run EpSetup.call p cs) (buffers cs)
      ↔ Rounded (buffers cs) ∧ Apart PmBuffer.extent usbdPmTop.toNat (buffers cs) := by
  have htracks := tracks_calls htop cs
  unfold packetMemorySize at hfit
  -- every buffer in use has its place in the memory
  have hplace {b : PmBuffer} {a n : Nat}
      (h : placed usbdPmTop.toNat (buffers cs) b = some (a, n)) :
      usbdPmTop.toNat ≤ a ∧ n ≤ 512
        ∧ (run EpSetup.call p cs).bufferBytes n b = cells PmBuffer.extent b (a, n) := by
    obtain ⟨hle, hend⟩ := placed_bounds h
    dsimp only at hle hend
    refine ⟨hle, by omega, htracks.bufferBytes_eq ?_ (by omega) (by omega)⟩
    rw [run_alloc_place, h]
    rfl
  have hcapacity {ep : UInt8} {n : Nat} (h : lastSize (buffers cs) (.rx ep) = some n) :
      rxCapacity (usbGetEpRxCount (run EpSetup.call p cs) ep) = rxExtent n := by
    obtain ⟨a, ha⟩ := exists_placed usbdPmTop.toNat h
    have hrun : (run alloc { top := usbdPmTop.toNat, place := fun _ => none } (buffers cs)).place
        (.rx ep) = some (a, n) := by
      rw [run_alloc_place, ha]
      rfl
    rw [(htracks.rx ep a n hrun).2, rxCapacity_rxBufsize (hplace ha).2.1]
  constructor
  · intro h
    refine ⟨fun ep n hn => ?_, fun b b' place place' hne hb hb' => ?_⟩
    · rw [← le_rxExtent_iff, ← hcapacity hn]
      exact h.capacity ep n hn
    · have hapart := h.apart b b' _ _ hne (lastSize_of_placed hb) (lastSize_of_placed hb')
      rw [(hplace hb).2.2, (hplace hb').2.2] at hapart
      exact hapart
  · rintro ⟨hrounded, hapart⟩
    refine ⟨fun ep n hn => ?_, fun b b' n n' hne hn hn' => ?_, fun b n hn => ?_⟩
    · rw [hcapacity hn, le_rxExtent_iff]
      exact hrounded ep n hn
    · obtain ⟨a, ha⟩ := exists_placed usbdPmTop.toNat hn
      obtain ⟨a', ha'⟩ := exists_placed usbdPmTop.toNat hn'
      rw [(hplace ha).2.2, (hplace ha').2.2]
      exact hapart b b' _ _ hne ha ha'
    · obtain ⟨a, ha⟩ := exists_placed usbdPmTop.toNat hn
      obtain ⟨hle, -, hbytes⟩ := hplace ha
      rw [hbytes]
      exact fun i hi => Nat.le_trans hle hi.1

/-- Every buffer has a size. -/
theorem buffers_size_pos : ∀ r ∈ buffers cs, 0 < r.size := by
  intro r hr
  obtain ⟨c, -, hr⟩ := List.mem_flatMap.mp hr
  have hsize : r.size = c.maxSize.toNat := by
    unfold EpSetup.buffers at hr
    rcases List.mem_append.mp hr with hr | hr
    · split at hr
      · rw [List.mem_singleton.mp hr]
      · exact absurd hr List.not_mem_nil
    · split at hr
      · rw [List.mem_singleton.mp hr]
      · exact absurd hr List.not_mem_nil
  rw [hsize]
  exact c.size_pos

/-- Where no capacity falls short, the places are apart if there is enough between them. -/
theorem apart_iff_excess (hrounded : Rounded (buffers cs)) (top : Nat) :
    Apart PmBuffer.extent top (buffers cs)
      ↔ Spaced (fun b n => n + b.excess n) (buffers cs) := by
  have hpos : ∀ r ∈ buffers cs, 0 < r.size + r.name.excess r.size := fun r hr =>
    Nat.add_pos_left (buffers_size_pos r hr) _
  rw [← apart_iff_spaced hpos top]
  refine apart_congr (fun b n hn => PmBuffer.extent_eq fun ep hb => ?_) top
  subst hb
  exact hrounded ep n hn

/-- Calls that leave enough between the buffers. -/
theorem laid_of_spacious (htop : p.usbPmTop = usbdPmTop)
    (hfit : usbdPmTop.toNat + total (buffers cs) ≤ packetMemorySize)
    (h : Spacious (buffers cs)) : Laid (run EpSetup.call p cs) (buffers cs) :=
  (laid_iff_apart htop hfit).mpr ⟨h.rounded, (apart_iff_excess h.rounded _).mpr h.spaced⟩

/-- **Exactly when the calls leave the buffers large enough and apart.** -/
theorem epSetups_laid_iff (htop : p.usbPmTop = usbdPmTop)
    (hfit : usbdPmTop.toNat + total (buffers cs) ≤ packetMemorySize) :
    Laid (run EpSetup.call p cs) (buffers cs) ↔ Spacious (buffers cs) := by
  refine ⟨fun h => ?_, laid_of_spacious htop hfit⟩
  obtain ⟨hrounded, hapart⟩ := (laid_iff_apart htop hfit).mp h
  exact ⟨hrounded, (apart_iff_excess hrounded _).mp hapart⟩

end

/-! ### The calls of the program -/

/-- The call of `do_usb_poll`, the only one there is. -/
def controlSetup : EpSetup where
  addr := 0
  type := 0
  maxSize := bMaxPacketSize0
  ep_lt := by decide
  type_lt := by decide
  size_pos := by decide
  size_le := by decide

theorem spacious_controlSetup : Spacious (buffers [controlSetup]) := by
  refine ⟨fun ep n h => ?_, by decide⟩
  obtain ⟨a, ha⟩ := exists_placed 0 h
  obtain ⟨r, hr, -, hsize⟩ := exists_mem_of_placed ha
  have hall : ∀ r ∈ buffers [controlSetup], 32 ∣ r.size := by decide
  have hdvd := hall r hr
  rw [hsize] at hdvd
  exact Or.inr hdvd

/-- A peripheral whose registers and packet memory are cleared. -/
def clearPeriph : Periph where
  reg := fun _ => 0#16
  pm := fun _ => 0
  usbPmTop := usbdPmTop
  usbForceNak := fun _ => false

theorem controlSetup_laid :
    Laid (run EpSetup.call clearPeriph [controlSetup]) (buffers [controlSetup]) :=
  (epSetups_laid_iff rfl (by decide)).mpr spacious_controlSetup

/-! ### An endpoint that overlaps -/

/-- A bulk endpoint for packets of 64 bytes from the host. -/
def bulkOutSetup : EpSetup where
  addr := 1
  type := 2
  maxSize := 64
  ep_lt := by decide
  type_lt := by decide
  size_pos := by decide
  size_le := by decide

/-- Next to endpoint 0 it overlaps: for packets of 64 bytes the hardware takes 96, so that byte
    0xC0 of the packet memory is in both receive buffers. -/
theorem bulkOut_overlaps :
    ¬ Laid (run EpSetup.call clearPeriph [controlSetup, bulkOutSetup])
        (buffers [controlSetup, bulkOutSetup]) := by
  intro h
  have hapart := h.apart (.rx 0) (.rx 1) 64 64 (by decide) (by decide) (by decide)
  have hcontrol : 0xC0 ∈ (run EpSetup.call clearPeriph [controlSetup, bulkOutSetup]).bufferBytes 64
      (.rx 0) := ⟨by decide +kernel, by decide +kernel⟩
  have hbulk : 0xC0 ∈ (run EpSetup.call clearPeriph [controlSetup, bulkOutSetup]).bufferBytes 64
      (.rx 1) := ⟨by decide +kernel, by decide +kernel⟩
  exact hapart 0xC0 hcontrol hbulk

end Stm32F1Dfu
