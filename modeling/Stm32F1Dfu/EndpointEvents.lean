import Stm32F1Dfu.EndpointRegister
import Stm32F1Dfu.Lib.Machine

namespace Stm32F1Dfu

open Machine

/-!
# Endpoint register updates against events of the hardware

Every macro reads the register, computes a value and writes it; between the read and the
write the hardware may complete a transfer: it raises a flag, and moves the status of the
direction to NAK, its toggle and the `SETUP` bit (`CtrEvents`).

* `epWrite_value` — what the eight macros have in common: each replaces its own field;
* `EpUpdate.apply_eq` — the register after an update with such events in it;
* `EpUpdate.raised_apply` — the flags after it: four of the macros write the flags back as
  they read them;
* `run_pending` — where nothing rises under these four the flags are a ledger: events enter
  them, `USB_CLR_EP_*_CTR` takes them out;
* `epUpdates_lossless_iff` — when an update leaves its field as asked, everything else as
  the hardware has it, and loses no event: exactly when it is not `Unraced`.
-/

/-! ### The updates -/

/-- A value for the field of an endpoint register under `msk`. -/
def EpField (msk : BitVec 16) : Type := {v : BitVec 16 // v &&& ~~~msk = 0#16}

/-- An update of an endpoint register, by its macro. -/
inductive EpUpdate where
  /-- `USB_SET_EP_RX_STAT` -/
  | setRxStat (stat : EpField usbEpRxStat)
  /-- `USB_SET_EP_TX_STAT` -/
  | setTxStat (stat : EpField usbEpTxStat)
  /-- `USB_CLR_EP_RX_DTOG` -/
  | clrRxDtog
  /-- `USB_CLR_EP_TX_DTOG` -/
  | clrTxDtog
  /-- `USB_CLR_EP_RX_CTR` -/
  | clrRxCtr
  /-- `USB_CLR_EP_TX_CTR` -/
  | clrTxCtr
  /-- `USB_SET_EP_TYPE` -/
  | setType (type : EpField usbEpType)
  /-- `USB_SET_EP_ADDR` -/
  | setAddr (addr : EpField usbEpAddr)

/-- The value the macro writes after it has read `r`. -/
def EpUpdate.value : EpUpdate → BitVec 16 → BitVec 16
  | .setRxStat stat, r => setEpRxStat r stat.val
  | .setTxStat stat, r => setEpTxStat r stat.val
  | .clrRxDtog, r      => clrEpRxDtog r
  | .clrTxDtog, r      => clrEpTxDtog r
  | .clrRxCtr, r       => clrEpRxCtr r
  | .clrTxCtr, r       => clrEpTxCtr r
  | .setType type, r   => setEpType r type.val
  | .setAddr addr, r   => setEpAddr r addr.val

/-- The field of the register that the macro is about. -/
def EpUpdate.field : EpUpdate → BitVec 16
  | .setRxStat _ => usbEpRxStat
  | .setTxStat _ => usbEpTxStat
  | .clrRxDtog   => usbEpRxDtog
  | .clrTxDtog   => usbEpTxDtog
  | .clrRxCtr    => usbEpRxCtr
  | .clrTxCtr    => usbEpTxCtr
  | .setType _   => usbEpType
  | .setAddr _   => usbEpAddr

/-- The value that this field is to have. -/
def EpUpdate.request : EpUpdate → BitVec 16
  | .setRxStat stat => stat.val
  | .setTxStat stat => stat.val
  | .setType type   => type.val
  | .setAddr addr   => addr.val
  | _               => 0#16

theorem EpUpdate.request_field (u : EpUpdate) : u.request &&& ~~~u.field = 0#16 := by
  cases u with
  | setRxStat stat => exact stat.property
  | setTxStat stat => exact stat.property
  | setType type => exact type.property
  | setAddr addr => exact addr.property
  | clrRxDtog => rfl
  | clrTxDtog => rfl
  | clrRxCtr => rfl
  | clrTxCtr => rfl

/-- **Undisturbed**, every macro replaces its own field and nothing else. -/
theorem epWrite_value (u : EpUpdate) (r : BitVec 16) :
    epWrite r (u.value r) = (r &&& ~~~u.field) ||| u.request := by
  cases u with
  | setRxStat stat => exact epWrite_setEpRxStat stat.property
  | setTxStat stat => exact epWrite_setEpTxStat stat.property
  | clrRxDtog => exact (epWrite_clrEpRxDtog r).trans BitVec.or_zero.symm
  | clrTxDtog => exact (epWrite_clrEpTxDtog r).trans BitVec.or_zero.symm
  | clrRxCtr => exact (epWrite_clrEpRxCtr r).trans BitVec.or_zero.symm
  | clrTxCtr => exact (epWrite_clrEpTxCtr r).trans BitVec.or_zero.symm
  | setType type => exact epWrite_setEpType type.property
  | setAddr addr => exact epWrite_setEpAddr addr.property

/-! ### Events between the read and the write -/

/-- A transfer-complete flag. -/
inductive CtrFlag where
  /-- `RX_CTR` -/
  | rx
  /-- `TX_CTR` -/
  | tx
  deriving DecidableEq, Repr

/-- Whether a register value has the flag set. -/
def CtrFlag.raised : CtrFlag → BitVec 16 → Bool
  | .rx, r => r.getLsbD 15
  | .tx, r => r.getLsbD 7

/-- The two flags. -/
def usbEpCtr : BitVec 16 := usbEpRxCtr ||| usbEpTxCtr

/-- What the hardware moves beside the flags: both STAT, both DTOG and SETUP. -/
def usbEpMoves : BitVec 16 :=
  usbEpRxStat ||| usbEpTxStat ||| usbEpRxDtog ||| usbEpTxDtog ||| usbEpSetup

/-- What the hardware does to a register when transfers complete: the flags that rise, and
    the bits that flip with them. -/
structure CtrEvents where
  flags : EpField usbEpCtr
  flips : EpField usbEpMoves

/-- Whether the flag rises. -/
def CtrEvents.rises (ev : CtrEvents) (c : CtrFlag) : Bool := c.raised ev.flags.val

/-- The register after the events. -/
def CtrEvents.raise (ev : CtrEvents) (r : BitVec 16) : BitVec 16 :=
  (r ^^^ ev.flips.val) ||| ev.flags.val

/-- The part of a value under a mask. -/
def EpField.of (msk v : BitVec 16) : EpField msk :=
  ⟨v &&& msk, by rw [BitVec.and_assoc, BitVec.and_not_self]; exact BitVec.and_zero⟩

/-- The events that make `r'` of `r`. -/
def CtrEvents.between (r r' : BitVec 16) : CtrEvents where
  flags := EpField.of usbEpCtr r'
  flips := EpField.of usbEpMoves (r ^^^ r')

/-- Whatever keeps the set flags and the plain bits is made by such events. -/
theorem CtrEvents.raise_between {r r' : BitVec 16} (hflags : r &&& usbEpCtr &&& ~~~r' = 0#16)
    (hplain : (r ^^^ r') &&& 0x070F#16 = 0#16) : (CtrEvents.between r r').raise r = r' := by
  ext i hi
  have hf := congrArg (fun v : BitVec 16 => v[i]) hflags
  have hp := congrArg (fun v : BitVec 16 => v[i]) hplain
  simp only [CtrEvents.raise, CtrEvents.between, EpField.of, usbEpMoves, usbEpCtr, usbEpRxStat,
    usbEpTxStat, usbEpRxDtog, usbEpTxDtog, usbEpSetup, usbEpRxCtr, usbEpTxCtr, BitVec.getElem_and,
    BitVec.getElem_or, BitVec.getElem_xor, BitVec.getElem_not, BitVec.getElem_zero] at hf hp ⊢
  generalize r[i] = a at hf hp ⊢
  generalize r'[i] = b at hf hp ⊢
  -- each of the sixteen bits is a flag, a bit that moves, or a plain one
  interval_cases i <;> revert hf hp <;> cases a <;> cases b <;> simp

/-- A SETUP packet is such an event. -/
theorem CtrEvents.raise_setupReceived (r : BitVec 16) :
    (CtrEvents.between r (epSetupReceived r)).raise r = epSetupReceived r := by
  refine CtrEvents.raise_between ?_ ?_ <;>
  · ext i hi
    simp only [epSetupReceived, usbEpCtr, usbEpRxStat, usbEpTxStat, usbEpSetup, usbEpRxCtr,
      usbEpTxCtr, rxStatNak, txStatNak, BitVec.getElem_and, BitVec.getElem_or,
      BitVec.getElem_xor, BitVec.getElem_not, BitVec.getElem_zero]
    interval_cases i <;> simp

/-- So is an OUT packet. -/
theorem CtrEvents.raise_outReceived (r : BitVec 16) :
    (CtrEvents.between r (epOutReceived r)).raise r = epOutReceived r := by
  refine CtrEvents.raise_between ?_ ?_ <;>
  · ext i hi
    simp only [epOutReceived, usbEpCtr, usbEpRxStat, usbEpSetup, usbEpRxCtr, usbEpTxCtr,
      rxStatNak, BitVec.getElem_and, BitVec.getElem_or, BitVec.getElem_xor, BitVec.getElem_not,
      BitVec.getElem_zero]
    interval_cases i <;> simp

/-- So is the acknowledgement of an IN packet. -/
theorem CtrEvents.raise_inCompleted (r : BitVec 16) :
    (CtrEvents.between r (epInCompleted r)).raise r = epInCompleted r := by
  refine CtrEvents.raise_between ?_ ?_ <;>
  · ext i hi
    simp only [epInCompleted, usbEpCtr, usbEpTxStat, usbEpRxCtr, usbEpTxCtr, txStatNak,
      BitVec.getElem_and, BitVec.getElem_or, BitVec.getElem_xor, BitVec.getElem_not,
      BitVec.getElem_zero]
    interval_cases i <;> simp

/-- The macro reads `r`, the events come, and the macro writes. -/
def EpUpdate.apply (u : EpUpdate) (ev : CtrEvents) (r : BitVec 16) : BitVec 16 :=
  epWrite (ev.raise r) (u.value r)

/-- Whether the macro is there to clear the flag. -/
def EpUpdate.clears : EpUpdate → CtrFlag → Bool
  | .clrRxCtr, .rx => true
  | .clrTxCtr, .tx => true
  | _, _           => false

/-- The macros that write the transfer-complete flags back as they read them. -/
def EpUpdate.writesBack : EpUpdate → Bool
  | .clrRxDtog | .clrTxDtog | .setType _ | .setAddr _ => true
  | _ => false

theorem CtrFlag.raised_or (c : CtrFlag) (r w : BitVec 16) :
    c.raised (r ||| w) = (c.raised r || c.raised w) := by
  cases c <;> simp [CtrFlag.raised]

theorem CtrFlag.raised_and (c : CtrFlag) (r w : BitVec 16) :
    c.raised (r &&& w) = (c.raised r && c.raised w) := by
  cases c <;> simp [CtrFlag.raised]

theorem CtrFlag.raised_xor (c : CtrFlag) (r w : BitVec 16) :
    c.raised (r ^^^ w) = (c.raised r ^^ c.raised w) := by
  cases c <;> simp [CtrFlag.raised]

/-- A field without the bit of a flag has no value with that bit. -/
theorem EpField.raised {msk : BitVec 16} (v : EpField msk) {c : CtrFlag}
    (h : c.raised msk = false) : c.raised v.val = false := by
  have hv := congrArg c.raised v.property
  have hnot : c.raised (~~~msk) = true := by
    cases c <;> simpa [CtrFlag.raised] using h
  rw [CtrFlag.raised_and, hnot, Bool.and_true] at hv
  cases c <;> exact hv

/-- Outside its mask a field has no bit. -/
theorem EpField.getElem {msk : BitVec 16} (v : EpField msk) {i : Nat} (hi : i < 16)
    (h : msk[i] = false) : v.val[i] = false := by
  have hv := congrArg (fun w : BitVec 16 => w[i]) v.property
  simpa [h] using hv

/-- No flag is among the bits that move. -/
@[simp] theorem CtrEvents.raised_flips (ev : CtrEvents) (c : CtrFlag) :
    c.raised ev.flips.val = false :=
  ev.flips.raised (by cases c <;> rfl)

/-- An event raises its flag. -/
@[simp] theorem CtrEvents.raised_raise (ev : CtrEvents) (c : CtrFlag) (r : BitVec 16) :
    c.raised (ev.raise r) = (c.raised r || ev.rises c) := by
  rw [CtrEvents.raise, CtrFlag.raised_or, CtrFlag.raised_xor, ev.raised_flips, Bool.xor_false]
  rfl

/-- Of what is written, a bit that moved meanwhile is moved still, and a flag that rose sees
    its own bit. -/
theorem EpUpdate.apply_eq (u : EpUpdate) (ev : CtrEvents) (r : BitVec 16) :
    u.apply ev r = (((r &&& ~~~u.field) ||| u.request) ^^^ ev.flips.val)
      ||| (ev.flags.val &&& u.value r) := by
  rw [← epWrite_value]
  unfold EpUpdate.apply CtrEvents.raise
  generalize u.value r = w
  ext i hi
  have hflags := ev.flags.getElem hi
  have hflips := ev.flips.getElem hi
  simp only [epWrite, usbEpCtr, usbEpMoves, usbEpRxStat, usbEpTxStat, usbEpRxDtog, usbEpTxDtog,
    usbEpSetup, usbEpRxCtr, usbEpTxCtr, BitVec.getElem_and, BitVec.getElem_or,
    BitVec.getElem_xor] at hflags hflips ⊢
  generalize ev.flags.val[i] = fl at hflags ⊢
  generalize ev.flips.val[i] = mv at hflips ⊢
  generalize r[i] = a
  generalize w[i] = b
  -- each of the sixteen bits is a flag, a bit that moves, or a plain one
  interval_cases i <;> simp at hflags hflips ⊢ <;> simp [hflags, hflips] <;>
    cases a <;> cases b <;> cases mv <;> simp

/-- The fields of the macros hold no flag but the one that is cleared. -/
theorem EpUpdate.raised_field (u : EpUpdate) (c : CtrFlag) : c.raised u.field = u.clears c := by
  cases u <;> cases c <;> simp [CtrFlag.raised, EpUpdate.field, EpUpdate.clears, usbEpRxStat,
    usbEpTxStat, usbEpRxDtog, usbEpTxDtog, usbEpRxCtr, usbEpTxCtr, usbEpType, usbEpAddr]

/-- No macro asks for a flag to be set. -/
theorem EpUpdate.raised_request (u : EpUpdate) (c : CtrFlag) : c.raised u.request = false := by
  cases u with
  | setRxStat stat => exact stat.raised (by cases c <;> rfl)
  | setTxStat stat => exact stat.raised (by cases c <;> rfl)
  | setType type => exact type.raised (by cases c <;> rfl)
  | setAddr addr => exact addr.raised (by cases c <;> rfl)
  | _ => cases c <;> rfl

/-- The flag bits that a macro writes: 0 for the flag it clears; for the others 1, or what
    was read. -/
theorem EpUpdate.raised_value (u : EpUpdate) (c : CtrFlag) (r : BitVec 16) :
    c.raised (u.value r)
      = (if u.clears c then false else if u.writesBack then c.raised r else true) := by
  cases u with
  | setRxStat stat =>
    rw [EpUpdate.value, setEpRxStat, CtrFlag.raised_or]
    cases c <;> simp [EpUpdate.clears, EpUpdate.writesBack, CtrFlag.raised, usbEpRxCtr,
      usbEpTxCtr]
  | setTxStat stat =>
    rw [EpUpdate.value, setEpTxStat, CtrFlag.raised_or]
    cases c <;> simp [EpUpdate.clears, EpUpdate.writesBack, CtrFlag.raised, usbEpRxCtr,
      usbEpTxCtr]
  | clrRxDtog =>
    cases c <;> simp [EpUpdate.value, clrEpRxDtog, EpUpdate.clears, EpUpdate.writesBack,
      CtrFlag.raised, usbEpNtoggleMsk, usbEpRxDtog]
  | clrTxDtog =>
    cases c <;> simp [EpUpdate.value, clrEpTxDtog, EpUpdate.clears, EpUpdate.writesBack,
      CtrFlag.raised, usbEpNtoggleMsk, usbEpTxDtog]
  | clrRxCtr =>
    cases c <;> simp [EpUpdate.value, clrEpRxCtr, EpUpdate.clears, EpUpdate.writesBack,
      CtrFlag.raised, usbEpNtoggleMsk, usbEpRxCtr, usbEpTxCtr]
  | clrTxCtr =>
    cases c <;> simp [EpUpdate.value, clrEpTxCtr, EpUpdate.clears, EpUpdate.writesBack,
      CtrFlag.raised, usbEpNtoggleMsk, usbEpRxCtr, usbEpTxCtr]
  | setType type =>
    have htype : c.raised type.val = false := type.raised (by cases c <;> rfl)
    rw [EpUpdate.value, setEpType, CtrFlag.raised_or, htype, Bool.or_false]
    cases c <;> simp [EpUpdate.clears, EpUpdate.writesBack, CtrFlag.raised, usbEpNtoggleMsk,
      usbEpType]
  | setAddr addr =>
    have haddr : c.raised addr.val = false := addr.raised (by cases c <;> rfl)
    rw [EpUpdate.value, setEpAddr, CtrFlag.raised_or, haddr, Bool.or_false]
    cases c <;> simp [EpUpdate.clears, EpUpdate.writesBack, CtrFlag.raised, usbEpNtoggleMsk,
      usbEpAddr]

/-- **The flags after an update**: the one it clears is clear; of the others, those set when
    it read, and those raised since unless it writes the flags back. -/
theorem EpUpdate.raised_apply (u : EpUpdate) (ev : CtrEvents) (c : CtrFlag) (r : BitVec 16) :
    c.raised (u.apply ev r)
      = (if u.clears c then false
        else if u.writesBack then c.raised r else c.raised r || ev.rises c) := by
  have hnot : c.raised (~~~u.field) = !u.clears c := by
    rw [← EpUpdate.raised_field]
    cases c <;> simp [CtrFlag.raised]
  rw [EpUpdate.apply_eq, CtrFlag.raised_or, CtrFlag.raised_xor, CtrFlag.raised_or,
    CtrFlag.raised_and, CtrFlag.raised_and, EpUpdate.raised_request, EpUpdate.raised_value,
    CtrEvents.raised_flips, hnot, ← CtrEvents.rises]
  -- what is left is Boolean algebra over the four facts
  cases u.clears c <;> cases u.writesBack <;> cases c.raised r <;> cases ev.rises c <;> rfl

/-! ### What is asked of an update -/

/-- The update left its field with the requested value, everything else but the flags as the
    hardware has it, and cleared no flag that it is not there to clear. -/
structure EpUpdate.Clean (u : EpUpdate) (ev : CtrEvents) (r : BitVec 16) : Prop where
  own : u.apply ev r &&& u.field = u.request
  rest : u.apply ev r &&& ~~~(u.field ||| usbEpCtr) = ev.raise r &&& ~~~(u.field ||| usbEpCtr)
  flags : ∀ c : CtrFlag, u.clears c = false → c.raised (ev.raise r) = true →
    c.raised (u.apply ev r) = true

/-- No flag rises between the read and the write of a macro that writes the flags back. -/
def EpUpdate.FlagsRead (u : EpUpdate) (ev : CtrEvents) (r : BitVec 16) : Prop :=
  u.writesBack = true → ∀ c : CtrFlag, ev.rises c = true → c.raised r = true

/-- Nor does the hardware move the macro's own field meanwhile. -/
def EpUpdate.Unraced (u : EpUpdate) (ev : CtrEvents) (r : BitVec 16) : Prop :=
  u.FlagsRead ev r ∧ ev.flips.val &&& u.field = 0#16

/-- A raised flag that shows in a field is the one that the macro writes as 0. -/
theorem EpUpdate.flags_and_field (u : EpUpdate) (ev : CtrEvents) (r : BitVec 16) :
    ev.flags.val &&& u.value r &&& u.field = 0#16 := by
  have hflag (c : CtrFlag) : (c.raised (u.value r) && c.raised u.field) = false := by
    rw [EpUpdate.raised_value, EpUpdate.raised_field]
    cases u.clears c <;> simp
  ext i hi
  rw [BitVec.getElem_and, BitVec.getElem_and, BitVec.getElem_zero, Bool.and_assoc]
  by_cases hrx : i = 15
  · subst hrx
    rw [show ((u.value r)[15] && u.field[15]) = false from hflag .rx, Bool.and_false]
  by_cases htx : i = 7
  · subst htx
    rw [show ((u.value r)[7] && u.field[7]) = false from hflag .tx, Bool.and_false]
  · have hctr : usbEpCtr[i] = false := by
      unfold usbEpCtr usbEpRxCtr usbEpTxCtr
      rw [BitVec.getElem_or]
      interval_cases i <;> first | contradiction | simp
    rw [ev.flags.getElem hi hctr, Bool.false_and]

/-- The field of an update gets its value, but for what moved in it meanwhile. -/
theorem EpUpdate.apply_own (u : EpUpdate) (ev : CtrEvents) (r : BitVec 16) :
    u.apply ev r &&& u.field = u.request ^^^ (ev.flips.val &&& u.field) := by
  rw [EpUpdate.apply_eq]
  ext i hi
  have hreq := congrArg (fun v : BitVec 16 => v[i]) u.request_field
  have hflag := congrArg (fun v : BitVec 16 => v[i]) (u.flags_and_field ev r)
  simp only [BitVec.getElem_and, BitVec.getElem_or, BitVec.getElem_xor, BitVec.getElem_not,
    BitVec.getElem_zero] at hreq hflag ⊢
  rw [Bool.and_or_distrib_right, hflag, Bool.or_false]
  revert hreq
  cases u.field[i] <;> cases u.request[i] <;> simp

/-- Outside the field and the flags the register is as the hardware has it. -/
theorem EpUpdate.apply_rest (u : EpUpdate) (ev : CtrEvents) (r : BitVec 16) :
    u.apply ev r &&& ~~~(u.field ||| usbEpCtr) = ev.raise r &&& ~~~(u.field ||| usbEpCtr) := by
  rw [EpUpdate.apply_eq, CtrEvents.raise]
  ext i hi
  have hreq := congrArg (fun v : BitVec 16 => v[i]) u.request_field
  have hflags := ev.flags.getElem hi
  simp only [BitVec.getElem_and, BitVec.getElem_or, BitVec.getElem_xor, BitVec.getElem_not,
    BitVec.getElem_zero] at hreq ⊢
  revert hreq hflags
  cases u.field[i] <;> cases u.request[i] <;> cases usbEpCtr[i] <;> simp
  intro hflags
  rw [hflags]
  simp

/-- **One update** is clean exactly when no flag rises under a macro that writes the flags
    back, and nothing moves in its field. -/
theorem EpUpdate.clean_iff (u : EpUpdate) (ev : CtrEvents) (r : BitVec 16) :
    u.Clean ev r ↔ u.Unraced ev r := by
  constructor
  · intro h
    refine ⟨fun hback c hev => ?_, ?_⟩
    · -- such a macro clears no flag, so the raised one must be there, and it was read as 1
      have hclears : u.clears c = false := by
        cases u <;> first | rfl | exact absurd hback (by decide)
      have hset := h.flags c hclears (by rw [CtrEvents.raised_raise, hev, Bool.or_true])
      rwa [EpUpdate.raised_apply, hclears, hback, if_neg (by decide), if_pos rfl] at hset
    · have hown := h.own
      rw [EpUpdate.apply_own] at hown
      calc ev.flips.val &&& u.field
          = u.request ^^^ (u.request ^^^ (ev.flips.val &&& u.field)) := by
            rw [← BitVec.xor_assoc, BitVec.xor_self, BitVec.zero_xor]
        _ = 0#16 := by rw [hown, BitVec.xor_self]
  · rintro ⟨hread, hstill⟩
    refine ⟨by rw [EpUpdate.apply_own, hstill, BitVec.xor_zero], u.apply_rest ev r, ?_⟩
    -- a flag that is set was read as 1, or rose under a macro that writes a 1 there
    intro c hclears hset
    rw [EpUpdate.raised_apply, hclears, if_neg (by decide)]
    rw [CtrEvents.raised_raise, Bool.or_eq_true] at hset
    split
    · rename_i hback
      exact hset.elim id (hread hback c)
    · rw [Bool.or_eq_true]
      exact hset

/-! ### Runs -/

/-- What happens to an endpoint register: events of the hardware alone, or an update with
    those that come between its read and its write. -/
inductive EpStep where
  | event (ev : CtrEvents)
  | update (u : EpUpdate) (ev : CtrEvents)

/-- One step of the register. -/
def epStep (r : BitVec 16) : EpStep → BitVec 16
  | .event ev    => ev.raise r
  | .update u ev => u.apply ev r

/-- The events of a step. -/
def EpStep.events : EpStep → CtrEvents
  | .event ev    => ev
  | .update _ ev => ev

/-- Whether the step is the update that clears the flag. -/
def EpStep.clears : EpStep → CtrFlag → Bool
  | .event _, _    => false
  | .update u _, c => u.clears c

/-- `EpUpdate.Clean`, of a step. -/
def EpStep.Clean (r : BitVec 16) : EpStep → Prop
  | .event _     => True
  | .update u ev => u.Clean ev r

/-- `EpUpdate.Unraced`, of a step. -/
def EpStep.Unraced (r : BitVec 16) : EpStep → Prop
  | .event _     => True
  | .update u ev => u.Unraced ev r

/-- `EpUpdate.FlagsRead`, of a step. -/
def EpStep.FlagsRead (r : BitVec 16) : EpStep → Prop
  | .event _     => True
  | .update u ev => u.FlagsRead ev r

/-- A flag that was set, or rises, is set after the step unless the step clears it. -/
def EpStep.Lossless (r : BitVec 16) (e : EpStep) : Prop :=
  ∀ c : CtrFlag, (c.raised r || e.events.rises c) = true → e.clears c = false →
    c.raised (epStep r e) = true

/-- The ledger of the flags that wait: a step enters its events and takes out what it
    clears. -/
def pendStep (pending : CtrFlag → Bool) (e : EpStep) : CtrFlag → Bool :=
  fun c => (pending c || e.events.rises c) && !e.clears c

/-- **The flags of a step** are those of the ledger when no flag rises under a macro that
    writes back. -/
theorem EpStep.raised_eq_pend {r : BitVec 16} {e : EpStep} (he : e.FlagsRead r) (c : CtrFlag) :
    c.raised (epStep r e) = pendStep (fun c => c.raised r) e c := by
  rw [pendStep]
  cases e with
  | event ev => simp [epStep, EpStep.events, EpStep.clears]
  | update u ev =>
    rw [epStep, EpUpdate.raised_apply, EpStep.events, EpStep.clears]
    by_cases hclears : u.clears c = true
    · rw [if_pos hclears, hclears, Bool.not_true, Bool.and_false]
    have hkept : u.clears c = false := by simpa using hclears
    rw [if_neg hclears, hkept]
    by_cases hback : u.writesBack = true
    · -- whatever rose was read as 1
      rw [if_pos hback]
      have := he hback c
      revert this
      cases ev.rises c <;> cases c.raised r <;> simp
    · rw [if_neg hback]
      simp

/-- A step loses no flag exactly when no flag rises under a macro that writes back. -/
theorem EpStep.lossless_iff (r : BitVec 16) (e : EpStep) : e.Lossless r ↔ e.FlagsRead r := by
  constructor
  · intro h
    cases e with
    | event ev => trivial
    | update u ev =>
      intro hback c hev
      have hclears : u.clears c = false := by
        cases u <;> first | rfl | exact absurd hback (by decide)
      have hset : c.raised (u.apply ev r) = true :=
        h c (by rw [EpStep.events, hev, Bool.or_true]) hclears
      rwa [EpUpdate.raised_apply, hclears, hback, if_neg (by decide), if_pos rfl] at hset
  · intro h c hset hclears
    rw [EpStep.raised_eq_pend h, pendStep, hset, hclears]
    rfl

/-- A step is clean exactly when it is not raced. -/
theorem EpStep.clean_iff (r : BitVec 16) (e : EpStep) : e.Clean r ↔ e.Unraced r := by
  cases e with
  | event ev => exact Iff.rfl
  | update u ev => exact u.clean_iff ev r

/-- **The flags are a ledger** along every run without such a race. -/
theorem run_pending {r : BitVec 16} {es : List EpStep}
    (h : AllSteps epStep (fun r e => e.FlagsRead r) r es) (c : CtrFlag) :
    c.raised (run epStep r es) = run pendStep (fun c => c.raised r) es c := by
  have hstep (r : BitVec 16) (pending : CtrFlag → Bool) (e : EpStep)
      (hrel : (fun c : CtrFlag => c.raised r) = pending) (he : e.FlagsRead r) :
      (fun c : CtrFlag => c.raised (epStep r e)) = pendStep pending e := by
    subst hrel
    exact funext fun c => EpStep.raised_eq_pend he c
  exact congrFun (run_related (R := fun r pending => (fun c : CtrFlag => c.raised r) = pending)
    hstep rfl h) c

/-- **Updates against events.**  An update leaves its field as asked, the rest as the hardware
    has it, and loses no event exactly when no flag rises between the read and the write of a
    macro that writes the flags back and nothing moves in its field; the same holds of all
    the updates of a run.  A run loses no flag exactly when the first half holds of all its
    updates, and then the flags that are set are those raised and not yet cleared. -/
theorem epUpdates_lossless_iff (r : BitVec 16) (es : List EpStep) :
    (∀ (u : EpUpdate) (ev : CtrEvents), u.Clean ev r ↔ u.Unraced ev r)
      ∧ (AllSteps epStep (fun r e => e.Clean r) r es
          ↔ AllSteps epStep (fun r e => e.Unraced r) r es)
      ∧ (AllSteps epStep (fun r e => e.Lossless r) r es
          ↔ AllSteps epStep (fun r e => e.FlagsRead r) r es)
      ∧ (AllSteps epStep (fun r e => e.FlagsRead r) r es → ∀ c : CtrFlag,
          c.raised (run epStep r es) = run pendStep (fun c => c.raised r) es c) := by
  refine ⟨fun u ev => u.clean_iff ev r, ?_, ?_, fun h c => run_pending h c⟩
  · exact allSteps_congr (I := fun _ => True) (fun _ _ _ _ => trivial)
      (fun r e _ => EpStep.clean_iff r e) trivial es
  · exact allSteps_congr (I := fun _ => True) (fun _ _ _ _ => trivial)
      (fun r e _ => EpStep.lossless_iff r e) trivial es

/-- `USB_CLR_EP_TX_DTOG` while a SETUP packet arrives: the flag of the packet is gone.
    `USB_SET_EP_RX_STAT(NAK)` while an OUT packet arrives leaves VALID, and
    `USB_SET_EP_TX_STAT(STALL)` while an IN packet is acknowledged leaves DISABLED. -/
theorem clrTxDtog_loses_rxCtr :
    (¬ EpUpdate.Clean .clrTxDtog (.between 0x2220#16 (epSetupReceived 0x2220#16)) 0x2220#16
      ∧ CtrFlag.rx.raised (epSetupReceived 0x2220#16) = true
      ∧ CtrFlag.rx.raised
          (EpUpdate.apply .clrTxDtog (.between 0x2220#16 (epSetupReceived 0x2220#16)) 0x2220#16)
        = false)
    ∧ EpUpdate.apply (.setRxStat (.of _ rxStatNak))
          (.between 0x3220#16 (epOutReceived 0x3220#16)) 0x3220#16 &&& usbEpRxStat
        = rxStatValid
    ∧ EpUpdate.apply (.setTxStat (.of _ txStatStall))
          (.between 0x3230#16 (epInCompleted 0x3230#16)) 0x3230#16 &&& usbEpTxStat
        = txStatDisabled := by
  have hset : CtrFlag.rx.raised (epSetupReceived 0x2220#16) = true := by decide
  have hgone : CtrFlag.rx.raised
      (EpUpdate.apply .clrTxDtog (.between 0x2220#16 (epSetupReceived 0x2220#16)) 0x2220#16)
      = false := by
    rw [EpUpdate.apply, CtrEvents.raise_setupReceived]
    decide
  refine ⟨⟨fun h => ?_, hset, hgone⟩, ?_, ?_⟩
  · have hkept := h.flags .rx rfl (by rw [CtrEvents.raise_setupReceived]; exact hset)
    exact absurd (hgone.symm.trans hkept) (by decide)
  · rw [EpUpdate.apply, CtrEvents.raise_outReceived]
    decide
  · rw [EpUpdate.apply, CtrEvents.raise_inCompleted]
    decide

end Stm32F1Dfu
