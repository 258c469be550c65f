import Mathlib.Tactic.IntervalCases

namespace Stm32F1Dfu

/-!
# The endpoint registers

One 16-bit endpoint register mixes four kinds of bits: the status and data-toggle bits
flip where a 1 is written, the two transfer-complete flags are cleared where a 0 is
written, `SETUP` is read-only and the rest is plain (`epWrite`).  The macros of `usb.h`
compute the value to write from the value read; each comes with the field it changes
(`epWrite_setEpRxStat` and the others).

`epView` reads off the five fields the driver and the bus act on.  The `epView_*` lemmas
say what every update and every bus event does to them, so no proof above this file
looks at bits.
-/

/-! ### Masks and constants of `usb.h` -/

/-- `USB_EP_RX_CTR`. -/
def usbEpRxCtr : BitVec 16 := 0x8000#16
/-- `USB_EP_TX_CTR`. -/
def usbEpTxCtr : BitVec 16 := 0x0080#16
/-- `USB_EP_SETUP`. -/
def usbEpSetup : BitVec 16 := 0x0800#16
/-- `USB_EP_RX_STAT`. -/
def usbEpRxStat : BitVec 16 := 0x3000#16
/-- `USB_EP_TX_STAT`. -/
def usbEpTxStat : BitVec 16 := 0x0030#16
/-- `USB_EP_TYPE`. -/
def usbEpType : BitVec 16 := 0x0600#16
/-- `USB_EP_ADDR`. -/
def usbEpAddr : BitVec 16 := 0x000F#16
/-- `USB_EP_RX_DTOG`. -/
def usbEpRxDtog : BitVec 16 := 0x4000#16
/-- `USB_EP_TX_DTOG`. -/
def usbEpTxDtog : BitVec 16 := 0x0040#16

/-- `USB_EP_NTOGGLE_MSK`: `RX_CTR | SETUP | TYPE | KIND | TX_CTR | ADDR`. -/
def usbEpNtoggleMsk : BitVec 16 := 0x8F8F#16
/-- `USB_EP_RX_STAT_TOG_MSK`. -/
def usbEpRxStatTogMsk : BitVec 16 := usbEpRxStat ||| usbEpNtoggleMsk
/-- `USB_EP_TX_STAT_TOG_MSK`. -/
def usbEpTxStatTogMsk : BitVec 16 := usbEpTxStat ||| usbEpNtoggleMsk

/-- `USB_EP_RX_STAT_DISABLED`. -/
def rxStatDisabled : BitVec 16 := 0x0000#16
/-- `USB_EP_RX_STAT_STALL`. -/
def rxStatStall : BitVec 16 := 0x1000#16
/-- `USB_EP_RX_STAT_NAK`. -/
def rxStatNak : BitVec 16 := 0x2000#16
/-- `USB_EP_RX_STAT_VALID`. -/
def rxStatValid : BitVec 16 := 0x3000#16
/-- `USB_EP_TX_STAT_DISABLED`. -/
def txStatDisabled : BitVec 16 := 0x0000#16
/-- `USB_EP_TX_STAT_STALL`. -/
def txStatStall : BitVec 16 := 0x0010#16
/-- `USB_EP_TX_STAT_NAK`. -/
def txStatNak : BitVec 16 := 0x0020#16
/-- `USB_EP_TX_STAT_VALID`. -/
def txStatValid : BitVec 16 := 0x0030#16
/-- `USB_EP_TYPE_CONTROL`. -/
def usbEpTypeControl : BitVec 16 := 0x0200#16

theorem rxStatNak_ne_valid : rxStatNak ≠ rxStatValid := by decide
theorem txStatNak_ne_valid : txStatNak ≠ txStatValid := by decide

/-! ### The register and the macros -/

/-- What a write of `w` makes of an endpoint register that holds `r`. -/
def epWrite (r w : BitVec 16) : BitVec 16 :=
  ((r &&& w) &&& 0x8080#16) ||| ((r ^^^ w) &&& 0x7070#16) ||| (r &&& 0x0800#16)
    ||| (w &&& 0x070F#16)

/-- The value `USB_SET_EP_RX_STAT` writes. -/
def setEpRxStat (r stat : BitVec 16) : BitVec 16 :=
  ((r &&& usbEpRxStatTogMsk) ^^^ stat) ||| (usbEpRxCtr ||| usbEpTxCtr)

/-- The value `USB_SET_EP_TX_STAT` writes. -/
def setEpTxStat (r stat : BitVec 16) : BitVec 16 :=
  ((r &&& usbEpTxStatTogMsk) ^^^ stat) ||| (usbEpRxCtr ||| usbEpTxCtr)

/-- The value `USB_CLR_EP_RX_CTR` writes. -/
def clrEpRxCtr (r : BitVec 16) : BitVec 16 :=
  (r &&& usbEpNtoggleMsk &&& ~~~usbEpRxCtr) ||| usbEpTxCtr

/-- The value `USB_CLR_EP_TX_CTR` writes. -/
def clrEpTxCtr (r : BitVec 16) : BitVec 16 :=
  (r &&& usbEpNtoggleMsk &&& ~~~usbEpTxCtr) ||| usbEpRxCtr

/-- The value `USB_CLR_EP_RX_DTOG` writes. -/
def clrEpRxDtog (r : BitVec 16) : BitVec 16 := r &&& (usbEpNtoggleMsk ||| usbEpRxDtog)

/-- The value `USB_CLR_EP_TX_DTOG` writes. -/
def clrEpTxDtog (r : BitVec 16) : BitVec 16 := r &&& (usbEpNtoggleMsk ||| usbEpTxDtog)

/-- The value `USB_SET_EP_TYPE` writes. -/
def setEpType (r type : BitVec 16) : BitVec 16 :=
  (r &&& (usbEpNtoggleMsk &&& ~~~usbEpType)) ||| type

/-- The value `USB_SET_EP_ADDR` writes. -/
def setEpAddr (r addr : BitVec 16) : BitVec 16 :=
  (r &&& (usbEpNtoggleMsk &&& ~~~usbEpAddr)) ||| addr

/-! ### The fields the driver acts on -/

/-- The flags and status fields of an endpoint register. -/
structure EpView where
  rxCtr : Bool
  txCtr : Bool
  setup : Bool
  rxStat : BitVec 16
  txStat : BitVec 16
  deriving DecidableEq

/-- The view of a register value. -/
def epView (r : BitVec 16) : EpView where
  rxCtr := r[15]
  txCtr := r[7]
  setup := r[11]
  rxStat := r &&& usbEpRxStat
  txStat := r &&& usbEpTxStat

/-- `USB_SET_EP_RX_STAT` sets the receive status and changes nothing else. -/
theorem epWrite_setEpRxStat {r stat : BitVec 16} (h : stat &&& ~~~usbEpRxStat = 0#16) :
    epWrite r (setEpRxStat r stat) = (r &&& ~~~usbEpRxStat) ||| stat := by
  ext i hi
  have hbit := congrArg (fun v : BitVec 16 => v[i]) h
  simp only [epWrite, setEpRxStat, usbEpRxStatTogMsk, usbEpRxStat, usbEpNtoggleMsk, usbEpRxCtr,
    usbEpTxCtr, BitVec.getElem_and, BitVec.getElem_or, BitVec.getElem_xor,
    BitVec.getElem_not] at hbit ⊢
  interval_cases i <;> simp at hbit ⊢ <;> simp [hbit]

/-- `USB_SET_EP_TX_STAT` sets the transmit status and changes nothing else. -/
theorem epWrite_setEpTxStat {r stat : BitVec 16} (h : stat &&& ~~~usbEpTxStat = 0#16) :
    epWrite r (setEpTxStat r stat) = (r &&& ~~~usbEpTxStat) ||| stat := by
  ext i hi
  have hbit := congrArg (fun v : BitVec 16 => v[i]) h
  simp only [epWrite, setEpTxStat, usbEpTxStatTogMsk, usbEpTxStat, usbEpNtoggleMsk, usbEpRxCtr,
    usbEpTxCtr, BitVec.getElem_and, BitVec.getElem_or, BitVec.getElem_xor,
    BitVec.getElem_not] at hbit ⊢
  interval_cases i <;> simp at hbit ⊢ <;> simp [hbit]

/-- `USB_CLR_EP_RX_CTR` clears the receive flag and changes nothing else. -/
theorem epWrite_clrEpRxCtr (r : BitVec 16) :
    epWrite r (clrEpRxCtr r) = r &&& ~~~usbEpRxCtr := by
  ext i hi
  simp only [epWrite, clrEpRxCtr, usbEpNtoggleMsk, usbEpRxCtr, usbEpTxCtr, BitVec.getElem_and,
    BitVec.getElem_or, BitVec.getElem_xor, BitVec.getElem_not]
  interval_cases i <;> simp

/-- `USB_CLR_EP_TX_CTR` clears the transmit flag and changes nothing else. -/
theorem epWrite_clrEpTxCtr (r : BitVec 16) :
    epWrite r (clrEpTxCtr r) = r &&& ~~~usbEpTxCtr := by
  ext i hi
  simp only [epWrite, clrEpTxCtr, usbEpNtoggleMsk, usbEpRxCtr, usbEpTxCtr, BitVec.getElem_and,
    BitVec.getElem_or, BitVec.getElem_xor, BitVec.getElem_not]
  interval_cases i <;> simp

/-- `USB_CLR_EP_RX_DTOG` clears the receive toggle and changes nothing else. -/
theorem epWrite_clrEpRxDtog (r : BitVec 16) :
    epWrite r (clrEpRxDtog r) = r &&& ~~~usbEpRxDtog := by
  ext i hi
  simp only [epWrite, clrEpRxDtog, usbEpNtoggleMsk, usbEpRxDtog, BitVec.getElem_and,
    BitVec.getElem_or, BitVec.getElem_xor, BitVec.getElem_not]
  interval_cases i <;> simp

/-- `USB_CLR_EP_TX_DTOG` clears the transmit toggle and changes nothing else. -/
theorem epWrite_clrEpTxDtog (r : BitVec 16) :
    epWrite r (clrEpTxDtog r) = r &&& ~~~usbEpTxDtog := by
  ext i hi
  simp only [epWrite, clrEpTxDtog, usbEpNtoggleMsk, usbEpTxDtog, BitVec.getElem_and,
    BitVec.getElem_or, BitVec.getElem_xor, BitVec.getElem_not]
  interval_cases i <;> simp

/-- `USB_SET_EP_TYPE` sets the type and changes nothing else. -/
theorem epWrite_setEpType {r type : BitVec 16} (h : type &&& ~~~usbEpType = 0#16) :
    epWrite r (setEpType r type) = (r &&& ~~~usbEpType) ||| type := by
  ext i hi
  have hbit := congrArg (fun v : BitVec 16 => v[i]) h
  simp only [epWrite, setEpType, usbEpType, usbEpNtoggleMsk, BitVec.getElem_and,
    BitVec.getElem_or, BitVec.getElem_xor, BitVec.getElem_not] at hbit ⊢
  interval_cases i <;> simp at hbit ⊢ <;> simp [hbit]

/-- `USB_SET_EP_ADDR` sets the endpoint address and changes nothing else. -/
theorem epWrite_setEpAddr {r addr : BitVec 16} (h : addr &&& ~~~usbEpAddr = 0#16) :
    epWrite r (setEpAddr r addr) = (r &&& ~~~usbEpAddr) ||| addr := by
  ext i hi
  have hbit := congrArg (fun v : BitVec 16 => v[i]) h
  simp only [epWrite, setEpAddr, usbEpAddr, usbEpNtoggleMsk, BitVec.getElem_and,
    BitVec.getElem_or, BitVec.getElem_xor, BitVec.getElem_not] at hbit ⊢
  interval_cases i <;> simp at hbit ⊢ <;> simp [hbit]

/-! ### What the bus does to the register -/

/-- A SETUP packet was received: `RX_CTR` and `SETUP` set, both directions NAK. -/
def epSetupReceived (r : BitVec 16) : BitVec 16 :=
  (r &&& ~~~(usbEpRxStat ||| usbEpTxStat)) ||| (usbEpRxCtr ||| usbEpSetup ||| rxStatNak ||| txStatNak)

/-- An OUT packet was received: `RX_CTR` set, `SETUP` cleared, reception NAK. -/
def epOutReceived (r : BitVec 16) : BitVec 16 :=
  (r &&& ~~~(usbEpRxStat ||| usbEpSetup)) ||| (usbEpRxCtr ||| rxStatNak)

/-- An IN packet was acknowledged: `TX_CTR` set, transmission NAK. -/
def epInCompleted (r : BitVec 16) : BitVec 16 :=
  (r &&& ~~~usbEpTxStat) ||| (usbEpTxCtr ||| txStatNak)

/-- A bus reset clears an endpoint register but for its two flags. -/
def epBusReset (r : BitVec 16) : BitVec 16 := r &&& (usbEpRxCtr ||| usbEpTxCtr)

/-! ### Updates and bus events on the view -/

/-- Replacing the receive status replaces it in the view. -/
theorem epView_rxStat {r stat : BitVec 16} (h : stat &&& ~~~usbEpRxStat = 0#16) :
    epView ((r &&& ~~~usbEpRxStat) ||| stat) = { epView r with rxStat := stat } := by
  have hbit (i : Nat) (hi : i < 16) := congrArg (fun v : BitVec 16 => v[i]) h
  simp only [epView, EpView.mk.injEq]
  refine ⟨?_, ?_, ?_, ?_, ?_⟩
  · have := hbit 15 (by decide)
    simp [usbEpRxStat] at this ⊢; simp [this]
  · have := hbit 7 (by decide)
    simp [usbEpRxStat] at this ⊢; simp [this]
  · have := hbit 11 (by decide)
    simp [usbEpRxStat] at this ⊢; simp [this]
  all_goals
    ext i hi
    have := hbit i hi
    simp only [usbEpRxStat, usbEpTxStat, BitVec.getElem_and, BitVec.getElem_or,
      BitVec.getElem_not] at this ⊢
    interval_cases i <;> simp at this ⊢ <;> simp [this]

/-- Replacing the transmit status replaces it in the view. -/
theorem epView_txStat {r stat : BitVec 16} (h : stat &&& ~~~usbEpTxStat = 0#16) :
    epView ((r &&& ~~~usbEpTxStat) ||| stat) = { epView r with txStat := stat } := by
  have hbit (i : Nat) (hi : i < 16) := congrArg (fun v : BitVec 16 => v[i]) h
  simp only [epView, EpView.mk.injEq]
  refine ⟨?_, ?_, ?_, ?_, ?_⟩
  · have := hbit 15 (by decide)
    simp [usbEpTxStat] at this ⊢; simp [this]
  · have := hbit 7 (by decide)
    simp [usbEpTxStat] at this ⊢; simp [this]
  · have := hbit 11 (by decide)
    simp [usbEpTxStat] at this ⊢; simp [this]
  all_goals
    ext i hi
    have := hbit i hi
    simp only [usbEpRxStat, usbEpTxStat, BitVec.getElem_and, BitVec.getElem_or,
      BitVec.getElem_not] at this ⊢
    interval_cases i <;> simp at this ⊢ <;> simp [this]

/-- The view after `USB_SET_EP_RX_STAT`. -/
@[simp] theorem epView_setEpRxStat {r stat : BitVec 16} (h : stat &&& ~~~usbEpRxStat = 0#16) :
    epView (epWrite r (setEpRxStat r stat)) = { epView r with rxStat := stat } := by
  rw [epWrite_setEpRxStat h, epView_rxStat h]

/-- The view after `USB_SET_EP_TX_STAT`. -/
@[simp] theorem epView_setEpTxStat {r stat : BitVec 16} (h : stat &&& ~~~usbEpTxStat = 0#16) :
    epView (epWrite r (setEpTxStat r stat)) = { epView r with txStat := stat } := by
  rw [epWrite_setEpTxStat h, epView_txStat h]

/-- A mask that keeps the bits of a status field keeps the field. -/
private theorem and_and_of_sub {r m f : BitVec 16} (h : m &&& f = f) : (r &&& m) &&& f = r &&& f := by
  rw [BitVec.and_assoc, h]

/-- The view after `USB_CLR_EP_RX_CTR`. -/
@[simp] theorem epView_clrEpRxCtr (r : BitVec 16) :
    epView (epWrite r (clrEpRxCtr r)) = { epView r with rxCtr := false } := by
  rw [epWrite_clrEpRxCtr]
  simp only [epView, EpView.mk.injEq]
  refine ⟨by simp [usbEpRxCtr], by simp [usbEpRxCtr], by simp [usbEpRxCtr], ?_, ?_⟩
  · exact and_and_of_sub (by decide)
  · exact and_and_of_sub (by decide)

/-- The view after `USB_CLR_EP_TX_CTR`. -/
@[simp] theorem epView_clrEpTxCtr (r : BitVec 16) :
    epView (epWrite r (clrEpTxCtr r)) = { epView r with txCtr := false } := by
  rw [epWrite_clrEpTxCtr]
  simp only [epView, EpView.mk.injEq]
  refine ⟨by simp [usbEpTxCtr], by simp [usbEpTxCtr], by simp [usbEpTxCtr], ?_, ?_⟩
  · exact and_and_of_sub (by decide)
  · exact and_and_of_sub (by decide)

/-- Clearing the receive toggle does not show in the view. -/
@[simp] theorem epView_clrEpRxDtog (r : BitVec 16) :
    epView (epWrite r (clrEpRxDtog r)) = epView r := by
  rw [epWrite_clrEpRxDtog]
  simp only [epView, EpView.mk.injEq]
  refine ⟨by simp [usbEpRxDtog], by simp [usbEpRxDtog], by simp [usbEpRxDtog], ?_, ?_⟩
  · exact and_and_of_sub (by decide)
  · exact and_and_of_sub (by decide)

/-- Clearing the transmit toggle does not show in the view. -/
@[simp] theorem epView_clrEpTxDtog (r : BitVec 16) :
    epView (epWrite r (clrEpTxDtog r)) = epView r := by
  rw [epWrite_clrEpTxDtog]
  simp only [epView, EpView.mk.injEq]
  refine ⟨by simp [usbEpTxDtog], by simp [usbEpTxDtog], by simp [usbEpTxDtog], ?_, ?_⟩
  · exact and_and_of_sub (by decide)
  · exact and_and_of_sub (by decide)

/-- The view after a SETUP packet. -/
@[simp] theorem epView_epSetupReceived (r : BitVec 16) :
    epView (epSetupReceived r)
      = { rxCtr := true, txCtr := (epView r).txCtr, setup := true, rxStat := rxStatNak,
          txStat := txStatNak } := by
  simp only [epView, EpView.mk.injEq]
  refine ⟨by simp [epSetupReceived, usbEpRxCtr], ?_, by simp [epSetupReceived, usbEpSetup], ?_, ?_⟩
  · simp [epSetupReceived, usbEpRxCtr, usbEpSetup, rxStatNak, txStatNak, usbEpRxStat, usbEpTxStat]
  all_goals
    ext i hi
    simp only [epSetupReceived, usbEpRxCtr, usbEpSetup, rxStatNak, txStatNak, usbEpRxStat,
      usbEpTxStat, BitVec.getElem_and, BitVec.getElem_or, BitVec.getElem_not]
    interval_cases i <;> simp

/-- The view after an OUT packet. -/
@[simp] theorem epView_epOutReceived (r : BitVec 16) :
    epView (epOutReceived r)
      = { epView r with rxCtr := true, setup := false, rxStat := rxStatNak } := by
  simp only [epView, EpView.mk.injEq]
  refine ⟨by simp [epOutReceived, usbEpRxCtr], ?_, ?_, ?_, ?_⟩
  · simp [epOutReceived, usbEpRxCtr, usbEpSetup, rxStatNak, usbEpRxStat]
  · simp [epOutReceived, usbEpRxCtr, usbEpSetup, rxStatNak, usbEpRxStat]
  all_goals
    ext i hi
    simp only [epOutReceived, usbEpRxCtr, usbEpSetup, rxStatNak, usbEpRxStat, usbEpTxStat,
      BitVec.getElem_and, BitVec.getElem_or, BitVec.getElem_not]
    interval_cases i <;> simp

/-- The view after an acknowledged IN packet. -/
@[simp] theorem epView_epInCompleted (r : BitVec 16) :
    epView (epInCompleted r) = { epView r with txCtr := true, txStat := txStatNak } := by
  simp only [epView, EpView.mk.injEq]
  refine ⟨?_, by simp [epInCompleted, usbEpTxCtr], ?_, ?_, ?_⟩
  · simp [epInCompleted, usbEpTxCtr, txStatNak, usbEpTxStat]
  · simp [epInCompleted, usbEpTxCtr, txStatNak, usbEpTxStat]
  all_goals
    ext i hi
    simp only [epInCompleted, usbEpTxCtr, txStatNak, usbEpRxStat, usbEpTxStat,
      BitVec.getElem_and, BitVec.getElem_or, BitVec.getElem_not]
    interval_cases i <;> simp

/-- The view after a bus reset. -/
@[simp] theorem epView_epBusReset (r : BitVec 16) :
    epView (epBusReset r)
      = { rxCtr := (epView r).rxCtr, txCtr := (epView r).txCtr, setup := false,
          rxStat := rxStatDisabled, txStat := txStatDisabled } := by
  have hrx : (usbEpRxCtr ||| usbEpTxCtr) &&& usbEpRxStat = rxStatDisabled := by decide
  have htx : (usbEpRxCtr ||| usbEpTxCtr) &&& usbEpTxStat = txStatDisabled := by decide
  simp only [epView, EpView.mk.injEq]
  refine ⟨by simp [epBusReset, usbEpRxCtr, usbEpTxCtr], by simp [epBusReset, usbEpRxCtr, usbEpTxCtr],
    by simp [epBusReset, usbEpRxCtr, usbEpTxCtr], ?_, ?_⟩
  · rw [epBusReset, BitVec.and_assoc, hrx]
    exact BitVec.and_zero
  · rw [epBusReset, BitVec.and_assoc, htx]
    exact BitVec.and_zero

end Stm32F1Dfu
