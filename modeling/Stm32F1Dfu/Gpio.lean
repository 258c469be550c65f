import Stm32F1Dfu.Lib.WordBits
import Mathlib.Logic.Function.Basic

namespace Stm32F1Dfu

open WordBits

/-!
# `gpio.c`

The registers of a GPIO port and the routines on them.  Shifts are those of 32-bit words, and
all callers name pins below 16 and modes below 16.

* `Gpio.level` — the output latch of a pin, `Gpio.modes` — the mode fields of the pins;
* `gpioSet_level`, `gpioClear_level` — `GPIO_BSRR` reaches one pin;
* `gpioSetMode_modes` — `gpio_set_mode` replaces one mode field, so the last call for a pin
  decides.
-/

/-! ### The routines -/

/-- A port: `GPIO_CRL`, `GPIO_CRH` and the output latches. -/
structure Gpio where
  crl : UInt32
  crh : UInt32
  odr : UInt32

/-- A write to `GPIO_BSRR`: the upper half resets latches, the lower half sets them. -/
def Gpio.bsrr (p : Gpio) (v : UInt32) : Gpio :=
  { p with odr := (p.odr &&& ~~~(v >>> 16)) ||| (v &&& 0xFFFF) }

/-- `gpio_set_mode`. -/
def gpioSetMode (p : Gpio) (gpion : UInt16) (mode : UInt8) : Gpio :=
  if gpion < 8 then
    { p with crl := (p.crl &&& ~~~((0xF : UInt32) <<< (gpion.toUInt32 <<< 2)))
                      ||| (mode.toUInt32 <<< (gpion.toUInt32 <<< 2)) }
  else
    { p with crh := (p.crh &&& ~~~((0xF : UInt32) <<< ((gpion.toUInt32 - 8) <<< 2)))
                      ||| (mode.toUInt32 <<< ((gpion.toUInt32 - 8) <<< 2)) }

/-- `gpio_set_output`. -/
def gpioSetOutput (p : Gpio) (gpion : UInt16) : Gpio := gpioSetMode p gpion 0x2

/-- `gpio_clear`. -/
def gpioClear (p : Gpio) (gpion : UInt16) : Gpio :=
  p.bsrr ((1 : UInt32) <<< (16 + gpion.toUInt32))

/-- `gpio_set`. -/
def gpioSet (p : Gpio) (gpion : UInt16) : Gpio := p.bsrr ((1 : UInt32) <<< gpion.toUInt32)

/-- `gpio_read`, with what `GPIO_IDR` reads. -/
def gpioRead (idr : UInt32) (gpion : UInt16) : UInt32 :=
  if idr &&& ((1 : UInt32) <<< gpion.toUInt32) ≠ 0 then 1 else 0

/-! ### Levels -/

/-- The output latch of a pin. -/
def Gpio.level (p : Gpio) (n : Nat) : Bool := p.odr.toNat.testBit n

/-- What a write to `GPIO_BSRR` does to a latch. -/
theorem bsrr_level (p : Gpio) (v : UInt32) {n : Nat} (hn : n < 16) :
    (p.bsrr v).level n
      = (p.level n && !v.toNat.testBit (n + 16) || v.toNat.testBit n) := by
  have hmask : (0xFFFF : UInt32).toNat.testBit n = true := by
    show (2 ^ 16 - 1).testBit n = true
    rw [Nat.testBit_two_pow_sub_one]
    exact decide_eq_true hn
  simp only [Gpio.level, Gpio.bsrr, UInt32.toNat_or, UInt32.toNat_and, Nat.testBit_or,
    Nat.testBit_and, hmask, Bool.and_true]
  rw [testBit_not32 _ (by omega), testBit_shr32 v (by decide)]
  rfl

/-- **`gpio_set`** sets the latch of its pin and leaves the others alone. -/
theorem gpioSet_level (p : Gpio) {gpion : UInt16} (h : gpion.toNat < 16) {n : Nat} (hn : n < 16) :
    (gpioSet p gpion).level n = if n = gpion.toNat then true else p.level n := by
  have hk : gpion.toUInt32.toNat = gpion.toNat := UInt16.toNat_toUInt32 _
  rw [gpioSet, bsrr_level p _ hn, testBit_one_shl32 (by omega) (by omega),
    testBit_one_shl32 (by omega) (by omega), hk,
    decide_eq_false (show ¬ n + 16 = gpion.toNat by omega)]
  by_cases hpin : n = gpion.toNat <;> simp [hpin]

/-- **`gpio_clear`** resets the latch of its pin and leaves the others alone. -/
theorem gpioClear_level (p : Gpio) {gpion : UInt16} (h : gpion.toNat < 16) {n : Nat} (hn : n < 16) :
    (gpioClear p gpion).level n = if n = gpion.toNat then false else p.level n := by
  have hk : (16 + gpion.toUInt32).toNat = 16 + gpion.toNat := by
    have h16 : (16 : UInt32).toNat = 16 := rfl
    rw [UInt32.toNat_add, UInt16.toNat_toUInt32, h16]
    omega
  rw [gpioClear, bsrr_level p _ hn, testBit_one_shl32 (by omega) (by omega),
    testBit_one_shl32 (by omega) (by omega), hk,
    decide_eq_false (show ¬ n = 16 + gpion.toNat by omega)]
  by_cases hpin : n = gpion.toNat
  · subst hpin
    simp [Nat.add_comm]
  · rw [decide_eq_false (show ¬ n + 16 = 16 + gpion.toNat by omega), if_neg hpin]
    simp

/-- A mode leaves the latches alone. -/
theorem gpioSetMode_level (p : Gpio) (gpion : UInt16) (mode : UInt8) (n : Nat) :
    (gpioSetMode p gpion mode).level n = p.level n := by
  unfold gpioSetMode
  split <;> rfl

/-- **`gpio_read`** tells the level of its pin. -/
theorem gpioRead_eq (idr : UInt32) {gpion : UInt16} (h : gpion.toNat < 16) :
    gpioRead idr gpion = if idr.toNat.testBit gpion.toNat then 1 else 0 := by
  have hk : gpion.toUInt32.toNat = gpion.toNat := UInt16.toNat_toUInt32 _
  rw [gpioRead, if_congr (and_one_shl32_ne_zero idr (by omega)) rfl rfl, hk]

/-! ### Modes -/

/-- A field of four bits. -/
def nibble (x : UInt32) (i : Nat) : Nat := x.toNat / 2 ^ (4 * i) % 2 ^ 4

/-- The mode fields of the pins. -/
def Gpio.modes (p : Gpio) (n : Fin 16) : Nat :=
  if n.val < 8 then nibble p.crl n else nibble p.crh (n - 8)

/-- One field replaced. -/
theorem nibble_replace (x : UInt32) {m k : UInt32} (hm : m.toNat < 16) {i j : Nat} (hi : i < 8)
    (hk : k.toNat = 4 * j) (hj : j < 8) :
    nibble ((x &&& ~~~((0xF : UInt32) <<< k)) ||| (m <<< k)) i
      = if i = j then m.toNat else nibble x i := by
  apply Nat.eq_of_testBit_eq
  intro b
  have hleft (x : UInt32) : (nibble x i).testBit b
      = (decide (b < 4) && x.toNat.testBit (b + 4 * i)) := by
    rw [nibble, Nat.testBit_mod_two_pow, Nat.testBit_div_two_pow]
  have hsmall : m.toNat.testBit b = (decide (b < 4) && m.toNat.testBit b) := by
    by_cases hb : b < 4
    · simp [hb]
    · have hpow : m.toNat < 2 ^ b :=
        Nat.lt_of_lt_of_le hm (show 2 ^ 4 ≤ 2 ^ b from Nat.pow_le_pow_right (by decide) (by omega))
      rw [Nat.testBit_lt_two_pow hpow, Bool.and_false]
  rw [hleft]
  by_cases hb : b < 4
  · have hmask : ((0xF : UInt32) <<< k).toNat.testBit (b + 4 * i) = decide (i = j) := by
      rw [testBit_shl32 _ (by omega) (by omega), show (0xF : UInt32).toNat = 2 ^ 4 - 1 from rfl,
        Nat.testBit_two_pow_sub_one, ← Bool.decide_and]
      exact decide_eq_decide.mpr (by omega)
    rw [UInt32.toNat_or, UInt32.toNat_and, Nat.testBit_or, Nat.testBit_and,
      testBit_not32 _ (by omega), hmask, testBit_shl32 m (by omega) (by omega), decide_eq_true hb,
      Bool.true_and]
    by_cases hij : i = j
    · rw [if_pos hij, decide_eq_true hij, decide_eq_true (show k.toNat ≤ b + 4 * i by omega),
        show b + 4 * i - k.toNat = b by omega]
      simp
    · rw [if_neg hij, hleft, decide_eq_false hij, decide_eq_true hb]
      -- the other field's new value lies elsewhere
      have hout :
          (decide (k.toNat ≤ b + 4 * i) && m.toNat.testBit (b + 4 * i - k.toNat)) = false := by
        by_cases hle : k.toNat ≤ b + 4 * i
        · have hpow : m.toNat < 2 ^ (b + 4 * i - k.toNat) :=
            Nat.lt_of_lt_of_le hm (show 2 ^ 4 ≤ 2 ^ (b + 4 * i - k.toNat) from
              Nat.pow_le_pow_right (by decide) (by omega))
          rw [Nat.testBit_lt_two_pow hpow, Bool.and_false]
        · rw [decide_eq_false hle, Bool.false_and]
      rw [hout]
      simp
  · rw [decide_eq_false hb, Bool.false_and]
    by_cases hij : i = j
    · rw [if_pos hij, hsmall, decide_eq_false hb, Bool.false_and]
    · rw [if_neg hij, hleft, decide_eq_false hb, Bool.false_and]

/-- **`gpio_set_mode`** replaces the field of its pin. -/
theorem gpioSetMode_modes (p : Gpio) {gpion : UInt16} {mode : UInt8} (h : gpion.toNat < 16)
    (hmode : mode.toNat < 16) :
    (gpioSetMode p gpion mode).modes = Function.update p.modes ⟨gpion.toNat, h⟩ mode.toNat := by
  have hm : mode.toUInt32.toNat < 16 := by rw [UInt8.toNat_toUInt32]; exact hmode
  have hfour (v : UInt32) (hv : v.toNat < 8) : (v <<< 2).toNat = 4 * v.toNat := by
    rw [UInt32.toNat_shiftLeft, show (2 : UInt32).toNat % 32 = 2 from rfl, Nat.shiftLeft_eq]
    omega
  have hk : gpion.toUInt32.toNat = gpion.toNat := UInt16.toNat_toUInt32 _
  funext n
  have hn := n.isLt
  unfold gpioSetMode
  by_cases hlow : gpion < 8
  · have hlow' : gpion.toNat < 8 := UInt16.lt_iff_toNat_lt.mp hlow
    rw [if_pos hlow]
    by_cases hn8 : n.val < 8
    · simp only [Gpio.modes, if_pos hn8]
      rw [nibble_replace _ hm hn8 ((hfour _ (by omega)).trans (by rw [hk])) hlow',
        UInt8.toNat_toUInt32]
      by_cases hpin : n.val = gpion.toNat
      · rw [if_pos hpin, show n = ⟨gpion.toNat, h⟩ from Fin.ext hpin, Function.update_self]
      · rw [if_neg hpin, Function.update_of_ne fun heq => hpin (congrArg Fin.val heq), Gpio.modes,
          if_pos hn8]
    · rw [Function.update_of_ne fun heq => hn8 (by rw [heq]; exact hlow'), Gpio.modes, Gpio.modes,
        if_neg hn8, if_neg hn8]
  · have hhigh : 8 ≤ gpion.toNat := by
      rw [UInt16.lt_iff_toNat_lt] at hlow
      exact Nat.not_lt.mp hlow
    have hsub : (gpion.toUInt32 - 8).toNat = gpion.toNat - 8 := by
      rw [UInt32.toNat_sub_of_le _ _ (UInt32.le_iff_toNat_le.mpr (by rw [hk]; exact hhigh)), hk]
      rfl
    rw [if_neg hlow]
    by_cases hn8 : n.val < 8
    · rw [Function.update_of_ne fun heq => absurd hn8 (by rw [heq]; exact Nat.not_lt.mpr hhigh),
        Gpio.modes, Gpio.modes, if_pos hn8, if_pos hn8]
    · simp only [Gpio.modes, if_neg hn8]
      rw [nibble_replace _ hm (show n.val - 8 < 8 by omega)
        ((hfour _ (by omega)).trans (by rw [hsub])) (show gpion.toNat - 8 < 8 by omega),
        UInt8.toNat_toUInt32]
      by_cases hpin : n.val = gpion.toNat
      · rw [if_pos (by omega), show n = ⟨gpion.toNat, h⟩ from Fin.ext hpin, Function.update_self]
      · rw [if_neg (by omega), Function.update_of_ne fun heq => hpin (congrArg Fin.val heq),
          Gpio.modes, if_neg hn8]

/-- Calls of `gpio_set_mode` in a row. -/
def gpioSetModes : Gpio → List (UInt16 × UInt8) → Gpio
  | p, []                     => p
  | p, (gpion, mode) :: calls => gpioSetModes (gpioSetMode p gpion mode) calls

/-- **The last call decides.**  After any calls of `gpio_set_mode` with pins and modes below 16 the
    mode of every pin is that of the last call for it, and the one it had when there is none. -/
theorem gpioSetModes_last (p : Gpio) (calls : List (UInt16 × UInt8))
    (hcalls : ∀ c ∈ calls, c.1.toNat < 16 ∧ c.2.toNat < 16) (n : Fin 16) :
    (gpioSetModes p calls).modes n
      = ((calls.findRev? fun c => c.1.toNat == n.val).map fun c => c.2.toNat).getD (p.modes n) := by
  induction calls generalizing p with
  | nil => rfl
  | cons c calls ih =>
    obtain ⟨hpin, hmode⟩ := hcalls c List.mem_cons_self
    rw [gpioSetModes, ih _ fun c' hc' => hcalls c' (List.mem_cons_of_mem c hc'),
      gpioSetMode_modes p hpin hmode, List.findRev?]
    cases calls.findRev? fun c => c.1.toNat == n.val with
    | some c' => rfl
    | none =>
      by_cases hn : c.1.toNat = n.val
      · obtain rfl : n = ⟨c.1.toNat, hpin⟩ := Fin.ext hn.symm
        rw [Function.update_self]
        simp
      · have hpin' : n ≠ ⟨c.1.toNat, hpin⟩ := fun h => hn (congrArg Fin.val h).symm
        rw [Function.update_of_ne hpin']
        simp [hn]

theorem gpioSetModes_last_twice :
    (gpioSetModes ⟨0x44444444, 0x44444444, 0⟩ [(13, 2), (2, 8), (13, 0xB)]).modes 13 = 0xB := by
  have hcalls : ∀ c ∈ [((13 : UInt16), (2 : UInt8)), (2, 8), (13, 0xB)],
      c.1.toNat < 16 ∧ c.2.toNat < 16 := by
    simp
  exact gpioSetModes_last _ _ hcalls 13

end Stm32F1Dfu
