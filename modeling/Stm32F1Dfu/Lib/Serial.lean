import Mathlib.Algebra.Ring.Nat
import Mathlib.Data.List.Basic

namespace Serial

/-!
# Devices on a synchronous serial line

A device that answers byte by byte while bytes come in, and the same device behind a shift
register, clocked bit by bit with the most significant bit first (mode 0: the input is taken on
the rising edge, the output changes on the falling one).

* `Slave` — the device, and `Slave.transfer`, what many bytes make of it;
* `Device` — a device with a select line;
* `Shift` — its shift register, `Shift.rise` and `Shift.fall`;
* `clock_within`, `clock_last` — the eight clock cycles that are one byte each way.
-/

variable {σ : Type*}

/-! ### Byte by byte -/

/-- A device: the byte it has ready, and what it makes of the byte that comes in meanwhile. -/
structure Slave (σ : Type*) where
  reply : σ → UInt8
  accept : σ → UInt8 → σ

/-- The bytes `bs` go in: what comes out, and the device afterwards. -/
def Slave.transfer (d : Slave σ) : σ → List UInt8 → List UInt8 × σ
  | s, []      => ([], s)
  | s, b :: bs => (d.reply s :: (d.transfer (d.accept s b) bs).1, (d.transfer (d.accept s b) bs).2)

/-- A device with a select line. -/
structure Device (σ : Type*) extends Slave σ where
  select : σ → σ
  deselect : σ → σ

@[simp] theorem transfer_nil (d : Slave σ) (s : σ) : d.transfer s [] = ([], s) := rfl

theorem transfer_cons (d : Slave σ) (s : σ) (b : UInt8) (bs : List UInt8) :
    d.transfer s (b :: bs)
      = (d.reply s :: (d.transfer (d.accept s b) bs).1, (d.transfer (d.accept s b) bs).2) := rfl

/-! ### Bit by bit -/

/-- Bit `i` of a byte. -/
def bit (x : UInt8) (i : Nat) : Bool := x.toNat.testBit i

/-- One more bit shifted in. -/
def shiftIn (x : UInt8) (level : Bool) : UInt8 := x <<< 1 ||| (if level then 1 else 0)

/-- A device behind its shift register: how many bits of a byte it has taken, these bits, and
    the level of its output. -/
structure Shift (σ : Type*) where
  dev : σ
  taken : Nat
  input : UInt8
  output : Bool

/-- At the start of a byte. -/
def Shift.start (d : Slave σ) (s : σ) : Shift σ := ⟨s, 0, 0, bit (d.reply s) 7⟩

/-- The rising edge: the level of the input is taken, and with the eighth the device has its
    byte. -/
def Shift.rise (d : Slave σ) (w : Shift σ) (level : Bool) : Shift σ :=
  if w.taken = 7 then
    { w with dev := d.accept w.dev (shiftIn w.input level), taken := 0, input := 0 }
  else { w with taken := w.taken + 1, input := shiftIn w.input level }

/-- The falling edge: the output goes to the next bit. -/
def Shift.fall (d : Slave σ) (w : Shift σ) : Shift σ :=
  { w with output := bit (d.reply w.dev) (7 - w.taken) }

@[simp] theorem rise_output (d : Slave σ) (w : Shift σ) (level : Bool) :
    (w.rise d level).output = w.output := by
  unfold Shift.rise
  split <;> rfl

/-- The first `k` bits of a byte, shifted in. -/
def top (x : UInt8) (k : Nat) : UInt8 := UInt8.ofNat (x.toNat / 2 ^ (8 - k))

theorem top_zero (x : UInt8) : top x 0 = 0 := by
  have hx := x.toNat_lt
  rw [top, Nat.div_eq_of_lt hx]
  rfl

theorem top_eight (x : UInt8) : top x 8 = x := by
  rw [top, Nat.sub_self, Nat.pow_zero, Nat.div_one, UInt8.ofNat_toNat]

/-- The value of a byte with one more bit, while there is room for it. -/
theorem shiftIn_toNat {x : UInt8} (hx : x.toNat < 128) (level : Bool) :
    (shiftIn x level).toNat = 2 * x.toNat + level.toNat := by
  have hbit : (if level then (1 : UInt8) else 0).toNat = level.toNat := by
    cases level <;> rfl
  have hlt : level.toNat < 2 ^ 1 := by
    cases level <;> decide
  have hshift : (x <<< 1).toNat = x.toNat <<< 1 := by
    rw [UInt8.toNat_shiftLeft, show (1 : UInt8).toNat % 8 = 1 from rfl, Nat.shiftLeft_eq]
    omega
  rw [shiftIn, UInt8.toNat_or, hshift, hbit, ← Nat.shiftLeft_add_eq_or_of_lt hlt, Nat.shiftLeft_eq]
  omega

/-- One more bit of the byte. -/
theorem shiftIn_top (x : UInt8) {k : Nat} (hk : k < 8) :
    shiftIn (top x k) (bit x (7 - k)) = top x (k + 1) := by
  have hx := x.toNat_lt
  -- what the first `k` bits are worth
  have hhalf : x.toNat / 2 ^ (8 - k) = x.toNat / 2 ^ (7 - k) / 2 := by
    rw [Nat.div_div_eq_div_mul, ← Nat.pow_succ, show 8 - k = (7 - k).succ by omega]
  have hle : x.toNat / 2 ^ (7 - k) ≤ x.toNat := Nat.div_le_self ..
  rw [← UInt8.toNat_inj, top, top, hhalf, show 8 - (k + 1) = 7 - k by omega, UInt8.toNat_ofNat']
  have hbit : (bit x (7 - k)).toNat = x.toNat / 2 ^ (7 - k) % 2 := Nat.toNat_testBit ..
  generalize x.toNat / 2 ^ (7 - k) = n at hle hbit ⊢
  have hin : (UInt8.ofNat (n / 2)).toNat = n / 2 := by
    rw [UInt8.toNat_ofNat']
    omega
  rw [shiftIn_toNat (by omega), hin, hbit]
  omega

/-- Where the shift register is in the middle of a byte. -/
def Shift.within (d : Slave σ) (s : σ) (b : UInt8) (k : Nat) : Shift σ :=
  ⟨s, k, top b k, bit (d.reply s) (7 - k)⟩

/-- **A clock cycle** inside a byte. -/
theorem clock_within (d : Slave σ) (s : σ) (b : UInt8) {k : Nat} (hk : k < 7) :
    ((Shift.within d s b k).rise d (bit b (7 - k))).fall d = Shift.within d s b (k + 1) := by
  rw [Shift.rise, if_neg (by show ¬ k = 7; omega)]
  simp only [Shift.within, Shift.fall, shiftIn_top b (show k < 8 by omega)]

/-- The last cycle of a byte. -/
theorem clock_last (d : Slave σ) (s : σ) (b : UInt8) :
    ((Shift.within d s b 7).rise d (bit b 0)).fall d = Shift.start d (d.accept s b) := by
  have hin : shiftIn (top b 7) (bit b 0) = b :=
    (shiftIn_top b (by decide : 7 < 8)).trans (top_eight b)
  rw [Shift.rise, if_pos (by rfl)]
  simp only [Shift.within, Shift.fall, Shift.start, hin, Nat.sub_zero]

/-- At the start of a byte no bit is taken. -/
theorem within_zero (d : Slave σ) (s : σ) (b : UInt8) :
    Shift.within d s b 0 = Shift.start d s := by
  rw [Shift.within, top_zero]
  rfl

end Serial
