import Mathlib.Data.List.Basic

namespace SectorMap

/-!
# DfuSe memory maps

The text in which a DFU device tells a host about its memory: `@name/0xaddress/` and runs of
sectors, each `count*size`, a unit and a letter.  The low bits of the letter say whether the
sectors can be read, erased and written.

* `parse` — the reader of such a text;
* `Map.sectorAt` — the sector of an address;
* `Map.sectorAt_mem` — it has the address in it;
* `Map.sectorAt_uniform` — which addresses are in one, when all have one size.
-/

/-- A run of sectors of one size. -/
structure Run where
  count : Nat
  size : Nat
  kind : Nat
  deriving DecidableEq

/-- Runs of sectors, one after the other from `base` on. -/
structure Map where
  base : Nat
  runs : List Run
  deriving DecidableEq

/-! ### The text -/

/-- The value of a hexadecimal digit. -/
def digit (c : Char) : Option Nat :=
  if c.isDigit then some (c.toNat - '0'.toNat)
  else if 'a' ≤ c ∧ c ≤ 'f' then some (c.toNat - 'a'.toNat + 10)
  else if 'A' ≤ c ∧ c ≤ 'F' then some (c.toNat - 'A'.toNat + 10)
  else none

/-- The number that the text begins with, to the base `b`, and the text behind it. -/
def number (b n : Nat) : List Char → Nat × List Char
  | []      => (n, [])
  | c :: cs =>
      match digit c with
      | some k => if k < b then number b (b * n + k) cs else (n, c :: cs)
      | none   => (n, c :: cs)

/-- The bytes of a unit of size. -/
def unit (c : Char) : Option Nat :=
  if c = ' ' ∨ c = 'B' then some 1
  else if c = 'K' then some 1024
  else if c = 'M' then some (1024 * 1024)
  else none

/-- At most `n` runs, with commas between them. -/
def parseRuns : Nat → List Char → Option (List Run)
  | 0, _      => none
  | n + 1, cs =>
      match number 10 0 cs with
      | (count, '*' :: cs) =>
          match number 10 0 cs with
          | (size, u :: kind :: cs) =>
              match unit u, cs with
              | some bytes, []        => some [⟨count, size * bytes, kind.toNat % 8⟩]
              | some bytes, ',' :: cs =>
                  (parseRuns n cs).map (⟨count, size * bytes, kind.toNat % 8⟩ :: ·)
              | _, _                  => none
          | _ => none
      | _ => none

/-- The reader. -/
def parse : List Char → Option Map
  | '@' :: cs =>
      match cs.dropWhile (· ≠ '/') with
      | '/' :: '0' :: 'x' :: cs =>
          match number 16 0 cs with
          | (base, '/' :: cs) => (parseRuns cs.length cs).map (⟨base, ·⟩)
          | _                 => none
      | _ => none
  | _ => none

/-! ### Sectors -/

/-- One sector. -/
structure Sector where
  start : Nat
  size : Nat
  kind : Nat
  deriving DecidableEq

/-- The sector of the address `a` in runs from `base` on. -/
def sectorAt (a : Nat) : Nat → List Run → Option Sector
  | _, []         => none
  | base, r :: rs =>
      if a < base then none
      else if a < base + r.count * r.size then
        some ⟨base + (a - base) / r.size * r.size, r.size, r.kind⟩
      else sectorAt a (base + r.count * r.size) rs

/-- The sector of an address. -/
def Map.sectorAt (m : Map) (a : Nat) : Option Sector := SectorMap.sectorAt a m.base m.runs

/-- The sector of `a` can be erased. -/
def Map.Erasable (m : Map) (a : Nat) : Prop := ∃ s ∈ m.sectorAt a, s.kind / 2 % 2 = 1

/-- The sector of `a` can be written. -/
def Map.Writable (m : Map) (a : Nat) : Prop := ∃ s ∈ m.sectorAt a, s.kind / 4 % 2 = 1

instance (m : Map) (a : Nat) : Decidable (m.Erasable a) := by
  unfold Map.Erasable
  infer_instance

instance (m : Map) (a : Nat) : Decidable (m.Writable a) := by
  unfold Map.Writable
  infer_instance

theorem sectorAt_mem {a base : Nat} {rs : List Run} {s : Sector} (h : sectorAt a base rs = some s) :
    s.start ≤ a ∧ a < s.start + s.size := by
  induction rs generalizing base with
  | nil => exact absurd h (by simp [sectorAt])
  | cons r rs ih =>
    unfold sectorAt at h
    split at h
    · exact absurd h (by simp)
    · split at h
      case isTrue hbase hin =>
        obtain rfl := Option.some.inj h
        have hpos : 0 < r.size := Nat.pos_of_ne_zero fun h0 => by
          rw [h0, Nat.mul_zero] at hin
          omega
        have hdiv := Nat.div_add_mod' (a - base) r.size
        have hmod := Nat.mod_lt (a - base) hpos
        constructor
        · show base + (a - base) / r.size * r.size ≤ a
          omega
        · show a < base + (a - base) / r.size * r.size + r.size
          omega
      case isFalse => exact ih h

/-- Sectors of one size, from a multiple of it on. -/
theorem sectorAt_aligned {a base n : Nat} {rs : List Run} {s : Sector} (hbase : n ∣ base)
    (hsize : ∀ r ∈ rs, r.size = n) (h : sectorAt a base rs = some s) :
    n ∣ s.start ∧ s.size = n := by
  induction rs generalizing base with
  | nil => exact absurd h (by simp [sectorAt])
  | cons r rs ih =>
    have hr : r.size = n := hsize r List.mem_cons_self
    unfold sectorAt at h
    split at h
    · exact absurd h (by simp)
    · split at h
      · obtain rfl := Option.some.inj h
        subst hr
        exact ⟨Nat.dvd_add hbase (Nat.dvd_mul_left ..), rfl⟩
      · exact ih (Nat.dvd_add hbase (hr ▸ Nat.dvd_mul_left ..))
          (fun r' hr' => hsize r' (List.mem_cons_of_mem r hr')) h

/-- There the multiple below an address decides. -/
theorem sectorAt_congr {a b base n : Nat} {rs : List Run} (hn : 0 < n) (hbase : n ∣ base)
    (hsize : ∀ r ∈ rs, r.size = n) (h : a / n = b / n) :
    sectorAt a base rs = sectorAt b base rs := by
  induction rs generalizing base with
  | nil => rfl
  | cons r rs ih =>
    obtain ⟨k, rfl⟩ := hbase
    have hr : r.size = n := hsize r List.mem_cons_self
    have hlt (k : Nat) : a < n * k ↔ b < n * k := by
      rw [Nat.mul_comm, ← Nat.div_lt_iff_lt_mul hn, ← Nat.div_lt_iff_lt_mul hn, h]
    have hend : n * k + r.count * n = n * (k + r.count) := by
      rw [Nat.mul_add, Nat.mul_comm r.count]
    unfold sectorAt
    rw [hr, Nat.sub_mul_div, Nat.sub_mul_div, h, hend]
    simp only [hlt]
    rw [ih (Nat.dvd_mul_right n _) fun r' hr' => hsize r' (List.mem_cons_of_mem r hr')]

/-- **The sector of an address** has it in it. -/
theorem Map.sectorAt_mem {m : Map} {a : Nat} {s : Sector} (h : m.sectorAt a = some s) :
    s.start ≤ a ∧ a < s.start + s.size := SectorMap.sectorAt_mem h

/-- **Sectors of one size** hold the addresses with one multiple of it below them. -/
theorem Map.sectorAt_uniform {m : Map} {a b n : Nat} {s : Sector} (hn : 0 < n) (hbase : n ∣ m.base)
    (hsize : ∀ r ∈ m.runs, r.size = n) (h : m.sectorAt a = some s) :
    m.sectorAt b = some s ↔ b / n = a / n := by
  refine ⟨fun hb => ?_, fun hdiv => (SectorMap.sectorAt_congr hn hbase hsize hdiv).trans h⟩
  obtain ⟨⟨k, hk⟩, hsn⟩ := SectorMap.sectorAt_aligned hbase hsize h
  -- both are in the sector with the number `k`
  have hnum {c : Nat} (hc : s.start ≤ c ∧ c < s.start + s.size) : c / n = k := by
    rw [hsn, hk] at hc
    exact Nat.div_eq_of_lt_le (by rw [Nat.mul_comm]; exact hc.1)
      (by rw [Nat.add_mul, Nat.one_mul, Nat.mul_comm]; exact hc.2)
  rw [hnum (Map.sectorAt_mem hb), hnum (Map.sectorAt_mem h)]

end SectorMap
