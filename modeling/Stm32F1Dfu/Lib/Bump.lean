import Stm32F1Dfu.Lib.Machine
import Mathlib.Logic.Function.Basic
import Mathlib.Order.Interval.Set.Defs

namespace Bump

open Machine

/-!
# Places handed out in order

An allocator that gives each request the cells from its top on and moves the top up by the
size asked for.  A name that is asked for again gets a new place, and its old one is given up
but not reused.  What uses a place may take more or less than was reserved, its *extent*.

* `alloc`, `run_alloc_place` — the allocator, and where a name has its place after a list of
  requests;
* `gap` — what is reserved in front of the next place in use;
* `Spaced` — every extent fits into the size and the gap behind it;
* `apart_iff_spaced` — which is what keeps the cells in use apart.
-/

variable {κ : Type*}

/-- A request for `size` cells under a name. -/
structure Request (κ : Type*) where
  name : κ
  size : Nat

/-- The names asked for. -/
def names (rs : List (Request κ)) : List κ := rs.map Request.name

@[simp] theorem names_nil : names ([] : List (Request κ)) = [] := rfl

@[simp] theorem names_cons (r : Request κ) (rs : List (Request κ)) :
    names (r :: rs) = r.name :: names rs := rfl

/-- What is reserved in all. -/
def total : List (Request κ) → Nat
  | []      => 0
  | r :: rs => r.size + total rs

/-! ### The cells in use -/

variable (extent : κ → Nat → Nat)

/-- The cells that are used of a place. -/
def cells (k : κ) (place : Nat × Nat) : Set Nat :=
  Set.Ico place.1 (place.1 + extent k place.2)

variable {extent}

/-- Where the second of two places is used at all, the first has to end before it begins. -/
theorem cells_apart_iff {k k' : κ} {place place' : Nat × Nat} (h : place.1 ≤ place'.1)
    (hpos : 0 < extent k' place'.2) :
    (∀ i ∈ cells extent k place, i ∉ cells extent k' place')
      ↔ place.1 + extent k place.2 ≤ place'.1 := by
  constructor
  · intro hapart
    -- otherwise the first cell of the second place is one of the first
    by_contra hend
    refine hapart place'.1 ⟨h, by omega⟩ ⟨Nat.le_refl _, ?_⟩
    exact Nat.lt_add_of_pos_right hpos
  · rintro hend i ⟨-, hlt⟩ ⟨hle, -⟩
    omega

variable [DecidableEq κ]

/-! ### The allocator -/

/-- The first cell that is free, and start and size of each name's place. -/
structure Arena (κ : Type*) where
  top : Nat
  place : κ → Option (Nat × Nat)

/-- One request. -/
def alloc (s : Arena κ) (r : Request κ) : Arena κ where
  top := s.top + r.size
  place := Function.update s.place r.name (some (s.top, r.size))

/-- The name asked for gets the cells at the top. -/
theorem alloc_place (s : Arena κ) (r : Request κ) :
    (alloc s r).place r.name = some (s.top, r.size) := Function.update_self ..

/-- The other names keep their places. -/
theorem alloc_place_of_ne (s : Arena κ) {r : Request κ} {k : κ} (h : k ≠ r.name) :
    (alloc s r).place k = s.place k := Function.update_of_ne h ..

/-- The place of a name after the requests, from a top on. -/
def placed (top : Nat) : List (Request κ) → κ → Option (Nat × Nat)
  | [], _      => none
  | r :: rs, k =>
    (placed (top + r.size) rs k).or (if r.name = k then some (top, r.size) else none)

/-- The size a name was last asked for with. -/
def lastSize : List (Request κ) → κ → Option Nat
  | [], _      => none
  | r :: rs, k => (lastSize rs k).or (if r.name = k then some r.size else none)

/-- **The place of a name** is that of the last request for it. -/
theorem run_alloc_place (s : Arena κ) (rs : List (Request κ)) (k : κ) :
    (run alloc s rs).place k = (placed s.top rs k).or (s.place k) := by
  induction rs generalizing s with
  | nil => rfl
  | cons r rs ih =>
    rw [run_cons, ih, placed, Option.or_assoc]
    congr 1
    by_cases hk : r.name = k
    · subst hk
      rw [if_pos rfl, alloc_place]
      rfl
    · rw [if_neg hk, alloc_place_of_ne s (Ne.symm hk)]
      rfl

/-- It has the size that was asked for last. -/
theorem placed_map_snd (top : Nat) (rs : List (Request κ)) (k : κ) :
    (placed top rs k).map Prod.snd = lastSize rs k := by
  induction rs generalizing top with
  | nil => rfl
  | cons r rs ih =>
    rw [placed, lastSize, Option.map_or, ih]
    congr 1
    split <;> rfl

theorem lastSize_of_placed {top : Nat} {rs : List (Request κ)} {k : κ} {a n : Nat}
    (h : placed top rs k = some (a, n)) : lastSize rs k = some n := by
  rw [← placed_map_snd top, h]
  rfl

theorem exists_placed (top : Nat) {rs : List (Request κ)} {k : κ} {n : Nat}
    (h : lastSize rs k = some n) : ∃ a, placed top rs k = some (a, n) := by
  rw [← placed_map_snd top, Option.map_eq_some_iff] at h
  obtain ⟨⟨a, n⟩, hplaced, rfl⟩ := h
  exact ⟨a, hplaced⟩

/-! ### The first request and the others -/

section

variable {top : Nat} {r : Request κ} {rs : List (Request κ)} {k : κ}

/-- A name that is not asked for has no place. -/
theorem placed_eq_none : placed top rs k = none ↔ k ∉ names rs := by
  induction rs generalizing top with
  | nil => simp [placed]
  | cons r rs ih =>
    have hfirst : (if r.name = k then some (top, r.size) else none) = none ↔ k ≠ r.name := by
      by_cases hk : r.name = k
      · simp [hk]
      · simp [hk, Ne.symm hk]
    rw [placed, Option.or_eq_none_iff, ih, hfirst, names_cons, List.mem_cons, not_or, and_comm]

/-- The places of the later requests stay. -/
theorem placed_cons_of_some {place : Nat × Nat} (h : placed (top + r.size) rs k = some place) :
    placed top (r :: rs) k = some place := by
  rw [placed, h]
  rfl

/-- The first one has its place unless its name is asked for again. -/
theorem placed_cons_self (h : r.name ∉ names rs) :
    placed top (r :: rs) r.name = some (top, r.size) := by
  rw [placed, placed_eq_none.mpr h, if_pos rfl]
  rfl

/-- There are no other places. -/
theorem placed_cons_cases {place : Nat × Nat} (h : placed top (r :: rs) k = some place) :
    placed (top + r.size) rs k = some place
      ∨ k = r.name ∧ r.name ∉ names rs ∧ place.1 = top ∧ place.2 = r.size := by
  rw [placed] at h
  cases hlater : placed (top + r.size) rs k with
  | some later =>
    rw [hlater] at h
    exact Or.inl h
  | none =>
    right
    rw [hlater, Option.none_or] at h
    split at h
    · rename_i hk
      subst hk
      obtain rfl := Option.some.inj h
      exact ⟨rfl, placed_eq_none.mp hlater, rfl, rfl⟩
    · exact absurd h (by simp)

end

/-- A place comes from a request. -/
theorem exists_mem_of_placed {top : Nat} {rs : List (Request κ)} {k : κ} {place : Nat × Nat}
    (h : placed top rs k = some place) : ∃ r ∈ rs, r.name = k ∧ r.size = place.2 := by
  induction rs generalizing top with
  | nil => exact absurd h (by simp [placed])
  | cons r rs ih =>
    rcases placed_cons_cases h with hlater | ⟨hk, -, -, hsize⟩
    · obtain ⟨r', hmem, hr'⟩ := ih hlater
      exact ⟨r', List.mem_cons_of_mem r hmem, hr'⟩
    · exact ⟨r, List.mem_cons_self, hk.symm, hsize.symm⟩

/-- Every place lies between the top before the requests and the one after them. -/
theorem placed_bounds {top : Nat} {rs : List (Request κ)} {k : κ} {place : Nat × Nat}
    (h : placed top rs k = some place) :
    top ≤ place.1 ∧ place.1 + place.2 ≤ top + total rs := by
  induction rs generalizing top with
  | nil => exact absurd h (by simp [placed])
  | cons r rs ih =>
    rw [total]
    rcases placed_cons_cases h with hlater | ⟨-, -, hstart, hsize⟩
    · have := ih hlater
      omega
    · omega

/-! ### Between two places -/

/-- What is reserved in front of the first place in use, under names that are asked for
    again. -/
def gap : List (Request κ) → Nat
  | []      => 0
  | r :: rs => if r.name ∈ names rs then r.size + gap rs else 0

/-- No place in use begins before it. -/
theorem gap_le {top : Nat} {rs : List (Request κ)} {k : κ} {place : Nat × Nat}
    (h : placed top rs k = some place) : top + gap rs ≤ place.1 := by
  induction rs generalizing top with
  | nil => exact absurd h (by simp [placed])
  | cons r rs ih =>
    rw [gap]
    rcases placed_cons_cases h with hlater | ⟨-, hnot, hstart, -⟩
    · have := ih hlater
      split <;> omega
    · rw [if_neg hnot, Nat.add_zero, hstart]

/-- One begins there. -/
theorem exists_placed_gap (top : Nat) {rs : List (Request κ)} (h : rs ≠ []) :
    ∃ k n, placed top rs k = some (top + gap rs, n) := by
  induction rs generalizing top with
  | nil => exact absurd rfl h
  | cons r rs ih =>
    by_cases hagain : r.name ∈ names rs
    · have hne : rs ≠ [] := by
        rintro rfl
        exact absurd hagain List.not_mem_nil
      obtain ⟨k, n, hk⟩ := ih (top + r.size) hne
      refine ⟨k, n, placed_cons_of_some ?_⟩
      rw [hk, gap, if_pos hagain, Nat.add_assoc]
    · refine ⟨r.name, r.size, ?_⟩
      rw [placed_cons_self hagain, gap, if_neg hagain, Nat.add_zero]

/-! ### Places that are apart -/

variable (extent) in
/-- No two places share a cell. -/
def Apart (top : Nat) (rs : List (Request κ)) : Prop :=
  ∀ k k' place place', k ≠ k' → placed top rs k = some place → placed top rs k' = some place' →
    ∀ i ∈ cells extent k place, i ∉ cells extent k' place'

variable (extent) in
/-- Every extent fits into the size asked for and the gap behind it; the last place may have
    any. -/
def Spaced : List (Request κ) → Prop
  | []      => True
  | r :: rs =>
    (r.name ∉ names rs → rs ≠ [] → extent r.name r.size ≤ r.size + gap rs) ∧ Spaced rs

/-- A place that comes from a request with an extent is used. -/
theorem extent_pos {top : Nat} {rs : List (Request κ)}
    (hpos : ∀ r ∈ rs, 0 < extent r.name r.size) {k : κ} {place : Nat × Nat}
    (h : placed top rs k = some place) : 0 < extent k place.2 := by
  obtain ⟨r, hmem, rfl, hsize⟩ := exists_mem_of_placed h
  rw [← hsize]
  exact hpos r hmem

/-- Whether the extents leave enough room can be decided. -/
instance Spaced.decidable : (rs : List (Request κ)) → Decidable (Spaced extent rs)
  | []      => inferInstanceAs (Decidable True)
  | r :: rs =>
    have := Spaced.decidable rs
    have : Decidable (rs ≠ []) := decidable_of_iff (rs.isEmpty = false) (by simp)
    inferInstanceAs (Decidable
      ((r.name ∉ names rs → rs ≠ [] → extent r.name r.size ≤ r.size + gap rs) ∧ Spaced extent rs))

/-- Only the extents of the places in use matter. -/
theorem apart_congr {extent' : κ → Nat → Nat} {rs : List (Request κ)}
    (h : ∀ k n, lastSize rs k = some n → extent k n = extent' k n) (top : Nat) :
    Apart extent top rs ↔ Apart extent' top rs := by
  have hcells {k : κ} {place : Nat × Nat} (hk : placed top rs k = some place) :
      cells extent k place = cells extent' k place := by
    rw [cells, cells, h k place.2 (lastSize_of_placed hk)]
  constructor
  · intro hap k k' place place' hne hk hk'
    rw [← hcells hk, ← hcells hk']
    exact hap k k' place place' hne hk hk'
  · intro hap k k' place place' hne hk hk'
    rw [hcells hk, hcells hk']
    exact hap k k' place place' hne hk hk'

/-- The first place against the others, and the others among themselves. -/
theorem apart_cons {top : Nat} {r : Request κ} {rs : List (Request κ)} :
    Apart extent top (r :: rs)
      ↔ (r.name ∉ names rs → ∀ k place, placed (top + r.size) rs k = some place →
          ∀ i ∈ cells extent r.name (top, r.size), i ∉ cells extent k place)
        ∧ Apart extent (top + r.size) rs := by
  constructor
  · intro h
    refine ⟨fun hnot k place hk => ?_, fun k k' place place' hne hk hk' => ?_⟩
    · have hne : r.name ≠ k := by
        rintro rfl
        rw [placed_eq_none.mpr hnot] at hk
        exact absurd hk (by simp)
      exact h r.name k _ _ hne (placed_cons_self hnot) (placed_cons_of_some hk)
    · exact h k k' place place' hne (placed_cons_of_some hk) (placed_cons_of_some hk')
  · rintro ⟨hfirst, hrest⟩ k k' place place' hne hk hk'
    rcases placed_cons_cases hk with hk | ⟨rfl, hnot, htop, hsize⟩
    · rcases placed_cons_cases hk' with hk' | ⟨rfl, hnot, htop, hsize⟩
      · exact hrest k k' place place' hne hk hk'
      · have hplace : place' = (top, r.size) := Prod.ext htop hsize
        rw [hplace]
        exact fun i hi hi' => hfirst hnot k place hk i hi' hi
    · rcases placed_cons_cases hk' with hk' | ⟨rfl, -, -, -⟩
      · have hplace : place = (top, r.size) := Prod.ext htop hsize
        rw [hplace]
        exact hfirst hnot k' place' hk'
      · exact absurd rfl hne

/-- **Exactly when the places are apart.**  It is enough that each leaves room for the next
    one in use. -/
theorem apart_iff_spaced {rs : List (Request κ)} (hpos : ∀ r ∈ rs, 0 < extent r.name r.size)
    (top : Nat) : Apart extent top rs ↔ Spaced extent rs := by
  induction rs generalizing top with
  | nil => exact iff_of_true (fun _ _ _ _ _ hk => absurd hk (by simp [placed])) trivial
  | cons r rs ih =>
    have hrs := (List.forall_mem_cons.mp hpos).2
    rw [apart_cons, ih hrs, Spaced]
    refine and_congr_left fun _ => imp_congr_right fun hnot => ?_
    -- the places behind it begin at the gap or later, and one begins there
    constructor
    · intro hfirst hne
      obtain ⟨k, n, hk⟩ := exists_placed_gap (top + r.size) hne
      have hend := (cells_apart_iff (Nat.le_trans (Nat.le_add_right top r.size)
        (Nat.le_add_right _ _)) (extent_pos hrs hk)).mp (hfirst k _ hk)
      dsimp only at hend
      omega
    · intro hroom k place hk
      have hstart := gap_le hk
      have hne : rs ≠ [] := by
        rintro rfl
        exact absurd hk (by simp [placed])
      have hfits := hroom hne
      refine (cells_apart_iff ?_ (extent_pos hrs hk)).mpr ?_
      · dsimp only
        omega
      · dsimp only
        omega

end Bump
