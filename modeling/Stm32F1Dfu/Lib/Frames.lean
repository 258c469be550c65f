import Mathlib.Data.List.Basic

namespace Frames

/-!
# Data cut into frames of one size

A channel that carries frames of at most `n` items delivers data as full frames and one last
frame.  A receiver that does not know how much is coming recognises the end by a frame that
is short; where the data fills its frames, an empty one is needed (`terminated`).

* `frames` — the frames, `frames_flatten` their concatenation;
* `Framed` — what a receiver relies on, and `frames_framed`, that it may.
-/

variable {α : Type*}

/-- Frame `k` of the data. -/
def frame (n : Nat) (data : List α) (k : Nat) : List α := (data.drop (n * k)).take n

/-- How many frames `len` items take. -/
def frameCount (n len : Nat) (terminated : Bool) : Nat :=
  if terminated then len / n + 1 else (len + n - 1) / n

/-- The frames of the data. -/
def frames (n : Nat) (data : List α) (terminated : Bool) : List (List α) :=
  (List.range (frameCount n data.length terminated)).map (frame n data)

@[simp] theorem length_frames (n : Nat) (data : List α) (terminated : Bool) :
    (frames n data terminated).length = frameCount n data.length terminated := by
  simp [frames]

@[simp] theorem getElem_frames {n : Nat} {data : List α} {terminated : Bool} {k : Nat}
    (hk : k < (frames n data terminated).length) :
    (frames n data terminated)[k] = frame n data k := by
  simp [frames]

/-- The first `c` frames hold the first `n * c` items. -/
theorem flatten_range (n : Nat) (data : List α) (c : Nat) :
    ((List.range c).map (frame n data)).flatten = data.take (n * c) := by
  induction c with
  | zero => simp
  | succ c ih =>
    rw [List.range_succ, List.map_append, List.flatten_append, ih, Nat.mul_succ, List.take_add]
    simp [frame]

/-- There are enough frames for the data. -/
theorem le_mul_frameCount {n : Nat} (hn : 0 < n) (len : Nat) (terminated : Bool) :
    len ≤ n * frameCount n len terminated := by
  have hdiv := Nat.div_add_mod (len + n - 1) n
  have hmod := Nat.mod_lt (len + n - 1) hn
  have hdiv' := Nat.div_add_mod len n
  have hmod' := Nat.mod_lt len hn
  unfold frameCount
  split
  · rw [Nat.mul_add]
    omega
  · omega

/-- **Nothing is lost or repeated.** -/
theorem frames_flatten {n : Nat} (hn : 0 < n) (data : List α) (terminated : Bool) :
    (frames n data terminated).flatten = data := by
  rw [frames, flatten_range]
  exact List.take_of_length_le (le_mul_frameCount hn data.length terminated)

/-- The size of a frame. -/
theorem length_frame (n : Nat) (data : List α) (k : Nat) :
    (frame n data k).length = min n (data.length - n * k) := by
  simp [frame]

/-- **Every frame but the last is full.** -/
theorem length_of_mem_dropLast {n : Nat} (hn : 0 < n) {data : List α} {terminated : Bool}
    {f : List α} (hf : f ∈ (frames n data terminated).dropLast) : f.length = n := by
  obtain ⟨k, hk, rfl⟩ := List.getElem_of_mem hf
  rw [List.length_dropLast, length_frames] at hk
  rw [List.getElem_dropLast, getElem_frames, length_frame]
  -- the frame after it still begins inside the data, or at its end
  have hfull : n * (k + 1) ≤ data.length := by
    unfold frameCount at hk
    split at hk
    · have hle : k + 1 ≤ data.length / n := by omega
      exact Nat.le_trans (Nat.mul_le_mul_left n hle) (Nat.mul_div_le data.length n)
    · have hle : k + 2 ≤ (data.length + n - 1) / n := by omega
      have hmul := Nat.le_trans (Nat.mul_le_mul_left n hle) (Nat.mul_div_le (data.length + n - 1) n)
      rw [Nat.mul_add] at hmul ⊢
      omega
  rw [Nat.mul_add, Nat.mul_one] at hfull
  omega

/-- The last frame. -/
theorem getLast?_frames {n : Nat} {data : List α} {terminated : Bool} {k : Nat}
    (hk : frameCount n data.length terminated = k + 1) :
    (frames n data terminated).getLast? = some (frame n data k) := by
  rw [frames, hk, List.range_succ, List.map_append]
  simp

/-- The end is recognised: the last frame is short. -/
theorem length_frame_terminated {n : Nat} (hn : 0 < n) (data : List α) :
    (frame n data (data.length / n)).length < n := by
  have hdiv := Nat.div_add_mod data.length n
  have hmod := Nat.mod_lt data.length hn
  rw [length_frame]
  omega

/-- No frame too many: where the end is known, the last frame has something in it. -/
theorem frame_ne_nil {n : Nat} (hn : 0 < n) {data : List α} {k : Nat}
    (hk : frameCount n data.length false = k + 1) : frame n data k ≠ [] := by
  have hmul := Nat.mul_div_le (data.length + n - 1) n
  have hcount : (data.length + n - 1) / n = k + 1 := hk
  rw [hcount, Nat.mul_add] at hmul
  rw [← List.length_pos_iff, length_frame]
  omega

/-- What a receiver relies on: it gets the data, in full frames and one last frame that shows
    the end where the end has to be recognised, and is not sent in vain where it has not. -/
structure Framed (n : Nat) (data : List α) (terminated : Bool) (fs : List (List α)) : Prop where
  data : fs.flatten = data
  full : ∀ f ∈ fs.dropLast, f.length = n
  last : ∃ f, fs.getLast? = some f ∧ f.length ≤ n ∧ (terminated = true → f.length < n)
    ∧ (terminated = false → f ≠ [])

/-- **The frames are what a receiver relies on.** -/
theorem frames_framed {n : Nat} (hn : 0 < n) {data : List α} {terminated : Bool}
    (h : terminated = false → data ≠ []) :
    Framed n data terminated (frames n data terminated) where
  data := frames_flatten hn data terminated
  full := fun _ hf => length_of_mem_dropLast hn hf
  last := by
    cases terminated with
    | true =>
      have hlt := length_frame_terminated hn data
      exact ⟨_, getLast?_frames rfl, Nat.le_of_lt hlt, fun _ => hlt, fun hf => Bool.noConfusion hf⟩
    | false =>
      have hpos : 0 < data.length := List.length_pos_iff.mpr (h rfl)
      have hcount : 0 < frameCount n data.length false := Nat.div_pos (by omega) hn
      obtain ⟨k, hk⟩ := Nat.exists_eq_add_one.mpr hcount
      refine ⟨_, getLast?_frames hk, ?_, fun hf => Bool.noConfusion hf, fun _ => frame_ne_nil hn hk⟩
      rw [length_frame]
      omega

end Frames
