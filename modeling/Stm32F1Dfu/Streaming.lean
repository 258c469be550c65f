import Stm32F1Dfu.Boot

namespace Stm32F1Dfu

open LittleEndian XorFold

/-!
# Streaming a checksum

`validate_checksum_stream` over a storage that a callback reads.

* `streamLoopLog` — the loop with the requests it makes;
* `streamLoopLog_spec` — the requests tile the range up to its end or to the first that
  fails, and what is folded is the words of the storage;
* `validateChecksumStream_refines` — so the streamed checksum is the one in memory;
* `validateChecksumStream_eq` — where no request fails, in closed form.
-/

/-! ### The storage and the requests -/

/-- The callback delivers the bytes of the storage `mem`. -/
def Delivers (read_cb : ReadCb) (mem : Nat → UInt8) : Prop :=
  ∀ addr len, len ≠ 0 → ∃ buf, read_cb addr len = some buf ∧
    ∀ i < len.toNat, buf i = mem (addr.toNat + i)

/-- A callback that may fail, but delivers the bytes of `mem` where it does not. -/
def DeliversOk (read_cb : ReadCb) (mem : Nat → UInt8) : Prop :=
  ∀ addr len buf, read_cb addr len = some buf →
    ∀ i < len.toNat, buf i = mem (addr.toNat + i)

theorem Delivers.ok {read_cb : ReadCb} {mem : Nat → UInt8} (h : Delivers read_cb mem) :
    DeliversOk read_cb mem := by
  intro addr len buf hread i hi
  have hlen : len ≠ 0 := by
    rintro rfl
    exact absurd hi (Nat.not_lt_zero i)
  obtain ⟨buf', hread', hbytes⟩ := h addr len hlen
  rw [hread] at hread'
  cases hread'
  exact hbytes i hi

/-- Word `i` of a storage from the byte address `start` on. -/
def memWord (mem : Nat → UInt8) (start i : Nat) : UInt32 :=
  word (mem (start + 4 * i)) (mem (start + 4 * i + 1)) (mem (start + 4 * i + 2))
    (mem (start + 4 * i + 3))

/-- A request of the loop: an address and a length. -/
abbrev Piece := UInt32 × UInt32

/-- The callback answers the request. -/
def Piece.Read (read_cb : ReadCb) (p : Piece) : Prop := (read_cb p.1 p.2).isSome

/-- `streamLoop`, with its requests in order. -/
def streamLoopLog (read_cb : ReadCb) (chunk : UInt32) :
    Nat → UInt32 → UInt32 → UInt32 → Option (List Piece × Option UInt32)
  | fuel, addr, remaining, xorv =>
    if remaining = 0 then some ([], some xorv)
    else
      match fuel with
      | 0 => none
      | fuel + 1 =>
        let toread := if remaining > chunk then chunk else remaining
        match read_cb addr toread with
        | none => some ([(addr, toread)], none)
        | some buf =>
            (streamLoopLog read_cb chunk fuel (addr + toread) (remaining - toread)
              (xorFold xorv (bufWord buf) (toread / 4).toNat)).map
              fun r => ((addr, toread) :: r.1, r.2)

/-- What `validate_checksum_stream` returns after the loop. -/
def streamResult : Option UInt32 → Bool
  | none      => false
  | some xorv => xorv == 0

/-- `validateChecksumStream`, with its requests in order. -/
def validateChecksumStreamLog (fuel : Nat) (read_cb : ReadCb)
    (chunk start_addr size_bytes : UInt32) : Option (List Piece × Bool) :=
  if size_bytes &&& 3 ≠ 0 then some ([], false)
  else
    (streamLoopLog read_cb chunk fuel start_addr size_bytes checksumXorStart).map
      fun r => (r.1, streamResult r.2)

/-- The requests change nothing. -/
theorem streamLoopLog_snd (read_cb : ReadCb) (chunk : UInt32) (fuel : Nat) :
    ∀ addr remaining xorv : UInt32,
      (streamLoopLog read_cb chunk fuel addr remaining xorv).map Prod.snd
        = streamLoop read_cb chunk fuel addr remaining xorv := by
  induction fuel with
  | zero =>
    intro addr remaining xorv
    unfold streamLoopLog streamLoop
    split <;> rfl
  | succ fuel ih =>
    intro addr remaining xorv
    unfold streamLoopLog streamLoop
    split
    · rfl
    simp only
    generalize (if remaining > chunk then chunk else remaining) = toread
    cases read_cb addr toread with
    | none => rfl
    | some buf =>
      simp only [Option.map_map, ← ih]
      rfl

theorem validateChecksumStreamLog_snd (fuel : Nat) (read_cb : ReadCb)
    (chunk start_addr size_bytes : UInt32) :
    (validateChecksumStreamLog fuel read_cb chunk start_addr size_bytes).map Prod.snd
      = validateChecksumStream fuel read_cb chunk start_addr size_bytes := by
  unfold validateChecksumStreamLog validateChecksumStream
  split
  · rfl
  rw [← streamLoopLog_snd]
  cases streamLoopLog read_cb chunk fuel start_addr size_bytes checksumXorStart with
  | none => rfl
  | some r => cases hr : r.2 <;> simp [hr, streamResult]

/-! ### Tilings -/

/-- The pieces follow each other from `a` up to `stop`, none empty and none larger than
    `chunk`. -/
def Tiles (chunk : Nat) : Nat → List Piece → Nat → Prop
  | a, [], stop        => a = stop
  | a, p :: rest, stop =>
      p.1.toNat = a ∧ 0 < p.2.toNat ∧ p.2.toNat ≤ chunk ∧ Tiles chunk (a + p.2.toNat) rest stop

/-- A tiling goes up. -/
theorem Tiles.le {chunk : Nat} {ps : List Piece} :
    ∀ {a stop : Nat}, Tiles chunk a ps stop → a ≤ stop ∧ ∀ p ∈ ps, a ≤ p.1.toNat := by
  induction ps with
  | nil =>
    intro a stop h
    exact ⟨Nat.le_of_eq h, fun p hp => absurd hp List.not_mem_nil⟩
  | cons p ps ih =>
    rintro a stop ⟨haddr, hpos, -, hrest⟩
    obtain ⟨hle, hall⟩ := ih hrest
    refine ⟨by omega, fun q hq => ?_⟩
    rcases List.mem_cons.mp hq with rfl | hq
    · exact Nat.le_of_eq haddr.symm
    · have := hall q hq
      omega

/-- The pieces of a tiling do not overlap. -/
theorem Tiles.pairwise {chunk : Nat} {ps : List Piece} :
    ∀ {a stop : Nat}, Tiles chunk a ps stop →
      ps.Pairwise fun p q => p.1.toNat + p.2.toNat ≤ q.1.toNat := by
  induction ps with
  | nil =>
    intro a stop _
    exact List.Pairwise.nil
  | cons p ps ih =>
    rintro a stop ⟨haddr, -, -, hrest⟩
    refine List.Pairwise.cons (fun q hq => ?_) (ih hrest)
    rw [haddr]
    exact hrest.le.2 q hq

/-! ### The loop -/

/-- Every request is answered. -/
def Answered (read_cb : ReadCb) (pieces : List Piece) : Prop := ∀ p ∈ pieces, p.Read read_cb

/-- Every request is answered but the last one, which fails. -/
def Stopped (read_cb : ReadCb) (pieces : List Piece) : Prop :=
  ∃ done last, pieces = done ++ [last] ∧ Answered read_cb done ∧ ¬ last.Read read_cb

theorem Answered.cons {read_cb : ReadCb} {p : Piece} {ps : List Piece} (hp : p.Read read_cb)
    (h : Answered read_cb ps) : Answered read_cb (p :: ps) := by
  intro q hq
  rcases List.mem_cons.mp hq with rfl | hq
  · exact hp
  · exact h q hq

theorem Stopped.cons {read_cb : ReadCb} {p : Piece} {ps : List Piece} (hp : p.Read read_cb)
    (h : Stopped read_cb ps) : Stopped read_cb (p :: ps) := by
  obtain ⟨done, last, rfl, hdone, hlast⟩ := h
  exact ⟨p :: done, last, rfl, hdone.cons hp, hlast⟩

/-- What the loop reads in one round: something, whole words, and no more than a chunk or
    than what is left. -/
theorem toread_spec {chunk remaining toread : UInt32} (hchunk : 0 < chunk.toNat)
    (hchunk4 : chunk.toNat % 4 = 0) (hpos : 0 < remaining.toNat) (h4 : remaining.toNat % 4 = 0)
    (h : toread = if remaining > chunk then chunk else remaining) :
    0 < toread.toNat ∧ toread.toNat % 4 = 0 ∧ toread.toNat ≤ chunk.toNat
      ∧ toread.toNat ≤ remaining.toNat := by
  subst h
  split
  · rename_i hgt
    exact ⟨hchunk, hchunk4, Nat.le_refl _, Nat.le_of_lt (UInt32.lt_iff_toNat_lt.mp hgt)⟩
  · rename_i hle
    have hle := mt UInt32.lt_iff_toNat_lt.mpr hle
    exact ⟨hpos, h4, Nat.not_lt.mp hle, Nat.le_refl _⟩

/-- The words of a chunk, then those behind it. -/
theorem xorFold_chunk {mem buf : Nat → UInt8} {addr toread remaining : Nat} {xorv : UInt32}
    (h4 : toread % 4 = 0) (hle : toread ≤ remaining)
    (hbytes : ∀ i < toread, buf i = mem (addr + i)) :
    xorFold (xorFold xorv (bufWord buf) (toread / 4)) (memWord mem (addr + toread))
        ((remaining - toread) / 4)
      = xorFold xorv (memWord mem addr) (remaining / 4) := by
  have hsplit : remaining / 4 = toread / 4 + (remaining - toread) / 4 := by omega
  -- the words of the buffer are those of the storage
  have hfirst : xorFold xorv (bufWord buf) (toread / 4)
      = xorFold xorv (memWord mem addr) (toread / 4) := by
    apply xorFold_congr
    intro i hi
    unfold bufWord memWord
    rw [hbytes _ (by omega), hbytes _ (by omega), hbytes _ (by omega), hbytes _ (by omega)]
    congr 2 <;> omega
  rw [hsplit, xorFold_add, hfirst]
  apply xorFold_congr
  intro i hi
  unfold memWord
  congr 2 <;> omega

/-- **The streaming loop.**  It ends; its requests follow each other from `addr` on; either
    they are all answered, cover what remains, and the words of the storage are folded, or
    the last one fails. -/
theorem streamLoopLog_spec {read_cb : ReadCb} {mem : Nat → UInt8} (hcb : DeliversOk read_cb mem)
    {chunk : UInt32} (hchunk : 0 < chunk.toNat) (hchunk4 : chunk.toNat % 4 = 0) (fuel : Nat) :
    ∀ addr remaining xorv : UInt32, remaining.toNat ≤ fuel → remaining.toNat % 4 = 0 →
      addr.toNat + remaining.toNat < 2 ^ 32 →
      ∃ pieces stop r, streamLoopLog read_cb chunk fuel addr remaining xorv = some (pieces, r)
        ∧ Tiles chunk.toNat addr.toNat pieces stop ∧ stop ≤ addr.toNat + remaining.toNat
        ∧ (Answered read_cb pieces ∧ stop = addr.toNat + remaining.toNat
            ∧ r = some (xorFold xorv (memWord mem addr.toNat) (remaining.toNat / 4))
          ∨ Stopped read_cb pieces ∧ r = none) := by
  induction fuel with
  | zero =>
    intro addr remaining xorv hfuel h4 hfit
    have h0 : remaining = 0 := by
      rw [← UInt32.toNat_inj]
      show remaining.toNat = 0
      omega
    subst h0
    exact ⟨[], addr.toNat, some xorv, rfl, rfl, Nat.le_refl _,
      Or.inl ⟨fun p hp => absurd hp List.not_mem_nil, rfl, rfl⟩⟩
  | succ fuel ih =>
    intro addr remaining xorv hfuel h4 hfit
    by_cases h0 : remaining = 0
    · subst h0
      exact ⟨[], addr.toNat, some xorv, rfl, rfl, Nat.le_refl _,
        Or.inl ⟨fun p hp => absurd hp List.not_mem_nil, rfl, rfl⟩⟩
    have hpos : 0 < remaining.toNat := by
      rw [Nat.pos_iff_ne_zero]
      intro h
      exact h0 (UInt32.toNat_inj.mp h)
    -- the chunk read in this round
    obtain ⟨toread, htoread⟩ : ∃ t : UInt32, t = if remaining > chunk then chunk else remaining :=
      ⟨_, rfl⟩
    obtain ⟨hread, hread4, hmax, hle⟩ := toread_spec hchunk hchunk4 hpos h4 htoread
    have haddr : (addr + toread).toNat = addr.toNat + toread.toNat := by
      rw [UInt32.toNat_add]
      omega
    have hrem : (remaining - toread).toNat = remaining.toNat - toread.toNat :=
      UInt32.toNat_sub_of_le _ _ (UInt32.le_iff_toNat_le.mpr hle)
    have hwords : (toread / 4).toNat = toread.toNat / 4 := UInt32.toNat_div _ _
    unfold streamLoopLog
    rw [if_neg h0]
    simp only [← htoread]
    cases hcall : read_cb addr toread with
    | none =>
      -- the request fails: it is the last one
      refine ⟨[(addr, toread)], addr.toNat + toread.toNat, none, rfl,
        ⟨rfl, hread, hmax, rfl⟩, by omega, Or.inr ⟨⟨[], (addr, toread), rfl, ?_, ?_⟩, rfl⟩⟩
      · intro p hp
        exact absurd hp List.not_mem_nil
      · simp [Piece.Read, hcall]
    | some buf =>
      -- it is answered, and the loop goes on behind it
      have hp : Piece.Read read_cb (addr, toread) := by simp [Piece.Read, hcall]
      obtain ⟨pieces, stop, r, hlog, htiles, hstop, hout⟩ := ih (addr + toread)
        (remaining - toread) (xorFold xorv (bufWord buf) (toread / 4).toNat) (by omega) (by omega)
        (by omega)
      rw [haddr] at htiles hstop hout
      rw [hrem] at hstop hout
      simp only [hlog, Option.map_some]
      refine ⟨_, stop, r, rfl, ⟨rfl, hread, hmax, htiles⟩, by omega, ?_⟩
      rcases hout with ⟨hall, hend, hr⟩ | ⟨hstopped, hr⟩
      · refine Or.inl ⟨hall.cons hp, by omega, ?_⟩
        rw [hr, hwords, xorFold_chunk hread4 hle (hcb addr toread buf hcall)]
      · exact Or.inr ⟨hstopped.cons hp, hr⟩

/-! ### The checksum -/

/-- The low two bits tell whether a word is a multiple of four. -/
theorem and_three_eq_zero (v : UInt32) : v &&& 3 = 0 ↔ v.toNat % 4 = 0 := by
  rw [← UInt32.toNat_inj, UInt32.toNat_and]
  show v.toNat &&& 3 = 0 ↔ _
  rw [show (3 : Nat) = 2 ^ 2 - 1 from rfl, Nat.and_two_pow_sub_one_eq_mod]

/-- **The streamed checksum is the one in memory.**  For whole words in the address space the
    requests tile the range, up to its end or to the first that fails; the result is
    `validate_checksum` of the words, or false.  Otherwise nothing is read. -/
theorem validateChecksumStream_refines {read_cb : ReadCb} {mem : Nat → UInt8}
    (hcb : DeliversOk read_cb mem) {chunk : UInt32} (hchunk : 0 < chunk.toNat)
    (hchunk4 : chunk.toNat % 4 = 0) {fuel : Nat} {start size : UInt32}
    (hfuel : size.toNat ≤ fuel) :
    (size.toNat % 4 = 0 → start.toNat + size.toNat < 2 ^ 32 →
      ∃ pieces stop result,
        validateChecksumStreamLog fuel read_cb chunk start size = some (pieces, result)
          ∧ validateChecksumStream fuel read_cb chunk start size = some result
          ∧ Tiles chunk.toNat start.toNat pieces stop ∧ stop ≤ start.toNat + size.toNat
          ∧ (pieces.Pairwise fun p q => p.1.toNat + p.2.toNat ≤ q.1.toNat)
          ∧ (Answered read_cb pieces ∧ stop = start.toNat + size.toNat
              ∧ result = validateChecksum (memWord mem start.toNat) (size / 4)
            ∨ Stopped read_cb pieces ∧ result = false))
    ∧ (size.toNat % 4 ≠ 0 →
        validateChecksumStreamLog fuel read_cb chunk start size = some ([], false)
          ∧ validateChecksumStream fuel read_cb chunk start size = some false) := by
  constructor
  · intro h4 hfit
    obtain ⟨pieces, stop, r, hlog, htiles, hstop, hout⟩ :=
      streamLoopLog_spec hcb hchunk hchunk4 fuel start size checksumXorStart hfuel h4 hfit
    have hresult : validateChecksumStreamLog fuel read_cb chunk start size
        = some (pieces, streamResult r) := by
      unfold validateChecksumStreamLog
      rw [if_neg (not_not_intro ((and_three_eq_zero size).mpr h4)), hlog]
      rfl
    refine ⟨pieces, stop, _, hresult, ?_, htiles, hstop, htiles.pairwise, ?_⟩
    · rw [← validateChecksumStreamLog_snd, hresult]
      rfl
    · rcases hout with ⟨hall, hend, rfl⟩ | ⟨hstopped, rfl⟩
      · refine Or.inl ⟨hall, hend, ?_⟩
        have hwords : (size / 4).toNat = size.toNat / 4 := UInt32.toNat_div _ _
        rw [validateChecksum, hwords]
        rfl
      · exact Or.inr ⟨hstopped, rfl⟩
  · intro h4
    have hne : size &&& 3 ≠ 0 := fun h => h4 ((and_three_eq_zero size).mp h)
    constructor
    · exact if_pos hne
    · exact if_pos hne

/-- A callback that delivers zeros from address 0 on, and fails elsewhere. -/
def firstReadOnly : ReadCb := fun addr _ => if addr = 0 then some fun _ => 0 else none

/-- A callback that delivers every byte as its address. -/
def addressBytes : ReadCb := fun addr _ => some fun i => UInt8.ofNat (addr.toNat + i)

/-- Two chunks of one word each, of which the second fails; and three words in chunks of two, of
    which the second is shorter and none fails. -/
theorem validateChecksumStream_refines_examples :
    (∃ pieces stop result,
        validateChecksumStreamLog 8 firstReadOnly 4 0 8 = some (pieces, result)
          ∧ validateChecksumStream 8 firstReadOnly 4 0 8 = some result
          ∧ Tiles (4 : UInt32).toNat (0 : UInt32).toNat pieces stop
          ∧ stop ≤ (0 : UInt32).toNat + (8 : UInt32).toNat
          ∧ (pieces.Pairwise fun p q => p.1.toNat + p.2.toNat ≤ q.1.toNat)
          ∧ (Answered firstReadOnly pieces ∧ stop = (0 : UInt32).toNat + (8 : UInt32).toNat
              ∧ result = validateChecksum (memWord (fun _ => 0) (0 : UInt32).toNat) (8 / 4)
            ∨ Stopped firstReadOnly pieces ∧ result = false))
    ∧ ∃ pieces stop result,
        validateChecksumStreamLog 12 addressBytes 8 0x20 12 = some (pieces, result)
          ∧ validateChecksumStream 12 addressBytes 8 0x20 12 = some result
          ∧ Tiles (8 : UInt32).toNat (0x20 : UInt32).toNat pieces stop
          ∧ stop ≤ (0x20 : UInt32).toNat + (12 : UInt32).toNat
          ∧ (pieces.Pairwise fun p q => p.1.toNat + p.2.toNat ≤ q.1.toNat)
          ∧ (Answered addressBytes pieces ∧ stop = (0x20 : UInt32).toNat + (12 : UInt32).toNat
              ∧ result = validateChecksum (memWord UInt8.ofNat (0x20 : UInt32).toNat) (12 / 4)
            ∨ Stopped addressBytes pieces ∧ result = false) := by
  constructor
  · refine (validateChecksumStream_refines ?_ (by decide) (by decide) (by decide)).1 (by decide)
      (by decide)
    intro addr len buf hread i hi
    unfold firstReadOnly at hread
    split at hread
    · cases hread
      rfl
    · cases hread
  · refine (validateChecksumStream_refines ?_ (by decide) (by decide) (by decide)).1 (by decide)
      (by decide)
    intro addr len buf hread i hi
    obtain rfl := Option.some.inj hread
    rfl

/-- A storage that never fails answers every request. -/
theorem Delivers.answered {read_cb : ReadCb} {mem : Nat → UInt8} (hcb : Delivers read_cb mem)
    {chunk : Nat} {pieces : List Piece} :
    ∀ {a stop : Nat}, Tiles chunk a pieces stop → Answered read_cb pieces := by
  induction pieces with
  | nil =>
    intro a stop _ p hp
    exact absurd hp List.not_mem_nil
  | cons p pieces ih =>
    rintro a stop ⟨-, hpos, -, hrest⟩
    have hlen : p.2 ≠ 0 := by
      intro h0
      rw [h0] at hpos
      exact absurd hpos (by decide)
    obtain ⟨buf, hread, -⟩ := hcb p.1 p.2 hlen
    have hp : p.Read read_cb := by simp [Piece.Read, hread]
    exact (ih hrest).cons hp

/-- **The streaming loop** over a storage that never fails: it folds the words from `addr`
    on, whatever the size of the chunks. -/
theorem streamLoop_words {read_cb : ReadCb} {mem : Nat → UInt8} (hcb : Delivers read_cb mem)
    {chunk : UInt32} (hchunk : 0 < chunk.toNat) (hchunk4 : chunk.toNat % 4 = 0) (fuel : Nat) :
    ∀ (addr remaining xorv : UInt32), remaining.toNat ≤ fuel → remaining.toNat % 4 = 0 →
      addr.toNat + remaining.toNat < 2 ^ 32 →
      streamLoop read_cb chunk fuel addr remaining xorv
        = some (some (xorFold xorv (memWord mem addr.toNat) (remaining.toNat / 4))) := by
  intro addr remaining xorv hfuel h4 hfit
  obtain ⟨pieces, stop, r, hlog, htiles, -, hout⟩ :=
    streamLoopLog_spec hcb.ok hchunk hchunk4 fuel addr remaining xorv hfuel h4 hfit
  rw [← streamLoopLog_snd, hlog]
  rcases hout with ⟨-, -, rfl⟩ | ⟨⟨done, last, rfl, -, hlast⟩, -⟩
  · rfl
  -- no request fails
  · exact absurd (hcb.answered htiles last (by simp)) hlast

/-- **The streamed checksum** is the checksum of the words in memory, and the loop ends. -/
theorem validateChecksumStream_eq {read_cb : ReadCb} {mem : Nat → UInt8}
    (hcb : Delivers read_cb mem) {chunk : UInt32} (hchunk : 0 < chunk.toNat)
    (hchunk4 : chunk.toNat % 4 = 0) {fuel : Nat} {start size : UInt32} (hfuel : size.toNat ≤ fuel)
    (h4 : size.toNat % 4 = 0) (hfit : start.toNat + size.toNat < 2 ^ 32) :
    validateChecksumStream fuel read_cb chunk start size
      = some (xorFold checksumXorStart (memWord mem start.toNat) (size.toNat / 4) == 0) := by
  unfold validateChecksumStream
  rw [if_neg (not_not_intro ((and_three_eq_zero size).mpr h4)),
    streamLoop_words hcb hchunk hchunk4 fuel start size _ hfuel h4 hfit]

end Stm32F1Dfu
