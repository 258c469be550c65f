import Mathlib.Data.List.Basic

namespace Descriptors

/-!
# Chains of length-prefixed records

Records one after the other, each with its own length and its kind in front.  A reader needs no
more than the bytes to tell them apart.

* `Descriptor.encode` — a record in bytes; `encodeAll` — a chain;
* `parse` — the reader, which refuses a length that is too small or runs past the end;
* `parse_encodeAll` — it reads back what was written.
-/

/-- A record. -/
structure Descriptor where
  kind : UInt8
  body : List UInt8
  deriving DecidableEq

/-- Its length fits the byte in front. -/
def Descriptor.Fits (r : Descriptor) : Prop := r.body.length ≤ 253

instance (r : Descriptor) : Decidable r.Fits := inferInstanceAs (Decidable (_ ≤ _))

/-- Its bytes: the length of them all, the kind, the body. -/
def Descriptor.encode (r : Descriptor) : List UInt8 :=
  UInt8.ofNat (r.body.length + 2) :: r.kind :: r.body

/-- The bytes of a chain. -/
def encodeAll (rs : List Descriptor) : List UInt8 := rs.flatMap Descriptor.encode

@[simp] theorem encodeAll_nil : encodeAll [] = [] := rfl

theorem encodeAll_cons (r : Descriptor) (rs : List Descriptor) :
    encodeAll (r :: rs)
      = UInt8.ofNat (r.body.length + 2) :: r.kind :: (r.body ++ encodeAll rs) := rfl

/-- The reader, for `n` bytes at most. -/
def parseUpTo : Nat → List UInt8 → Option (List Descriptor)
  | _, []         => some []
  | 0, _ :: _     => none
  | _ + 1, [_]    => none
  | n + 1, len :: kind :: rest =>
      if 2 ≤ len.toNat ∧ len.toNat ≤ rest.length + 2 then
        (parseUpTo n (rest.drop (len.toNat - 2))).map
          (⟨kind, rest.take (len.toNat - 2)⟩ :: ·)
      else none

/-- The reader. -/
def parse (bytes : List UInt8) : Option (List Descriptor) := parseUpTo bytes.length bytes

/-- The reader with enough room. -/
theorem parseUpTo_encodeAll {rs : List Descriptor} (h : ∀ r ∈ rs, r.Fits) {n : Nat}
    (hn : (encodeAll rs).length ≤ n) : parseUpTo n (encodeAll rs) = some rs := by
  induction rs generalizing n with
  | nil => cases n <;> rfl
  | cons r rs ih =>
    have hfits : r.body.length ≤ 253 := h r List.mem_cons_self
    have hlen : (UInt8.ofNat (r.body.length + 2)).toNat = r.body.length + 2 := by
      rw [UInt8.toNat_ofNat']
      omega
    rw [encodeAll_cons] at hn ⊢
    simp only [List.length_cons, List.length_append] at hn
    obtain ⟨n, rfl⟩ := Nat.exists_eq_add_one.mpr (show 0 < n by omega)
    rw [parseUpTo, hlen, if_pos ⟨by omega, by rw [List.length_append]; omega⟩, Nat.add_sub_cancel,
      List.drop_left, List.take_left,
      ih (fun r' hr' => h r' (List.mem_cons_of_mem r hr')) (by omega)]
    rfl

/-- **What was written is read back.** -/
theorem parse_encodeAll {rs : List Descriptor} (h : ∀ r ∈ rs, r.Fits) :
    parse (encodeAll rs) = some rs := parseUpTo_encodeAll h (Nat.le_refl _)

end Descriptors
