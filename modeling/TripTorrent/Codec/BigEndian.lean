import Mathlib.Data.Nat.Digits.Lemmas

/-!
# Fixed-width big-endian words

A word of `k` bytes is written most significant byte first. The digits themselves are Mathlib's
`Nat.digitsAppend`, least significant first and padded to the width, so a word is that list
reversed and read as bytes; `Nat.ofDigits` is the inverse. Nothing here knows what the words are
for: the two inverse laws are stated once for every width, and the machine-word forms at the end
are their instances at one, two, four and eight bytes.
-/

namespace Codec

/-- The `k`-byte big-endian image of `n`. -/
def beBytes (k n : ℕ) : List UInt8 := (Nat.digitsAppend 256 k n).reverse.map UInt8.ofNat

/-- The number a list of bytes spells, most significant byte first. -/
def ofBeBytes (bytes : List UInt8) : ℕ := Nat.ofDigits 256 (bytes.map UInt8.toNat).reverse

theorem length_beBytes {k n : ℕ} (h : n < 256 ^ k) : (beBytes k n).length = k := by
  rw [beBytes, List.length_map, List.length_reverse, Nat.length_digitsAppend (by norm_num) k h]

theorem ofBeBytes_lt (bytes : List UInt8) : ofBeBytes bytes < 256 ^ bytes.length := by
  have h := Nat.ofDigits_lt_base_pow_length (b := 256) (l := (bytes.map UInt8.toNat).reverse)
    (by norm_num) (by
      intro x hx
      obtain ⟨b, -, rfl⟩ := List.mem_map.mp (List.mem_reverse.mp hx)
      exact b.toNat_lt)
  rwa [List.length_reverse, List.length_map] at h

theorem ofBeBytes_beBytes {k n : ℕ} (h : n < 256 ^ k) : ofBeBytes (beBytes k n) = n := by
  have hdigits : ((Nat.digitsAppend 256 k n).map UInt8.ofNat).map UInt8.toNat
      = Nat.digitsAppend 256 k n := by
    rw [List.map_map]
    refine (List.map_congr_left fun d hd ↦ ?_).trans (List.map_id _)
    exact UInt8.toNat_ofNat_of_lt (Nat.lt_of_mem_digitsAppend (by norm_num) k d hd)
  rw [ofBeBytes, beBytes, List.map_reverse, List.map_reverse, List.reverse_reverse, hdigits]
  exact (Nat.setInvOn_digitsAppend_ofDigits (by norm_num) k).2 h

theorem beBytes_ofBeBytes (bytes : List UInt8) :
    beBytes bytes.length (ofBeBytes bytes) = bytes := by
  have hdigits : Nat.digitsAppend 256 bytes.length
      (Nat.ofDigits 256 (bytes.map UInt8.toNat).reverse) = (bytes.map UInt8.toNat).reverse := by
    refine (Nat.setInvOn_digitsAppend_ofDigits (by norm_num) bytes.length).1 ⟨by simp, ?_⟩
    intro x hx
    obtain ⟨b, -, rfl⟩ := List.mem_map.mp (List.mem_reverse.mp hx)
    exact b.toNat_lt
  rw [beBytes, ofBeBytes, hdigits, List.reverse_reverse, List.map_map]
  exact (List.map_congr_left fun b _ ↦ UInt8.ofNat_toNat).trans (List.map_id _)

/-! ## Machine words -/

theorem UInt16.toNat_lt_pow (v : UInt16) : v.toNat < 256 ^ 2 := by
  simpa using v.toNat_lt

theorem UInt32.toNat_lt_pow (v : UInt32) : v.toNat < 256 ^ 4 := by
  simpa using v.toNat_lt

theorem UInt64.toNat_lt_pow (v : UInt64) : v.toNat < 256 ^ 8 := by
  simpa using v.toNat_lt

end Codec
