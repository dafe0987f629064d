import TripTorrent.Codec.Slices
import TripTorrent.Storage.Disk

/-!
# Writing a file slot by slot

A file of fixed length, seen as the slots of one width that tile it. Writing data that fills a slot
changes that slot and no other, and a file is determined by its length and its slots.
-/

namespace Storage

open Codec (slice)

variable {n i j : ℕ} {bytes data : List UInt8}

theorem getElem?_slice (n : ℕ) (bytes : List UInt8) (i k : ℕ) :
    (slice n bytes i)[k]? = if k < n then bytes[i * n + k]? else none := by
  rw [slice, List.getElem?_take, List.getElem?_drop]

/-- Two files of one length with the same slots are the same. -/
theorem eq_of_slices {bytes' : List UInt8} (hn : 0 < n) (hlength : bytes.length = bytes'.length)
    (h : ∀ i, i * n < bytes.length → slice n bytes i = slice n bytes' i) : bytes = bytes' := by
  refine List.ext_getElem? fun k ↦ ?_
  by_cases hk : k < bytes.length
  · have hslot : k / n * n < bytes.length := (Nat.div_mul_le_self k n).trans_lt hk
    have hat (l : List UInt8) : (slice n l (k / n))[k % n]? = l[k]? := by
      rw [getElem?_slice, if_pos (Nat.mod_lt k hn), Nat.div_add_mod']
    rw [← hat, ← hat, h _ hslot]
  · rw [List.getElem?_eq_none (not_lt.mp hk), List.getElem?_eq_none (hlength ▸ not_lt.mp hk)]

/-- The data that fills slot `i` of a file. -/
def Fills (n : ℕ) (bytes : List UInt8) (i : ℕ) (data : List UInt8) : Prop :=
  i * n ≤ bytes.length ∧ data.length = min n (bytes.length - i * n)

/-- Data inside a file leaves its length. -/
theorem length_patch (h : i + data.length ≤ bytes.length) :
    (patch i data bytes).length = bytes.length := by
  rw [patch_eq h]
  simp only [List.length_append, List.length_take, List.length_drop]
  omega

theorem Fills.inside (h : Fills n bytes i data) : i * n + data.length ≤ bytes.length := by
  obtain ⟨hoffset, hlength⟩ := h
  omega

theorem slice_patch_self (h : Fills n bytes i data) :
    slice n (patch (i * n) data bytes) i = data := by
  obtain ⟨hoffset, hlength⟩ := h
  rw [patch_eq (by omega), slice, List.append_assoc, List.drop_append_of_le_length (by simp; omega),
    List.drop_of_length_le (by simp), List.nil_append]
  by_cases hfull : data.length = n
  · rw [← hfull, List.take_left]
  · rw [List.drop_of_length_le (by omega), List.append_nil, List.take_of_length_le (by omega)]

/-- Data written inside slot `i` leaves the other slots alone. -/
theorem slice_patch_of_ne (hinside : i * n + data.length ≤ bytes.length) (hdata : data.length ≤ n)
    (hij : i ≠ j) : slice n (patch (i * n) data bytes) j = slice n bytes j := by
  refine List.ext_getElem? fun k ↦ ?_
  rw [getElem?_slice, getElem?_slice]
  by_cases hk : k < n
  · rw [if_pos hk, if_pos hk, patch_eq hinside, List.append_assoc]
    rcases Nat.lt_or_gt_of_ne hij with hlt | hgt
    · -- behind the slot that is written
      have hbehind : i * n + n ≤ j * n := by
        rw [← Nat.succ_mul]
        exact Nat.mul_le_mul_right n hlt
      rw [List.getElem?_append_right (by simp; omega), List.getElem?_append_right (by simp; omega),
        List.getElem?_drop]
      congr 1
      simp
      omega
    · -- in front of it
      have hfront : j * n + n ≤ i * n := by
        rw [← Nat.succ_mul]
        exact Nat.mul_le_mul_right n hgt
      rw [List.getElem?_append_left (by simp; omega), List.getElem?_take_of_lt (by omega)]
  · rw [if_neg hk, if_neg hk]

/-- Writing a beginning of what is already in the slot changes nothing. -/
theorem patch_take_slice (hoffset : i * n ≤ bytes.length) (k : ℕ) :
    patch (i * n) ((slice n bytes i).take k) bytes = bytes := by
  have hbegins : (slice n bytes i).take k <+: bytes.drop (i * n) := by
    have hslice : slice n bytes i <+: bytes.drop (i * n) := List.take_prefix _ _
    refine List.IsPrefix.trans ?_ hslice
    exact List.take_prefix _ _
  have hlength := hbegins.length_le
  rw [List.length_drop] at hlength
  rw [patch_eq (by omega), List.append_assoc, ← List.drop_drop,
    List.prefix_iff_eq_append.mp hbegins, List.take_append_drop]

end Storage
