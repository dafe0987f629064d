import Mathlib.Algebra.Order.Floor.Div
import Mathlib.Data.List.GetD
import Mathlib.Data.Nat.Init

/-!
# Parts of a list given by position

The part of a list between two positions, and the slices of a list at width `n`, in order, the last
one possibly short. Slices are given by position rather than by recursion: slice `i` is what lies
between `i * n` and `(i + 1) * n`, which is also how a reader that seeks to an offset sees them.
-/

namespace Codec

variable {α : Type}

/-- The part of `l` from position `i` up to position `j`, if both lie in the list. -/
def range? (l : List α) (i j : ℕ) : Option (List α) :=
  if i ≤ j ∧ j ≤ l.length then some ((l.drop i).take (j - i)) else none

theorem range?_eq_some_iff {l m : List α} {i j : ℕ} :
    range? l i j = some m ↔ ∃ a c, l = a ++ m ++ c ∧ a.length = i ∧ i + m.length = j := by
  rw [range?]
  constructor
  · intro h
    split_ifs at h with hij
    obtain rfl := Option.some.inj h
    refine ⟨l.take i, l.drop j, ?_, List.length_take_of_le (by omega), ?_⟩
    · conv_lhs => rw [← List.take_append_drop i l, ← List.take_append_drop (j - i) (l.drop i),
        List.drop_drop, Nat.add_sub_cancel' hij.1, ← List.append_assoc]
    · rw [List.length_take_of_le (by rw [List.length_drop]; omega)]
      omega
  · rintro ⟨a, c, rfl, rfl, rfl⟩
    rw [if_pos (by simp), List.append_assoc, List.drop_left, Nat.add_sub_cancel_left,
      List.take_left]

/-! ## Occurrences -/

/-- A prefix of what follows a prefix is a longer prefix. -/
theorem append_prefix_iff {a b l : List α} :
    a ++ b <+: l ↔ a <+: l ∧ b <+: l.drop a.length := by
  constructor
  · rintro ⟨t, rfl⟩
    exact ⟨⟨b ++ t, by simp⟩, ⟨t, by simp⟩⟩
  · rintro ⟨⟨t, rfl⟩, ⟨s, hs⟩⟩
    rw [List.drop_left] at hs
    exact ⟨s, by rw [List.append_assoc, hs]⟩

/-- The list `m` stands in `l` at position `i`. -/
def Occurs (l : List α) (i : ℕ) (m : List α) : Prop := m <+: l.drop i

section Occurs

variable {l a b : List α} {x : α} {i j : ℕ}

theorem occurs_append_iff : Occurs l i (a ++ b) ↔ Occurs l i a ∧ Occurs l (i + a.length) b := by
  rw [Occurs, Occurs, Occurs, ← List.drop_drop, append_prefix_iff]

theorem occurs_append_right_iff {m : List α} : Occurs (a ++ b) (a.length + i) m ↔ Occurs b i m := by
  rw [Occurs, Occurs, List.drop_append, List.drop_eq_nil_of_le (Nat.le_add_right _ _),
    Nat.add_sub_cancel_left, List.nil_append]

theorem occurs_singleton_iff : Occurs l i [x] ↔ l[i]? = some x := by
  rw [Occurs, List.singleton_prefix_iff_head?_eq_some, List.head?_drop]

theorem occurs_cons_iff : Occurs l i (x :: b) ↔ l[i]? = some x ∧ Occurs l (i + 1) b := by
  rw [← List.singleton_append, occurs_append_iff, occurs_singleton_iff, List.length_singleton]

theorem Occurs.extract_eq (h : Occurs l i a) : l.extract i (i + a.length) = a := by
  obtain ⟨c, hc⟩ := h
  rw [List.extract, ← hc, Nat.add_sub_cancel_left, List.take_left]

theorem occurs_extract (hij : i ≤ j) (hj : j ≤ l.length) :
    Occurs l i (l.extract i j) ∧ i + (l.extract i j).length = j := by
  constructor
  · exact List.take_prefix _ _
  · rw [List.length_take, List.length_drop]
    omega

theorem Occurs.length_le (h : Occurs l i a) (ha : a ≠ []) : i + a.length ≤ l.length := by
  have hpos := List.length_pos_iff.mpr ha
  have hlength := List.IsPrefix.length_le h
  rw [List.length_drop] at hlength
  omega

/-- What stands in the beginning of a list, in terms of the list. -/
theorem occurs_iff_append (ha : a ≠ []) :
    Occurs l i a ↔ Occurs (l ++ b) i a ∧ i + a.length ≤ l.length := by
  constructor
  · intro h
    have hle := h.length_le ha
    refine ⟨List.IsPrefix.trans h ?_, hle⟩
    rw [List.drop_append_of_le_length (by omega)]
    exact List.prefix_append _ _
  · rintro ⟨h, hle⟩
    rw [Occurs, List.drop_append_of_le_length (by omega)] at h
    refine List.prefix_of_prefix_length_le h (List.prefix_append _ _) ?_
    rw [List.length_drop]
    omega

theorem Occurs.range?_eq (h : Occurs l i a) (ha : a ≠ []) : range? l i (i + a.length) = some a := by
  rw [range?, if_pos ⟨Nat.le_add_right _ _, h.length_le ha⟩]
  exact congrArg some h.extract_eq

/-- Searching from a position finds the first occurrence of an element behind it. -/
theorem idxOf?_drop_eq_some_iff [BEq α] [LawfulBEq α] {k : ℕ} :
    (l.drop i).idxOf? x = some k ↔ ∃ a, x ∉ a ∧ Occurs l i (a ++ [x]) ∧ a.length = k := by
  rw [List.idxOf?_eq_some_iff]
  constructor
  · rintro ⟨hk, rfl, hfirst⟩
    refine ⟨(l.drop i).take k, ?_, ?_, List.length_take_of_le hk.le⟩
    · intro hmem
      obtain ⟨j, hj, heq⟩ := List.mem_take_iff_getElem.mp hmem
      exact hfirst j (hj.trans_le (min_le_left _ _)) heq
    · rw [List.take_append_getElem]
      exact List.take_prefix _ _
  · rintro ⟨a, hmem, ⟨c, hc⟩, rfl⟩
    simp only [← hc, List.append_assoc]
    refine ⟨by simp, by simp, fun j hj heq ↦ hmem ?_⟩
    rw [List.getElem_append_left hj] at heq
    exact heq ▸ List.getElem_mem hj

end Occurs

/-! ## Slices -/

/-- The part of `l` between `i * n` and `(i + 1) * n`. -/
def slice (n : ℕ) (l : List α) (i : ℕ) : List α := (l.drop (i * n)).take n

/-- All slices of width `n`, in order. -/
def slices (n : ℕ) (l : List α) : List (List α) := (List.range (l.length ⌈/⌉ n)).map (slice n l)

theorem length_slice (n : ℕ) (l : List α) (i : ℕ) :
    (slice n l i).length = min n (l.length - i * n) := by
  rw [slice, List.length_take, List.length_drop]

theorem flatten_map_slice (n : ℕ) (l : List α) (k : ℕ) :
    ((List.range k).map (slice n l)).flatten = l.take (k * n) := by
  induction k with
  | zero => simp
  | succ k ih =>
    rw [List.range_succ, List.map_append, List.flatten_append, ih, List.map_singleton,
      List.flatten_singleton, slice, Nat.succ_mul, List.take_add]

/-- The slices tile the list. -/
theorem flatten_slices {n : ℕ} (hn : 0 < n) (l : List α) : (slices n l).flatten = l := by
  rw [slices, flatten_map_slice, List.take_of_length_le]
  rw [mul_comm]
  exact le_smul_ceilDiv hn

end Codec
