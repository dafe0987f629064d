import Mathlib

/-!
# Maps read by key

What the operations on an ordered map do to the entry under each key, when keys that compare equal
are equal. A map is only ever looked at through `getElem?`, so these are the rules by which the
tables of a program are computed with.
-/

namespace Storage.Keyed

open Std (ExtTreeMap TransOrd LawfulEqOrd)

variable {κ α : Type} [Ord κ] [TransOrd κ] [LawfulEqOrd κ] {t : ExtTreeMap κ α} {k a : κ} {v : α}

/-- Entering a value where there is one changes nothing. -/
theorem insertIfNew_of_some {b : α} (h : t[k]? = some b) : t.insertIfNew k v = t := by
  refine ExtTreeMap.ext_getElem? fun a ↦ ?_
  have hmem : k ∈ t := ExtTreeMap.mem_iff_isSome_getElem?.mpr (by rw [h]; rfl)
  rw [ExtTreeMap.getElem?_insertIfNew, if_neg fun hnew ↦ hnew.2 hmem]

theorem insertIfNew_of_none (h : t[k]? = none) : t.insertIfNew k v = t.insert k v := by
  refine ExtTreeMap.ext_getElem? fun a ↦ ?_
  have hmem : k ∉ t := fun hmem ↦ by
    rw [ExtTreeMap.mem_iff_isSome_getElem?, h] at hmem
    cases hmem
  rw [ExtTreeMap.getElem?_insertIfNew, ExtTreeMap.getElem?_insert]
  simp only [hmem, not_false_eq_true, and_true]

variable [DecidableEq κ]

theorem getElem?_insert : (t.insert k v)[a]? = if k = a then some v else t[a]? := by
  rw [ExtTreeMap.getElem?_insert]
  simp only [Std.compare_eq_iff_eq]

theorem getElem?_erase : (t.erase k)[a]? = if k = a then none else t[a]? := by
  rw [ExtTreeMap.getElem?_erase]
  simp only [Std.compare_eq_iff_eq]

theorem getElem?_modify {f : α → α} :
    (t.modify k f)[a]? = if k = a then t[a]?.map f else t[a]? := by
  rw [ExtTreeMap.getElem?_modify]
  split_ifs with hcmp heq heq
  · rw [heq]
  · exact absurd (Std.compare_eq_iff_eq.mp hcmp) heq
  · exact absurd (Std.compare_eq_iff_eq.mpr heq) hcmp
  · rfl

/-- After an insertion an entry is the new one, or what it was. -/
theorem inserted_or_unchanged {b : α} (h : (t.insert k v)[a]? = some b) :
    k = a ∧ v = b ∨ k ≠ a ∧ t[a]? = some b := by
  rw [getElem?_insert] at h
  split_ifs at h with heq
  · exact .inl ⟨heq, Option.some.inj h⟩
  · exact .inr ⟨heq, h⟩

/-- What is left after an erasure was there before. -/
theorem getElem?_of_erase {b : α} (h : (t.erase k)[a]? = some b) : k ≠ a ∧ t[a]? = some b := by
  rw [getElem?_erase] at h
  split_ifs at h with heq
  exact ⟨heq, h⟩

theorem insert_insert {w : α} : (t.insert k v).insert k w = t.insert k w := by
  refine ExtTreeMap.ext_getElem? fun a ↦ ?_
  rw [getElem?_insert, getElem?_insert, getElem?_insert]
  split_ifs <;> rfl

/-! ## Updating every entry -/

section Fold

variable {f : κ → α → α → α} {l : List (κ × α)}

theorem getElem?_foldl_modify_of_notMem (h : ∀ x ∈ l, x.1 ≠ a) :
    (l.foldl (fun t x ↦ t.modify x.1 (f x.1 x.2)) t)[a]? = t[a]? := by
  induction l generalizing t with
  | nil => rfl
  | cons x l ih =>
    rw [List.foldl_cons, ih fun y hy ↦ h y (List.mem_cons_of_mem _ hy), getElem?_modify,
      if_neg (h x List.mem_cons_self)]

theorem getElem?_foldl_modify_of_mem (hl : l.Pairwise fun x y ↦ x.1 ≠ y.1) (h : (a, v) ∈ l) :
    (l.foldl (fun t x ↦ t.modify x.1 (f x.1 x.2)) t)[a]? = t[a]?.map (f a v) := by
  induction l generalizing t with
  | nil => cases h
  | cons x l ih =>
    obtain ⟨hx, hl⟩ := List.pairwise_cons.mp hl
    rw [List.foldl_cons]
    rcases List.mem_cons.mp h with rfl | h
    · rw [getElem?_foldl_modify_of_notMem fun y hy ↦ (hx y hy).symm, getElem?_modify, if_pos rfl]
    · rw [ih hl h, getElem?_modify, if_neg (hx _ h)]

/-- A pass over a snapshot of the table that updates each entry from what the snapshot says. -/
theorem foldl_modify_toList :
    t.toList.foldl (fun t x ↦ t.modify x.1 (f x.1 x.2)) t = t.map fun k v ↦ f k v v := by
  refine ExtTreeMap.ext_getElem? fun a ↦ ?_
  rw [ExtTreeMap.getElem?_map]
  have hdistinct : t.toList.Pairwise fun x y ↦ x.1 ≠ y.1 :=
    ExtTreeMap.distinct_keys_toList.imp fun hne heq ↦ hne (Std.compare_eq_iff_eq.mpr heq)
  rcases ha : t[a]? with _ | v
  · rw [getElem?_foldl_modify_of_notMem, ha]
    · rfl
    · rintro ⟨k, w⟩ hx rfl
      rw [ExtTreeMap.mem_toList_iff_getElem?_eq_some] at hx
      cases hx.symm.trans ha
  · rw [getElem?_foldl_modify_of_mem hdistinct
      (ExtTreeMap.mem_toList_iff_getElem?_eq_some.mpr ha), ha]
    rfl

end Fold

end Storage.Keyed
