import Mathlib

/-!
# Tables of leases

A table maps keys to advertisements, each held until its lease runs out. Tables are ordered by key,
as the order in which entries are listed can matter to a user of the table. An entry is purged once
the time has reached its expiry, and renewing it counts from the time of the renewal, in a 64-bit
clock that stops at its largest value.

Times are arbitrary at every operation: nothing here assumes that they advance.
-/

namespace Leasing

open Std

structure Lease (α : Type) where
  advertisement : α
  expiresAt : ℕ
deriving DecidableEq

/-- When a lease taken or renewed at `now` runs out. -/
def expiry (duration now : ℕ) : ℕ := min (now + duration) (2 ^ 64 - 1)

/-- A renewal runs out earlier than another one only if it was made earlier, on a clock that had not
stopped. -/
theorem expiry_lt_expiry_iff {duration now later : ℕ} :
    expiry duration now < expiry duration later ↔
      now < later ∧ now + duration < 2 ^ 64 - 1 := by
  rw [expiry, expiry]
  omega

variable {κ α : Type} [Ord κ] [TransOrd κ]

abbrev Table (κ α : Type) [Ord κ] := ExtTreeMap κ (Lease α)

namespace Table

/-- Remove what has expired. -/
def purge (now : ℕ) (t : Table κ α) : Table κ α := t.filter fun _ lease ↦ now < lease.expiresAt

def renew (duration now : ℕ) (key : κ) (t : Table κ α) : Table κ α :=
  t.modify key fun lease ↦ { lease with expiresAt := expiry duration now }

/-- Enter an advertisement under a key, replacing an earlier one. -/
def grant (duration now : ℕ) (key : κ) (advertisement : α) (t : Table κ α) : Table κ α :=
  t.insert key { advertisement, expiresAt := expiry duration now }

/-- Whether an advertisement may be entered: replacing one is always possible. -/
def admits (capacity : ℕ) (key : κ) (t : Table κ α) : Bool := t.contains key || t.size < capacity

/-- The advertisements in the order of their keys. -/
def advertisements (t : Table κ α) : List α := t.toList.map fun entry ↦ entry.2.advertisement

variable {t : Table κ α} {duration now capacity : ℕ} {key k : κ} {advertisement : α}
  {lease : Lease α}

theorem mem_iff_exists : k ∈ t ↔ ∃ lease, t[k]? = some lease := by
  rw [ExtTreeMap.mem_iff_isSome_getElem?, Option.isSome_iff_exists]

theorem not_mem_of_not_admits (h : t.admits capacity key = false) : key ∉ t := by
  intro hkey
  rw [admits, ExtTreeMap.contains_iff_mem.mpr hkey, Bool.true_or] at h
  cases h

theorem size_purge_le : (t.purge now).size ≤ t.size := ExtTreeMap.size_filter_le_size

theorem size_renew : (t.renew duration now key).size = t.size := ExtTreeMap.size_modify

theorem size_grant_le (hsize : t.size ≤ capacity) (h : t.admits capacity key = true) :
    (t.grant duration now key advertisement).size ≤ capacity := by
  rw [admits, Bool.or_eq_true, decide_eq_true_eq] at h
  rw [grant, ExtTreeMap.size_insert]
  split_ifs with hmem
  · exact hsize
  · exact h.resolve_left hmem

theorem getElem?_renew_self :
    (t.renew duration now key)[key]? =
      t[key]?.map fun lease ↦ { lease with expiresAt := expiry duration now } :=
  ExtTreeMap.getElem?_modify_self

theorem mem_renew_iff : k ∈ t.renew duration now key ↔ k ∈ t := ExtTreeMap.mem_modify

theorem getElem?_grant_self :
    (t.grant duration now key advertisement)[key]? =
      some { advertisement, expiresAt := expiry duration now } :=
  ExtTreeMap.getElem?_insert_self

theorem mem_grant_of_mem (h : k ∈ t) : k ∈ t.grant duration now key advertisement :=
  ExtTreeMap.mem_insert.mpr (.inr h)

variable [LawfulEqOrd κ]

theorem getElem?_purge_eq_some_iff :
    (t.purge now)[k]? = some lease ↔ t[k]? = some lease ∧ now < lease.expiresAt := by
  rw [purge, ExtTreeMap.getElem?_filter', Option.filter_eq_some_iff, decide_eq_true_eq]

theorem mem_purge_iff :
    k ∈ t.purge now ↔ ∃ lease, t[k]? = some lease ∧ now < lease.expiresAt := by
  simp only [mem_iff_exists, getElem?_purge_eq_some_iff]

theorem getElem?_purge : (t.purge now)[k]? = t[k]?.filter fun lease ↦ now < lease.expiresAt := by
  rw [purge, ExtTreeMap.getElem?_filter']

/-- What has been purged once need not have been, if it is purged again later. -/
theorem purge_purge {later : ℕ} (h : now ≤ later) : (t.purge now).purge later = t.purge later := by
  refine ExtTreeMap.ext_getElem? fun k ↦ Option.ext fun lease ↦ ?_
  rw [getElem?_purge_eq_some_iff, getElem?_purge_eq_some_iff, getElem?_purge_eq_some_iff]
  exact ⟨fun hlease ↦ ⟨hlease.1.1, hlease.2⟩, fun hlease ↦ ⟨⟨hlease.1, h.trans_lt hlease.2⟩,
    hlease.2⟩⟩

theorem contains_purge_of_le {later : ℕ} (hle : now ≤ later)
    (h : (t.purge later).contains k = true) : (t.purge now).contains k = true := by
  rw [ExtTreeMap.contains_iff_mem, mem_purge_iff] at h ⊢
  obtain ⟨lease, hlease, hlive⟩ := h
  exact ⟨lease, hlease, hle.trans_lt hlive⟩

theorem purge_erase : purge now (t.erase key) = (t.purge now).erase key := by
  refine ExtTreeMap.ext_getElem? fun k ↦ ?_
  rw [getElem?_purge, ExtTreeMap.getElem?_erase, ExtTreeMap.getElem?_erase, getElem?_purge]
  split_ifs
  · rfl
  · rfl

theorem getElem?_renew_of_ne (h : key ≠ k) : (t.renew duration now key)[k]? = t[k]? := by
  rw [renew, ExtTreeMap.getElem?_modify, if_neg (mt Std.compare_eq_iff_eq.mp h)]

theorem getElem?_grant_of_ne (h : key ≠ k) :
    (t.grant duration now key advertisement)[k]? = t[k]? := by
  rw [grant, ExtTreeMap.getElem?_insert, if_neg (mt Std.compare_eq_iff_eq.mp h)]

/-- After a renewal an entry is the renewed one, or what it was. -/
theorem renewed_or_unchanged (h : (t.renew duration now key)[k]? = some lease) :
    (key = k ∧ ∃ old, t[k]? = some old ∧ lease = { old with expiresAt := expiry duration now }) ∨
      key ≠ k ∧ t[k]? = some lease := by
  by_cases hself : key = k
  · subst hself
    rw [getElem?_renew_self, Option.map_eq_some_iff] at h
    obtain ⟨old, hold, rfl⟩ := h
    exact .inl ⟨rfl, old, hold, rfl⟩
  · exact .inr ⟨hself, getElem?_renew_of_ne hself ▸ h⟩

/-- After a grant an entry is the granted one, or what it was. -/
theorem granted_or_unchanged (h : (t.grant duration now key advertisement)[k]? = some lease) :
    key = k ∧ lease = { advertisement, expiresAt := expiry duration now } ∨
      key ≠ k ∧ t[k]? = some lease := by
  by_cases hself : key = k
  · subst hself
    exact .inl ⟨rfl, Option.some.inj (h.symm.trans getElem?_grant_self)⟩
  · exact .inr ⟨hself, getElem?_grant_of_ne hself ▸ h⟩

theorem mem_advertisements_iff :
    advertisement ∈ t.advertisements ↔
      ∃ (k : κ) (lease : Lease α), t[k]? = some lease ∧ lease.advertisement = advertisement := by
  rw [advertisements, List.mem_map]
  constructor
  · rintro ⟨⟨k, lease⟩, hentry, rfl⟩
    exact ⟨k, lease, ExtTreeMap.mem_toList_iff_getElem?_eq_some.mp hentry, rfl⟩
  · rintro ⟨k, lease, hlease, rfl⟩
    exact ⟨(k, lease), ExtTreeMap.mem_toList_iff_getElem?_eq_some.mpr hlease, rfl⟩

/-! ### In the order of the keys -/

/-- In a sorted list, the first `n` of the entries with a property are those with less than `n` such
entries before them. -/
theorem mem_take_filter_iff {β : Type} {r : β → β → Bool} {p : β → Bool} {l : List β} {x : β}
    {n : ℕ} (hl : l.Pairwise fun a b ↦ r a b = true) (hr : ∀ a b, r a b = true → r b a = false) :
    x ∈ (l.filter p).take n ↔ x ∈ l ∧ p x = true ∧ l.countP (fun y ↦ p y && r y x) < n := by
  induction l generalizing n with
  | nil => simp
  | cons a l ih =>
    rw [List.pairwise_cons] at hl
    by_cases hp : p a = true
    · rw [List.filter_cons_of_pos hp]
      cases n with
      | zero => simp
      | succ n =>
        rw [List.take_succ_cons, List.mem_cons, List.mem_cons, ih hl.2]
        by_cases hx : x = a
        · -- nothing is before the first entry
          have hnone : (a :: l).countP (fun y ↦ p y && r y x) = 0 := by
            rw [List.countP_eq_zero]
            intro y hy hbefore
            rw [Bool.and_eq_true, hx] at hbefore
            rcases List.mem_cons.mp hy with rfl | hy
            · rw [hr y y hbefore.2] at hbefore
              cases hbefore.2
            · rw [hr a y (hl.1 y hy)] at hbefore
              cases hbefore.2
          simp [hx ▸ hnone, hx, hp]
        · rw [or_iff_right hx, or_iff_right hx, List.countP_cons]
          refine and_congr_right fun hmem ↦ and_congr_right fun _ ↦ ?_
          rw [if_pos (by rw [hp, hl.1 x hmem]; rfl)]
          omega
    · rw [List.filter_cons_of_neg hp, ih hl.2, List.countP_cons, if_neg (by simp [hp]), add_zero,
        List.mem_cons]
      refine ⟨fun h ↦ ⟨.inr h.1, h.2⟩, fun h ↦ ⟨h.1.resolve_left ?_, h.2⟩⟩
      rintro rfl
      exact hp h.2.1

/-- How many entries with a property come before a key. -/
def rank (t : Table κ α) (p : α → Bool) (key : κ) : ℕ :=
  t.toList.countP fun entry ↦ p entry.2.advertisement && compare entry.1 key == .lt

theorem mem_take_filter_advertisements_iff {p : α → Bool} {n : ℕ} :
    advertisement ∈ (t.advertisements.filter p).take n ↔
      ∃ (k : κ) (lease : Lease α), t[k]? = some lease ∧ lease.advertisement = advertisement ∧
        p advertisement = true ∧ t.rank p k < n := by
  have hsorted : t.toList.Pairwise fun a b ↦ (compare a.1 b.1 == .lt) = true :=
    ExtTreeMap.ordered_keys_toList.imp fun h ↦ by simp [h]
  have hasymm (a b : κ × Lease α) (h : (compare a.1 b.1 == .lt) = true) :
      (compare b.1 a.1 == .lt) = false := by
    rw [beq_iff_eq] at h
    rw [Std.OrientedOrd.eq_swap, h]
    rfl
  rw [advertisements, List.filter_map, ← List.map_take, List.mem_map]
  simp only [mem_take_filter_iff hsorted hasymm, Prod.exists,
    ExtTreeMap.mem_toList_iff_getElem?_eq_some, Function.comp_apply]
  constructor
  · rintro ⟨k, lease, ⟨hlease, hp, hrank⟩, rfl⟩
    exact ⟨k, lease, hlease, rfl, hp, hrank⟩
  · rintro ⟨k, lease, hlease, rfl, hp, hrank⟩
    exact ⟨k, lease, ⟨hlease, hp, hrank⟩, rfl⟩

end Table

end Leasing
