import TripTorrent.Leasing.Table

/-!
# Renewals out of order

A service whose requests carry their own times may handle them in any order. One request changes a
table in a restricted way: entries that have expired go, the entry it renews is dated at its time,
and the others stay as they are. So every entry expires as its latest renewal says, where the latest
is the one handled last; and a request shortens the lease of an entry exactly when it renews it with
an earlier time than that.
-/

namespace Leasing

open Std (ExtTreeMap TransOrd LawfulEqOrd)

variable {κ α : Type} [Ord κ] [TransOrd κ]

/-! ## What one request can do -/

/-- What one request at `now` makes of a table. It dates the entry of `key?`, if there is one, and
does not remove it if it was still leased and the clock has not stopped. -/
structure Update (duration now : ℕ) (key? : Option κ) (t t' : Table κ α) : Prop where
  entry : ∀ (k : κ) (lease : Lease α), t'[k]? = some lease →
    key? = some k ∧ lease.expiresAt = expiry duration now ∨ key? ≠ some k ∧ t[k]? = some lease
  kept : ∀ (k : κ) (lease : Lease α), key? = some k → t[k]? = some lease → now < lease.expiresAt →
    now + duration < 2 ^ 64 - 1 → k ∈ t'

namespace Update

variable {key? : Option κ} {key : κ} {advertisement : α} {t t' : Table κ α}

/-- Nothing is renewed if all that is left was there before. -/
theorem of_subset (duration now : ℕ)
    (h : ∀ (k : κ) (lease : Lease α), t'[k]? = some lease → t[k]? = some lease) :
    Update duration now none t t' where
  entry k lease hlease := .inr ⟨nofun, h k lease hlease⟩
  kept _ _ hkey := nomatch hkey

theorem refl (duration now : ℕ) (t : Table κ α) : Update duration now none t t :=
  of_subset duration now fun _ _ hlease ↦ hlease

theorem erase (duration now : ℕ) (key : κ) (t : Table κ α) :
    Update duration now none t (t.erase key) := by
  refine of_subset duration now fun k lease hlease ↦ ?_
  rw [ExtTreeMap.getElem?_erase] at hlease
  split_ifs at hlease
  exact hlease

variable [LawfulEqOrd κ] {duration now : ℕ}

/-- A request for an entry that has expired, and is gone once the table is purged. -/
theorem purge_of_not_mem (h : ∀ k, key? = some k → k ∉ t.purge now) :
    Update duration now key? t (t.purge now) where
  entry k lease hlease := .inr ⟨fun hkey ↦ h k hkey (Table.mem_iff_exists.mpr ⟨lease, hlease⟩),
    (Table.getElem?_purge_eq_some_iff.mp hlease).1⟩
  kept k lease hkey hlease hlive _ :=
    absurd (Table.mem_purge_iff.mpr ⟨lease, hlease, hlive⟩) (h k hkey)

theorem purge (duration now : ℕ) (t : Table κ α) : Update duration now none t (t.purge now) :=
  purge_of_not_mem nofun

theorem grant (duration now : ℕ) (key : κ) (advertisement : α) (t : Table κ α) :
    Update duration now (some key) t ((t.purge now).grant duration now key advertisement) where
  entry k lease hlease := by
    rcases Table.granted_or_unchanged hlease with ⟨rfl, rfl⟩ | ⟨hother, hold⟩
    · exact .inl ⟨rfl, rfl⟩
    · exact .inr ⟨mt Option.some.inj hother, (Table.getElem?_purge_eq_some_iff.mp hold).1⟩
  kept k lease _ hlease hlive _ :=
    Table.mem_grant_of_mem (Table.mem_purge_iff.mpr ⟨lease, hlease, hlive⟩)

theorem renew (duration now : ℕ) (key : κ) (t : Table κ α) :
    Update duration now (some key) t ((t.purge now).renew duration now key) where
  entry k lease hlease := by
    rcases Table.renewed_or_unchanged hlease with ⟨rfl, -, -, rfl⟩ | ⟨hother, hold⟩
    · exact .inl ⟨rfl, rfl⟩
    · exact .inr ⟨mt Option.some.inj hother, (Table.getElem?_purge_eq_some_iff.mp hold).1⟩
  kept k lease _ hlease hlive _ :=
    Table.mem_renew_iff.mpr (Table.mem_purge_iff.mpr ⟨lease, hlease, hlive⟩)

/-- Renewing once more at the same time. -/
theorem thenRenew (h : Update duration now (some key) t t') :
    Update duration now (some key) t (t'.renew duration now key) where
  entry k lease hlease := by
    rcases Table.renewed_or_unchanged hlease with ⟨rfl, -, -, rfl⟩ | ⟨-, hold⟩
    · exact .inl ⟨rfl, rfl⟩
    · exact h.entry k lease hold
  kept k lease hkey hlease hlive hclock :=
    Table.mem_renew_iff.mpr (h.kept k lease hkey hlease hlive hclock)

/-- Purging once more at the same time. A lease of positive duration survives it. -/
theorem thenPurge (h : Update duration now key? t t') (hduration : 1 ≤ duration) :
    Update duration now key? t (t'.purge now) where
  entry k lease hlease := h.entry k lease (Table.getElem?_purge_eq_some_iff.mp hlease).1
  kept k lease hkey hlease hlive hclock := by
    obtain ⟨new, hnew⟩ := Table.mem_iff_exists.mp (h.kept k lease hkey hlease hlive hclock)
    refine Table.mem_purge_iff.mpr ⟨new, hnew, ?_⟩
    rcases h.entry k new hnew with ⟨-, hexpiry⟩ | ⟨hother, -⟩
    · rw [hexpiry, expiry]
      omega
    · exact absurd hkey hother

end Update

/-! ## Histories -/

section LastRenewal

variable {κ : Type} [DecidableEq κ]

/-- The time of the latest renewal of a key, in a history of times and renewed keys. -/
def lastRenewal (history : List (ℕ × Option κ)) (key : κ) : Option ℕ :=
  (history.filter fun request ↦ request.2 = some key).getLast?.map Prod.fst

theorem lastRenewal_append_self (history : List (ℕ × Option κ)) (now : ℕ) (key : κ) :
    lastRenewal (history ++ [(now, some key)]) key = some now := by
  rw [lastRenewal, List.filter_append]
  simp

theorem lastRenewal_append_of_ne (history : List (ℕ × Option κ)) (now : ℕ) {key? : Option κ}
    {key : κ} (h : key? ≠ some key) :
    lastRenewal (history ++ [(now, key?)]) key = lastRenewal history key := by
  rw [lastRenewal, List.filter_append, lastRenewal]
  simp [h]

end LastRenewal

section History

variable [DecidableEq κ] {duration now : ℕ} {key? : Option κ} {t t' : Table κ α}
  {history : List (ℕ × Option κ)}

/-- Every entry expires as its latest renewal says. -/
def Dated (duration : ℕ) (history : List (ℕ × Option κ)) (t : Table κ α) : Prop :=
  ∀ (k : κ) (lease : Lease α), t[k]? = some lease →
    ∃ time, lastRenewal history k = some time ∧ lease.expiresAt = expiry duration time

theorem dated_empty (duration : ℕ) : Dated duration [] (∅ : Table κ α) := by
  intro k lease hlease
  simp at hlease

theorem Dated.update (h : Dated duration history t) (hupdate : Update duration now key? t t') :
    Dated duration (history ++ [(now, key?)]) t' := by
  intro k lease hlease
  rcases hupdate.entry k lease hlease with ⟨rfl, hexpiry⟩ | ⟨hother, hold⟩
  · exact ⟨now, lastRenewal_append_self history now k, hexpiry⟩
  · rw [lastRenewal_append_of_ne history now hother]
    exact h k lease hold

/-- No entry that is in both tables expires earlier in the second. -/
def NotShortened (t t' : Table κ α) : Prop :=
  ∀ (k : κ) (lease lease' : Lease α), t[k]? = some lease → t'[k]? = some lease' →
    lease.expiresAt ≤ lease'.expiresAt

/-- A request shortens no lease exactly when it is not earlier than the latest renewal of the entry
it renews, or the clock has stopped. -/
theorem notShortened_iff (h : Dated duration history t)
    (hupdate : Update duration now key? t t') :
    NotShortened t t' ↔
      ∀ k, key? = some k → k ∈ t → ∀ time, lastRenewal history k = some time →
        time ≤ now ∨ 2 ^ 64 - 1 ≤ now + duration := by
  constructor
  · intro hlonger k hkey hk time htime
    by_contra hearlier
    rw [not_or, not_le, not_le] at hearlier
    obtain ⟨lease, hlease⟩ := Table.mem_iff_exists.mp hk
    obtain ⟨latest, hlatest, hexpiry⟩ := h k lease hlease
    obtain rfl := Option.some.inj (htime.symm.trans hlatest)
    -- the lease has not run out at `now`, so purging does not remove it before it is shortened
    have hshorter : expiry duration now < lease.expiresAt :=
      hexpiry ▸ expiry_lt_expiry_iff.mpr hearlier
    have hlive : now < lease.expiresAt := by
      rw [expiry] at hshorter
      omega
    obtain ⟨lease', hlease'⟩ :=
      Table.mem_iff_exists.mp (hupdate.kept k lease hkey hlease hlive hearlier.2)
    rcases hupdate.entry k lease' hlease' with ⟨-, hnew⟩ | ⟨hother, -⟩
    · have hle := hlonger k lease lease' hlease hlease'
      omega
    · exact hother hkey
  · intro hinOrder k lease lease' hlease hlease'
    rcases hupdate.entry k lease' hlease' with ⟨hkey, hnew⟩ | ⟨-, hold⟩
    · obtain ⟨time, htime, hexpiry⟩ := h k lease hlease
      have horder := hinOrder k hkey (Table.mem_iff_exists.mpr ⟨lease, hlease⟩) time htime
      rw [hexpiry, hnew, ← not_lt, expiry_lt_expiry_iff]
      omega
    · obtain rfl := Option.some.inj (hlease.symm.trans hold)
      exact le_rfl

end History

end Leasing
