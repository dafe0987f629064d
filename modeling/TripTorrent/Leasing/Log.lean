import TripTorrent.Leasing.Table

/-!
# Leases as a function of the log

What a table of leases is for: an entry is there as long as the term counted from its most recent
renewal runs. Said of the log of all that happened, this needs no table. A renewal is a grant, or an
attempt to renew that is made while the lease runs; a revoked entry is gone until it is granted
again.

A table refines the log if purging it at any later time leaves what the log says for that time.
Purging in between makes no difference to this, so it does not matter which operations purge.
-/

namespace Leasing

open Std (ExtTreeMap TransOrd LawfulEqOrd)

/-- What happens to the leases of a table. -/
inductive Entry (κ α : Type) where
  | grant (now : ℕ) (key : κ) (advertisement : α)
  /-- An attempt: without a running lease it does nothing. -/
  | renew (now : ℕ) (key : κ)
  | revoke (key : κ)

section Log

variable {κ α : Type} [DecidableEq κ]

/-- The key an entry is about. -/
def Entry.key : Entry κ α → κ
  | .grant _ key _ | .renew _ key | .revoke key => key

/-- What an entry makes of the most recent renewal of a key. -/
def Entry.record (duration : ℕ) (key : κ) (last : Option (ℕ × α)) : Entry κ α → Option (ℕ × α)
  | .grant now k advertisement => if k = key then some (now, advertisement) else last
  | .renew now k =>
    if k = key then
      last.map fun (time, advertisement) ↦
        if now < expiry duration time then (now, advertisement) else (time, advertisement)
    else last
  | .revoke k => if k = key then none else last

/-- The time of the most recent successful renewal of a key, with the advertisement granted last. -/
def latest (duration : ℕ) (log : List (Entry κ α)) (key : κ) : Option (ℕ × α) :=
  log.foldl (Entry.record duration key) none

/-- The lease of a key at a time. -/
def leaseAt (duration : ℕ) (log : List (Entry κ α)) (key : κ) (now : ℕ) : Option (Lease α) :=
  ((latest duration log key).map fun (time, advertisement) ↦
    { advertisement, expiresAt := expiry duration time }).filter fun lease ↦ now < lease.expiresAt

variable {duration now : ℕ} {log : List (Entry κ α)} {key k : κ} {advertisement : α}

theorem latest_concat (entry : Entry κ α) :
    latest duration (log ++ [entry]) k = entry.record duration k (latest duration log k) := by
  rw [latest, List.foldl_append, List.foldl_cons, List.foldl_nil, latest]

/-- An entry for another key makes no difference. -/
theorem latest_concat_of_ne {entry : Entry κ α} (h : entry.key ≠ k) :
    latest duration (log ++ [entry]) k = latest duration log k := by
  rw [latest_concat]
  cases entry with
  | grant now key advertisement => exact if_neg h
  | renew now key => exact if_neg h
  | revoke key => exact if_neg h

theorem latest_grant (now : ℕ) (key : κ) (advertisement : α) :
    latest duration (log ++ [Entry.grant now key advertisement]) key =
      some (now, advertisement) := by
  rw [latest_concat, Entry.record, if_pos rfl]

/-- A renewal succeeds while the lease runs. -/
theorem latest_renew {time : ℕ} (h : latest duration log key = some (time, advertisement)) :
    latest duration (log ++ [Entry.renew now key]) key = some
      (if now < expiry duration time then (now, advertisement) else (time, advertisement)) := by
  rw [latest_concat, Entry.record, if_pos rfl, h, Option.map_some]

theorem latest_revoke (key : κ) : latest duration (log ++ [Entry.revoke key]) key = none := by
  rw [latest_concat, Entry.record, if_pos rfl]

/-- The lease is the one of the most recent renewal, if its term has not run out. -/
theorem leaseAt_eq_some_iff {lease : Lease α} : leaseAt duration log k now = some lease ↔
    ∃ time, latest duration log k = some (time, lease.advertisement) ∧
      lease.expiresAt = expiry duration time ∧ now < expiry duration time := by
  rw [leaseAt, Option.filter_eq_some_iff, Option.map_eq_some_iff, decide_eq_true_eq]
  constructor
  · rintro ⟨⟨⟨time, advertisement⟩, hlatest, rfl⟩, hlive⟩
    exact ⟨time, hlatest, rfl, hlive⟩
  · obtain ⟨advertisement, expiresAt⟩ := lease
    rintro ⟨time, hlatest, rfl, hlive⟩
    exact ⟨⟨_, hlatest, rfl⟩, hlive⟩

theorem leaseAt_congr {log' : List (Entry κ α)}
    (h : latest duration log' k = latest duration log k) :
    leaseAt duration log' k now = leaseAt duration log k now := by
  rw [leaseAt, leaseAt, h]

theorem leaseAt_of_latest {time : ℕ} (h : latest duration log k = some (time, advertisement)) :
    leaseAt duration log k now =
      (some { advertisement, expiresAt := expiry duration time : Lease α }).filter
        fun lease ↦ now < lease.expiresAt := by
  rw [leaseAt, h, Option.map_some]

end Log

/-! ## Operations on a table -/

section Steps

variable {κ α : Type} [Ord κ] [TransOrd κ]

/-- What one operation can make of a table, with what it adds to the log. -/
inductive Step (duration now : ℕ) (t : Table κ α) : List (Entry κ α) → Table κ α → Prop
  | keep : Step duration now t [] t
  | purge : Step duration now t [] (t.purge now)
  | grant (key : κ) (advertisement : α) :
    Step duration now t [.grant now key advertisement]
      ((t.purge now).grant duration now key advertisement)
  | renew {key : κ} (h : key ∈ t.purge now) :
    Step duration now t [.renew now key] ((t.purge now).renew duration now key)
  | miss {key : κ} (h : key ∉ t.purge now) : Step duration now t [.renew now key] (t.purge now)
  | revoke (key : κ) : Step duration now t [.revoke key] (t.erase key)

variable [LawfulEqOrd κ]

/-- An advertisement in the table was there before or has just been granted. -/
theorem Step.advertisement_cases {duration now : ℕ} {t t' : Table κ α} {entries : List (Entry κ α)}
    {k : κ} {lease : Lease α} (h : Step duration now t entries t') (hlease : t'[k]? = some lease) :
    (∃ old, t[k]? = some old ∧ old.advertisement = lease.advertisement) ∨
      .grant now k lease.advertisement ∈ entries := by
  have hpurge {old : Lease α} (hold : (t.purge now)[k]? = some old) : t[k]? = some old :=
    (Table.getElem?_purge_eq_some_iff.mp hold).1
  cases h with
  | keep => exact .inl ⟨lease, hlease, rfl⟩
  | purge => exact .inl ⟨lease, hpurge hlease, rfl⟩
  | grant key advertisement =>
    rcases Table.granted_or_unchanged hlease with ⟨rfl, rfl⟩ | ⟨-, hold⟩
    · exact .inr List.mem_cons_self
    · exact .inl ⟨lease, hpurge hold, rfl⟩
  | renew hkey =>
    rcases Table.renewed_or_unchanged hlease with ⟨-, old, hold, rfl⟩ | ⟨-, hold⟩
    · exact .inl ⟨old, hpurge hold, rfl⟩
    · exact .inl ⟨lease, hpurge hold, rfl⟩
  | miss hkey => exact .inl ⟨lease, hpurge hlease, rfl⟩
  | revoke key =>
    rw [ExtTreeMap.getElem?_erase] at hlease
    split_ifs at hlease
    exact .inl ⟨lease, hlease, rfl⟩

end Steps

/-! ## Tables that refine a log -/

section Refines

variable {κ α : Type} [Ord κ] [TransOrd κ] [DecidableEq κ] {duration now later : ℕ}
  {log : List (Entry κ α)} {t : Table κ α} {key : κ}

/-- From `now` on, what purging leaves of the table is what the log says. -/
def Refines (duration now : ℕ) (log : List (Entry κ α)) (t : Table κ α) : Prop :=
  ∀ later, now ≤ later → ∀ k, (t.purge later)[k]? = leaseAt duration log k later

theorem Refines.mono (h : Refines duration now log t) (hle : now ≤ later) :
    Refines duration later log t :=
  fun time htime ↦ h time (hle.trans htime)

variable [LawfulEqOrd κ]

theorem refines_empty (duration now : ℕ) : Refines duration now [] (∅ : Table κ α) := by
  intro later _ k
  rw [Table.getElem?_purge, ExtTreeMap.getElem?_empty]
  rfl

namespace Refines

theorem purge (h : Refines duration now log t) (hle : now ≤ later) :
    Refines duration later log (t.purge later) := by
  intro time htime k
  rw [Table.purge_purge htime]
  exact h time (hle.trans htime) k

theorem grant (h : Refines duration now log t) (hle : now ≤ later) (key : κ) (advertisement : α) :
    Refines duration later (log ++ [Entry.grant later key advertisement])
      ((t.purge later).grant duration later key advertisement) := by
  intro time htime k
  rw [Table.getElem?_purge]
  by_cases hself : key = k
  · subst hself
    rw [Table.getElem?_grant_self, leaseAt_of_latest (latest_grant ..)]
  · rw [Table.getElem?_grant_of_ne hself, ← Table.getElem?_purge, Table.purge_purge htime,
      leaseAt_congr (latest_concat_of_ne (by exact hself))]
    exact h time (hle.trans htime) k

/-- Renewing an entry that is there. -/
theorem renew_of_mem (h : Refines duration now log t) (hle : now ≤ later)
    (hkey : key ∈ t.purge later) :
    Refines duration later (log ++ [Entry.renew later key])
      ((t.purge later).renew duration later key) := by
  intro time htime k
  rw [Table.getElem?_purge]
  by_cases hself : key = k
  · subst hself
    obtain ⟨lease, hlease⟩ := Table.mem_iff_exists.mp hkey
    obtain ⟨last, hlatest, -, hlive⟩ := leaseAt_eq_some_iff.mp (h later hle key ▸ hlease)
    have hrenewed : latest duration (log ++ [Entry.renew later key]) key =
        some (later, lease.advertisement) := by
      rw [latest_renew hlatest, if_pos hlive]
    rw [Table.getElem?_renew_self, hlease, Option.map_some, leaseAt_of_latest hrenewed]
  · rw [Table.getElem?_renew_of_ne hself, ← Table.getElem?_purge, Table.purge_purge htime,
      leaseAt_congr (latest_concat_of_ne (by exact hself))]
    exact h time (hle.trans htime) k

/-- An attempt to renew an entry whose lease has run out. -/
theorem renew_of_not_mem (h : Refines duration now log t) (hle : now ≤ later)
    (hkey : key ∉ t.purge later) :
    Refines duration later (log ++ [Entry.renew later key]) (t.purge later) := by
  intro time htime k
  rw [h.purge hle time htime k]
  refine (leaseAt_congr ?_).symm
  by_cases hself : key = k
  · subst hself
    rcases hlatest : latest duration log key with _ | ⟨last, advertisement⟩
    · rw [latest_concat, hlatest, Entry.record, if_pos rfl, Option.map_none]
    · have hexpired : ¬later < expiry duration last := by
        intro hlive
        have hlease : leaseAt duration log key later =
            some { advertisement, expiresAt := expiry duration last } :=
          leaseAt_eq_some_iff.mpr ⟨last, hlatest, rfl, hlive⟩
        rw [← h later hle key] at hlease
        exact hkey (Table.mem_iff_exists.mpr ⟨_, hlease⟩)
      rw [latest_renew hlatest, if_neg hexpired]
  · exact latest_concat_of_ne hself

theorem revoke (h : Refines duration now log t) (key : κ) :
    Refines duration now (log ++ [Entry.revoke key]) (t.erase key) := by
  intro time htime k
  rw [Table.getElem?_purge, ExtTreeMap.getElem?_erase]
  by_cases hself : key = k
  · subst hself
    rw [if_pos Std.compare_self, leaseAt, latest_revoke]
    rfl
  · rw [if_neg (mt Std.compare_eq_iff_eq.mp hself), ← Table.getElem?_purge,
      leaseAt_congr (latest_concat_of_ne (by exact hself))]
    exact h time htime k

end Refines

theorem Refines.step {entries : List (Entry κ α)} {t' : Table κ α}
    (h : Refines duration now log t) (hle : now ≤ later)
    (hstep : Step duration later t entries t') : Refines duration later (log ++ entries) t' := by
  cases hstep with
  | keep => exact (List.append_nil log).symm ▸ h.mono hle
  | purge => exact (List.append_nil log).symm ▸ h.purge hle
  | grant key advertisement => exact h.grant hle key advertisement
  | renew hkey => exact h.renew_of_mem hle hkey
  | miss hkey => exact h.renew_of_not_mem hle hkey
  | revoke key => exact (h.mono hle).revoke key

end Refines

/-! ## Tables without expired entries -/

section Purged

variable {κ α : Type} [Ord κ] [TransOrd κ] {duration now : ℕ} {t : Table κ α}

/-- Purging at `now` would remove nothing. -/
def Purged (now : ℕ) (t : Table κ α) : Prop :=
  ∀ (k : κ) (lease : Lease α), t[k]? = some lease → now < lease.expiresAt

namespace Purged

variable [LawfulEqOrd κ]

theorem purge_eq (h : Purged now t) : t.purge now = t := by
  refine ExtTreeMap.ext_getElem? fun k ↦ Option.ext fun lease ↦ ?_
  rw [Table.getElem?_purge_eq_some_iff]
  exact ⟨fun hlease ↦ hlease.1, fun hlease ↦ ⟨hlease, h k lease hlease⟩⟩

theorem of_purge (now : ℕ) (t : Table κ α) : Purged now (t.purge now) :=
  fun _ _ hlease ↦ (Table.getElem?_purge_eq_some_iff.mp hlease).2

/-- A lease of positive duration runs, unless the clock has stopped. -/
theorem grant (h : Purged now t) (hclock : now < expiry duration now) (key : κ)
    (advertisement : α) : Purged now (t.grant duration now key advertisement) := by
  intro k lease hlease
  rcases Table.granted_or_unchanged hlease with ⟨-, rfl⟩ | ⟨-, hold⟩
  · exact hclock
  · exact h k lease hold

theorem renew (h : Purged now t) (hclock : now < expiry duration now) (key : κ) :
    Purged now (t.renew duration now key) := by
  intro k lease hlease
  rcases Table.renewed_or_unchanged hlease with ⟨-, -, -, rfl⟩ | ⟨-, hold⟩
  · exact hclock
  · exact h k lease hold

end Purged

end Purged

end Leasing
