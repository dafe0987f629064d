import Mathlib
import TripTorrent.Storage.Keyed

/-!
# The transfer table of a node

The part of a node's store that concerns downloads: one row for each, with a number that is never
used again, its status and its progress. Every function here is one access to the store, and so one
atomic step of the thread that makes it.

A transfer that is neither completed nor failed is called live; at most one live transfer for the
same content is meant to exist, which is checked when a row is inserted. The unsigned columns are
signed 64-bit integers in the table, and numbers that do not fit are refused.
-/

namespace TripTorrent

open Std (ExtTreeMap)
open Storage.Keyed

/-! ## Rows -/

inductive TransferStatus where
  | running
  | pausing
  | paused
  | interrupted
  | completed
  | failed
deriving DecidableEq

namespace TransferStatus

/-- The transfer is still to be finished. -/
def isLive : TransferStatus → Bool
  | .running | .pausing | .paused | .interrupted => true
  | .completed | .failed => false

/-- A worker is, or was, on the transfer. -/
def isActive : TransferStatus → Bool
  | .running | .pausing => true
  | .paused | .interrupted | .completed | .failed => false

end TransferStatus

structure ProviderContribution where
  providerId : String
  verifiedChunks : ℕ
  rejectedRequests : ℕ
deriving DecidableEq

structure TransferRecord where
  id : ℕ
  contentId : String
  status : TransferStatus
  bytesTotal : ℕ
  bytesTransferred : ℕ
  verifiedChunks : ℕ
  totalChunks : ℕ
  currentRateBps : ℕ
  providerCount : ℕ
  retryCount : ℕ
  rejectedChunks : ℕ
  providerContributions : List ProviderContribution
  resumedChunks : ℕ
  error : Option String
  shareOnComplete : Bool
deriving DecidableEq

/-- Verified progress reported by a transfer engine. -/
structure VerifiedProgress where
  bytesTotal : ℕ
  verifiedBytes : ℕ
  totalChunks : ℕ
  verifiedChunks : ℕ
  providerCount : ℕ
  retryCount : ℕ
  rejectedChunks : ℕ

/-- What a finished fetch reports. -/
structure PersistentFetchStats where
  resumedChunks : ℕ
  providerContributions : List ProviderContribution
  retryCount : ℕ
  rejectedChunks : ℕ
deriving DecidableEq

/-- `i64::try_from` succeeds. -/
def fitsColumn (n : ℕ) : Bool := n < 2 ^ 63

namespace TransferRecord

/-- A row as it is inserted; the columns not named have their defaults. -/
def new (id : ℕ) (contentId : String) (share : Bool) : TransferRecord where
  id
  contentId
  status := .running
  bytesTotal := 0
  bytesTransferred := 0
  verifiedChunks := 0
  totalChunks := 0
  currentRateBps := 0
  providerCount := 0
  retryCount := 0
  rejectedChunks := 0
  providerContributions := []
  resumedChunks := 0
  error := none
  shareOnComplete := share

/-- `status='interrupted' … WHERE status IN ('running','pausing')` -/
def interrupt (row : TransferRecord) : TransferRecord :=
  if row.status.isActive then { row with status := .interrupted, currentRateBps := 0 } else row

def progress (row : TransferRecord) (progress : VerifiedProgress) (rate : ℕ) : TransferRecord :=
  if row.status.isActive then
    { row with
      bytesTotal := progress.bytesTotal
      bytesTransferred := progress.verifiedBytes
      verifiedChunks := progress.verifiedChunks
      totalChunks := progress.totalChunks
      currentRateBps := rate
      providerCount := progress.providerCount
      retryCount := progress.retryCount
      rejectedChunks := progress.rejectedChunks }
  else row

def complete (row : TransferRecord) (length chunks : ℕ) (stats : PersistentFetchStats) :
    TransferRecord :=
  { row with
    status := .completed
    bytesTotal := length
    bytesTransferred := length
    verifiedChunks := chunks
    totalChunks := chunks
    currentRateBps := 0
    retryCount := stats.retryCount
    rejectedChunks := stats.rejectedChunks
    providerContributions := stats.providerContributions
    resumedChunks := stats.resumedChunks
    error := none }

def setStatus (row : TransferRecord) (status : TransferStatus) (error : Option String) :
    TransferRecord :=
  { row with status, error, currentRateBps := 0 }

/-- What `update_transfer` sets. -/
def update (row : TransferRecord) (status : TransferStatus)
    (bytesTotal bytesTransferred resumedChunks : ℕ) (error : Option String) : TransferRecord :=
  { row with status, bytesTotal, bytesTransferred, resumedChunks, error, currentRateBps := 0 }

variable {row : TransferRecord}

@[simp] theorem isLive_interrupt : row.interrupt.status.isLive ↔ row.status.isLive := by
  rw [interrupt]
  split_ifs with hactive
  · rcases row with ⟨_, _, status⟩
    rcases status <;> first | exact Iff.rfl | cases hactive
  · rfl

theorem interrupt_of_not_live (h : ¬row.status.isLive) : row.interrupt = row := by
  refine if_neg fun hactive ↦ h ?_
  rcases row with ⟨_, _, status⟩
  rcases status <;> first | rfl | cases hactive

@[simp] theorem status_progress {p : VerifiedProgress} {rate : ℕ} :
    (row.progress p rate).status = row.status := by
  rw [progress]
  split_ifs <;> rfl

theorem progress_of_not_live {p : VerifiedProgress} {rate : ℕ} (h : ¬row.status.isLive) :
    row.progress p rate = row := by
  refine if_neg fun hactive ↦ h ?_
  rcases row with ⟨_, _, status⟩
  rcases status <;> first | rfl | cases hactive

theorem paused_of_interrupt (h : row.interrupt.status = .paused) : row.status = .paused := by
  rw [interrupt] at h
  split_ifs at h
  exact h

end TransferRecord

/-! ## The table -/

structure Transfers where
  rows : ExtTreeMap ℕ TransferRecord
  /-- The largest number given out so far. -/
  lastId : ℕ

namespace Transfers

section Operations

variable (s : Transfers)

def empty : Transfers := ⟨∅, 0⟩

/-- The `UPDATE` of one row. -/
def alter (id : ℕ) (f : TransferRecord → TransferRecord) : Transfers :=
  { s with rows := s.rows.modify id f }

/-- A live transfer for the content exists. -/
def hasLive (contentId : String) : Bool :=
  s.rows.toList.any fun x ↦ x.2.contentId == contentId && x.2.status.isLive

/-- The count and the insertion are made under one lock; nothing is inserted if a resumable
transfer exists. -/
def createTransfer (contentId : String) (share : Bool) : Option (Transfers × ℕ) :=
  if s.hasLive contentId then none
  else
    let id := s.lastId + 1
    some ({ rows := s.rows.insert id (.new id contentId share), lastId := id }, id)

def updateTransfer (id : ℕ) (status : TransferStatus)
    (bytesTotal bytesTransferred resumedChunks : ℕ) (error : Option String) : Transfers :=
  s.alter id fun row ↦ row.update status bytesTotal bytesTransferred resumedChunks error

def updateProgress (id : ℕ) (progress : VerifiedProgress) (rate : ℕ) : Transfers :=
  if [progress.bytesTotal, progress.verifiedBytes, progress.verifiedChunks, progress.totalChunks,
      rate, progress.providerCount, progress.retryCount, progress.rejectedChunks].all fitsColumn
  then s.alter id fun row ↦ row.progress progress rate
  else s

def setTransferStatus (id : ℕ) (status : TransferStatus) (error : Option String) : Transfers :=
  s.alter id fun row ↦ row.setStatus status error

def completeTransfer (id length chunks : ℕ) (stats : PersistentFetchStats) : Transfers :=
  if [length, chunks, stats.retryCount, stats.rejectedChunks, stats.resumedChunks].all fitsColumn
  then s.alter id fun row ↦ row.complete length chunks stats
  else s

def getTransfer (id : ℕ) : Option TransferRecord := s.rows[id]?

def markRunningInterrupted : Transfers :=
  { s with rows := s.rows.map fun _ row ↦ row.interrupt }

/-- Transfers that were cut off are marked, and all that are marked are returned in order. -/
def recoverableTransfers : Transfers × List TransferRecord :=
  let s := s.markRunningInterrupted
  (s, (s.rows.toList.filter fun x ↦ x.2.status = .interrupted).map Prod.snd)

end Operations

/-! ## What the operations leave -/

variable {s t : Transfers} {id : ℕ} {row : TransferRecord} {contentId : String}

theorem getElem?_alter {f : TransferRecord → TransferRecord} {k : ℕ} :
    (s.alter id f).rows[k]? = if id = k then s.rows[k]?.map f else s.rows[k]? :=
  getElem?_modify

theorem getElem?_markRunningInterrupted {k : ℕ} :
    s.markRunningInterrupted.rows[k]? = s.rows[k]?.map TransferRecord.interrupt := by
  rw [markRunningInterrupted, ExtTreeMap.getElem?_map]

/-- A report of progress changes at most one row, and not its status. -/
theorem getElem?_updateProgress (id : ℕ) (progress : VerifiedProgress) (rate k : ℕ) :
    (s.updateProgress id progress rate).rows[k]? = s.rows[k]? ∨
      (s.updateProgress id progress rate).rows[k]? =
        s.rows[k]?.map fun row ↦ row.progress progress rate := by
  rw [updateProgress]
  split_ifs
  · rw [getElem?_alter]
    split_ifs
    · exact .inr rfl
    · exact .inl rfl
  · exact .inl rfl

theorem hasLive_iff : s.hasLive contentId ↔
    ∃ (id : ℕ) (row : TransferRecord), s.rows[id]? = some row ∧ row.contentId = contentId ∧
      row.status.isLive := by
  simp only [hasLive, List.any_eq_true, Prod.exists, ExtTreeMap.mem_toList_iff_getElem?_eq_some,
    Bool.and_eq_true, beq_iff_eq]

theorem createTransfer_eq_some_iff {share : Bool} :
    s.createTransfer contentId share = some (t, id) ↔
      ¬s.hasLive contentId ∧ id = s.lastId + 1 ∧
        t = { rows := s.rows.insert id (.new id contentId share), lastId := id } := by
  rw [createTransfer]
  split_ifs with hlive
  · simp [hlive]
  · constructor
    · intro h
      obtain ⟨rfl, rfl⟩ := Prod.mk.inj (Option.some.inj h)
      exact ⟨hlive, rfl, rfl⟩
    · rintro ⟨-, rfl, rfl⟩
      rfl

theorem completeTransfer_cases (id length chunks : ℕ) (stats : PersistentFetchStats) :
    s.completeTransfer id length chunks stats =
        s.alter id (fun row ↦ row.complete length chunks stats) ∨
      s.completeTransfer id length chunks stats = s := by
  rw [completeTransfer]
  split_ifs
  · exact .inl rfl
  · exact .inr rfl

/-- Rows are stored under their own number, and no number is ahead of the counter. -/
structure Numbered (s : Transfers) : Prop where
  id_eq : ∀ (id : ℕ) (row : TransferRecord), s.rows[id]? = some row → row.id = id
  le_lastId : ∀ (id : ℕ) (row : TransferRecord), s.rows[id]? = some row → id ≤ s.lastId

/-- No two live transfers are for the same content. -/
def OnePerContent (s : Transfers) : Prop :=
  ∀ (id id' : ℕ) (row row' : TransferRecord), s.rows[id]? = some row → s.rows[id']? = some row' →
    row.status.isLive → row'.status.isLive → row.contentId = row'.contentId → id = id'

theorem numbered_empty : Numbered empty where
  id_eq id row hrow := by rw [empty, ExtTreeMap.getElem?_empty] at hrow; cases hrow
  le_lastId id row hrow := by rw [empty, ExtTreeMap.getElem?_empty] at hrow; cases hrow

theorem onePerContent_empty : OnePerContent empty := by
  intro id _ row _ hrow
  rw [empty, ExtTreeMap.getElem?_empty] at hrow
  cases hrow

/-- The rows of the second table are those of the first, changed in their status and progress. -/
def Evolves (s t : Transfers) : Prop :=
  s.lastId = t.lastId ∧ ∀ (id : ℕ) (row : TransferRecord), t.rows[id]? = some row →
    ∃ old, s.rows[id]? = some old ∧ row.id = old.id ∧ row.contentId = old.contentId

theorem Numbered.evolve (h : s.Numbered) (ht : s.Evolves t) : t.Numbered where
  id_eq id row hrow := by
    obtain ⟨old, hold, hid, -⟩ := ht.2 id row hrow
    rw [hid, h.id_eq id old hold]
  le_lastId id row hrow := by
    obtain ⟨old, hold, -⟩ := ht.2 id row hrow
    rw [← ht.1]
    exact h.le_lastId id old hold

/-- As long as no transfer comes back to life, none can be in the way of another. -/
theorem OnePerContent.evolve (h : s.OnePerContent) (ht : s.Evolves t)
    (hlive : ∀ (id : ℕ) (old row : TransferRecord), s.rows[id]? = some old →
      t.rows[id]? = some row → row.status.isLive → old.status.isLive) : t.OnePerContent := by
  intro id id' row row' hrow hrow' hl hl' hcontent
  obtain ⟨old, hold, -, hc⟩ := ht.2 id row hrow
  obtain ⟨old', hold', -, hc'⟩ := ht.2 id' row' hrow'
  exact h id id' old old' hold hold' (hlive id old row hold hrow hl)
    (hlive id' old' row' hold' hrow' hl') (by rw [← hc, ← hc', hcontent])

theorem evolves_alter {f : TransferRecord → TransferRecord}
    (hf : ∀ row, (f row).id = row.id ∧ (f row).contentId = row.contentId) :
    s.Evolves (s.alter id f) := by
  refine ⟨rfl, fun k row hrow ↦ ?_⟩
  rw [getElem?_alter] at hrow
  split_ifs at hrow
  · obtain ⟨old, hold, rfl⟩ := Option.map_eq_some_iff.mp hrow
    exact ⟨old, hold, hf old⟩
  · exact ⟨row, hrow, rfl, rfl⟩

theorem evolves_markRunningInterrupted : s.Evolves s.markRunningInterrupted := by
  refine ⟨rfl, fun k row hrow ↦ ?_⟩
  rw [getElem?_markRunningInterrupted] at hrow
  obtain ⟨old, hold, rfl⟩ := Option.map_eq_some_iff.mp hrow
  refine ⟨old, hold, ?_⟩
  rw [TransferRecord.interrupt]
  split_ifs <;> exact ⟨rfl, rfl⟩

theorem evolves_updateProgress {progress : VerifiedProgress} {rate : ℕ} :
    s.Evolves (s.updateProgress id progress rate) := by
  rw [updateProgress]
  split_ifs
  · refine evolves_alter fun row ↦ ?_
    rw [TransferRecord.progress]
    split_ifs <;> exact ⟨rfl, rfl⟩
  · exact ⟨rfl, fun k row hrow ↦ ⟨row, hrow, rfl, rfl⟩⟩

theorem OnePerContent.markRunningInterrupted (h : s.OnePerContent) :
    s.markRunningInterrupted.OnePerContent := by
  refine h.evolve evolves_markRunningInterrupted fun id old row hold hrow hlive ↦ ?_
  rw [getElem?_markRunningInterrupted, hold] at hrow
  obtain rfl := Option.some.inj hrow
  exact TransferRecord.isLive_interrupt.mp hlive

theorem OnePerContent.updateProgress {progress : VerifiedProgress} {rate : ℕ}
    (h : s.OnePerContent) : (s.updateProgress id progress rate).OnePerContent := by
  refine h.evolve evolves_updateProgress fun k old row hold hrow hlive ↦ ?_
  rcases getElem?_updateProgress (s := s) id progress rate k with heq | heq
  · obtain rfl := Option.some.inj (hold.symm.trans (heq.symm.trans hrow))
    exact hlive
  · rw [heq, hold] at hrow
    obtain rfl := Option.some.inj hrow
    rwa [TransferRecord.status_progress] at hlive

theorem Numbered.createTransfer {share : Bool} (h : s.Numbered)
    (ht : s.createTransfer contentId share = some (t, id)) : t.Numbered := by
  obtain ⟨-, rfl, rfl⟩ := createTransfer_eq_some_iff.mp ht
  constructor
  · intro id row hrow
    rcases inserted_or_unchanged hrow with ⟨rfl, rfl⟩ | ⟨-, hrow⟩
    · rfl
    · exact h.id_eq id row hrow
  · intro id row hrow
    rcases inserted_or_unchanged hrow with ⟨rfl, rfl⟩ | ⟨-, hrow⟩
    · exact le_rfl
    · exact (h.le_lastId id row hrow).trans (Nat.le_succ _)

theorem OnePerContent.createTransfer {share : Bool} (h : s.OnePerContent)
    (ht : s.createTransfer contentId share = some (t, id)) : t.OnePerContent := by
  obtain ⟨hfree, rfl, rfl⟩ := createTransfer_eq_some_iff.mp ht
  -- the new row is the only live one for its content
  have hother {k : ℕ} {row : TransferRecord} (hrow : s.rows[k]? = some row)
      (hlive : row.status.isLive) : contentId ≠ row.contentId := fun heq ↦
    hfree (hasLive_iff.mpr ⟨k, row, hrow, heq.symm, hlive⟩)
  intro id id' row row' hrow hrow' hlive hlive' hcontent
  rcases inserted_or_unchanged hrow with ⟨rfl, rfl⟩ | ⟨-, hrow⟩ <;>
    rcases inserted_or_unchanged hrow' with ⟨rfl, rfl⟩ | ⟨-, hrow'⟩
  · rfl
  · exact absurd hcontent (hother hrow' hlive')
  · exact absurd hcontent.symm (hother hrow hlive)
  · exact h id id' row row' hrow hrow' hlive hlive' hcontent

/-- A number that has just been given out was not in use. -/
theorem Numbered.getElem?_createTransfer {share : Bool} (h : s.Numbered)
    (ht : s.createTransfer contentId share = some (t, id)) : s.rows[id]? = none := by
  obtain ⟨-, rfl, -⟩ := createTransfer_eq_some_iff.mp ht
  rcases hrow : s.rows[s.lastId + 1]? with _ | row
  · rfl
  · exact absurd (h.le_lastId _ row hrow) (Nat.not_succ_le_self _)

/-! ## Recovery -/

theorem mem_recoverableTransfers : row ∈ s.recoverableTransfers.2 ↔
    ∃ id : ℕ, s.markRunningInterrupted.rows[id]? = some row ∧ row.status = .interrupted := by
  simp only [recoverableTransfers, List.mem_map, List.mem_filter, Prod.exists,
    ExtTreeMap.mem_toList_iff_getElem?_eq_some, decide_eq_true_eq]
  constructor
  · rintro ⟨id, row', ⟨hrow, hstatus⟩, rfl⟩
    exact ⟨id, hrow, hstatus⟩
  · rintro ⟨id, hrow, hstatus⟩
    exact ⟨id, row, ⟨hrow, hstatus⟩, rfl⟩

/-- Each transfer is recovered once. -/
theorem Numbered.nodup_recoverableTransfers (h : s.Numbered) :
    (s.recoverableTransfers.2.map TransferRecord.id).Nodup := by
  have hmarked := h.evolve evolves_markRunningInterrupted
  have hkeys : (s.markRunningInterrupted.rows.toList.map Prod.fst).Nodup := by
    refine List.pairwise_map.mpr (ExtTreeMap.distinct_keys_toList.imp fun hne heq ↦ ?_)
    exact hne (Std.compare_eq_iff_eq.mpr heq)
  have hids : (s.recoverableTransfers.2.map TransferRecord.id) =
      (s.markRunningInterrupted.rows.toList.filter fun x ↦ x.2.status = .interrupted).map
        Prod.fst := by
    rw [recoverableTransfers, List.map_map]
    refine List.map_congr_left fun x hx ↦ ?_
    have hx := List.mem_of_mem_filter hx
    exact hmarked.id_eq x.1 x.2 (ExtTreeMap.mem_toList_iff_getElem?_eq_some.mp hx)
  rw [hids]
  exact hkeys.sublist (List.filter_sublist.map Prod.fst)

end Transfers

end TripTorrent
