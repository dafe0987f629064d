import TripTorrent.Node.Effects

/-!
# What holds in every run

The condition that no transfer is resumed twice at the same time is needed for the owner of a
transfer to be unique. Some facts need no condition at all: they hold however the threads interleave
and whatever fails.

A request that has created a transfer is the only thread with a claim to it until its control has
been entered: nobody can pause the transfer, since nothing is entered, and nobody can resume it,
since its row does not say paused. And the recovery runs alone, as requests are served only after
it.
-/

namespace TripTorrent

open Std (ExtTreeMap)
open Storage.Keyed
open Transition
open scoped List

namespace Thread

variable {θ : Thread} {id : ℕ}

theorem mem_claims_of_starting (h : θ.starting = some id) : id ∈ θ.claims := by
  rcases θ with task | result | worker | _
  · rcases task with _ | _ | _ | id | ⟨caller, transfer⟩ | ⟨caller, transfer, contentId⟩ |
      ⟨caller, transfer, contentId⟩ | _ | _ | _ | _ | _ | _ | _ | _
    · cases h
    · cases h
    · cases h
    · cases h
      exact List.mem_cons_self
    · rcases caller <;> cases h
      exact List.mem_cons_self
    · rcases caller <;> cases h
      exact List.mem_cons_self
    · rcases caller <;> cases h
      exact List.mem_cons_self
    all_goals cases h
  · cases h
  · cases h
  · cases h

theorem isRequest_of_isRecovery (h : θ.isRecovery) : θ.isRequest := by
  rcases θ with task | result | worker | _
  · rfl
  · cases h
  · cases h
  · cases h

/-- A request that has just been received has no claims and is not the recovery. -/
theorem first {task : Task} (h : task.isFirst) : (Thread.request task).claims = [] ∧
    (Thread.request task).unasked = [] ∧ (Thread.request task).isRecovery = false := by
  rcases task <;> first | exact ⟨rfl, rfl, rfl⟩ | cases h

end Thread

namespace NodeRuntime

structure Orderly (s : NodeRuntime) : Prop where
  numbered : s.transfers.Numbered
  claimed : ∀ θ ∈ s.threads, ∀ id ∈ θ.claims, id ≤ s.transfers.lastId
  entered : ∀ id control, s.downloads[id]? = some control → id ≤ s.transfers.lastId
  /-- A transfer that is being started is claimed by nobody else. -/
  sole : ∀ (i j : ℕ) (θ θ' : Thread) (id : ℕ), s.threads[i]? = some θ → s.threads[j]? = some θ' →
    θ.starting = some id → id ∈ θ'.claims → i = j
  apart : ∀ θ ∈ s.threads, ∀ id, θ.starting = some id → s.downloads[id]? = none
  unpaused : ∀ θ ∈ s.threads, ∀ id, θ.starting = some id →
    ∀ row, s.transfers.rows[id]? = some row → row.status ≠ .paused
  /-- While the recovery is under way there is no other request. -/
  alone : ∀ (i j : ℕ) (θ θ' : Thread), s.threads[i]? = some θ → s.threads[j]? = some θ' →
    θ.isRecovery → θ'.isRequest → i = j
  waiting : ∀ θ ∈ s.threads, θ.isRecovery → s.serving = false

/-- What a step of a thread leaves alone, unless it has a claim to it. -/
structure Keeps (s t : NodeRuntime) (θ θ' : Thread) (new : Option Thread) : Prop where
  numbered : t.transfers.Numbered
  lastId_le : s.transfers.lastId ≤ t.transfers.lastId
  claims : ∀ k, (k ∈ θ'.claims ∨ ∃ c, new = some c ∧ k ∈ c.claims) → k ∈ θ.claims ∨
    k ≤ t.transfers.lastId ∧ ∀ c ∈ s.threads, c.starting ≠ some k
  starting : ∀ k, θ'.starting = some k → θ.starting = some k ∨ s.transfers.lastId < k
  started : ∀ c, new = some c → θ'.starting = none ∧ c.starting = none ∧ c.isRequest = false
  entered : ∀ k control, t.downloads[k]? = some control →
    (∃ old, s.downloads[k]? = some old) ∨ k ∈ θ.claims ∧ θ'.starting ≠ some k
  paused : ∀ (k : ℕ) (row : TransferRecord), t.transfers.rows[k]? = some row →
    row.status = .paused → (∃ old, s.transfers.rows[k]? = some old ∧ old.status = .paused) ∨
      k ∈ θ.claims ∧ θ'.starting ≠ some k
  isRecovery : θ'.isRecovery → θ.isRecovery
  isRequest : θ'.isRequest → θ.isRequest
  serving : t.serving = s.serving ∨ θ.isRequest ∧ θ'.isRecovery = false

variable {s t : NodeRuntime} {i : ℕ} {θ θ' : Thread} {new : Option Thread}

namespace Orderly

theorem mem_claims_le (h : s.Orderly) {j : ℕ} (hj : s.threads[j]? = some θ) {k : ℕ}
    (hk : k ∈ θ.claims) : k ≤ s.transfers.lastId :=
  h.claimed θ (List.mem_iff_getElem?.mpr ⟨j, hj⟩) k hk

theorem sole_advance (h : s.Orderly) (hi : s.threads[i]? = some θ) (hkeeps : Keeps s t θ θ' new)
    {j j' : ℕ} {c c' : Thread} {k : ℕ} (hj : (s.threads.set i θ' ++ new.toList)[j]? = some c)
    (hj' : (s.threads.set i θ' ++ new.toList)[j']? = some c') (hc : c.starting = some k)
    (hc' : k ∈ c'.claims) : j = j' := by
  -- another thread cannot get hold of what is being started
  have hother {j : ℕ} {c : Thread} (hj : s.threads[j]? = some c) (hc : c.starting = some k)
      (hk : k ∈ θ'.claims ∨ ∃ c, new = some c ∧ k ∈ c.claims) : j = i := by
    rcases hkeeps.claims k hk with hk | ⟨-, hfree⟩
    · exact h.sole j i c θ k hj hi hc hk
    · exact absurd hc (hfree c (List.mem_iff_getElem?.mpr ⟨j, hj⟩))
  rcases thread_cases hj with ⟨rfl, rfl⟩ | ⟨hne, hold⟩ | ⟨-, hnew⟩
  · rcases thread_cases hj' with ⟨rfl, -⟩ | ⟨-, hold'⟩ | ⟨-, hnew'⟩
    · rfl
    · rcases hkeeps.starting k hc with hstarting | hfresh
      · exact h.sole i j' θ c' k hi hold' hstarting hc'
      · exact absurd (h.mem_claims_le hold' hc') (not_le.mpr hfresh)
    · cases (hkeeps.started c' hnew').1.symm.trans hc
  · rcases thread_cases hj' with ⟨rfl, rfl⟩ | ⟨-, hold'⟩ | ⟨-, hnew'⟩
    · exact hother hold hc (.inl hc')
    · exact h.sole j j' c c' k hold hold' hc hc'
    · exact absurd (hother hold hc (.inr ⟨c', hnew', hc'⟩)) (Ne.symm hne)
  · cases (hkeeps.started c hnew).2.1.symm.trans hc

/-- What is being started after the step was being started by the same thread, or is new. -/
theorem starting_cases (hkeeps : Keeps s t θ θ' new) {c : Thread} {k : ℕ}
    (hc : c ∈ s.threads.set i θ' ++ new.toList) (hk : c.starting = some k) :
    c = θ' ∧ (θ.starting = some k ∨ s.transfers.lastId < k) ∨
      ∃ j, i ≠ j ∧ s.threads[j]? = some c := by
  obtain ⟨j, hj⟩ := List.mem_iff_getElem?.mp hc
  rcases thread_cases hj with ⟨-, rfl⟩ | ⟨hne, hold⟩ | ⟨-, hnew⟩
  · exact .inl ⟨rfl, hkeeps.starting k hk⟩
  · exact .inr ⟨j, hne, hold⟩
  · cases (hkeeps.started c hnew).2.1.symm.trans hk

theorem advance (h : s.Orderly) (hi : s.threads[i]? = some θ) (hkeeps : Keeps s t θ θ' new)
    (hthreads : t.threads = s.threads.set i θ' ++ new.toList) : t.Orderly where
  numbered := hkeeps.numbered
  claimed c hc k hk := by
    rw [hthreads] at hc
    have hmine (hk : k ∈ θ'.claims ∨ ∃ c, new = some c ∧ k ∈ c.claims) :
        k ≤ t.transfers.lastId := by
      rcases hkeeps.claims k hk with hk | ⟨hle, -⟩
      · exact (h.mem_claims_le hi hk).trans hkeeps.lastId_le
      · exact hle
    rcases mem_threads_cases hc with rfl | hc | hc
    · exact hmine (.inl hk)
    · exact (h.claimed c hc k hk).trans hkeeps.lastId_le
    · exact hmine (.inr ⟨c, hc, hk⟩)
  entered k control hk := by
    rcases hkeeps.entered k control hk with ⟨old, hold⟩ | ⟨hk, -⟩
    · exact (h.entered k old hold).trans hkeeps.lastId_le
    · exact (h.mem_claims_le hi hk).trans hkeeps.lastId_le
  sole j j' c c' k hj hj' hc hc' := by
    rw [hthreads] at hj hj'
    exact h.sole_advance hi hkeeps hj hj' hc hc'
  apart c hc k hk := by
    rw [hthreads] at hc
    refine Option.eq_none_iff_forall_ne_some.mpr fun control hcontrol ↦ ?_
    have hentered := hkeeps.entered k control hcontrol
    rcases starting_cases hkeeps hc hk with ⟨rfl, hmine⟩ | ⟨j, hne, hj⟩
    · rcases hentered with ⟨old, hold⟩ | ⟨-, hnot⟩
      · rcases hmine with hstarting | hfresh
        · cases (h.apart θ (List.mem_iff_getElem?.mpr ⟨i, hi⟩) k hstarting).symm.trans hold
        · exact absurd (h.entered k old hold) (not_le.mpr hfresh)
      · exact hnot hk
    · rcases hentered with ⟨old, hold⟩ | ⟨hclaimed, -⟩
      · cases (h.apart c (List.mem_iff_getElem?.mpr ⟨j, hj⟩) k hk).symm.trans hold
      · exact hne (h.sole j i c θ k hj hi hk hclaimed).symm
  unpaused c hc k hk row hrow hpaused := by
    rw [hthreads] at hc
    have hrows := hkeeps.paused k row hrow hpaused
    rcases starting_cases hkeeps hc hk with ⟨rfl, hmine⟩ | ⟨j, hne, hj⟩
    · rcases hrows with ⟨old, hold, hstatus⟩ | ⟨-, hnot⟩
      · rcases hmine with hstarting | hfresh
        · exact h.unpaused θ (List.mem_iff_getElem?.mpr ⟨i, hi⟩) k hstarting old hold hstatus
        · exact absurd (h.numbered.le_lastId k old hold) (not_le.mpr hfresh)
      · exact hnot hk
    · rcases hrows with ⟨old, hold, hstatus⟩ | ⟨hclaimed, -⟩
      · exact h.unpaused c (List.mem_iff_getElem?.mpr ⟨j, hj⟩) k hk old hold hstatus
      · exact hne (h.sole j i c θ k hj hi hk hclaimed).symm
  alone j j' c c' hj hj' hc hc' := by
    rw [hthreads] at hj hj'
    have hnew {c : Thread} (hnew : new = some c) (hc : c.isRequest) : False := by
      cases (hkeeps.started c hnew).2.2.symm.trans hc
    rcases thread_cases hj with ⟨rfl, rfl⟩ | ⟨-, hold⟩ | ⟨-, hstarted⟩
    · rcases thread_cases hj' with ⟨rfl, -⟩ | ⟨-, hold'⟩ | ⟨-, hstarted'⟩
      · rfl
      · exact h.alone i j' θ c' hi hold' (hkeeps.isRecovery hc) hc'
      · exact (hnew hstarted' hc').elim
    · rcases thread_cases hj' with ⟨rfl, rfl⟩ | ⟨-, hold'⟩ | ⟨-, hstarted'⟩
      · exact h.alone j i c θ hold hi hc (hkeeps.isRequest hc')
      · exact h.alone j j' c c' hold hold' hc hc'
      · exact (hnew hstarted' hc').elim
    · exact (hnew hstarted (Thread.isRequest_of_isRecovery hc)).elim
  waiting c hc hrecovery := by
    rw [hthreads] at hc
    obtain ⟨j, hj⟩ := List.mem_iff_getElem?.mp hc
    rcases thread_cases hj with ⟨-, rfl⟩ | ⟨hne, hold⟩ | ⟨-, hnew⟩
    · rcases hkeeps.serving with hserving | ⟨-, hnot⟩
      · rw [hserving]
        exact h.waiting θ (List.mem_iff_getElem?.mpr ⟨i, hi⟩) (hkeeps.isRecovery hrecovery)
      · cases hnot.symm.trans hrecovery
    · rcases hkeeps.serving with hserving | ⟨hrequest, -⟩
      · rw [hserving]
        exact h.waiting c (List.mem_iff_getElem?.mpr ⟨j, hold⟩) hrecovery
      · exact absurd (h.alone j i c θ hold hi hrecovery hrequest) (Ne.symm hne)
    · cases (hkeeps.started c hnew).2.2.symm.trans (Thread.isRequest_of_isRecovery hrecovery)

/-! ## The effects -/

/-- A step that leaves the table alone and enters nothing. -/
theorem keeps_of_unchanged (h : s.Orderly) (htransfers : t.transfers = s.transfers)
    (hdownloads : t.downloads = s.downloads)
    (hclaims : ∀ k, (k ∈ θ'.claims ∨ ∃ c, new = some c ∧ k ∈ c.claims) → k ∈ θ.claims ∨
      k ≤ s.transfers.lastId ∧ ∀ c ∈ s.threads, c.starting ≠ some k)
    (hstarting : ∀ k, θ'.starting = some k → θ.starting = some k)
    (hstarted : ∀ c, new = some c → θ'.starting = none ∧ c.starting = none ∧ c.isRequest = false)
    (hrecovery : θ'.isRecovery → θ.isRecovery) (hrequest : θ'.isRequest → θ.isRequest)
    (hserving : t.serving = s.serving ∨ θ.isRequest ∧ θ'.isRecovery = false) :
    Keeps s t θ θ' new where
  numbered := htransfers ▸ h.numbered
  lastId_le := htransfers ▸ le_rfl
  claims := by rwa [htransfers]
  starting k hk := .inl (hstarting k hk)
  started := hstarted
  entered k control hk := by
    rw [hdownloads] at hk
    exact .inl ⟨control, hk⟩
  paused k row hrow hstatus := by
    rw [htransfers] at hrow
    exact .inl ⟨row, hrow, hstatus⟩
  isRecovery := hrecovery
  isRequest := hrequest
  serving := hserving

theorem keeps_created (h : s.Orderly) {contentId : ContentId} {share : Bool} {id : ℕ}
    (hcreate : s.transfers.createTransfer contentId.toString share = some (t.transfers, id))
    (hdownloads : t.downloads = s.downloads) (hserving : t.serving = s.serving) :
    Keeps s t (.request (.createTransfer contentId share)) (.request (.getTransfer id)) none := by
  obtain ⟨-, rfl, htransfers⟩ := Transfers.createTransfer_eq_some_iff.mp hcreate
  have hlast : t.transfers.lastId = s.transfers.lastId + 1 := by rw [htransfers]
  refine ⟨h.numbered.createTransfer hcreate, ?_, ?_, ?_, fun c hc ↦ ?_, ?_, ?_, nofun,
    fun _ ↦ rfl, .inl hserving⟩
  · rw [hlast]
    exact Nat.le_succ _
  · rintro k (hk | ⟨c, hc, -⟩)
    · obtain rfl := List.mem_singleton.mp hk
      refine .inr ⟨hlast.ge, fun c hc hstarting ↦ ?_⟩
      exact Nat.not_succ_le_self _ (h.claimed c hc _ (Thread.mem_claims_of_starting hstarting))
    · cases hc
  · intro k hk
    obtain rfl := Option.some.inj hk
    exact .inr (Nat.lt_succ_self _)
  · cases hc
  · intro k control hk
    rw [hdownloads] at hk
    exact .inl ⟨control, hk⟩
  · intro k row hrow hstatus
    rw [htransfers] at hrow
    rcases inserted_or_unchanged hrow with ⟨-, rfl⟩ | ⟨-, hrow⟩
    · cases hstatus
    · exact .inl ⟨row, hrow, hstatus⟩

/-- A control is entered by a thread with a claim. -/
theorem keeps_entered (h : s.Orderly) {download : Download} {control : ℕ}
    (htransfers : t.transfers = s.transfers)
    (hdownloads : t.downloads = s.downloads.insert download.transfer.id control)
    (hserving : t.serving = s.serving) (hclaims : θ'.claims ⊆ (Task.insertControl download).claims)
    (hstarting : θ'.starting = none)
    (hrecovery : θ'.isRecovery → (Task.insertControl download).isRecovery) :
    Keeps s t (.request (.insertControl download)) θ' none where
  numbered := htransfers ▸ h.numbered
  lastId_le := htransfers ▸ le_rfl
  claims := by
    rintro k (hk | ⟨c, hc, -⟩)
    · exact .inl (hclaims hk)
    · cases hc
  starting k hk := by cases hstarting.symm.trans hk
  started c hc := by cases hc
  entered k control' hk := by
    rw [hdownloads] at hk
    rcases inserted_or_unchanged hk with ⟨rfl, -⟩ | ⟨-, hk⟩
    · exact .inr ⟨List.mem_cons_self, by rw [hstarting]; nofun⟩
    · exact .inl ⟨control', hk⟩
  paused k row hrow hstatus := by
    rw [htransfers] at hrow
    exact .inl ⟨row, hrow, hstatus⟩
  isRecovery := hrecovery
  isRequest _ := rfl
  serving := .inl hserving

/-- A row is written that the thread has a claim to, or not to say paused. -/
theorem keeps_altered (h : s.Orderly) {id : ℕ} {f : TransferRecord → TransferRecord}
    (hf : ∀ row, (f row).id = row.id ∧ (f row).contentId = row.contentId)
    (htransfers : t.transfers = s.transfers.alter id f) (hdownloads : t.downloads = s.downloads)
    (hserving : t.serving = s.serving) (hclaims : θ'.claims ⊆ θ.claims)
    (hstarting : ∀ k, θ'.starting = some k → θ.starting = some k)
    (hpaused : (∀ row, (f row).status ≠ .paused) ∨ id ∈ θ.claims ∧ θ'.starting ≠ some id)
    (hrecovery : θ'.isRecovery → θ.isRecovery) (hrequest : θ'.isRequest → θ.isRequest) :
    Keeps s t θ θ' none where
  numbered := by
    rw [htransfers]
    exact h.numbered.evolve (Transfers.evolves_alter hf)
  lastId_le := by rw [htransfers]; exact le_rfl
  claims := by
    rintro k (hk | ⟨c, hc, -⟩)
    · exact .inl (hclaims hk)
    · cases hc
  starting k hk := .inl (hstarting k hk)
  started c hc := by cases hc
  entered k control hk := by
    rw [hdownloads] at hk
    exact .inl ⟨control, hk⟩
  paused k row hrow hstatus := by
    rw [htransfers, Transfers.getElem?_alter] at hrow
    split_ifs at hrow with hk
    · subst hk
      obtain ⟨old, hold, rfl⟩ := Option.map_eq_some_iff.mp hrow
      rcases hpaused with hnever | hmine
      · exact absurd hstatus (hnever old)
      · exact .inr hmine
    · exact .inl ⟨row, hrow, hstatus⟩
  isRecovery := hrecovery
  isRequest := hrequest
  serving := .inl hserving

theorem keeps_marked (h : s.Orderly) {reply : NodeReply}
    (htransfers : t.transfers = s.transfers.markRunningInterrupted)
    (hdownloads : t.downloads = s.downloads) (hserving : t.serving = s.serving) :
    Keeps s t (.request .markRunningInterrupted) (.finished (.ok reply)) none where
  numbered := by
    rw [htransfers]
    exact h.numbered.evolve Transfers.evolves_markRunningInterrupted
  lastId_le := by rw [htransfers]; exact le_rfl
  claims := by
    rintro k (hk | ⟨c, hc, -⟩)
    · cases hk
    · cases hc
  starting := nofun
  started c hc := by cases hc
  entered k control hk := by
    rw [hdownloads] at hk
    exact .inl ⟨control, hk⟩
  paused k row hrow hstatus := by
    rw [htransfers, Transfers.getElem?_markRunningInterrupted] at hrow
    obtain ⟨old, hold, rfl⟩ := Option.map_eq_some_iff.mp hrow
    exact .inl ⟨old, hold, TransferRecord.paused_of_interrupt hstatus⟩
  isRecovery := nofun
  isRequest := nofun
  serving := .inl hserving

theorem keeps_removed (h : s.Orderly) {worker : DownloadWorker}
    {result : Except String PersistentFetchStats}
    (hphase : worker.phase = .returned result) (htransfers : t.transfers = s.transfers)
    (hdownloads : t.downloads = s.downloads.erase worker.transfer.id)
    (hserving : t.serving = s.serving) :
    Keeps s t (.worker worker) (.worker { worker with phase := .removed result }) none where
  numbered := htransfers ▸ h.numbered
  lastId_le := htransfers ▸ le_rfl
  claims := by
    have hclaims : worker.claims = [worker.transfer.id] := by rw [DownloadWorker.claims, hphase]
    rintro k (hk | ⟨c, hc, -⟩)
    · rw [Thread.claims, hclaims]
      exact .inl hk
    · cases hc
  starting k hk := by cases hk
  started c hc := by cases hc
  entered k control hk := by
    rw [hdownloads, ExtTreeMap.getElem?_erase] at hk
    split_ifs at hk
    exact .inl ⟨control, hk⟩
  paused k row hrow hstatus := by
    rw [htransfers] at hrow
    exact .inl ⟨row, hrow, hstatus⟩
  isRecovery hr := by cases hr
  isRequest hr := by cases hr
  serving := .inl hserving

theorem keeps (h : s.Orderly) (heffect : Effect s t θ θ' new) : Keeps s t θ θ' new := by
  cases heffect with
  | quiet htransfers hdownloads hserving hfollows =>
    refine h.keeps_of_unchanged htransfers hdownloads ?_ hfollows.starting
      (fun c hc ↦ by cases hc) hfollows.isRecovery hfollows.isRequest (.inl hserving)
    rintro k (hk | ⟨c, hc, -⟩)
    · exact .inl (hfollows.claims.subset hk)
    · cases hc
  | created hcreate hdownloads hserving => exact h.keeps_created hcreate hdownloads hserving
  | @resumed id transfer hrow hid hpaused htransfers hdownloads hserving =>
    refine h.keeps_of_unchanged htransfers hdownloads ?_ nofun (fun c hc ↦ by cases hc) nofun
      (fun _ ↦ rfl) (.inl hserving)
    rintro k (hk | ⟨c, hc, -⟩)
    · obtain rfl : k = id := (List.mem_singleton.mp hk).trans hid
      refine .inr ⟨h.numbered.le_lastId k transfer hrow, fun c hc hstarting ↦ ?_⟩
      exact h.unpaused c hc k hstarting transfer hrow hpaused
    · cases hc
  | @updated download f hf htransfers hdownloads hserving =>
    obtain ⟨caller, transfer, contentId⟩ := download
    refine h.keeps_altered (fun row ↦ ⟨(hf row).1, (hf row).2.1⟩) htransfers hdownloads hserving
      (List.Subset.refl _) ?_ (.inl fun row ↦ ?_) ?_ (fun _ ↦ rfl)
    · rcases caller <;> exact fun _ hk ↦ hk
    · rw [(hf row).2.2]
      nofun
    · rcases caller <;> exact fun hr ↦ hr
  | @inserted download control hfree htransfers hdownloads hserving =>
    obtain ⟨caller, transfer, contentId⟩ := download
    refine h.keeps_entered htransfers hdownloads hserving (List.Subset.refl _) rfl ?_
    rcases caller <;> exact fun hr ↦ hr
  | replaced hold htransfers hdownloads hserving =>
    exact h.keeps_entered htransfers hdownloads hserving (List.nil_subset _) rfl nofun
  | launched htransfers hdownloads hlast =>
    refine h.keeps_of_unchanged htransfers hdownloads ?_ nofun ?_ nofun nofun (.inr ⟨rfl, rfl⟩)
    · rintro k (hk | ⟨c, hc, hk⟩)
      · cases hk
      · obtain rfl := Option.some.inj hc
        obtain rfl := List.mem_singleton.mp hk
        exact .inl List.mem_cons_self
    · rintro c hc
      obtain rfl := Option.some.inj hc
      exact ⟨rfl, rfl, rfl⟩
  | recovered htransfers hdownloads hserving =>
    refine h.keeps_of_unchanged htransfers hdownloads ?_ nofun ?_ (fun _ ↦ rfl) (fun _ ↦ rfl)
      (.inl hserving)
    · rintro k (hk | ⟨c, hc, hk⟩)
      · exact .inl (List.mem_cons_of_mem _ hk)
      · obtain rfl := Option.some.inj hc
        obtain rfl := List.mem_singleton.mp hk
        exact .inl List.mem_cons_self
    · rintro c hc
      obtain rfl := Option.some.inj hc
      exact ⟨rfl, rfl, rfl⟩
  | paused hentered htransfers hdownloads hserving =>
    refine h.keeps_altered (f := fun row ↦ row.setStatus .pausing none) (fun row ↦ ⟨rfl, rfl⟩)
      htransfers hdownloads hserving (List.nil_subset _) nofun (.inl fun row hstatus ↦ ?_) nofun
      nofun
    cases hstatus
  | marked htransfers hdownloads hserving => exact h.keeps_marked htransfers hdownloads hserving
  | removed hphase htransfers hdownloads hserving =>
    exact h.keeps_removed hphase htransfers hdownloads hserving
  | @settled worker phase f hclaims hentry hclaims' hentry' hf htransfers hdownloads hserving =>
    have hmine : worker.transfer.id ∈ (Thread.worker worker).claims := by
      rw [Thread.claims, hclaims]
      exact List.mem_cons_self
    refine h.keeps_altered hf htransfers hdownloads hserving ?_ (fun k hk ↦ ?_)
      (.inr ⟨hmine, fun hk ↦ ?_⟩) (fun hr ↦ ?_) fun hr ↦ ?_
    · rw [Thread.claims, hclaims']
      exact List.nil_subset _
    all_goals first | cases hk | cases hr

/-! ## Runs -/

/-- A request is received; there is no recovery any more. -/
theorem enqueued (h : s.Orderly) {task : Task} (hfirst : task.isFirst) (hserving : s.serving)
    (htransfers : t.transfers = s.transfers) (hdownloads : t.downloads = s.downloads)
    (hthreads : t.threads = s.threads ++ [.request task]) : t.Orderly := by
  obtain ⟨hclaims, -, hrecovery⟩ := Thread.first hfirst
  have hstarting (id : ℕ) : (Thread.request task).starting ≠ some id := fun hid ↦ by
    have hmem := Thread.mem_claims_of_starting hid
    rw [hclaims] at hmem
    cases hmem
  have hnone {c : Thread} (hc : c ∈ t.threads) : ¬c.isRecovery := by
    rw [hthreads, List.mem_append, List.mem_singleton] at hc
    rcases hc with hc | rfl
    · intro hr
      cases hserving.symm.trans (h.waiting c hc hr)
    · rw [hrecovery]
      nofun
  have hcases {j : ℕ} {c : Thread} (hj : t.threads[j]? = some c) :
      s.threads[j]? = some c ∨ c = .request task := by
    rw [hthreads, List.getElem?_append] at hj
    split_ifs at hj
    · exact .inl hj
    · exact .inr (List.mem_singleton.mp (List.mem_iff_getElem?.mpr ⟨_, hj⟩))
  have hmem {c : Thread} (hc : c ∈ t.threads) : c ∈ s.threads ∨ c = .request task := by
    rwa [hthreads, List.mem_append, List.mem_singleton] at hc
  constructor
  · rw [htransfers]
    exact h.numbered
  · intro c hc id hid
    rw [htransfers]
    rcases hmem hc with hc | rfl
    · exact h.claimed c hc id hid
    · rw [hclaims] at hid
      cases hid
  · rw [htransfers, hdownloads]
    exact h.entered
  · intro j j' c c' id hj hj' hc hc'
    rcases hcases hj with hj | rfl
    · rcases hcases hj' with hj' | rfl
      · exact h.sole j j' c c' id hj hj' hc hc'
      · rw [hclaims] at hc'
        cases hc'
    · exact absurd hc (hstarting id)
  · intro c hc id hid
    rw [hdownloads]
    rcases hmem hc with hc | rfl
    · exact h.apart c hc id hid
    · exact absurd hid (hstarting id)
  · intro c hc id hid
    rw [htransfers]
    rcases hmem hc with hc | rfl
    · exact h.unpaused c hc id hid
    · exact absurd hid (hstarting id)
  · intro j j' c c' hj _ hc
    exact absurd hc (hnone (List.mem_iff_getElem?.mpr ⟨j, hj⟩))
  · intro c hc hr
    exact absurd hr (hnone hc)

/-- What does not concern the threads. -/
theorem evolved (h : s.Orderly) (hevolves : s.transfers.Evolves t.transfers)
    (hstatus : ∀ (k : ℕ) (row : TransferRecord), t.transfers.rows[k]? = some row →
      ∃ old, s.transfers.rows[k]? = some old ∧ old.status = row.status)
    (hdownloads : t.downloads = s.downloads) (hserving : t.serving = s.serving)
    (hthreads : t.threads = s.threads) : t.Orderly where
  numbered := h.numbered.evolve hevolves
  claimed := by rw [hthreads, ← hevolves.1]; exact h.claimed
  entered := by rw [hdownloads, ← hevolves.1]; exact h.entered
  sole := by rw [hthreads]; exact h.sole
  apart := by rw [hthreads, hdownloads]; exact h.apart
  unpaused c hc id hid row hrow := by
    rw [hthreads] at hc
    obtain ⟨old, hold, heq⟩ := hstatus id row hrow
    rw [← heq]
    exact h.unpaused c hc id hid old hold
  alone := by rw [hthreads]; exact h.alone
  waiting := by rw [hthreads, hserving]; exact h.waiting

theorem change (h : s.Orderly) {a : NodeAction} (hchange : Change s a t) : t.Orderly := by
  cases hchange with
  | stepped ha hi heffect hthreads => exact h.advance hi (h.keeps heffect) hthreads
  | enqueued hfirst hserving htransfers hdownloads hthreads =>
    exact h.enqueued hfirst hserving htransfers hdownloads hthreads
  | @progressed id progress rate htransfers hdownloads hserving hthreads =>
    refine h.evolved (htransfers ▸ Transfers.evolves_updateProgress) ?_ hdownloads hserving hthreads
    intro k row hrow
    rw [htransfers] at hrow
    rcases Transfers.getElem?_updateProgress (s := s.transfers) id progress rate k with heq | heq
    · exact ⟨row, heq ▸ hrow, rfl⟩
    · rw [heq] at hrow
      obtain ⟨old, hold, rfl⟩ := Option.map_eq_some_iff.mp hrow
      exact ⟨old, hold, TransferRecord.status_progress.symm⟩
  | elsewhere htransfers hdownloads hserving hthreads =>
    refine h.evolved ?_ ?_ hdownloads hserving hthreads
    · rw [htransfers]
      exact ⟨rfl, fun k row hrow ↦ ⟨row, hrow, rfl, rfl⟩⟩
    · rw [htransfers]
      exact fun k row hrow ↦ ⟨row, hrow, rfl⟩

end Orderly

theorem orderly_recover {transfers : Transfers} (h : transfers.Numbered) (config : NodeConfig)
    (sharing : Sharing) : (recover config sharing transfers).Orderly := by
  obtain ⟨htransfers, hdownloads, hthreads⟩ := recover_cases config sharing transfers
  have hmarked := h.evolve Transfers.evolves_markRunningInterrupted
  have hempty (id : ℕ) : (recover config sharing transfers).downloads[id]? = none := by
    rw [hdownloads, ExtTreeMap.getElem?_empty]
  -- the one thread there may be is the recovery
  have hthread {c : Thread} (hc : c ∈ (recover config sharing transfers).threads) :
      c.starting = none ∧ (recover config sharing transfers).serving = false ∧
        ∀ id ∈ c.claims, ∃ row ∈ transfers.recoverableTransfers.2, row.id = id := by
    rcases hthreads with hnil | ⟨transfer, rest, hlist, hserving, hone⟩
    · rw [hnil] at hc
      cases hc
    · rw [hone] at hc
      obtain rfl := List.mem_singleton.mp hc
      refine ⟨rfl, hserving, fun id hid ↦ ?_⟩
      rw [hlist]
      exact List.mem_map.mp (show id ∈ (transfer :: rest).map TransferRecord.id from hid)
  have hzero {j : ℕ} {c : Thread} (hj : (recover config sharing transfers).threads[j]? = some c) :
      j = 0 := by
    rcases hthreads with hnil | ⟨transfer, rest, -, -, hone⟩
    · rw [hnil] at hj
      cases hj
    · rw [hone, List.getElem?_singleton] at hj
      split_ifs at hj with hzero
      exact hzero
  constructor
  · rw [htransfers]
    exact hmarked
  · intro c hc id hid
    obtain ⟨row, hrow, rfl⟩ := (hthread hc).2.2 id hid
    obtain ⟨k, hk, -⟩ := Transfers.mem_recoverableTransfers.mp hrow
    rw [htransfers, hmarked.id_eq k row hk]
    exact hmarked.le_lastId k row hk
  · intro id control hid
    cases (hempty id).symm.trans hid
  · intro j j' c c' id hj _ hc
    cases (hthread (List.mem_iff_getElem?.mpr ⟨j, hj⟩)).1.symm.trans hc
  · exact fun c hc id _ ↦ hempty id
  · intro c hc id hid
    cases (hthread hc).1.symm.trans hid
  · intro j j' c c' hj hj' _ _
    rw [hzero hj, hzero hj']
  · exact fun c hc _ ↦ (hthread hc).2.1

end NodeRuntime

namespace Node

/-- Every state of every run is orderly. -/
theorem orderly_of_run {b : Backend} {node : Node}
    (hrun : Relation.ReflTransGen (Step (next b)) new node) :
    node.Holds Transfers.Numbered NodeRuntime.Orderly := by
  refine holds_of_run (K := fun _ _ ↦ True) Transfers.numbered_empty (fun s hs _ ↦ hs.numbered)
    (fun _ config sharing _ h _ _ ↦ NodeRuntime.orderly_recover h config sharing)
    (fun s a t hs _ hnext ↦ hs.change (NodeRuntime.change_of_next hs.numbered hnext))
    (Relation.ReflTransGen.mono (fun _ _ ⟨a, ha⟩ ↦ ⟨a, trivial, ha⟩) _ _ hrun)

end Node

end TripTorrent
