import TripTorrent.Node.Effects

/-!
# Who owns a transfer

As long as no transfer is resumed twice at the same time, every transfer is claimed by at most one
thread: the request that has created or resumed it, the recovery, or its worker, one after another.
From this it follows that the control a worker polls is the one entered in `downloads`, and that a
row is only written by the thread it belongs to, so that one that says completed or failed is never
written again.

A second `resume_transfer` may find the row still paused while the first one is on its way. That is
the only way in which a claim is made twice, and `Undisputed` is the condition that it does not
happen.
-/

namespace TripTorrent

open Std (ExtTreeMap)
open Storage.Keyed
open Transition
open scoped List

namespace Thread

variable {θ : Thread} {id control : ℕ}

theorem mem_claims_of_entry (h : θ.entry = some (id, control)) : id ∈ θ.claims := by
  rcases θ with task | result | ⟨transfer, contentId, c, phase⟩ | _
  · rcases task <;> cases h
    exact List.mem_cons_self
  · cases h
  · rcases phase <;> cases h <;> exact List.mem_cons_self
  · cases h

theorem resuming_of_entry (h : θ.entry = some (id, control)) : θ.resuming = none := by
  rcases θ with task | result | worker | _
  · rcases task <;> cases h
    rfl
  · cases h
  · rfl
  · cases h

end Thread

namespace NodeRuntime

/-- The row of a claimed transfer is live, and says paused only while it is being resumed. -/
def Claimed (s : NodeRuntime) (θ : Thread) (id : ℕ) : Prop :=
  ∃ row, s.transfers.rows[id]? = some row ∧ row.status.isLive ∧
    (row.status = .paused → θ.resuming = some id)

/-- Every transfer has at most one owner. -/
structure Owned (s : NodeRuntime) : Prop where
  numbered : s.transfers.Numbered
  one : s.transfers.OnePerContent
  exclusive : Exclusive Thread.claims s.threads
  nodup : ∀ θ ∈ s.threads, θ.claims.Nodup
  claimed : ∀ θ ∈ s.threads, ∀ id ∈ θ.claims, s.Claimed θ id
  /-- What is entered in `downloads` are the controls of the threads. -/
  entered : ∀ id control, s.downloads[id]? = some control ↔
    ∃ θ ∈ s.threads, θ.entry = some (id, control)

variable {s t : NodeRuntime} {i id control : ℕ} {θ θ' : Thread} {new : Option Thread}

theorem Claimed.congr (h : s.Claimed θ id)
    (hrows : t.transfers.rows[id]? = s.transfers.rows[id]?) : t.Claimed θ id := by
  rw [Claimed, hrows]
  exact h

namespace Owned

/-- A claimed transfer is entered with the control of its owner, if at all. -/
theorem entry_of_mem (h : s.Owned) (hi : s.threads[i]? = some θ) (hid : id ∈ θ.claims)
    (hentered : s.downloads[id]? = some control) : θ.entry = some (id, control) := by
  obtain ⟨θ', hmem, hentry⟩ := (h.entered id control).mp hentered
  obtain ⟨j, hj⟩ := List.mem_iff_getElem?.mp hmem
  obtain rfl := h.exclusive i j θ θ' id hi hj hid (Thread.mem_claims_of_entry hentry)
  obtain rfl := Option.some.inj (hi.symm.trans hj)
  exact hentry

/-- The row of a transfer that is entered is live and not paused. -/
theorem live_of_entered (h : s.Owned) (hentered : s.downloads[id]? = some control) :
    ∃ row, s.transfers.rows[id]? = some row ∧ row.status.isLive ∧ row.status ≠ .paused := by
  obtain ⟨θ, hmem, hentry⟩ := (h.entered id control).mp hentered
  obtain ⟨row, hrow, hlive, hpaused⟩ := h.claimed θ hmem id (Thread.mem_claims_of_entry hentry)
  refine ⟨row, hrow, hlive, fun hstatus ↦ ?_⟩
  cases (Thread.resuming_of_entry hentry).symm.trans (hpaused hstatus)

/-- The rows another thread has a claim to are not touched by changing one that this thread has a
claim to. -/
theorem claimed_of_ne {f : TransferRecord → TransferRecord} {j : ℕ} {c : Thread} {k : ℕ}
    (h : s.Owned) (hi : s.threads[i]? = some θ) (hid : id ∈ θ.claims)
    (ht : t.transfers = s.transfers.alter id f) (hij : i ≠ j) (hj : s.threads[j]? = some c)
    (hk : k ∈ c.claims) : t.Claimed c k := by
  refine (h.claimed c (List.mem_iff_getElem?.mpr ⟨j, hj⟩) k hk).congr ?_
  rw [ht, Transfers.getElem?_alter, if_neg]
  rintro rfl
  exact hij (h.exclusive i j θ c id hi hj hid hk)

/-- Changing the status of a live transfer brings none back to life. -/
theorem onePerContent_alter {f : TransferRecord → TransferRecord} (h : s.Owned)
    (hf : ∀ row, (f row).id = row.id ∧ (f row).contentId = row.contentId)
    (hlive : ∀ row, s.transfers.rows[id]? = some row → row.status.isLive) :
    (s.transfers.alter id f).OnePerContent := by
  refine h.one.evolve (Transfers.evolves_alter hf) fun k old row hold hrow hl ↦ ?_
  rw [Transfers.getElem?_alter] at hrow
  split_ifs at hrow with hk
  · exact hlive old (hk ▸ hold)
  · obtain rfl := Option.some.inj (hold.symm.trans hrow)
    exact hl

/-- What is to be shown of a step. -/
theorem step (h : s.Owned) (hi : s.threads[i]? = some θ)
    (hthreads : t.threads = s.threads.set i θ' ++ new.toList)
    (hnumbered : t.transfers.Numbered) (hone : t.transfers.OnePerContent)
    (hclaims : ∀ k ∈ θ'.claims, k ∈ θ.claims ∨ Unclaimed Thread.claims s.threads k)
    (hnew : ∀ c, new = some c → c.claims.Nodup ∧ ∀ k ∈ c.claims,
      (k ∈ θ.claims ∨ Unclaimed Thread.claims s.threads k) ∧ k ∉ θ'.claims ∧ t.Claimed c k)
    (hnodup : θ'.claims.Nodup) (hmine : ∀ k ∈ θ'.claims, t.Claimed θ' k)
    (hothers : ∀ (j : ℕ) (c : Thread), i ≠ j → s.threads[j]? = some c → ∀ k ∈ c.claims,
      t.Claimed c k)
    (hentered : ∀ k control, t.downloads[k]? = some control ↔
      θ'.entry = some (k, control) ∨
        (∃ (j : ℕ) (c : Thread), i ≠ j ∧ s.threads[j]? = some c ∧ c.entry = some (k, control)) ∨
        ∃ c, new = some c ∧ c.entry = some (k, control)) : t.Owned where
  numbered := hnumbered
  one := hone
  exclusive := by
    rw [hthreads]
    exact h.exclusive.advance hi hclaims fun c hc k hk ↦
      ⟨((hnew c hc).2 k hk).1, ((hnew c hc).2 k hk).2.1⟩
  nodup c hc := by
    rw [hthreads] at hc
    rcases mem_threads_cases hc with rfl | hc | hc
    · exact hnodup
    · exact h.nodup c hc
    · exact (hnew c hc).1
  claimed c hc := by
    rw [hthreads] at hc
    obtain ⟨j, hj⟩ := List.mem_iff_getElem?.mp hc
    rcases thread_cases hj with ⟨-, rfl⟩ | ⟨hij, hj⟩ | ⟨-, hc⟩
    · exact hmine
    · exact hothers j c hij hj
    · exact fun k hk ↦ ((hnew c hc).2 k hk).2.2
  entered k control := by
    rw [hthreads, exists_advance_iff hi]
    exact hentered k control

/-- What was entered belongs to this thread or to another one. -/
theorem entered_cases (h : s.Owned) (hi : s.threads[i]? = some θ) (k control : ℕ) :
    s.downloads[k]? = some control ↔ θ.entry = some (k, control) ∨
      ∃ (j : ℕ) (c : Thread), i ≠ j ∧ s.threads[j]? = some c ∧ c.entry = some (k, control) := by
  rw [h.entered, exists_thread_iff hi]

/-! ## Single effects -/

theorem quiet (h : s.Owned) (hi : s.threads[i]? = some θ)
    (hthreads : t.threads = s.threads.set i θ' ++ (none : Option Thread).toList)
    (htransfers : t.transfers = s.transfers) (hdownloads : t.downloads = s.downloads)
    (hfollows : Thread.Follows θ θ') : t.Owned := by
  have hmem : θ ∈ s.threads := List.mem_iff_getElem?.mpr ⟨i, hi⟩
  have hrows (k : ℕ) : t.transfers.rows[k]? = s.transfers.rows[k]? := by rw [htransfers]
  refine h.step hi hthreads (htransfers ▸ h.numbered) (htransfers ▸ h.one)
    (fun k hk ↦ .inl (hfollows.claims.subset hk)) (fun c hc ↦ by cases hc)
    (hfollows.claims.nodup (h.nodup θ hmem)) (fun k hk ↦ ?_)
    (fun j c _ hj k hk ↦ (h.claimed c (List.mem_iff_getElem?.mpr ⟨j, hj⟩) k hk).congr (hrows k))
    (fun k control ↦ ?_)
  · obtain ⟨row, hrow, hlive, hpaused⟩ := h.claimed θ hmem k (hfollows.claims.subset hk)
    exact ⟨row, (hrows k).trans hrow, hlive, fun hp ↦ hfollows.resuming k hk (hpaused hp)⟩
  · rw [hdownloads, h.entered_cases hi, hfollows.entry]
    exact or_congr_right ⟨.inl, fun hor ↦ hor.resolve_right fun ⟨c, hc, _⟩ ↦ by cases hc⟩

/-- A step that neither starts a thread nor touches `downloads`, of a thread without an entry. -/
theorem entered_of_none (h : s.Owned) (hi : s.threads[i]? = some θ)
    (hdownloads : t.downloads = s.downloads) (hentry : θ'.entry = θ.entry) (k control : ℕ) :
    t.downloads[k]? = some control ↔ θ'.entry = some (k, control) ∨
      (∃ (j : ℕ) (c : Thread), i ≠ j ∧ s.threads[j]? = some c ∧ c.entry = some (k, control)) ∨
      ∃ c, (none : Option Thread) = some c ∧ c.entry = some (k, control) := by
  rw [hdownloads, h.entered_cases hi, hentry]
  exact or_congr_right ⟨.inl, fun hor ↦ hor.resolve_right fun ⟨c, hc, _⟩ ↦ by cases hc⟩

theorem created {contentId : ContentId} {share : Bool} (h : s.Owned)
    (hi : s.threads[i]? = some (.request (.createTransfer contentId share)))
    (hthreads : t.threads = s.threads.set i (.request (.getTransfer id)) ++
      (none : Option Thread).toList)
    (hcreate : s.transfers.createTransfer contentId.toString share = some (t.transfers, id))
    (hdownloads : t.downloads = s.downloads) : t.Owned := by
  have hfresh := h.numbered.getElem?_createTransfer hcreate
  have hunclaimed : Unclaimed Thread.claims s.threads id := by
    intro c hc hk
    obtain ⟨row, hrow, -⟩ := h.claimed c hc id hk
    cases hfresh.symm.trans hrow
  have hrow (k : ℕ) : t.transfers.rows[k]? =
      if id = k then some (.new id contentId.toString share) else s.transfers.rows[k]? := by
    rw [(Transfers.createTransfer_eq_some_iff.mp hcreate).2.2]
    exact getElem?_insert
  refine h.step hi hthreads (h.numbered.createTransfer hcreate) (h.one.createTransfer hcreate)
    (fun k hk ↦ ?_) (fun c hc ↦ by cases hc) (List.nodup_singleton _) (fun k hk ↦ ?_)
    (fun j c _ hj k hk ↦ ?_) (h.entered_of_none hi hdownloads rfl)
  · obtain rfl := List.mem_singleton.mp hk
    exact .inr hunclaimed
  · obtain rfl := List.mem_singleton.mp hk
    exact ⟨_, by rw [hrow, if_pos rfl], rfl, fun hp ↦ by cases hp⟩
  · refine (h.claimed c (List.mem_iff_getElem?.mpr ⟨j, hj⟩) k hk).congr ?_
    rw [hrow, if_neg]
    rintro rfl
    exact hunclaimed.not_mem hj hk

/-- A transfer that is found paused, with no request on its way to resume it, is not claimed. -/
theorem unclaimed_of_paused {row : TransferRecord} (h : s.Owned)
    (hrow : s.transfers.rows[id]? = some row) (hpaused : row.status = .paused)
    (hfree : ∀ task, Thread.request task ∈ s.threads → id ∉ task.claims) :
    Unclaimed Thread.claims s.threads id := by
  intro c hc hk
  obtain ⟨row', hrow', -, hresuming⟩ := h.claimed c hc id hk
  obtain rfl := Option.some.inj (hrow.symm.trans hrow')
  rcases c with task | result | worker | _
  · exact hfree task hc hk
  · cases hk
  · cases hresuming hpaused
  · cases hk

theorem resumed {transfer : TransferRecord} (h : s.Owned)
    (hi : s.threads[i]? = some (.request (.resumeStatus id)))
    (hthreads : t.threads = s.threads.set i (.request (.createDirAll .resumeTransfer transfer)) ++
      (none : Option Thread).toList)
    (hrow : s.transfers.rows[id]? = some transfer) (hid : transfer.id = id)
    (hpaused : transfer.status = .paused)
    (hfree : ∀ task, Thread.request task ∈ s.threads → id ∉ task.claims)
    (htransfers : t.transfers = s.transfers) (hdownloads : t.downloads = s.downloads) :
    t.Owned := by
  subst hid
  have hrows (k : ℕ) : t.transfers.rows[k]? = s.transfers.rows[k]? := by rw [htransfers]
  refine h.step hi hthreads (htransfers ▸ h.numbered) (htransfers ▸ h.one)
    (fun k hk ↦ ?_) (fun c hc ↦ by cases hc) (List.nodup_singleton _) (fun k hk ↦ ?_)
    (fun j c _ hj k hk ↦ (h.claimed c (List.mem_iff_getElem?.mpr ⟨j, hj⟩) k hk).congr (hrows k))
    (h.entered_of_none hi hdownloads rfl)
  · obtain rfl := List.mem_singleton.mp hk
    exact .inr (h.unclaimed_of_paused hrow hpaused hfree)
  · obtain rfl := List.mem_singleton.mp hk
    exact ⟨transfer, (hrows _).trans hrow, by rw [hpaused]; rfl, fun _ ↦ rfl⟩

theorem updated {download : Download} {f : TransferRecord → TransferRecord} (h : s.Owned)
    (hi : s.threads[i]? = some (.request (.updateTransfer download)))
    (hthreads : t.threads = s.threads.set i (.request (.insertControl download)) ++
      (none : Option Thread).toList)
    (hf : ∀ row, (f row).id = row.id ∧ (f row).contentId = row.contentId ∧
      (f row).status = .running)
    (htransfers : t.transfers = s.transfers.alter download.transfer.id f)
    (hdownloads : t.downloads = s.downloads) : t.Owned := by
  have hmem : Thread.request (.updateTransfer download) ∈ s.threads :=
    List.mem_iff_getElem?.mpr ⟨i, hi⟩
  have hown : download.transfer.id ∈ (Thread.request (.updateTransfer download)).claims :=
    List.mem_cons_self
  have hkeeps (row : TransferRecord) : (f row).id = row.id ∧ (f row).contentId = row.contentId :=
    ⟨(hf row).1, (hf row).2.1⟩
  obtain ⟨row, hrow, hlive, -⟩ := h.claimed _ hmem _ hown
  have hone : t.transfers.OnePerContent := by
    rw [htransfers]
    refine h.onePerContent_alter hkeeps fun row' hrow' ↦ ?_
    obtain rfl := Option.some.inj (hrow.symm.trans hrow')
    exact hlive
  refine h.step hi hthreads (h.numbered.evolve (htransfers ▸ Transfers.evolves_alter hkeeps)) hone
    (fun k hk ↦ .inl hk) (fun c hc ↦ by cases hc)
    (h.nodup (.request (.updateTransfer download)) hmem) (fun k hk ↦ ?_)
    (fun j c hij hj k hk ↦ h.claimed_of_ne hi hown htransfers hij hj hk)
    (h.entered_of_none hi hdownloads rfl)
  have hnodup := List.nodup_cons.mp (h.nodup _ hmem)
  rcases List.mem_cons.mp hk with rfl | hrest
  · refine ⟨f row, ?_, by rw [(hf row).2.2]; rfl, fun hp ↦ ?_⟩
    · rw [htransfers, Transfers.getElem?_alter, if_pos rfl, hrow]
      rfl
    · cases (hf row).2.2.symm.trans hp
  · -- the transfers the recovery still has to go through are others
    obtain ⟨row', hrow', hlive', hpaused'⟩ := h.claimed _ hmem k hk
    refine ⟨row', ?_, hlive', fun hp ↦ ?_⟩
    · rw [htransfers, Transfers.getElem?_alter, if_neg, hrow']
      rintro rfl
      exact hnodup.1 hrest
    · obtain ⟨caller, transfer, contentId⟩ := download
      rcases caller with _ | _ | rest
      · cases hrest
      · cases hrest
      · cases hpaused' hp

theorem inserted {download : Download} (h : s.Owned)
    (hi : s.threads[i]? = some (.request (.insertControl download)))
    (hthreads : t.threads = s.threads.set i (.request (.launch download control)) ++
      (none : Option Thread).toList)
    (hfree : s.downloads[download.transfer.id]? = none) (htransfers : t.transfers = s.transfers)
    (hdownloads : t.downloads = s.downloads.insert download.transfer.id control) : t.Owned := by
  have hmem : Thread.request (.insertControl download) ∈ s.threads :=
    List.mem_iff_getElem?.mpr ⟨i, hi⟩
  have hrows (k : ℕ) : t.transfers.rows[k]? = s.transfers.rows[k]? := by rw [htransfers]
  refine h.step hi hthreads (htransfers ▸ h.numbered) (htransfers ▸ h.one)
    (fun k hk ↦ .inl hk) (fun c hc ↦ by cases hc)
    (h.nodup (.request (.insertControl download)) hmem)
    (fun k hk ↦ (h.claimed (.request (.insertControl download)) hmem k hk).congr (hrows k))
    (fun j c _ hj k hk ↦ (h.claimed c (List.mem_iff_getElem?.mpr ⟨j, hj⟩) k hk).congr (hrows k))
    (fun k c ↦ ?_)
  rw [hdownloads, getElem?_insert]
  constructor
  · intro hk
    split_ifs at hk with heq
    · obtain rfl := Option.some.inj hk
      subst heq
      exact .inl rfl
    · rcases (h.entered_cases hi k c).mp hk with hentry | hother
      · cases hentry
      · exact .inr (.inl hother)
  · rintro (hmine | ⟨j, other, hij, hj, hentry⟩ | ⟨other, hnone, -⟩)
    · obtain ⟨rfl, rfl⟩ := Prod.mk.inj (Option.some.inj hmine)
      rw [if_pos rfl]
    · have hk := (h.entered_cases hi k c).mpr (.inr ⟨j, other, hij, hj, hentry⟩)
      rw [if_neg, hk]
      rintro rfl
      cases hfree.symm.trans hk
    · cases hnone

/-- A thread about to enter a control has none entered. -/
theorem not_replaced {download : Download} (h : s.Owned)
    (hi : s.threads[i]? = some (.request (.insertControl download))) :
    s.downloads[download.transfer.id]? = none := by
  rcases hentered : s.downloads[download.transfer.id]? with _ | c
  · rfl
  · cases h.entry_of_mem hi List.mem_cons_self hentered

/-- The entry goes over from the request to the worker. -/
theorem entered_launch {download : Download} (h : s.Owned)
    (hi : s.threads[i]? = some (.request (.launch download control)))
    (hdownloads : t.downloads = s.downloads) (hentry : θ'.entry = none) (k c : ℕ) :
    t.downloads[k]? = some c ↔ θ'.entry = some (k, c) ∨
      (∃ (j : ℕ) (other : Thread), i ≠ j ∧ s.threads[j]? = some other ∧
        other.entry = some (k, c)) ∨
      ∃ other, some (Thread.worker ⟨download.transfer, download.contentId, control, .fetching⟩) =
        some other ∧ other.entry = some (k, c) := by
  rw [hdownloads, h.entered_cases hi, hentry]
  constructor
  · rintro (hmine | hother)
    · exact .inr (.inr ⟨_, rfl, hmine⟩)
    · exact .inr (.inl hother)
  · rintro (hnone | hother | ⟨other, hworker, hentry⟩)
    · cases hnone
    · exact .inr hother
    · obtain rfl := Option.some.inj hworker
      exact .inl hentry

theorem launched {download : Download} {reply : NodeReply} (h : s.Owned)
    (hi : s.threads[i]? = some (.request (.launch download control)))
    (hthreads : t.threads = s.threads.set i (.finished (.ok reply)) ++
      (some (Thread.worker ⟨download.transfer, download.contentId, control, .fetching⟩)).toList)
    (htransfers : t.transfers = s.transfers) (hdownloads : t.downloads = s.downloads) :
    t.Owned := by
  have hmem : Thread.request (.launch download control) ∈ s.threads :=
    List.mem_iff_getElem?.mpr ⟨i, hi⟩
  have hrows (k : ℕ) : t.transfers.rows[k]? = s.transfers.rows[k]? := by rw [htransfers]
  refine h.step hi hthreads (htransfers ▸ h.numbered) (htransfers ▸ h.one)
    (fun k hk ↦ by cases hk) (fun c hc ↦ ?_) List.nodup_nil (fun k hk ↦ by cases hk)
    (fun j c _ hj k hk ↦ (h.claimed c (List.mem_iff_getElem?.mpr ⟨j, hj⟩) k hk).congr (hrows k))
    (h.entered_launch hi hdownloads rfl)
  obtain rfl := Option.some.inj hc
  refine ⟨List.nodup_singleton _, fun k hk ↦ ?_⟩
  obtain rfl := List.mem_singleton.mp hk
  refine ⟨.inl List.mem_cons_self, List.not_mem_nil, ?_⟩
  exact (h.claimed _ hmem _ List.mem_cons_self).congr (hrows _)

theorem recovered {transfer next : TransferRecord} {rest : List TransferRecord}
    {contentId : ContentId} (h : s.Owned)
    (hi : s.threads[i]? =
      some (.request (.launch ⟨.recovery (next :: rest), transfer, contentId⟩ control)))
    (hthreads : t.threads = s.threads.set i (.request (.createDirAll (.recovery rest) next)) ++
      (some (Thread.worker ⟨transfer, contentId, control, .fetching⟩)).toList)
    (htransfers : t.transfers = s.transfers) (hdownloads : t.downloads = s.downloads) :
    t.Owned := by
  have hmem := List.mem_iff_getElem?.mpr ⟨i, hi⟩
  have hrows (k : ℕ) : t.transfers.rows[k]? = s.transfers.rows[k]? := by rw [htransfers]
  have hnodup := List.nodup_cons.mp (h.nodup _ hmem)
  refine h.step hi hthreads (htransfers ▸ h.numbered) (htransfers ▸ h.one)
    (fun k hk ↦ .inl (List.mem_cons_of_mem _ hk)) (fun c hc ↦ ?_) hnodup.2
    (fun k hk ↦ (h.claimed _ hmem k (List.mem_cons_of_mem _ hk)).congr (hrows k))
    (fun j c _ hj k hk ↦ (h.claimed c (List.mem_iff_getElem?.mpr ⟨j, hj⟩) k hk).congr (hrows k))
    (h.entered_launch hi hdownloads rfl)
  obtain rfl := Option.some.inj hc
  refine ⟨List.nodup_singleton _, fun k hk ↦ ?_⟩
  obtain rfl := List.mem_singleton.mp hk
  exact ⟨.inl List.mem_cons_self, hnodup.1,
    (h.claimed _ hmem _ List.mem_cons_self).congr (hrows _)⟩

theorem paused {reply : NodeReply} (h : s.Owned)
    (hi : s.threads[i]? = some (.request (.pauseControl id)))
    (hthreads : t.threads = s.threads.set i (.finished (.ok reply)) ++
      (none : Option Thread).toList)
    (hentered : s.downloads[id]? = some control)
    (htransfers : t.transfers = s.transfers.setTransferStatus id .pausing none)
    (hdownloads : t.downloads = s.downloads) : t.Owned := by
  obtain ⟨row, hrow, hlive, -⟩ := h.live_of_entered hentered
  have hone : t.transfers.OnePerContent := by
    rw [htransfers]
    refine h.onePerContent_alter (fun _ ↦ ⟨rfl, rfl⟩) fun row' hrow' ↦ ?_
    obtain rfl := Option.some.inj (hrow.symm.trans hrow')
    exact hlive
  refine h.step hi hthreads
    (h.numbered.evolve (htransfers ▸ Transfers.evolves_alter fun _ ↦ ⟨rfl, rfl⟩)) hone
    (fun k hk ↦ by cases hk) (fun c hc ↦ by cases hc) List.nodup_nil (fun k hk ↦ by cases hk)
    (fun j c _ hj k hk ↦ ?_) (h.entered_of_none hi hdownloads rfl)
  obtain ⟨row', hrow', hlive', hpaused'⟩ := h.claimed c (List.mem_iff_getElem?.mpr ⟨j, hj⟩) k hk
  by_cases hk : id = k
  · refine ⟨row'.setStatus .pausing none, ?_, rfl, fun hp ↦ by cases hp⟩
    rw [htransfers, Transfers.setTransferStatus, Transfers.getElem?_alter, if_pos hk, hrow']
    rfl
  · refine ⟨row', ?_, hlive', hpaused'⟩
    rw [htransfers, Transfers.setTransferStatus, Transfers.getElem?_alter, if_neg hk, hrow']

theorem marked {reply : NodeReply} (h : s.Owned)
    (hi : s.threads[i]? = some (.request .markRunningInterrupted))
    (hthreads : t.threads = s.threads.set i (.finished (.ok reply)) ++
      (none : Option Thread).toList)
    (htransfers : t.transfers = s.transfers.markRunningInterrupted)
    (hdownloads : t.downloads = s.downloads) : t.Owned := by
  refine h.step hi hthreads
    (h.numbered.evolve (htransfers ▸ Transfers.evolves_markRunningInterrupted))
    (htransfers ▸ h.one.markRunningInterrupted) (fun k hk ↦ by cases hk) (fun c hc ↦ by cases hc)
    List.nodup_nil (fun k hk ↦ by cases hk) (fun j c _ hj k hk ↦ ?_)
    (h.entered_of_none hi hdownloads rfl)
  obtain ⟨row, hrow, hlive, hpaused⟩ := h.claimed c (List.mem_iff_getElem?.mpr ⟨j, hj⟩) k hk
  refine ⟨row.interrupt, ?_, TransferRecord.isLive_interrupt.mpr hlive, fun hp ↦ ?_⟩
  · rw [htransfers, Transfers.getElem?_markRunningInterrupted, hrow]
    rfl
  · exact hpaused (TransferRecord.paused_of_interrupt hp)

theorem removed {worker : DownloadWorker} {result : Except String PersistentFetchStats}
    (h : s.Owned)
    (hi : s.threads[i]? = some (.worker worker))
    (hthreads : t.threads = s.threads.set i (.worker { worker with phase := .removed result }) ++
      (none : Option Thread).toList)
    (hphase : worker.phase = .returned result) (htransfers : t.transfers = s.transfers)
    (hdownloads : t.downloads = s.downloads.erase worker.transfer.id) : t.Owned := by
  have hmem : Thread.worker worker ∈ s.threads := List.mem_iff_getElem?.mpr ⟨i, hi⟩
  have hrows (k : ℕ) : t.transfers.rows[k]? = s.transfers.rows[k]? := by rw [htransfers]
  have hclaims : (Thread.worker worker).claims = [worker.transfer.id] := by
    rw [Thread.claims, DownloadWorker.claims, hphase]
  have hentry : (Thread.worker worker).entry = some (worker.transfer.id, worker.control) := by
    rw [Thread.entry, DownloadWorker.entry, hphase]
  refine h.step hi hthreads (htransfers ▸ h.numbered) (htransfers ▸ h.one)
    (fun k hk ↦ .inl (hclaims ▸ hk)) (fun c hc ↦ by cases hc) (List.nodup_singleton _)
    (fun k hk ↦ (h.claimed _ hmem k (hclaims ▸ hk)).congr (hrows k))
    (fun j c _ hj k hk ↦ (h.claimed c (List.mem_iff_getElem?.mpr ⟨j, hj⟩) k hk).congr (hrows k))
    (fun k c ↦ ?_)
  rw [hdownloads, getElem?_erase]
  constructor
  · intro hk
    split_ifs at hk with heq
    rcases (h.entered_cases hi k c).mp hk with hmine | hother
    · exact absurd (Prod.mk.inj (Option.some.inj (hentry.symm.trans hmine))).1 heq
    · exact .inr (.inl hother)
  · rintro (hmine | ⟨j, other, hij, hj, hother⟩ | ⟨other, hnone, -⟩)
    · cases hmine
    · rw [if_neg]
      · exact (h.entered_cases hi k c).mpr (.inr ⟨j, other, hij, hj, hother⟩)
      · rintro rfl
        refine hij (h.exclusive i j _ other _ hi hj ?_ (Thread.mem_claims_of_entry hother))
        rw [hclaims]
        exact List.mem_singleton_self _
    · cases hnone

theorem settled {worker : DownloadWorker} {phase : DownloadPhase}
    {f : TransferRecord → TransferRecord}
    (h : s.Owned) (hi : s.threads[i]? = some (.worker worker))
    (hthreads : t.threads = s.threads.set i (.worker { worker with phase }) ++
      (none : Option Thread).toList)
    (hclaims : worker.claims = [worker.transfer.id]) (hentry : worker.entry = none)
    (hclaims' : ({ worker with phase } : DownloadWorker).claims = [])
    (hentry' : ({ worker with phase } : DownloadWorker).entry = none)
    (hf : ∀ row, (f row).id = row.id ∧ (f row).contentId = row.contentId)
    (htransfers : t.transfers = s.transfers.alter worker.transfer.id f)
    (hdownloads : t.downloads = s.downloads) : t.Owned := by
  have hmem : Thread.worker worker ∈ s.threads := List.mem_iff_getElem?.mpr ⟨i, hi⟩
  have hown : worker.transfer.id ∈ (Thread.worker worker).claims := by
    rw [Thread.claims, hclaims]
    exact List.mem_singleton_self _
  have hnone : (Thread.worker { worker with phase }).claims = [] := hclaims'
  obtain ⟨row, hrow, hlive, -⟩ := h.claimed _ hmem _ hown
  have hone : t.transfers.OnePerContent := by
    rw [htransfers]
    refine h.onePerContent_alter hf fun row' hrow' ↦ ?_
    obtain rfl := Option.some.inj (hrow.symm.trans hrow')
    exact hlive
  refine h.step hi hthreads (h.numbered.evolve (htransfers ▸ Transfers.evolves_alter hf)) hone
    (fun k hk ↦ ?_) (fun c hc ↦ by cases hc) (hnone ▸ List.nodup_nil) (fun k hk ↦ ?_)
    (fun j c hij hj k hk ↦ h.claimed_of_ne hi hown htransfers hij hj hk)
    (h.entered_of_none hi hdownloads (hentry'.trans hentry.symm))
  · rw [hnone] at hk
    cases hk
  · rw [hnone] at hk
    cases hk

/-! ## All changes -/

theorem effect (h : s.Owned) (hi : s.threads[i]? = some θ) (heffect : Effect s t θ θ' new)
    (hthreads : t.threads = s.threads.set i θ' ++ new.toList)
    (hfree : ∀ (id : ℕ) (row : TransferRecord), θ = .request (.resumeStatus id) →
      s.transfers.rows[id]? = some row → row.status = .paused →
      ∀ task, Thread.request task ∈ s.threads → id ∉ task.claims) : t.Owned := by
  rcases heffect with ⟨h₁, h₂, -, h₃⟩ | ⟨h₁, h₂, -⟩ | ⟨h₁, h₂, h₃, h₄, h₅, -⟩ |
    ⟨h₁, h₂, h₃, -⟩ | ⟨h₁, h₂, h₃, -⟩ | ⟨h₁, -, -, -⟩ | ⟨h₁, h₂, -⟩ | ⟨h₁, h₂, -⟩ |
    ⟨h₁, h₂, h₃, -⟩ | ⟨h₁, h₂, -⟩ | ⟨h₁, h₂, h₃, -⟩ | ⟨h₁, h₂, h₃, h₄, h₅, h₆, h₇, -⟩
  · exact h.quiet hi hthreads h₁ h₂ h₃
  · exact h.created hi hthreads h₁ h₂
  · exact h.resumed hi hthreads h₁ h₂ h₃ (hfree _ _ rfl h₁ h₃) h₄ h₅
  · exact h.updated hi hthreads h₁ h₂ h₃
  · exact h.inserted hi hthreads h₁ h₂ h₃
  · cases (h.not_replaced hi).symm.trans h₁
  · exact h.launched hi hthreads h₁ h₂
  · exact h.recovered hi hthreads h₁ h₂
  · exact h.paused hi hthreads h₁ h₂ h₃
  · exact h.marked hi hthreads h₁ h₂
  · exact h.removed hi hthreads h₁ h₂ h₃
  · exact h.settled hi hthreads h₁ h₂ h₃ h₄ h₅ h₆ h₇

theorem enqueued {task : Task} (h : s.Owned) (hfirst : task.isFirst)
    (htransfers : t.transfers = s.transfers) (hdownloads : t.downloads = s.downloads)
    (hthreads : t.threads = s.threads ++ [.request task]) : t.Owned := by
  have hclaims : (Thread.request task).claims = [] := by
    rcases task <;> first | rfl | cases hfirst
  have hentry : (Thread.request task).entry = none := by
    rcases task <;> first | rfl | cases hfirst
  constructor
  · exact htransfers ▸ h.numbered
  · exact htransfers ▸ h.one
  · rw [hthreads]
    exact h.exclusive.concat hclaims
  · intro θ hθ
    rw [hthreads] at hθ
    rcases List.mem_append.mp hθ with hθ | hθ
    · exact h.nodup θ hθ
    · rw [List.mem_singleton.mp hθ, hclaims]
      exact List.nodup_nil
  · intro θ hθ k hk
    rw [hthreads] at hθ
    rcases List.mem_append.mp hθ with hθ | hθ
    · exact (h.claimed θ hθ k hk).congr (by rw [htransfers])
    · rw [List.mem_singleton.mp hθ, hclaims] at hk
      cases hk
  · intro k c
    rw [hdownloads, h.entered, hthreads]
    constructor
    · rintro ⟨θ, hθ, hk⟩
      exact ⟨θ, List.mem_append_left _ hθ, hk⟩
    · rintro ⟨θ, hθ, hk⟩
      rcases List.mem_append.mp hθ with hθ | hθ
      · exact ⟨θ, hθ, hk⟩
      · rw [List.mem_singleton.mp hθ, hentry] at hk
        cases hk

/-- Nothing but the rows changes, and no status. -/
theorem progressed {progress : VerifiedProgress} {rate : ℕ} (h : s.Owned)
    (htransfers : t.transfers = s.transfers.updateProgress id progress rate)
    (hdownloads : t.downloads = s.downloads) (hthreads : t.threads = s.threads) : t.Owned := by
  constructor
  · exact h.numbered.evolve (htransfers ▸ Transfers.evolves_updateProgress)
  · exact htransfers ▸ h.one.updateProgress
  · exact hthreads ▸ h.exclusive
  · exact hthreads ▸ h.nodup
  · intro θ hθ k hk
    obtain ⟨row, hrow, hlive, hpaused⟩ := h.claimed θ (hthreads ▸ hθ) k hk
    rcases Transfers.getElem?_updateProgress (s := s.transfers) id progress rate k with heq | heq
    · exact ⟨row, by rw [htransfers, heq, hrow], hlive, hpaused⟩
    · refine ⟨row.progress progress rate, by rw [htransfers, heq, hrow]; rfl, ?_, ?_⟩
      · rwa [TransferRecord.status_progress]
      · rwa [TransferRecord.status_progress]
  · intro k c
    rw [hdownloads, h.entered, hthreads]

theorem elsewhere (h : s.Owned) (htransfers : t.transfers = s.transfers)
    (hdownloads : t.downloads = s.downloads) (hthreads : t.threads = s.threads) : t.Owned := by
  constructor
  · exact htransfers ▸ h.numbered
  · exact htransfers ▸ h.one
  · exact hthreads ▸ h.exclusive
  · exact hthreads ▸ h.nodup
  · intro θ hθ k hk
    exact (h.claimed θ (hthreads ▸ hθ) k hk).congr (by rw [htransfers])
  · intro k c
    rw [hdownloads, h.entered, hthreads]

end Owned

/-- A node that has just been started owns what it is going to recover. -/
theorem owned_recover {transfers : Transfers} (config : NodeConfig) (sharing : Sharing)
    (hnumbered : transfers.Numbered) (hone : transfers.OnePerContent) :
    (recover config sharing transfers).Owned := by
  have hnodup := hnumbered.nodup_recoverableTransfers
  have hmarked := hnumbered.evolve Transfers.evolves_markRunningInterrupted
  obtain ⟨htransfers, hdownloads, hthreads⟩ := recover_cases config sharing transfers
  have hclaims {θ : Thread} (hθ : θ ∈ (recover config sharing transfers).threads) :
      θ.claims = transfers.recoverableTransfers.2.map TransferRecord.id ∧ θ.entry = none := by
    rcases hthreads with hnil | ⟨transfer, rest, hlist, -, hsingle⟩
    · rw [hnil] at hθ
      cases hθ
    · rw [hsingle] at hθ
      rw [List.mem_singleton.mp hθ, hlist]
      exact ⟨rfl, rfl⟩
  constructor
  · exact htransfers ▸ hmarked
  · exact htransfers ▸ hone.markRunningInterrupted
  · rcases hthreads with hnil | ⟨transfer, rest, -, -, hsingle⟩
    · exact hnil ▸ Exclusive.nil
    · rw [hsingle]
      intro i j θ θ' k hi hj _ _
      have hi := (List.getElem?_eq_some_iff.mp hi).1
      have hj := (List.getElem?_eq_some_iff.mp hj).1
      rw [List.length_singleton] at hi hj
      omega
  · intro θ hθ
    rw [(hclaims hθ).1]
    exact hnodup
  · intro θ hθ k hk
    rw [(hclaims hθ).1, List.mem_map] at hk
    obtain ⟨row, hrow, rfl⟩ := hk
    obtain ⟨k, hrow, hstatus⟩ := Transfers.mem_recoverableTransfers.mp hrow
    obtain rfl := hmarked.id_eq k row hrow
    refine ⟨row, htransfers ▸ hrow, by rw [hstatus]; rfl, fun hp ↦ ?_⟩
    cases hstatus.symm.trans hp
  · intro k c
    rw [hdownloads]
    constructor
    · intro hk
      rw [ExtTreeMap.getElem?_empty] at hk
      cases hk
    · rintro ⟨θ, hθ, hk⟩
      rw [(hclaims hθ).2] at hk
      cases hk

end NodeRuntime

/-! ## Runs without disputes -/

namespace Node

/-- A request that finds a transfer paused, so as to resume it, is the only one on its way to start
a worker for it. -/
def Undisputed : Node → NodeAction → Prop
  | .up s, a => ∀ (i id : ℕ) (row : TransferRecord), a.moves = some i →
      s.threads[i]? = some (.request (.resumeStatus id)) → s.transfers.rows[id]? = some row →
      row.status = .paused → ∀ task, Thread.request task ∈ s.threads → id ∉ task.claims
  | .down .., _ => True

/-- No request has a claim to the transfer. -/
def unrequested (s : NodeRuntime) (id : ℕ) : Bool :=
  s.threads.all fun θ ↦
    match θ with
    | .request task => id ∉ task.claims
    | _ => true

def undisputed (s : NodeRuntime) (a : NodeAction) : Bool :=
  match a.moves.bind fun i ↦ s.threads[i]? with
  | some (.request (.resumeStatus id)) =>
    match s.transfers.rows[id]? with
    | some row => row.status ≠ .paused || unrequested s id
    | none => true
  | _ => true

variable {b : Backend} {s t : NodeRuntime} {a : NodeAction} {node : Node}

theorem unrequested_iff {id : ℕ} :
    unrequested s id ↔ ∀ task, Thread.request task ∈ s.threads → id ∉ task.claims := by
  rw [unrequested, List.all_eq_true]
  constructor
  · intro h task htask
    exact of_decide_eq_true (h _ htask)
  · intro h θ hθ
    rcases θ with task | result | worker | _
    · exact decide_eq_true (h task hθ)
    · rfl
    · rfl
    · rfl

theorem undisputed_iff : undisputed s a ↔ Undisputed (.up s) a := by
  rw [undisputed]
  constructor
  · intro h i id row hi hθ hrow hpaused
    rw [hi, Option.bind_some, hθ] at h
    dsimp only at h
    rw [hrow] at h
    simp only [hpaused, ne_eq, not_true_eq_false, decide_false, Bool.false_or] at h
    exact unrequested_iff.mp h
  · intro h
    split
    · rename_i id hmoves
      obtain ⟨i, hi, hθ⟩ := Option.bind_eq_some_iff.mp hmoves
      split
      · rename_i row hrow
        by_cases hpaused : row.status = .paused
        · rw [unrequested_iff.mpr (h i id row hi hθ hrow hpaused), Bool.or_true]
        · rw [decide_eq_true hpaused, Bool.true_or]
      · rfl
    · rfl

instance decidableUndisputed (node : Node) (a : NodeAction) : Decidable (Undisputed node a) :=
  match node with
  | .down .. => .isTrue trivial
  | .up _ => decidable_of_iff _ undisputed_iff

theorem owned_of_next (h : s.Owned) (ha : Undisputed (.up s) a)
    (hnext : next b (.up s) a = some (.up t)) : t.Owned := by
  rcases NodeRuntime.change_of_next h.numbered hnext with ⟨hi, hθ, heffect, hthreads⟩ |
    ⟨h₁, -, h₂, h₃, h₄⟩ | ⟨h₁, h₂, -, h₃⟩ | ⟨h₁, h₂, -, h₃⟩
  · refine h.effect hθ heffect hthreads fun id row heq hrow hpaused ↦ ?_
    subst heq
    exact ha _ id row hi hθ hrow hpaused
  · exact h.enqueued h₁ h₂ h₃ h₄
  · exact h.progressed h₁ h₂ h₃
  · exact h.elsewhere h₁ h₂ h₃

/-- In a run without disputes every transfer has at most one owner. -/
theorem owned_of_run (hrun : Relation.ReflTransGen (StepIf b Undisputed) new node) :
    node.Holds (fun transfers ↦ transfers.Numbered ∧ transfers.OnePerContent)
      NodeRuntime.Owned := by
  refine holds_of_run ⟨Transfers.numbered_empty, Transfers.onePerContent_empty⟩
    (fun s hs _ ↦ ⟨hs.numbered, hs.one⟩)
    (fun library config sharing transfers h _ _ ↦
      NodeRuntime.owned_recover config sharing h.1 h.2)
    (fun s a t hs ha hnext ↦ owned_of_next hs ha hnext) hrun

end Node

end TripTorrent
