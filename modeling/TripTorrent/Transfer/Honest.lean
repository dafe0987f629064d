import TripTorrent.Transfer.GiveUp

/-!
# Honest providers suffice

A download whose missing chunks are all announced by honest providers completes, whatever the other
providers do. The argument has three parts. `Fleet` says what separates the honest providers from
the rest and who is still there to answer; with the ledger it rules out every error the coordinator
can return. Each result taken from the channel finishes a chunk or retires a provider for good,
which bounds their number. And as long as the coordinator has not returned, some thread can move.
-/

namespace TripTorrent

/-! ## The setting -/

/-- Provider `p` announced the chunk. -/
def Announced (availability : List PieceAvailability) (p : ℕ) (index : UInt32) : Prop :=
  ∃ pieces, availability[p]? = some pieces ∧ pieces.contains index = true

/-- Some member of `H` announced the chunk. -/
def Covered (availability : List PieceAvailability) (H : Set ℕ) (i : ℕ) : Prop :=
  ∃ p ∈ H, Announced availability p (.ofNat i)

/-- A download of built content: the providers in `H` serve it honestly, and between them they have
every chunk that is not completed yet. -/
structure HonestSwarm (blake3 : List UInt8 → Digest) (bytes : List UInt8) (m : Manifest)
    (chunks : List Chunk) (availability : List PieceAvailability) (completed : List Bool)
    (H : Set ℕ) (content : ℕ → ProviderContent) : Prop where
  built : Manifest.fromBytes blake3 bytes = .ok (m, chunks)
  honest : ∀ p ∈ H, ∃ pieces, availability[p]? = some pieces ∧ (content p).Honest m chunks pieces
  covered : ∀ i : ℕ, completed[i]? = some false → Covered availability H i

namespace System

/-- The actions of a run in which the members of `H` answer as their sessions do, the fetch is not
stopped locally, no receive times out and no worker thread panics. -/
def Permitted (H : Set ℕ) (content : ℕ → ProviderContent) (s : System) : Action → Prop
  | .coordinate shouldContinue => shouldContinue = true
  | .timeout => False
  | .receive _ => True
  | .respond slot reply => slot ∈ H → ∀ worker command, s.workers[slot]? = some worker →
      worker.current = some command → reply = (content slot).reply command.index
  | .leave _ => True
  | .panic _ => False

/-- One step of such a run. -/
def HonestStep (blake3 : List UInt8 → Digest) (m : Manifest) (H : Set ℕ)
    (content : ℕ → ProviderContent) (s t : System) : Prop :=
  ∃ action, Permitted H content s action ∧ s.step blake3 m action = some t

end System

/-! ## The fleet -/

/-- What the providers still owe and deserve. -/
structure Fleet (blake3 : List UInt8 → Digest) (m : Manifest)
    (availability : List PieceAvailability) (H : Set ℕ) (scheduler : Scheduler)
    (workers : List Worker) (results : List WorkerResult) : Prop where
  pieces : scheduler.pieces = availability
  covered : ∀ (i : ℕ) c, scheduler.chunks[i]? = some c → c ≠ .complete → Covered availability H i
  honest : ∀ p ∈ H, ∀ state, scheduler.providers[p]? = some state →
    state.active = true ∧ state.rejected = 0
  /-- Nobody is asked for what they did not announce. -/
  wanted : ∀ p, ∀ index ∈ outstanding workers results p, Announced availability p index
  answered : ∀ result ∈ results, result.provider ∈ H →
    ∃ chunk, System.Verified blake3 m result chunk
  /-- A worker that has left its loop owes nothing, and its provider is rejected or about to be. -/
  gone : ∀ p worker, workers[p]? = some worker → worker.status ≠ .running → worker.owed = [] ∧
    ((∃ state, scheduler.providers[p]? = some state ∧ state.active = false) ∨
      ∃ result ∈ results, result.provider = p ∧ ∀ chunk, result.response ≠ .ok chunk)

namespace Fleet

variable {blake3 : List UInt8 → Digest} {bytes : List UInt8} {m : Manifest} {chunks : List Chunk}
  {availability : List PieceAvailability} {completed : List Bool} {H : Set ℕ}
  {content : ℕ → ProviderContent} {scheduler : Scheduler} {workers : List Worker}
  {results : List WorkerResult} {worker : Worker} {result : WorkerResult} {state : ProviderState}
  {slot p : ℕ} {index : UInt32}

theorem getElem?_availability (h : Fleet blake3 m availability H scheduler workers results)
    (hstate : scheduler.providers[p]? = some state) :
    availability[p]? = some state.availability := by
  rw [← h.pieces, Scheduler.pieces, List.getElem?_map, hstate, Option.map_some]

theorem exists_getElem?_providers (h : Fleet blake3 m availability H scheduler workers results)
    {pieces : PieceAvailability} (hpieces : availability[p]? = some pieces) :
    ∃ state, scheduler.providers[p]? = some state ∧ state.availability = pieces := by
  rwa [← h.pieces, Scheduler.pieces, List.getElem?_map, Option.map_eq_some_iff] at hpieces

theorem mem_outstanding_of_mem_results (workers : List Worker) (h : result ∈ results) :
    result.requestedIndex ∈ outstanding workers results result.provider := by
  rw [outstanding, undelivered, List.mem_append, List.mem_map]
  exact .inr ⟨result, List.mem_filter.mpr ⟨h, by simp⟩, rfl⟩

/-- The worker of an idle provider that may be asked is in its loop. -/
theorem running (h : Fleet blake3 m availability H scheduler workers results)
    (hledger : Ledger m scheduler completed workers results)
    (hworker : workers[slot]? = some worker) (hstate : scheduler.providers[slot]? = some state)
    (hactive : state.active = true) (hbusy : state.busy = false) : worker.status = .running := by
  by_contra hstatus
  obtain ⟨-, ⟨state', hstate', hinactive⟩ | ⟨result, hresult, rfl, -⟩⟩ :=
    h.gone slot worker hworker hstatus
  · rw [hstate] at hstate'
    obtain rfl := Option.some.inj hstate'
    simp [hactive] at hinactive
  · have hmem := mem_outstanding_of_mem_results workers hresult
    rw [(hledger.holds_none hstate hbusy).1] at hmem
    simp at hmem

/-- An honest provider's answer verifies. -/
theorem verified_reply (hswarm : HonestSwarm blake3 bytes m chunks availability completed H content)
    (hp : p ∈ H) (hindex : index.toNat < m.chunks.length)
    (hannounced : Announced availability p index) :
    System.Verified blake3 m
      { provider := p
        requestedIndex := index
        response := workerResponse index ((content p).reply index) }
      (Chunk.ofSlice blake3 bytes index.toNat) := by
  obtain ⟨pieces, hpieces, hhonest⟩ := hswarm.honest p hp
  obtain ⟨pieces', hpieces', hcontains⟩ := hannounced
  rw [hpieces] at hpieces'
  obtain rfl := Option.some.inj hpieces'
  refine ⟨hhonest.workerResponse_reply hswarm.built hindex hcontains, ?_,
    Manifest.verifyChunk_ofSlice hswarm.built hindex⟩
  rw [← UInt32.toNat_inj]
  exact Manifest.index_ofSlice hswarm.built hindex

theorem send (command : FetchCommand) (h : Fleet blake3 m availability H scheduler workers results)
    (hworker : workers[slot]? = some worker) (hrunning : worker.status = .running)
    (hstate : scheduler.providers[slot]? = some state)
    (hmissing : scheduler.chunks[command.index.toNat]? = some .missing)
    (hpiece : state.availability.contains command.index = true) :
    Fleet blake3 m availability H (scheduler.claim slot command.index.toNat)
      (workers.set slot { worker with commands := worker.commands ++ [command] }) results where
  pieces := by rw [Scheduler.pieces_claim, h.pieces]
  covered i c hc hne := by
    by_cases hi : command.index.toNat = i
    · subst hi
      exact h.covered _ _ hmissing (by simp)
    · rw [Scheduler.getElem?_chunks_claim_of_ne hi] at hc
      exact h.covered i c hc hne
  honest p hp st hst := by
    obtain ⟨old, hold, rfl⟩ := Scheduler.getElem?_modify_eq_some_iff.mp hst
    have := h.honest p hp old hold
    split_ifs
    · exact this
    · exact this
  wanted p index hindex := by
    by_cases hp : slot = p
    · subst hp
      have hmem : index ∈ outstanding workers results slot ∨ index = command.index := by
        rw [outstanding_set_self hworker] at hindex
        rw [outstanding_eq hworker]
        simp only [Worker.owed, List.map_append, List.mem_append, List.map_cons, List.map_nil,
          List.mem_singleton] at hindex ⊢
        tauto
      rcases hmem with hmem | rfl
      · exact h.wanted slot index hmem
      · exact ⟨_, h.getElem?_availability hstate, hpiece⟩
    · rw [outstanding_set_of_ne hp] at hindex
      exact h.wanted p index hindex
  answered := h.answered
  gone p w hw hstatus := by
    rcases Transition.replaced_or_unchanged hw with ⟨rfl, rfl⟩ | ⟨hp, hw⟩
    · exact absurd hrunning hstatus
    · obtain ⟨howed, hreason⟩ := h.gone p w hw hstatus
      refine ⟨howed, hreason.imp_left ?_⟩
      rintro ⟨st, hst, hinactive⟩
      exact ⟨st, (List.getElem?_modify_ne _ _ hp).trans hst, hinactive⟩

theorem accept {chunk : Chunk}
    (h : Fleet blake3 m availability H scheduler workers (result :: results))
    (hledger : Ledger m scheduler completed workers (result :: results))
    (hverified : System.Verified blake3 m result chunk) :
    Fleet blake3 m availability H (scheduler.deliver result.provider result.requestedIndex.toNat)
      workers results where
  pieces := by rw [Scheduler.pieces_deliver, h.pieces]
  covered i c hc hne := by
    by_cases hi : result.requestedIndex.toNat = i
    · subst hi
      rw [Scheduler.getElem?_chunks_deliver_self ((hledger.holds_result.1.marks _).mpr rfl)] at hc
      exact absurd (Option.some.inj hc).symm hne
    · rw [Scheduler.getElem?_chunks_deliver_of_ne hi] at hc
      exact h.covered i c hc hne
  honest p hp st hst := by
    obtain ⟨old, hold, rfl⟩ := Scheduler.getElem?_modify_eq_some_iff.mp hst
    have := h.honest p hp old hold
    split_ifs
    · exact this
    · exact this
  wanted p index hindex := by
    by_cases hp : result.provider = p
    · subst hp
      simp [hledger.holds_result.2] at hindex
    · rw [Ledger.outstanding_tail hp] at hindex
      exact h.wanted p index hindex
  answered r hr := h.answered r (List.mem_cons_of_mem _ hr)
  gone p w hw hstatus := by
    obtain ⟨howed, hreason⟩ := h.gone p w hw hstatus
    refine ⟨howed, ?_⟩
    rcases hreason with ⟨st, hst, hinactive⟩ | ⟨r, hr, rfl, hfailed⟩
    · refine .inl ⟨if result.provider = p then
        { st with busy := false, accepted := st.accepted + 1 } else st,
        Scheduler.getElem?_modify_eq_some_iff.mpr ⟨st, hst, rfl⟩, ?_⟩
      split_ifs
      · exact hinactive
      · exact hinactive
    · rcases List.mem_cons.mp hr with rfl | hr
      · exact absurd hverified.1 (hfailed chunk)
      · exact .inr ⟨r, hr, rfl, hfailed⟩

theorem reject (h : Fleet blake3 m availability H scheduler workers (result :: results))
    (hledger : Ledger m scheduler completed workers (result :: results))
    (hverified : ∀ chunk, ¬System.Verified blake3 m result chunk) :
    Fleet blake3 m availability H (scheduler.reject result.provider) workers results where
  pieces := by rw [Scheduler.pieces_reject, h.pieces]
  covered i c hc hne := by
    rcases Scheduler.getElem?_chunks_reject_eq_some_iff.mp hc with ⟨hc, -⟩ | ⟨hc, -⟩
    · exact h.covered i _ hc (by simp)
    · exact h.covered i c hc hne
  honest p hp st hst := by
    obtain ⟨old, hold, rfl⟩ := Scheduler.getElem?_modify_eq_some_iff.mp hst
    rw [if_neg]
    · exact h.honest p hp old hold
    · -- an honest provider's result would have verified
      rintro rfl
      obtain ⟨chunk, hchunk⟩ := h.answered result List.mem_cons_self hp
      exact hverified chunk hchunk
  wanted p index hindex := by
    by_cases hp : result.provider = p
    · subst hp
      simp [hledger.holds_result.2] at hindex
    · rw [Ledger.outstanding_tail hp] at hindex
      exact h.wanted p index hindex
  answered r hr := h.answered r (List.mem_cons_of_mem _ hr)
  gone p w hw hstatus := by
    obtain ⟨howed, hreason⟩ := h.gone p w hw hstatus
    refine ⟨howed, ?_⟩
    by_cases hp : result.provider = p
    · subst hp
      obtain ⟨st, hst⟩ : ∃ st, scheduler.providers[result.provider]? = some st :=
        ⟨_, List.getElem?_eq_getElem (hledger.holds_result.1.known rfl)⟩
      exact .inl ⟨_, Scheduler.getElem?_modify_eq_some_iff.mpr ⟨st, hst, rfl⟩, by simp⟩
    · rcases hreason with ⟨st, hst, hinactive⟩ | ⟨r, hr, rfl, hfailed⟩
      · exact .inl ⟨st, (List.getElem?_modify_ne _ _ hp).trans hst, hinactive⟩
      · rcases List.mem_cons.mp hr with rfl | hr
        · exact absurd rfl hp
        · exact .inr ⟨r, hr, rfl, hfailed⟩

/-- A worker's step that answers nothing. -/
theorem congr_worker {worker' : Worker}
    (h : Fleet blake3 m availability H scheduler workers results)
    (hworker : workers[slot]? = some worker)
    (howed : ∀ p, outstanding (workers.set slot worker') results p = outstanding workers results p)
    (hgone : worker'.status ≠ .running → worker.status ≠ .running ∧ worker'.owed = worker.owed) :
    Fleet blake3 m availability H scheduler (workers.set slot worker') results where
  pieces := h.pieces
  covered := h.covered
  honest := h.honest
  wanted p index hindex := h.wanted p index (by rwa [howed] at hindex)
  answered := h.answered
  gone p w hw hstatus := by
    rcases Transition.replaced_or_unchanged hw with ⟨rfl, rfl⟩ | ⟨-, hw⟩
    · obtain ⟨hstatus, heq⟩ := hgone hstatus
      rw [heq]
      exact h.gone slot worker hworker hstatus
    · exact h.gone p w hw hstatus

theorem respond {commands : List FetchCommand} {command : FetchCommand}
    {reply : Except SessionFailure Message}
    (h : Fleet blake3 m availability H scheduler workers results)
    (hswarm : HonestSwarm blake3 bytes m chunks availability completed H content)
    {flags : List Bool} (hledger : Ledger m scheduler flags workers results)
    (hworker : workers[slot]? = some ⟨commands, some command, .running⟩)
    (hreply : slot ∈ H → reply = (content slot).reply command.index) :
    Fleet blake3 m availability H scheduler
      (workers.set slot ⟨commands, none,
        if (workerResponse command.index reply).isOk then .running else .leaving⟩)
      (results ++ [{
        provider := slot
        requestedIndex := command.index
        response := workerResponse command.index reply }]) := by
  have hmem : command.index ∈ outstanding workers results slot := by
    rw [outstanding_eq hworker]
    simp [Worker.owed]
  obtain ⟨howed, hholds⟩ := hledger.holds_of_mem hmem
  refine ⟨h.pieces, h.covered, h.honest, fun p index hindex ↦ ?_, fun result hresult hp ↦ ?_,
    fun p w hw hstatus ↦ ?_⟩
  · rw [hledger.outstanding_respond hworker] at hindex
    exact h.wanted p index hindex
  · rcases List.mem_append.mp hresult with hresult | hresult
    · exact h.answered result hresult hp
    · obtain rfl := List.mem_singleton.mp hresult
      have hindex : command.index.toNat < m.chunks.length := by
        rw [← hledger.length_chunks]
        exact (List.getElem?_eq_some_iff.mp ((hholds.marks _).mpr rfl)).1
      simp only [hreply hp]
      exact ⟨_, verified_reply hswarm hp hindex (h.wanted slot _ hmem)⟩
  · rcases Transition.replaced_or_unchanged hw with ⟨rfl, rfl⟩ | ⟨-, hw⟩
    · -- the command just answered was the only one, so a worker that leaves owes nothing
      have hcommands : commands = [] := by
        rw [outstanding_eq hworker] at howed
        have : commands = [] ∧ undelivered results slot = [] := by simpa [Worker.owed] using howed
        exact this.1
      refine ⟨by simp [Worker.owed, hcommands], .inr ⟨_, List.mem_append_right _ List.mem_cons_self,
        rfl, fun chunk hchunk ↦ hstatus ?_⟩⟩
      have hok : workerResponse command.index reply = .ok chunk := hchunk
      simp only [hok]
      rfl
    · obtain ⟨hnone, hreason⟩ := h.gone p w hw hstatus
      refine ⟨hnone, hreason.imp_right ?_⟩
      rintro ⟨result, hresult, hrest⟩
      exact ⟨result, List.mem_append_left _ hresult, hrest⟩

theorem start (hswarm : HonestSwarm blake3 bytes m chunks availability completed H content)
    (hnew : Scheduler.new m.chunks.length availability completed = .ok scheduler) :
    Fleet blake3 m availability H scheduler
      (System.start scheduler completed availability.length).workers [] := by
  have hledger := Ledger.start hnew
  have hholds := Scheduler.holds_new hnew
  obtain ⟨-, -, -, rfl⟩ := Scheduler.new_eq_ok_iff.mp hnew
  refine ⟨?_, fun i c hc hne ↦ hswarm.covered i ?_, fun p _ state hstate ↦ ?_,
    fun p index hindex ↦ ?_, by simp, fun p w hw hstatus ↦ ?_⟩
  · rw [Scheduler.pieces, List.map_map]
    exact List.map_id _
  · rw [List.getElem?_map, Option.map_eq_some_iff] at hc
    obtain ⟨done, hdone, rfl⟩ := hc
    cases done with
    | true => simp at hne
    | false => exact hdone
  · rw [List.getElem?_map, Option.map_eq_some_iff] at hstate
    obtain ⟨pieces, -, rfl⟩ := hstate
    exact ⟨rfl, rfl⟩
  · have hnone := (hholds p).marks index.toNat
    have hmark := ((hledger.holds_of_mem hindex).2.marks index.toNat).mpr rfl
    simp [hmark] at hnone
  · rw [System.start, List.getElem?_replicate] at hw
    split_ifs at hw
    obtain rfl := Option.some.inj hw
    exact absurd rfl hstatus

/-- Every missing chunk has an honest source, which is always still active. -/
theorem exists_source (h : Fleet blake3 m availability H scheduler workers results)
    (hfit : scheduler.chunks.length < 2 ^ 32) {i : ℕ} (hi : scheduler.chunks[i]? = some .missing) :
    ∃ p ∈ H, ∃ state, scheduler.providers[p]? = some state ∧ state.active = true ∧
      state.availability.contains (saturateU32 i) = true := by
  obtain ⟨p, hp, pieces, hpieces, hcontains⟩ := h.covered i _ hi (by simp)
  obtain ⟨state, hstate, rfl⟩ := h.exists_getElem?_providers hpieces
  have hlt : i < 2 ^ 32 := (List.getElem?_eq_some_iff.mp hi).1.trans hfit
  refine ⟨p, hp, state, hstate, (h.honest p hp state hstate).1, ?_⟩
  rwa [saturateU32, min_eq_left (by omega)]

theorem canFinish (h : Fleet blake3 m availability H scheduler workers results)
    (hfit : scheduler.chunks.length < 2 ^ 32) : scheduler.canFinish = true := by
  refine Scheduler.canFinish_iff.mpr fun i hi ↦ Scheduler.sourceCount_pos_iff.mpr ?_
  obtain ⟨p, -, state, hstate, hactive, hcontains⟩ := h.exists_source hfit hi
  exact ⟨state, List.mem_of_getElem? hstate, hactive, hcontains⟩

end Fleet

/-! ## Runs of an honest swarm -/

namespace System

/-- What holds along every run of an honest swarm. -/
structure Healthy (blake3 : List UInt8 → Digest) (m : Manifest)
    (availability : List PieceAvailability) (H : Set ℕ) (bound : ℕ) (s : System) : Prop where
  consistent : s.Consistent m
  fleet : Fleet blake3 m availability H s.scheduler s.workers s.results
  unfailed : ¬s.Failed
  /-- Until something is assigned in a pass, the slots passed had nothing to be asked for. -/
  scanned : ∀ slot, s.phase = .assigning slot false → ∀ p < slot, ∀ state,
    s.scheduler.providers[p]? = some state → state.active = true → state.busy = false →
      s.scheduler.candidates state.availability = []
  account : s.consumed + (s.scheduler.unfinished + s.scheduler.activeCount) ≤ bound

section Runs

variable {blake3 : List UInt8 → Digest} {bytes : List UInt8} {m : Manifest} {chunks : List Chunk}
  {availability : List PieceAvailability} {completed : List Bool} {H : Set ℕ}
  {content : ℕ → ProviderContent} {bound : ℕ} {s t : System} {action : Action}

namespace Healthy

/-- A chunk that is neither complete nor in flight can be asked for: the pass over the workers does
not end empty-handed. -/
theorem not_giveUp (h : Healthy blake3 m availability H bound s)
    (hfit : s.scheduler.chunks.length < 2 ^ 32) {slot : ℕ}
    (hphase : s.phase = .assigning slot false) (hslot : s.workers.length ≤ slot)
    (hcomplete : s.scheduler.isComplete = false) :
    s.scheduler.hasInFlight = true := by
  by_contra hidle
  rw [Bool.not_eq_true] at hidle
  have hfinish := Scanned.canFinish_eq_false h.scanned h.consistent.agrees hphase hslot hcomplete
    hidle
  rw [h.fleet.canFinish hfit] at hfinish
  cases hfinish

/-- **No error is reachable.** -/
theorem not_failed (h : Healthy blake3 m availability H bound s)
    (hshape : m.validateShape = .ok ()) (hpermitted : Permitted H content s action)
    (hmoves : Moves blake3 m s action t) : ¬t.Failed := by
  have hagrees := h.consistent.agrees
  have hfit : s.scheduler.chunks.length < 2 ^ 32 := by
    rw [hagrees.length_chunks]
    exact length_chunks_lt hshape
  cases hmoves with
  | finish | enter | skip | unsent | send | block | accept | reject => simp [Failed]
  | receive | respond | leave => exact h.unfailed
  | stop => cases hpermitted
  | timeout => cases hpermitted
  | panic => cases hpermitted
  | misplaced _ hindex herror _ =>
    have hlt := (List.getElem?_eq_some_iff.mp hindex).1
    rw [hagrees.length_chunks] at hlt
    rw [expectedChunkLength_eq_ok hshape hlt] at herror
    cases herror
  | giveUp hphase hslot hcomplete hinFlight =>
    rw [h.not_giveUp hfit hphase hslot hcomplete] at hinFlight
    cases hinFlight
  | refused _ hresults hverified haccept _ =>
    rw [Agrees, hresults] at hagrees
    rw [hverified.2.1, hagrees.accept_eq_ok] at haccept
    cases haccept
  | abandon _ hresults hverified hfinish _ =>
    have hfleet := h.fleet
    rw [hresults] at hfleet
    rw [Agrees, hresults] at hagrees
    rw [(hfleet.reject hagrees hverified).canFinish (by simpa using hfit)] at hfinish
    cases hfinish
  | misreported _ hlength herror _ =>
    obtain ⟨report, hreport⟩ := exists_reportVerifiedProgress_eq_ok hshape
      (hlength.trans hagrees.length_completed) _ _ _
    rw [hreport] at herror
    cases herror
  | disconnected hphase hresults hexited =>
    -- all senders are gone, but a command is outstanding and its worker would have had to answer it
    obtain ⟨p, hp⟩ := h.consistent.waiting hphase
    rw [outstanding, hresults] at hp
    cases hworker : s.workers[p]? with
    | none => simp [hworker, undelivered] at hp
    | some worker =>
      have hstatus := hexited worker (List.mem_of_getElem? hworker)
      have howed := (h.fleet.gone p worker hworker (by simp [hstatus])).1
      simp [hworker, undelivered, howed] at hp

/-- The provider of a result is still active when the result is taken. -/
theorem activeCount_reject {result : WorkerResult} {results : List WorkerResult}
    (h : Healthy blake3 m availability H bound s) (hresults : s.results = result :: results) :
    (s.scheduler.reject result.provider).activeCount + 1 = s.scheduler.activeCount := by
  have hagrees := h.consistent.agrees
  rw [Agrees, hresults] at hagrees
  have hholds := hagrees.holds_result.1
  have hstate := List.getElem?_eq_getElem (hholds.known rfl)
  exact Scheduler.activeCount_reject hstate (hholds.active _ hstate rfl)

/-- Accepting the head of the channel finishes a chunk. -/
theorem unfinished_deliver {result : WorkerResult} {results : List WorkerResult}
    (h : Healthy blake3 m availability H bound s) (hresults : s.results = result :: results) :
    (s.scheduler.deliver result.provider result.requestedIndex.toNat).unfinished + 1 =
      s.scheduler.unfinished := by
  have hagrees := h.consistent.agrees
  rw [Agrees, hresults] at hagrees
  exact Scheduler.unfinished_deliver ((hagrees.holds_result.1.marks _).mpr rfl)

theorem moves (h : Healthy blake3 m availability H bound s)
    (hswarm : HonestSwarm blake3 bytes m chunks availability completed H content)
    (hpermitted : Permitted H content s action) (hmoves : Moves blake3 m s action t) :
    Healthy blake3 m availability H bound t := by
  have hshape := Manifest.validateShape_of_fromBytes hswarm.built
  have hunfailed := h.not_failed hshape hpermitted hmoves
  have hconsistent := (h.consistent.moves hmoves).resolve_left hunfailed
  have hagrees := h.consistent.agrees
  have hscanned : t.Scanned := Scanned.moves h.scanned hagrees hmoves
  cases hmoves with
  | stop | giveUp | disconnected => exact absurd ⟨_, rfl⟩ hunfailed
  | misplaced _ _ _ ht | refused _ _ _ _ ht | abandon _ _ _ _ ht | misreported _ _ _ ht =>
    exact absurd ⟨_, ht⟩ hunfailed
  | timeout => cases hpermitted
  | panic => cases hpermitted
  | finish | enter | skip | block => exact ⟨hconsistent, h.fleet, hunfailed, hscanned, h.account⟩
  | unsent hphase hworker hstate hactive hbusy hindex hexited =>
    -- only a worker that has left refuses a command
    rw [h.fleet.running hagrees hworker hstate hactive hbusy] at hexited
    cases hexited
  | send hphase hworker hstate hactive hbusy hindex hpiece hopen =>
    have hrunning := h.fleet.running hagrees hworker hstate hactive hbusy
    refine ⟨hconsistent, h.fleet.send ⟨_, _⟩ hworker hrunning hstate hindex hpiece, hunfailed,
      hscanned, ?_⟩
    rw [Scheduler.unfinished_claim hindex, Scheduler.activeCount_claim]
    exact h.account
  | accept hphase hresults hverified =>
    have hcount := h.unfinished_deliver hresults
    have hfleet := h.fleet
    have haccount := h.account
    rw [hresults] at hfleet
    rw [Agrees, hresults] at hagrees
    refine ⟨hconsistent, ?_, hunfailed, hscanned, ?_⟩
    · rw [hverified.2.1]
      exact hfleet.accept hagrees hverified
    · rw [hverified.2.1, Scheduler.activeCount_deliver]
      dsimp only
      omega
  | reject hphase hresults hverified =>
    have hcount := h.activeCount_reject hresults
    have hfleet := h.fleet
    have haccount := h.account
    rw [hresults] at hfleet
    rw [Agrees, hresults] at hagrees
    refine ⟨hconsistent, hfleet.reject hagrees hverified, hunfailed, hscanned, ?_⟩
    rw [Scheduler.unfinished_reject]
    dsimp only
    omega
  | receive hworker =>
    exact ⟨hconsistent, h.fleet.congr_worker hworker (outstanding_receive hworker) (by simp),
      hunfailed, hscanned, h.account⟩
  | respond hworker =>
    exact ⟨hconsistent,
      h.fleet.respond hswarm hagrees hworker fun hp ↦ hpermitted hp _ _ hworker rfl,
      hunfailed, hscanned, h.account⟩
  | leave hworker hstatus =>
    exact ⟨hconsistent, h.fleet.congr_worker hworker (outstanding_set_status hworker _)
      fun _ ↦ ⟨by simp [hstatus], rfl⟩, hunfailed, hscanned, h.account⟩

theorem step (hswarm : HonestSwarm blake3 bytes m chunks availability completed H content)
    (h : Healthy blake3 m availability H bound s)
    (hstep : HonestStep blake3 m H content s t) : Healthy blake3 m availability H bound t := by
  obtain ⟨action, hpermitted, hstep⟩ := hstep
  have hfit := length_chunks_lt (Manifest.validateShape_of_fromBytes hswarm.built)
  exact h.moves hswarm hpermitted (moves_of_consistent hfit (.inr h.consistent) hstep)

end Healthy

/-! ## Termination -/

/-- How many steps the coordinator is away from its next receive, with room for the two steps each
command it sends will cost a worker. -/
def distance (workerCount : ℕ) : Phase → ℕ
  | .head => 3 * workerCount + 3
  | .assigning slot _ => 3 * (workerCount - slot) + 2
  | .waiting => 1
  | .returned _ => 0

/-- How many steps a worker can take on its own. -/
def workLeft (worker : Worker) : ℕ :=
  2 * worker.commands.length + worker.current.toList.length +
    if worker.status = .exited then 0 else 1

/-- Every step of an honest swarm decreases this. -/
def remaining (s : System) : ℕ :=
  (3 * s.workers.length + 3) * (s.scheduler.unfinished + s.scheduler.activeCount) +
    distance s.workers.length s.phase + (s.workers.map workLeft).sum

theorem Healthy.remaining_lt (h : Healthy blake3 m availability H bound s)
    (hshape : m.validateShape = .ok ()) (hpermitted : Permitted H content s action)
    (hmoves : Moves blake3 m s action t) : t.remaining < s.remaining := by
  have hunfailed := h.not_failed hshape hpermitted hmoves
  rw [remaining, remaining]
  cases hmoves with
  | stop | giveUp | disconnected => exact absurd ⟨_, rfl⟩ hunfailed
  | misplaced _ _ _ ht | refused _ _ _ _ ht | abandon _ _ _ _ ht | misreported _ _ _ ht =>
    exact absurd ⟨_, ht⟩ hunfailed
  | timeout => cases hpermitted
  | panic => cases hpermitted
  | finish hphase =>
    have hpos : 0 < distance s.workers.length s.phase := by
      cases hs : s.phase with
      | returned outcome => exact absurd hs (hphase outcome)
      | _ => simp [distance]
    have hzero : distance s.workers.length (.returned (.ok ())) = 0 := rfl
    dsimp only
    omega
  | enter hphase =>
    simp only [hphase, distance]
    omega
  | skip hphase hslot =>
    simp only [hphase, distance]
    omega
  | unsent hphase hworker hstate hactive hbusy hindex hexited =>
    rw [h.fleet.running h.consistent.agrees hworker hstate hactive hbusy] at hexited
    cases hexited
  | @send _ slot _ worker _ index expectedBytes hphase hworker hstate hactive hbusy hindex =>
    -- the coordinator comes three closer to its receive and gives the worker two steps to do
    have hslot := (List.getElem?_eq_some_iff.mp hworker).1
    have hsum := Transition.sum_map_set workLeft hworker
      (b := { worker with commands := worker.commands ++ [{ index, expectedBytes }] })
    rw [Scheduler.unfinished_claim hindex, Scheduler.activeCount_claim]
    simp only [hphase, distance, List.length_set]
    simp only [workLeft, List.length_append, List.length_singleton] at hsum
    omega
  | block hphase =>
    simp only [hphase, distance]
    omega
  | accept hphase hresults hverified =>
    -- back at the loop head, but with one chunk less to do
    rw [hverified.2.1, ← h.unfinished_deliver hresults]
    simp only [hphase, distance, Scheduler.activeCount_deliver, mul_add]
    omega
  | reject hphase hresults =>
    rw [← h.activeCount_reject hresults]
    simp only [hphase, distance, Scheduler.unfinished_reject, mul_add]
    omega
  | @receive slot command commands hworker =>
    have hsum := Transition.sum_map_set workLeft hworker (b := ⟨commands, some command, .running⟩)
    simp only [workLeft, List.length_cons, Option.toList_none, Option.toList_some,
      List.length_nil] at hsum
    simp only [List.length_set]
    omega
  | @respond slot reply command commands hworker =>
    have hsum := Transition.sum_map_set workLeft hworker (b := ⟨commands, none,
      if (workerResponse command.index reply).isOk then .running else .leaving⟩)
    have hstatus : (if (workerResponse command.index reply).isOk then WorkerStatus.running
        else .leaving) ≠ .exited := by
      split_ifs <;> simp
    simp only [workLeft, if_neg hstatus, reduceCtorEq, ↓reduceIte, List.length_cons,
      Option.toList_none, Option.toList_some, List.length_nil] at hsum
    simp only [List.length_set]
    omega
  | @leave slot worker hworker hstatus =>
    have hsum := Transition.sum_map_set workLeft hworker (b := { worker with status := .exited })
    simp only [workLeft, hstatus, reduceCtorEq, ↓reduceIte] at hsum
    simp only [List.length_set]
    omega

theorem exists_honestStep {a : Action} (hpermitted : Permitted H content s a)
    (henabled : (s.step blake3 m a).isSome = true) : ∃ t, HonestStep blake3 m H content s t := by
  obtain ⟨t, ht⟩ := Option.isSome_iff_exists.mp henabled
  exact ⟨t, a, hpermitted, ht⟩

/-- As long as the coordinator has not returned, some thread can move. -/
theorem Healthy.exists_step (h : Healthy blake3 m availability H bound s)
    (content : ℕ → ProviderContent) (hphase : ∀ outcome, s.phase ≠ .returned outcome) :
    ∃ t, HonestStep blake3 m H content s t := by
  have hcoordinate (henabled : (s.coordinate blake3 m true).isSome = true) :
      ∃ t, HonestStep blake3 m H content s t :=
    exists_honestStep (a := .coordinate true) rfl henabled
  cases hs : s.phase with
  | returned outcome => exact absurd hs (hphase outcome)
  | head => exact hcoordinate (by simp [coordinate, hs])
  | assigning slot assigned =>
    refine hcoordinate ?_
    cases hworker : s.workers[slot]? <;> simp [coordinate, hs, hworker]
  | waiting =>
    cases hresults : s.results with
    | cons result results => exact hcoordinate (by simp [coordinate, hs, hresults])
    | nil =>
      obtain ⟨p, hp⟩ := h.consistent.waiting hs
      rw [outstanding, hresults] at hp
      cases hworker : s.workers[p]? with
      | none => simp [hworker, undelivered] at hp
      | some worker =>
        -- the command is still with the worker, which therefore is in its loop
        have howed : worker.owed ≠ [] := by simpa [hworker, undelivered] using hp
        have hstatus : worker.status = .running := by
          by_contra hstatus
          exact howed (h.fleet.gone p worker hworker hstatus).1
        obtain ⟨commands, current, status⟩ := worker
        obtain rfl : status = .running := hstatus
        cases current with
        | some command =>
          refine exists_honestStep (a := .respond p ((content p).reply command.index)) ?_
            (by simp [System.step, hworker])
          intro _ worker' command' hworker' hcommand
          rw [hworker] at hworker'
          obtain rfl := Option.some.inj hworker'
          obtain rfl := Option.some.inj hcommand
          rfl
        | none =>
          cases commands with
          | nil => simp [Worker.owed] at howed
          | cons command commands =>
            exact exists_honestStep (a := .receive p) trivial (by simp [System.step, hworker])

theorem healthy_start {scheduler : Scheduler}
    (hswarm : HonestSwarm blake3 bytes m chunks availability completed H content)
    (hnew : Scheduler.new m.chunks.length availability completed = .ok scheduler) :
    Healthy blake3 m availability H (completed.count false + availability.length)
      (System.start scheduler completed availability.length) := by
  refine ⟨consistent_start hnew, Fleet.start hswarm hnew, by simp [Failed, start],
    by simp [start], ?_⟩
  obtain ⟨-, -, -, rfl⟩ := Scheduler.new_eq_ok_iff.mp hnew
  refine le_of_eq ?_
  rw [start, Nat.zero_add, Scheduler.unfinished, Scheduler.activeCount, List.countP_map,
    List.countP_map]
  congr 1
  · refine List.countP_congr fun done _ ↦ ?_
    cases done <;> simp
  · exact List.countP_eq_length.mpr fun _ _ ↦ rfl

/-- **Honest providers suffice.** Every maximal run ends with the download returning success, after
taking at most one result per missing chunk and provider from the channel, and no honest provider
is ever rejected. -/
theorem honest_providers_suffice {scheduler : Scheduler}
    (hswarm : HonestSwarm blake3 bytes m chunks availability completed H content)
    (hnew : Scheduler.new m.chunks.length availability completed = .ok scheduler) :
    Transition.Inevitable (HonestStep blake3 m H content)
      (fun s ↦ s.phase = .returned (.ok ()) ∧
        s.consumed ≤ completed.count false + availability.length)
      (System.start scheduler completed availability.length) ∧
    ∀ s, Relation.ReflTransGen (HonestStep blake3 m H content)
        (System.start scheduler completed availability.length) s →
      ∀ p ∈ H, ∀ state, s.scheduler.providers[p]? = some state →
        state.rejected = 0 ∧ state.active = true := by
  have hshape := Manifest.validateShape_of_fromBytes hswarm.built
  have hstart := healthy_start hswarm hnew
  refine ⟨Transition.inevitable_of_measure remaining (fun _ _ ↦ Healthy.step hswarm) ?_ ?_ hstart,
    fun s hrun p hp state hstate ↦ ?_⟩
  · rintro s t hs ⟨action, hpermitted, hstep⟩
    exact hs.remaining_lt hshape hpermitted
      (moves_of_consistent (length_chunks_lt hshape) (.inr hs.consistent) hstep)
  · intro s hs hopen
    refine hs.exists_step content fun outcome houtcome ↦ ?_
    cases outcome with
    | error error => exact hs.unfailed ⟨error, houtcome⟩
    | ok _ => exact hopen ⟨houtcome, (Nat.le_add_right _ _).trans hs.account⟩
  · have hs := Transition.invariant (I := Healthy blake3 m availability H _)
      (fun _ _ ↦ Healthy.step hswarm) hstart hrun
    exact (hs.fleet.honest p hp state hstate).symm

end Runs

/-- What both providers of the published payload would serve if they were honest. -/
def Failover.content : ProviderContent where
  manifest := Vectors.payloadManifest
  chunks := [Vectors.payloadChunk]
  availability := pieces
  corruptChunks := []

/-- The published payload, announced by two providers of which only the second is honest. -/
theorem honest_providers_suffice_payload :
    Transition.Inevitable
      (HonestStep Vectors.payloadHash Vectors.payloadManifest {1} fun _ ↦ Failover.content)
      (fun s ↦ s.phase = .returned (.ok ()) ∧ s.consumed ≤ 3)
      (System.start Failover.scheduler [false] 2) := by
  have hswarm : HonestSwarm Vectors.payloadHash Vectors.payload Vectors.payloadManifest
      [Vectors.payloadChunk] [Failover.pieces, Failover.pieces] [false] {1}
      fun _ ↦ Failover.content := by
    refine ⟨by decide +kernel, ?_, fun i hi ↦ ?_⟩
    · rintro p rfl
      exact ⟨Failover.pieces, rfl, rfl, rfl, rfl, by simp [Failover.content]⟩
    · obtain rfl : i = 0 := by simpa using (List.getElem?_eq_some_iff.mp hi).1
      exact ⟨1, rfl, Failover.pieces, rfl, by decide +kernel⟩
  exact (honest_providers_suffice hswarm (by decide +kernel)).1

end System

end TripTorrent
