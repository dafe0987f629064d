import TripTorrent.Transfer.Recovery

/-!
# Runs of a download with crashes

A run opens a download, writes chunks to it, stops and opens it again, and may crash inside any of
its calls. Every disk such a run leaves is resumable in the sense of `Resumable`. Whether the next
`open` succeeds is then decided by whether the crash struck while just one of the two files was
there, and the operations after which this is so are listed in `Exposed`.
-/

namespace TripTorrent

open Storage

/-! ## The flags of a download of known content -/

/-- The recorded slots are those of the content. -/
def Matches (m : Manifest) (content : List UInt8) : List Bool → List UInt8 → Prop :=
  Recorded m fun i data ↦ data = Codec.slice chunkSize content i

section Content

variable {blake3 : List UInt8 → Digest} {content : List UInt8} {m : Manifest}
  {chunks : List Chunk} {chunk : Chunk}

theorem meaning_matches (hm : Manifest.fromBytes blake3 content = .ok (m, chunks)) :
    Meaning blake3 m (Matches m content) := by
  refine ⟨fun completed bytes h ↦ ?_, recorded_fresh m _⟩
  refine ⟨h.length_completed, h.length_bytes, fun i hi ↦ ?_⟩
  have hlt : i < m.chunks.length := h.length_completed ▸ (List.getElem?_eq_some_iff.mp hi).1
  have hchunk := Manifest.verifyChunk_eq_ok_iff.mp (Manifest.verifyChunk_ofSlice hm hlt)
  rw [Manifest.index_ofSlice hm hlt] at hchunk
  rw [h.holds i hi, hchunk.1]
  rfl

/-- A chunk of the content may be written. -/
theorem accepts_matches (hm : Manifest.fromBytes blake3 content = .ok (m, chunks))
    (hindex : chunk.index.toNat < m.chunks.length)
    (hdata : chunk.data = Codec.slice chunkSize content chunk.index.toNat) :
    Accepts (Matches m content) chunk := by
  have hshape := Manifest.validateShape_of_fromBytes hm
  refine accepts_recorded hshape hindex ?_ hdata
  rw [expectedChunkLength_eq_ok hshape hindex, hdata, Codec.length_slice, min_comm,
    Manifest.length_of_fromBytes hm]

end Content

/-! ## Runs -/

/-- A call, with what may differ between calls of one download. -/
inductive Call where
  | openAt (fails : Bool)
  | writeVerifiedChunk (fails : Bool) (chunk : Chunk)
  | finish (fails : Bool) (contentId : ContentId)

section Runs

variable (rt : Runtime) (output : String) (m : Manifest) (Offered : Set Chunk)

/-- A call is cut short after `k` operations; the session is lost. -/
inductive Interrupted : Option ResumeDownload → Disk String → Call → ℕ → Disk String → Prop
  | openAt (d : Disk String) (fails : Bool) (k : ℕ) :
    Interrupted none d (.openAt fails) k ((ResumeDownload.openAt rt fails output m).cut d k)
  | writeVerifiedChunk (resume : ResumeDownload) (d : Disk String) (fails : Bool) (k : ℕ)
    {chunk : Chunk} (hchunk : chunk ∈ Offered) :
    Interrupted (some resume) d (.writeVerifiedChunk fails chunk) k
      ((resume.writeVerifiedChunk rt fails m chunk).cut d k)
  | finish (resume : ResumeDownload) (d : Disk String) (fails : Bool) (k : ℕ)
    (contentId : ContentId) :
    Interrupted (some resume) d (.finish fails contentId) k
      ((resume.finish rt fails output contentId).cut d k)

/-- The disks a download can leave, with the session that is open on them. -/
inductive Reach : Disk String → Option ResumeDownload → Prop
  | start {d : Disk String} (hpart : d (partPath output) = none)
    (hstate : d (statePath output) = none) : Reach d none
  | opened {d : Disk String} {fails : Bool} {resume : ResumeDownload} {count : ℕ}
    (h : Reach d none)
    (hok : (ResumeDownload.openAt rt fails output m).result d = .ok (resume, count)) :
    Reach ((ResumeDownload.openAt rt fails output m).final d) (some resume)
  | wrote {d : Disk String} {fails : Bool} {resume resume' : ResumeDownload} {chunk : Chunk}
    (h : Reach d (some resume)) (hchunk : chunk ∈ Offered)
    (hok : (resume.writeVerifiedChunk rt fails m chunk).result d = .ok resume') :
    Reach ((resume.writeVerifiedChunk rt fails m chunk).final d) (some resume')
  | stopped {d : Disk String} {resume : ResumeDownload} (h : Reach d (some resume)) : Reach d none
  | interrupted {d d' : Disk String} {session : Option ResumeDownload} {call : Call} {k : ℕ}
    (h : Reach d session) (hcut : Interrupted rt output m Offered session d call k d') :
    Reach d' none

end Runs

section Invariant

variable {rt : Runtime} {output : String} {m : Manifest} {Offered : Set Chunk}
  {Good : List Bool → List UInt8 → Prop} {d d' : Disk String} {session : Option ResumeDownload}
  {call : Call} {k : ℕ}

/-- The disk can be resumed, and belongs to the session if one is open. -/
structure Intact (rt : Runtime) (output : String) (m : Manifest)
    (Good : List Bool → List UInt8 → Prop) (d : Disk String) (session : Option ResumeDownload) :
    Prop where
  resumable : Resumable rt output m Good d
  current : ∀ resume, session = some resume →
    ∃ completed, resume = .of output m completed ∧ Current rt output m Good completed d

theorem intact_none (h : Resumable rt output m Good d) : Intact rt output m Good d none :=
  ⟨h, fun _ hsome ↦ nomatch hsome⟩

theorem intact_some {completed : List Bool} (h : Current rt output m Good completed d) :
    Intact rt output m Good d (some (.of output m completed)) := by
  refine ⟨h.resumable, ?_⟩
  rintro _ ⟨⟩
  exact ⟨completed, rfl, h⟩

variable (hshape : m.validateShape = .ok ()) (hcodes : rt.Codes m)
  (hmeaning : Meaning rt.blake3 m Good)
  (haccepts : ∀ chunk ∈ Offered, m.verifyChunk rt.blake3 chunk = .ok () → Accepts Good chunk)

include hshape hcodes hmeaning haccepts

/-- What one crash leaves. -/
theorem Intact.interrupted (h : Intact rt output m Good d session)
    (hcut : Interrupted rt output m Offered session d call k d') :
    Resumable rt output m Good d' := by
  rcases hcut with ⟨_, fails, _⟩ | ⟨resume, _, fails, _, hchunk⟩ | ⟨resume, _, fails, _, contentId⟩
  · exact (meets_openAt hshape hcodes hmeaning h.resumable).1 k
  · obtain ⟨completed, rfl, hcurrent⟩ := h.current resume rfl
    exact (meets_writeVerifiedChunk_resumable hshape hcodes hmeaning.sound (haccepts _ hchunk)
      hcurrent).1 k
  · obtain ⟨completed, rfl, hcurrent⟩ := h.current resume rfl
    exact (meets_finish_resumable hcurrent).1 k

/-- What a run leaves. -/
theorem Reach.intact (h : Reach rt output m Offered d session) :
    Intact rt output m Good d session := by
  induction h with
  | start hpart hstate => exact intact_none (resumable_of_part_none hpart)
  | opened h hok ih =>
    obtain ⟨completed, rfl, hcurrent⟩ :=
      (meets_openAt hshape hcodes hmeaning ih.resumable).2 _ _ hok
    exact intact_some hcurrent
  | wrote h hchunk hok ih =>
    obtain ⟨completed, rfl, hcurrent⟩ := ih.current _ rfl
    obtain ⟨rfl, hwritten⟩ := (meets_writeVerifiedChunk_resumable hshape hcodes hmeaning.sound
      (haccepts _ hchunk) hcurrent).2 _ hok
    exact intact_some hwritten
  | stopped h ih => exact intact_none ih.resumable
  | interrupted h hcut ih =>
    exact intact_none (ih.interrupted hshape hcodes hmeaning haccepts hcut)

end Invariant

/-! ## The moments with one file

The first `open` creates the partial file and saves the first state four operations later; a failed
first rename leaves it without one for good. When the first rename of `save_state` fails, the old
state is removed before the new one is moved into place. And `finish` moves the partial file away
before it removes the state. -/

section Exposure

/-- After `k` operations of the call just one of the two files is there. -/
def Exposed (rt : Runtime) (output : String) (m : Manifest) (d : Disk String) (k : ℕ) : Call → Prop
  | .openAt fails => ¬Paired output d ∨
      d (partPath output) = none ∧ d (statePath output) = none ∧ 1 ≤ k ∧ (k ≤ 4 ∨ fails = true)
  | .writeVerifiedChunk fails chunk =>
      m.verifyChunk rt.blake3 chunk = .ok () ∧ fails = true ∧ k = 4
  | .finish fails contentId =>
      (∃ bytes, d (partPath output) = some bytes ∧ Accepted rt m contentId bytes) ∧
        (fails = true → (d output).isSome = true) ∧ k = if fails then 2 else 1

variable {rt : Runtime} {fails : Bool} {output : String} {m : Manifest} {Offered : Set Chunk}
  {Good : List Bool → List UInt8 → Prop} {completed : List Bool} {d d' : Disk String}
  {session : Option ResumeDownload} {call : Call} {k : ℕ}

/-- `replace_file` gives up only when the first rename fails with nothing at the destination. -/
theorem replaceFile_apply (fails : Bool) (source destination : String) (d : Disk String) :
    replaceFile fails source destination d =
      if fails then
        if (d destination).isSome then
          ([.remove destination, .rename source destination], .ok ())
        else ([], .error .io)
      else ([.rename source destination], .ok ()) := by
  cases fails with
  | false => rfl
  | true =>
    rw [replaceFile, if_pos rfl, if_pos rfl, Script.look_bind]
    split_ifs with hthere
    · rfl
    · rfl

/-- The operations of saving the state. -/
theorem trace_saveState (d : Disk String) :
    ((ResumeDownload.of output m completed).saveState rt fails).trace d =
      .create (temporaryPath output) ::
        .writeAt (temporaryPath output) 0 (rt.toAllocvec (recordOf m completed)) ::
          if fails then
            if (d (statePath output)).isSome then
              [.remove (statePath output), .rename (temporaryPath output) (statePath output)]
            else []
          else [.rename (temporaryPath output) (statePath output)] := by
  have hstate : Op.apply (Op.apply d (.create (temporaryPath output)))
        (.writeAt (temporaryPath output) 0 (rt.toAllocvec (recordOf m completed)))
        (statePath output) = d (statePath output) := by
    simp only [Op.apply]
    rw [Function.update_of_ne (statePath_ne_temporaryPath output),
      Function.update_of_ne (statePath_ne_temporaryPath output)]
  rw [ResumeDownload.saveState, Script.trace_perform_bind, Script.trace_perform_bind,
    Script.trace, replaceFile_apply, ← hstate, apply_ite Prod.fst, apply_ite Prod.fst]
  rfl

/-- The operations of writing a chunk: the data first. -/
theorem trace_writeVerifiedChunk {chunk : Chunk}
    (hverify : m.verifyChunk rt.blake3 chunk = .ok ()) (d : Disk String) :
    ((ResumeDownload.of output m completed).writeVerifiedChunk rt fails m chunk).trace d =
      .writeAt (partPath output) (min (chunk.index.toNat * m.chunkSize.toNat) (2 ^ 64 - 1))
          chunk.data ::
        ((ResumeDownload.of output m (completed.set chunk.index.toNat true)).saveState rt
          fails).trace (Op.apply d (.writeAt (partPath output)
            (min (chunk.index.toNat * m.chunkSize.toNat) (2 ^ 64 - 1)) chunk.data)) := by
  rw [ResumeDownload.writeVerifiedChunk]
  simp only [hverify]
  rw [Script.trace_perform_bind, Script.trace_bind_pure]
  rfl

theorem trace_writeVerifiedChunk_of_error {chunk : Chunk} {error : ContentError}
    (hverify : m.verifyChunk rt.blake3 chunk = .error error) (d : Disk String) :
    ((ResumeDownload.of output m completed).writeVerifiedChunk rt fails m chunk).trace d = [] := by
  rw [ResumeDownload.writeVerifiedChunk]
  simp only [hverify]
  rfl

/-- The operations of a first `open`. -/
theorem trace_openAt (hshape : m.validateShape = .ok ()) (hpart : d (partPath output) = none)
    (hstate : d (statePath output) = none) :
    (ResumeDownload.openAt rt fails output m).trace d =
      [.create (partPath output), .setLen (partPath output) m.length.toNat,
        .create (temporaryPath output),
        .writeAt (temporaryPath output) 0
          (rt.toAllocvec (recordOf m (List.replicate m.chunks.length false)))] ++
        if fails then [] else [.rename (temporaryPath output) (statePath output)] := by
  have hlater : (Op.apply (Op.apply d (.create (partPath output)))
      (.setLen (partPath output) m.length.toNat)) (statePath output) = none := by
    simp only [Op.apply]
    rw [Function.update_of_ne (partPath_ne_statePath output).symm,
      Function.update_of_ne (partPath_ne_statePath output).symm, hstate]
  rw [ResumeDownload.openAt]
  simp only [hshape]
  rw [Script.trace, Script.look_bind, Script.look_bind]
  simp only [hstate, hpart]
  change Script.trace _ d = _
  rw [Script.trace_perform_bind, Script.trace_perform_bind, Script.trace_bind_pure, trace_saveState,
    hlater]
  rfl

/-- The operations of `finish` on an accepted file. -/
theorem trace_finish {contentId : ContentId} {bytes encoded : List UInt8}
    (hpart : d (partPath output) = some bytes) (hstate : d (statePath output) = some encoded)
    (haccepted : Accepted rt m contentId bytes) :
    ((ResumeDownload.of output m completed).finish rt fails output contentId).trace d =
      if fails then
        if (d output).isSome then
          [.remove output, .rename (partPath output) output, .remove (statePath output)]
        else []
      else [.rename (partPath output) output, .remove (statePath output)] := by
  have hmoved : (published output bytes d) (statePath output) = some encoded := by
    rw [published, Function.update_of_ne (statePath_ne_output output),
      Function.update_of_ne (partPath_ne_statePath output).symm, hstate]
  have hremove : (removeFile (statePath output)).trace (published output bytes d) =
      [.remove (statePath output)] := by
    rw [removeFile, Script.trace, Script.look_bind, hmoved]
    rfl
  have hfinal : (replaceFile fails (partPath output) output).result d = .ok () →
      (replaceFile fails (partPath output) output).final d = published output bytes d := by
    refine (meets_replaceFile (C := fun _ ↦ True)
      (Q := fun outcome d' ↦ outcome = .ok () → d' = published output bytes d)
      (partPath_ne_output output) hpart trivial (fun _ ↦ trivial) trivial (fun _ ↦ rfl) ?_).2
    rintro _ _ ⟨⟩
  -- once the partial file is moved, all that is left to do is to remove the state
  have hmove (hresult : (replaceFile fails (partPath output) output).result d = .ok ()) :
      ((ResumeDownload.of output m completed).finish rt fails output contentId).trace d =
        (replaceFile fails (partPath output) output).trace d ++ [.remove (statePath output)] := by
    rw [Script.trace, finish_of_accepted hpart haccepted, ← Script.trace,
      Script.trace_bind_of_ok hresult, hfinal hresult, hremove]
  have happly := replaceFile_apply fails (partPath output) output d
  split_ifs at happly ⊢ with hfails hthere
  · rw [hmove (by rw [Script.result, happly]), Script.trace, happly]
    rfl
  · have hresult : (replaceFile fails (partPath output) output).result d = .error .io := by
      rw [Script.result, happly]
    rw [Script.trace, finish_of_accepted hpart haccepted, ← Script.trace,
      Script.trace_bind_of_error hresult, Script.trace, happly]
  · rw [hmove (by rw [Script.result, happly]), Script.trace, happly]
    rfl

theorem paired_cut_openAt (hshape : m.validateShape = .ok ()) (hpaired : Paired output d) :
    Paired output ((ResumeDownload.openAt rt fails output m).cut d k) ↔
      ¬(d (partPath output) = none ∧ d (statePath output) = none ∧ 1 ≤ k ∧
        (k ≤ 4 ∨ fails = true)) := by
  rcases hpaired.cases with ⟨hstate, hpart⟩ | ⟨encoded, bytes, hstate, hpart⟩
  · have hpartState := partPath_ne_statePath output
    have hpartTemporary := partPath_ne_temporaryPath output
    have hstateTemporary := statePath_ne_temporaryPath output
    rw [Script.cut, trace_openAt hshape hpart hstate]
    -- the two files are looked up after each number of operations; five are all there can be
    rcases k with _ | _ | _ | _ | _ | k <;> cases fails <;>
      simp [Paired, Op.apply, hpart, hstate, hpartState, hpartState.symm, hpartTemporary,
        hstateTemporary]
  · rw [Script.cut, Script.trace, openAt_of_both hshape hstate hpart, List.take_nil, applyAll_nil]
    simp [hpaired, hstate]

theorem paired_cut_writeVerifiedChunk {chunk : Chunk} (hd : Current rt output m Good completed d) :
    Paired output
        (((ResumeDownload.of output m completed).writeVerifiedChunk rt fails m chunk).cut d k) ↔
      ¬(m.verifyChunk rt.blake3 chunk = .ok () ∧ fails = true ∧ k = 4) := by
  have hpaired := hd.paired
  obtain ⟨encoded, bytes, hstate, hpart, -⟩ := hd
  rw [Script.cut]
  cases hverify : m.verifyChunk rt.blake3 chunk with
  | error error =>
    rw [trace_writeVerifiedChunk_of_error hverify, List.take_nil, applyAll_nil]
    simp [hpaired]
  | ok _ =>
    have hpartState := partPath_ne_statePath output
    have hpartTemporary := partPath_ne_temporaryPath output
    have hstateTemporary := statePath_ne_temporaryPath output
    rw [trace_writeVerifiedChunk hverify, trace_saveState]
    rcases k with _ | _ | _ | _ | _ | k <;> cases fails <;>
      simp [Paired, Op.apply, hpart, hstate, hpartState, hpartState.symm, hpartTemporary,
        hstateTemporary, hstateTemporary.symm]

theorem paired_cut_finish {contentId : ContentId} (hd : Current rt output m Good completed d) :
    Paired output
        (((ResumeDownload.of output m completed).finish rt fails output contentId).cut d k) ↔
      ¬((∃ bytes, d (partPath output) = some bytes ∧ Accepted rt m contentId bytes) ∧
        (fails = true → (d output).isSome = true) ∧ k = if fails then 2 else 1) := by
  have hpaired := hd.paired
  obtain ⟨encoded, bytes, hstate, hpart, -⟩ := hd
  have hbytes : (∃ bytes, d (partPath output) = some bytes ∧ Accepted rt m contentId bytes) ↔
      Accepted rt m contentId bytes := by
    rw [hpart]
    simp
  rw [hbytes, Script.cut]
  by_cases haccepted : Accepted rt m contentId bytes
  · have hpartState := partPath_ne_statePath output
    have hpartOutput := partPath_ne_output output
    have hstateOutput := statePath_ne_output output
    rw [trace_finish hpart hstate haccepted]
    rcases hthere : d output with _ | old <;> cases fails <;> rcases k with _ | _ | _ | k <;>
      simp [Paired, Op.apply, hpart, hstate, haccepted, hpartState, hpartState.symm, hpartOutput,
        hstateOutput]
  · rw [Script.trace, finish_of_not_accepted hpart haccepted, List.take_nil, applyAll_nil]
    simp [hpaired, haccepted]

/-- Just one file is there after a crash exactly at the moments listed. -/
theorem Intact.paired_iff (hshape : m.validateShape = .ok ())
    (h : Intact rt output m Good d session)
    (hcut : Interrupted rt output m Offered session d call k d') :
    Paired output d' ↔ ¬Exposed rt output m d k call := by
  rcases hcut with ⟨_, fails, _⟩ | ⟨resume, _, fails, _, hchunk⟩ | ⟨resume, _, fails, _, contentId⟩
  · rw [Exposed, not_or, not_not]
    by_cases hpaired : Paired output d
    · rw [paired_cut_openAt hshape hpaired, and_iff_right hpaired]
    · rw [Script.cut, Script.trace, openAt_of_one hshape hpaired, List.take_nil, applyAll_nil]
      simp [hpaired]
  · obtain ⟨completed, rfl, hcurrent⟩ := h.current resume rfl
    exact paired_cut_writeVerifiedChunk hcurrent
  · obtain ⟨completed, rfl, hcurrent⟩ := h.current resume rfl
    exact paired_cut_finish hcurrent

/-- **Crash recovery.** After a crash in any call of a download of known content, the next `open`
succeeds unless the crash struck at one of the moments with one file. -/
theorem openAt_after_crash_iff {content : List UInt8} {chunks : List Chunk}
    (hm : Manifest.fromBytes rt.blake3 content = .ok (m, chunks)) (hcodes : rt.Codes m)
    (hreach : Reach rt output m {chunk | chunk ∈ chunks} d session)
    (hcut : Interrupted rt output m {chunk | chunk ∈ chunks} session d call k d') :
    (∃ opened, (ResumeDownload.openAt rt false output m).result d' = .ok opened) ↔
      ¬Exposed rt output m d k call := by
  have hshape := Manifest.validateShape_of_fromBytes hm
  have hmeaning := meaning_matches hm
  have haccepts : ∀ chunk ∈ {chunk | chunk ∈ chunks}, m.verifyChunk rt.blake3 chunk = .ok () →
      Accepts (Matches m content) chunk := by
    intro chunk hchunk _
    obtain ⟨i, hi, rfl⟩ := Manifest.exists_ofSlice_of_mem hm hchunk
    exact accepts_matches hm (by rwa [Manifest.index_ofSlice hm hi])
      (by rw [Manifest.index_ofSlice hm hi]; rfl)
  have hintact := hreach.intact hshape hcodes hmeaning haccepts
  rw [openAt_eq_ok_iff_paired hshape hmeaning
    (hintact.interrupted hshape hcodes hmeaning haccepts hcut), hintact.paired_iff hshape hcut]

end Exposure

/-! A crash in the first `open`, right after the partial file has been created, and one in the
middle of saving a chunk. -/

namespace Vectors

theorem reach_emptyDisk :
    Reach payloadRuntime payloadPath payloadManifest {chunk | chunk ∈ [payloadChunk]} emptyDisk
      none :=
  .start rfl rfl

theorem reach_payloadSession :
    Reach payloadRuntime payloadPath payloadManifest {chunk | chunk ∈ [payloadChunk]}
      ((ResumeDownload.openAt payloadRuntime false payloadPath payloadManifest).final emptyDisk)
      (some payloadSession) := by
  have hok : (ResumeDownload.openAt payloadRuntime false payloadPath payloadManifest).result
      emptyDisk = .ok (payloadSession, 0) := rfl
  exact .opened reach_emptyDisk hok

end Vectors

open Vectors in
theorem openAt_refused_after_crash :
    Manifest.fromBytes payloadRuntime.blake3 payload = .ok (payloadManifest, [payloadChunk]) ∧
      Reach payloadRuntime payloadPath payloadManifest {chunk | chunk ∈ [payloadChunk]} emptyDisk
        none ∧
      (ResumeDownload.openAt payloadRuntime false payloadPath payloadManifest).result
          ((ResumeDownload.openAt payloadRuntime false payloadPath payloadManifest).cut
            emptyDisk 1) =
        .error .incompleteData :=
  ⟨by decide +kernel, reach_emptyDisk, by rfl⟩

open Vectors in
theorem openAt_after_crash_in_saveState :
    ∃ opened, (ResumeDownload.openAt payloadRuntime false payloadPath payloadManifest).result
        ((payloadSession.writeVerifiedChunk payloadRuntime false payloadManifest payloadChunk).cut
          ((ResumeDownload.openAt payloadRuntime false payloadPath payloadManifest).final emptyDisk)
          3) = .ok opened := by
  have hm : Manifest.fromBytes payloadRuntime.blake3 payload =
      .ok (payloadManifest, [payloadChunk]) := by decide +kernel
  exact (openAt_after_crash_iff hm codes_payloadRuntime reach_payloadSession
    (.writeVerifiedChunk _ _ false 3 (List.mem_singleton_self _))).mpr (by simp [Exposed])

end TripTorrent
