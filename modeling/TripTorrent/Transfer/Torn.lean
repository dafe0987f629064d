import TripTorrent.Transfer.Publish

/-!
# The completion flags across crashes

Chunk data is written before its flag, and the flags are written aside and moved into place; so a
flag is never ahead of the data it speaks for. Across any number of sessions, each of which may end
by a crash, the flags on disk are then a record of what the callers have been told: whatever
`write_verified_chunk` has returned for is flagged, and whatever is flagged is there in full.

A write is not atomic: a crash may strike when some of its bytes are in the file. Two such writes
matter. One of a chunk that is not flagged leaves a slot nobody relies on. One of a chunk that is
flagged already, because it was delivered twice, repeats what the slot holds.
-/

namespace TripTorrent

open Storage

/-! ## Runs -/

section Runs

variable (rt : Runtime) (output : String) (m : Manifest) (Offered : Set Chunk)

/-- What runs of `open` and `write_verified_chunk` can leave: the disk, the session that is open on
it, and the chunks whose writing has returned. A call that fails ends its session like a crash. -/
inductive Ran : Disk String → Option ResumeDownload → Set ℕ → Prop
  | start {d : Disk String} (hpart : d (partPath output) = none)
    (hstate : d (statePath output) = none) : Ran d none ∅
  | opened {d : Disk String} {done : Set ℕ} {fails : Bool} {resume : ResumeDownload} {count : ℕ}
    (h : Ran d none done)
    (hok : (ResumeDownload.openAt rt fails output m).result d = .ok (resume, count)) :
    Ran ((ResumeDownload.openAt rt fails output m).final d) (some resume) done
  | wrote {d : Disk String} {done : Set ℕ} {fails : Bool} {resume resume' : ResumeDownload}
    {chunk : Chunk} (h : Ran d (some resume) done) (hchunk : chunk ∈ Offered)
    (hok : (resume.writeVerifiedChunk rt fails m chunk).result d = .ok resume') :
    Ran ((resume.writeVerifiedChunk rt fails m chunk).final d) (some resume')
      (insert chunk.index.toNat done)
  | stopped {d : Disk String} {done : Set ℕ} {resume : ResumeDownload}
    (h : Ran d (some resume) done) : Ran d none done
  | crashedOpening {d : Disk String} {done : Set ℕ} (h : Ran d none done) (fails : Bool)
    (k j : ℕ) : Ran ((ResumeDownload.openAt rt fails output m).torn d k j) none done
  | crashedWriting {d : Disk String} {done : Set ℕ} {resume : ResumeDownload} {chunk : Chunk}
    (h : Ran d (some resume) done) (hchunk : chunk ∈ Offered) (fails : Bool) (k j : ℕ) :
    Ran ((resume.writeVerifiedChunk rt fails m chunk).torn d k j) none done

end Runs

/-! ## What the flags say -/

/-- The flagged slots are those of the content, and the given chunks are flagged. -/
def Marks (m : Manifest) (content : List UInt8) (done : Set ℕ) (completed : List Bool)
    (bytes : List UInt8) : Prop :=
  Matches m content completed bytes ∧ ∀ i ∈ done, completed[i]? = some true

section Flags

variable {blake3 : List UInt8 → Digest} {m : Manifest} {content bytes : List UInt8}
  {chunks : List Chunk} {chunk : Chunk} {completed : List Bool} {done : Set ℕ}

theorem sound_of_marks (hm : Manifest.fromBytes blake3 content = .ok (m, chunks)) :
    ∀ completed bytes, Marks m content done completed bytes → Sound blake3 m completed bytes :=
  fun completed bytes h ↦ (meaning_matches hm).sound completed bytes h.1

theorem meaning_marks_empty (hm : Manifest.fromBytes blake3 content = .ok (m, chunks)) :
    Meaning blake3 m (Marks m content ∅) :=
  ⟨sound_of_marks hm, (meaning_matches hm).fresh, fun _ hi ↦ absurd hi (Set.notMem_empty _)⟩

/-- Setting a flag takes none away. -/
theorem accepts_marks (h : Accepts (Matches m content) chunk)
    (hindex : chunk.index.toNat < m.chunks.length) : Accepts (Marks m content done) chunk := by
  rintro completed bytes ⟨hmatches, hdone⟩
  obtain ⟨hkept, hset⟩ := h completed bytes hmatches
  refine ⟨⟨hkept, hdone⟩, hset, fun i hi ↦ ?_⟩
  exact (getElem?_set_true (hmatches.length_completed ▸ hindex) i).mpr (.inl (hdone i hi))

/-- A beginning of a chunk's data may be written at any time. -/
theorem Matches.patch_take (hm : Manifest.fromBytes blake3 content = .ok (m, chunks))
    (h : Matches m content completed bytes) (hindex : chunk.index.toNat < m.chunks.length)
    (hdata : chunk.data = Codec.slice chunkSize content chunk.index.toNat) (j : ℕ) :
    Matches m content completed
      (patch (chunk.index.toNat * chunkSize) (chunk.data.take j) bytes) := by
  have hshape := Manifest.validateShape_of_fromBytes hm
  have hoffset : chunk.index.toNat * chunkSize ≤ bytes.length := by
    rw [h.length_bytes]
    exact (offset_lt_length hshape hindex).le
  by_cases hflag : completed[chunk.index.toNat]? = some true
  · -- the slot holds the chunk already
    rw [hdata, ← h.holds _ hflag, patch_take_slice hoffset]
    exact h
  · have hlength : (chunk.data.take j).length ≤ chunkSize ∧
        chunk.index.toNat * chunkSize + (chunk.data.take j).length ≤ bytes.length := by
      rw [hdata, List.length_take, Codec.length_slice, h.length_bytes,
        ← Manifest.length_of_fromBytes hm]
      rw [h.length_bytes] at hoffset
      omega
    refine ⟨h.length_completed, (length_patch hlength.2).trans h.length_bytes, fun i hi ↦ ?_⟩
    have hself : chunk.index.toNat ≠ i := by
      rintro rfl
      exact hflag hi
    rw [slice_patch_of_ne hlength.2 hlength.1 hself]
    exact h.holds i hi

end Flags

/-! ## Crashes -/

section Crashes

variable {rt : Runtime} {fails : Bool} {output : String} {m : Manifest} {content : List UInt8}
  {chunks : List Chunk} {chunk : Chunk} {completed : List Bool} {done : Set ℕ} {d : Disk String}
  {Good : List Bool → List UInt8 → Prop} {path : String} {offset k j : ℕ} {data : List UInt8}

/-- Saving the state writes to the temporary file only. -/
theorem path_of_mem_trace_saveState (h : Op.writeAt path offset data ∈
    ((ResumeDownload.of output m completed).saveState rt fails).trace d) :
    path = temporaryPath output := by
  rw [trace_saveState] at h
  split_ifs at h with hfails hthere <;> simp_all

/-- What is written to the temporary file is not looked at. -/
theorem Resumable.writeAt_temporary (h : Resumable rt output m Good d) :
    Resumable rt output m Good (Op.apply d (.writeAt (temporaryPath output) offset data)) :=
  h.congr (Function.update_of_ne (statePath_ne_temporaryPath output) ..)
    (Function.update_of_ne (partPath_ne_temporaryPath output) ..)

theorem path_of_mem_trace_openAt (hshape : m.validateShape = .ok ())
    (h : Op.writeAt path offset data ∈ (ResumeDownload.openAt rt fails output m).trace d) :
    path = temporaryPath output := by
  by_cases hpaired : Paired output d
  · rcases hpaired.cases with ⟨hstate, hpart⟩ | ⟨encoded, bytes, hstate, hpart⟩
    · rw [trace_openAt hshape hpart hstate] at h
      split_ifs at h with hfails <;> simp_all
    · rw [Script.trace, openAt_of_both hshape hstate hpart] at h
      cases h
  · rw [Script.trace, openAt_of_one hshape hpaired] at h
    cases h

theorem resumable_torn_openAt (hshape : m.validateShape = .ok ()) (hcodes : rt.Codes m)
    (hmeaning : Meaning rt.blake3 m Good) (hd : Resumable rt output m Good d) :
    Resumable rt output m Good ((ResumeDownload.openAt rt fails output m).torn d k j) := by
  have hcut : Resumable rt output m Good ((ResumeDownload.openAt rt fails output m).cut d k) :=
    (meets_openAt hshape hcodes hmeaning hd).1 k
  obtain heq | ⟨path, offset, data, hop, heq⟩ :=
    (ResumeDownload.openAt rt fails output m).torn_cases d k j
  · rw [heq]
    exact hcut
  · obtain rfl := path_of_mem_trace_openAt hshape (List.mem_of_getElem? hop)
    rw [heq]
    exact hcut.writeAt_temporary

/-- A crash in `write_verified_chunk` leaves the old flags or the new ones, and some of the chunk's
bytes under the old ones. -/
theorem resumable_torn_writeVerifiedChunk
    (hm : Manifest.fromBytes rt.blake3 content = .ok (m, chunks)) (hcodes : rt.Codes m)
    (hdata : m.verifyChunk rt.blake3 chunk = .ok () →
      chunk.data = Codec.slice chunkSize content chunk.index.toNat)
    (hd : Current rt output m (Marks m content done) completed d) :
    Resumable rt output m (Marks m content done)
      (((ResumeDownload.of output m completed).writeVerifiedChunk rt fails m chunk).torn
        d k j) := by
  have hshape := Manifest.validateShape_of_fromBytes hm
  have hcut : Resumable rt output m (Marks m content done)
      (((ResumeDownload.of output m completed).writeVerifiedChunk rt fails m chunk).cut d k) := by
    refine (meets_writeVerifiedChunk_resumable hshape hcodes (sound_of_marks hm) ?_ hd).1 k
    intro hverify
    have hindex := lt_of_verifyChunk hverify
    exact accepts_marks (accepts_matches hm hindex (hdata hverify)) hindex
  obtain heq | ⟨path, offset, data, hop, heq⟩ := ((ResumeDownload.of output m
    completed).writeVerifiedChunk rt fails m chunk).torn_cases d k j
  · rw [heq]
    exact hcut
  · cases hverify : m.verifyChunk rt.blake3 chunk with
    | error error =>
      rw [trace_writeVerifiedChunk_of_error hverify] at hop
      cases hop
    | ok _ =>
      rw [trace_writeVerifiedChunk hverify] at hop
      cases k with
      | zero =>
        obtain ⟨rfl, rfl, rfl⟩ := Op.writeAt.inj (Option.some.inj hop)
        obtain ⟨encoded, bytes, hstate, hpart, hencodes, hmatches, hdone⟩ := hd
        obtain ⟨hsize, -⟩ := Manifest.validateShape_eq_ok_iff.mp hshape
        have hpatched := hmatches.patch_take hm (lt_of_verifyChunk hverify) (hdata hverify) j
        rw [heq, min_offset hsize]
        refine Current.resumable ⟨encoded, _, ?_, ?_, hencodes, hpatched, hdone⟩
        · exact (Function.update_of_ne (partPath_ne_statePath output).symm ..).trans hstate
        · refine (Function.update_self ..).trans ?_
          rw [Script.cut, List.take_zero, applyAll_nil, hpart, Option.map_some]
      | succ k =>
        rw [List.getElem?_cons_succ] at hop
        obtain rfl := path_of_mem_trace_saveState (List.mem_of_getElem? hop)
        rw [heq]
        exact hcut.writeAt_temporary

/-- The partial file stays in place while chunks are written. -/
theorem meets_writeVerifiedChunk_present (hshape : m.validateShape = .ok ())
    (hd : (d (partPath output)).isSome = true) :
    ((ResumeDownload.of output m completed).writeVerifiedChunk rt fails m chunk).Meets d
      (fun d' ↦ (d' (partPath output)).isSome = true) fun _ _ ↦ True := by
  have hstate := partPath_ne_statePath output
  have htemporary := partPath_ne_temporaryPath output
  obtain ⟨hsize, -⟩ := Manifest.validateShape_eq_ok_iff.mp hshape
  obtain ⟨bytes, hpart⟩ := Option.isSome_iff_exists.mp hd
  cases hverify : m.verifyChunk rt.blake3 chunk with
  | error error =>
    refine ⟨fun k ↦ ?_, trivial⟩
    rw [Script.cut, trace_writeVerifiedChunk_of_error hverify, List.take_nil]
    exact hd
  | ok _ =>
    refine meets_writeVerifiedChunk hsize hverify hpart hd
      (meets_saveState ?_ ?_ ?_ ?_ trivial fun _ _ _ ↦ trivial)
    · rw [written, Function.update_self, Option.isSome_some]
    · intro content
      rw [Function.update_of_ne htemporary, written, Function.update_self, Option.isSome_some]
    · intro content _
      rw [Function.update_of_ne hstate, Function.update_of_ne htemporary, written,
        Function.update_self, Option.isSome_some]
    · rw [saved, Function.update_of_ne hstate, Function.update_of_ne htemporary, written,
        Function.update_self, Option.isSome_some]

theorem isSome_torn_writeVerifiedChunk (hshape : m.validateShape = .ok ())
    (hd : (d (partPath output)).isSome = true) :
    (((ResumeDownload.of output m completed).writeVerifiedChunk rt fails m chunk).torn d k j
      (partPath output)).isSome = true := by
  have hcut : (((ResumeDownload.of output m completed).writeVerifiedChunk rt fails m chunk).cut d k
      (partPath output)).isSome = true := (meets_writeVerifiedChunk_present hshape hd).1 k
  obtain heq | ⟨path, offset, data, -, heq⟩ := ((ResumeDownload.of output m
    completed).writeVerifiedChunk rt fails m chunk).torn_cases d k j
  · rw [heq]
    exact hcut
  · rw [heq, Op.isSome_apply_writeAt]
    exact hcut

end Crashes

/-! ## All runs -/

/-- What a run leaves: files that can be resumed, with the flags of what has been written, and the
partial file from the first chunk on. -/
structure Kept (rt : Runtime) (output : String) (m : Manifest) (content : List UInt8)
    (d : Disk String) (session : Option ResumeDownload) (done : Set ℕ) : Prop where
  resumable : Resumable rt output m (Marks m content done) d
  current : ∀ resume, session = some resume → ∃ completed, resume = .of output m completed ∧
    Current rt output m (Marks m content done) completed d
  present : done.Nonempty → (d (partPath output)).isSome = true

section Kept

variable {rt : Runtime} {fails : Bool} {output : String} {m : Manifest} {content bytes : List UInt8}
  {chunks : List Chunk} {chunk : Chunk} {completed : List Bool} {done : Set ℕ} {d : Disk String}
  {session : Option ResumeDownload} {resume resume' : ResumeDownload} {count k j : ℕ}

theorem kept_none (h : Resumable rt output m (Marks m content done) d)
    (hpresent : done.Nonempty → (d (partPath output)).isSome = true) :
    Kept rt output m content d none done :=
  ⟨h, fun _ hsome ↦ (nomatch hsome), hpresent⟩

theorem kept_some (h : Current rt output m (Marks m content done) completed d) :
    Kept rt output m content d (some (.of output m completed)) done := by
  refine ⟨h.resumable, ?_, fun _ ↦ ?_⟩
  · rintro _ ⟨⟩
    exact ⟨completed, rfl, h⟩
  · obtain ⟨encoded, bytes, -, hpart, -⟩ := h
    rw [hpart, Option.isSome_some]

/-- Where the partial file is missing nothing has been written yet. -/
theorem Kept.done_eq_empty (h : Kept rt output m content d session done)
    (hpart : d (partPath output) = none) : done = ∅ := by
  rw [← Set.not_nonempty_iff_eq_empty]
  intro hnonempty
  have hpresent := h.present hnonempty
  rw [hpart] at hpresent
  cases hpresent

/-- With the partial file there, `open` does nothing but read. -/
theorem trace_openAt_of_present (hshape : m.validateShape = .ok ())
    (hpart : d (partPath output) = some bytes) :
    (ResumeDownload.openAt rt fails output m).trace d = [] := by
  cases hstate : d (statePath output) with
  | none => rw [Script.trace, openAt_of_one hshape (by simp [hpart, hstate])]
  | some encoded => rw [Script.trace, openAt_of_both hshape hstate hpart]

variable (hm : Manifest.fromBytes rt.blake3 content = .ok (m, chunks)) (hcodes : rt.Codes m)

include hm hcodes

theorem Kept.opened (h : Kept rt output m content d none done)
    (hok : (ResumeDownload.openAt rt fails output m).result d = .ok (resume, count)) :
    Kept rt output m content ((ResumeDownload.openAt rt fails output m).final d) (some resume)
      done := by
  have hshape := Manifest.validateShape_of_fromBytes hm
  cases hpart : d (partPath output) with
  | none =>
    obtain rfl := h.done_eq_empty hpart
    obtain ⟨completed, rfl, hcurrent⟩ :=
      (meets_openAt hshape hcodes (meaning_marks_empty hm) h.resumable).2 _ _ hok
    exact kept_some hcurrent
  | some bytes =>
    cases hstate : d (statePath output) with
    | none =>
      rw [Script.result, openAt_of_one hshape (by simp [hpart, hstate])] at hok
      cases hok
    | some encoded =>
      obtain ⟨completed, hfiles⟩ := h.resumable encoded bytes hstate hpart
      have hcurrent : Current rt output m (Marks m content done) completed d :=
        ⟨encoded, bytes, hstate, hpart, hfiles⟩
      rw [Script.result, hcurrent.openAt hshape (sound_of_marks hm)] at hok
      obtain ⟨rfl, -⟩ := Prod.mk.inj (Except.ok.inj hok)
      rw [Script.final, trace_openAt_of_present hshape hpart, applyAll_nil]
      exact kept_some hcurrent

theorem Kept.wrote (h : Kept rt output m content d (some resume) done)
    (hdata : m.verifyChunk rt.blake3 chunk = .ok () →
      chunk.data = Codec.slice chunkSize content chunk.index.toNat)
    (hok : (resume.writeVerifiedChunk rt fails m chunk).result d = .ok resume') :
    Kept rt output m content ((resume.writeVerifiedChunk rt fails m chunk).final d) (some resume')
      (insert chunk.index.toNat done) := by
  have hshape := Manifest.validateShape_of_fromBytes hm
  have hverify := verifyChunk_of_write hok
  have hindex := lt_of_verifyChunk hverify
  obtain ⟨completed, rfl, hcurrent⟩ := h.current resume rfl
  obtain ⟨rfl, encoded, bytes, hstate, hpart, hencodes, hmatches, hdone⟩ :=
    (meets_writeVerifiedChunk_resumable hshape hcodes (sound_of_marks hm)
      (fun hverify ↦ accepts_marks (accepts_matches hm hindex (hdata hverify)) hindex)
      hcurrent).2 _ hok
  have hlength : chunk.index.toNat < completed.length := by
    have := hmatches.length_completed
    rw [List.length_set] at this
    rwa [this]
  refine kept_some ⟨encoded, bytes, hstate, hpart, hencodes, hmatches, ?_⟩
  rintro i (rfl | hi)
  · exact (getElem?_set_true hlength _).mpr (.inr rfl)
  · exact hdone i hi

theorem Kept.crashedOpening (h : Kept rt output m content d none done) :
    Kept rt output m content ((ResumeDownload.openAt rt fails output m).torn d k j) none done := by
  have hshape := Manifest.validateShape_of_fromBytes hm
  cases hpart : d (partPath output) with
  | none =>
    obtain rfl := h.done_eq_empty hpart
    exact kept_none (resumable_torn_openAt hshape hcodes (meaning_marks_empty hm) h.resumable)
      fun hnonempty ↦ absurd hnonempty Set.not_nonempty_empty
  | some bytes =>
    rw [Script.torn_of_trace_eq_nil (trace_openAt_of_present hshape hpart)]
    exact h

theorem Kept.crashedWriting (h : Kept rt output m content d (some resume) done)
    (hdata : m.verifyChunk rt.blake3 chunk = .ok () →
      chunk.data = Codec.slice chunkSize content chunk.index.toNat) :
    Kept rt output m content ((resume.writeVerifiedChunk rt fails m chunk).torn d k j) none
      done := by
  have hshape := Manifest.validateShape_of_fromBytes hm
  obtain ⟨completed, rfl, hcurrent⟩ := h.current resume rfl
  exact kept_none (resumable_torn_writeVerifiedChunk hm hcodes hdata hcurrent)
    fun hnonempty ↦ isSome_torn_writeVerifiedChunk hshape (h.present hnonempty)

theorem Ran.kept {Offered : Set Chunk}
    (hdata : ∀ chunk ∈ Offered, m.verifyChunk rt.blake3 chunk = .ok () →
      chunk.data = Codec.slice chunkSize content chunk.index.toNat)
    (h : Ran rt output m Offered d session done) : Kept rt output m content d session done := by
  induction h with
  | start hpart hstate =>
    exact kept_none (resumable_of_part_none hpart)
      fun hnonempty ↦ absurd hnonempty Set.not_nonempty_empty
  | opened h hok ih => exact ih.opened hm hcodes hok
  | wrote h hchunk hok ih => exact ih.wrote hm hcodes (hdata _ hchunk) hok
  | stopped h ih => exact kept_none ih.resumable ih.present
  | crashedOpening h fails k j ih => exact ih.crashedOpening hm hcodes
  | crashedWriting h hchunk fails k j ih => exact ih.crashedWriting hm hcodes (hdata _ hchunk)

/-- **Crash safety of the flags.** However the sessions of a download went and ended, if both its
files are there, then the next `open` succeeds and reads only; every chunk whose writing has
returned is flagged, and the flagged chunks are in the partial file in full. -/
theorem flags_crash_safe {S : Set (List UInt8)} (hinj : Set.InjOn rt.blake3 S)
    (hslices : ∀ i < m.chunks.length, Codec.slice chunkSize content i ∈ S)
    (hran : Ran rt output m {chunk | chunk.data ∈ S} d session done)
    (hpart : d (partPath output) = some bytes) (hstate : (d (statePath output)).isSome = true)
    (fails : Bool) :
    ∃ completed : List Bool,
      ResumeDownload.openAt rt fails output m d =
        ([], .ok (.of output m completed, completed.count true)) ∧
      (∀ i ∈ done, completed[i]? = some true) ∧
      ∀ i : ℕ, completed[i]? = some true →
        Codec.slice chunkSize bytes i = Codec.slice chunkSize content i := by
  obtain ⟨encoded, hstate⟩ := Option.isSome_iff_exists.mp hstate
  have hkept := hran.kept hm hcodes fun chunk hchunk ↦
    eq_slice_of_verifyChunk hm hinj hslices hchunk
  obtain ⟨completed, hencodes, hmarks⟩ := hkept.resumable encoded bytes hstate hpart
  have hcurrent : Current rt output m (Marks m content done) completed d :=
    ⟨encoded, bytes, hstate, hpart, hencodes, hmarks⟩
  exact ⟨completed,
    hcurrent.openAt (Manifest.validateShape_of_fromBytes hm) (sound_of_marks hm), hmarks.2,
    hmarks.1.holds⟩

end Kept

/-! The published file is delivered twice, and the second write is cut short after seven bytes. -/

namespace Vectors

/-- The disk after the crash. -/
def tornDisk : Disk String :=
  ((ResumeDownload.of payloadPath payloadManifest [true]).writeVerifiedChunk payloadRuntime false
    payloadManifest payloadChunk).torn payloadDisk 0 7

theorem ran_tornDisk :
    Ran payloadRuntime payloadPath payloadManifest {chunk | chunk.data ∈ ({payload} : Set _)}
      tornDisk none (insert 0 ∅) := by
  have hoffered : payloadChunk ∈ {chunk | chunk.data ∈ ({payload} : Set (List UInt8))} :=
    Set.mem_singleton payload
  exact .crashedWriting (.wrote (.opened (.start rfl rfl) openAt_emptyDisk) hoffered
    writeVerifiedChunk_payloadChunk) hoffered false 0 7

end Vectors

open Vectors in
theorem flags_crash_safe_tornDisk :
    ∃ completed : List Bool,
      ResumeDownload.openAt payloadRuntime false payloadPath payloadManifest tornDisk =
        ([], .ok (.of payloadPath payloadManifest completed, completed.count true)) ∧
      completed[0]? = some true := by
  have hm : Manifest.fromBytes payloadRuntime.blake3 payload =
      .ok (payloadManifest, [payloadChunk]) := by decide +kernel
  have hpart : tornDisk (partPath payloadPath) = some payload := by decide +kernel
  have hstate : (tornDisk (statePath payloadPath)).isSome = true := by decide +kernel
  obtain ⟨completed, hopen, hdone, -⟩ := flags_crash_safe hm codes_payloadRuntime
    (Set.injOn_singleton _ payload)
    (fun i hi ↦ by
      obtain rfl : i = 0 := Nat.lt_one_iff.mp hi
      exact (by decide +kernel : Codec.slice chunkSize payload 0 = payload))
    ran_tornDisk hpart hstate false
  exact ⟨completed, hopen, hdone 0 (Set.mem_insert 0 ∅)⟩

end TripTorrent
