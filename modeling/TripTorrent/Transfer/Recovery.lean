import TripTorrent.Transfer.Resume

/-!
# Crashes during a resumable download

What each script of a download does to the disk, cut short or not, and what this means for the next
call of `open`. A disk on which both files are there always holds a download that can be resumed;
but there are moments when only one of them is, and a crash at such a moment leaves a disk on which
`open` refuses to start.
-/

namespace TripTorrent

open Storage

/-! ## The scripts, step by step -/

section Scripts

variable {rt : Runtime} {fails : Bool} {output source destination : String} {m : Manifest}
  {completed : List Bool} {bytes : List UInt8} {d : Disk String} {C : Disk String → Prop}

theorem meets_replaceFile {Q : Except ResumeError Unit → Disk String → Prop}
    (hne : source ≠ destination) (hsource : d source = some bytes) (hC : C d)
    (hremoved : fails = true → C (Function.update d destination none))
    (hmoved : C (Function.update (Function.update d source none) destination (some bytes)))
    (hok : Q (.ok ()) (Function.update (Function.update d source none) destination (some bytes)))
    (hio : fails = true → d destination = none → Q (.error .io) d) :
    (replaceFile fails source destination).Meets d C Q := by
  have hrename : Op.apply d (.rename source destination) =
      Function.update (Function.update d source none) destination (some bytes) := by
    simp only [Op.apply, hsource]
  rw [replaceFile]
  cases fails with
  | false => exact Script.meets_perform hC (hrename ▸ hmoved) (hrename ▸ hok)
  | true =>
    refine Script.meets_look_bind ?_
    by_cases hthere : (d destination).isSome = true
    · have hagain : Op.apply (Function.update d destination none) (.rename source destination) =
          Function.update (Function.update d source none) destination (some bytes) := by
        rw [Op.apply, Function.update_of_ne hne, hsource]
        simp only
        rw [Function.update_comm hne.symm, Function.update_idem]
      rw [if_pos hthere]
      exact Script.meets_perform_bind hC
        (Script.meets_perform (hremoved rfl) (hagain ▸ hmoved) (hagain ▸ hok))
    · rw [if_neg hthere]
      exact Script.meets_done hC (hio rfl (by simpa using hthere))

/-- The disk after the state has been saved. -/
def saved (rt : Runtime) (output : String) (m : Manifest) (completed : List Bool)
    (d : Disk String) : Disk String :=
  Function.update (Function.update d (temporaryPath output) none) (statePath output)
    (some (rt.toAllocvec (recordOf m completed)))

/-- The state file is written aside and moved into place; on the way it may be missing. -/
theorem meets_saveState {Q : Except ResumeError Unit → Disk String → Prop} (hC : C d)
    (haside : ∀ content, C (Function.update d (temporaryPath output) (some content)))
    (hremoved : ∀ content, fails = true →
      C (Function.update (Function.update d (temporaryPath output) (some content))
        (statePath output) none))
    (hsaved : C (saved rt output m completed d))
    (hok : Q (.ok ()) (saved rt output m completed d))
    (hio : fails = true → d (statePath output) = none → ∀ d', Q (.error .io) d') :
    ((ResumeDownload.of output m completed).saveState rt fails).Meets d C Q := by
  have hne := statePath_ne_temporaryPath output
  have hwrite : Op.apply (Op.apply d (.create (temporaryPath output)))
        (.writeAt (temporaryPath output) 0 (rt.toAllocvec (recordOf m completed))) =
      Function.update d (temporaryPath output) (some (rt.toAllocvec (recordOf m completed))) := by
    simp only [Op.apply, Function.update_self, Function.update_idem, Option.map_some,
      patch_zero_nil]
  have hmoved : Function.update (Function.update (Function.update d (temporaryPath output)
        (some (rt.toAllocvec (recordOf m completed)))) (temporaryPath output) none)
        (statePath output) (some (rt.toAllocvec (recordOf m completed))) =
      saved rt output m completed d := by
    rw [saved, Function.update_idem]
  refine Script.meets_perform_bind hC (Script.meets_perform_bind (haside []) ?_)
  change (replaceFile fails (temporaryPath output) (statePath output)).Meets (Op.apply (Op.apply d
    (.create (temporaryPath output))) (.writeAt (temporaryPath output) 0
      (rt.toAllocvec (recordOf m completed)))) C Q
  rw [hwrite]
  refine meets_replaceFile hne.symm (Function.update_self ..) (haside _) (hremoved _)
    (hmoved ▸ hsaved) (hmoved ▸ hok) fun hfails hnone ↦ hio hfails ?_ _
  rwa [Function.update_of_ne hne] at hnone

/-- The disk after a chunk has been written to the partial file. -/
def written (output : String) (chunk : Chunk) (bytes : List UInt8) (d : Disk String) :
    Disk String :=
  Function.update d (partPath output)
    (some (patch (chunk.index.toNat * chunkSize) chunk.data bytes))

/-- Where a chunk is written: no offset is large enough to saturate. -/
theorem min_offset (hsize : m.chunkSize.toNat = chunkSize) (index : UInt32) :
    min (index.toNat * m.chunkSize.toNat) (2 ^ 64 - 1) = index.toNat * chunkSize := by
  have hindex := index.toNat_lt
  rw [hsize, chunkSize]
  omega

theorem meets_writeVerifiedChunk {chunk : Chunk}
    {Q : Except ResumeError ResumeDownload → Disk String → Prop}
    (hsize : m.chunkSize.toNat = chunkSize) (hverify : m.verifyChunk rt.blake3 chunk = .ok ())
    (hpart : d (partPath output) = some bytes) (hC : C d)
    (hsave : ((ResumeDownload.of output m (completed.set chunk.index.toNat true)).saveState rt
      fails).Meets (written output chunk bytes d) C fun outcome ↦
        Q (outcome.map fun _ ↦ .of output m (completed.set chunk.index.toNat true))) :
    ((ResumeDownload.of output m completed).writeVerifiedChunk rt fails m chunk).Meets d C Q := by
  have hwrite : Op.apply d (.writeAt (partPath output)
        (min (chunk.index.toNat * m.chunkSize.toNat) (2 ^ 64 - 1)) chunk.data) =
      written output chunk bytes d := by
    rw [min_offset hsize, Op.apply, hpart, written, Option.map_some]
  rw [ResumeDownload.writeVerifiedChunk]
  simp only [hverify]
  refine Script.meets_perform_bind hC ?_
  change Script.Meets _ (Op.apply d (.writeAt (partPath output)
    (min (chunk.index.toNat * m.chunkSize.toNat) (2 ^ 64 - 1)) chunk.data)) C Q
  rw [hwrite]
  exact Script.meets_bind_pure hsave

/-- Opening with both files there reads them and writes nothing. -/
theorem openAt_of_both {encoded : List UInt8} (hshape : m.validateShape = .ok ())
    (hstate : d (statePath output) = some encoded) (hpart : d (partPath output) = some bytes) :
    ResumeDownload.openAt rt fails output m d =
      ([], (ResumeDownload.resumed rt m encoded bytes).map fun completed ↦
        (.of output m completed, completed.count true)) := by
  rw [ResumeDownload.openAt]
  simp only [hshape, Script.look_bind, hstate, hpart]
  cases ResumeDownload.resumed rt m encoded bytes with
  | error error => rfl
  | ok completed => rfl

/-- Opening with one file there is refused. -/
theorem openAt_of_one (hshape : m.validateShape = .ok ())
    (h : (d (partPath output)).isSome ≠ (d (statePath output)).isSome) :
    ResumeDownload.openAt rt fails output m d = ([], .error .incompleteData) := by
  rw [ResumeDownload.openAt]
  simp only [hshape, Script.look_bind]
  cases hstate : d (statePath output) with
  | none =>
    cases hpart : d (partPath output) with
    | none => simp [hstate, hpart] at h
    | some bytes => rfl
  | some encoded =>
    cases hpart : d (partPath output) with
    | none => rfl
    | some bytes => simp [hstate, hpart] at h

/-- The disk after a fresh partial file has been laid out. -/
def laidOut (output : String) (m : Manifest) (d : Disk String) : Disk String :=
  Function.update d (partPath output) (some (List.replicate m.length.toNat 0))

/-- Opening with neither file there lays out an empty partial file and saves the state. -/
theorem meets_openAt_of_neither {Q : Except ResumeError (ResumeDownload × ℕ) → Disk String → Prop}
    (hshape : m.validateShape = .ok ()) (hstate : d (statePath output) = none)
    (hpart : d (partPath output) = none) (hC : C d)
    (hcreated : C (Function.update d (partPath output) (some [])))
    (hsave : ((ResumeDownload.of output m (List.replicate m.chunks.length false)).saveState rt
      fails).Meets (laidOut output m d) C fun outcome ↦ Q (outcome.map fun _ ↦
        (.of output m (List.replicate m.chunks.length false), 0))) :
    (ResumeDownload.openAt rt fails output m).Meets d C Q := by
  have hlaid : Op.apply (Op.apply d (.create (partPath output)))
      (.setLen (partPath output) m.length.toNat) = laidOut output m d := by
    simp only [Op.apply, Function.update_self, Function.update_idem, Option.map_some, resize_nil,
      laidOut]
  rw [ResumeDownload.openAt]
  simp only [hshape]
  refine Script.meets_look_bind (Script.meets_look_bind ?_)
  simp only [hstate, hpart]
  refine Script.meets_perform_bind hC (Script.meets_perform_bind hcreated ?_)
  rw [hlaid]
  exact Script.meets_bind_pure hsave

/-- What `finish` asks of the partial file. -/
def Accepted (rt : Runtime) (m : Manifest) (contentId : ContentId) (bytes : List UInt8) : Prop :=
  (ResumeDownload.hashReads rt (rt.reads bytes)).2 = m.length.toNat ∧
    rt.finalize (ResumeDownload.hashReads rt (rt.reads bytes)).1 = contentId.bytes

/-- The disk after the partial file has been moved to the output. -/
def published (output : String) (bytes : List UInt8) (d : Disk String) : Disk String :=
  Function.update (Function.update d (partPath output) none) output (some bytes)

theorem finish_of_not_accepted {contentId : ContentId} (hpart : d (partPath output) = some bytes)
    (h : ¬Accepted rt m contentId bytes) :
    (ResumeDownload.of output m completed).finish rt fails output contentId d =
      ([], .error .contentVerification) := by
  have hpart' : d (ResumeDownload.of output m completed).partPath = some bytes := hpart
  rw [Accepted, not_and_or] at h
  rw [ResumeDownload.finish, Script.look_bind, hpart']
  exact congrFun (if_pos h) d

/-- An accepted partial file is moved to the output, then the state is removed. -/
theorem finish_of_accepted {contentId : ContentId} (hpart : d (partPath output) = some bytes)
    (h : Accepted rt m contentId bytes) :
    (ResumeDownload.of output m completed).finish rt fails output contentId d =
      (replaceFile fails (partPath output) output >>= fun _ ↦ removeFile (statePath output)) d := by
  have hpart' : d (ResumeDownload.of output m completed).partPath = some bytes := hpart
  rw [ResumeDownload.finish, Script.look_bind, hpart']
  exact congrFun (if_neg (not_or.mpr ⟨not_not.mpr h.1, not_not.mpr h.2⟩)) d

theorem meets_finish {contentId : ContentId} {Q : Except ResumeError Unit → Disk String → Prop}
    (hpart : d (partPath output) = some bytes) (haccepted : Accepted rt m contentId bytes)
    (hC : C d) (hremoved : fails = true → C (Function.update d output none))
    (hmoved : C (published output bytes d))
    (hend : C (Function.update (published output bytes d) (statePath output) none))
    (hok : (d (statePath output)).isSome = true →
      Q (.ok ()) (Function.update (published output bytes d) (statePath output) none))
    (hkept : d (statePath output) = none → Q (.error .io) (published output bytes d))
    (hio : fails = true → d output = none → Q (.error .io) d) :
    ((ResumeDownload.of output m completed).finish rt fails output contentId).Meets d C Q := by
  have hstate : published output bytes d (statePath output) = d (statePath output) := by
    rw [published, Function.update_of_ne (statePath_ne_output output),
      Function.update_of_ne (partPath_ne_statePath output).symm]
  refine Script.meets_congr (finish_of_accepted hpart haccepted) (Script.meets_bind ?_)
  refine meets_replaceFile (partPath_ne_output output) hpart hC hremoved hmoved ?_ hio
  refine Script.meets_look_bind ?_
  change Script.Meets (if (published output bytes d (statePath output)).isSome = true then _ else _)
    (published output bytes d) C Q
  rw [hstate]
  by_cases hthere : (d (statePath output)).isSome = true
  · rw [if_pos hthere]
    exact Script.meets_perform hmoved hend (hok hthere)
  · rw [if_neg hthere]
    exact Script.meets_done hmoved (hkept (by simpa using hthere))

end Scripts

/-! ## What a crash leaves

The invariant is kept for any reading of the completion flags that entails soundness: what a crash
leaves depends on which files are there, not on what the flags are taken to say. -/

/-- What the completion flags say about the partial file: at least that the recorded chunks verify,
and nothing about a file that is all zeros. -/
structure Meaning (blake3 : List UInt8 → Digest) (m : Manifest)
    (Good : List Bool → List UInt8 → Prop) : Prop where
  sound : ∀ completed bytes, Good completed bytes → Sound blake3 m completed bytes
  fresh : Good (List.replicate m.chunks.length false) (List.replicate m.length.toNat 0)

/-- Writing the chunk keeps what the flags say, with its own flag set or not. -/
def Accepts (Good : List Bool → List UInt8 → Prop) (chunk : Chunk) : Prop :=
  ∀ completed bytes, Good completed bytes →
    Good completed (patch (chunk.index.toNat * chunkSize) chunk.data bytes) ∧
      Good (completed.set chunk.index.toNat true)
        (patch (chunk.index.toNat * chunkSize) chunk.data bytes)

theorem recorded_fresh (m : Manifest) (P : ℕ → List UInt8 → Prop) :
    Recorded m P (List.replicate m.chunks.length false) (List.replicate m.length.toNat 0) := by
  refine ⟨List.length_replicate .., List.length_replicate .., fun i hi ↦ ?_⟩
  rw [List.getElem?_replicate] at hi
  split_ifs at hi
  cases hi

theorem getElem?_set_true {completed : List Bool} {j : ℕ} (hj : j < completed.length) (i : ℕ) :
    (completed.set j true)[i]? = some true ↔ completed[i]? = some true ∨ j = i := by
  rw [List.getElem?_set]
  split_ifs with hself
  · simp [hself]
  · simp [hself]

/-- Data that fills its slot may be recorded for what holds of it. -/
theorem accepts_recorded {m : Manifest} {P : ℕ → List UInt8 → Prop} {chunk : Chunk}
    (hshape : m.validateShape = .ok ()) (hindex : chunk.index.toNat < m.chunks.length)
    (hlength : expectedChunkLength m chunk.index = .ok chunk.data.length)
    (hP : P chunk.index.toNat chunk.data) : Accepts (Recorded m P) chunk := by
  intro completed bytes h
  rw [expectedChunkLength_eq_ok hshape hindex] at hlength
  have hfills : Fills chunkSize bytes chunk.index.toNat chunk.data := by
    refine ⟨?_, ?_⟩
    · rw [h.length_bytes]
      exact (offset_lt_length hshape hindex).le
    · rw [← Except.ok.inj hlength, h.length_bytes, min_comm]
  have hholds : ∀ i, completed[i]? = some true ∨ chunk.index.toNat = i →
      P i (Codec.slice chunkSize (patch (chunk.index.toNat * chunkSize) chunk.data bytes) i) := by
    intro i hi
    by_cases hself : chunk.index.toNat = i
    · rw [← hself, slice_patch_self hfills]
      exact hP
    · rw [slice_patch_of_ne hfills.inside (hfills.2.trans_le (min_le_left _ _)) hself]
      exact h.holds i (hi.resolve_right hself)
  have hbytes := (length_patch hfills.inside).trans h.length_bytes
  refine ⟨⟨h.length_completed, hbytes, fun i hi ↦ hholds i (.inl hi)⟩, ⟨?_, hbytes, ?_⟩⟩
  · rw [List.length_set, h.length_completed]
  · intro i hi
    exact hholds i ((getElem?_set_true (h.length_completed ▸ hindex) i).mp hi)

section Crashes

variable (rt : Runtime) (output : String) (m : Manifest) (Good : List Bool → List UInt8 → Prop)

/-- The files of a session with the given flags. -/
def Current (completed : List Bool) (d : Disk String) : Prop :=
  ∃ encoded bytes, d (statePath output) = some encoded ∧ d (partPath output) = some bytes ∧
    Encodes rt m completed encoded ∧ Good completed bytes

/-- Where both files are there, they are those of a session. -/
def Resumable (d : Disk String) : Prop :=
  ∀ encoded bytes, d (statePath output) = some encoded → d (partPath output) = some bytes →
    ∃ completed, Encodes rt m completed encoded ∧ Good completed bytes

/-- Both files are there, or neither is. -/
def Paired (d : Disk String) : Prop :=
  (d (partPath output)).isSome = (d (statePath output)).isSome

instance (d : Disk String) : Decidable (Paired output d) :=
  inferInstanceAs (Decidable (_ = _))

end Crashes

section Invariant

variable {rt : Runtime} {fails : Bool} {output : String} {m : Manifest}
  {Good : List Bool → List UInt8 → Prop} {completed : List Bool} {bytes : List UInt8}
  {d d' : Disk String} {chunk : Chunk}

theorem resumable_of_state_none (h : d (statePath output) = none) :
    Resumable rt output m Good d := by
  intro encoded bytes hstate
  rw [h] at hstate
  cases hstate

theorem resumable_of_part_none (h : d (partPath output) = none) :
    Resumable rt output m Good d := by
  intro encoded bytes _ hpart
  rw [h] at hpart
  cases hpart

theorem Resumable.congr (h : Resumable rt output m Good d)
    (hstate : d' (statePath output) = d (statePath output))
    (hpart : d' (partPath output) = d (partPath output)) : Resumable rt output m Good d' := by
  rw [Resumable, hstate, hpart]
  exact h

theorem Current.resumable (h : Current rt output m Good completed d) :
    Resumable rt output m Good d := by
  intro encoded bytes hstate hpart
  obtain ⟨encoded', bytes', hstate', hpart', h⟩ := h
  obtain rfl := Option.some.inj (hstate.symm.trans hstate')
  obtain rfl := Option.some.inj (hpart.symm.trans hpart')
  exact ⟨completed, h⟩

theorem Current.paired (h : Current rt output m Good completed d) : Paired output d := by
  obtain ⟨encoded, bytes, hstate, hpart, -⟩ := h
  rw [Paired, hstate, hpart]
  rfl

theorem Paired.cases (h : Paired output d) :
    d (statePath output) = none ∧ d (partPath output) = none ∨
      ∃ encoded bytes, d (statePath output) = some encoded ∧ d (partPath output) = some bytes := by
  rcases hstate : d (statePath output) with _ | encoded
  · exact .inl ⟨rfl, by simpa [Paired, hstate] using h⟩
  · rw [Paired, hstate, Option.isSome_some, Option.isSome_iff_exists] at h
    obtain ⟨bytes, hpart⟩ := h
    exact .inr ⟨encoded, bytes, rfl, hpart⟩

/-- The files of a session are opened with its flags, and left as they are. -/
theorem Current.openAt (h : Current rt output m Good completed d)
    (hshape : m.validateShape = .ok ())
    (hsound : ∀ completed bytes, Good completed bytes → Sound rt.blake3 m completed bytes) :
    ResumeDownload.openAt rt fails output m d =
      ([], .ok (.of output m completed, completed.count true)) := by
  obtain ⟨encoded, bytes, hstate, hpart, hencodes, hgood⟩ := h
  have hresumed : ResumeDownload.resumed rt m encoded bytes = .ok completed :=
    (ResumeDownload.resumed_eq_ok_iff hshape).mpr
      ⟨hencodes, hsound completed bytes hgood⟩
  rw [openAt_of_both hshape hstate hpart, hresumed]
  rfl

/-- Saving the state completes a session's files. -/
theorem meets_saveState_resumable {Q : Except ResumeError Unit → Disk String → Prop}
    (hshape : m.validateShape = .ok ()) (hcodes : rt.Codes m)
    (hsound : ∀ completed bytes, Good completed bytes → Sound rt.blake3 m completed bytes)
    (hpart : d (partPath output) = some bytes) (hgood : Good completed bytes)
    (hd : Resumable rt output m Good d)
    (hok : ∀ d', Current rt output m Good completed d' → Q (.ok ()) d')
    (hio : ∀ d', Q (.error .io) d') :
    ((ResumeDownload.of output m completed).saveState rt fails).Meets d
      (Resumable rt output m Good) Q := by
  have hlength := (hsound completed bytes hgood).length_completed
  have hcurrent : Current rt output m Good completed (saved rt output m completed d) := by
    refine ⟨_, bytes, Function.update_self .., ?_, encodes_toAllocvec hshape hcodes hlength, hgood⟩
    rw [saved, Function.update_of_ne (partPath_ne_statePath output),
      Function.update_of_ne (partPath_ne_temporaryPath output), hpart]
  apply meets_saveState hd
  · intro content
    exact hd.congr (Function.update_of_ne (statePath_ne_temporaryPath output) ..)
      (Function.update_of_ne (partPath_ne_temporaryPath output) ..)
  · intro content _
    exact resumable_of_state_none (Function.update_self ..)
  · exact hcurrent.resumable
  · exact hok _ hcurrent
  · intro _ _ d'
    exact hio d'

/-- Opening starts a session, or fails. -/
theorem meets_openAt (hshape : m.validateShape = .ok ()) (hcodes : rt.Codes m)
    (hmeaning : Meaning rt.blake3 m Good) (hd : Resumable rt output m Good d) :
    (ResumeDownload.openAt rt fails output m).Meets d (Resumable rt output m Good)
      fun outcome d' ↦ ∀ resume count, outcome = .ok (resume, count) →
        ∃ completed, resume = .of output m completed ∧
          Current rt output m Good completed d' := by
  by_cases hpaired : Paired output d
  · rcases hpaired.cases with ⟨hstate, hpart⟩ | ⟨encoded, bytes, hstate, hpart⟩
    · -- until the first state is in place there is nothing to resume from
      have hstate' : laidOut output m d (statePath output) = none := by
        rw [laidOut, Function.update_of_ne (partPath_ne_statePath output).symm, hstate]
      have hcreated : Function.update d (partPath output) (some []) (statePath output) = none := by
        rw [Function.update_of_ne (partPath_ne_statePath output).symm, hstate]
      refine meets_openAt_of_neither hshape hstate hpart hd (resumable_of_state_none hcreated)
        (meets_saveState_resumable hshape hcodes hmeaning.sound (Function.update_self ..)
          hmeaning.fresh
          (resumable_of_state_none hstate') ?_ ?_)
      · rintro d' hcurrent resume count ⟨⟩
        exact ⟨_, rfl, hcurrent⟩
      · rintro d' resume count ⟨⟩
    · obtain ⟨flags, hfiles⟩ := hd encoded bytes hstate hpart
      have hcurrent : Current rt output m Good flags d := ⟨encoded, bytes, hstate, hpart, hfiles⟩
      refine Script.meets_of_eq (hcurrent.openAt hshape hmeaning.sound) hd ?_
      rintro resume count ⟨⟩
      exact ⟨flags, rfl, hcurrent⟩
  · refine Script.meets_of_eq (openAt_of_one hshape hpaired) hd ?_
    rintro resume count ⟨⟩

/-- Writing a chunk advances a session by its flag. -/
theorem meets_writeVerifiedChunk_resumable (hshape : m.validateShape = .ok ())
    (hcodes : rt.Codes m)
    (hsound : ∀ completed bytes, Good completed bytes → Sound rt.blake3 m completed bytes)
    (haccepts : m.verifyChunk rt.blake3 chunk = .ok () → Accepts Good chunk)
    (hd : Current rt output m Good completed d) :
    ((ResumeDownload.of output m completed).writeVerifiedChunk rt fails m chunk).Meets d
      (Resumable rt output m Good) fun outcome d' ↦ ∀ resume, outcome = .ok resume →
        resume = .of output m (completed.set chunk.index.toNat true) ∧
          Current rt output m Good (completed.set chunk.index.toNat true) d' := by
  cases hverify : m.verifyChunk rt.blake3 chunk with
  | error error =>
    have hrefused : (ResumeDownload.of output m completed).writeVerifiedChunk rt fails m chunk d =
        ([], .error (.content error)) := by
      rw [ResumeDownload.writeVerifiedChunk]
      simp only [hverify]
      rfl
    refine Script.meets_of_eq hrefused hd.resumable ?_
    rintro resume ⟨⟩
  | ok _ =>
    have hresumable := hd.resumable
    obtain ⟨hsize, -⟩ := Manifest.validateShape_eq_ok_iff.mp hshape
    obtain ⟨encoded, bytes, hstate, hpart, hencodes, hgood⟩ := hd
    obtain ⟨hkept, hset⟩ := haccepts hverify completed bytes hgood
    -- a crash before the state is saved leaves the chunk written and not recorded
    have hwritten : Current rt output m Good completed (written output chunk bytes d) := by
      refine ⟨encoded, _, ?_, Function.update_self .., hencodes, hkept⟩
      rw [written, Function.update_of_ne (partPath_ne_statePath output).symm, hstate]
    refine meets_writeVerifiedChunk hsize hverify hpart hresumable
      (meets_saveState_resumable hshape hcodes hsound (Function.update_self ..) hset
        hwritten.resumable ?_ ?_)
    · rintro d' hcurrent resume ⟨⟩
      exact ⟨rfl, hcurrent⟩
    · rintro d' resume ⟨⟩

/-- Finishing leaves at most one of the two files at a time. -/
theorem meets_finish_resumable {contentId : ContentId} (hd : Current rt output m Good completed d) :
    ((ResumeDownload.of output m completed).finish rt fails output contentId).Meets d
      (Resumable rt output m Good) fun _ _ ↦ True := by
  have hresumable := hd.resumable
  obtain ⟨encoded, bytes, hstate, hpart, -⟩ := hd
  by_cases haccepted : Accepted rt m contentId bytes
  · have hmoved : published output bytes d (partPath output) = none := by
      rw [published, Function.update_of_ne (partPath_ne_output output), Function.update_self]
    refine meets_finish hpart haccepted hresumable ?_ (resumable_of_part_none hmoved)
      (resumable_of_state_none (Function.update_self ..)) (fun _ ↦ trivial) (fun _ ↦ trivial)
      fun _ _ ↦ trivial
    intro _
    exact hresumable.congr (Function.update_of_ne (statePath_ne_output output) ..)
      (Function.update_of_ne (partPath_ne_output output) ..)
  · exact Script.meets_of_eq (finish_of_not_accepted hpart haccepted) hresumable trivial

/-- **When a disk can be opened.** Of the checks of `open`, only the one for both files can fail. -/
theorem openAt_eq_ok_iff_paired (hshape : m.validateShape = .ok ())
    (hmeaning : Meaning rt.blake3 m Good) (hd : Resumable rt output m Good d) :
    (∃ opened, (ResumeDownload.openAt rt false output m).result d = .ok opened) ↔
      Paired output d := by
  constructor
  · rintro ⟨opened, hopen⟩
    by_contra hpaired
    rw [Script.result, openAt_of_one hshape hpaired] at hopen
    cases hopen
  · intro hpaired
    rcases hpaired.cases with ⟨hstate, hpart⟩ | ⟨encoded, bytes, hstate, hpart⟩
    · have hfresh : (ResumeDownload.openAt rt false output m).Meets d (fun _ ↦ True)
          fun outcome _ ↦ ∃ opened, outcome = .ok opened := by
        refine meets_openAt_of_neither hshape hstate hpart trivial trivial
          (meets_saveState trivial (fun _ ↦ trivial) (fun _ _ ↦ trivial) trivial ⟨_, rfl⟩ ?_)
        rintro ⟨⟩
      exact hfresh.2
    · obtain ⟨flags, hfiles⟩ := hd encoded bytes hstate hpart
      have hcurrent : Current rt output m Good flags d := ⟨encoded, bytes, hstate, hpart, hfiles⟩
      rw [Script.result, hcurrent.openAt hshape hmeaning.sound]
      exact ⟨_, rfl⟩

end Invariant

end TripTorrent
