import TripTorrent.Node.Library

/-!
# Listed content is what it says

A row of the index, the data file and the manifest file are three records of one item, and other
processes may replace the two files at any time, also while a listing verifies one row after the
other. What a listing says about shared content is nevertheless true of the data file as it was
when its row was verified.

The row is the only record that is not verified itself. But it was entered for content with the
same digest (`Recorded`), so under collision-freeness it describes the content that passes. The
digest is assumed to be injective on the contents that occur, which are collected in a set.
-/

namespace TripTorrent

open Std (ExtTreeMap)
open Storage (Disk)
open Storage.Keyed

namespace Library

/-! ## Listing while files change -/

section Operations

variable (b : Backend) (seen : String → Disk ManagedPath)

/-- The loop of `verify_all` when the files have become `seen contentId` by the time at which the
row of `contentId` is verified. -/
def verifyRowsSeen : Library → List (String × ContentRow) → Library × Except LibraryError Unit
  | s, [] => (s, .ok ())
  | s, (contentId, row) :: rows =>
    match { s with files := seen contentId }.verifyRow b contentId row with
    | (s, .error error) => (s, .error error)
    | (s, .ok ()) => verifyRowsSeen s rows

def verifyAllSeen (s : Library) : Library × Except LibraryError Unit :=
  verifyRowsSeen b seen s (s.rows.toList.filter fun x ↦ x.2.complete)

def listContentSeen (s : Library) : Library × Except LibraryError (List ContentRecord) :=
  match s.verifyAllSeen b seen with
  | (s, .error error) => (s, .error error)
  | (s, .ok ()) => (s, s.rows.toList.mapM fun x ↦ contentFromRow x.1 x.2)

end Operations

variable {b : Backend} {s : Library} {seen : String → Disk ManagedPath}

theorem files_verifyRow (contentId : String) (row : ContentRow) :
    (s.verifyRow b contentId row).1.files = s.files := by
  rw [verifyRow]
  split
  · rfl
  · split_ifs
    · rfl
    · rfl

theorem verifyRowsSeen_files (rows : List (String × ContentRow)) :
    verifyRowsSeen b (fun _ ↦ s.files) s rows = verifyRows b s rows := by
  generalize hfiles : s.files = files
  induction rows generalizing s with
  | nil => rfl
  | cons x rows ih =>
    obtain ⟨contentId, row⟩ := x
    have hkeep : (s.verifyRow b contentId row).1.files = files :=
      (files_verifyRow contentId row).trans hfiles
    rw [verifyRowsSeen, verifyRows, ← hfiles]
    rcases hrow : s.verifyRow b contentId row with ⟨t, error | _⟩
    · rfl
    · rw [hrow] at hkeep
      exact hfiles ▸ ih hkeep

/-- If nobody changes the files, this is the listing of before. -/
theorem listContentSeen_files : s.listContentSeen b (fun _ ↦ s.files) = s.listContent b := by
  have hverify : s.verifyAllSeen b (fun _ ↦ s.files) = s.verifyAll b := by
    rw [verifyAllSeen, verifyAll, verifyRowsSeen_files]
  rw [listContentSeen]
  exact hverify ▸ rfl

theorem verifyRowsSeen_eq {rows : List (String × ContentRow)}
    (h : ∀ x ∈ rows, ∃ id : ContentId, id.toString = x.1) :
    ∃ files, (files = s.files ∨ ∃ contentId, files = seen contentId) ∧
      verifyRowsSeen b seen s rows =
        (⟨rows.foldl (fun t x ↦ t.modify x.1 fun r ↦ r.verified
          (verifyStoredContent b (seen x.1) x.2.dataPath x.2.manifestPath x.1)) s.rows, files⟩,
          .ok ()) := by
  induction rows generalizing s with
  | nil => exact ⟨s.files, .inl rfl, rfl⟩
  | cons x rows ih =>
    obtain ⟨contentId, row⟩ := x
    obtain ⟨id, rfl⟩ := h _ List.mem_cons_self
    rw [verifyRowsSeen, verifyRow_toString]
    dsimp only
    obtain ⟨files, hfiles, heq⟩ := ih (s := ⟨s.rows.modify id.toString fun r ↦ r.verified
      (verifyStoredContent b (seen id.toString) row.dataPath row.manifestPath id.toString),
        seen id.toString⟩) fun y hy ↦ h y (List.mem_cons_of_mem _ hy)
    refine ⟨files, .inr ?_, ?_⟩
    · rcases hfiles with hlast | hlater
      · exact ⟨id.toString, hlast⟩
      · exact hlater
    · rw [heq, List.foldl_cons]

/-- The rows as verification leaves them. -/
def checkedRows (b : Backend) (seen : String → Disk ManagedPath) (s : Library) :
    ExtTreeMap String ContentRow :=
  s.rows.map fun contentId ↦ check b (seen contentId) contentId

/-- A listing returns every row as verification left it, and leaves the files as one of the
verifications found them. -/
theorem listContentSeen_eq (h : s.Indexed) (seen : String → Disk ManagedPath) :
    ∃ files, (files = s.files ∨ ∃ contentId, files = seen contentId) ∧
      s.listContentSeen b seen = (⟨s.checkedRows b seen, files⟩,
        .ok ((s.checkedRows b seen).toList.map fun x ↦ x.2.record x.1)) := by
  obtain ⟨files, hfiles, heq⟩ :=
    verifyRowsSeen_eq (b := b) (s := s) fun x hx ↦ h.exists_toString hx
  refine ⟨files, hfiles, ?_⟩
  rw [listContentSeen, verifyAllSeen, h.filter_complete, heq, foldl_verified]
  exact congrArg (Prod.mk _) (h.verified _).mapM_contentFromRow

/-! ## What rows record -/

/-- The row describes content from a set, whose digest is its key. -/
def Describes (b : Backend) (S : Set (List UInt8)) (contentId : String) (row : ContentRow) : Prop :=
  ∃ bytes ∈ S, (ContentId.digest b.blake3 bytes).toString = contentId ∧
    row.length = bytes.length ∧ row.chunkCount = bytes.length ⌈/⌉ chunkSize

/-- The data files hold content from a set. -/
def Holds (S : Set (List UInt8)) (files : Disk ManagedPath) : Prop :=
  ∀ contentId bytes, files (dataPath contentId) = some bytes → bytes ∈ S

structure Recorded (b : Backend) (S : Set (List UInt8)) (s : Library) : Prop where
  indexed : s.Indexed
  describes : ∀ contentId row, s.rows[contentId]? = some row → Describes b S contentId row
  holds : Holds S s.files

variable {S : Set (List UInt8)} {contentId : String}

theorem describes_ofManifest {bytes : List UInt8} {m : Manifest} {chunks : List Chunk}
    (hm : Manifest.fromBytes b.blake3 bytes = .ok (m, chunks)) (hS : bytes ∈ S) (shared : Bool) :
    Describes b S m.contentId.toString (.ofManifest m.contentId.toString m shared) := by
  refine ⟨bytes, hS, ?_, Manifest.length_of_fromBytes hm, Manifest.length_chunks_of_fromBytes hm⟩
  rw [(Manifest.eq_of_fromBytes hm).2.2]

/-- Content is indexed with the row that describes it. -/
theorem Recorded.index (h : Recorded b S s) {files : Disk ManagedPath} {bytes : List UInt8}
    {m : Manifest} {chunks : List Chunk} (hm : Manifest.fromBytes b.blake3 bytes = .ok (m, chunks))
    (hS : bytes ∈ S) (hfiles : Holds S files) (shared : Bool) :
    Recorded b S (s.index b files m shared) where
  indexed := h.indexed.index m shared
  describes contentId row hrow := by
    rcases inserted_or_unchanged hrow with ⟨rfl, rfl⟩ | ⟨-, hrow⟩
    · exact describes_ofManifest hm hS shared
    · exact h.describes contentId row hrow
  holds contentId other hother := by
    have hne : dataPath contentId ≠ manifestPath m.contentId.toString :=
      fun heq ↦ absurd (ManagedPath.mk.inj heq).2 (by decide)
    exact hfiles contentId other ((Function.update_of_ne hne ..).symm.trans hother)

theorem Recorded.addContent (h : Recorded b S s) {sources : Disk String} {path : String}
    (hS : ∀ bytes, sources path = some bytes → bytes ∈ S) (shared : Bool) :
    Recorded b S (s.addContent b sources path shared).1 := by
  rcases addContent_cases sources path shared with
    ⟨bytes, m, chunks, hsource, hm, -, files, hdata, hframe, heq⟩ | ⟨-, error, heq⟩
  · rw [heq]
    refine h.index hm (hS bytes hsource) ?_ shared
    intro contentId other hother
    by_cases hsame : contentId = m.contentId.toString
    · rw [hsame, hdata] at hother
      exact Option.some.inj hother ▸ hS bytes hsource
    · exact h.holds contentId other ((hframe (dataPath contentId) hsame).symm.trans hother)
  · rw [heq]
    exact h

theorem Recorded.completeDownload (h : Recorded b S s) (id : ContentId) (shared : Bool) :
    Recorded b S (s.completeDownload b id shared).1 := by
  rcases completeDownload_cases (b := b) id shared with
    ⟨bytes, m, chunks, hdata, hm, -, heq⟩ | ⟨-, error, heq⟩
  · rw [heq]
    exact h.index hm (h.holds _ bytes hdata) h.holds shared
  · rw [heq]
    exact h

/-- Deleting adds no file. -/
theorem files_of_delete {deleteBytes : Bool} {path : ManagedPath} {bytes : List UInt8}
    (h : (s.delete contentId deleteBytes).files path = some bytes) : s.files path = some bytes := by
  rw [delete] at h
  dsimp only at h
  split_ifs at h with hdelete
  · by_cases hdirectory : path.directory = contentId
    · simp [hdirectory] at h
    · simpa [hdirectory] using h
  · exact h

theorem Recorded.removeContent (h : Recorded b S s) (text : String) (deleteBytes : Bool) :
    Recorded b S (s.removeContent text deleteBytes).1 := by
  rcases removeContent_cases text deleteBytes with ⟨id, row, -, -, heq⟩ | ⟨error, heq⟩
  · rw [heq]
    refine ⟨h.indexed.delete deleteBytes, ?_, ?_⟩
    · exact fun other row hrow ↦ h.describes other row (getElem?_of_erase hrow).2
    · exact fun contentId bytes hbytes ↦ h.holds contentId bytes (files_of_delete hbytes)
  · rw [heq]
    exact h

/-- Verification leaves what a row says of its content. -/
theorem Recorded.listContentSeen (h : Recorded b S s)
    (hseen : ∀ contentId, Holds S (seen contentId)) :
    Recorded b S (s.listContentSeen b seen).1 := by
  obtain ⟨files, hfiles, heq⟩ := listContentSeen_eq (b := b) h.indexed seen
  rw [heq]
  refine ⟨h.indexed.verified files, ?_, ?_⟩
  · intro contentId row hrow
    rw [checkedRows, ExtTreeMap.getElem?_map, Option.map_eq_some_iff] at hrow
    obtain ⟨row, hrow, rfl⟩ := hrow
    obtain ⟨shared, integrity, heq⟩ := check_keeps (b := b) (seen contentId) contentId row
    rw [heq]
    exact h.describes contentId row hrow
  · rcases hfiles with rfl | ⟨contentId, rfl⟩
    · exact h.holds
    · exact hseen contentId

/-! ## Histories -/

inductive Event where
  | addContent (sources : Disk String) (path : String) (shared : Bool)
  | completeDownload (contentId : ContentId) (shared : Bool)
  | removeContent (contentId : String) (deleteBytes : Bool)
  /-- A listing, during which the files change. -/
  | listContent (seen : String → Disk ManagedPath)
  /-- Other processes change the managed files. -/
  | files (files : Disk ManagedPath)

def exec (b : Backend) (s : Library) : Event → Library
  | .addContent sources path shared => (s.addContent b sources path shared).1
  | .completeDownload contentId shared => (s.completeDownload b contentId shared).1
  | .removeContent contentId deleteBytes => (s.removeContent contentId deleteBytes).1
  | .listContent seen => (s.listContentSeen b seen).1
  | .files files => { s with files }

/-- All content that comes in belongs to a set. -/
def Event.Within (S : Set (List UInt8)) : Event → Prop
  | .addContent sources path _ => ∀ bytes, sources path = some bytes → bytes ∈ S
  | .completeDownload _ _ => True
  | .removeContent _ _ => True
  | .listContent seen => ∀ contentId, Holds S (seen contentId)
  | .files disk => Holds S disk

theorem Recorded.exec (h : Recorded b S s) {event : Event} (hevent : event.Within S) :
    Recorded b S (s.exec b event) := by
  cases event with
  | addContent sources path shared => exact h.addContent hevent shared
  | completeDownload id shared => exact h.completeDownload id shared
  | removeContent text deleteBytes => exact h.removeContent text deleteBytes
  | listContent seen => exact h.listContentSeen hevent
  | files files => exact ⟨h.indexed, h.describes, hevent⟩

theorem recorded_of_history {files : Disk ManagedPath} (hfiles : Holds S files)
    {events : List Event} (hevents : ∀ event ∈ events, event.Within S) :
    Recorded b S (events.foldl (exec b) ⟨∅, files⟩) := by
  have hempty : Recorded b S ⟨∅, files⟩ := by
    refine ⟨indexed_empty, fun contentId row hrow ↦ ?_, hfiles⟩
    rw [ExtTreeMap.getElem?_empty] at hrow
    cases hrow
  exact List.foldlRecOn events (exec b) hempty fun s hs event hevent ↦
    hs.exec (hevents event hevent)

/-! ## Shared content -/

/-- Only rows that pass verification stay shared. -/
theorem verified_of_shared {row : ContentRow} {result : Except IntegrityFailure Unit}
    (h : (row.verified result).shared = true) :
    result = .ok () ∧ (row.verified result).integrity = .ok := by
  rcases result with failure | ok
  · rcases failure <;> cases h
  · exact ⟨rfl, rfl⟩

/-- **Shared content is what its record says.** After any history of the store, during which other
processes replace or delete managed files, whatever a listing reports as shared passed verification
in it: at that time its data file had the digest, the length and the number of chunks that the
record says. -/
theorem listed_content_trustworthy {files : Disk ManagedPath} {events : List Event} {t : Library}
    {records : List ContentRecord} (hinj : Set.InjOn b.blake3 S) (hfiles : Holds S files)
    (hevents : ∀ event ∈ events, event.Within S) (hseen : ∀ contentId, Holds S (seen contentId))
    (hlist : (events.foldl (exec b) ⟨∅, files⟩).listContentSeen b seen = (t, .ok records)) :
    ∀ record ∈ records, record.shared = true → record.integrity = .ok ∧
      ∃ bytes, seen record.contentId record.dataPath = some bytes ∧
        (ContentId.digest b.blake3 bytes).toString = record.contentId ∧
        bytes.length = record.length ∧ bytes.length ⌈/⌉ chunkSize = record.chunkCount := by
  have hrecorded := recorded_of_history (b := b) hfiles hevents
  generalize events.foldl (exec b) ⟨∅, files⟩ = s at hlist hrecorded
  obtain ⟨_, -, heq⟩ := listContentSeen_eq (b := b) hrecorded.indexed seen
  obtain rfl := Except.ok.inj (congrArg Prod.snd (heq.symm.trans hlist))
  intro record hrecord hshared
  obtain ⟨⟨contentId, row'⟩, hrow', rfl⟩ := List.mem_map.mp hrecord
  rw [ExtTreeMap.mem_toList_iff_getElem?_eq_some, checkedRows, ExtTreeMap.getElem?_map,
    Option.map_eq_some_iff] at hrow'
  obtain ⟨row, hrow, rfl⟩ := hrow'
  obtain ⟨hverified, hintegrity⟩ := verified_of_shared hshared
  refine ⟨hintegrity, ?_⟩
  obtain ⟨-, -, hdata, hmanifest⟩ := hrecorded.indexed contentId row hrow
  rw [hdata, hmanifest] at hverified
  obtain ⟨bytes, encoded, m, built, chunks, hfile, -, -, hbuilt, hid, -⟩ :=
    verifies_iff_intact.mp hverified
  -- the row was entered for content with the same digest, so for the same content
  obtain ⟨old, hold, hdigest, hlength, hcount⟩ := hrecorded.describes contentId row hrow
  have hbytes : (ContentId.digest b.blake3 bytes).toString = contentId := by
    rw [← hid, (Manifest.eq_of_fromBytes hbuilt).2.2]
  have hsame : bytes = old := by
    refine hinj (hseen contentId contentId bytes hfile) hold ?_
    exact congrArg ContentId.bytes (ContentId.toString_injective (hbytes.trans hdigest.symm))
  obtain ⟨shared, integrity, hcheck⟩ := check_keeps (b := b) (seen contentId) contentId row
  dsimp only
  rw [hcheck]
  exact ⟨bytes, hdata ▸ hfile, hbytes, hsame ▸ hlength.symm, hsame ▸ hcount.symm⟩

/-! A payload is added, and its files are listed as they were written. -/

section Published

/-- The history. -/
def publishing : List Event := [.addContent (fun _ ↦ some Vectors.payload) "payload.txt" true]

/-- The library after it. -/
def published : Library :=
  publishing.foldl (exec (.postcard Vectors.payloadHash)) ⟨∅, fun _ ↦ none⟩

theorem within_publishing : ∀ event ∈ publishing, event.Within {Vectors.payload} := by
  intro event hevent
  obtain rfl := List.mem_singleton.mp hevent
  intro bytes hbytes
  exact (Option.some.inj hbytes).symm

theorem holds_none : Holds {Vectors.payload} fun _ ↦ none := by
  intro contentId bytes hbytes
  cases hbytes

theorem holds_published : Holds {Vectors.payload} published.files :=
  (recorded_of_history holds_none within_publishing).holds

/-- What is listed. -/
def payloadRecord : ContentRecord :=
  (ContentRow.ofManifest (ContentId.mk Vectors.payloadDigest).toString Vectors.payloadManifest
    true).record (ContentId.mk Vectors.payloadDigest).toString

theorem listed_content_trustworthy_published :
    payloadRecord.shared = true ∧ payloadRecord.integrity = .ok ∧
      ∃ bytes, published.files payloadRecord.dataPath = some bytes ∧
        (ContentId.digest Vectors.payloadHash bytes).toString = payloadRecord.contentId ∧
        bytes.length = payloadRecord.length ∧
        bytes.length ⌈/⌉ chunkSize = payloadRecord.chunkCount := by
  have hok : (published.listContentSeen (.postcard Vectors.payloadHash)
      fun _ ↦ published.files).2 = .ok [payloadRecord] := by decide +kernel
  exact ⟨rfl, listed_content_trustworthy (Set.injOn_singleton _ Vectors.payload) holds_none
    within_publishing (fun _ ↦ holds_published)
    (Prod.mk.eta.symm.trans (congrArg (Prod.mk _) hok)) payloadRecord List.mem_cons_self rfl⟩

end Published

end Library

end TripTorrent
