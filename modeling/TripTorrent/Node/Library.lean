import Mathlib
import TripTorrent.Core.Identifier
import TripTorrent.Core.Postcard
import TripTorrent.Storage.Disk
import TripTorrent.Storage.Keyed

/-!
# The content index of a node

The part of a node's store that concerns content: a table of rows keyed by the text of a content
identifier, and the managed files the rows point to. The table is only changed by the functions
here; the files may be changed by anybody. Every listing verifies all files first, and a row whose
files do not pass is marked and is no longer shared.

A managed file is addressed by the directory it is in, which is named by the text of an identifier,
and its name there. Operations return the new library with their result. A failed write is not
modelled: all writes of an operation come before its change of the table, so what a failed one
leaves is a change of the files alone.
-/

namespace TripTorrent

open Std (ExtTreeMap)
open Storage (Disk)
open Storage.Keyed

/-! ## State -/

/-- A path under the directory for content. -/
structure ManagedPath where
  directory : String
  file : String
deriving DecidableEq

inductive Integrity where
  | ok
  | missing
  | corrupt
deriving DecidableEq

structure ContentRow where
  length : ℕ
  chunkCount : ℕ
  dataPath : ManagedPath
  manifestPath : ManagedPath
  shared : Bool
  complete : Bool
  integrity : Integrity
deriving DecidableEq

structure ContentRecord where
  contentId : String
  length : ℕ
  chunkCount : ℕ
  dataPath : ManagedPath
  shared : Bool
  advertised : Bool
  complete : Bool
  integrity : Integrity
deriving DecidableEq

structure Library where
  rows : ExtTreeMap String ContentRow
  files : Disk ManagedPath

inductive LibraryError where
  | readImported (path : String)
  | content (error : ContentError)
  | alreadyIndexed (contentId : String)
  | managedCopy
  | newNotIndexed
  | differentContent
  | completedNotIndexed
  | invalidContentId
  | unknownContentId (contentId : String)
  | invalidIndexedId (contentId : String)
  | nonCanonicalIndexedId
  | invalidStoredId
  /-- A failed file operation. -/
  | io
deriving DecidableEq

/-- The text of an error; that of the operating system is not known. -/
def LibraryError.message : LibraryError → Option String
  | .readImported path => some ("failed to read imported file " ++ path)
  | .content error => some error.message
  | .alreadyIndexed contentId => some ("content " ++ contentId ++ " is already indexed")
  | .managedCopy => some "managed copy failed content-ID verification"
  | .newNotIndexed => some "new content was not indexed"
  | .differentContent => some "completed download does not match requested content ID"
  | .completedNotIndexed => some "completed content was not indexed"
  | .invalidContentId => some "invalid content ID"
  | .unknownContentId contentId => some ("unknown content ID " ++ contentId)
  | .invalidIndexedId contentId =>
    some ("invalid content ID indexed in local state: " ++ contentId)
  | .nonCanonicalIndexedId => some "non-canonical content ID indexed in local state"
  | .invalidStoredId => some "invalid stored content ID"
  | .io => none

/-! ## Paths and rows -/

def dataPath (contentId : String) : ManagedPath := ⟨contentId, "data"⟩

/-- Where an imported file is copied before it is moved into place. -/
def importingPath (contentId : String) : ManagedPath := ⟨contentId, "data.importing"⟩

def manifestPath (contentId : String) : ManagedPath := ⟨contentId, "manifest.postcard"⟩

/-- The row that is written for content with its manifest. -/
def ContentRow.ofManifest (contentId : String) (m : Manifest) (shared : Bool) : ContentRow where
  length := m.length.toNat
  chunkCount := m.chunks.length
  dataPath := TripTorrent.dataPath contentId
  manifestPath := TripTorrent.manifestPath contentId
  shared
  complete := true
  integrity := .ok

/-- The record read from a row. -/
def ContentRow.record (contentId : String) (row : ContentRow) : ContentRecord where
  contentId
  length := row.length
  chunkCount := row.chunkCount
  dataPath := row.dataPath
  shared := row.shared
  advertised := false
  complete := row.complete
  integrity := row.integrity

def contentFromRow (contentId : String) (row : ContentRow) : Except LibraryError ContentRecord :=
  match ContentId.fromStr contentId with
  | .error _ => .error .invalidStoredId
  | .ok parsed =>
    if parsed.toString ≠ contentId then .error .invalidStoredId else .ok (row.record contentId)

/-! ## Verification -/

inductive IntegrityFailure where
  | missing
  | corrupt
deriving DecidableEq

def verifyStoredContent (b : Backend) (files : Disk ManagedPath)
    (dataPath manifestPath : ManagedPath) (contentId : String) : Except IntegrityFailure Unit :=
  match files dataPath, files manifestPath with
  | none, _ => .error .missing
  | some _, none => .error .missing
  | some bytes, some encoded =>
    match b.fromBytes encoded with
    | none => .error .corrupt
    | some manifest =>
      if manifest.contentId.toString ≠ contentId then .error .corrupt
      else
        match Manifest.fromBytes b.blake3 bytes with
        | .error _ => .error .corrupt
        | .ok (_, chunks) =>
          match manifest.reconstruct b.blake3 chunks with
          | .error _ => .error .corrupt
          | .ok _ =>
            if ContentId.digest b.blake3 bytes ≠ manifest.contentId then .error .corrupt
            else .ok ()

/-- The row after its files have been verified. -/
def ContentRow.verified (row : ContentRow) : Except IntegrityFailure Unit → ContentRow
  | .ok () => { row with integrity := .ok }
  | .error .missing => { row with integrity := .missing, shared := false }
  | .error .corrupt => { row with integrity := .corrupt, shared := false }

namespace Library

section Operations

variable (b : Backend) (s : Library)

def getContent (contentId : String) : Except LibraryError (Option ContentRecord) :=
  match s.rows[contentId]? with
  | none => .ok none
  | some row => (contentFromRow contentId row).map some

def contentExists (contentId : String) : Except LibraryError Bool :=
  (s.getContent contentId).map Option.isSome

/-- One round of the loop of `verify_all`, for a row as it was when the loop started. -/
def verifyRow (contentId : String) (row : ContentRow) : Library × Except LibraryError Unit :=
  match ContentId.fromStr contentId with
  | .error _ => (s, .error (.invalidIndexedId contentId))
  | .ok parsed =>
    if parsed.toString ≠ contentId then (s, .error .nonCanonicalIndexedId)
    else
      let integrity := verifyStoredContent b s.files row.dataPath row.manifestPath contentId
      ({ s with rows := s.rows.modify contentId fun row ↦ row.verified integrity }, .ok ())

def verifyRows : Library → List (String × ContentRow) → Library × Except LibraryError Unit
  | s, [] => (s, .ok ())
  | s, (contentId, row) :: rows =>
    match s.verifyRow b contentId row with
    | (s, .error error) => (s, .error error)
    | (s, .ok ()) => verifyRows s rows

def verifyAll : Library × Except LibraryError Unit :=
  verifyRows b s (s.rows.toList.filter fun x ↦ x.2.complete)

def listContent : Library × Except LibraryError (List ContentRecord) :=
  match s.verifyAll b with
  | (s, .error error) => (s, .error error)
  | (s, .ok ()) => (s, s.rows.toList.mapM fun x ↦ contentFromRow x.1 x.2)

/-- The managed copy of an imported file: written, read back and moved into place. -/
def importFile (contentId : ContentId) (bytes : List UInt8) :
    Except LibraryError (Disk ManagedPath) :=
  let temporary := importingPath contentId.toString
  let files := Function.update s.files temporary (some bytes)
  match files temporary with
  | none => .error .io
  | some copy =>
    if ContentId.digest b.blake3 copy ≠ contentId then .error .managedCopy
    else
      .ok (Function.update (Function.update files temporary none) (dataPath contentId.toString)
        (some copy))

/-- The manifest is written and the row entered, over whatever there is. -/
def index (files : Disk ManagedPath) (m : Manifest) (shared : Bool) : Library :=
  let contentId := m.contentId.toString
  { rows := s.rows.insert contentId (.ofManifest contentId m shared)
    files := Function.update files (manifestPath contentId) (some (b.toAllocvec m)) }

/-- `add_content` for the file at a path among files that are not managed. -/
def addContent (sources : Disk String) (path : String) (shared : Bool) :
    Library × Except LibraryError ContentRecord :=
  match sources path with
  | none => (s, .error (.readImported path))
  | some bytes =>
    match Manifest.fromBytes b.blake3 bytes with
    | .error error => (s, .error (.content error))
    | .ok (manifest, _) =>
      match s.contentExists manifest.contentId.toString with
      | .error error => (s, .error error)
      | .ok true => (s, .error (.alreadyIndexed manifest.contentId.toString))
      | .ok false =>
        match s.importFile b manifest.contentId bytes with
        | .error error => (s, .error error)
        | .ok files =>
          let s := s.index b files manifest shared
          match s.getContent manifest.contentId.toString with
          | .error error => (s, .error error)
          | .ok none => (s, .error .newNotIndexed)
          | .ok (some record) => (s, .ok record)

def completeDownload (contentId : ContentId) (shared : Bool) :
    Library × Except LibraryError ContentRecord :=
  match s.files (dataPath contentId.toString) with
  | none => (s, .error .io)
  | some bytes =>
    match Manifest.fromBytes b.blake3 bytes with
    | .error error => (s, .error (.content error))
    | .ok (manifest, _) =>
      if manifest.contentId ≠ contentId then (s, .error .differentContent)
      else
        let s := s.index b s.files manifest shared
        match s.getContent contentId.toString with
        | .error error => (s, .error error)
        | .ok none => (s, .error .completedNotIndexed)
        | .ok (some record) => (s, .ok record)

/-- The row is deleted, and the directory with it if asked for. -/
def delete (contentId : String) (deleteBytes : Bool) : Library where
  rows := s.rows.erase contentId
  files := if deleteBytes then fun path ↦ if path.directory = contentId then none else s.files path
    else s.files

def removeContent (contentId : String) (deleteBytes : Bool) :
    Library × Except LibraryError Unit :=
  match ContentId.fromStr contentId with
  | .error _ => (s, .error .invalidContentId)
  | .ok parsed =>
    match s.getContent parsed.toString with
    | .error error => (s, .error error)
    | .ok none => (s, .error (.unknownContentId parsed.toString))
    | .ok (some _) => (s.delete parsed.toString deleteBytes, .ok ())

end Operations

/-! ## What verification accepts -/

variable {b : Backend} {s : Library} {files : Disk ManagedPath} {contentId : String}

/-- The managed files for an identifier pass verification. -/
def Verifies (b : Backend) (files : Disk ManagedPath) (contentId : String) : Prop :=
  verifyStoredContent b files (dataPath contentId) (manifestPath contentId) contentId = .ok ()

/-- The data file of an identifier holds its content, and the manifest file a manifest that says so:
it agrees with the one built from the content, the chunk size apart. -/
def Intact (b : Backend) (files : Disk ManagedPath) (contentId : String) : Prop :=
  ∃ bytes encoded m built chunks,
    files (dataPath contentId) = some bytes ∧ files (manifestPath contentId) = some encoded ∧
      b.fromBytes encoded = some m ∧ Manifest.fromBytes b.blake3 bytes = .ok (built, chunks) ∧
      built.contentId.toString = contentId ∧ m.contentId = built.contentId ∧
      m.length = built.length ∧ m.chunks = built.chunks

/-- **Verification accepts intact content and nothing else.** -/
theorem verifies_iff_intact : Verifies b files contentId ↔ Intact b files contentId := by
  rw [Verifies, verifyStoredContent]
  constructor
  · intro h
    split at h
    · cases h
    · cases h
    rename_i bytes encoded hdata hmanifest
    split at h
    · cases h
    rename_i m hdecode
    by_cases hid : m.contentId.toString = contentId
    swap
    · rw [if_pos hid] at h
      cases h
    rw [if_neg (not_not.mpr hid)] at h
    split at h
    · cases h
    rename_i built chunks hbuilt
    split at h
    · cases h
    rename_i whole hwhole
    obtain ⟨-, hagree⟩ := (Manifest.reconstruct_eq_ok_iff hbuilt).mp hwhole
    refine ⟨bytes, encoded, m, built, chunks, hdata, hmanifest, hdecode, hbuilt, ?_, hagree⟩
    rw [← hagree.1, hid]
  · rintro ⟨bytes, encoded, m, built, chunks, hdata, hmanifest, hdecode, hbuilt, hid, hagree⟩
    have hdigest : ContentId.digest b.blake3 bytes = m.contentId := by
      rw [hagree.1, (Manifest.fromBytes_eq_ok_iff.mp hbuilt).2.2]
    have hwhole : m.reconstruct b.blake3 chunks = .ok bytes :=
      (Manifest.reconstruct_eq_ok_iff hbuilt).mpr ⟨rfl, hagree⟩
    rw [hdata, hmanifest]
    dsimp only
    rw [hdecode]
    dsimp only
    rw [if_neg (not_not.mpr (hagree.1 ▸ hid)), hbuilt]
    dsimp only
    rw [hwhole]
    dsimp only
    rw [if_neg (not_not.mpr hdigest)]

/-- Only one directory matters. -/
theorem intact_congr {other : Disk ManagedPath}
    (h : ∀ file, files ⟨contentId, file⟩ = other ⟨contentId, file⟩) :
    Intact b files contentId ↔ Intact b other contentId := by
  rw [Intact, Intact, dataPath, manifestPath, h, h]

/-- Content with the manifest that was built from it is intact. -/
theorem intact_of_stored {bytes : List UInt8} {m : Manifest} {chunks : List Chunk}
    (hm : Manifest.fromBytes b.blake3 bytes = .ok (m, chunks))
    (hdata : files (dataPath m.contentId.toString) = some bytes)
    (hmanifest : files (manifestPath m.contentId.toString) = some (b.toAllocvec m)) :
    Intact b files m.contentId.toString :=
  ⟨bytes, _, m, m, chunks, hdata, hmanifest,
    b.fromBytes_toAllocvec (Manifest.validateShape_of_fromBytes hm), hm, rfl, rfl, rfl, rfl⟩

/-! ## Rows of an index -/

/-- Every row is complete, has a canonical key and points to the files in its directory. -/
def Indexed (s : Library) : Prop :=
  ∀ contentId row, s.rows[contentId]? = some row →
    (∃ id : ContentId, id.toString = contentId) ∧ row.complete ∧
      row.dataPath = dataPath contentId ∧ row.manifestPath = manifestPath contentId

theorem indexed_empty : Indexed ⟨∅, files⟩ := by
  intro contentId row hrow
  rw [ExtTreeMap.getElem?_empty] at hrow
  cases hrow

theorem contentFromRow_toString (id : ContentId) (row : ContentRow) :
    contentFromRow id.toString row = .ok (row.record id.toString) := by
  rw [contentFromRow, ContentId.fromStr_toString]
  exact if_neg (not_not.mpr rfl)

theorem getContent_toString (id : ContentId) :
    s.getContent id.toString = .ok (s.rows[id.toString]?.map (ContentRow.record id.toString)) := by
  rw [getContent]
  rcases s.rows[id.toString]? with _ | row
  · rfl
  · dsimp only
    rw [contentFromRow_toString]
    rfl

theorem contentExists_toString (id : ContentId) :
    s.contentExists id.toString = .ok s.rows[id.toString]?.isSome := by
  rw [contentExists, getContent_toString, Except.map, Option.isSome_map]

/-! ## Verification of all rows -/

/-- What verification makes of a row. -/
def check (b : Backend) (files : Disk ManagedPath) (contentId : String) (row : ContentRow) :
    ContentRow :=
  row.verified (verifyStoredContent b files row.dataPath row.manifestPath contentId)

/-- Verification changes the `shared` and `integrity` columns only. -/
theorem check_keeps (files : Disk ManagedPath) (contentId : String) (row : ContentRow) :
    ∃ shared integrity, check b files contentId row = { row with shared, integrity } := by
  rw [check]
  rcases verifyStoredContent b files row.dataPath row.manifestPath contentId with failure | ok
  · rcases failure <;> exact ⟨false, _, rfl⟩
  · exact ⟨row.shared, .ok, rfl⟩

/-- The columns that verification does not change. -/
def described (row : ContentRow) : ContentRow := { row with shared := false, integrity := .ok }

theorem described_verified (row : ContentRow) (result : Except IntegrityFailure Unit) :
    described (row.verified result) = described row := by
  rcases result with failure | ok
  · rcases failure <;> rfl
  · rfl

/-- Two tables have the same rows, up to the columns that verification changes. -/
def SameContent (rows rows' : ExtTreeMap String ContentRow) : Prop :=
  ∀ contentId : String, rows[contentId]?.map described = rows'[contentId]?.map described

theorem exists_verifyRow_eq (contentId : String) (row : ContentRow) :
    ∃ rows, SameContent rows s.rows ∧ (s.verifyRow b contentId row).1 = { s with rows } := by
  rw [verifyRow]
  split
  · exact ⟨s.rows, fun _ ↦ rfl, rfl⟩
  split_ifs
  · exact ⟨s.rows, fun _ ↦ rfl, rfl⟩
  · refine ⟨_, fun other ↦ ?_, rfl⟩
    rw [getElem?_modify]
    split_ifs
    · rw [Option.map_map]
      exact Option.map_congr fun row _ ↦ described_verified row _
    · rfl

/-- Verification of any rows leaves the files and all other columns as they are. -/
theorem exists_verifyRows_eq (rows : List (String × ContentRow)) :
    ∃ rows', SameContent rows' s.rows ∧ (s.verifyRows b rows).1 = { s with rows := rows' } := by
  induction rows generalizing s with
  | nil => exact ⟨s.rows, fun _ ↦ rfl, rfl⟩
  | cons x rows ih =>
    obtain ⟨contentId, row⟩ := x
    obtain ⟨rows', hsame, heq⟩ := exists_verifyRow_eq (b := b) (s := s) contentId row
    rw [verifyRows]
    rcases hrow : s.verifyRow b contentId row with ⟨t, error | ok⟩
    · rw [hrow] at heq
      exact ⟨rows', hsame, heq⟩
    · rw [hrow] at heq
      obtain rfl : t = { s with rows := rows' } := heq
      obtain ⟨rows'', hsame', heq'⟩ := ih (s := { s with rows := rows' })
      exact ⟨rows'', fun other ↦ (hsame' other).trans (hsame other), heq'⟩

theorem exists_listContent_eq :
    ∃ rows, SameContent rows s.rows ∧ (s.listContent b).1 = { s with rows } := by
  obtain ⟨rows, hsame, heq⟩ :=
    exists_verifyRows_eq (b := b) (s := s) (s.rows.toList.filter fun x ↦ x.2.complete)
  refine ⟨rows, hsame, ?_⟩
  rw [← heq, listContent, verifyAll]
  split
  all_goals
    rename_i hverify
    rw [hverify]

theorem check_eq (hdata : (row : ContentRow).dataPath = dataPath contentId)
    (hmanifest : row.manifestPath = manifestPath contentId) :
    ((check b files contentId row).shared ∧ (check b files contentId row).integrity = .ok) ↔
      row.shared ∧ Intact b files contentId := by
  rw [check, hdata, hmanifest, ← verifies_iff_intact, Verifies]
  rcases verifyStoredContent b files (dataPath contentId) (manifestPath contentId) contentId with
    failure | ok
  · rcases failure <;> simp [ContentRow.verified]
  · simp [ContentRow.verified]

theorem verifyRow_toString (id : ContentId) (row : ContentRow) :
    s.verifyRow b id.toString row =
      ({ s with rows := s.rows.modify id.toString fun r ↦
          r.verified (verifyStoredContent b s.files row.dataPath row.manifestPath id.toString) },
        .ok ()) := by
  rw [verifyRow, ContentId.fromStr_toString]
  exact if_neg (not_not.mpr rfl)

theorem verifyRows_eq {rows : List (String × ContentRow)}
    (h : ∀ x ∈ rows, ∃ id : ContentId, id.toString = x.1) :
    verifyRows b s rows =
      ({ s with rows := rows.foldl (fun t x ↦ t.modify x.1 fun r ↦ r.verified
          (verifyStoredContent b s.files x.2.dataPath x.2.manifestPath x.1)) s.rows }, .ok ()) := by
  induction rows generalizing s with
  | nil => rfl
  | cons x rows ih =>
    obtain ⟨contentId, row⟩ := x
    obtain ⟨id, rfl⟩ := h _ List.mem_cons_self
    rw [verifyRows, verifyRow_toString]
    dsimp only
    rw [ih fun y hy ↦ h y (List.mem_cons_of_mem _ hy), List.foldl_cons]

theorem Indexed.exists_toString (h : s.Indexed) {x : String × ContentRow}
    (hx : x ∈ s.rows.toList) : ∃ id : ContentId, id.toString = x.1 :=
  (h x.1 x.2 (ExtTreeMap.mem_toList_iff_getElem?_eq_some.mp hx)).1

theorem Indexed.filter_complete (h : s.Indexed) :
    (s.rows.toList.filter fun x ↦ x.2.complete) = s.rows.toList :=
  List.filter_eq_self.mpr fun x hx ↦
    (h x.1 x.2 (ExtTreeMap.mem_toList_iff_getElem?_eq_some.mp hx)).2.1

theorem Indexed.mapM_contentFromRow (h : s.Indexed) :
    (s.rows.toList.mapM fun x ↦ contentFromRow x.1 x.2) =
      .ok (s.rows.toList.map fun x ↦ x.2.record x.1) := by
  refine Outcome.mapM_eq_ok fun x hx ↦ ?_
  obtain ⟨id, hid⟩ := h.exists_toString hx
  rw [← hid, contentFromRow_toString]

/-- Verification of the rows one after the other, each with the files of its own time. -/
theorem foldl_verified (seen : String → Disk ManagedPath) (rows : ExtTreeMap String ContentRow) :
    rows.toList.foldl (fun t x ↦ t.modify x.1 fun r ↦ r.verified
        (verifyStoredContent b (seen x.1) x.2.dataPath x.2.manifestPath x.1)) rows =
      rows.map fun contentId ↦ check b (seen contentId) contentId :=
  foldl_modify_toList (f := fun contentId row (r : ContentRow) ↦
    r.verified (verifyStoredContent b (seen contentId) row.dataPath row.manifestPath contentId))

theorem Indexed.verified (h : s.Indexed) {seen : String → Disk ManagedPath}
    (files : Disk ManagedPath) :
    Indexed ⟨s.rows.map fun contentId ↦ check b (seen contentId) contentId, files⟩ := by
  intro contentId row hrow
  rw [ExtTreeMap.getElem?_map, Option.map_eq_some_iff] at hrow
  obtain ⟨row, hrow, rfl⟩ := hrow
  obtain ⟨shared, integrity, heq⟩ := check_keeps (b := b) (seen contentId) contentId row
  rw [heq]
  exact h contentId row hrow

/-- Verification goes through every row of an index. -/
theorem verifyAll_eq (h : s.Indexed) :
    s.verifyAll b = ({ s with rows := s.rows.map (check b s.files) }, .ok ()) := by
  rw [verifyAll, h.filter_complete, verifyRows_eq fun x hx ↦ h.exists_toString hx,
    foldl_verified fun _ ↦ s.files]

/-- A listing returns every row as verification left it. -/
theorem listContent_eq (h : s.Indexed) :
    s.listContent b =
      ({ s with rows := s.rows.map (check b s.files) },
        .ok ((s.rows.map (check b s.files)).toList.map fun x ↦ x.2.record x.1)) := by
  rw [listContent, verifyAll_eq h]
  exact congrArg (Prod.mk _) (h.verified _).mapM_contentFromRow

/-! ## What the operations do -/

theorem Indexed.index (h : s.Indexed) (m : Manifest) (shared : Bool) :
    (s.index b files m shared).Indexed := by
  intro contentId row hrow
  rcases inserted_or_unchanged hrow with ⟨rfl, rfl⟩ | ⟨-, hrow⟩
  · exact ⟨⟨m.contentId, rfl⟩, rfl, rfl, rfl⟩
  · exact h contentId row hrow

theorem Indexed.delete (h : s.Indexed) (deleteBytes : Bool) :
    (s.delete contentId deleteBytes).Indexed :=
  fun other row hrow ↦ h other row (getElem?_of_erase hrow).2

theorem getContent_index (m : Manifest) (shared : Bool) :
    (s.index b files m shared).getContent m.contentId.toString =
      .ok (some ((ContentRow.ofManifest m.contentId.toString m shared).record
        m.contentId.toString)) := by
  rw [getContent_toString, Library.index, getElem?_insert, if_pos rfl]
  rfl

/-- What has been indexed is intact. -/
theorem intact_index {bytes : List UInt8} {m : Manifest} {chunks : List Chunk} {shared : Bool}
    (hm : Manifest.fromBytes b.blake3 bytes = .ok (m, chunks))
    (hdata : files (dataPath m.contentId.toString) = some bytes) :
    Intact b (s.index b files m shared).files m.contentId.toString := by
  have hne : dataPath m.contentId.toString ≠ manifestPath m.contentId.toString :=
    fun heq ↦ absurd (ManagedPath.mk.inj heq).2 (by decide)
  exact intact_of_stored hm ((Function.update_of_ne hne ..).trans hdata) (Function.update_self ..)

/-- Indexing leaves other content as it is. -/
theorem intact_index_of_ne {m : Manifest} {shared : Bool} (hne : m.contentId.toString ≠ contentId)
    (hframe : ∀ path : ManagedPath, path.directory ≠ m.contentId.toString →
      files path = s.files path) :
    Intact b (s.index b files m shared).files contentId ↔ Intact b s.files contentId := by
  refine intact_congr fun file ↦ ?_
  have hpath : ManagedPath.mk contentId file ≠ manifestPath m.contentId.toString :=
    fun heq ↦ hne (congrArg ManagedPath.directory heq).symm
  exact (Function.update_of_ne hpath ..).trans (hframe _ hne.symm)

/-- The managed copy is made without touching other directories. -/
theorem exists_importFile {id : ContentId} {bytes : List UInt8}
    (h : ContentId.digest b.blake3 bytes = id) :
    ∃ files, s.importFile b id bytes = .ok files ∧
      files (dataPath id.toString) = some bytes ∧
      ∀ path : ManagedPath, path.directory ≠ id.toString → files path = s.files path := by
  refine ⟨Function.update (Function.update (Function.update s.files (importingPath id.toString)
    (some bytes)) (importingPath id.toString) none) (dataPath id.toString) (some bytes), ?_,
    Function.update_self .., fun path hpath ↦ ?_⟩
  · rw [importFile, Function.update_self]
    exact if_neg (not_not.mpr h)
  · have hdata : path ≠ dataPath id.toString :=
      fun heq ↦ hpath (congrArg ManagedPath.directory heq)
    have htemporary : path ≠ importingPath id.toString :=
      fun heq ↦ hpath (congrArg ManagedPath.directory heq)
    rw [Function.update_of_ne hdata, Function.update_of_ne htemporary,
      Function.update_of_ne htemporary]

/-- Content is added when it can be read, is not too long and is not indexed; else nothing is
changed. -/
theorem addContent_cases (sources : Disk String) (path : String) (shared : Bool) :
    (∃ bytes m chunks, sources path = some bytes ∧
      Manifest.fromBytes b.blake3 bytes = .ok (m, chunks) ∧
      s.rows[m.contentId.toString]? = none ∧
      ∃ files : Disk ManagedPath, files (dataPath m.contentId.toString) = some bytes ∧
        (∀ path, path.directory ≠ m.contentId.toString → files path = s.files path) ∧
        s.addContent b sources path shared =
          (s.index b files m shared, .ok ((ContentRow.ofManifest m.contentId.toString m
            shared).record m.contentId.toString))) ∨
    ((∀ bytes m chunks, sources path = some bytes →
      Manifest.fromBytes b.blake3 bytes = .ok (m, chunks) →
      s.rows[m.contentId.toString]? ≠ none) ∧
      ∃ error, s.addContent b sources path shared = (s, .error error)) := by
  rw [addContent]
  rcases sources path with _ | bytes
  · exact .inr ⟨fun bytes m chunks hbytes ↦ (by cases hbytes), _, rfl⟩
  dsimp only
  rcases hm : Manifest.fromBytes b.blake3 bytes with error | ⟨m, chunks⟩
  · refine .inr ⟨fun other m chunks hbytes hbuilt ↦ ?_, _, rfl⟩
    obtain rfl := Option.some.inj hbytes
    cases hm.symm.trans hbuilt
  dsimp only
  rw [contentExists_toString]
  rcases hrow : s.rows[m.contentId.toString]? with _ | row
  · have hdigest : ContentId.digest b.blake3 bytes = m.contentId := by
      rw [(Manifest.fromBytes_eq_ok_iff.mp hm).2.2]
    obtain ⟨files, himport, hdata, hframe⟩ := exists_importFile (s := s) hdigest
    refine .inl ⟨bytes, m, chunks, rfl, hm, hrow, files, hdata, hframe, ?_⟩
    dsimp only [Option.isSome]
    rw [himport]
    dsimp only
    rw [getContent_index]
  · refine .inr ⟨fun other m' chunks' hbytes hbuilt ↦ ?_, _, rfl⟩
    obtain rfl := Option.some.inj hbytes
    obtain ⟨rfl, -⟩ := Prod.mk.inj (Except.ok.inj (hm.symm.trans hbuilt))
    rw [hrow]
    exact Option.some_ne_none row

/-- A download is completed when its file is there with the content asked for; else nothing is
changed. -/
theorem completeDownload_cases (id : ContentId) (shared : Bool) :
    (∃ bytes m chunks, s.files (dataPath id.toString) = some bytes ∧
      Manifest.fromBytes b.blake3 bytes = .ok (m, chunks) ∧ m.contentId = id ∧
      s.completeDownload b id shared = (s.index b s.files m shared,
        .ok ((ContentRow.ofManifest id.toString m shared).record id.toString))) ∨
    ((∀ bytes m chunks, s.files (dataPath id.toString) = some bytes →
      Manifest.fromBytes b.blake3 bytes = .ok (m, chunks) → m.contentId ≠ id) ∧
      ∃ error, s.completeDownload b id shared = (s, .error error)) := by
  rw [completeDownload]
  rcases s.files (dataPath id.toString) with _ | bytes
  · exact .inr ⟨fun bytes m chunks hbytes ↦ (by cases hbytes), _, rfl⟩
  dsimp only
  rcases hm : Manifest.fromBytes b.blake3 bytes with error | ⟨m, chunks⟩
  · refine .inr ⟨fun other m chunks hbytes hbuilt ↦ ?_, _, rfl⟩
    obtain rfl := Option.some.inj hbytes
    cases hm.symm.trans hbuilt
  dsimp only
  split_ifs with hid
  · refine .inr ⟨fun other m' chunks' hbytes hbuilt ↦ ?_, _, rfl⟩
    obtain rfl := Option.some.inj hbytes
    obtain ⟨rfl, -⟩ := Prod.mk.inj (Except.ok.inj (hm.symm.trans hbuilt))
    exact hid
  · obtain rfl := not_not.mp hid
    refine .inl ⟨bytes, m, chunks, rfl, hm, rfl, ?_⟩
    rw [getContent_index]

/-- Content is removed when the text denotes an indexed identifier; else nothing is changed. -/
theorem removeContent_cases (text : String) (deleteBytes : Bool) :
    (∃ id row, ContentId.fromStr text = .ok id ∧ s.rows[id.toString]? = some row ∧
      s.removeContent text deleteBytes = (s.delete id.toString deleteBytes, .ok ())) ∨
    ∃ error, s.removeContent text deleteBytes = (s, .error error) := by
  rw [removeContent]
  rcases ContentId.fromStr text with error | id
  · exact .inr ⟨_, rfl⟩
  dsimp only
  rw [getContent_toString]
  rcases hrow : s.rows[id.toString]? with _ | row
  · exact .inr ⟨_, rfl⟩
  · exact .inl ⟨id, row, rfl, hrow, rfl⟩

end Library

end TripTorrent
