import TripTorrent.Node.Library
import TripTorrent.Transition.Inevitable

/-!
# Sharing of stored content

For content it shares, a node runs a provider worker, which goes on serving while its flag is set.
The map of providers holds the flags under the text of the content identifier, and content is
reported as advertised when it has an entry there. So sharing is recorded three times, in the
`shared` and `integrity` columns of the index and in the map, and different operations change
different ones of them.

A run is a sequence of operations, each executed on its own, between which other processes change
the managed files at will. A flag is addressed by the number of its worker; workers of a node that
has exited are gone.
-/

namespace TripTorrent

open Std (ExtTreeMap)
open Storage (Disk)
open Storage.Keyed

/-- A thread that serves content as long as its flag is set. -/
structure ProviderWorker where
  content : ContentRecord
  enabled : Bool

/-- The part of a running node that concerns stored content. -/
structure Sharing where
  library : Library
  bootstrap : Option String
  providers : ExtTreeMap String ℕ
  workers : List ProviderWorker

namespace Sharing

def disable (worker : ProviderWorker) : ProviderWorker := { worker with enabled := false }

section Operations

variable (b : Backend) (s : Sharing)

def startProvider (content : ContentRecord) : Sharing :=
  match s.bootstrap with
  | none => s
  | some _ =>
    if s.providers.contains content.contentId then s
    else
      { s with
        providers := s.providers.insert content.contentId s.workers.length
        workers := s.workers ++ [⟨content, true⟩] }

def stopProvider (contentId : String) : Sharing :=
  match s.providers[contentId]? with
  | none => s
  | some i =>
    { s with
      providers := s.providers.erase contentId
      workers := s.workers.modify i disable }

def addContent (sources : Disk String) (path : String) (shared : Bool) :
    Sharing × Except LibraryError ContentRecord :=
  match s.library.addContent b sources path shared with
  | (library, .error error) => ({ s with library }, .error error)
  | (library, .ok content) =>
    let s := { s with library }
    let s := if shared then s.startProvider content else s
    (s, .ok { content with advertised := s.providers.contains content.contentId })

/-- What `finish_download` does with the content of a download that has succeeded. -/
def finishDownload (contentId : ContentId) (shared : Bool) :
    Sharing × Except LibraryError ContentRecord :=
  match s.library.completeDownload b contentId shared with
  | (library, .error error) => ({ s with library }, .error error)
  | (library, .ok content) =>
    let s := { s with library }
    (if content.shared then s.startProvider content else s, .ok content)

/-- The provider is looked up under the text as it was passed. -/
def removeContent (contentId : String) (deleteBytes : Bool) :
    Sharing × Except LibraryError Unit :=
  let s := s.stopProvider contentId
  match s.library.removeContent contentId deleteBytes with
  | (library, result) => ({ s with library }, result)

def listContent : Sharing × Except LibraryError (List ContentRecord) :=
  match s.library.listContent b with
  | (library, .error error) => ({ s with library }, .error error)
  | (library, .ok content) =>
    ({ s with library }, .ok (content.map fun record ↦
      { record with advertised := s.providers.contains record.contentId }))

/-- What `shutdown` does with the providers. -/
def shutdown : Sharing :=
  let disableEntry (workers : List ProviderWorker) (entry : String × ℕ) :=
    workers.modify entry.2 disable
  { s with workers := s.providers.toList.foldl disableEntry s.workers }

/-- A provider is started for each record that says it is shared and intact. -/
def startProviders (contents : List ContentRecord) : Sharing :=
  contents.foldl (fun s content ↦
    if content.shared ∧ content.integrity = .ok then s.startProvider content else s) s

/-- What `create` does for stored content; opening the store verifies it a first time. -/
def create (library : Library) (bootstrap : Option String) :
    Library × Except LibraryError Sharing :=
  match library.verifyAll b with
  | (library, .error error) => (library, .error error)
  | (library, .ok ()) =>
    match library.listContent b with
    | (library, .error error) => (library, .error error)
    | (library, .ok contents) =>
      (library, .ok (startProviders ⟨library, bootstrap, ∅, []⟩ contents))

end Operations

/-! ## Runs -/

inductive Action where
  | addContent (sources : Disk String) (path : String) (shared : Bool)
  | finishDownload (contentId : ContentId) (shared : Bool)
  | removeContent (contentId : String) (deleteBytes : Bool)
  | listContent
  | shutdown
  /-- The node exits and is started again, possibly with another bootstrap node. -/
  | restart (bootstrap : Option String)
  /-- Other processes change the managed files. -/
  | files (files : Disk ManagedPath)

def next (b : Backend) (s : Sharing) : Action → Option Sharing
  | .addContent sources path shared => some (s.addContent b sources path shared).1
  | .finishDownload contentId shared => some (s.finishDownload b contentId shared).1
  | .removeContent contentId deleteBytes => some (s.removeContent contentId deleteBytes).1
  | .listContent => some (s.listContent b).1
  | .shutdown => some s.shutdown
  | .restart bootstrap => (create b s.library bootstrap).2.toOption
  | .files files => some { s with library.files := files }

/-- The node has been started on an empty index. -/
def Initial (b : Backend) (s : Sharing) : Prop :=
  ∃ files bootstrap, (create b ⟨∅, files⟩ bootstrap).2 = .ok s

def Reachable (b : Backend) (s : Sharing) : Prop :=
  ∃ s₀, Initial b s₀ ∧ Relation.ReflTransGen (Transition.Step (next b)) s₀ s

/-! ## Providers and their flags -/

/-- A worker that is serving is the one entered for its content. -/
def Entered (s : Sharing) : Prop :=
  ∀ (i : ℕ) (worker : ProviderWorker), s.workers[i]? = some worker → worker.enabled →
    s.providers[worker.content.contentId]? = some i

variable {b : Backend} {s t : Sharing}

theorem startProvider_cases (content : ContentRecord) :
    (s.bootstrap ≠ none ∧ s.providers[content.contentId]? = none ∧
      s.startProvider content =
        { s with
          providers := s.providers.insert content.contentId s.workers.length
          workers := s.workers ++ [⟨content, true⟩] }) ∨
    ((s.bootstrap = none ∨ s.providers[content.contentId]? ≠ none) ∧
      s.startProvider content = s) := by
  rw [startProvider]
  rcases hb : s.bootstrap with _ | bootstrap
  · exact .inr ⟨.inl rfl, rfl⟩
  rcases hp : s.providers[content.contentId]? with _ | i
  · refine .inl ⟨Option.some_ne_none _, rfl, if_neg ?_⟩
    rw [ExtTreeMap.contains_eq_isSome_getElem?, hp]
    exact Bool.false_ne_true
  · refine .inr ⟨.inr (Option.some_ne_none _), if_pos ?_⟩
    rw [ExtTreeMap.contains_eq_isSome_getElem?, hp]
    rfl

@[simp] theorem library_startProvider (content : ContentRecord) :
    (s.startProvider content).library = s.library := by
  rcases startProvider_cases (s := s) content with ⟨-, -, h⟩ | ⟨-, h⟩ <;> rw [h]

theorem Entered.startProvider (h : s.Entered) (content : ContentRecord) :
    (s.startProvider content).Entered := by
  rcases startProvider_cases (s := s) content with ⟨-, hnone, heq⟩ | ⟨-, heq⟩
  · rw [heq]
    intro i worker hi henabled
    rw [List.getElem?_append] at hi
    split_ifs at hi with hlt
    · -- a worker of the same content would have had the entry
      have hentry := h i worker hi henabled
      have hne : content.contentId ≠ worker.content.contentId := by
        intro hsame
        rw [← hsame, hnone] at hentry
        cases hentry
      change (s.providers.insert _ _)[_]? = _
      rw [getElem?_insert, if_neg hne, hentry]
    · rw [List.getElem?_singleton] at hi
      split_ifs at hi with hzero
      obtain rfl := Option.some.inj hi
      change (s.providers.insert _ _)[_]? = _
      rw [getElem?_insert, if_pos rfl]
      exact congrArg some (by omega)
  · rw [heq]
    exact h

/-- The worker behind an entry that is removed is the only one that can be serving under it. -/
theorem Entered.stopProvider (h : s.Entered) (contentId : String) :
    (s.stopProvider contentId).Entered := by
  rw [Sharing.stopProvider]
  rcases hi : s.providers[contentId]? with _ | i
  · exact h
  intro j worker hj henabled
  change (s.workers.modify i disable)[j]? = some worker at hj
  change (s.providers.erase contentId)[worker.content.contentId]? = some j
  rw [List.getElem?_modify] at hj
  split_ifs at hj with hij
  · obtain ⟨old, -, rfl⟩ := Option.map_eq_some_iff.mp hj
    cases henabled
  · have hentry := h j worker (by simpa using hj) henabled
    have hne : contentId ≠ worker.content.contentId := by
      intro hsame
      rw [← hsame, hi] at hentry
      exact hij (Option.some.inj hentry)
    rw [getElem?_erase, if_neg hne, hentry]

theorem getElem?_foldl_disable {indices : List (String × ℕ)} {workers : List ProviderWorker}
    {i : ℕ} {worker : ProviderWorker}
    (h : (indices.foldl (fun workers x ↦ workers.modify x.2 disable) workers)[i]? = some worker)
    (henabled : worker.enabled) : workers[i]? = some worker := by
  induction indices generalizing workers with
  | nil => exact h
  | cons x indices ih =>
    have hi := ih h
    rw [List.getElem?_modify] at hi
    split_ifs at hi with hx
    · obtain ⟨old, -, rfl⟩ := Option.map_eq_some_iff.mp hi
      cases henabled
    · simpa using hi

theorem Entered.shutdown (h : s.Entered) : s.shutdown.Entered :=
  fun i worker hi henabled ↦ h i worker (getElem?_foldl_disable hi henabled) henabled

theorem Entered.startProviders (h : s.Entered) (contents : List ContentRecord) :
    (s.startProviders contents).Entered := by
  induction contents generalizing s with
  | nil => exact h
  | cons content contents ih =>
    rw [Sharing.startProviders, List.foldl_cons]
    split_ifs
    · exact ih (h.startProvider content)
    · exact ih h

@[simp] theorem library_startProviders (contents : List ContentRecord) :
    (s.startProviders contents).library = s.library := by
  induction contents generalizing s with
  | nil => rfl
  | cons content contents ih =>
    rw [startProviders, List.foldl_cons]
    split_ifs
    · exact ih.trans (library_startProvider content)
    · exact ih

/-! ## What the operations do -/

/-- The node after content has been indexed and, if it is shared, its provider started. -/
def index (b : Backend) (s : Sharing) (files : Disk ManagedPath) (m : Manifest) (shared : Bool) :
    Sharing :=
  let contentId := m.contentId.toString
  let s := { s with library := s.library.index b files m shared }
  if shared then s.startProvider ((ContentRow.ofManifest contentId m shared).record contentId)
  else s

theorem addContent_cases (sources : Disk String) (path : String) (shared : Bool) :
    (∃ bytes m chunks files, sources path = some bytes ∧
      Manifest.fromBytes b.blake3 bytes = .ok (m, chunks) ∧
      s.library.rows[m.contentId.toString]? = none ∧
      files (dataPath m.contentId.toString) = some bytes ∧
      (∀ path : ManagedPath, path.directory ≠ m.contentId.toString →
        files path = s.library.files path) ∧
      (s.addContent b sources path shared).1 = s.index b files m shared) ∨
    ((∀ bytes m chunks, sources path = some bytes →
      Manifest.fromBytes b.blake3 bytes = .ok (m, chunks) →
      s.library.rows[m.contentId.toString]? ≠ none) ∧
      (s.addContent b sources path shared).1 = s) := by
  rcases Library.addContent_cases (b := b) (s := s.library) sources path shared with
    ⟨bytes, m, chunks, hbytes, hm, hrow, files, hdata, hframe, heq⟩ | ⟨hnone, error, heq⟩
  · refine .inl ⟨bytes, m, chunks, files, hbytes, hm, hrow, hdata, hframe, ?_⟩
    rw [addContent, heq]
    rfl
  · refine .inr ⟨hnone, ?_⟩
    rw [addContent, heq]

theorem finishDownload_cases (id : ContentId) (shared : Bool) :
    (∃ bytes m chunks, s.library.files (dataPath id.toString) = some bytes ∧
      Manifest.fromBytes b.blake3 bytes = .ok (m, chunks) ∧ m.contentId = id ∧
      (s.finishDownload b id shared).1 = s.index b s.library.files m shared) ∨
    ((∀ bytes m chunks, s.library.files (dataPath id.toString) = some bytes →
      Manifest.fromBytes b.blake3 bytes = .ok (m, chunks) → m.contentId ≠ id) ∧
      (s.finishDownload b id shared).1 = s) := by
  rcases Library.completeDownload_cases (b := b) (s := s.library) id shared with
    ⟨bytes, m, chunks, hbytes, hm, rfl, heq⟩ | ⟨hnone, error, heq⟩
  · refine .inl ⟨bytes, m, chunks, hbytes, hm, rfl, ?_⟩
    rw [finishDownload, heq]
    rfl
  · refine .inr ⟨hnone, ?_⟩
    rw [finishDownload, heq]

@[simp] theorem library_stopProvider (contentId : String) :
    (s.stopProvider contentId).library = s.library := by
  rw [stopProvider]
  split <;> rfl

theorem removeContent_cases (text : String) (deleteBytes : Bool) :
    (∃ id row, ContentId.fromStr text = .ok id ∧ s.library.rows[id.toString]? = some row ∧
      s.removeContent text deleteBytes =
        ({ s.stopProvider text with library := s.library.delete id.toString deleteBytes },
          .ok ())) ∨
    ∃ error, s.removeContent text deleteBytes = (s.stopProvider text, .error error) := by
  rw [removeContent, library_stopProvider]
  rcases Library.removeContent_cases (s := s.library) text deleteBytes with
    ⟨id, row, hid, hrow, heq⟩ | ⟨error, heq⟩
  · refine .inl ⟨id, row, hid, hrow, ?_⟩
    rw [heq]
  · refine .inr ⟨error, ?_⟩
    rw [heq, ← library_stopProvider text]

/-- A listing: the verified rows, and whether each has a provider. -/
theorem listContent_eq (h : s.library.Indexed) :
    s.listContent b =
      ({ s with library.rows := s.library.rows.map (Library.check b s.library.files) },
        .ok ((s.library.rows.map (Library.check b s.library.files)).toList.map fun x ↦
          { x.2.record x.1 with advertised := s.providers.contains x.1 })) := by
  rw [listContent, Library.listContent_eq h]
  dsimp only
  rw [List.map_map]
  rfl

/-- The library a started node has found: verified when it was opened and once more after. -/
def opened (b : Backend) (library : Library) : Library :=
  { library with
    rows := (library.rows.map (Library.check b library.files)).map
      (Library.check b library.files) }

theorem create_eq {library : Library} (h : library.Indexed) (bootstrap : Option String) :
    create b library bootstrap =
      (opened b library, .ok (startProviders ⟨opened b library, bootstrap, ∅, []⟩
        ((opened b library).rows.toList.map fun x ↦ x.2.record x.1))) := by
  rw [create, Library.verifyAll_eq h]
  dsimp only
  rw [Library.listContent_eq (h.verified _)]
  rfl

/-! ## Invariants of every run -/

structure Invariant (s : Sharing) : Prop where
  indexed : s.library.Indexed
  entered : s.Entered

theorem Invariant.index (h : s.Invariant) (files : Disk ManagedPath) (m : Manifest)
    (shared : Bool) : (s.index b files m shared).Invariant := by
  have hindexed : (s.library.index b files m shared).Indexed := h.indexed.index m shared
  have hentered : Entered { s with library := s.library.index b files m shared } := h.entered
  rw [Sharing.index]
  split_ifs
  · exact ⟨by rw [library_startProvider]; exact hindexed, hentered.startProvider _⟩
  · exact ⟨hindexed, hentered⟩

theorem invariant_create {library : Library} (h : library.Indexed) {bootstrap : Option String}
    (ht : (create b library bootstrap).2 = .ok t) : t.Invariant := by
  rw [create_eq h] at ht
  obtain rfl := Except.ok.inj ht
  have hempty : Entered ⟨opened b library, bootstrap, ∅, []⟩ := fun i worker hi ↦ by cases hi
  refine ⟨?_, hempty.startProviders _⟩
  rw [library_startProviders]
  exact (h.verified library.files).verified _

theorem invariant_initial (h : Initial b s) : s.Invariant := by
  obtain ⟨files, bootstrap, hs⟩ := h
  exact invariant_create Library.indexed_empty hs

theorem create_of_toOption {library : Library} {bootstrap : Option String}
    (h : (create b library bootstrap).2.toOption = some t) :
    (create b library bootstrap).2 = .ok t := by
  rcases hc : (create b library bootstrap).2 with error | u
  · rw [hc] at h
    cases h
  · rw [hc] at h
    exact congrArg Except.ok (Option.some.inj h)

theorem Invariant.next {a : Action} (h : s.Invariant) (ht : s.next b a = some t) :
    t.Invariant := by
  rcases a with ⟨sources, path, shared⟩ | ⟨id, shared⟩ | ⟨text, deleteBytes⟩ | _ | _ | bootstrap |
    files
  · obtain rfl := Option.some.inj ht
    rcases addContent_cases (b := b) (s := s) sources path shared with
      ⟨-, m, -, files, -, -, -, -, -, heq⟩ | ⟨-, heq⟩
    · rw [heq]
      exact h.index files m shared
    · rw [heq]
      exact h
  · obtain rfl := Option.some.inj ht
    rcases finishDownload_cases (b := b) (s := s) id shared with
      ⟨-, m, -, -, -, -, heq⟩ | ⟨-, heq⟩
    · rw [heq]
      exact h.index _ m shared
    · rw [heq]
      exact h
  · obtain rfl := Option.some.inj ht
    have hentered := h.entered.stopProvider text
    rcases removeContent_cases (s := s) text deleteBytes with ⟨id, -, -, -, heq⟩ | ⟨error, heq⟩
    · rw [heq]
      exact ⟨h.indexed.delete deleteBytes, hentered⟩
    · rw [heq]
      exact ⟨by rw [library_stopProvider]; exact h.indexed, hentered⟩
  · obtain rfl := Option.some.inj ht
    rw [listContent_eq h.indexed]
    exact ⟨h.indexed.verified _, h.entered⟩
  · obtain rfl := Option.some.inj ht
    exact ⟨h.indexed, h.entered.shutdown⟩
  · exact invariant_create h.indexed (create_of_toOption ht)
  · obtain rfl := Option.some.inj ht
    exact ⟨h.indexed, h.entered⟩

theorem Reachable.invariant (h : Reachable b s) : s.Invariant := by
  obtain ⟨s₀, hinit, hrun⟩ := h
  exact Transition.invariant (fun s t hs ⟨a, ht⟩ ↦ hs.next ht) (invariant_initial hinit) hrun

/-! ## Removal -/

/-- No worker serves the content, and none is entered for it. -/
def Stopped (s : Sharing) (contentId : String) : Prop :=
  s.providers[contentId]? = none ∧
    ∀ worker ∈ s.workers, worker.content.contentId = contentId → worker.enabled = false

/-- Without an entry nothing is served. -/
theorem Entered.stopped_iff (h : s.Entered) {contentId : String} :
    s.Stopped contentId ↔ s.providers[contentId]? = none := by
  refine ⟨fun hstopped ↦ hstopped.1, fun hnone ↦ ⟨hnone, fun worker hworker hid ↦ ?_⟩⟩
  obtain ⟨i, hi⟩ := List.mem_iff_getElem?.mp hworker
  rcases henabled : worker.enabled with _ | _
  · rfl
  · have hentry := h i worker hi henabled
    rw [hid, hnone] at hentry
    cases hentry

theorem getElem?_stopProvider (text contentId : String) :
    (s.stopProvider text).providers[contentId]? =
      if text = contentId then none else s.providers[contentId]? := by
  rw [stopProvider]
  rcases hi : s.providers[text]? with _ | i
  · split_ifs with heq
    · rw [← heq]
      exact hi
    · rfl
  · exact getElem?_erase

/-- **Removal stops sharing for just one spelling.** A removal that succeeds leaves the content
without a provider when the identifier was given in its canonical text or there was no provider to
begin with, and not otherwise. -/
theorem removeContent_stops_iff (h : Reachable b s) {text : String} {deleteBytes : Bool}
    (hok : s.removeContent text deleteBytes = (t, .ok ())) :
    ∃ id, ContentId.fromStr text = .ok id ∧
      (t.Stopped id.toString ↔
        text = id.toString ∨ s.providers[id.toString]? = none) := by
  have hentered := h.invariant.entered.stopProvider text
  rcases removeContent_cases (s := s) text deleteBytes with ⟨id, row, hid, -, heq⟩ | ⟨error, heq⟩
  · obtain ⟨rfl, -⟩ := Prod.mk.inj (heq.symm.trans hok)
    refine ⟨id, hid, ?_⟩
    have hleft : Entered
        { s.stopProvider text with library := s.library.delete id.toString deleteBytes } := hentered
    rw [hleft.stopped_iff]
    change (s.stopProvider text).providers[id.toString]? = none ↔ _
    rw [getElem?_stopProvider]
    split_ifs with hcanonical
    · exact iff_of_true rfl (.inl hcanonical)
    · exact ⟨.inr, fun hor ↦ hor.resolve_left hcanonical⟩
  · cases heq.symm.trans hok

/-! ### A published payload -/

section Published

/-- A node that has just been started for the first time. -/
def started : Sharing := ⟨⟨∅, fun _ ↦ none⟩, some "127.0.0.1:7000", ∅, []⟩

/-- The node after the payload has been added to be shared. -/
def published : Sharing :=
  (started.addContent (.postcard Vectors.payloadHash) (fun _ ↦ some Vectors.payload)
    "payload.txt" true).1

/-- The identifier of the payload in capital letters. -/
def payloadTextUpper : String :=
  "DB5D918A54A029EC640F0C9FCF7D231F39D3CAE27C76B58E4271AE02B5FA512D"

theorem initial_started : Initial (.postcard Vectors.payloadHash) started :=
  ⟨fun _ ↦ none, some "127.0.0.1:7000", rfl⟩

theorem reachable_published : Reachable (.postcard Vectors.payloadHash) published :=
  ⟨started, initial_started, .single ⟨.addContent _ _ _, rfl⟩⟩

/-- The node after the payload has been removed under a text. -/
def removed (text : String) : Sharing × Except LibraryError Unit :=
  published.removeContent text true

/-- Under the other spelling the content is removed and its worker goes on serving. -/
theorem removeContent_upper_leaves_provider :
    Reachable (.postcard Vectors.payloadHash) published ∧
      ContentId.fromStr payloadTextUpper = .ok ⟨Vectors.payloadDigest⟩ ∧
      (removed payloadTextUpper).2 = .ok () ∧
      (removed payloadTextUpper).1.library.rows.isEmpty ∧
      (removed payloadTextUpper).1.providers[(ContentId.mk Vectors.payloadDigest).toString]? =
        some 0 ∧
      (removed payloadTextUpper).1.workers.map (fun worker ↦ worker.enabled) = [true] :=
  ⟨reachable_published, by decide +kernel⟩

/-- In its canonical text the identifier does stop the worker. -/
theorem removeContent_canonical_stops :
    (removed (ContentId.mk Vectors.payloadDigest).toString).2 = .ok () ∧
      (removed (ContentId.mk Vectors.payloadDigest).toString).1.Stopped
        (ContentId.mk Vectors.payloadDigest).toString := by
  have hok : (removed (ContentId.mk Vectors.payloadDigest).toString).2 = .ok () := by
    decide +kernel
  have hremoved : removed (ContentId.mk Vectors.payloadDigest).toString =
      ((removed (ContentId.mk Vectors.payloadDigest).toString).1, .ok ()) :=
    Prod.mk.eta.symm.trans (congrArg (Prod.mk _) hok)
  obtain ⟨id, hid, hiff⟩ := removeContent_stops_iff reachable_published hremoved
  obtain rfl : ContentId.mk Vectors.payloadDigest = id :=
    Except.ok.inj ((ContentId.fromStr_toString _).symm.trans hid)
  exact ⟨hok, hiff.mpr (.inl rfl)⟩

end Published

end Sharing

end TripTorrent
