import TripTorrent.Node.Sharing

/-!
# What a node advertises

A listing is healthy when every record it reports as advertised is shared and intact. Startup leaves
a healthy node, but nothing that happens later looks at the map of providers: neither a listing that
finds content missing or corrupt nor an operation that rewrites the row of content as not shared
stops the provider.

The condition `Harmless` on a single action says when it does not do so, and it is exact: from a
healthy node on, an action leads to a healthy one just when it is harmless.
-/

namespace TripTorrent.Sharing

open Std (ExtTreeMap)
open Storage (Disk)
open Storage.Keyed

variable {b : Backend} {s t : Sharing}

/-- Every record of a listing that says advertised says shared and intact as well. -/
def Healthy (b : Backend) (s : Sharing) : Prop :=
  ∃ records, (s.listContent b).2 = .ok records ∧
    ∀ record ∈ records, record.advertised → record.shared ∧ record.integrity = .ok

/-- Content with a provider is shared and intact. -/
def Sound (b : Backend) (s : Sharing) : Prop :=
  ∀ contentId row, s.library.rows[contentId]? = some row → s.providers[contentId]? ≠ none →
    row.shared ∧ Library.Intact b s.library.files contentId

/-- When an action does not leave content that is advertised unshared or damaged. -/
def Harmless (b : Backend) (s : Sharing) : Action → Prop
  | .addContent sources path shared =>
    shared ∨ ∀ bytes, sources path = some bytes → bytes.length ≤ maxContentLength →
      s.library.rows[(ContentId.digest b.blake3 bytes).toString]? = none →
      s.providers[(ContentId.digest b.blake3 bytes).toString]? = none
  | .finishDownload contentId shared =>
    shared ∨ s.providers[contentId.toString]? = none ∨
      ∀ bytes, s.library.files (dataPath contentId.toString) = some bytes →
        bytes.length ≤ maxContentLength → ContentId.digest b.blake3 bytes ≠ contentId
  | .files files =>
    ∀ contentId row, s.library.rows[contentId]? = some row → s.providers[contentId]? ≠ none →
      Library.Intact b files contentId
  | .removeContent .. | .listContent | .shutdown | .restart _ => True

/-! ## Listings -/

theorem contains_iff {contentId : String} :
    s.providers.contains contentId ↔ s.providers[contentId]? ≠ none := by
  rw [ExtTreeMap.contains_eq_isSome_getElem?, Option.isSome_iff_ne_none]

theorem healthy_iff (h : s.library.Indexed) : s.Healthy b ↔ s.Sound b := by
  rw [Healthy, listContent_eq h]
  simp only [Except.ok.injEq, exists_eq_left', List.forall_mem_map]
  constructor
  · intro hall contentId row hrow hentry
    obtain ⟨-, -, hdata, hmanifest⟩ := h contentId row hrow
    have hmem : (contentId, Library.check b s.library.files contentId row) ∈
        (s.library.rows.map (Library.check b s.library.files)).toList := by
      rw [ExtTreeMap.mem_toList_iff_getElem?_eq_some, ExtTreeMap.getElem?_map, hrow]
      rfl
    exact (Library.check_eq hdata hmanifest).mp (hall _ hmem (contains_iff.mpr hentry))
  · rintro hsound ⟨contentId, row⟩ hmem hadvertised
    rw [ExtTreeMap.mem_toList_iff_getElem?_eq_some, ExtTreeMap.getElem?_map,
      Option.map_eq_some_iff] at hmem
    obtain ⟨row, hrow, rfl⟩ := hmem
    obtain ⟨-, -, hdata, hmanifest⟩ := h contentId row hrow
    exact (Library.check_eq hdata hmanifest).mpr
      (hsound contentId row hrow (contains_iff.mp hadvertised))

/-! ## Single actions -/

/-- Verifying intact content does not change whether it is shared. -/
theorem sound_verified (hindexed : s.library.Indexed) (h : s.Sound b) :
    Sound b { s with library.rows := s.library.rows.map (Library.check b s.library.files) } := by
  intro contentId row hrow hentry
  change (s.library.rows.map _)[contentId]? = _ at hrow
  rw [ExtTreeMap.getElem?_map, Option.map_eq_some_iff] at hrow
  obtain ⟨row, hrow, rfl⟩ := hrow
  obtain ⟨hshared, hintact⟩ := h contentId row hrow hentry
  obtain ⟨-, -, hdata, hmanifest⟩ := hindexed contentId row hrow
  exact ⟨((Library.check_eq hdata hmanifest).mpr ⟨hshared, hintact⟩).1, hintact⟩

theorem getElem?_startProvider {content : ContentRecord} {contentId : String}
    (h : content.contentId ≠ contentId) :
    (s.startProvider content).providers[contentId]? = s.providers[contentId]? := by
  rcases startProvider_cases (s := s) content with ⟨-, -, heq⟩ | ⟨-, heq⟩
  · rw [heq]
    change (s.providers.insert _ _)[contentId]? = _
    rw [getElem?_insert, if_neg h]
  · rw [heq]

/-- Indexed content is sound unless it is not to be shared and has a provider. -/
theorem sound_index_iff {bytes : List UInt8} {m : Manifest} {chunks : List Chunk}
    {files : Disk ManagedPath} {shared : Bool} (h : s.Sound b)
    (hm : Manifest.fromBytes b.blake3 bytes = .ok (m, chunks))
    (hdata : files (dataPath m.contentId.toString) = some bytes)
    (hframe : ∀ path : ManagedPath, path.directory ≠ m.contentId.toString →
      files path = s.library.files path) :
    (s.index b files m shared).Sound b ↔
      shared ∨ s.providers[m.contentId.toString]? = none := by
  have hlibrary : (s.index b files m shared).library = s.library.index b files m shared := by
    rw [index]
    split_ifs
    · rw [library_startProvider]
    · rfl
  constructor
  · intro hsound
    by_contra hnot
    rw [not_or] at hnot
    obtain ⟨hshared, hentry⟩ := hnot
    obtain rfl := Bool.eq_false_iff.mpr hshared
    -- the new row is not shared and its provider is still there
    have hrow : (s.index b files m false).library.rows[m.contentId.toString]? =
        some (.ofManifest m.contentId.toString m false) := by
      rw [hlibrary, Library.index, getElem?_insert, if_pos rfl]
    exact absurd (hsound _ _ hrow hentry).1 Bool.false_ne_true
  · intro hor contentId row hrow hentry
    rw [hlibrary] at hrow ⊢
    rcases inserted_or_unchanged hrow with ⟨rfl, rfl⟩ | ⟨hne, hrow⟩
    · refine ⟨?_, Library.intact_index hm hdata⟩
      rcases hor with hshared | hnone
      · exact hshared
      · rcases shared with _ | _
        · exact absurd hnone hentry
        · rfl
    · have hentry' : s.providers[contentId]? ≠ none := by
        rw [index] at hentry
        split_ifs at hentry
        · rw [getElem?_startProvider hne] at hentry
          exact hentry
        · exact hentry
      obtain ⟨hshared, hold⟩ := h contentId row hrow hentry'
      exact ⟨hshared, (Library.intact_index_of_ne hne hframe).mpr hold⟩

theorem sound_delete (h : s.Sound b) (text : String) (id : ContentId) (deleteBytes : Bool) :
    Sound b { s.stopProvider text with library := s.library.delete id.toString deleteBytes } := by
  intro contentId row hrow hentry
  obtain ⟨hne, hrow⟩ := getElem?_of_erase hrow
  change (s.stopProvider text).providers[contentId]? ≠ none at hentry
  rw [getElem?_stopProvider] at hentry
  split_ifs at hentry
  · exact absurd rfl hentry
  obtain ⟨hshared, hintact⟩ := h contentId row hrow hentry
  refine ⟨hshared, (Library.intact_congr fun file ↦ ?_).mpr hintact⟩
  rw [Library.delete]
  split_ifs
  · exact if_neg (Ne.symm hne)
  · rfl

theorem sound_stopProvider (h : s.Sound b) (text : String) : (s.stopProvider text).Sound b := by
  intro contentId row hrow hentry
  rw [library_stopProvider] at hrow ⊢
  rw [getElem?_stopProvider] at hentry
  split_ifs at hentry
  · exact absurd rfl hentry
  · exact h contentId row hrow hentry

/-! ## Startup -/

/-- Providers are only started for records that say shared and intact. -/
theorem sound_startProviders {contents : List ContentRecord} (h : s.Sound b)
    (hall : ∀ content ∈ contents, content.shared → content.integrity = .ok →
      ∀ row, s.library.rows[content.contentId]? = some row →
        row.shared ∧ Library.Intact b s.library.files content.contentId) :
    (s.startProviders contents).Sound b := by
  induction contents generalizing s with
  | nil => exact h
  | cons content contents ih =>
    have htail := fun other hother ↦ hall other (List.mem_cons_of_mem _ hother)
    rw [startProviders, List.foldl_cons]
    split_ifs with hgood
    · refine ih ?_ (by rw [library_startProvider]; exact htail)
      intro contentId row hrow hentry
      rw [library_startProvider] at hrow ⊢
      by_cases hid : content.contentId = contentId
      · subst hid
        exact hall content List.mem_cons_self hgood.1 hgood.2 row hrow
      · rw [getElem?_startProvider hid] at hentry
        exact h contentId row hrow hentry
    · exact ih h htail

theorem sound_create {library : Library} (h : library.Indexed) {bootstrap : Option String}
    (ht : (create b library bootstrap).2 = .ok t) : t.Sound b := by
  rw [create_eq h] at ht
  obtain rfl := Except.ok.inj ht
  refine sound_startProviders (fun contentId row hrow hentry ↦ ?_) ?_
  · exact absurd ExtTreeMap.getElem?_empty hentry
  · rintro content hcontent hshared hok row hrow
    obtain ⟨⟨contentId, row'⟩, hmem, rfl⟩ := List.mem_map.mp hcontent
    rw [ExtTreeMap.mem_toList_iff_getElem?_eq_some] at hmem
    obtain rfl := Option.some.inj (hmem.symm.trans hrow)
    -- what the second verification has found is what the files are
    change ((library.rows.map _).map _)[contentId]? = _ at hmem
    rw [ExtTreeMap.getElem?_map, Option.map_eq_some_iff] at hmem
    obtain ⟨row, hmem, rfl⟩ := hmem
    obtain ⟨-, -, hdata, hmanifest⟩ := h.verified library.files contentId row hmem
    exact ⟨hshared, ((Library.check_eq hdata hmanifest).mp ⟨hshared, hok⟩).2⟩

/-! ## Runs -/

theorem exists_fromBytes {bytes : List UInt8} (h : bytes.length ≤ maxContentLength) :
    ∃ m chunks, Manifest.fromBytes b.blake3 bytes = .ok (m, chunks) ∧
      m.contentId = ContentId.digest b.blake3 bytes :=
  ⟨_, _, Manifest.fromBytes_eq_ok_iff.mpr ⟨h, rfl, rfl⟩, rfl⟩

/-- A healthy node stays so under an action just when the action is harmless. -/
theorem sound_next_iff {a : Action} (hs : s.Invariant) (h : s.Sound b)
    (ht : s.next b a = some t) : t.Sound b ↔ s.Harmless b a := by
  rcases a with ⟨sources, path, shared⟩ | ⟨id, shared⟩ | ⟨text, deleteBytes⟩ | _ | _ | bootstrap |
    files
  · obtain rfl := Option.some.inj ht
    rcases addContent_cases (b := b) (s := s) sources path shared with
      ⟨bytes, m, chunks, files, hbytes, hm, hrow, hdata, hframe, heq⟩ | ⟨hnone, heq⟩
    · have hdigest : m.contentId = ContentId.digest b.blake3 bytes := by
        rw [(Manifest.fromBytes_eq_ok_iff.mp hm).2.2]
      rw [heq, sound_index_iff h hm hdata hframe, Harmless, hdigest]
      rw [hdigest] at hrow
      refine or_congr_right ⟨fun hentry other hother _ _ ↦ ?_, fun hall ↦ ?_⟩
      · obtain rfl := Option.some.inj (hbytes.symm.trans hother)
        exact hentry
      · exact hall bytes hbytes (Manifest.fromBytes_eq_ok_iff.mp hm).1 hrow
    · rw [heq]
      refine iff_of_true h (.inr fun bytes hbytes hlength hrow ↦ ?_)
      obtain ⟨m, chunks, hm, hdigest⟩ := exists_fromBytes (b := b) hlength
      exact absurd (hdigest ▸ hrow) (hnone bytes m chunks hbytes hm)
  · obtain rfl := Option.some.inj ht
    rcases finishDownload_cases (b := b) (s := s) id shared with
      ⟨bytes, m, chunks, hbytes, hm, rfl, heq⟩ | ⟨hnone, heq⟩
    · rw [heq, sound_index_iff h hm hbytes fun _ _ ↦ rfl, Harmless]
      refine or_congr_right ⟨.inl, fun hor ↦ hor.resolve_right fun hall ↦ ?_⟩
      obtain ⟨hlength, -, hbuilt⟩ := Manifest.fromBytes_eq_ok_iff.mp hm
      exact hall bytes hbytes hlength (by rw [hbuilt])
    · rw [heq]
      refine iff_of_true h (.inr (.inr fun bytes hbytes hlength ↦ ?_))
      obtain ⟨m, chunks, hm, hdigest⟩ := exists_fromBytes (b := b) hlength
      exact hdigest ▸ hnone bytes m chunks hbytes hm
  · obtain rfl := Option.some.inj ht
    refine iff_of_true ?_ trivial
    rcases removeContent_cases (s := s) text deleteBytes with ⟨id, -, -, -, heq⟩ | ⟨error, heq⟩
    · rw [heq]
      exact sound_delete h text id deleteBytes
    · rw [heq]
      exact sound_stopProvider h text
  · obtain rfl := Option.some.inj ht
    rw [listContent_eq hs.indexed]
    exact iff_of_true (sound_verified hs.indexed h) trivial
  · obtain rfl := Option.some.inj ht
    exact iff_of_true h trivial
  · exact iff_of_true (sound_create hs.indexed (create_of_toOption ht)) trivial
  · obtain rfl := Option.some.inj ht
    exact ⟨fun hsound contentId row hrow hentry ↦ (hsound contentId row hrow hentry).2,
      fun hall contentId row hrow hentry ↦
        ⟨(h contentId row hrow hentry).1, hall contentId row hrow hentry⟩⟩

/-- A harmless action. -/
def HarmlessStep (b : Backend) (s t : Sharing) : Prop :=
  ∃ a, s.Harmless b a ∧ s.next b a = some t

/-- **When nothing unhealthy is advertised.** As long as all actions have been harmless every
listing is healthy, and the first action that is not harmless makes listings unhealthy. -/
theorem listContent_healthy_iff {s₀ : Sharing} (hinit : Initial b s₀)
    (hrun : Relation.ReflTransGen (HarmlessStep b) s₀ s) :
    s.Healthy b ∧ ∀ a t, s.next b a = some t → (t.Healthy b ↔ s.Harmless b a) := by
  have hsound₀ : s₀.Sound b := by
    obtain ⟨files, bootstrap, hs⟩ := hinit
    exact sound_create Library.indexed_empty hs
  have hinv : s.Invariant ∧ s.Sound b := by
    refine Transition.invariant (I := fun s ↦ s.Invariant ∧ s.Sound b) ?_
      ⟨invariant_initial hinit, hsound₀⟩ hrun
    rintro s t ⟨hs, hsound⟩ ⟨a, ha, ht⟩
    exact ⟨hs.next ht, (sound_next_iff hs hsound ht).mpr ha⟩
  obtain ⟨hs, hsound⟩ := hinv
  refine ⟨(healthy_iff hs.indexed).mpr hsound, fun a t ht ↦ ?_⟩
  rw [healthy_iff (hs.next ht).indexed]
  exact sound_next_iff hs hsound ht

/-! ### A published payload -/

theorem published_healthy :
    published.Healthy (.postcard Vectors.payloadHash) ∧
      ∀ a t, published.next (.postcard Vectors.payloadHash) a = some t →
        (t.Healthy (.postcard Vectors.payloadHash) ↔
          published.Harmless (.postcard Vectors.payloadHash) a) :=
  listContent_healthy_iff initial_started (.single ⟨.addContent _ _ _, .inl rfl, rfl⟩)

/-- The published payload after its files have been deleted. -/
def bereft : Sharing := { published with library.files := fun _ ↦ none }

/-- The listing that finds out reports the payload as missing, not shared and advertised. -/
theorem listContent_missing_advertised :
    Reachable (.postcard Vectors.payloadHash) bereft ∧
      (bereft.listContent (.postcard Vectors.payloadHash)).2 =
        .ok [{ contentId := (ContentId.mk Vectors.payloadDigest).toString
               length := 30
               chunkCount := 1
               dataPath := dataPath (ContentId.mk Vectors.payloadDigest).toString
               shared := false
               advertised := true
               complete := true
               integrity := .missing }] := by
  refine ⟨⟨started, initial_started, .head ⟨.addContent _ _ _, rfl⟩ (.single ⟨.files _, rfl⟩)⟩, ?_⟩
  decide +kernel

end TripTorrent.Sharing
