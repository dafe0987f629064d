import TripTorrent.Interop.Identity

/-!
# The markers of v1 and v2 torrents

An `info` dictionary is that of a v1 torrent by its `pieces`, and that of a v2 torrent by its
`meta version`. Either field decides, once it has the right type: a torrent is refused if the rest
does not go with it. A field of another type is read as if it were not there, so that a torrent can
have a marker of each kind and be taken for one kind only.

In a parsed file the keys of every dictionary increase, and there the binary search for a field
gives what looking it up gives (`find_eq_lookup`).
-/

namespace TripTorrent.Interop

open Codec

/-! ## Fields of parsed dictionaries -/

section Fields

variable {lib : Library} {node : BencodeNode} {entries : Entries} {key : String}

/-- The search for a field in a dictionary with increasing keys. -/
theorem find_eq_lookup (hsorted : (entries.map Prod.fst).Pairwise (· < ·)) :
    find lib entries key = entries.lookup (utf8 key) := by
  cases hlookup : entries.lookup (utf8 key) with
  | some node =>
    obtain ⟨_, _, rfl, -⟩ := List.lookup_eq_some_iff.mp hlookup
    exact find_eq_some hsorted (List.mem_append_right _ List.mem_cons_self)
  | none =>
    rw [find]
    cases hsearch : lib.binarySearch (entries.map Prod.fst) (utf8 key) with
    | none => rfl
    | some index =>
      have hkey := List.mem_of_getElem? (lib.binarySearch_eq_some _ _ _ hsorted hsearch)
      obtain ⟨entry, hentry, hkey⟩ := List.mem_map.mp hkey
      have hother := List.lookup_eq_none_iff.mp hlookup entry hentry
      simp [hkey] at hother

theorem lookup_isSome_iff : (entries.lookup (utf8 key)).isSome = true ↔
    utf8 key ∈ entries.map Prod.fst := by
  rw [List.lookup_isSome_iff, List.mem_map]
  refine exists_congr fun entry ↦ and_congr_right fun _ ↦ ?_
  rw [beq_iff_eq, eq_comm]

theorem lookup_eq_some_iff (hsorted : (entries.map Prod.fst).Pairwise (· < ·)) :
    entries.lookup (utf8 key) = some node ↔ (utf8 key, node) ∈ entries := by
  constructor
  · intro h
    obtain ⟨_, _, rfl, -⟩ := List.lookup_eq_some_iff.mp h
    exact List.mem_append_right _ List.mem_cons_self
  · intro h
    obtain ⟨other, hother⟩ := Option.isSome_iff_exists.mp
      (lookup_isSome_iff.mpr (List.mem_map_of_mem h))
    obtain ⟨_, _, rfl, -⟩ := List.lookup_eq_some_iff.mp hother
    have hsame := eq_of_sorted hsorted (List.mem_append_right _ List.mem_cons_self) h rfl
    rw [hother, (Prod.mk.inj hsame).2]

/-- The field with a key, if it is of bytes. -/
def lookupBytes (entries : Entries) (key : String) : Option (List UInt8) :=
  match entries.lookup (utf8 key) with
  | some ⟨.bytes value, _, _⟩ => some value
  | _ => none

/-- The field with a key, if it is an integer. -/
def lookupInteger (entries : Entries) (key : String) : Option ℤ :=
  match entries.lookup (utf8 key) with
  | some ⟨.integer value, _, _⟩ => some value
  | _ => none

theorem bytesField_eq_lookupBytes (hsorted : (entries.map Prod.fst).Pairwise (· < ·)) :
    bytesField lib entries key = lookupBytes entries key := by
  rw [bytesField, find_eq_lookup hsorted, lookupBytes]
  cases entries.lookup (utf8 key) with
  | none => rfl
  | some node =>
    obtain ⟨value, start, stop⟩ := node
    cases value with
    | _ => rfl

theorem integerField_eq_lookupInteger (hsorted : (entries.map Prod.fst).Pairwise (· < ·)) :
    integerField lib entries key = lookupInteger entries key := by
  rw [integerField, find_eq_lookup hsorted, lookupInteger]
  cases entries.lookup (utf8 key) with
  | none => rfl
  | some node =>
    obtain ⟨value, start, stop⟩ := node
    cases value with
    | _ => rfl

/-- A field that is asked for by its type is found whenever it is there only if it has the type. -/
theorem bytesField_isSome_iff (hsorted : (entries.map Prod.fst).Pairwise (· < ·)) :
    ((bytesField lib entries key).isSome = true ↔ utf8 key ∈ entries.map Prod.fst) ↔
      ∀ node, (utf8 key, node) ∈ entries → ∃ value, node.value = .bytes value := by
  rw [bytesField_eq_lookupBytes hsorted, lookupBytes, ← lookup_isSome_iff]
  simp only [← lookup_eq_some_iff hsorted]
  cases entries.lookup (utf8 key) with
  | none => simp
  | some node =>
    obtain ⟨value, start, stop⟩ := node
    cases value with
    | _ => simp

theorem integerField_isSome_iff (hsorted : (entries.map Prod.fst).Pairwise (· < ·)) :
    ((integerField lib entries key).isSome = true ↔ utf8 key ∈ entries.map Prod.fst) ↔
      ∀ node, (utf8 key, node) ∈ entries → ∃ value, node.value = .integer value := by
  rw [integerField_eq_lookupInteger hsorted, lookupInteger, ← lookup_isSome_iff]
  simp only [← lookup_eq_some_iff hsorted]
  cases entries.lookup (utf8 key) with
  | none => simp
  | some node =>
    obtain ⟨value, start, stop⟩ := node
    cases value with
    | _ => simp

end Fields

/-! ## The info dictionary -/

/-- The fields of the `info` dictionary of a metainfo file. -/
def HasInfo (input : List UInt8) (infoEntries : Entries) : Prop :=
  ∃ root entries info, parseBencode input = .ok root ∧ dictionary root = some entries ∧
    (utf8 "info", info) ∈ entries ∧ dictionary info = some infoEntries

variable {lib : Library} {input : List UInt8} {infoEntries : Entries} {identity : TorrentIdentity}

theorem HasInfo.canonical (h : HasInfo input infoEntries) :
    (infoEntries.map Prod.fst).Pairwise (· < ·) ∧
      ∀ entry ∈ infoEntries, entry.2.plain.Canonical := by
  obtain ⟨root, entries, info, hroot, hentries, hinfo, hfields⟩ := h
  have hvalues := (canonical_entries (canonical_of_parseBencode hroot) hentries).2
  exact canonical_entries (hvalues _ hinfo) hfields

/-- The identity of a file with an `info` dictionary. -/
theorem HasInfo.torrentIdentity_eq (lib : Library) (h : HasInfo input infoEntries) :
    ∃ rawInfo, torrentIdentity lib input = infoIdentity lib infoEntries rawInfo := by
  obtain ⟨root, entries, info, hroot, hentries, hinfo, hfields⟩ := h
  refine ⟨info.plain.encode, ?_⟩
  rw [Interop.torrentIdentity_eq hroot hentries hinfo, hfields]

theorem exists_hasInfo (h : torrentIdentity lib input = .ok identity) :
    ∃ infoEntries, HasInfo input infoEntries := by
  rw [torrentIdentity] at h
  cases hroot : parseBencode input with
  | error error =>
    rw [hroot] at h
    cases h
  | ok root =>
    rw [hroot] at h
    dsimp only at h
    cases hentries : dictionary root with
    | none =>
      rw [hentries] at h
      cases h
    | some entries =>
      rw [hentries] at h
      dsimp only [Option.bind_eq_bind, Option.bind_some] at h
      have hsorted := (canonical_entries (canonical_of_parseBencode hroot) hentries).1
      cases hinfo : find lib entries "info" with
      | none =>
        rw [hinfo] at h
        cases h
      | some info =>
        rw [hinfo] at h
        dsimp only at h
        cases hfields : dictionary info with
        | none =>
          rw [hfields] at h
          cases h
        | some infoEntries =>
          rw [find_eq_lookup hsorted, lookup_eq_some_iff hsorted] at hinfo
          exact ⟨infoEntries, root, entries, info, hroot, hentries, hinfo, hfields⟩

/-! ## Accepted forms -/

/-- What is accepted has the form that its markers of the right type ask for. -/
theorem forms_of_torrentForms {isV1 isV2 : Bool}
    (h : torrentForms lib infoEntries = .ok (isV1, isV2)) :
    isV1 = (bytesField lib infoEntries "pieces").isSome ∧
      isV2 = (integerField lib infoEntries "meta version").isSome := by
  rw [torrentForms] at h
  split at h
  · cases h
  · dsimp only at h
    split_ifs at h with hversion hpieces htree hlength
    obtain ⟨rfl, rfl⟩ := Prod.mk.inj (Except.ok.inj h)
    constructor
    · cases hfield : bytesField lib infoEntries "pieces" with
      | none => rfl
      | some pieces =>
        simp only [hfield, Option.isSome_some, Bool.true_and, Bool.not_eq_true',
          Bool.not_eq_false] at hpieces ⊢
        exact hpieces
    · cases hfield : integerField lib infoEntries "meta version" with
      | none => rfl
      | some version =>
        simp only [hfield, Option.isSome_some, Bool.true_and, Bool.not_eq_true',
          Bool.not_eq_false] at htree ⊢
        exact htree

/-- The hashes of an accepted torrent are those of its forms. -/
theorem forms_of_infoIdentity {rawInfo : List UInt8}
    (h : infoIdentity lib infoEntries rawInfo = .ok identity) :
    torrentForms lib infoEntries =
      .ok (identity.btih.isSome, identity.btmhSha256.isSome) ∧
      torrentKind (identity.btih.isSome, identity.btmhSha256.isSome) = .ok identity.kind := by
  obtain ⟨⟨isV1, isV2⟩, hforms, h⟩ := Outcome.bind_eq_ok_iff.mp h
  obtain ⟨kind, hkind, h⟩ := Outcome.bind_eq_ok_iff.mp h
  obtain rfl := Except.ok.inj h
  have hbtih : (if isV1 then some (String.ofList (hexEncode (lib.sha1 rawInfo))) else none).isSome =
      isV1 := by cases isV1 <;> rfl
  have hbtmh :
      (if isV2 then some (String.ofList (hexEncode (lib.sha256 rawInfo))) else none).isSome =
        isV2 := by cases isV2 <;> rfl
  dsimp only
  rw [hbtih, hbtmh]
  exact ⟨hforms, hkind⟩

/-- **Which markers are recognised.** An accepted file has an `info` dictionary, and its identity
has a hash for each marker there exactly if `pieces` is not of another type than bytes, and
`meta version` not of another type than integer. -/
theorem markers_recognised_iff (h : torrentIdentity lib input = .ok identity) :
    (∃ infoEntries, HasInfo input infoEntries) ∧
    ∀ infoEntries, HasInfo input infoEntries →
      (((identity.btih.isSome = true ↔ utf8 "pieces" ∈ infoEntries.map Prod.fst) ∧
        (identity.btmhSha256.isSome = true ↔
          utf8 "meta version" ∈ infoEntries.map Prod.fst)) ↔
      (∀ node, (utf8 "pieces", node) ∈ infoEntries → ∃ value, node.value = .bytes value) ∧
        ∀ node, (utf8 "meta version", node) ∈ infoEntries →
          ∃ value, node.value = .integer value) := by
  refine ⟨exists_hasInfo h, fun infoEntries hinfo ↦ ?_⟩
  obtain ⟨hsorted, -⟩ := hinfo.canonical
  obtain ⟨rawInfo, hidentity⟩ := hinfo.torrentIdentity_eq lib
  obtain ⟨hforms, -⟩ := forms_of_infoIdentity (hidentity.symm.trans h)
  obtain ⟨hv1, hv2⟩ := forms_of_torrentForms hforms
  rw [hv1, hv2, bytesField_isSome_iff hsorted, integerField_isSome_iff hsorted]

/-! A v2 torrent whose `pieces` is a number, and a v1 torrent whose `meta version` is a text. -/

namespace Vectors

def emptyFileTree : Bencode :=
  .dictionary [(utf8 "a", .dictionary [([], .dictionary [(utf8 "length", .integer 0)])])]

def numberedPieces : Bencode :=
  .dictionary [(utf8 "info", .dictionary [(utf8 "file tree", emptyFileTree),
    (utf8 "meta version", .integer 2), (utf8 "piece length", .integer 1),
    (utf8 "pieces", .integer 7)])]

def spelledVersion : Bencode :=
  .dictionary [(utf8 "info", .dictionary [(utf8 "length", .integer 1),
    (utf8 "meta version", .bytes (utf8 "2")), (utf8 "piece length", .integer 1),
    (utf8 "pieces", .bytes (List.replicate 20 0))])]

theorem canonical_emptyFileTree : emptyFileTree.Canonical := by
  refine .dictionary (by decide +kernel) ?_
  simp only [List.forall_mem_cons]
  refine ⟨.dictionary (by decide +kernel) ?_, List.forall_mem_nil _⟩
  simp only [List.forall_mem_cons]
  refine ⟨.dictionary (by decide +kernel) ?_, List.forall_mem_nil _⟩
  simp only [List.forall_mem_cons]
  exact ⟨.integer (by decide), List.forall_mem_nil _⟩

theorem parseBencode_numberedPieces :
    parseBencode numberedPieces.encode = .ok (locate 0 numberedPieces) := by
  refine parseBencode_eq_ok_iff.mpr ⟨numberedPieces, ⟨by decide +kernel, .dictionary ?_ ?_, rfl,
    by decide +kernel, by decide +kernel⟩, rfl⟩
  · decide +kernel
  · simp only [List.forall_mem_cons]
    refine ⟨.dictionary (by decide +kernel) ?_, List.forall_mem_nil _⟩
    simp only [List.forall_mem_cons]
    exact ⟨canonical_emptyFileTree, .integer (by decide), .integer (by decide),
      .integer (by decide), List.forall_mem_nil _⟩

theorem parseBencode_spelledVersion :
    parseBencode spelledVersion.encode = .ok (locate 0 spelledVersion) := by
  refine parseBencode_eq_ok_iff.mpr ⟨spelledVersion, ⟨by decide +kernel, .dictionary ?_ ?_, rfl,
    by decide +kernel, by decide +kernel⟩, rfl⟩
  · decide +kernel
  · simp only [List.forall_mem_cons]
    refine ⟨.dictionary (by decide +kernel) ?_, List.forall_mem_nil _⟩
    simp only [List.forall_mem_cons]
    exact ⟨.integer (by decide), .bytes _, .integer (by decide), .bytes _, List.forall_mem_nil _⟩

end Vectors

open Interop.Vectors in
/-- A marker of the wrong type is passed over. -/
theorem mistyped_marker_ignored :
    (∃ infoEntries, HasInfo numberedPieces.encode infoEntries ∧
        utf8 "pieces" ∈ infoEntries.map Prod.fst) ∧
      (torrentIdentity linear numberedPieces.encode).map
        (fun identity ↦ (identity.kind, identity.btih)) = .ok (.v2, none) ∧
      (∃ infoEntries, HasInfo spelledVersion.encode infoEntries ∧
        utf8 "meta version" ∈ infoEntries.map Prod.fst) ∧
      (torrentIdentity linear spelledVersion.encode).map
        (fun identity ↦ (identity.kind, identity.btmhSha256)) = .ok (.v1, none) := by
  refine ⟨⟨_, ⟨_, _, _, parseBencode_numberedPieces, rfl, List.mem_cons_self, rfl⟩, ?_⟩, ?_,
    ⟨_, ⟨_, _, _, parseBencode_spelledVersion, rfl, List.mem_cons_self, rfl⟩, ?_⟩, ?_⟩
  · rw [map_fst_locateEntries]
    decide +kernel
  · decide +kernel
  · rw [map_fst_locateEntries]
    decide +kernel
  · decide +kernel

open Interop.Vectors in
theorem markers_recognised_bareFile :
    ∃ identity infoEntries, torrentIdentity linear bareFile.encode = .ok identity ∧
      HasInfo bareFile.encode infoEntries ∧
      (identity.btih.isSome = true ↔ utf8 "pieces" ∈ infoEntries.map Prod.fst) := by
  obtain ⟨identity, hidentity⟩ : ∃ identity,
      torrentIdentity linear bareFile.encode = .ok identity := by
    have hok : (torrentIdentity linear bareFile.encode).isOk = true := by decide +kernel
    cases h : torrentIdentity linear bareFile.encode with
    | error error =>
      rw [h] at hok
      cases hok
    | ok identity => exact ⟨identity, rfl⟩
  have hinfo : HasInfo bareFile.encode (locateEntries 8 [(utf8 "length", .integer 1),
      (utf8 "piece length", .integer 1), (utf8 "pieces", .bytes (List.replicate 20 0))]) :=
    ⟨_, _, _, parseBencode_bareFile, rfl, List.mem_cons_self, rfl⟩
  refine ⟨identity, _, hidentity, hinfo,
    (((markers_recognised_iff hidentity).2 _ hinfo).mpr ⟨fun node hnode ↦ ?_, ?_⟩).1⟩
  · have hpieces := eq_of_sorted hinfo.canonical.1 hnode
      (List.mem_cons_of_mem _ (List.mem_cons_of_mem _ List.mem_cons_self)) rfl
    exact ⟨_, congrArg BencodeNode.value (Prod.mk.inj hpieces).2⟩
  · intro node hnode
    have hkey : utf8 "meta version" ∈ _ := List.mem_map_of_mem (f := Prod.fst) hnode
    rw [map_fst_locateEntries] at hkey
    exact absurd hkey (by decide +kernel)

end TripTorrent.Interop
