import TripTorrent.Interop.Canonical
import TripTorrent.Interop.Metainfo

/-!
# Torrent identity depends on the info value only

The identity of a torrent is computed from two views of its `info` dictionary: the fields come from
the parsed tree, and the hash is taken over the bytes between the recorded offsets. The two agree,
as at every node of a parsed tree the bytes between the offsets are the encoding of its value. So
neither the place of the dictionary in the file nor what stands around it matters.

Looking up a field needs only the keys, which are part of the value. That the search finds the
`info` dictionary itself is due to the order of the keys, which the parser enforces.
-/

namespace TripTorrent.Interop

open Codec

/-! ## Nodes and their ranges -/

mutual

/-- The node and all nodes below it. -/
def BencodeNode.nodes : BencodeNode → List BencodeNode
  | ⟨value, start, stop⟩ => ⟨value, start, stop⟩ :: value.nodes

def BencodeValue.nodes : BencodeValue → List BencodeNode
  | .bytes _ => []
  | .integer _ => []
  | .list values => nodesList values
  | .dictionary entries => nodesEntries entries

def nodesList : List BencodeNode → List BencodeNode
  | [] => []
  | node :: nodes => node.nodes ++ nodesList nodes

def nodesEntries : List (List UInt8 × BencodeNode) → List BencodeNode
  | [] => []
  | (_, node) :: entries => node.nodes ++ nodesEntries entries

end

/-- The node is where its value is encoded. -/
def BencodeNode.Stands (input : List UInt8) (node : BencodeNode) : Prop :=
  Occurs input node.start node.plain.encode ∧ node.stop = node.start + node.plain.encode.length

variable {input : List UInt8}

theorem stands_locate {v : Bencode} {start : ℕ} (h : Occurs input start v.encode) :
    (locate start v).Stands input := by
  rw [BencodeNode.Stands, plain_locate]
  exact ⟨h, rfl⟩

theorem stands_of_mem_nodes {v : Bencode} {start : ℕ} (h : Occurs input start v.encode) :
    ∀ node ∈ (locate start v).nodes, node.Stands input := by
  rw [locate, BencodeNode.nodes, List.forall_mem_cons]
  refine ⟨stands_locate h, ?_⟩
  induction v using Bencode.induction generalizing start with
  | bytes => exact List.forall_mem_nil _
  | integer => exact List.forall_mem_nil _
  | list values ih =>
    rw [Bencode.encode, occurs_cons_iff, occurs_append_iff] at h
    obtain ⟨-, h, -⟩ := h
    rw [locateValue, BencodeValue.nodes]
    generalize start + 1 = start at h
    induction values generalizing start with
    | nil => exact List.forall_mem_nil _
    | cons v values ihvalues =>
      rw [List.forall_mem_cons] at ih
      rw [Bencode.encodeList, occurs_append_iff] at h
      rw [locateList, nodesList, BencodeNode.nodes, List.forall_mem_append, List.forall_mem_cons]
      exact ⟨⟨stands_locate h.1, ih.1 h.1⟩, ihvalues ih.2 _ h.2⟩
  | dictionary entries ih =>
    rw [Bencode.encode, occurs_cons_iff, occurs_append_iff] at h
    obtain ⟨-, h, -⟩ := h
    rw [locateValue, BencodeValue.nodes]
    generalize start + 1 = start at h
    induction entries generalizing start with
    | nil => exact List.forall_mem_nil _
    | cons entry entries ihentries =>
      rw [List.forall_mem_cons] at ih
      rw [Bencode.encodeEntries, occurs_append_iff, occurs_append_iff, List.length_append,
        ← add_assoc] at h
      rw [locateEntries, nodesEntries, BencodeNode.nodes, List.forall_mem_append,
        List.forall_mem_cons]
      exact ⟨⟨stands_locate h.1.2, ih.1 h.1.2⟩, ihentries ih.2 _ h.2⟩

/-- In a parsed tree the bytes between the offsets of a node are the encoding of its value. -/
theorem stands_of_parseBencode {root : BencodeNode} (h : parseBencode input = .ok root) :
    ∀ node ∈ root.nodes, node.Stands input := by
  obtain ⟨v, ⟨-, -, rfl, -⟩, rfl⟩ := parseBencode_eq_ok_iff.mp h
  exact stands_of_mem_nodes List.prefix_rfl

theorem BencodeNode.Stands.range?_eq {node : BencodeNode} (h : node.Stands input) :
    range? input node.start node.stop = some node.plain.encode := by
  rw [h.2]
  exact h.1.range?_eq node.plain.encode_ne_nil

/-! ## Equal values -/

section Congr

variable {lib : Library} {entries entries' : Entries} {node node' : BencodeNode} {key : String}

theorem plainEntries_eq_map (entries : Entries) :
    plainEntries entries = entries.map fun entry ↦ (entry.1, entry.2.plain) := by
  induction entries with
  | nil => rfl
  | cons entry entries ih => rw [plainEntries, List.map_cons, ih]

theorem plainList_eq_map (nodes : List BencodeNode) :
    plainList nodes = nodes.map BencodeNode.plain := by
  induction nodes with
  | nil => rfl
  | cons node nodes ih => rw [plainList, List.map_cons, ih]

theorem forall₂_of_plainList_eq {nodes nodes' : List BencodeNode}
    (h : plainList nodes = plainList nodes') :
    List.Forall₂ (fun node node' ↦ node.plain = node'.plain) nodes nodes' := by
  rw [plainList_eq_map, plainList_eq_map, ← List.forall₂_eq_eq_eq, List.forall₂_map_left_iff,
    List.forall₂_map_right_iff] at h
  exact h

theorem forall₂_of_plainEntries_eq (h : plainEntries entries = plainEntries entries') :
    List.Forall₂ (fun entry entry' ↦ entry.1 = entry'.1 ∧ entry.2.plain = entry'.2.plain)
      entries entries' := by
  rw [plainEntries_eq_map, plainEntries_eq_map, ← List.forall₂_eq_eq_eq, List.forall₂_map_left_iff,
    List.forall₂_map_right_iff] at h
  exact h.imp fun _ _ heq ↦ Prod.mk.inj heq

/-- Looking up a field takes the keys and the values only. -/
theorem map_plain_find : (find lib entries key).map BencodeNode.plain =
    (lib.binarySearch ((plainEntries entries).map Prod.fst) (utf8 key)).bind fun index ↦
      (plainEntries entries)[index]?.map Prod.snd := by
  have hkeys : (plainEntries entries).map Prod.fst = entries.map Prod.fst := by
    rw [plainEntries_eq_map, List.map_map]
    rfl
  rw [find, hkeys, Option.bind_eq_bind, Option.map_bind]
  congr 1
  funext index
  rw [plainEntries_eq_map, List.getElem?_map, Function.comp_apply]
  cases entries[index]? with
  | none => rfl
  | some entry => rfl

theorem find_congr (h : plainEntries entries = plainEntries entries') :
    (find lib entries key).map BencodeNode.plain =
      (find lib entries' key).map BencodeNode.plain := by
  rw [map_plain_find, h, map_plain_find]

/-- Nodes of equal value have the same shape. -/
theorem value_cases (h : node.plain = node'.plain) :
    (∃ value, node.value = .bytes value ∧ node'.value = .bytes value) ∨
    (∃ value, node.value = .integer value ∧ node'.value = .integer value) ∨
    (∃ values values', node.value = .list values ∧ node'.value = .list values' ∧
      plainList values = plainList values') ∨
    ∃ entries entries', node.value = .dictionary entries ∧ node'.value = .dictionary entries' ∧
      plainEntries entries = plainEntries entries' := by
  obtain ⟨value, _, _⟩ := node
  obtain ⟨value', _, _⟩ := node'
  change value.plain = value'.plain at h
  cases value with
  | bytes value =>
    cases value' with
    | bytes value' => exact .inl ⟨value, rfl, congrArg _ (Bencode.bytes.inj h).symm⟩
    | _ => cases h
  | integer value =>
    cases value' with
    | integer value' => exact .inr (.inl ⟨value, rfl, congrArg _ (Bencode.integer.inj h).symm⟩)
    | _ => cases h
  | list values =>
    cases value' with
    | list values' => exact .inr (.inr (.inl ⟨values, values', rfl, rfl, Bencode.list.inj h⟩))
    | _ => cases h
  | dictionary entries =>
    cases value' with
    | dictionary entries' =>
      exact .inr (.inr (.inr ⟨entries, entries', rfl, rfl, Bencode.dictionary.inj h⟩))
    | _ => cases h

theorem cases_of_map_eq {α β : Type} {f : α → β} {x x' : Option α} (h : x.map f = x'.map f) :
    (x = none ∧ x' = none) ∨ ∃ a a', x = some a ∧ x' = some a' ∧ f a = f a' := by
  cases x with
  | none => exact .inl ⟨rfl, Option.map_eq_none_iff.mp h.symm⟩
  | some a =>
    obtain ⟨a', rfl, ha⟩ := Option.map_eq_some_iff.mp h.symm
    exact .inr ⟨a, a', rfl, rfl, ha.symm⟩

/-- A continuation that takes values only gives the same result after two results of equal
value. -/
theorem bind_congr_of_map_eq {α β γ : Type} {f : α → β} {g : α → Option γ}
    (hg : ∀ a a', f a = f a' → g a = g a') {x x' : Option α} (h : x.map f = x'.map f) :
    x.bind g = x'.bind g := by
  rcases cases_of_map_eq h with ⟨rfl, rfl⟩ | ⟨a, a', rfl, rfl, ha⟩
  · rfl
  · exact hg a a' ha

theorem integerField_congr (h : plainEntries entries = plainEntries entries') :
    integerField lib entries key = integerField lib entries' key := by
  refine bind_congr_of_map_eq (fun node node' hnode ↦ ?_) (find_congr h)
  rcases value_cases hnode with
    ⟨_, hv, hv'⟩ | ⟨_, hv, hv'⟩ | ⟨_, _, hv, hv', -⟩ | ⟨_, _, hv, hv', -⟩
  all_goals rw [hv, hv']

theorem bytesField_congr (h : plainEntries entries = plainEntries entries') :
    bytesField lib entries key = bytesField lib entries' key := by
  refine bind_congr_of_map_eq (fun node node' hnode ↦ ?_) (find_congr h)
  rcases value_cases hnode with
    ⟨_, hv, hv'⟩ | ⟨_, hv, hv'⟩ | ⟨_, _, hv, hv', -⟩ | ⟨_, _, hv, hv', -⟩
  all_goals rw [hv, hv']

theorem dictionary_congr (h : node.plain = node'.plain) :
    (dictionary node).map plainEntries = (dictionary node').map plainEntries := by
  rw [dictionary, dictionary]
  rcases value_cases h with ⟨_, hv, hv'⟩ | ⟨_, hv, hv'⟩ | ⟨_, _, hv, hv', -⟩ | ⟨_, _, hv, hv', heq⟩
  · rw [hv, hv']
  · rw [hv, hv']
  · rw [hv, hv']
  · rw [hv, hv']
    exact congrArg some heq

theorem isPathPart_congr (h : node.plain = node'.plain) : isPathPart node = isPathPart node' := by
  rw [isPathPart, isPathPart]
  rcases value_cases h with ⟨_, hv, hv'⟩ | ⟨_, hv, hv'⟩ | ⟨_, _, hv, hv', -⟩ | ⟨_, _, hv, hv', -⟩
  all_goals rw [hv, hv']

theorem isPath_congr {parts parts' : List BencodeNode} (h : plainList parts = plainList parts') :
    parts.isEmpty = parts'.isEmpty ∧ parts.any (!isPathPart ·) = parts'.any (!isPathPart ·) := by
  induction forall₂_of_plainList_eq h with
  | nil => exact ⟨rfl, rfl⟩
  | cons hpart _ ih =>
    rw [List.any_cons, List.any_cons, isPathPart_congr hpart, (ih (List.cons.inj h).2).2]
    exact ⟨rfl, rfl⟩

theorem fileLength_congr (h : node.plain = node'.plain) :
    fileLength lib node = fileLength lib node' := by
  refine bind_congr_of_map_eq (fun fields fields' hfields ↦ ?_) (dictionary_congr h)
  rw [integerField_congr hfields]
  refine congrArg _ (funext fun value ↦ congrArg _ (funext fun length ↦ ?_))
  refine bind_congr_of_map_eq (fun path path' hpath ↦ ?_) (find_congr hfields)
  rcases value_cases hpath with ⟨_, hv, hv'⟩ | ⟨_, hv, hv'⟩ | ⟨_, _, hv, hv', hparts⟩ |
    ⟨_, _, hv, hv', -⟩
  · rw [hv, hv']
  · rw [hv, hv']
  · obtain ⟨hempty, hany⟩ := isPath_congr hparts
    rw [hv, hv']
    dsimp only
    rw [hempty, hany]
  · rw [hv, hv']

theorem foldlM_addFile_congr {files files' : List BencodeNode}
    (h : plainList files = plainList files') (total : ℕ) :
    files.foldlM (addFile lib) total = files'.foldlM (addFile lib) total := by
  induction forall₂_of_plainList_eq h generalizing total with
  | nil => rfl
  | cons hfile _ ih =>
    rw [List.foldlM_cons, List.foldlM_cons, addFile, addFile, fileLength_congr hfile]
    exact congrArg _ (funext fun total ↦ ih (List.cons.inj h).2 total)

theorem v1PayloadLength_congr (h : plainEntries entries = plainEntries entries') :
    v1PayloadLength lib entries = v1PayloadLength lib entries' := by
  have hlength : (find lib entries "length").map BencodeNode.plain =
      (find lib entries' "length").map BencodeNode.plain := find_congr h
  have hfiles : (find lib entries "files").map BencodeNode.plain =
      (find lib entries' "files").map BencodeNode.plain := find_congr h
  rw [v1PayloadLength, v1PayloadLength]
  rcases cases_of_map_eq hlength with ⟨hl, hl'⟩ | ⟨length, length', hl, hl', hlength⟩
  · rcases cases_of_map_eq hfiles with ⟨hf, hf'⟩ | ⟨files, files', hf, hf', hfiles⟩
    · rw [hl, hl', hf, hf']
    · rw [hl, hl', hf, hf']
      dsimp only
      rcases value_cases hfiles with ⟨_, hv, hv'⟩ | ⟨_, hv, hv'⟩ | ⟨values, values', hv, hv', heq⟩ |
        ⟨_, _, hv, hv', -⟩
      · rw [hv, hv']
      · rw [hv, hv']
      · rw [hv, hv']
        dsimp only
        rw [(isPath_congr heq).1, foldlM_addFile_congr heq]
      · rw [hv, hv']
  · rcases cases_of_map_eq hfiles with ⟨hf, hf'⟩ | ⟨files, files', hf, hf', -⟩
    · rw [hl, hl', hf, hf']
      dsimp only
      rcases value_cases hlength with ⟨_, hv, hv'⟩ | ⟨_, hv, hv'⟩ | ⟨_, _, hv, hv', -⟩ |
        ⟨_, _, hv, hv', -⟩
      all_goals rw [hv, hv']
    · rw [hl, hl', hf, hf']

theorem leafLength_congr (h : node.plain = node'.plain) :
    leafLength lib node = leafLength lib node' := by
  refine bind_congr_of_map_eq (fun leaf leaf' hleaf ↦ ?_) (dictionary_congr h)
  rw [integerField_congr hleaf, bytesField_congr hleaf]

theorem treeLength_congr (h : plainEntries entries = plainEntries entries') {sum : Option ℕ} :
    treeLength lib entries sum = treeLength lib entries' sum := by
  cases forall₂_of_plainEntries_eq h with
  | nil => rfl
  | cons hentry hentries =>
    cases hentries with
    | nil =>
      rw [treeLength, treeLength, hentry.1, leafLength_congr hentry.2]
    | cons => rfl

/-- The sums agree if the children do. -/
theorem sumLengths_congr (h : plainEntries entries = plainEntries entries')
    (hchild : ∀ entry ∈ plainEntries entries, ∀ node node' : BencodeNode, node.plain = entry.2 →
      node'.plain = entry.2 → childLength lib node = childLength lib node') (total : ℕ) :
    sumLengths lib total entries = sumLengths lib total entries' := by
  induction forall₂_of_plainEntries_eq h generalizing total with
  | nil => rfl
  | cons hentry _ ih =>
    rw [plainEntries, List.forall_mem_cons] at hchild
    rw [sumLengths, sumLengths, hentry.1, hchild.1 _ _ rfl hentry.2.symm]
    simp only [ih (List.cons.inj h).2 hchild.2]

theorem childLength_congr (h : node.plain = node'.plain) :
    childLength lib node = childLength lib node' := by
  generalize hv : node'.plain = v at h
  induction v using Bencode.induction generalizing node node' with
  | dictionary entries ih =>
    obtain ⟨value, start, stop⟩ := node
    obtain ⟨value', start', stop'⟩ := node'
    rcases value_cases (h.trans hv.symm) with ⟨_, rfl, rfl⟩ | ⟨_, rfl, rfl⟩ | ⟨_, _, rfl, rfl, -⟩ |
      ⟨es, es', rfl, rfl, heq⟩
    · rfl
    · rfl
    · rfl
    · obtain rfl := Bencode.dictionary.inj h
      rw [childLength, childLength, treeLength_congr heq]
      exact congrArg _ (sumLengths_congr heq (fun entry hentry node node' hn hn' ↦
        ih entry hentry hn' hn) 0)
  | _ =>
    obtain ⟨value, start, stop⟩ := node
    obtain ⟨value', start', stop'⟩ := node'
    rcases value_cases (h.trans hv.symm) with ⟨_, rfl, rfl⟩ | ⟨_, rfl, rfl⟩ | ⟨_, _, rfl, rfl, -⟩ |
      ⟨_, _, rfl, rfl, -⟩
    · rfl
    · rfl
    · rfl
    · cases h

theorem v2TreeLength_congr (h : plainEntries entries = plainEntries entries') :
    v2TreeLength lib entries = v2TreeLength lib entries' := by
  rw [v2TreeLength, v2TreeLength, treeLength_congr h]
  exact congrArg _ (sumLengths_congr h (fun entry _ node node' hn hn' ↦
    childLength_congr (hn.trans hn'.symm)) 0)

theorem torrentForms_congr (h : plainEntries entries = plainEntries entries') :
    torrentForms lib entries = torrentForms lib entries' := by
  have htree : (do v2TreeLength lib (← dictionary (← find lib entries "file tree"))) =
      (do v2TreeLength lib (← dictionary (← find lib entries' "file tree"))) := by
    refine bind_congr_of_map_eq (fun tree tree' htree ↦ ?_) (find_congr h)
    refine bind_congr_of_map_eq (fun es es' hes ↦ ?_) (dictionary_congr htree)
    exact v2TreeLength_congr hes
  have hversion : integerField lib entries "meta version" =
      integerField lib entries' "meta version" := integerField_congr h
  rw [torrentForms, torrentForms, integerField_congr h, bytesField_congr h, v1PayloadLength_congr h,
    hversion, htree]

end Congr

/-! ## The info dictionary -/

/-- Increasing keys are different, so each has one entry. -/
theorem eq_of_sorted {entries : Entries} {entry entry' : List UInt8 × BencodeNode}
    (hsorted : (entries.map Prod.fst).Pairwise (· < ·)) (h : entry ∈ entries)
    (h' : entry' ∈ entries) (hkey : entry.1 = entry'.1) : entry = entry' := by
  have hnodup : (entries.map Prod.fst).Nodup := by
    refine hsorted.imp fun hlt heq ↦ ?_
    exact List.lt_irrefl _ (heq ▸ hlt)
  exact List.inj_on_of_nodup_map hnodup h h' hkey

/-- In a dictionary with increasing keys the search finds the entry with the key. -/
theorem find_eq_some {lib : Library} {entries : Entries} {key : String} {node : BencodeNode}
    (hsorted : (entries.map Prod.fst).Pairwise (· < ·)) (h : (utf8 key, node) ∈ entries) :
    find lib entries key = some node := by
  have hmem : utf8 key ∈ entries.map Prod.fst := List.mem_map_of_mem h
  rw [find]
  cases hsearch : lib.binarySearch (entries.map Prod.fst) (utf8 key) with
  | none => exact absurd hmem (lib.binarySearch_eq_none _ _ hsorted hsearch)
  | some index =>
    have hkey := lib.binarySearch_eq_some _ _ _ hsorted hsearch
    rw [List.getElem?_map, Option.map_eq_some_iff] at hkey
    obtain ⟨entry, hentry, hkey⟩ := hkey
    have hsame : entry = (utf8 key, node) :=
      eq_of_sorted hsorted (List.mem_of_getElem? hentry) h hkey
    rw [hsame] at hentry
    simp [hentry]

theorem map_fst_locateEntries (start : ℕ) (entries : List (List UInt8 × Bencode)) :
    (locateEntries start entries).map Prod.fst = entries.map Prod.fst := by
  induction entries generalizing start with
  | nil => rfl
  | cons entry entries ih => rw [locateEntries, List.map_cons, List.map_cons, ih]

theorem mem_nodes_of_mem {entries : Entries} {key : List UInt8} {node : BencodeNode}
    (h : (key, node) ∈ entries) : node ∈ nodesEntries entries := by
  induction entries with
  | nil => cases h
  | cons entry entries ih =>
    obtain ⟨key', node'⟩ := entry
    rw [nodesEntries, List.mem_append]
    rcases List.mem_cons.mp h with heq | h
    · obtain ⟨rfl, rfl⟩ := Prod.mk.inj heq
      exact .inl (by obtain ⟨value, start, stop⟩ := node; exact List.mem_cons_self)
    · exact .inr (ih h)

theorem eq_of_dictionary {node : BencodeNode} {entries : Entries}
    (h : dictionary node = some entries) :
    ∃ start stop, node = ⟨.dictionary entries, start, stop⟩ := by
  obtain ⟨value, start, stop⟩ := node
  cases value with
  | dictionary entries' => exact ⟨start, stop, Option.some.inj h ▸ rfl⟩
  | _ => cases h

theorem canonical_of_parseBencode {root : BencodeNode} (h : parseBencode input = .ok root) :
    root.plain.Canonical := by
  obtain ⟨v, ⟨-, hcanonical, -⟩, rfl⟩ := parseBencode_eq_ok_iff.mp h
  rwa [plain_locate]

/-- A canonical dictionary has increasing keys and canonical values. -/
theorem canonical_entries {node : BencodeNode} {entries : Entries} (h : node.plain.Canonical)
    (hentries : dictionary node = some entries) :
    (entries.map Prod.fst).Pairwise (· < ·) ∧ ∀ entry ∈ entries, entry.2.plain.Canonical := by
  obtain ⟨start, stop, rfl⟩ := eq_of_dictionary hentries
  change (Bencode.dictionary (plainEntries entries)).Canonical at h
  rw [plainEntries_eq_map] at h
  cases h with
  | dictionary hkeys hvalues =>
    rw [List.map_map, List.isChain_iff_pairwise] at hkeys
    exact ⟨hkeys, fun entry hentry ↦ hvalues _ (List.mem_map_of_mem hentry)⟩

/-- The nodes of a parsed dictionary stand in the input. -/
theorem stands_of_mem {root node : BencodeNode} {entries : Entries} {key : List UInt8}
    (hroot : parseBencode input = .ok root) (hentries : dictionary root = some entries)
    (h : (key, node) ∈ entries) : node.Stands input := by
  obtain ⟨start, stop, rfl⟩ := eq_of_dictionary hentries
  exact stands_of_parseBencode hroot node (List.mem_cons_of_mem _ (mem_nodes_of_mem h))

/-- The identity is computed from the value of the `info` dictionary. -/
theorem torrentIdentity_eq {lib : Library} {root info : BencodeNode} {entries : Entries}
    (hroot : parseBencode input = .ok root) (hentries : dictionary root = some entries)
    (hinfo : (utf8 "info", info) ∈ entries) :
    torrentIdentity lib input =
      match dictionary info with
      | none => .error .missingInfo
      | some infoEntries => infoIdentity lib infoEntries info.plain.encode := by
  have hsorted := (canonical_entries (canonical_of_parseBencode hroot) hentries).1
  obtain ⟨hoccurs, hstop⟩ := stands_of_mem hroot hentries hinfo
  have hfind : (do find lib (← dictionary root) "info") = some info := by
    rw [hentries]
    exact find_eq_some hsorted hinfo
  rw [torrentIdentity, hroot]
  dsimp only
  rw [hfind]
  have hextract : input.extract info.start info.stop = info.plain.encode := by
    rw [hstop, hoccurs.extract_eq]
  exact hextract ▸ rfl

/-- **Torrent identity depends only on the info value.** At every node of a parsed tree the source
between the offsets is the encoding of the node's value. So two files with equal `info` values have
the same identity or are refused with the same error, whatever else stands in them. -/
theorem identity_of_info_value (lib : Library) :
    (∀ (input : List UInt8) (root : BencodeNode), parseBencode input = .ok root →
      ∀ node ∈ root.nodes, range? input node.start node.stop = some node.plain.encode) ∧
    ∀ (input input' : List UInt8) (root root' info info' : BencodeNode)
      (entries entries' : Entries),
      parseBencode input = .ok root → parseBencode input' = .ok root' →
      dictionary root = some entries → dictionary root' = some entries' →
      (utf8 "info", info) ∈ entries → (utf8 "info", info') ∈ entries' → info.plain = info'.plain →
      torrentIdentity lib input = torrentIdentity lib input' := by
  refine ⟨fun input root hroot node hnode ↦ (stands_of_parseBencode hroot node hnode).range?_eq, ?_⟩
  intro input input' root root' info info' entries entries' hroot hroot' hentries hentries' hinfo
    hinfo' hvalue
  rw [torrentIdentity_eq hroot hentries hinfo, torrentIdentity_eq hroot' hentries' hinfo', hvalue]
  rcases cases_of_map_eq (dictionary_congr hvalue) with ⟨hd, hd'⟩ | ⟨es, es', hd, hd', heq⟩
  · rw [hd, hd']
  · rw [hd, hd']
    dsimp only
    rw [infoIdentity, infoIdentity, torrentForms_congr heq]

/-! A file with an `info` dictionary only, and one that also names a tracker. -/

namespace Vectors

/-- Linear search, and hashes that return what they are given. -/
def linear : Library where
  sha1 := id
  sha256 := id
  binarySearch keys key := keys.idxOf? key
  binarySearch_eq_some keys key i _ h := by
    obtain ⟨hi, heq, -⟩ := List.idxOf?_eq_some_iff.mp h
    exact List.getElem?_eq_some_iff.mpr ⟨hi, heq⟩
  binarySearch_eq_none keys key _ h := List.idxOf?_eq_none_iff.mp h

def infoValue : Bencode :=
  .dictionary [(utf8 "length", .integer 1), (utf8 "piece length", .integer 1),
    (utf8 "pieces", .bytes (List.replicate 20 0))]

def bareFile : Bencode := .dictionary [(utf8 "info", infoValue)]

def announcedFile : Bencode :=
  .dictionary [(utf8 "announce", .bytes (utf8 "x")), (utf8 "info", infoValue)]

theorem canonical_infoValue : infoValue.Canonical := by
  refine .dictionary (by decide +kernel) ?_
  simp only [List.forall_mem_cons]
  exact ⟨.integer (by decide), .integer (by decide), .bytes _, List.forall_mem_nil _⟩

theorem parseBencode_bareFile : parseBencode bareFile.encode = .ok (locate 0 bareFile) := by
  refine parseBencode_eq_ok_iff.mpr ⟨bareFile, ⟨by decide +kernel, .dictionary ?_ ?_, rfl,
    by decide +kernel, by decide +kernel⟩, rfl⟩
  · decide +kernel
  · simpa using canonical_infoValue

theorem parseBencode_announcedFile :
    parseBencode announcedFile.encode = .ok (locate 0 announcedFile) := by
  refine parseBencode_eq_ok_iff.mpr ⟨announcedFile, ⟨by decide +kernel, .dictionary ?_ ?_, rfl,
    by decide +kernel, by decide +kernel⟩, rfl⟩
  · decide +kernel
  · simpa using ⟨.bytes _, canonical_infoValue⟩

end Vectors

open Interop.Vectors in
theorem identity_of_info_value_announced :
    (torrentIdentity linear bareFile.encode).isOk = true ∧
      torrentIdentity linear bareFile.encode = torrentIdentity linear announcedFile.encode := by
  refine ⟨by decide +kernel, (identity_of_info_value linear).2 _ _ _ _ (locate 7 infoValue)
    (locate 20 infoValue) _ _ parseBencode_bareFile parseBencode_announcedFile rfl rfl ?_ ?_ ?_⟩
  · exact List.mem_cons_self
  · exact List.mem_cons_of_mem _ List.mem_cons_self
  · rw [plain_locate, plain_locate]

end TripTorrent.Interop
