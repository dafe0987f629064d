import TripTorrent.Interop.Forms

/-!
# File trees of v2 torrents

In a v2 torrent the files stand in a tree of dictionaries: a key is a name, and a dictionary whose
only key is empty describes a file, which has the names on the way to it as its path. The length
that is computed from the tree of a torrent is that of all its files together, and it is computed
only for trees in which every directory has an entry and every entry a name, and in which a file
with content has the root of its piece hashes.

A dictionary with an empty key is a file wherever it stands. So the whole tree may be one file,
which then has no name at all.

## Two readings

`FileTree` is what a tree is about, with its files listed by path; `readTree` reads one from a
parsed dictionary and checks nothing. The computation of the source goes over the dictionaries
themselves, and fails where a check fails. That the two belong together is proved along the
dictionaries; what the checks amount to for the list of files is a matter of `FileTree` alone
(`FileTree.sound_iff`).
-/

namespace TripTorrent.Interop

open Codec

/-! ## Trees -/

inductive FileTree
  | file (length : ℕ) (piecesRoot : Option (List UInt8))
  | directory (children : List (List UInt8 × FileTree))

/-- A file with its path. -/
structure FileEntry where
  path : List (List UInt8)
  length : ℕ
  piecesRoot : Option (List UInt8)

/-- The file seen from a directory further up. -/
def FileEntry.under (name : List UInt8) (file : FileEntry) : FileEntry :=
  { file with path := name :: file.path }

/-- A file with content has the root of its piece hashes. -/
def FileEntry.HasRoot (file : FileEntry) : Prop :=
  0 < file.length → ∃ root, file.piecesRoot = some root ∧ root.length = 32

namespace FileTree

/-- Induction with one hypothesis for all entries of a directory. -/
@[elab_as_elim]
theorem induction {motive : FileTree → Prop}
    (file : ∀ length piecesRoot, motive (.file length piecesRoot))
    (directory : ∀ children, (∀ child ∈ children, motive child.2) → motive (.directory children))
    (tree : FileTree) : motive tree :=
  @FileTree.rec motive (fun children ↦ ∀ child ∈ children, motive child.2)
    (fun child ↦ motive child.2) file (fun children ih ↦ directory children ih)
    (List.forall_mem_nil _)
    (fun _ _ hchild hchildren ↦ List.forall_mem_cons.mpr ⟨hchild, hchildren⟩) (fun _ _ h ↦ h) tree

mutual

/-- All files of a tree. -/
def files : FileTree → List FileEntry
  | .file length piecesRoot => [⟨[], length, piecesRoot⟩]
  | .directory children => filesIn children

def filesIn : List (List UInt8 × FileTree) → List FileEntry
  | [] => []
  | (name, tree) :: children => tree.files.map (FileEntry.under name) ++ filesIn children

end

mutual

/-- The entries of each directory of a tree. -/
def directories : FileTree → List (List (List UInt8 × FileTree))
  | .file _ _ => []
  | .directory children => children :: directoriesIn children

def directoriesIn : List (List UInt8 × FileTree) → List (List (List UInt8 × FileTree))
  | [] => []
  | (_, tree) :: children => tree.directories ++ directoriesIn children

end

/-- The length of all files together. -/
def totalLength (tree : FileTree) : ℕ := (tree.files.map FileEntry.length).sum

/-- Every file has a path of nonempty names, every directory an entry, and every file with content
the root of its piece hashes. -/
structure WellFormed (tree : FileTree) : Prop where
  path : ∀ file ∈ tree.files, file.path ≠ []
  name : ∀ file ∈ tree.files, ∀ name ∈ file.path, name ≠ []
  directory : ∀ children ∈ tree.directories, children ≠ []
  root : ∀ file ∈ tree.files, file.HasRoot

/-- What is checked on the way down a tree. -/
inductive Sound : FileTree → Prop
  | file {length : ℕ} {piecesRoot : Option (List UInt8)}
      (h : 0 < length → ∃ root, piecesRoot = some root ∧ root.length = 32) :
      Sound (.file length piecesRoot)
  | directory {children : List (List UInt8 × FileTree)} (hne : children ≠ [])
      (hname : ∀ child ∈ children, child.1 ≠ []) (h : ∀ child ∈ children, Sound child.2) :
      Sound (.directory children)

variable {tree : FileTree} {children : List (List UInt8 × FileTree)}

theorem filesIn_eq_flatMap (children : List (List UInt8 × FileTree)) :
    filesIn children =
      children.flatMap fun child ↦ child.2.files.map (FileEntry.under child.1) := by
  induction children with
  | nil => rfl
  | cons child children ih => rw [filesIn, List.flatMap_cons, ih]

theorem directoriesIn_eq_flatMap (children : List (List UInt8 × FileTree)) :
    directoriesIn children = children.flatMap fun child ↦ child.2.directories := by
  induction children with
  | nil => rfl
  | cons child children ih => rw [directoriesIn, List.flatMap_cons, ih]

theorem mem_files_directory_iff {file : FileEntry} : file ∈ (directory children).files ↔
    ∃ child ∈ children, ∃ file' ∈ child.2.files, file'.under child.1 = file := by
  rw [files, filesIn_eq_flatMap, List.mem_flatMap]
  simp only [List.mem_map]

theorem mem_directories_directory_iff {entries : List (List UInt8 × FileTree)} :
    entries ∈ (directory children).directories ↔
      entries = children ∨ ∃ child ∈ children, entries ∈ child.2.directories := by
  rw [directories, directoriesIn_eq_flatMap, List.mem_cons, List.mem_flatMap]

theorem totalLength_file (length : ℕ) (piecesRoot : Option (List UInt8)) :
    (FileTree.file length piecesRoot).totalLength = length := by
  rw [totalLength, files, List.map_singleton, List.sum_singleton]

theorem totalLength_directory (children : List (List UInt8 × FileTree)) :
    (directory children).totalLength = (children.map fun child ↦ child.2.totalLength).sum := by
  rw [totalLength, files]
  induction children with
  | nil => rfl
  | cons child children ih =>
    rw [filesIn, List.map_append, List.sum_append, ih, List.map_map, List.map_cons, List.sum_cons]
    rfl

/-- A tree without empty directories has a file. -/
theorem files_ne_nil (h : ∀ entries ∈ tree.directories, entries ≠ []) : tree.files ≠ [] := by
  induction tree using FileTree.induction with
  | file length piecesRoot => exact List.cons_ne_nil _ _
  | directory children ih =>
    obtain ⟨child, hchild⟩ := List.exists_mem_of_ne_nil _
      (h children (mem_directories_directory_iff.mpr (.inl rfl)))
    obtain ⟨file, hfile⟩ := List.exists_mem_of_ne_nil _ (ih child hchild fun entries hentries ↦
      h entries (mem_directories_directory_iff.mpr (.inr ⟨child, hchild, hentries⟩)))
    exact List.ne_nil_of_mem (mem_files_directory_iff.mpr ⟨child, hchild, file, hfile, rfl⟩)

/-- What the checks amount to for the files and directories of a tree. -/
theorem sound_iff : tree.Sound ↔
    (∀ file ∈ tree.files, ∀ name ∈ file.path, name ≠ []) ∧
      (∀ entries ∈ tree.directories, entries ≠ []) ∧
      ∀ file ∈ tree.files, FileEntry.HasRoot file := by
  induction tree using FileTree.induction with
  | file length piecesRoot =>
    rw [files, directories, List.forall_mem_singleton, List.forall_mem_singleton]
    constructor
    · rintro (h | _)
      exact ⟨List.forall_mem_nil _, List.forall_mem_nil _, h⟩
    · exact fun h ↦ .file h.2.2
  | directory children ih =>
    constructor
    · rintro (_ | ⟨hne, hname, h⟩)
      refine ⟨fun file hfile ↦ ?_, fun entries hentries ↦ ?_, fun file hfile ↦ ?_⟩
      · obtain ⟨child, hchild, inner, hmem, rfl⟩ := mem_files_directory_iff.mp hfile
        exact List.forall_mem_cons.mpr
          ⟨hname child hchild, ((ih child hchild).mp (h child hchild)).1 inner hmem⟩
      · rcases mem_directories_directory_iff.mp hentries with rfl | ⟨child, hchild, hentries⟩
        · exact hne
        · exact ((ih child hchild).mp (h child hchild)).2.1 entries hentries
      · obtain ⟨child, hchild, inner, hmem, rfl⟩ := mem_files_directory_iff.mp hfile
        exact ((ih child hchild).mp (h child hchild)).2.2 inner hmem
    · rintro ⟨hnames, hdirectories, hroots⟩
      have hbelow (child : List UInt8 × FileTree) (hchild : child ∈ children) (file : FileEntry)
          (hfile : file ∈ child.2.files) : file.under child.1 ∈ (directory children).files :=
        mem_files_directory_iff.mpr ⟨child, hchild, file, hfile, rfl⟩
      have hinner : ∀ child ∈ children, ∀ entries ∈ child.2.directories, entries ≠ [] :=
        fun child hchild entries hentries ↦ hdirectories entries
          (mem_directories_directory_iff.mpr (.inr ⟨child, hchild, hentries⟩))
      refine .directory (hdirectories _ (mem_directories_directory_iff.mpr (.inl rfl)))
        (fun child hchild ↦ ?_) fun child hchild ↦ ?_
      -- Each name leads to some file, which is where the hypothesis sees it.
      · obtain ⟨file, hfile⟩ := List.exists_mem_of_ne_nil _ (files_ne_nil (hinner child hchild))
        exact hnames _ (hbelow child hchild file hfile) _ List.mem_cons_self
      · refine (ih child hchild).mpr
          ⟨fun file hfile name hname ↦ ?_, hinner child hchild, fun file hfile ↦ ?_⟩
        · exact hnames _ (hbelow child hchild file hfile) name (List.mem_cons_of_mem _ hname)
        · exact hroots (file.under child.1) (hbelow child hchild file hfile)

/-- The check of a single file, as it is made. -/
theorem sound_file_iff {length : ℕ} {piecesRoot : Option (List UInt8)} :
    (FileTree.file length piecesRoot).Sound ↔
      ¬(0 < length && piecesRoot.all fun root ↦ root.length ≠ 32) = true := by
  have hcheck : ¬(0 < length && piecesRoot.all fun root ↦ root.length ≠ 32) = true ↔
      (0 < length → ∃ root, piecesRoot = some root ∧ root.length = 32) := by
    cases piecesRoot with
    | none => simp
    | some root => simp
  rw [hcheck]
  constructor
  · rintro (h | _)
    exact h
  · exact .file

/-- A tree that passes the checks is well formed unless it is a single file. -/
theorem Sound.wellFormed_iff (h : tree.Sound) :
    tree.WellFormed ↔ ∃ children, tree = .directory children := by
  constructor
  · intro hwf
    cases tree with
    | file length piecesRoot => exact absurd rfl (hwf.path _ List.mem_cons_self)
    | directory children => exact ⟨children, rfl⟩
  · rintro ⟨children, rfl⟩
    obtain ⟨hnames, hdirectories, hroots⟩ := sound_iff.mp h
    refine ⟨fun file hfile ↦ ?_, hnames, hdirectories, hroots⟩
    obtain ⟨child, -, inner, -, rfl⟩ := mem_files_directory_iff.mp hfile
    exact List.cons_ne_nil _ _

theorem WellFormed.sound (h : tree.WellFormed) : tree.Sound :=
  sound_iff.mpr ⟨h.name, h.directory, h.root⟩

end FileTree

/-! ## Reading a tree -/

/-- The file that a leaf describes. -/
def readLeaf (node : BencodeNode) : Option FileTree := do
  let leaf ← dictionary node
  let value ← lookupInteger leaf "length"
  if 0 ≤ value then some (.file value.toNat (lookupBytes leaf "pieces root")) else none

/-- The tree with the given entries: a dictionary whose only key is empty describes a file. -/
def treeOf (entries : Entries) (children : Option (List (List UInt8 × FileTree))) :
    Option FileTree :=
  match entries with
  | [(name, node)] => if name.isEmpty then readLeaf node else children.map .directory
  | _ => children.map .directory

mutual

/-- The tree that a dictionary describes. -/
def readTree : BencodeNode → Option FileTree
  | ⟨.dictionary entries, _, _⟩ => treeOf entries (readChildren entries)
  | ⟨.bytes _, _, _⟩ => none
  | ⟨.integer _, _, _⟩ => none
  | ⟨.list _, _, _⟩ => none

def readChildren : List (List UInt8 × BencodeNode) → Option (List (List UInt8 × FileTree))
  | [] => some []
  | (name, node) :: entries => do
    let child ← readTree node
    let children ← readChildren entries
    some ((name, child) :: children)

end

/-- A computed length is that of the tree, which passes the checks. -/
def Measures (tree : Option FileTree) (length : Option ℕ) : Prop :=
  ∀ n, length = some n ↔
    ∃ t, tree = some t ∧ t.Sound ∧ t.totalLength = n ∧ n < 2 ^ 64

variable {lib : Library} {entries : Entries} {node : BencodeNode}

theorem readChildren_cons_eq_some_iff {name : List UInt8}
    {children : List (List UInt8 × FileTree)} :
    readChildren ((name, node) :: entries) = some children ↔
      ∃ child rest, readTree node = some child ∧ readChildren entries = some rest ∧
        (name, child) :: rest = children := by
  rw [readChildren]
  simp [Option.bind_eq_some_iff]

/-! ## The length of a tree -/

theorem checkedAddU64_eq_some_iff {a b n : ℕ} :
    checkedAddU64 a b = some n ↔ a + b < 2 ^ 64 ∧ a + b = n := by
  rw [checkedAddU64]
  split_ifs with hfits
  · rw [Option.some.injEq, and_iff_right hfits]
  · exact iff_of_false not_false fun h ↦ hfits h.1

/-- The integers of a parsed dictionary are 64-bit integers. -/
theorem lt_of_lookupInteger {key : String} {value : ℤ}
    (hsorted : (entries.map Prod.fst).Pairwise (· < ·))
    (hvalues : ∀ entry ∈ entries, entry.2.plain.Canonical)
    (h : lookupInteger entries key = some value) : value < 2 ^ 63 := by
  rw [lookupInteger] at h
  split at h
  · rename_i integer start stop hlookup
    obtain rfl := Option.some.inj h
    have hcanonical := hvalues _ ((lookup_eq_some_iff hsorted).mp hlookup)
    change (Bencode.integer integer).Canonical at hcanonical
    cases hcanonical with
    | integer hbound => exact hbound.2
  · cases h

/-- A leaf has its length, which is a 64-bit integer, if it has its root. -/
theorem measures_leafLength (h : node.plain.Canonical) :
    Measures (readLeaf node) (leafLength lib node) := by
  intro n
  rw [readLeaf, leafLength]
  cases hleaf : dictionary node with
  | none => simp
  | some leaf =>
    obtain ⟨hsorted, hvalues⟩ := canonical_entries h hleaf
    simp only [Option.bind_eq_bind, Option.bind_some]
    rw [integerField_eq_lookupInteger hsorted, bytesField_eq_lookupBytes hsorted]
    cases hvalue : lookupInteger leaf "length" with
    | none => simp
    | some value =>
      have hbound := lt_of_lookupInteger hsorted hvalues hvalue
      rw [Option.bind_some, u64FromI64]
      by_cases hpos : 0 ≤ value
      · simp only [if_pos hpos, Option.bind_some, Option.some.injEq, exists_eq_left',
          FileTree.sound_file_iff, FileTree.totalLength_file]
        split_ifs with hroot
        · exact iff_of_false not_false fun h ↦ h.1 hroot
        · have : value.toNat < 2 ^ 64 := by omega
          constructor
          · intro hn
            obtain rfl := Option.some.inj hn
            exact ⟨hroot, rfl, this⟩
          · rintro ⟨-, rfl, -⟩
            rfl
      · simp [hpos]

/-- The children are summed up when each of them has a name. -/
theorem sumLengths_eq_some_iff
    (h : ∀ entry ∈ entries, Measures (readTree entry.2) (childLength lib entry.2)) {total n : ℕ}
    (htotal : total < 2 ^ 64) :
    sumLengths lib total entries = some n ↔
      ∃ children, readChildren entries = some children ∧
        (∀ child ∈ children, child.1 ≠ []) ∧ (∀ child ∈ children, child.2.Sound) ∧
        total + (children.map fun child ↦ child.2.totalLength).sum = n ∧ n < 2 ^ 64 := by
  induction entries generalizing total with
  | nil =>
    rw [sumLengths, readChildren]
    constructor
    · intro hn
      obtain rfl := Option.some.inj hn
      exact ⟨[], rfl, List.forall_mem_nil _, List.forall_mem_nil _, rfl, htotal⟩
    · rintro ⟨children, hchildren, -, -, hn, -⟩
      obtain rfl := Option.some.inj hchildren
      exact congrArg some hn
  | cons entry entries ih =>
    obtain ⟨name, node⟩ := entry
    rw [List.forall_mem_cons] at h
    rw [sumLengths]
    constructor
    · intro hn
      split_ifs at hn with hname
      obtain ⟨length, hlength, hn⟩ := Option.bind_eq_some_iff.mp hn
      obtain ⟨sum, hsum, hn⟩ := Option.bind_eq_some_iff.mp hn
      obtain ⟨hfits, rfl⟩ := checkedAddU64_eq_some_iff.mp hsum
      obtain ⟨child, hchild, hsound, rfl, -⟩ := (h.1 length).mp hlength
      obtain ⟨rest, hrest, hnames, hsounds, rfl, hlt⟩ := (ih h.2 hfits).mp hn
      refine ⟨(name, child) :: rest,
        readChildren_cons_eq_some_iff.mpr ⟨child, rest, hchild, hrest, rfl⟩,
        List.forall_mem_cons.mpr ⟨mt List.isEmpty_iff.mpr hname, hnames⟩,
        List.forall_mem_cons.mpr ⟨hsound, hsounds⟩, ?_, hlt⟩
      rw [List.map_cons, List.sum_cons, add_assoc]
    · rintro ⟨children, hchildren, hnames, hsounds, hn, hlt⟩
      obtain ⟨child, rest, hchild, hrest, rfl⟩ := readChildren_cons_eq_some_iff.mp hchildren
      rw [List.forall_mem_cons] at hnames hsounds
      rw [List.map_cons, List.sum_cons, ← add_assoc] at hn
      dsimp only at hn
      have hfits : total + child.totalLength < 2 ^ 64 := by omega
      have hlength : childLength lib node = some child.totalLength :=
        (h.1 _).mpr ⟨child, hchild, hsounds.1, rfl, by omega⟩
      rw [if_neg (mt List.isEmpty_iff.mp hnames.1), hlength]
      refine Option.bind_eq_some_iff.mpr ⟨_, rfl, Option.bind_eq_some_iff.mpr
        ⟨_, checkedAddU64_eq_some_iff.mpr ⟨hfits, rfl⟩, ?_⟩⟩
      exact (ih h.2 hfits).mpr ⟨rest, hrest, hnames.2, hsounds.2, hn, hlt⟩

theorem measures_sumLengths (hne : entries ≠ [])
    (h : ∀ entry ∈ entries, Measures (readTree entry.2) (childLength lib entry.2)) :
    Measures ((readChildren entries).map .directory) (sumLengths lib 0 entries) := by
  intro n
  rw [sumLengths_eq_some_iff h (by decide)]
  constructor
  · rintro ⟨children, hchildren, hnames, hsounds, hn, hlt⟩
    have hnonempty : children ≠ [] := by
      rintro rfl
      obtain ⟨⟨name, node⟩, entries, rfl⟩ := List.exists_cons_of_ne_nil hne
      obtain ⟨_, _, -, -, hcons⟩ := readChildren_cons_eq_some_iff.mp hchildren
      cases hcons
    refine ⟨.directory children, by rw [hchildren, Option.map_some],
      .directory hnonempty hnames hsounds, ?_, hlt⟩
    rw [FileTree.totalLength_directory, ← hn, zero_add]
  · rintro ⟨tree, htree, hsound, hn, hlt⟩
    obtain ⟨children, hchildren, rfl⟩ := Option.map_eq_some_iff.mp htree
    obtain _ | ⟨-, hnames, hsounds⟩ := hsound
    rw [FileTree.totalLength_directory] at hn
    exact ⟨children, hchildren, hnames, hsounds, by rw [zero_add, hn], hlt⟩

/-- A dictionary has a length if its entries have. -/
theorem measures_treeLength (hvalues : ∀ entry ∈ entries, entry.2.plain.Canonical)
    (h : ∀ entry ∈ entries, Measures (readTree entry.2) (childLength lib entry.2)) :
    Measures (treeOf entries (readChildren entries))
      (treeLength lib entries (sumLengths lib 0 entries)) := by
  match entries with
  | [] =>
    intro n
    refine iff_of_false (by simp [treeLength]) ?_
    rintro ⟨tree, htree, hsound, -⟩
    obtain rfl := Option.some.inj htree
    obtain _ | ⟨hne, -⟩ := hsound
    exact hne rfl
  | [(name, node)] =>
    rw [treeLength, treeOf]
    split_ifs
    · exact measures_leafLength (hvalues _ List.mem_cons_self)
    · exact measures_sumLengths (List.cons_ne_nil _ _) h
  | entry :: entry' :: entries => exact measures_sumLengths (List.cons_ne_nil _ _) h

theorem measures_childLength (hcanonical : node.plain.Canonical) :
    Measures (readTree node) (childLength lib node) := by
  generalize hv : node.plain = v at hcanonical
  induction v using Bencode.induction generalizing node with
  | dictionary values ih =>
    obtain ⟨value, start, stop⟩ := node
    cases value with
    | dictionary entries =>
      obtain rfl := Bencode.dictionary.inj hv
      have hvalues :=
        (@canonical_entries ⟨.dictionary entries, start, stop⟩ entries hcanonical rfl).2
      rw [readTree, childLength]
      refine measures_treeLength hvalues fun entry hentry ↦ ?_
      rw [plainEntries_eq_map] at ih
      exact ih _ (List.mem_map_of_mem hentry) rfl (hvalues entry hentry)
    | _ => cases hv
  | _ =>
    obtain ⟨value, start, stop⟩ := node
    cases value with
    | dictionary entries => cases hv
    | _ => exact fun n ↦ by simp [readTree, childLength]

theorem measures_v2TreeLength (h : node.plain.Canonical)
    (hentries : dictionary node = some entries) :
    Measures (readTree node) (v2TreeLength lib entries) := by
  obtain ⟨start, stop, rfl⟩ := eq_of_dictionary hentries
  exact measures_childLength h

/-- A dictionary is read as a directory unless its only key is empty. -/
theorem exists_eq_directory_iff {tree : FileTree} (hentries : dictionary node = some entries)
    (htree : readTree node = some tree) :
    (∃ children, tree = .directory children) ↔ entries.map Prod.fst ≠ [[]] := by
  obtain ⟨start, stop, rfl⟩ := eq_of_dictionary hentries
  rw [readTree] at htree
  match entries with
  | [] =>
    obtain rfl := Option.some.inj htree
    exact iff_of_true ⟨[], rfl⟩ (by simp)
  | [(name, node)] =>
    rw [treeOf] at htree
    split_ifs at htree with hname
    · obtain ⟨leaf, -, htree⟩ := Option.bind_eq_some_iff.mp htree
      obtain ⟨value, -, htree⟩ := Option.bind_eq_some_iff.mp htree
      split_ifs at htree
      obtain rfl := Option.some.inj htree
      rw [List.isEmpty_iff] at hname
      exact iff_of_false (by simp) (by simp [hname])
    · obtain ⟨children, -, rfl⟩ := Option.map_eq_some_iff.mp htree
      rw [List.isEmpty_iff] at hname
      exact iff_of_true ⟨children, rfl⟩ (by simpa using hname)
  | entry :: entry' :: entries =>
    obtain ⟨children, -, rfl⟩ := Option.map_eq_some_iff.mp htree
    exact iff_of_true ⟨children, rfl⟩ (by simp)

/-! ## Accepted torrents -/

/-- The file tree of an accepted v2 torrent has a length. -/
theorem exists_fileTree {infoEntries : Entries} {isV1 : Bool}
    (hsorted : (infoEntries.map Prod.fst).Pairwise (· < ·))
    (h : torrentForms lib infoEntries = .ok (isV1, true)) :
    ∃ node entries n, (utf8 "file tree", node) ∈ infoEntries ∧ dictionary node = some entries ∧
      v2TreeLength lib entries = some n := by
  rw [torrentForms] at h
  split at h
  · cases h
  · dsimp only at h
    split_ifs at h
    have hv2 := (Prod.mk.inj (Except.ok.inj h)).2
    rw [Bool.and_eq_true, Option.isSome_iff_exists] at hv2
    obtain ⟨-, n, hn⟩ := hv2
    obtain ⟨node, hnode, hn⟩ := Option.bind_eq_some_iff.mp hn
    obtain ⟨entries, hentries, hn⟩ := Option.bind_eq_some_iff.mp hn
    rw [find_eq_lookup hsorted, lookup_eq_some_iff hsorted] at hnode
    exact ⟨node, entries, n, hnode, hentries, hn⟩

theorem isV2_of_torrentKind {isV1 isV2 : Bool} {kind : TorrentKind}
    (h : torrentKind (isV1, isV2) = .ok kind) (hkind : kind ≠ .v1) : isV2 = true := by
  cases isV2 with
  | true => rfl
  | false =>
    cases isV1 with
    | true => exact absurd (Except.ok.inj h).symm hkind
    | false => cases h

/-- **v2 file trees.** The file tree of an accepted v2 or hybrid torrent is well formed, with the
computed length that of all its files, exactly if the tree is not a dictionary whose only key is
empty. Every well-formed tree whose length fits 64 bits has its length computed. -/
theorem file_tree_well_formed_iff (lib : Library) :
    (∀ (input : List UInt8) (identity : TorrentIdentity) (infoEntries : Entries),
      torrentIdentity lib input = .ok identity → identity.kind ≠ .v1 →
      HasInfo input infoEntries →
      ∃ node entries, (utf8 "file tree", node) ∈ infoEntries ∧ dictionary node = some entries ∧
        ((∃ tree, readTree node = some tree ∧ tree.WellFormed ∧
            v2TreeLength lib entries = some tree.totalLength ∧ tree.totalLength < 2 ^ 64) ↔
          entries.map Prod.fst ≠ [[]])) ∧
    ∀ (node : BencodeNode) (entries : Entries) (tree : FileTree), node.plain.Canonical →
      dictionary node = some entries → readTree node = some tree → tree.WellFormed →
      tree.totalLength < 2 ^ 64 → v2TreeLength lib entries = some tree.totalLength := by
  constructor
  · intro input identity infoEntries hidentity hkind hinfo
    obtain ⟨hsorted, hvalues⟩ := hinfo.canonical
    obtain ⟨rawInfo, hraw⟩ := hinfo.torrentIdentity_eq lib
    obtain ⟨hforms, hkind'⟩ := forms_of_infoIdentity (hraw.symm.trans hidentity)
    rw [isV2_of_torrentKind hkind' hkind] at hforms
    obtain ⟨node, entries, n, hnode, hentries, hn⟩ := exists_fileTree hsorted hforms
    have hmeasures : Measures (readTree node) (v2TreeLength lib entries) :=
      measures_v2TreeLength (hvalues _ hnode) hentries
    obtain ⟨tree, htree, hsound, rfl, hlt⟩ := (hmeasures n).mp hn
    refine ⟨node, entries, hnode, hentries, ?_⟩
    rw [← exists_eq_directory_iff hentries htree, ← hsound.wellFormed_iff]
    constructor
    · rintro ⟨tree', htree', hwf, -⟩
      rwa [Option.some.inj (htree.symm.trans htree')]
    · exact fun hwf ↦ ⟨tree, htree, hwf, hn, hlt⟩
  · intro node entries tree hcanonical hentries htree hwf hlt
    have hmeasures : Measures (readTree node) (v2TreeLength lib entries) :=
      measures_v2TreeLength hcanonical hentries
    exact (hmeasures _).mpr ⟨tree, htree, hwf.sound, rfl, hlt⟩

/-! A torrent with one empty file in its tree, and one whose tree is the file itself. -/

open Interop.Vectors in
theorem file_tree_well_formed_emptyFileTree :
    v2TreeLength linear
        (locateEntries 1
          [(utf8 "a", .dictionary [([], .dictionary [(utf8 "length", .integer 0)])])]) =
      some (FileTree.directory [(utf8 "a", .file 0 none)]).totalLength := by
  refine (file_tree_well_formed_iff linear).2 (locate 0 emptyFileTree) _
    (.directory [(utf8 "a", .file 0 none)]) ?_ rfl rfl ?_ (by decide)
  · rw [plain_locate]
    exact canonical_emptyFileTree
  · have hleaf : (FileTree.file 0 none).Sound := .file fun h ↦ absurd h (lt_irrefl 0)
    have hsound : (FileTree.directory [(utf8 "a", .file 0 none)]).Sound :=
      .directory (List.cons_ne_nil _ _) (List.forall_mem_singleton.mpr (by decide))
        (List.forall_mem_singleton.mpr hleaf)
    exact hsound.wellFormed_iff.mpr ⟨_, rfl⟩

namespace Vectors

def namelessFile : Bencode :=
  .dictionary [(utf8 "info", .dictionary [
    (utf8 "file tree", .dictionary [([], .dictionary [(utf8 "length", .integer 0)])]),
    (utf8 "meta version", .integer 2), (utf8 "piece length", .integer 16384)])]

theorem parseBencode_namelessFile :
    parseBencode namelessFile.encode = .ok (locate 0 namelessFile) := by
  refine parseBencode_eq_ok_iff.mpr ⟨namelessFile, ⟨by decide +kernel, .dictionary ?_ ?_, rfl,
    by decide +kernel, by decide +kernel⟩, rfl⟩
  · decide +kernel
  · simp only [List.forall_mem_cons]
    refine ⟨.dictionary (by decide +kernel) ?_, List.forall_mem_nil _⟩
    simp only [List.forall_mem_cons]
    refine ⟨.dictionary (by decide +kernel) ?_, .integer (by decide), .integer (by decide),
      List.forall_mem_nil _⟩
    simp only [List.forall_mem_cons]
    refine ⟨.dictionary (by decide +kernel) ?_, List.forall_mem_nil _⟩
    simp only [List.forall_mem_cons]
    exact ⟨.integer (by decide), List.forall_mem_nil _⟩

end Vectors

open Interop.Vectors in
theorem nameless_file_accepted :
    (torrentIdentity linear namelessFile.encode).map TorrentIdentity.kind = .ok .v2 ∧
      ∃ infoEntries node, HasInfo namelessFile.encode infoEntries ∧
        (utf8 "file tree", node) ∈ infoEntries ∧
        ∃ tree, readTree node = some tree ∧ ∃ file ∈ tree.files, file.path = [] := by
  refine ⟨by decide +kernel, _, _,
    ⟨_, _, _, parseBencode_namelessFile, rfl, List.mem_cons_self, rfl⟩, List.mem_cons_self,
    .file 0 none, rfl, ⟨[], 0, none⟩, List.mem_cons_self, rfl⟩

end TripTorrent.Interop
