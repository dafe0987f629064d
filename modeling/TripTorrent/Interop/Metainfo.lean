import TripTorrent.Codec.Hex
import TripTorrent.Codec.Text
import TripTorrent.Interop.Bencode

/-!
# Torrent metadata

A metainfo file is a dictionary with an `info` dictionary, which is that of a v1 torrent, of a v2
torrent, or of both at once. The identity of the torrent is the hash of the bytes of the `info`
dictionary as they stand in the file.

Fields are looked up by binary search over the keys of a dictionary. The search and the hash
functions are parameters: the search is only known to be right on sorted keys.
-/

namespace TripTorrent.Interop

open Codec

inductive TorrentKind
  | v1
  | v2
  | hybrid
deriving DecidableEq

structure TorrentIdentity where
  kind : TorrentKind
  btih : Option String
  btmhSha256 : Option String
deriving DecidableEq

inductive MetainfoError
  | bencode (error : BencodeError)
  | missingInfo
  | unsupported
  | invalidField (field : String)
deriving DecidableEq

/-- What the library functions return. -/
structure Library where
  sha1 : List UInt8 → List UInt8
  sha256 : List UInt8 → List UInt8
  binarySearch : List (List UInt8) → List UInt8 → Option ℕ
  binarySearch_eq_some : ∀ keys key i, keys.Pairwise (· < ·) → binarySearch keys key = some i →
    keys[i]? = some key
  binarySearch_eq_none : ∀ keys key, keys.Pairwise (· < ·) → binarySearch keys key = none →
    key ∉ keys

abbrev Entries := List (List UInt8 × BencodeNode)

/-! ## Fields -/

def dictionary (node : BencodeNode) : Option Entries :=
  match node.value with
  | .dictionary entries => some entries
  | _ => none

def u64FromI64 (value : ℤ) : Option ℕ := if 0 ≤ value then some value.toNat else none

def checkedAddU64 (a b : ℕ) : Option ℕ := if a + b < 2 ^ 64 then some (a + b) else none

section Fields

variable (lib : Library)

def find (entries : Entries) (key : String) : Option BencodeNode := do
  let index ← lib.binarySearch (entries.map Prod.fst) (utf8 key)
  let entry ← entries[index]?
  some entry.2

def bytesField (entries : Entries) (key : String) : Option (List UInt8) := do
  match (← find lib entries key).value with
  | .bytes value => some value
  | _ => none

def integerField (entries : Entries) (key : String) : Option ℤ := do
  match (← find lib entries key).value with
  | .integer value => some value
  | _ => none

/-- A path component: a nonempty byte string. -/
def isPathPart (part : BencodeNode) : Bool :=
  match part.value with
  | .bytes value => !value.isEmpty
  | _ => false

/-- The length of one of several files. -/
def fileLength (file : BencodeNode) : Option ℕ := do
  let fields ← dictionary file
  let length ← u64FromI64 (← integerField lib fields "length")
  match (← find lib fields "path").value with
  | .list parts => if parts.isEmpty || parts.any (!isPathPart ·) then none else some length
  | _ => none

def addFile (total : ℕ) (file : BencodeNode) : Option ℕ := do
  checkedAddU64 total (← fileLength lib file)

def v1PayloadLength (entries : Entries) : Option ℕ :=
  match find lib entries "length", find lib entries "files" with
  | some length, none =>
    match length.value with
    | .integer value => u64FromI64 value
    | _ => none
  | none, some files =>
    match files.value with
    | .list files => if files.isEmpty then none else files.foldlM (addFile lib) 0
    | _ => none
  | _, _ => none

/-- The length in a leaf of the file tree. -/
def leafLength (node : BencodeNode) : Option ℕ := do
  let leaf ← dictionary node
  let length ← u64FromI64 (← integerField lib leaf "length")
  if 0 < length && (bytesField lib leaf "pieces root").all fun root ↦ root.length ≠ 32 then none
  else some length

/-- `v2_tree_length`, given the sum over the entries that it takes unless there is only a leaf. -/
def treeLength (entries : Entries) (sum : Option ℕ) : Option ℕ :=
  match entries with
  | [] => none
  | [(name, node)] => if name.isEmpty then leafLength lib node else sum
  | _ => sum

mutual

/-- `v2_tree_length` of a child. -/
def childLength : BencodeNode → Option ℕ
  | ⟨.dictionary entries, _, _⟩ => treeLength lib entries (sumLengths 0 entries)
  | ⟨.bytes _, _, _⟩ => none
  | ⟨.integer _, _, _⟩ => none
  | ⟨.list _, _, _⟩ => none

def sumLengths (total : ℕ) : List (List UInt8 × BencodeNode) → Option ℕ
  | [] => some total
  | (name, node) :: entries =>
    if name.isEmpty then none
    else do
      let length ← childLength node
      let total ← checkedAddU64 total length
      sumLengths total entries

end

def v2TreeLength (entries : Entries) : Option ℕ :=
  treeLength lib entries (sumLengths lib 0 entries)

/-! ## Identity -/

/-- Whether the `info` dictionary is that of a v1 torrent and that of a v2 torrent. -/
def torrentForms (infoEntries : Entries) : Except MetainfoError (Bool × Bool) :=
  match (integerField lib infoEntries "piece length").filter (0 < ·) with
  | none => .error (.invalidField "piece length")
  | some pieceLength =>
    let v1Pieces := bytesField lib infoEntries "pieces"
    let v1Length := v1PayloadLength lib infoEntries
    let expectedV1Pieces := do
      let length ← v1Length
      let pieceLength ← u64FromI64 pieceLength
      some ((length + pieceLength - 1) / pieceLength)
    let isV1 := match v1Pieces, expectedV1Pieces with
      | some pieces, some count => pieces.length == min (count * 20) (2 ^ 64 - 1)
      | _, _ => false
    let metaVersion := integerField lib infoEntries "meta version"
    let v2Length := do v2TreeLength lib (← dictionary (← find lib infoEntries "file tree"))
    let isV2 := metaVersion == some 2 && v2Length.isSome
    if metaVersion.isSome && metaVersion != some 2 then .error (.invalidField "meta version")
    else if v1Pieces.isSome && !isV1 then .error (.invalidField "v1 pieces or file layout")
    else if metaVersion.isSome && !isV2 then .error (.invalidField "v2 file tree")
    else if isV1 && isV2 && v1Length != v2Length then
      .error (.invalidField "hybrid payload length")
    else .ok (isV1, isV2)

def torrentKind : Bool × Bool → Except MetainfoError TorrentKind
  | (true, false) => .ok .v1
  | (false, true) => .ok .v2
  | (true, true) => .ok .hybrid
  | (false, false) => .error .unsupported

/-- The identity of a torrent with the given `info` dictionary, whose bytes are `rawInfo`. -/
def infoIdentity (infoEntries : Entries) (rawInfo : List UInt8) :
    Except MetainfoError TorrentIdentity := do
  let (isV1, isV2) ← torrentForms lib infoEntries
  let kind ← torrentKind (isV1, isV2)
  .ok
    { kind
      btih := if isV1 then some (.ofList (hexEncode (lib.sha1 rawInfo))) else none
      btmhSha256 := if isV2 then some (.ofList (hexEncode (lib.sha256 rawInfo))) else none }

def torrentIdentity (metainfo : List UInt8) : Except MetainfoError TorrentIdentity :=
  match parseBencode metainfo with
  | .error error => .error (.bencode error)
  | .ok root =>
    match (do find lib (← dictionary root) "info") with
    | none => .error .missingInfo
    | some info =>
      match dictionary info with
      | none => .error .missingInfo
      | some infoEntries =>
        infoIdentity lib infoEntries (metainfo.extract info.start info.stop)

end Fields

end TripTorrent.Interop
