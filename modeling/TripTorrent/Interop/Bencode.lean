import TripTorrent.Codec.Bencode

/-!
# The strict bencode parser

The parser walks over the input by position and returns a tree whose nodes record where in the input
they were found. It refuses whatever is not canonical, and bounds the depth of the tree and the
number of its nodes.

A tree without its ranges is a value of the format (`BencodeNode.plain`), and `locate` says which
tree the encoding of a value gives when it stands at a position.
-/

namespace TripTorrent.Interop

open Codec

def maxBencodeDepth : ℕ := 64

def maxBencodeInput : ℕ := 4 * 1024 * 1024

def maxBencodeNodes : ℕ := 100000

mutual

inductive BencodeValue
  | bytes (value : List UInt8)
  | integer (value : ℤ)
  | list (values : List BencodeNode)
  | dictionary (entries : List (List UInt8 × BencodeNode))

/-- A parsed value with its byte range in the source. -/
structure BencodeNode where
  value : BencodeValue
  start : ℕ
  stop : ℕ

end

inductive BencodeError
  | truncated
  | invalid (position : ℕ)
  | unsortedDictionary (position : ℕ)
  | trailingBytes (position : ℕ)
  | tooDeep
  | tooLarge
  | tooManyNodes
deriving DecidableEq

/-- What changes while an input is parsed. -/
structure Parser where
  position : ℕ
  nodes : ℕ

/-! ## Parsing -/

def minusZero : List UInt8 := ['-'.toUInt8, '0'.toUInt8]

/-- The texts that `parse_integer` refuses before it reads them as a number. -/
def MalformedInteger (encoded : List UInt8) : Prop :=
  encoded = [] ∨ encoded = minusZero ∨
    encoded.head? = some '0'.toUInt8 ∧ 1 < encoded.length ∨
    minusZero <+: encoded ∧ 2 < encoded.length ∨
    encoded.head? = some '-'.toUInt8 ∧ encoded.length = 1 ∨
    ¬encoded.zipIdx.all fun (byte, index) ↦ isDigit byte || (index == 0 && byte == '-'.toUInt8)

instance (encoded : List UInt8) : Decidable (MalformedInteger encoded) :=
  inferInstanceAs (Decidable (_ ∨ _))

/-- The texts that `parse_bytes` refuses before it reads them as a length. -/
def MalformedLength (encoded : List UInt8) : Prop :=
  encoded = [] ∨ encoded.head? = some '0'.toUInt8 ∧ 1 < encoded.length ∨ ¬encoded.all isDigit

instance (encoded : List UInt8) : Decidable (MalformedLength encoded) :=
  inferInstanceAs (Decidable (_ ∨ _))

section Parsing

variable (input : List UInt8)

def findTerminator (position : ℕ) (token : UInt8) : Except BencodeError ℕ :=
  match (input.drop position).idxOf? token with
  | none => .error .truncated
  | some relative => .ok (position + relative)

-- The digits are ASCII, so they are text and can be read as they are.
def parseInteger (p : Parser) : Except BencodeError (BencodeValue × Parser) := do
  let start := p.position + 1
  let stop ← findTerminator input start 'e'.toUInt8
  let encoded := input.extract start stop
  if MalformedInteger encoded then .error (.invalid start)
  else
    match parseSigned (2 ^ 63) encoded with
    | none => .error (.invalid start)
    | some value => .ok (.integer value, { p with position := stop + 1 })

-- An end that overflows is behind the end of the input.
def parseBytes (p : Parser) : Except BencodeError (List UInt8 × Parser) := do
  let colon ← findTerminator input p.position ':'.toUInt8
  let encoded := input.extract p.position colon
  if MalformedLength encoded then .error (.invalid p.position)
  else
    match parseUnsigned (2 ^ 64) encoded with
    | none => .error (.invalid p.position)
    | some length =>
      let valueStart := colon + 1
      let valueEnd := valueStart + length
      if valueEnd ≤ input.length then
        .ok (input.extract valueStart valueEnd, { p with position := valueEnd })
      else .error .truncated

variable (parseItem : Parser → Except BencodeError (BencodeNode × Parser))

/-- The loop of `parse_list`, for at most as many rounds as given. -/
def parseValues : ℕ → Parser → Except BencodeError (List BencodeNode × Parser)
  | 0, _ => .error .tooManyNodes
  | rounds + 1, p =>
    if input[p.position]? = some 'e'.toUInt8 then .ok ([], p)
    else do
      let (node, p) ← parseItem p
      let (nodes, p) ← parseValues rounds p
      .ok (node :: nodes, p)

/-- The loop of `parse_dictionary`, for at most as many rounds as given. -/
def parseEntries : ℕ → Option (List UInt8) → Parser →
    Except BencodeError (List (List UInt8 × BencodeNode) × Parser)
  | 0, _, _ => .error .tooManyNodes
  | rounds + 1, previous, p =>
    if input[p.position]? = some 'e'.toUInt8 then .ok ([], p)
    else if ¬input[p.position]?.any isDigit then .error (.invalid p.position)
    else do
      let (key, q) ← parseBytes input p
      if previous.any fun candidate ↦ key ≤ candidate then
        .error (.unsortedDictionary p.position)
      else
        let (value, q) ← parseItem q
        let (entries, q) ← parseEntries rounds (some key) q
        .ok ((key, value) :: entries, q)

/-- The rounds after which a loop has parsed more nodes than there may be: every round parses at
least one. -/
def Parser.rounds (p : Parser) : ℕ := maxBencodeNodes + 1 - p.nodes

theorem Parser.lt_nodes_add_rounds (p : Parser) : maxBencodeNodes < p.nodes + p.rounds := by
  rw [Parser.rounds]
  omega

def parseList (p : Parser) : Except BencodeError (BencodeValue × Parser) := do
  let (values, q) ← parseValues input parseItem p.rounds { p with position := p.position + 1 }
  .ok (.list values, { q with position := q.position + 1 })

def parseDictionary (p : Parser) : Except BencodeError (BencodeValue × Parser) := do
  let (entries, q) ←
    parseEntries input parseItem p.rounds none { p with position := p.position + 1 }
  .ok (.dictionary entries, { q with position := q.position + 1 })

/-- The match of `parse_node` on the first byte. -/
def parseToken (p : Parser) : Except BencodeError (BencodeValue × Parser) :=
  match input[p.position]? with
  | none => .error .truncated
  | some token =>
    if token = 'i'.toUInt8 then parseInteger input p
    else if token = 'l'.toUInt8 then parseList input parseItem p
    else if token = 'd'.toUInt8 then parseDictionary input parseItem p
    else if isDigit token then do
      let (value, q) ← parseBytes input p
      .ok (.bytes value, q)
    else .error (.invalid p.position)

/-- `parse_node` at a depth at which nodes may be nested in `levels` more levels, this one
included: `levels` is `maxBencodeDepth + 1 - depth`. -/
def parseNode : ℕ → Parser → Except BencodeError (BencodeNode × Parser)
  | 0, _ => .error .tooDeep
  | levels + 1, p =>
    let p := { p with nodes := p.nodes + 1 }
    if maxBencodeNodes < p.nodes then .error .tooManyNodes
    else do
      let (value, q) ← parseToken input (parseNode levels) p
      .ok (⟨value, p.position, q.position⟩, q)

def parseBencode : Except BencodeError BencodeNode :=
  if maxBencodeInput < input.length then .error .tooLarge
  else do
    let (value, p) ← parseNode input (maxBencodeDepth + 1) ⟨0, 0⟩
    if p.position ≠ input.length then .error (.trailingBytes p.position)
    else .ok value

end Parsing

/-! ## Values and where they stand -/

mutual

/-- The value of a node, without the ranges. -/
def BencodeNode.plain : BencodeNode → Bencode
  | ⟨value, _, _⟩ => value.plain

def BencodeValue.plain : BencodeValue → Bencode
  | .bytes value => .bytes value
  | .integer value => .integer value
  | .list values => .list (plainList values)
  | .dictionary entries => .dictionary (plainEntries entries)

def plainList : List BencodeNode → List Bencode
  | [] => []
  | node :: nodes => node.plain :: plainList nodes

def plainEntries : List (List UInt8 × BencodeNode) → List (List UInt8 × Bencode)
  | [] => []
  | (key, node) :: entries => (key, node.plain) :: plainEntries entries

end

mutual

/-- The tree for a value whose encoding stands at a position. -/
def locateValue (start : ℕ) : Bencode → BencodeValue
  | .bytes value => .bytes value
  | .integer value => .integer value
  | .list values => .list (locateList (start + 1) values)
  | .dictionary entries => .dictionary (locateEntries (start + 1) entries)

def locateList (start : ℕ) : List Bencode → List BencodeNode
  | [] => []
  | value :: values =>
    ⟨locateValue start value, start, start + value.encode.length⟩ ::
      locateList (start + value.encode.length) values

def locateEntries (start : ℕ) : List (List UInt8 × Bencode) → List (List UInt8 × BencodeNode)
  | [] => []
  | (key, value) :: entries =>
    let valueStart := start + (Bencode.encodeBytes key).length
    let stop := valueStart + value.encode.length
    (key, ⟨locateValue valueStart value, valueStart, stop⟩) :: locateEntries stop entries

end

def locate (start : ℕ) (value : Bencode) : BencodeNode :=
  ⟨locateValue start value, start, start + value.encode.length⟩

theorem plain_locateValue (v : Bencode) (start : ℕ) : (locateValue start v).plain = v := by
  induction v using Bencode.induction generalizing start with
  | bytes => rfl
  | integer => rfl
  | list values ih =>
    have hlist (start : ℕ) : plainList (locateList start values) = values := by
      induction values generalizing start with
      | nil => rfl
      | cons v values ihvalues =>
        rw [List.forall_mem_cons] at ih
        rw [locateList, plainList, BencodeNode.plain, ih.1, ihvalues ih.2]
    rw [locateValue, BencodeValue.plain, hlist]
  | dictionary entries ih =>
    have hentries (start : ℕ) : plainEntries (locateEntries start entries) = entries := by
      induction entries generalizing start with
      | nil => rfl
      | cons entry entries ihentries =>
        rw [List.forall_mem_cons] at ih
        rw [locateEntries, plainEntries, BencodeNode.plain, ih.1, ihentries ih.2]
    rw [locateValue, BencodeValue.plain, hentries]

@[simp]
theorem plain_locate (start : ℕ) (v : Bencode) : (locate start v).plain = v :=
  plain_locateValue v start

end TripTorrent.Interop
