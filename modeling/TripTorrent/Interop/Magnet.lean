import TripTorrent.Codec.Base32
import TripTorrent.Codec.Percent
import TripTorrent.Codec.Words
import TripTorrent.Storage.Keyed

/-!
# Magnet links

A magnet link is a query of named values, percent-encoded. A name may occur several times; the
values of the names that are known are kept in lists of their own, and the values under `xt` are
exact topics, of which those of BitTorrent are decoded.

Names and values are cut out of the link as text, and decoded as bytes: what an escape stands for
need not be a character by itself.
-/

namespace TripTorrent.Interop

open Codec
open Std (ExtTreeMap)

/-- `MAX_MAGNET_LENGTH` -/
def maxMagnetLength : ℕ := 64 * 1024

/-- `MAX_MAGNET_PARAMETERS` -/
def maxMagnetParameters : ℕ := 1024

/-- Parsed compatibility hints from a magnet URI. -/
structure Magnet where
  btih : List String := []
  btmhSha256 : List String := []
  otherExactTopics : List String := []
  displayNames : List String := []
  trackers : List String := []
  explicitPeers : List String := []
  webSeeds : List String := []
  acceptableSources : List String := []
  exactSources : List String := []
  other : ExtTreeMap String (List String) := ∅

inductive MagnetError
  | scheme
  | encoding
  | missingExactTopic
  | invalidExactTopic
  | tooLarge
deriving DecidableEq

def MagnetError.message : MagnetError → String
  | .scheme => "URI is not a magnet link"
  | .encoding => "invalid magnet percent encoding"
  | .missingExactTopic => "magnet link has no xt parameter"
  | .invalidExactTopic => "invalid BitTorrent exact topic"
  | .tooLarge => "magnet link exceeds parser limits"

/-! ## Percent-encoding -/

def hexDigit (value : UInt8) : Except MagnetError ℕ :=
  if '0'.toUInt8 ≤ value ∧ value ≤ '9'.toUInt8 then .ok (value.toNat - '0'.toNat)
  else if 'a'.toUInt8 ≤ value ∧ value ≤ 'f'.toUInt8 then .ok (value.toNat - 'a'.toNat + 10)
  else if 'A'.toUInt8 ≤ value ∧ value ≤ 'F'.toUInt8 then .ok (value.toNat - 'A'.toNat + 10)
  else .error .encoding

/-- The loop of `percent_decode`. -/
def percentDecodeBytes : List UInt8 → Except MagnetError (List UInt8)
  | [] => .ok []
  | byte :: bytes =>
    if byte = '%'.toUInt8 then
      match bytes with
      | high :: low :: bytes => do
        let high ← hexDigit high
        let low ← hexDigit low
        let decoded ← percentDecodeBytes bytes
        .ok (.ofNat (16 * high + low) :: decoded)
      | _ => .error .encoding
    else do
      let decoded ← percentDecodeBytes bytes
      .ok (byte :: decoded)

def percentDecode (value : String) : Except MagnetError String := do
  match ofUtf8? (← percentDecodeBytes (utf8 value)) with
  | some decoded => .ok decoded
  | none => .error .encoding

/-! ## Exact topics -/

/-- The state of the loop of `decode_base32`: an accumulator of 32 bits, how many bits of it are not
put out yet, and the bytes that are. -/
structure Base32Decoder where
  accumulator : ℕ
  bits : ℕ
  decoded : List UInt8
deriving DecidableEq

def base32Value (byte : UInt8) : Except MagnetError ℕ :=
  if 'a'.toUInt8 ≤ byte ∧ byte ≤ 'z'.toUInt8 then .ok (byte.toNat - 'a'.toNat)
  else if '2'.toUInt8 ≤ byte ∧ byte ≤ '7'.toUInt8 then .ok (byte.toNat - '2'.toNat + 26)
  else .error .invalidExactTopic

def Base32Decoder.step (state : Base32Decoder) (byte : UInt8) :
    Except MagnetError Base32Decoder := do
  let symbol ← base32Value byte
  let accumulator := (state.accumulator <<< 5) % 2 ^ 32 ||| symbol
  let bits := state.bits + 5
  if 8 ≤ bits then
    let bits := bits - 8
    .ok ⟨accumulator &&& (1 <<< bits - 1), bits, state.decoded ++ [.ofNat (accumulator >>> bits)]⟩
  else .ok ⟨accumulator, bits, state.decoded⟩

def Base32Decoder.run (bytes : List UInt8) : Except MagnetError Base32Decoder :=
  bytes.foldlM step ⟨0, 0, []⟩

def decodeBase32 (value : String) : Except MagnetError (List UInt8) := do
  let state ← Base32Decoder.run (utf8 value)
  if state.bits ≠ 0 ∧ state.accumulator ≠ 0 then .error .invalidExactTopic else .ok state.decoded

/-- `str::to_ascii_lowercase` -/
def toAsciiLowercase (value : String) : String := String.ofList (value.toList.map Char.toLower)

/-- `str::strip_prefix` -/
def stripPrefix (value pattern : String) : Option String :=
  (value.toList.dropPrefix? pattern.toList).map String.ofList

/-- `hex::decode` -/
def decodeHex (encoded : String) : Except MagnetError (List UInt8) :=
  match hexDecode encoded.toList with
  | some bytes => .ok bytes
  | none => .error .invalidExactTopic

/-- `hex::encode` -/
def encodeHex (bytes : List UInt8) : String := String.ofList (hexEncode bytes)

/-- The hash of a v1 topic: forty hexadecimal digits, or thirty-two base-32 symbols. -/
def decodeBtih (encoded : String) : Except MagnetError (List UInt8) :=
  if encoded.utf8ByteSize = 40 then decodeHex encoded
  else if encoded.utf8ByteSize = 32 then decodeBase32 encoded
  else .error .invalidExactTopic

def parseExactTopic (value : String) (magnet : Magnet) : Except MagnetError Magnet :=
  let lower := toAsciiLowercase value
  match stripPrefix lower "urn:btih:", stripPrefix lower "urn:btmh:" with
  | some encoded, _ => do
    let bytes ← decodeBtih encoded
    if bytes.length ≠ 20 then .error .invalidExactTopic
    else .ok { magnet with btih := magnet.btih ++ [encodeHex bytes] }
  | none, some encoded => do
    let bytes ← decodeHex encoded
    if bytes.length ≠ 34 ∨ bytes.take 2 ≠ [0x12, 0x20] then .error .invalidExactTopic
    else .ok { magnet with btmhSha256 := magnet.btmhSha256 ++ [encodeHex (bytes.drop 2)] }
  | none, none => .ok { magnet with otherExactTopics := magnet.otherExactTopics ++ [value] }

/-! ## Parameters -/

/-- A value under a name other than `xt`. -/
def Magnet.addHint (magnet : Magnet) (name value : String) : Magnet :=
  if name = "dn" then { magnet with displayNames := magnet.displayNames ++ [value] }
  else if name = "tr" then { magnet with trackers := magnet.trackers ++ [value] }
  else if name = "x.pe" then { magnet with explicitPeers := magnet.explicitPeers ++ [value] }
  else if name = "ws" then { magnet with webSeeds := magnet.webSeeds ++ [value] }
  else if name = "as" then { magnet with acceptableSources := magnet.acceptableSources ++ [value] }
  else if name = "xs" then { magnet with exactSources := magnet.exactSources ++ [value] }
  else
    { magnet with
      other := magnet.other.alter name fun values ↦ some (values.getD [] ++ [value]) }

/-- One parameter of the query, and the number of exact topics so far. -/
def parseParameter (state : Magnet × ℕ) (parameter : List Char) :
    Except MagnetError (Magnet × ℕ) := do
  let (rawName, rawValue) := (splitOnce '=' parameter).getD (parameter, [])
  let name ← percentDecode (String.ofList rawName)
  let value ← percentDecode (String.ofList rawValue)
  let (magnet, exactTopics) := state
  if name = "xt" then
    let magnet ← parseExactTopic value magnet
    .ok (magnet, exactTopics + 1)
  else .ok (magnet.addHint name value, exactTopics)

/-- The loop of `parse_magnet`. -/
def parseParameters : ℕ → Magnet × ℕ → List (List Char) → Except MagnetError (Magnet × ℕ)
  | _, state, [] => .ok state
  | index, state, parameter :: parameters =>
    if maxMagnetParameters ≤ index then .error .tooLarge
    else do
      let state ← parseParameter state parameter
      parseParameters (index + 1) state parameters

def parseMagnet (uri : String) : Except MagnetError Magnet :=
  if maxMagnetLength < uri.utf8ByteSize then .error .tooLarge
  else
    match stripPrefix uri "magnet:?" with
    | none => .error .scheme
    | some query => do
      let parameters := (query.toList.splitOn '&').filter fun part ↦ !part.isEmpty
      let (magnet, exactTopics) ← parseParameters 0 ({}, 0) parameters
      if exactTopics = 0 then .error .missingExactTopic else .ok magnet

end TripTorrent.Interop
