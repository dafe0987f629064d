import TripTorrent.Codec.Hex
import TripTorrent.Core.Content

/-!
# Content identifiers as text

An identifier is printed as 64 lower-case hexadecimal digits, and read from digits of either case.
The printed text is called canonical; an identifier is read from many others.
-/

namespace TripTorrent

/-- Invalid textual content identifier. -/
inductive ParseIdError where
  | hex
  | length (length : ℕ)
deriving DecidableEq

namespace ContentId

def toString (id : ContentId) : String := String.ofList (Codec.hexEncode id.bytes.toList)

def fromStr (value : String) : Except ParseIdError ContentId :=
  match Codec.hexDecode value.toList with
  | none => .error .hex
  | some decoded =>
    if h : decoded.length = 32 then .ok ⟨⟨decoded, h⟩⟩ else .error (.length value.utf8ByteSize)

@[simp] theorem fromStr_toString (id : ContentId) : fromStr id.toString = .ok id := by
  rw [fromStr, toString, String.toList_ofList, Codec.hexDecode_hexEncode]
  exact dif_pos id.bytes.2

theorem toString_injective : Function.Injective toString := by
  intro id other heq
  have hparse := fromStr_toString id
  rw [heq, fromStr_toString] at hparse
  exact (Except.ok.inj hparse).symm

end ContentId

end TripTorrent
