import Mathlib.Data.List.Basic
import Mathlib.Data.Nat.Notation

/-!
# Hexadecimal text

Bytes are written with two lower-case digits each, and read with digits of either case. So every
byte string has one canonical text, the one that is written, and usually many others that are read
as the same bytes.
-/

namespace Codec

/-- The lower-case digit of a number below sixteen. -/
def hexDigit (n : ℕ) : Char := if n < 10 then .ofNat (48 + n) else .ofNat (87 + n)

/-- The value of a digit of either case. -/
def hexValue? (c : Char) : Option ℕ :=
  if '0' ≤ c ∧ c ≤ '9' then some (c.toNat - 48)
  else if 'a' ≤ c ∧ c ≤ 'f' then some (c.toNat - 87)
  else if 'A' ≤ c ∧ c ≤ 'F' then some (c.toNat - 55)
  else none

def hexEncode : List UInt8 → List Char
  | [] => []
  | byte :: bytes =>
    hexDigit (byte.toNat / 16) :: hexDigit (byte.toNat % 16) :: hexEncode bytes

def hexDecode : List Char → Option (List UInt8)
  | [] => some []
  | [_] => none
  | high :: low :: text =>
    match hexValue? high, hexValue? low, hexDecode text with
    | some x, some y, some bytes => some (.ofNat (16 * x + y) :: bytes)
    | _, _, _ => none

theorem hexValue?_hexDigit {n : ℕ} (h : n < 16) : hexValue? (hexDigit n) = some n := by
  have hall : ∀ n ∈ List.range 16, hexValue? (hexDigit n) = some n := by decide
  exact hall n (List.mem_range.mpr h)

theorem hexDecode_hexEncode (bytes : List UInt8) : hexDecode (hexEncode bytes) = some bytes := by
  induction bytes with
  | nil => rfl
  | cons byte bytes ih =>
    have hbyte := byte.toNat_lt
    rw [hexEncode, hexDecode, hexValue?_hexDigit (by omega), hexValue?_hexDigit (by omega), ih]
    dsimp only
    rw [Nat.div_add_mod, UInt8.ofNat_toNat]

/-- What is read as a digit is one, in upper or lower case. -/
theorem toLower_of_hexValue? {c : Char} {n : ℕ} (h : hexValue? c = some n) :
    n < 16 ∧ c.toLower = hexDigit n := by
  have hall : ∀ k ∈ List.range 128, ∀ n ∈ hexValue? (Char.ofNat k),
      n < 16 ∧ (Char.ofNat k).toLower = hexDigit n := by decide +kernel
  have hle {d : Char} (hc : c ≤ d) (hd : d.toNat < 128) : c.toNat < 128 :=
    Nat.lt_of_le_of_lt (UInt32.le_iff_toNat_le.mp hc) hd
  have hascii : c.toNat < 128 := by
    rw [hexValue?] at h
    split_ifs at h with hnumber hlower hupper
    · exact hle hnumber.2 (by decide)
    · exact hle hlower.2 (by decide)
    · exact hle hupper.2 (by decide)
  have hchar := hall c.toNat (List.mem_range.mpr hascii)
  rw [Char.ofNat_toNat] at hchar
  exact hchar n h

/-- What is read as bytes is their text, in letters of either case. -/
theorem hexEncode_of_hexDecode {text : List Char} {bytes : List UInt8}
    (h : hexDecode text = some bytes) : hexEncode bytes = text.map Char.toLower := by
  induction text using hexDecode.induct generalizing bytes with
  | case1 =>
    obtain rfl := Option.some.inj h
    rfl
  | case2 c => cases h
  | case3 high low text x y rest hrest hy hx ih =>
    rw [hexDecode, hx, hy, hrest] at h
    obtain rfl := Option.some.inj h
    obtain ⟨hxlt, hhigh⟩ := toLower_of_hexValue? hx
    obtain ⟨hylt, hlow⟩ := toLower_of_hexValue? hy
    have hlt : 16 * x + y < 2 ^ 8 := by omega
    have hbyte : (UInt8.ofNat (16 * x + y)).toNat = 16 * x + y := UInt8.toNat_ofNat_of_lt hlt
    have hdiv : (16 * x + y) / 16 = x := by omega
    have hmod : (16 * x + y) % 16 = y := by omega
    rw [hexEncode, hbyte, hdiv, hmod, ih hrest, List.map_cons, List.map_cons, hhigh, hlow]
  | case4 high low text hnone ih =>
    rw [hexDecode] at h
    split at h
    · next x y rest hx hy hrest => exact absurd hrest (hnone x y rest hx hy)
    · cases h

theorem length_hexEncode (bytes : List UInt8) : (hexEncode bytes).length = 2 * bytes.length := by
  induction bytes with
  | nil => rfl
  | cons byte bytes ih =>
    rw [hexEncode, List.length_cons, List.length_cons, ih, List.length_cons]
    omega

/-- A property of the sixteen digits is one of every encoded character. -/
theorem forall_mem_hexEncode {P : Char → Prop} (h : ∀ n < 16, P (hexDigit n)) (bytes : List UInt8) :
    ∀ c ∈ hexEncode bytes, P c := by
  induction bytes with
  | nil => exact List.forall_mem_nil _
  | cons byte bytes ih =>
    have hbyte := byte.toNat_lt
    rw [hexEncode, List.forall_mem_cons, List.forall_mem_cons]
    exact ⟨h _ (by omega), h _ (by omega), ih⟩

end Codec
