import TripTorrent.Codec.Hex
import TripTorrent.Codec.Text

/-!
# Percent-encoding

Bytes that have a meaning in the text around them are written as a percent sign and two hexadecimal
digits, of either case. Which other bytes are written in this way is left to the writer, so a text
has many encodings: `Escaped` relates all of them to the text, for a set of bytes that may not be
left as they are.
-/

namespace Codec

/-- The byte is a hexadecimal digit with value `n`. -/
def IsHexDigit (byte : UInt8) (n : ℕ) : Prop :=
  byte = (hexDigit n).toUInt8 ∨ byte = (hexDigit n).toUpper.toUInt8

instance (byte : UInt8) (n : ℕ) : Decidable (IsHexDigit byte n) :=
  inferInstanceAs (Decidable (_ ∨ _))

/-- The bytes `raw` encode the bytes `text`, with none of the reserved ones left as it is. -/
inductive Escaped (reserved : Set UInt8) : (raw text : List UInt8) → Prop
  | nil : Escaped reserved [] []
  | plain {byte : UInt8} {raw text : List UInt8} (hbyte : byte ∉ reserved)
      (h : Escaped reserved raw text) : Escaped reserved (byte :: raw) (byte :: text)
  | escape {byte high low : UInt8} {raw text : List UInt8}
      (hhigh : IsHexDigit high (byte.toNat / 16)) (hlow : IsHexDigit low (byte.toNat % 16))
      (h : Escaped reserved raw text) :
      Escaped reserved ('%'.toUInt8 :: high :: low :: raw) (byte :: text)

variable {reserved : Set UInt8} {raw text : List UInt8} {byte : UInt8} {n : ℕ}

/-- The digits of either case. -/
theorem forall_isHexDigit {P : UInt8 → ℕ → Prop}
    (h : ∀ n < 16, P (hexDigit n).toUInt8 n ∧ P (hexDigit n).toUpper.toUInt8 n) (hn : n < 16)
    (hdigit : IsHexDigit byte n) : P byte n := by
  rcases hdigit with rfl | rfl
  · exact (h n hn).1
  · exact (h n hn).2

/-- A text without reserved bytes encodes itself. -/
theorem Escaped.self (h : ∀ byte ∈ text, byte ∉ reserved) : Escaped reserved text text := by
  induction text with
  | nil => exact .nil
  | cons byte text ih =>
    rw [List.forall_mem_cons] at h
    exact .plain h.1 (ih h.2)

/-- A separator that is reserved does not stand in an encoding. -/
theorem Escaped.notMem (h : Escaped reserved raw text) (hbyte : byte ∈ reserved)
    (hpercent : byte ≠ '%'.toUInt8) (hdigit : ∀ n < 16, ¬IsHexDigit byte n) : byte ∉ raw := by
  induction h with
  | nil => exact List.not_mem_nil
  | plain hplain h ih =>
    rw [List.mem_cons, not_or]
    exact ⟨fun heq ↦ hplain (heq ▸ hbyte), ih⟩
  | @escape byte' high low raw text hhigh hlow h ih =>
    have hlt := byte'.toNat_lt
    simp only [List.mem_cons, not_or]
    refine ⟨hpercent, ?_, ?_, ih⟩
    · rintro rfl
      exact hdigit _ (by omega) hhigh
    · rintro rfl
      exact hdigit _ (by omega) hlow

end Codec
