import Mathlib.Data.Set.Basic
import TripTorrent.Codec.Cursor

/-!
# Prefix-free languages

The language of a parser is the set of byte strings it accepts. It is prefix-free if no accepted
string continues another one, so that neither a truncated record nor a record with something behind
it is taken for a record.

A reader in the sense of `Accepts` has such a language. It reads the same value whatever follows, so
on `b ++ c` it stops after `b` if it accepts `b`, and then `c` is left over.
-/

namespace Codec

variable {ε α : Type}

/-- The byte strings that a parser accepts. -/
def language (parse : List UInt8 → Except ε α) : Set (List UInt8) := {b | ∃ a, parse b = .ok a}

/-- No member of the language continues another. -/
def PrefixFree (L : Set (List UInt8)) : Prop := ∀ b c, b ∈ L → b ++ c ∈ L → c = []

/-- Among the images that a reader accepts, none continues another. -/
theorem Accepts.eq_nil_of_append {r : Get ε α} {p : α → Prop} {w : α → List UInt8}
    (hr : Accepts r p w) {a b : α} {c : List UInt8} (hlen : (w b).length < 2 ^ 64) (ha : p a)
    (hb : p b) (h : w a ++ c = w b) : c = [] := by
  have hvalid : Cursor.Valid ⟨w b, 0⟩ := ⟨Nat.zero_le _, hlen⟩
  have hshort := (hr ⟨w b, 0⟩ hvalid a _).mpr ⟨ha, ⟨c, h⟩, rfl⟩
  have hlong := (hr ⟨w b, 0⟩ hvalid b _).mpr ⟨hb, List.prefix_rfl, rfl⟩
  -- the reader has one result, and so one place where it stops
  obtain ⟨-, hcursor⟩ := Prod.mk.inj (Except.ok.inj (hshort.symm.trans hlong))
  have hlength : (w a).length = (w b).length := by
    simpa using congrArg Cursor.offset hcursor
  rw [← h, List.length_append] at hlength
  exact List.length_eq_zero_iff.mp (by omega)

/-- Prefix-freeness of a language given by an image for each value. -/
theorem PrefixFree.of_images {parse : List UInt8 → Except ε α} {p : α → Prop}
    {w : α → List UInt8} (hparse : ∀ b a, parse b = .ok a → p a ∧ b = w a)
    (h : ∀ a b c, p a → p b → w a ++ c = w b → c = []) : PrefixFree (language parse) := by
  rintro b c ⟨a, ha⟩ ⟨a', ha'⟩
  obtain ⟨hp, rfl⟩ := hparse b a ha
  obtain ⟨hp', heq⟩ := hparse _ a' ha'
  exact h a a' c hp hp' heq

end Codec
