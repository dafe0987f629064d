import TripTorrent.Codec.Decimal
import Mathlib.Data.List.Chain

/-!
# Bencoding

A value is a byte string, an integer, a list or a dictionary. Byte strings are preceded by their
length, and the other three are enclosed in a letter that says which they are and the letter `e`, so
an encoding can be read without knowing where it ends.

A value is canonical if its integers fit in a signed machine word and the keys of its dictionaries
increase. The encoding is a function of the value: numbers are written as numerals.
-/

namespace Codec

inductive Bencode
  | bytes (value : List UInt8)
  | integer (value : ℤ)
  | list (values : List Bencode)
  | dictionary (entries : List (List UInt8 × Bencode))

namespace Bencode

/-- Induction with one hypothesis for all elements of a list or dictionary. -/
@[elab_as_elim]
theorem induction {motive : Bencode → Prop} (bytes : ∀ value, motive (.bytes value))
    (integer : ∀ value, motive (.integer value))
    (list : ∀ values, (∀ value ∈ values, motive value) → motive (.list values))
    (dictionary : ∀ entries, (∀ entry ∈ entries, motive entry.2) → motive (.dictionary entries))
    (v : Bencode) : motive v :=
  @Bencode.rec motive (fun values ↦ ∀ value ∈ values, motive value)
    (fun entries ↦ ∀ entry ∈ entries, motive entry.2) (fun entry ↦ motive entry.2) bytes integer
    (fun values ih ↦ list values ih) (fun entries ih ↦ dictionary entries ih)
    (List.forall_mem_nil _) (fun _ _ hvalue hvalues ↦ List.forall_mem_cons.mpr ⟨hvalue, hvalues⟩)
    (List.forall_mem_nil _) (fun _ _ hentry hentries ↦ List.forall_mem_cons.mpr ⟨hentry, hentries⟩)
    (fun _ _ h ↦ h) v

def encodeBytes (value : List UInt8) : List UInt8 :=
  decimal value.length ++ ':'.toUInt8 :: value

mutual

def encode : Bencode → List UInt8
  | .bytes value => encodeBytes value
  | .integer value => 'i'.toUInt8 :: (signed value ++ ['e'.toUInt8])
  | .list values => 'l'.toUInt8 :: (encodeList values ++ ['e'.toUInt8])
  | .dictionary entries => 'd'.toUInt8 :: (encodeEntries entries ++ ['e'.toUInt8])

def encodeList : List Bencode → List UInt8
  | [] => []
  | value :: values => value.encode ++ encodeList values

def encodeEntries : List (List UInt8 × Bencode) → List UInt8
  | [] => []
  | (key, value) :: entries => encodeBytes key ++ value.encode ++ encodeEntries entries

end

inductive Canonical : Bencode → Prop
  | bytes (value : List UInt8) : Canonical (.bytes value)
  | integer {value : ℤ} (h : -2 ^ 63 ≤ value ∧ value < 2 ^ 63) : Canonical (.integer value)
  | list {values : List Bencode} (h : ∀ value ∈ values, Canonical value) : Canonical (.list values)
  | dictionary {entries : List (List UInt8 × Bencode)}
      (hkeys : (entries.map Prod.fst).IsChain (· < ·)) (h : ∀ entry ∈ entries, Canonical entry.2) :
      Canonical (.dictionary entries)

mutual

/-- How many lists and dictionaries enclose the innermost value. -/
def depth : Bencode → ℕ
  | .bytes _ => 0
  | .integer _ => 0
  | .list values => depthList values
  | .dictionary entries => depthEntries entries

def depthList : List Bencode → ℕ
  | [] => 0
  | value :: values => max (value.depth + 1) (depthList values)

def depthEntries : List (List UInt8 × Bencode) → ℕ
  | [] => 0
  | (_, value) :: entries => max (value.depth + 1) (depthEntries entries)

end

mutual

/-- The number of values, keys not counted. -/
def size : Bencode → ℕ
  | .bytes _ => 1
  | .integer _ => 1
  | .list values => 1 + sizeList values
  | .dictionary entries => 1 + sizeEntries entries

def sizeList : List Bencode → ℕ
  | [] => 0
  | value :: values => value.size + sizeList values

def sizeEntries : List (List UInt8 × Bencode) → ℕ
  | [] => 0
  | (_, value) :: entries => value.size + sizeEntries entries

end

variable {v : Bencode} {values : List Bencode} {entries : List (List UInt8 × Bencode)} {n : ℕ}

theorem depthList_le_iff : depthList values ≤ n ↔ ∀ value ∈ values, value.depth < n := by
  induction values with
  | nil => simp [depthList]
  | cons value values ih => rw [depthList, max_le_iff, ih, List.forall_mem_cons, Nat.succ_le_iff]

theorem depthEntries_le_iff : depthEntries entries ≤ n ↔ ∀ entry ∈ entries, entry.2.depth < n := by
  induction entries with
  | nil => simp [depthEntries]
  | cons entry entries ih =>
    rw [depthEntries, max_le_iff, ih, List.forall_mem_cons, Nat.succ_le_iff]

theorem one_le_size (v : Bencode) : 1 ≤ v.size := by
  cases v with
  | bytes => exact le_rfl
  | integer => exact le_rfl
  | list values => exact Nat.le_add_right 1 _
  | dictionary entries => exact Nat.le_add_right 1 _

/-- An encoding starts with a digit or a letter other than `e`. -/
theorem exists_encode_eq_cons (v : Bencode) :
    ∃ first rest, v.encode = first :: rest ∧ first ≠ 'e'.toUInt8 := by
  cases v with
  | bytes value =>
    obtain ⟨first, rest, hdecimal, hfirst⟩ := exists_decimal_eq_cons value.length
    rw [encode, encodeBytes, hdecimal]
    refine ⟨first, _, rfl, ?_⟩
    rintro rfl
    exact absurd hfirst (by decide)
  | integer => exact ⟨_, _, rfl, by decide⟩
  | list => exact ⟨_, _, rfl, by decide⟩
  | dictionary => exact ⟨_, _, rfl, by decide⟩

theorem encode_ne_nil (v : Bencode) : v.encode ≠ [] := by
  obtain ⟨first, rest, hencode, -⟩ := v.exists_encode_eq_cons
  rw [hencode]
  exact List.cons_ne_nil first rest

end Bencode

end Codec
