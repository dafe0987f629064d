import Mathlib.Data.List.DropRight
import TripTorrent.Codec.Decimal
import TripTorrent.Codec.Lines
import TripTorrent.Codec.Text

/-!
# Words and fields of a line

What is done with a line of text: it is cut into words at white space, or into a name and a value
at the first occurrence of a character, and white space around a value is dropped. White space is
that of Unicode, so it may be several bytes long; separators are ASCII characters, and are
found in the bytes of a text exactly where they are found in the text.
-/

namespace Codec

variable {text word rest : List Char} {c : Char}

/-- The characters that Unicode lists as white space. -/
def isWhitespace (c : Char) : Bool :=
  (9 ≤ c.toNat && c.toNat ≤ 13) || c.toNat == 0x20 || c.toNat == 0x85 || c.toNat == 0xa0 ||
    c.toNat == 0x1680 || (0x2000 ≤ c.toNat && c.toNat ≤ 0x200a) || c.toNat == 0x2028 ||
    c.toNat == 0x2029 || c.toNat == 0x202f || c.toNat == 0x205f || c.toNat == 0x3000

/-! ## Words -/

/-- A word: nonempty and without white space. -/
def Word (word : List Char) : Prop := word ≠ [] ∧ ∀ c ∈ word, isWhitespace c = false

-- not by trying all characters
instance : Decidable (Word word) := @instDecidableAnd _ _ _ (List.decidableBAll _ _)

theorem Word.notMem (h : Word word) (hc : isWhitespace c = true) : c ∉ word :=
  fun hmem ↦ Bool.eq_false_iff.mp (h.2 c hmem) hc

/-- The words of a text. -/
def words (text : List Char) : List (List Char) :=
  (text.splitOnP isWhitespace).filter fun word ↦ !word.isEmpty

theorem words_append (h : Word word) (hc : isWhitespace c = true) (rest : List Char) :
    words (word ++ c :: rest) = word :: words rest := by
  rw [words, List.splitOnP_append_cons_of_forall_mem h.2 c hc, List.filter_cons_of_pos, words]
  simpa using h.1

theorem words_word (h : Word word) : words word = [word] := by
  rw [words, List.splitOnP_eq_singleton h.2, List.filter_cons_of_pos (by simpa using h.1),
    List.filter_nil]

/-! ## Fields -/

/-- The text in front of the first occurrence of a character, and behind it. -/
def splitOnce (c : Char) (text : List Char) : Option (List Char × List Char) :=
  match text.dropWhile (· ≠ c) with
  | [] => none
  | _ :: rest => some (text.takeWhile (· ≠ c), rest)

theorem splitOnce_append (h : c ∉ word) (rest : List Char) :
    splitOnce c (word ++ c :: rest) = some (word, rest) := by
  have hne : ∀ d ∈ word, decide (d ≠ c) = true := fun d hd ↦
    decide_eq_true fun heq ↦ h (heq ▸ hd)
  rw [splitOnce, List.dropWhile_append_of_pos hne, List.takeWhile_append_of_pos hne]
  simp

theorem infix_of_splitOnce {name value : List Char} (h : splitOnce c text = some (name, value)) :
    value <:+: text := by
  rw [splitOnce] at h
  split at h
  · cases h
  · next head rest hdrop =>
    obtain ⟨-, rfl⟩ := Prod.mk.inj (Option.some.inj h)
    have hsuffix : head :: rest <:+ text := hdrop ▸ List.dropWhile_suffix _
    exact ((List.suffix_cons head rest).trans hsuffix).isInfix

/-- The text without the white space around it. -/
def trim (text : List Char) : List Char := (text.dropWhile isWhitespace).rdropWhile isWhitespace

theorem isInfix_trim (text : List Char) : trim text <:+: text := by
  refine List.IsInfix.trans ?_ (List.dropWhile_suffix isWhitespace).isInfix
  have hinit : trim text <+: text.dropWhile isWhitespace := List.rdropWhile_prefix _ _
  exact hinit.isInfix

/-- Trimmed text does not end in white space. -/
theorem isWhitespace_getLast_trim (h : (trim text).getLast? = some c) : isWhitespace c = false := by
  obtain ⟨hne, rfl⟩ := List.mem_getLast?_eq_getLast h
  exact Bool.eq_false_iff.mpr (List.rdropWhile_last_not _ _ hne)

/-- One space in front of a value is dropped, and nothing else. -/
theorem trim_space_cons (hfirst : ∀ c ∈ text.head?, isWhitespace c = false)
    (hlast : ∀ c ∈ text.getLast?, isWhitespace c = false) : trim (' ' :: text) = text := by
  have hdrop : text.dropWhile isWhitespace = text := by
    cases text with
    | nil => rfl
    | cons c text => exact List.dropWhile_cons_of_neg (Bool.eq_false_iff.mp (hfirst c rfl))
  rw [trim, List.dropWhile_cons_of_pos (by decide), hdrop, List.rdropWhile_eq_self_iff]
  exact fun hne ↦ Bool.eq_false_iff.mp (hlast _ (List.getLast?_eq_some_getLast hne))

/-! ## Bytes -/

section Bytes

variable {x y : Char}

theorem toNat_toUInt8 (h : c.toNat < 128) : c.toUInt8.toNat = c.toNat := by
  rw [Char.toUInt8, UInt32.toNat_toUInt8]
  exact Nat.mod_eq_of_lt (h.trans (by norm_num))

theorem toUInt8_inj (hx : x.toNat < 128) (hy : y.toNat < 128) :
    x.toUInt8 = y.toUInt8 ↔ x = y := by
  rw [← UInt8.toNat_inj, toNat_toUInt8 hx, toNat_toUInt8 hy, Char.toNat_inj]

theorem utf8EncodeChar_of_lt (h : c.toNat < 128) : String.utf8EncodeChar c = [c.toUInt8] := by
  have hle : c.val.toNat ≤ 127 := Nat.le_of_lt_succ h
  rw [String.utf8EncodeChar, if_pos hle]
  rfl

theorem le_of_mem_utf8EncodeChar (h : 128 ≤ c.toNat) :
    ∀ byte ∈ String.utf8EncodeChar c, 128 ≤ byte.toNat := by
  have hle : ¬c.val.toNat ≤ 127 := Nat.not_le.mpr h
  rw [String.utf8EncodeChar, if_neg hle]
  split_ifs
  all_goals
    simp only [List.forall_mem_cons, UInt8.toNat_ofNat']
    simp
    try omega

/-- The bytes begin with an ASCII character where the text does. -/
theorem head?_of_head?_utf8 (hy : y.toNat < 128)
    (h : (text.flatMap String.utf8EncodeChar).head? = some y.toUInt8) : text.head? = some y := by
  cases text with
  | nil => cases h
  | cons c text =>
    rw [List.flatMap_cons] at h
    rcases lt_or_ge c.toNat 128 with hc | hc
    · rw [utf8EncodeChar_of_lt hc] at h
      rw [(toUInt8_inj hc hy).mp (Option.some.inj h)]
      rfl
    · rw [List.head?_append, Option.or_of_isSome (by simp)] at h
      have hle := le_of_mem_utf8EncodeChar hc _ (List.mem_of_mem_head? h)
      rw [toNat_toUInt8 hy] at hle
      omega

/-- A separator of two ASCII characters that is not in a text is not in its bytes. -/
theorem PairFree.utf8 (hx : x.toNat < 128) (hy : y.toNat < 128) (h : PairFree x y text) :
    PairFree x.toUInt8 y.toUInt8 (text.flatMap String.utf8EncodeChar) := by
  induction text with
  | nil => exact pairFree_nil
  | cons c text ih =>
    rw [pairFree_cons_iff] at h
    rw [List.flatMap_cons]
    rcases lt_or_ge c.toNat 128 with hc | hc
    · rw [utf8EncodeChar_of_lt hc, List.singleton_append, pairFree_cons_iff, toUInt8_inj hc hx]
      exact ⟨fun heq ↦ h.1 ⟨heq.1, head?_of_head?_utf8 hy heq.2⟩, ih h.2⟩
    · -- no byte of the character is one of the separator
      refine (ih h.2).append fun hmem ↦ ?_
      have hle := le_of_mem_utf8EncodeChar hc _ hmem
      rw [toNat_toUInt8 hx] at hle
      omega

theorem utf8_block (hx : x.toNat < 128) (hy : y.toNat < 128) (lines : List (List Char)) :
    (block x y lines).flatMap String.utf8EncodeChar =
      block x.toUInt8 y.toUInt8 (lines.map (·.flatMap String.utf8EncodeChar)) := by
  induction lines with
  | nil =>
    rw [block, List.flatMap_cons, List.flatMap_cons, utf8EncodeChar_of_lt hx,
      utf8EncodeChar_of_lt hy]
    rfl
  | cons line lines ih =>
    rw [block, List.flatMap_append, List.flatMap_cons, List.flatMap_cons, ih,
      utf8EncodeChar_of_lt hx, utf8EncodeChar_of_lt hy]
    rfl

theorem Lines.utf8 {lines : List (List Char)} (hx : x.toNat < 128) (hy : y.toNat < 128)
    (h : Lines x y lines) :
    Lines x.toUInt8 y.toUInt8 (lines.map (·.flatMap String.utf8EncodeChar)) := by
  rintro _ hmem
  obtain ⟨line, hline, rfl⟩ := List.mem_map.mp hmem
  obtain ⟨hne, hfree⟩ := h line hline
  refine ⟨?_, hfree.utf8 hx hy⟩
  rw [Ne, List.flatMap_eq_nil_iff]
  obtain ⟨c, hc⟩ := List.exists_mem_of_ne_nil line hne
  exact fun hnil ↦ String.utf8EncodeChar_ne_nil (hnil c hc)

theorem utf8_of_ascii (h : ∀ c ∈ text, c.toNat < 128) :
    text.flatMap String.utf8EncodeChar = text.map Char.toUInt8 := by
  induction text with
  | nil => rfl
  | cons c text ih =>
    rw [List.forall_mem_cons] at h
    rw [List.flatMap_cons, utf8EncodeChar_of_lt h.1, ih h.2]
    rfl

end Bytes

/-! ## Numbers -/

theorem lt_of_mem_toDigits {n : ℕ} (h : c ∈ Nat.toDigits 10 n) :
    48 ≤ c.toNat ∧ c.toNat ≤ 57 := by
  have hdigit := Nat.isDigit_of_mem_toDigits (by norm_num) le_rfl h
  simpa [Char.isDigit, UInt32.le_iff_toNat_le] using hdigit

theorem decimal_of_le {n : ℕ} (h : 10 ≤ n) : decimal n = decimal (n / 10) ++ [digit (n % 10)] := by
  rw [decimal, decimal, if_neg (by omega), if_neg (by omega),
    Nat.digits_def' (by norm_num) (by omega), List.map_cons, List.reverse_cons]

/-- The text of a number is its numeral. -/
theorem utf8_toString (n : ℕ) : utf8 (toString n) = decimal n := by
  have hdigit : ∀ d < 10, (Nat.digitChar d).toUInt8 = digit d := by decide
  rw [Nat.toString_eq_ofList_toDigits, utf8_ofList,
    utf8_of_ascii fun c hc ↦ (lt_of_mem_toDigits hc).2.trans_lt (by norm_num)]
  induction n using Nat.strong_induction_on with
  | _ n ih =>
    rcases lt_or_ge n 10 with hlt | hge
    · rw [Nat.toDigits_of_lt_base hlt, List.map_singleton, hdigit n hlt, decimal]
      split_ifs with hzero
      · rw [hzero]
      · rw [Nat.digits_of_lt 10 n hzero hlt]
        rfl
    · rw [Nat.toDigits_of_base_le (by norm_num) hge, List.map_append, ih (n / 10) (by omega),
        List.map_singleton, hdigit _ (Nat.mod_lt _ (by norm_num)), decimal_of_le hge]

end Codec
