import Mathlib.Data.Nat.Digits.Lemmas

/-!
# Decimal numerals

Numbers are written as ASCII digits without leading zeros, so that every number has one numeral
(`numeral_iff`). Negative numbers have a minus sign in front.

Readers of machine integers are more liberal: they take leading zeros and a plus sign, and fail when
the number does not fit. On numerals they agree with the writers.
-/

namespace Codec

/-! ## Digits -/

def isDigit (byte : UInt8) : Bool := 48 ≤ byte.toNat && byte.toNat ≤ 57

def digit (d : ℕ) : UInt8 := .ofNat (48 + d)

def digitValue (byte : UInt8) : ℕ := byte.toNat - 48

theorem toNat_digit {d : ℕ} (h : d < 10) : (digit d).toNat = 48 + d := by
  refine UInt8.toNat_ofNat_of_lt' ?_
  change 48 + d < 256
  omega

theorem digitValue_digit {d : ℕ} (h : d < 10) : digitValue (digit d) = d := by
  rw [digitValue, toNat_digit h, Nat.add_sub_cancel_left]

theorem isDigit_digit {d : ℕ} (h : d < 10) : isDigit (digit d) = true := by
  simp [isDigit, toNat_digit h]
  omega

theorem digit_digitValue {byte : UInt8} (h : isDigit byte = true) :
    digit (digitValue byte) = byte := by
  simp only [isDigit, Bool.and_eq_true, decide_eq_true_eq] at h
  refine UInt8.toNat_inj.mp ?_
  rw [toNat_digit (by rw [digitValue]; omega), digitValue]
  omega

theorem digitValue_lt {byte : UInt8} (h : isDigit byte = true) : digitValue byte < 10 := by
  simp only [isDigit, Bool.and_eq_true, decide_eq_true_eq] at h
  rw [digitValue]
  omega

/-! ## Numerals -/

/-- The numeral of a number. -/
def decimal (n : ℕ) : List UInt8 :=
  if n = 0 then [digit 0] else ((Nat.digits 10 n).map digit).reverse

/-- The number that a sequence of digits spells. -/
def ofDecimal (digits : List UInt8) : ℕ := Nat.ofDigits 10 (digits.map digitValue).reverse

/-- A nonempty sequence of digits without leading zeros. -/
structure Numeral (digits : List UInt8) : Prop where
  ne_nil : digits ≠ []
  isDigit : ∀ byte ∈ digits, isDigit byte = true
  no_leading_zero : digits.head? = some (digit 0) → digits.length = 1

theorem ofDecimal_decimal (n : ℕ) : ofDecimal (decimal n) = n := by
  rw [decimal]
  split_ifs with hn
  · rw [hn]
    rfl
  · have hdigits : (Nat.digits 10 n).map (digitValue ∘ digit) = Nat.digits 10 n :=
      (List.map_congr_left fun d hd ↦ digitValue_digit (Nat.digits_lt_base (by norm_num) hd)).trans
        (List.map_id _)
    rw [ofDecimal, List.map_reverse, List.reverse_reverse, List.map_map, hdigits,
      Nat.ofDigits_digits]

theorem decimal_injective : Function.Injective decimal :=
  Function.LeftInverse.injective ofDecimal_decimal

theorem numeral_decimal (n : ℕ) : Numeral (decimal n) := by
  rw [decimal]
  split_ifs with hn
  · exact ⟨List.cons_ne_nil _ _, List.forall_mem_singleton.mpr (by decide), fun _ ↦ rfl⟩
  · refine ⟨?_, ?_, ?_⟩
    · simpa [Nat.digits_eq_nil_iff_eq_zero] using hn
    · intro byte hbyte
      obtain ⟨d, hd, rfl⟩ := List.mem_map.mp (List.mem_reverse.mp hbyte)
      exact isDigit_digit (Nat.digits_lt_base (by norm_num) hd)
    · -- the leading digit of a positive number is not zero
      intro hzero
      rw [List.head?_reverse, List.getLast?_map, Option.map_eq_some_iff] at hzero
      obtain ⟨d, hd, hdigit⟩ := hzero
      obtain ⟨hne, hlast⟩ := List.mem_getLast?_eq_getLast hd
      have hlt : d < 10 := Nat.digits_lt_base (by norm_num) (List.mem_of_getLast? hd)
      have hvalue : d = 0 := by
        rw [← digitValue_digit hlt, hdigit]
        rfl
      exact absurd (hlast.symm.trans hvalue) (Nat.getLast_digit_ne_zero 10 hn)

theorem decimal_ofDecimal {digits : List UInt8} (h : Numeral digits) :
    decimal (ofDecimal digits) = digits := by
  obtain ⟨hne, hdigit, hzero⟩ := h
  obtain ⟨first, rest, rfl⟩ := List.exists_cons_of_ne_nil hne
  by_cases hfirst : first = digit 0
  · rw [hfirst] at hzero ⊢
    rw [List.length_eq_zero_iff.mp (Nat.succ.inj (hzero rfl))]
    rfl
  · have hdigits : Nat.digits 10 (ofDecimal (first :: rest)) =
        ((first :: rest).map digitValue).reverse := by
      refine Nat.digits_ofDigits 10 (by norm_num) _ ?_ ?_
      · intro d hd
        obtain ⟨byte, hbyte, rfl⟩ := List.mem_map.mp (List.mem_reverse.mp hd)
        exact digitValue_lt (hdigit byte hbyte)
      · intro _ hlast
        rw [List.getLast_reverse] at hlast
        refine hfirst ?_
        rw [← digit_digitValue (hdigit first List.mem_cons_self)]
        exact congrArg digit hlast
    rw [decimal, if_neg, hdigits, List.map_reverse, List.reverse_reverse, List.map_map]
    · exact (List.map_congr_left fun byte hbyte ↦ digit_digitValue (hdigit byte hbyte)).trans
        (List.map_id _)
    · intro hnumber
      rw [hnumber, Nat.digits_zero] at hdigits
      simp at hdigits

theorem numeral_iff {digits : List UInt8} : Numeral digits ↔ ∃ n, digits = decimal n :=
  ⟨fun h ↦ ⟨_, (decimal_ofDecimal h).symm⟩, fun ⟨n, hn⟩ ↦ hn ▸ numeral_decimal n⟩

theorem not_mem_decimal {byte : UInt8} (h : isDigit byte = false) (n : ℕ) : byte ∉ decimal n := by
  intro hmem
  rw [(numeral_decimal n).isDigit byte hmem] at h
  cases h

theorem exists_decimal_eq_cons (n : ℕ) :
    ∃ first rest, decimal n = first :: rest ∧ isDigit first = true := by
  obtain ⟨first, rest, hdecimal⟩ := List.exists_cons_of_ne_nil (numeral_decimal n).ne_nil
  refine ⟨first, rest, hdecimal, (numeral_decimal n).isDigit first ?_⟩
  rw [hdecimal]
  exact List.mem_cons_self

/-- Only the numeral of zero begins with a zero. -/
theorem head?_decimal_eq_iff {n : ℕ} : (decimal n).head? = some (digit 0) ↔ n = 0 := by
  constructor
  · intro hzero
    obtain ⟨first, rest, hdecimal, -⟩ := exists_decimal_eq_cons n
    have hlength := (numeral_decimal n).no_leading_zero hzero
    rw [hdecimal] at hzero hlength
    refine decimal_injective ?_
    rw [hdecimal, List.length_eq_zero_iff.mp (Nat.succ.inj hlength), Option.some.inj hzero]
    rfl
  · rintro rfl
    rfl

/-- The numeral of an integer. -/
def signed (z : ℤ) : List UInt8 :=
  if z < 0 then '-'.toUInt8 :: decimal z.natAbs else decimal z.natAbs

theorem signed_natCast (n : ℕ) : signed n = decimal n := by
  rw [signed, if_neg (by omega), Int.natAbs_natCast]

theorem signed_neg_natCast {n : ℕ} (h : n ≠ 0) : signed (-n) = '-'.toUInt8 :: decimal n := by
  rw [signed, if_pos (by omega), Int.natAbs_neg, Int.natAbs_natCast]

theorem not_mem_signed {byte : UInt8} (h : isDigit byte = false ∧ byte ≠ '-'.toUInt8) (z : ℤ) :
    byte ∉ signed z := by
  rw [signed]
  split_ifs
  · rw [List.mem_cons, not_or]
    exact ⟨h.2, not_mem_decimal h.1 _⟩
  · exact not_mem_decimal h.1 _

theorem exists_eq_signed_iff {text : List UInt8} :
    (∃ z, text = signed z) ↔ Numeral text ∨
      ∃ digits, text = '-'.toUInt8 :: digits ∧ Numeral digits ∧
        digits.head? ≠ some (digit 0) := by
  constructor
  · rintro ⟨z, rfl⟩
    rcases lt_or_ge z 0 with hneg | hnonneg
    · rw [signed, if_pos hneg]
      refine .inr ⟨_, rfl, numeral_decimal _, ?_⟩
      rw [Ne, head?_decimal_eq_iff]
      omega
    · rw [signed, if_neg hnonneg.not_gt]
      exact .inl (numeral_decimal _)
  · rintro (h | ⟨digits, rfl, h, hzero⟩)
    · obtain ⟨n, rfl⟩ := numeral_iff.mp h
      exact ⟨n, (signed_natCast n).symm⟩
    · obtain ⟨n, rfl⟩ := numeral_iff.mp h
      rw [Ne, head?_decimal_eq_iff] at hzero
      exact ⟨-n, (signed_neg_natCast hzero).symm⟩

/-! ## Machine integers -/

/-- Read a number below `limit`. -/
def parseDigits (limit : ℕ) (digits : List UInt8) : Option ℕ :=
  if digits ≠ [] ∧ digits.all isDigit ∧ ofDecimal digits < limit then some (ofDecimal digits)
  else none

def stripPlus : List UInt8 → List UInt8
  | [] => []
  | byte :: rest => if byte = '+'.toUInt8 then rest else byte :: rest

/-- Read an unsigned integer below `limit`, possibly with a plus sign. -/
def parseUnsigned (limit : ℕ) (text : List UInt8) : Option ℕ := parseDigits limit (stripPlus text)

/-- Read an integer from `-limit` up to but not including `limit`, possibly with a sign. -/
def parseSigned (limit : ℕ) : List UInt8 → Option ℤ
  | [] => none
  | byte :: rest =>
    if byte = '-'.toUInt8 then (parseDigits (limit + 1) rest).map fun n ↦ -n
    else (parseUnsigned limit (byte :: rest)).map fun n ↦ n

variable {limit : ℕ}

theorem parseDigits_decimal (n : ℕ) :
    parseDigits limit (decimal n) = if n < limit then some n else none := by
  have hall : (decimal n).all isDigit = true := List.all_eq_true.mpr (numeral_decimal n).isDigit
  rw [parseDigits, ofDecimal_decimal]
  simp only [(numeral_decimal n).ne_nil, hall, ne_eq, not_false_iff, true_and]

theorem stripPlus_decimal (n : ℕ) : stripPlus (decimal n) = decimal n := by
  obtain ⟨first, rest, hdecimal, hfirst⟩ := exists_decimal_eq_cons n
  rw [hdecimal, stripPlus, if_neg]
  rintro rfl
  exact absurd hfirst (by decide)

theorem parseUnsigned_decimal (n : ℕ) :
    parseUnsigned limit (decimal n) = if n < limit then some n else none := by
  rw [parseUnsigned, stripPlus_decimal, parseDigits_decimal]

theorem parseSigned_decimal (n : ℕ) :
    parseSigned limit (decimal n) = if n < limit then some (n : ℤ) else none := by
  obtain ⟨first, rest, hdecimal, hfirst⟩ := exists_decimal_eq_cons n
  have hminus : first ≠ '-'.toUInt8 := by
    rintro rfl
    exact absurd hfirst (by decide)
  rw [hdecimal, parseSigned, if_neg hminus, ← hdecimal, parseUnsigned_decimal]
  split_ifs
  · rfl
  · rfl

theorem parseSigned_signed (z : ℤ) :
    parseSigned limit (signed z) = if -limit ≤ z ∧ z < limit then some z else none := by
  rcases lt_or_ge z 0 with hneg | hnonneg
  · obtain ⟨n, rfl⟩ := Int.exists_eq_neg_ofNat hneg.le
    rw [signed_neg_natCast (by omega), parseSigned, if_pos rfl, parseDigits_decimal]
    by_cases hn : n < limit + 1
    · rw [if_pos hn, if_pos (by omega)]
      rfl
    · rw [if_neg hn, if_neg (by omega)]
      rfl
  · obtain ⟨n, rfl⟩ := Int.eq_ofNat_of_zero_le hnonneg
    rw [signed_natCast, parseSigned_decimal]
    exact if_congr (by omega) rfl rfl

end Codec
