import TripTorrent.Codec.BigEndian

/-!
# Base 32

Five bits are written as one of thirty-two symbols, the letters and the digits from two on. Where
the bits of a byte string fill the last symbol, the text is the number that the bytes spell, written
in base 32; nothing is padded.

A reader takes one symbol at a time and puts out a byte whenever it has eight bits. Between two
symbols the bytes put out and the bits kept together are what has been read (`Repacked`).
-/

namespace Codec

/-- The symbol for five bits. -/
def base32Symbol (n : ℕ) : Char := if n < 26 then .ofNat (65 + n) else .ofNat (24 + n)

/-- The bits of the bytes in groups of five, from the front. -/
def base32Digits (bytes : List UInt8) : List ℕ :=
  (Nat.digitsAppend 32 (8 * bytes.length / 5) (ofBeBytes bytes)).reverse

def base32 (bytes : List UInt8) : List Char := (base32Digits bytes).map base32Symbol

/-- What has been read of a text: the bytes put out, and in `pending` the `bits` that are left. -/
structure Repacked (digits : List ℕ) (bytes : List UInt8) (pending bits : ℕ) : Prop where
  value : Nat.ofDigits 32 digits.reverse = ofBeBytes bytes * 2 ^ bits + pending
  pending_lt : pending < 2 ^ bits
  bits_lt : bits < 8
  length_eq : 5 * digits.length = 8 * bytes.length + bits

variable {digits : List ℕ} {bytes bytes' : List UInt8} {pending bits digit : ℕ}

theorem ofBeBytes_concat (bytes : List UInt8) (byte : UInt8) :
    ofBeBytes (bytes ++ [byte]) = ofBeBytes bytes * 256 + byte.toNat := by
  rw [ofBeBytes, List.map_append, List.reverse_append, List.map_singleton, List.reverse_singleton,
    List.singleton_append, Nat.ofDigits_cons, ofBeBytes]
  simp [add_comm, mul_comm]

theorem ofDigits_concat (digits : List ℕ) (digit : ℕ) :
    Nat.ofDigits 32 (digits ++ [digit]).reverse =
      Nat.ofDigits 32 digits.reverse * 32 + digit := by
  rw [List.reverse_append, List.reverse_singleton, List.singleton_append, Nat.ofDigits_cons]
  simp [add_comm, mul_comm]

namespace Repacked

theorem nil : Repacked [] [] 0 0 where
  value := rfl
  pending_lt := by decide
  bits_lt := by decide
  length_eq := rfl

theorem shifted_lt (h : Repacked digits bytes pending bits) (hdigit : digit < 32) :
    pending * 32 + digit < 2 ^ (bits + 5) := by
  have hlt := h.pending_lt
  rw [pow_add]
  omega

/-- A symbol after which there are not enough bits yet. -/
theorem keep (h : Repacked digits bytes pending bits) (hdigit : digit < 32) (hbits : bits + 5 < 8) :
    Repacked (digits ++ [digit]) bytes (pending * 32 + digit) (bits + 5) where
  value := by
    rw [ofDigits_concat, h.value, pow_add]
    ring
  pending_lt := h.shifted_lt hdigit
  bits_lt := hbits
  length_eq := by
    have hlength := h.length_eq
    rw [List.length_append, List.length_singleton]
    omega

/-- A symbol after which a byte is put out. -/
theorem putOut {left : ℕ} (h : Repacked digits bytes pending bits) (hdigit : digit < 32)
    (hbits : bits + 5 = left + 8) :
    Repacked (digits ++ [digit]) (bytes ++ [.ofNat ((pending * 32 + digit) / 2 ^ left)])
      ((pending * 32 + digit) % 2 ^ left) left where
  value := by
    have hlt := h.shifted_lt hdigit
    rw [hbits, pow_add] at hlt
    have hbyte : (UInt8.ofNat ((pending * 32 + digit) / 2 ^ left)).toNat =
        (pending * 32 + digit) / 2 ^ left :=
      UInt8.toNat_ofNat_of_lt (Nat.div_lt_of_lt_mul hlt)
    rw [ofDigits_concat, h.value, ofBeBytes_concat, hbyte]
    calc (ofBeBytes bytes * 2 ^ bits + pending) * 32 + digit
        = ofBeBytes bytes * 2 ^ (bits + 5) + (pending * 32 + digit) := by ring
      _ = ofBeBytes bytes * 2 ^ (left + 8) + (2 ^ left * ((pending * 32 + digit) / 2 ^ left) +
            (pending * 32 + digit) % 2 ^ left) := by rw [hbits, Nat.div_add_mod]
      _ = _ := by ring
  pending_lt := Nat.mod_lt _ (Nat.two_pow_pos left)
  bits_lt := by
    have hlt := h.bits_lt
    omega
  length_eq := by
    have hlength := h.length_eq
    rw [List.length_append, List.length_singleton, List.length_append, List.length_singleton]
    omega

/-- A text read without bits left over is that of the bytes. -/
theorem digits_eq (h : Repacked digits bytes pending 0) (hdigits : ∀ digit ∈ digits, digit < 32) :
    digits = base32Digits bytes := by
  have hvalue := h.value
  have hlength := h.length_eq
  have hpending := h.pending_lt
  rw [pow_zero, mul_one, Nat.lt_one_iff.mp hpending, add_zero] at hvalue
  have hcount : 8 * bytes.length / 5 = digits.reverse.length := by
    rw [List.length_reverse]
    omega
  rw [base32Digits, ← hvalue, hcount, (Nat.setInvOn_digitsAppend_ofDigits (by norm_num) _).1,
    List.reverse_reverse]
  exact ⟨rfl, fun digit hdigit ↦ hdigits digit (List.mem_reverse.mp hdigit)⟩

end Repacked

theorem lt_of_mem_base32Digits (h : digit ∈ base32Digits bytes) : digit < 32 :=
  Nat.lt_of_mem_digitsAppend (by norm_num) _ digit (List.mem_reverse.mp h)

/-- The bytes fill the last symbol. -/
theorem ofBeBytes_lt_pow (h : 5 ∣ bytes.length) :
    ofBeBytes bytes < 32 ^ (8 * bytes.length / 5) := by
  obtain ⟨k, hk⟩ := h
  have hlt := ofBeBytes_lt bytes
  have hcount : 8 * bytes.length / 5 = 8 * k := by omega
  rw [hcount, pow_mul]
  rwa [hk, pow_mul] at hlt

theorem length_base32Digits (h : 5 ∣ bytes.length) :
    (base32Digits bytes).length = 8 * bytes.length / 5 := by
  rw [base32Digits, List.length_reverse,
    Nat.length_digitsAppend (by norm_num) _ (ofBeBytes_lt_pow h)]

theorem base32Digits_inj (h : 5 ∣ bytes.length) (hlength : bytes.length = bytes'.length)
    (heq : base32Digits bytes = base32Digits bytes') : bytes = bytes' := by
  have hinv := (Nat.setInvOn_digitsAppend_ofDigits (b := 32) (by norm_num)
    (8 * bytes.length / 5)).2
  have hvalue : ofBeBytes bytes = ofBeBytes bytes' := by
    rw [base32Digits, base32Digits, List.reverse_inj, ← hlength] at heq
    rw [← hinv (ofBeBytes_lt_pow h), heq, hinv]
    rw [hlength]
    exact ofBeBytes_lt_pow (hlength ▸ h)
  rw [← beBytes_ofBeBytes bytes, hvalue, hlength, beBytes_ofBeBytes]

end Codec
