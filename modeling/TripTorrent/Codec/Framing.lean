import TripTorrent.Codec.BigEndian

/-!
# Length-prefixed frames

A frame is the length of its payload as a fixed-width big-endian word, followed by the payload. A
byte stream is read by taking exactly as many bytes as are asked for, or none when fewer are left.
Reading a word and then as many bytes as it says undoes writing a frame, and accepts nothing else.
-/

namespace Codec

variable {k n : ℕ} {s a rest payload : List UInt8}

/-- Take exactly `n` bytes off a stream, if that many are left. -/
def readExact (n : ℕ) (s : List UInt8) : Option (List UInt8 × List UInt8) :=
  if n ≤ s.length then some (s.take n, s.drop n) else none

theorem readExact_eq_some_iff : readExact n s = some (a, rest) ↔ a.length = n ∧ s = a ++ rest := by
  rw [readExact]
  constructor
  · intro h
    split_ifs at h with hn
    obtain ⟨rfl, rfl⟩ := Prod.mk.inj (Option.some.inj h)
    exact ⟨List.length_take_of_le hn, (List.take_append_drop n s).symm⟩
  · rintro ⟨rfl, rfl⟩
    rw [if_pos (by simp), List.take_left, List.drop_left]

theorem readExact_eq_none_iff : readExact n s = none ↔ s.length < n := by
  rw [readExact]
  split_ifs with hn
  · simpa using hn
  · simpa using hn

/-- The payload behind its length in `k` bytes. -/
def frame (k : ℕ) (payload : List UInt8) : List UInt8 := beBytes k payload.length ++ payload

/-- Reading a length and then a payload of that length takes a whole frame off the stream. -/
theorem readExact_frame_iff :
    (∃ word tail, readExact k s = some (word, tail) ∧
      readExact (ofBeBytes word) tail = some (payload, rest)) ↔
      payload.length < 256 ^ k ∧ s = frame k payload ++ rest := by
  constructor
  · rintro ⟨word, tail, hword, hpayload⟩
    obtain ⟨rfl, rfl⟩ := readExact_eq_some_iff.mp hword
    obtain ⟨hlen, rfl⟩ := readExact_eq_some_iff.mp hpayload
    refine ⟨hlen ▸ ofBeBytes_lt word, ?_⟩
    rw [frame, hlen, beBytes_ofBeBytes, List.append_assoc]
  · rintro ⟨hlen, rfl⟩
    refine ⟨beBytes k payload.length, payload ++ rest, ?_, ?_⟩
    · rw [readExact_eq_some_iff, frame, List.append_assoc]
      exact ⟨length_beBytes hlen, rfl⟩
    · rw [readExact_eq_some_iff, ofBeBytes_beBytes hlen]
      exact ⟨rfl, rfl⟩

/-- A frame is at least as long as its length word. -/
theorem le_length_frame (h : payload.length < 256 ^ k) : k ≤ (frame k payload).length := by
  rw [frame, List.length_append, length_beBytes h]
  exact Nat.le_add_right k _

end Codec
