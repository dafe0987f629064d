import TripTorrent.Codec.Framing

/-!
# Framing of TCP records

Every record on a TCP connection is a 32-bit length and that many bytes. The relay, the client
transport and the bootstrap service each have their own `write_frame` and `read_frame`, which differ
in the limit and in the text of one error; `Framing` is what they have in common.

`read_frame` reports the end of the stream as `Ok(None)`, and takes for the end whatever makes
`read_exact` fail with `UnexpectedEof` on the four bytes of the length. That is the case at a frame
boundary, and also when one, two or three bytes are left. So the stream is the concatenation of the
frames read only up to such a rest (`Framing.readAll_eq_ok_iff`), and framing is exact on the
streams that do not end inside a length.
-/

namespace TripTorrent

open Codec (beBytes ofBeBytes frame)

/-! ## Readers and writers -/

/-- The kinds of `io::Error` the code makes or looks at. -/
inductive ErrorKind where
  | invalidData
  | unexpectedEof
  | other
deriving DecidableEq

structure IoError where
  kind : ErrorKind
  message : String
deriving DecidableEq

/-- `Read::read_exact` on a finite stream: the bytes and what is left of the stream. -/
def readExact (n : ℕ) (reader : List UInt8) : Except IoError (List UInt8 × List UInt8) :=
  match Codec.readExact n reader with
  | some result => .ok result
  | none => .error ⟨.unexpectedEof, "failed to fill whole buffer"⟩

/-- One copy of the framing code. Its limit fits the length word. -/
structure Framing where
  limit : ℕ
  tooLarge : String
  limit_lt : limit < 2 ^ 32

namespace Framing

/-- `write_frame`, to a writer that has taken the bytes so far. -/
def writeFrame (f : Framing) (writer payload : List UInt8) : Except IoError (List UInt8) :=
  if f.limit < payload.length then .error ⟨.invalidData, f.tooLarge⟩
  else if 2 ^ 32 ≤ payload.length then .error ⟨.invalidData, "frame length overflow"⟩
  else .ok (writer ++ beBytes 4 payload.length ++ payload)

/-- `read_frame`: nothing, or the payload and what is left of the stream. -/
def readFrame (f : Framing) (reader : List UInt8) :
    Except IoError (Option (List UInt8 × List UInt8)) :=
  match readExact 4 reader with
  | .error error => if error.kind = .unexpectedEof then .ok none else .error error
  | .ok (length, reader) =>
    if f.limit < ofBeBytes length then .error ⟨.invalidData, f.tooLarge⟩
    else (readExact (ofBeBytes length) reader).map some

variable {f : Framing} {s t w payload rest : List UInt8}

theorem writeFrame_eq_ok_iff :
    f.writeFrame w payload = .ok t ↔ payload.length ≤ f.limit ∧ t = w ++ frame 4 payload := by
  have hlimit := f.limit_lt
  rw [writeFrame, frame, ← List.append_assoc]
  constructor
  · intro h
    split_ifs at h with hlarge
    exact ⟨not_lt.mp hlarge, (Except.ok.inj h).symm⟩
  · rintro ⟨hle, rfl⟩
    rw [if_neg (by omega), if_neg (by omega)]

theorem readFrame_eq_some_iff :
    f.readFrame s = .ok (some (payload, rest)) ↔
      payload.length ≤ f.limit ∧ s = frame 4 payload ++ rest := by
  have hlimit := f.limit_lt
  have hread : f.readFrame s = .ok (some (payload, rest)) ↔
      ∃ word tail, (Codec.readExact 4 s = some (word, tail) ∧
        Codec.readExact (ofBeBytes word) tail = some (payload, rest)) ∧
          ofBeBytes word ≤ f.limit := by
    rw [readFrame, readExact]
    rcases Codec.readExact 4 s with _ | ⟨word, tail⟩
    · simp
    · by_cases hword : f.limit < ofBeBytes word
      · simp [hword]
      · dsimp only
        rw [if_neg hword, readExact]
        rcases hpayload : Codec.readExact (ofBeBytes word) tail with _ | result
        · simp [Except.map, hpayload]
        · simp [Except.map, hpayload, not_lt.mp hword]
  rw [hread]
  constructor
  · rintro ⟨word, tail, hframe, hword⟩
    have hlen := (Codec.readExact_eq_some_iff.mp hframe.2).1
    exact ⟨hlen ▸ hword, (Codec.readExact_frame_iff.mp ⟨word, tail, hframe⟩).2⟩
  · rintro ⟨hle, hs⟩
    obtain ⟨word, tail, hframe⟩ :=
      Codec.readExact_frame_iff.mpr ⟨(by omega : payload.length < 256 ^ 4), hs⟩
    have hlen := (Codec.readExact_eq_some_iff.mp hframe.2).1
    exact ⟨word, tail, hframe, hlen ▸ hle⟩

/-- The end of the stream is reported whenever less than a length is left. -/
theorem readFrame_eq_none_iff : f.readFrame s = .ok none ↔ s.length < 4 := by
  rw [← Codec.readExact_eq_none_iff, readFrame, readExact]
  rcases Codec.readExact 4 s with _ | ⟨word, tail⟩
  · simp
  · by_cases hword : f.limit < ofBeBytes word
    · simp [hword]
    · dsimp only
      rw [if_neg hword, readExact]
      rcases Codec.readExact (ofBeBytes word) tail with _ | result
      · simp [Except.map]
      · simp [Except.map]

theorem length_rest_lt (h : f.readFrame s = .ok (some (payload, rest))) :
    rest.length < s.length := by
  obtain ⟨hle, rfl⟩ := readFrame_eq_some_iff.mp h
  have hlimit := f.limit_lt
  have hframe : 4 ≤ (frame 4 payload).length := Codec.le_length_frame (by omega)
  rw [List.length_append]
  omega

/-! ## Whole streams -/

/-- `write_frame` for each payload in turn. -/
def writeAll (f : Framing) (payloads : List (List UInt8)) : Except IoError (List UInt8) :=
  payloads.foldlM f.writeFrame []

/-- `read_frame` again and again, up to the end of the stream or the first error. -/
def readAll (f : Framing) (reader : List UInt8) : List (List UInt8) × Except IoError Unit :=
  match h : f.readFrame reader with
  | .error error => ([], .error error)
  | .ok none => ([], .ok ())
  | .ok (some (payload, rest)) =>
    have := length_rest_lt h
    ((f.readAll rest).map (payload :: ·) id)
termination_by reader.length

theorem readAll_of_some (h : f.readFrame s = .ok (some (payload, rest))) :
    f.readAll s = (payload :: (f.readAll rest).1, (f.readAll rest).2) := by
  rw [readAll]
  split
  · simp_all
  · simp_all
  · rename_i hread
    obtain ⟨rfl, rfl⟩ : _ = payload ∧ _ = rest := by simpa [hread] using h
    rfl

theorem readAll_of_none (h : f.readFrame s = .ok none) : f.readAll s = ([], .ok ()) := by
  rw [readAll]
  split
  · simp_all
  · rfl
  · simp_all

theorem readAll_of_error {e : IoError} (h : f.readFrame s = .error e) :
    f.readAll s = ([], .error e) := by
  rw [readAll]
  split
  · simp_all
  · simp_all
  · simp_all

theorem foldlM_writeFrame_eq_ok_iff {fs : List (List UInt8)} :
    fs.foldlM f.writeFrame w = .ok t ↔
      (∀ payload ∈ fs, payload.length ≤ f.limit) ∧ t = w ++ fs.flatMap (frame 4) := by
  induction fs generalizing w with
  | nil =>
    rw [List.foldlM_nil]
    simp [pure, Except.pure, eq_comm]
  | cons payload fs ih =>
    rw [List.foldlM_cons, List.forall_mem_cons, List.flatMap_cons]
    rcases hwrite : f.writeFrame w payload with e | u
    · have hlarge : ¬payload.length ≤ f.limit := by
        intro hle
        rw [writeFrame_eq_ok_iff.mpr ⟨hle, rfl⟩] at hwrite
        cases hwrite
      simp [bind, Except.bind, hlarge]
    · obtain ⟨hle, rfl⟩ := writeFrame_eq_ok_iff.mp hwrite
      change fs.foldlM f.writeFrame (w ++ frame 4 payload) = .ok t ↔ _
      rw [ih, List.append_assoc]
      simp [hle]

theorem writeAll_eq_ok_iff {fs : List (List UInt8)} :
    f.writeAll fs = .ok s ↔
      (∀ payload ∈ fs, payload.length ≤ f.limit) ∧ s = fs.flatMap (frame 4) := by
  rw [writeAll, foldlM_writeFrame_eq_ok_iff, List.nil_append]

/-- The frames read without an error make up the stream, except for less than a length. -/
theorem readAll_eq_ok_iff {fs : List (List UInt8)} :
    f.readAll s = (fs, .ok ()) ↔
      (∀ payload ∈ fs, payload.length ≤ f.limit) ∧
        ∃ tail, tail.length < 4 ∧ s = fs.flatMap (frame 4) ++ tail := by
  induction fs generalizing s with
  | nil =>
    have hnone : f.readAll s = ([], .ok ()) ↔ f.readFrame s = .ok none := by
      rcases hread : f.readFrame s with e | _ | ⟨payload, rest⟩
      · simp [readAll_of_error hread]
      · simp [readAll_of_none hread]
      · simp [readAll_of_some hread]
    rw [hnone, readFrame_eq_none_iff]
    simp
  | cons payload fs ih =>
    rw [List.forall_mem_cons, List.flatMap_cons]
    constructor
    · intro h
      rcases hread : f.readFrame s with e | _ | ⟨payload', rest⟩
      · simp [readAll_of_error hread] at h
      · simp [readAll_of_none hread] at h
      · rw [readAll_of_some hread, Prod.mk.injEq, List.cons.injEq] at h
        obtain ⟨⟨rfl, hfs⟩, hend⟩ := h
        obtain ⟨hle, rfl⟩ := readFrame_eq_some_iff.mp hread
        obtain ⟨hall, tail, htail, hrest⟩ := ih.mp (Prod.ext hfs hend)
        exact ⟨⟨hle, hall⟩, tail, htail, by rw [hrest, List.append_assoc]⟩
    · rintro ⟨⟨hle, hall⟩, tail, htail, rfl⟩
      have hread : f.readFrame (frame 4 payload ++ fs.flatMap (frame 4) ++ tail) =
          .ok (some (payload, fs.flatMap (frame 4) ++ tail)) :=
        readFrame_eq_some_iff.mpr ⟨hle, List.append_assoc ..⟩
      rw [readAll_of_some hread, ih.mpr ⟨hall, tail, htail, rfl⟩]

/-- A stream begins with one frame only. -/
theorem frame_append_inj {p q u v : List UInt8} (hp : p.length ≤ f.limit) (hq : q.length ≤ f.limit)
    (h : frame 4 p ++ u = frame 4 q ++ v) : p = q ∧ u = v := by
  have hread : f.readFrame (frame 4 p ++ u) = .ok (some (p, u)) :=
    readFrame_eq_some_iff.mpr ⟨hp, rfl⟩
  rw [readFrame_eq_some_iff.mpr ⟨hq, h⟩] at hread
  obtain ⟨rfl, rfl⟩ := Prod.mk.inj (Option.some.inj (Except.ok.inj hread))
  exact ⟨rfl, rfl⟩

/-- A stream that breaks off is read as the first of the frames. -/
theorem readAll_isPrefix {fs : List (List UInt8)} (hall : ∀ payload ∈ fs, payload.length ≤ f.limit)
    (h : s <+: fs.flatMap (frame 4)) : (f.readAll s).1 <+: fs := by
  induction fs generalizing s with
  | nil =>
    obtain rfl := List.prefix_nil.mp h
    rw [readAll_of_none (readFrame_eq_none_iff.mpr (by decide))]
  | cons payload fs ih =>
    rcases hread : f.readFrame s with e | _ | ⟨first, rest⟩
    · rw [readAll_of_error hread]
      exact List.nil_prefix
    · rw [readAll_of_none hread]
      exact List.nil_prefix
    · obtain ⟨hle, rfl⟩ := readFrame_eq_some_iff.mp hread
      obtain ⟨tail, htail⟩ := h
      rw [List.append_assoc, List.flatMap_cons] at htail
      obtain ⟨rfl, hrest⟩ := frame_append_inj hle (hall payload List.mem_cons_self) htail
      rw [readAll_of_some hread]
      refine List.cons_prefix_cons.mpr ⟨rfl, ih (fun p hp ↦ hall p (List.mem_cons_of_mem _ hp)) ?_⟩
      exact ⟨tail, hrest⟩

/-! ## Exactness -/

/-- What is read without an error is what was written. -/
def Exact (f : Framing) (s : List UInt8) : Prop :=
  ∀ fs, f.readAll s = (fs, .ok ()) ↔ f.writeAll fs = .ok s

/-- After whole frames within the limit, the stream ends inside a length. -/
def EndsInLength (f : Framing) (s : List UInt8) : Prop :=
  ∃ (fs : List (List UInt8)) (tail : List UInt8), (∀ payload ∈ fs, payload.length ≤ f.limit) ∧
    0 < tail.length ∧ tail.length < 4 ∧ s = fs.flatMap (frame 4) ++ tail

theorem readAll_of_writeAll {fs : List (List UInt8)} (h : f.writeAll fs = .ok s) :
    f.readAll s = (fs, .ok ()) := by
  obtain ⟨hall, rfl⟩ := writeAll_eq_ok_iff.mp h
  exact readAll_eq_ok_iff.mpr ⟨hall, [], by simp, by simp⟩

theorem exact_iff : f.Exact s ↔ ¬f.EndsInLength s := by
  constructor
  · rintro hexact ⟨fs, tail, hall, hpos, hlt, hs⟩
    -- the frames in front of the rest are read, and are not all that was written
    have hread := readAll_eq_ok_iff.mpr ⟨hall, tail, hlt, hs⟩
    obtain ⟨-, hs'⟩ := writeAll_eq_ok_iff.mp ((hexact fs).mp hread)
    have htail : tail = [] := List.self_eq_append_right.mp (hs'.symm.trans hs)
    rw [htail] at hpos
    exact absurd hpos (Nat.lt_irrefl 0)
  · intro hends fs
    refine ⟨fun hread ↦ ?_, readAll_of_writeAll⟩
    obtain ⟨hall, tail, hlt, rfl⟩ := readAll_eq_ok_iff.mp hread
    have htail : tail = [] := by
      by_contra hne
      exact hends ⟨fs, tail, hall, List.length_pos_iff.mpr hne, hlt, rfl⟩
    rw [htail, List.append_nil]
    exact writeAll_eq_ok_iff.mpr ⟨hall, rfl⟩

end Framing

/-! ## The three copies -/

namespace Relay

/-- `MAX_FRAME_LENGTH` -/
def maxFrameLength : ℕ := 1024 * 1024

def framing : Framing := ⟨maxFrameLength, "frame too large", by decide⟩

def writeFrame : List UInt8 → List UInt8 → Except IoError (List UInt8) := framing.writeFrame

def readFrame : List UInt8 → Except IoError (Option (List UInt8 × List UInt8)) := framing.readFrame

/-- The writing half of a connection. -/
structure Destination where
  bytes : List UInt8
  /-- `Shutdown::Write` was called. -/
  shutdown : Bool
deriving DecidableEq

/-- Copies frames until the source ends, and then shuts the destination down. -/
def forward (source : List UInt8) (destination : Destination) :
    Destination × Except IoError Unit :=
  match h : readFrame source with
  | .error error => (destination, .error error)
  | .ok none => ({ destination with shutdown := true }, .ok ())
  | .ok (some (frame, rest)) =>
    have : rest.length < source.length := Framing.length_rest_lt h
    match writeFrame destination.bytes frame with
    | .error error => (destination, .error error)
    | .ok bytes => forward rest { destination with bytes }
termination_by source.length

end Relay

namespace Net

/-- `MAX_FRAME_LENGTH` -/
def maxFrameLength : ℕ := 1024 * 1024

def framing : Framing := ⟨maxFrameLength, "frame too large", by decide⟩

def writeFrame : List UInt8 → List UInt8 → Except IoError (List UInt8) := framing.writeFrame

def readFrame : List UInt8 → Except IoError (Option (List UInt8 × List UInt8)) := framing.readFrame

end Net

namespace Overlay

/-- `MAX_CONTROL_FRAME` -/
def maxControlFrame : ℕ := 256 * 1024

def framing : Framing := ⟨maxControlFrame, "control frame too large", by decide⟩

def writeFrame : List UInt8 → List UInt8 → Except IoError (List UInt8) := framing.writeFrame

def readFrame : List UInt8 → Except IoError (Option (List UInt8 × List UInt8)) := framing.readFrame

end Overlay

/-! ## Forwarding -/

namespace Relay

/-- Forwarding writes out the frames it reads, and ends as reading them ends. -/
theorem forward_eq (s : List UInt8) (d : Destination) :
    forward s d =
      ({ bytes := d.bytes ++ (framing.readAll s).1.flatMap (frame 4)
         shutdown := d.shutdown || (framing.readAll s).2.isOk }, (framing.readAll s).2) := by
  fun_induction forward s d with
  | case1 source destination error h =>
    rw [Framing.readAll_of_error h]
    simp [Except.isOk, Except.toBool]
  | case2 source destination h =>
    rw [Framing.readAll_of_none h]
    simp [Except.isOk, Except.toBool]
  | case3 source destination payload rest h _ error hwrite =>
    -- a frame that was read is within the limit
    have hle := (Framing.readFrame_eq_some_iff.mp h).1
    rw [writeFrame, Framing.writeFrame_eq_ok_iff.mpr ⟨hle, rfl⟩] at hwrite
    cases hwrite
  | case4 source destination payload rest h _ bytes hwrite ih =>
    obtain ⟨-, rfl⟩ := Framing.writeFrame_eq_ok_iff.mp hwrite
    rw [ih, Framing.readAll_of_some h, List.flatMap_cons, List.append_assoc]

/-- Well-formed streams are reproduced, and only they end in a clean shutdown. -/
def ForwardExact (s : List UInt8) : Prop :=
  (∀ fs, framing.writeAll fs = .ok s → ∀ d, forward s d = (⟨d.bytes ++ s, true⟩, .ok ())) ∧
    ∀ d d', forward s d = (d', .ok ()) → ∃ fs, framing.writeAll fs = .ok s

theorem forwardExact_of_exact {s : List UInt8} (h : framing.Exact s) : ForwardExact s := by
  constructor
  · intro fs hfs d
    rw [forward_eq, Framing.readAll_of_writeAll hfs, (Framing.writeAll_eq_ok_iff.mp hfs).2]
    simp [Except.isOk, Except.toBool]
  · intro d d' hforward
    rw [forward_eq, Prod.mk.injEq] at hforward
    exact ⟨_, (h _).mp (Prod.ext rfl hforward.2)⟩

end Relay

/-- **Framing is exact on the streams that do not end inside a length.** Each copy of the code
yields exactly the frames that were written, with no error, from exactly the streams that were
written, and the relay reproduces those and shuts down cleanly after no others; all of this
precisely when the stream does not end with one, two or three bytes after its last whole frame. -/
theorem framing_exact_iff (s : List UInt8) :
    (Relay.framing.Exact s ∧ Relay.ForwardExact s ↔ ¬Relay.framing.EndsInLength s) ∧
      (Net.framing.Exact s ↔ ¬Net.framing.EndsInLength s) ∧
        (Overlay.framing.Exact s ↔ ¬Overlay.framing.EndsInLength s) := by
  refine ⟨?_, Framing.exact_iff, Framing.exact_iff⟩
  rw [← Framing.exact_iff]
  exact ⟨fun h ↦ h.1, fun h ↦ ⟨h, Relay.forwardExact_of_exact h⟩⟩

/-- One byte of a length is taken for a clean end by all three copies, and the relay shuts its
destination down after it. -/
theorem truncated_length_taken_for_end :
    (Relay.framing.readAll [0] = ([], .ok ()) ∧ ∀ fs, Relay.framing.writeAll fs ≠ .ok [0]) ∧
      (Net.framing.readAll [0] = ([], .ok ()) ∧ ∀ fs, Net.framing.writeAll fs ≠ .ok [0]) ∧
      (Overlay.framing.readAll [0] = ([], .ok ()) ∧ ∀ fs, Overlay.framing.writeAll fs ≠ .ok [0]) ∧
      Relay.forward [0] ⟨[], false⟩ = (⟨[], true⟩, .ok ()) := by
  have hread (f : Framing) : f.readAll [0] = ([], .ok ()) :=
    Framing.readAll_of_none (Framing.readFrame_eq_none_iff.mpr (by decide))
  have hwrite (f : Framing) (fs : List (List UInt8)) : f.writeAll fs ≠ .ok [0] := by
    intro h
    have hfs := Framing.readAll_of_writeAll h
    rw [hread] at hfs
    obtain rfl : [] = fs := (Prod.mk.inj hfs).1
    cases (Framing.writeAll_eq_ok_iff.mp h).2
  refine ⟨⟨hread _, hwrite _⟩, ⟨hread _, hwrite _⟩, ⟨hread _, hwrite _⟩, ?_⟩
  rw [Relay.forward_eq, hread]
  rfl

end TripTorrent
