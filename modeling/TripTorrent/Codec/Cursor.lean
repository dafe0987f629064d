import Mathlib.Tactic.Common
import TripTorrent.Codec.Slices

/-!
# Cursors, appenders and the languages they accept

A record format is usually written twice: once as a function that appends fields to a buffer and
once as a function that takes fields off a cursor. Both are programs in a state monad with
exceptions, and neither mentions the other. This file gives the two a common meaning.

* `Emits w p bs` says that the appender `w` succeeds exactly when `p` holds, and then appends `bs`.
* `Accepts r p w` says that the reader `r` accepts exactly the byte strings `w a` with `p a`, from
  wherever the cursor stands, and leaves the cursor behind them.

Each is an equivalence, so one statement about a reader carries both halves of what a format
promises: what was written is read back, and nothing else is read. The composition rules below are
the only place where the monad is unfolded.

The offset of a cursor is a 64-bit address. `Cursor.take` performs the checked addition a reader on
such a machine performs, so `Accepts` quantifies over cursors whose input is addressable.
-/

namespace Codec

/-! ## Appenders -/

/-- A program that appends to a byte buffer and may fail. -/
abbrev Put (ε α : Type) := StateT (List UInt8) (Except ε) α

variable {ε α β : Type}

namespace Put

/-- Append bytes as they are. -/
def raw (bytes : List UInt8) : Put ε Unit := fun buffer ↦ .ok ((), buffer ++ bytes)

/-- Fail. -/
def fail (e : ε) : Put ε α := fun _ ↦ .error e

end Put

/-- The appender succeeds exactly when `p` holds, and then appends `bytes`. -/
def Emits (w : Put ε Unit) (p : Prop) (bytes : List UInt8) : Prop :=
  ∀ buffer out, w buffer = .ok ((), out) ↔ p ∧ out = buffer ++ bytes

namespace Emits

theorem raw (bytes : List UInt8) : Emits (Put.raw bytes : Put ε Unit) True bytes := by
  intro buffer out
  simp [Put.raw, eq_comm]

theorem pure : Emits (Pure.pure () : Put ε Unit) True [] := by
  intro buffer out
  change Except.ok ((), buffer) = Except.ok ((), out) ↔ _
  simp [eq_comm]

theorem congr {w : Put ε Unit} {p q : Prop} {bs cs : List UInt8} (h : Emits w p bs) (hpq : p ↔ q)
    (hbs : p → bs = cs) : Emits w q cs := by
  intro buffer out
  rw [h buffer out, ← hpq]
  refine and_congr_right fun hp ↦ ?_
  rw [hbs hp]

theorem seq {w v : Put ε Unit} {p q : Prop} {bs cs : List UInt8} (hw : Emits w p bs)
    (hv : Emits v q cs) : Emits (w >>= fun _ ↦ v) (p ∧ q) (bs ++ cs) := by
  intro buffer out
  change Except.bind (w buffer) (fun x ↦ v x.2) = _ ↔ _
  cases hrun : w buffer with
  | error e =>
    have hp : ¬p := fun hp ↦ by
      have := (hw buffer (buffer ++ bs)).mpr ⟨hp, rfl⟩
      rw [hrun] at this
      cases this
    simp [Except.bind, hp]
  | ok x =>
    obtain ⟨⟨⟩, mid⟩ := x
    obtain ⟨hp, rfl⟩ := (hw buffer mid).mp hrun
    rw [Except.bind, hv, List.append_assoc]
    simp [hp]

/-- A guard in front of an appender. -/
theorem guard {w : Put ε Unit} {p : Prop} {bs : List UInt8} {c : Prop} [Decidable c] {e : ε}
    (hw : Emits w p bs) : Emits (if c then w else Put.fail e) (c ∧ p) bs := by
  intro buffer out
  by_cases hc : c
  · rw [if_pos hc, hw]
    simp [hc]
  · rw [if_neg hc]
    simp [Put.fail, hc]

/-- Appending the elements of a list in order. -/
theorem forM {f : α → Put ε Unit} {p : α → Prop} {w : α → List UInt8}
    (hf : ∀ a, Emits (f a) (p a) (w a)) (l : List α) :
    Emits (l.forM f) (∀ a ∈ l, p a) (l.flatMap w) := by
  induction l with
  | nil => exact Emits.pure.congr (by simp) fun _ ↦ rfl
  | cons a l ih =>
    exact ((hf a).seq ih).congr (by simp) fun _ ↦ by rw [List.flatMap_cons]

end Emits

/-! ## Cursors -/

/-- A position in a byte string. -/
structure Cursor where
  /-- The whole input. -/
  bytes : List UInt8
  /-- How much of it has been consumed. -/
  offset : ℕ
deriving DecidableEq, Repr

namespace Cursor

/-- What remains to be read. -/
def rest (c : Cursor) : List UInt8 := c.bytes.drop c.offset

/-- Move forward by `n` bytes. -/
def advance (c : Cursor) (n : ℕ) : Cursor := { c with offset := c.offset + n }

@[simp] theorem bytes_advance (c : Cursor) (n : ℕ) : (c.advance n).bytes = c.bytes := rfl

@[simp] theorem offset_advance (c : Cursor) (n : ℕ) :
    (c.advance n).offset = c.offset + n := rfl

@[simp] theorem rest_advance (c : Cursor) (n : ℕ) :
    (c.advance n).rest = c.rest.drop n := by
  rw [rest, rest, bytes_advance, offset_advance, List.drop_drop]

theorem advance_advance (c : Cursor) (m n : ℕ) :
    (c.advance m).advance n = c.advance (m + n) := by
  rw [advance, advance, advance, Nat.add_assoc]

@[simp] theorem advance_zero (c : Cursor) : c.advance 0 = c := rfl

/-- The cursor stands inside its input, and the input is addressable. -/
def Valid (c : Cursor) : Prop := c.offset ≤ c.bytes.length ∧ c.bytes.length < 2 ^ 64

theorem Valid.advance {c : Cursor} (h : c.Valid) {l : List UInt8} (hl : l <+: c.rest) :
    (c.advance l.length).Valid := by
  have hlen := hl.length_le
  rw [rest, List.length_drop] at hlen
  obtain ⟨hoff, hbytes⟩ := h
  exact ⟨by rw [offset_advance, bytes_advance]; omega, hbytes⟩

end Cursor

/-- A program that reads from a cursor and may fail. -/
abbrev Get (ε α : Type) := StateT Cursor (Except ε) α

namespace Get

/-- Fail. -/
def fail (e : ε) : Get ε α := fun _ ↦ .error e

/-- Take exactly `n` bytes. The end address is computed by a checked 64-bit addition, and the
slice must lie inside the input. -/
def take (overflow truncated : ε) (n : ℕ) : Get ε (List UInt8) := fun c ↦
  if c.offset + n < 2 ^ 64 then
    if c.offset + n ≤ c.bytes.length then .ok (c.rest.take n, c.advance n) else .error truncated
  else .error overflow

/-- Read `n` values one after the other. -/
def times (r : Get ε α) : ℕ → Get ε (List α)
  | 0 => pure []
  | n + 1 => do
    let a ← r
    let as ← times r n
    pure (a :: as)

end Get

/-- The reader accepts exactly the images under `w` of the values satisfying `p`, wherever the
cursor stands, and moves just past them. -/
def Accepts (r : Get ε α) (p : α → Prop) (w : α → List UInt8) : Prop :=
  ∀ c : Cursor, c.Valid → ∀ a c',
    r c = .ok (a, c') ↔ p a ∧ w a <+: c.rest ∧ c' = c.advance (w a).length

theorem bind_ok_iff {r : Get ε α} {f : α → Get ε β} {c c' : Cursor} {b : β} :
    (r >>= f) c = .ok (b, c') ↔ ∃ a d, r c = .ok (a, d) ∧ f a d = .ok (b, c') := by
  change Except.bind (r c) (fun x ↦ f x.1 x.2) = _ ↔ _
  cases r c with
  | error e => simp [Except.bind]
  | ok x => simp [Except.bind, Prod.ext_iff]

namespace Accepts

theorem congr {r : Get ε α} {p q : α → Prop} {w v : α → List UInt8} (h : Accepts r p w)
    (hpq : ∀ a, p a ↔ q a) (hwv : ∀ a, p a → w a = v a) : Accepts r q v := by
  intro c hc a c'
  rw [h c hc a c', ← hpq]
  refine and_congr_right fun hp ↦ ?_
  rw [hwv a hp]

theorem fail (e : ε) {p : α → Prop} {w : α → List UInt8} (hp : ∀ a, ¬p a) :
    Accepts (Get.fail e) p w := by
  intro c _ a c'
  simp [Get.fail, hp a]

theorem pure (x : α) : Accepts (Pure.pure x : Get ε α) (fun a ↦ a = x) (fun _ ↦ []) := by
  intro c _ a c'
  change Except.ok (x, c) = Except.ok (a, c') ↔ _
  rw [Except.ok.injEq, Prod.mk.injEq, List.length_nil, Cursor.advance_zero]
  simp [eq_comm]

theorem take (overflow truncated : ε) (n : ℕ) :
    Accepts (Get.take overflow truncated n) (fun l ↦ l.length = n) id := by
  intro c hc a c'
  rw [Get.take]
  by_cases hend : c.offset + n ≤ c.bytes.length
  · have hlen : (c.rest.take n).length = n := by
      rw [List.length_take, Cursor.rest, List.length_drop]
      omega
    have hbytes := hc.2
    rw [if_pos (by omega), if_pos hend, Except.ok.injEq, Prod.mk.injEq]
    constructor
    · rintro ⟨rfl, rfl⟩
      exact ⟨hlen, List.take_prefix n c.rest, by rw [id, hlen]⟩
    · rintro ⟨rfl, hpre, rfl⟩
      exact ⟨(List.prefix_iff_eq_take.mp hpre).symm, rfl⟩
  · have hshort : ∀ l : List UInt8, l <+: c.rest → l.length ≠ n := by
      intro l hl heq
      have hle := hl.length_le
      rw [Cursor.rest, List.length_drop] at hle
      have hoff := hc.1
      omega
    constructor
    · intro h
      split_ifs at h
    · rintro ⟨hlen, hpre, -⟩
      exact absurd hlen (hshort a hpre)

/-- The value read first is recovered from the final result by `g`, which is how a record's fields
are separated again. -/
theorem bind {r : Get ε α} {f : α → Get ε β} {p : α → Prop} {w : α → List UInt8}
    {q : α → β → Prop} {v : α → β → List UInt8} (g : β → α) (hr : Accepts r p w)
    (hf : ∀ a, p a → Accepts (f a) (q a) (v a)) (hg : ∀ a b, p a → q a b → a = g b) :
    Accepts (r >>= f) (fun b ↦ p (g b) ∧ q (g b) b) (fun b ↦ w (g b) ++ v (g b) b) := by
  intro c hc b c'
  rw [bind_ok_iff, append_prefix_iff, List.length_append, ← Cursor.advance_advance]
  constructor
  · rintro ⟨a, d, hrun, hrest⟩
    obtain ⟨hp, hpre, rfl⟩ := (hr c hc a d).mp hrun
    obtain ⟨hq, hpre', rfl⟩ := (hf a hp _ (hc.advance hpre) b c').mp hrest
    obtain rfl := hg a b hp hq
    rw [Cursor.rest_advance] at hpre'
    exact ⟨⟨hp, hq⟩, ⟨hpre, hpre'⟩, rfl⟩
  · rintro ⟨⟨hp, hq⟩, ⟨hpre, hpre'⟩, rfl⟩
    refine ⟨g b, c.advance (w (g b)).length, (hr c hc _ _).mpr ⟨hp, hpre, rfl⟩, ?_⟩
    exact (hf (g b) hp _ (hc.advance hpre) b _).mpr
      ⟨hq, by rwa [Cursor.rest_advance], rfl⟩

theorem map {r : Get ε α} {f : α → β} {p : α → Prop} {w : α → List UInt8} {q : β → Prop}
    {v : β → List UInt8} (hr : Accepts r p w) (hq : ∀ b, q b ↔ ∃ a, p a ∧ f a = b)
    (hv : ∀ a, p a → v (f a) = w a) : Accepts (f <$> r) q v := by
  intro c hc b c'
  have hmap : (f <$> r) c = .ok (b, c') ↔ ∃ a, r c = .ok (a, c') ∧ f a = b := by
    change Except.bind (r c) (fun x ↦ Except.ok (f x.1, x.2)) = _ ↔ _
    cases r c with
    | error e => simp [Except.bind]
    | ok x => simp [Except.bind, Prod.ext_iff, and_comm]
  rw [hmap, hq]
  constructor
  · rintro ⟨a, hrun, rfl⟩
    obtain ⟨hp, hpre, rfl⟩ := (hr c hc a c').mp hrun
    rw [hv a hp]
    exact ⟨⟨a, hp, rfl⟩, hpre, rfl⟩
  · rintro ⟨⟨a, hp, rfl⟩, hpre, rfl⟩
    rw [hv a hp] at hpre ⊢
    exact ⟨a, (hr c hc a _).mpr ⟨hp, hpre, rfl⟩, rfl⟩

/-- A check between two reads. -/
theorem guard {r : Get ε α} {p : α → Prop} {w : α → List UInt8} {b : Prop} [Decidable b] {e : ε}
    (hr : ¬b → Accepts r p w) : Accepts (if b then Get.fail e else r) (fun a ↦ ¬b ∧ p a) w := by
  intro c hc a c'
  by_cases hb : b
  · rw [if_pos hb]
    simp [Get.fail, hb]
  · rw [if_neg hb, hr hb c hc a c']
    simp [hb]

/-- Counted repetition: as many images as were asked for, in order. -/
theorem times {r : Get ε α} {p : α → Prop} {w : α → List UInt8} (hr : Accepts r p w) (n : ℕ) :
    Accepts (Get.times r n) (fun l ↦ l.length = n ∧ ∀ a ∈ l, p a) (List.flatMap w) := by
  induction n with
  | zero =>
    refine (Accepts.pure ([] : List α)).congr ?_ ?_
    · intro l
      constructor
      · rintro rfl
        simp
      · rintro ⟨h, -⟩
        exact List.length_eq_zero_iff.mp h
    · rintro l rfl
      rfl
  | succ n ih =>
    intro c hc l c'
    rw [Get.times, bind_ok_iff]
    constructor
    · rintro ⟨a, d, hrun, hrest⟩
      obtain ⟨hp, hpre, rfl⟩ := (hr c hc a d).mp hrun
      obtain ⟨as, d', hrun', hpure⟩ := bind_ok_iff.mp hrest
      obtain ⟨⟨hlen, hall⟩, hpre', rfl⟩ := (ih _ (hc.advance hpre) as d').mp hrun'
      obtain ⟨rfl, rfl⟩ := Prod.mk.inj (Except.ok.inj hpure)
      rw [Cursor.rest_advance] at hpre'
      refine ⟨⟨by simp [hlen], by simpa using ⟨hp, hall⟩⟩, ?_, ?_⟩
      · rw [List.flatMap_cons, append_prefix_iff]
        exact ⟨hpre, hpre'⟩
      · rw [Cursor.advance_advance, List.flatMap_cons, List.length_append]
    · rintro ⟨⟨hlen, hall⟩, hpre, rfl⟩
      obtain _ | ⟨a, as⟩ := l
      · simp at hlen
      rw [List.flatMap_cons, append_prefix_iff] at hpre
      have hall' : p a ∧ ∀ b ∈ as, p b := by simpa using hall
      refine ⟨a, c.advance (w a).length, (hr c hc a _).mpr ⟨hall'.1, hpre.1, rfl⟩, ?_⟩
      refine bind_ok_iff.mpr ⟨as, (c.advance (w a).length).advance (as.flatMap w).length, ?_, ?_⟩
      · refine (ih _ (hc.advance hpre.1) as _).mpr ⟨⟨by simpa using hlen, hall'.2⟩, ?_, rfl⟩
        rw [Cursor.rest_advance]
        exact hpre.2
      · rw [Cursor.advance_advance, ← List.length_append, ← List.flatMap_cons]
        rfl

end Accepts

/-- A reader run from the start of the input that must consume all of it accepts exactly one byte
string for each value. -/
theorem Accepts.complete {r : Get ε α} {p : α → Prop} {w : α → List UInt8} (hr : Accepts r p w)
    {input : List UInt8} (hlen : input.length < 2 ^ 64) {a : α} :
    (∃ c, r ⟨input, 0⟩ = .ok (a, c) ∧ c.offset = c.bytes.length) ↔ p a ∧ input = w a := by
  constructor
  · rintro ⟨c, hrun, hend⟩
    obtain ⟨hp, hpre, rfl⟩ := (hr ⟨input, 0⟩ ⟨Nat.zero_le _, hlen⟩ a c).mp hrun
    have hw : (w a).length = input.length := by simpa using hend
    exact ⟨hp, (hpre.eq_of_length (by simpa [Cursor.rest] using hw)).symm⟩
  · rintro ⟨hp, rfl⟩
    refine ⟨_, (hr ⟨w a, 0⟩ ⟨Nat.zero_le _, hlen⟩ a _).mpr ⟨hp, ?_, rfl⟩, by simp⟩
    exact List.prefix_refl _

end Codec
