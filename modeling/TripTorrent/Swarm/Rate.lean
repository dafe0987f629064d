import Mathlib.Algebra.BigOperators.Ring.Finset
import Mathlib.Algebra.Order.BigOperators.Group.Finset
import Mathlib.Algebra.Order.Floor.Div
import Mathlib.Order.Lattice.Nat
import TripTorrent.Queueing.Server

/-!
# The rate limiter

A `RateSchedule` hands out reservations of bytes at a fixed rate. It keeps the time from which the
next reservation may start; the caller is told how long to wait for its own. Readings of the clock
may come late or out of order, since each worker reads it for itself.

The schedule is a server with one queue: a reservation arrives when the clock is read and is served
for as long as its bytes take at the given rate. The source keeps times in 128-bit integers, which
saturate; a saturated time is further off than any delay that can be returned, so that the delays
are those of the exact schedule, cut to 64 bits.
-/

namespace TripTorrent

/-- `std::time::Duration`: seconds in 64 bits and nanoseconds of a second. -/
structure Duration where
  nanos : ℕ
  nanos_lt : nanos < 2 ^ 64 * 1000000000
deriving DecidableEq

namespace Duration

theorem zero_lt : 0 < 2 ^ 64 * 1000000000 := by decide

/-- `Duration::ZERO` -/
def zero : Duration := ⟨0, zero_lt⟩

theorem min_lt (nanos : ℕ) : min nanos (2 ^ 64 - 1) < 2 ^ 64 * 1000000000 :=
  (min_le_right _ _).trans_lt (by decide)

end Duration

def durationFromNanos (nanos : ℕ) : Duration := ⟨min nanos (2 ^ 64 - 1), Duration.min_lt nanos⟩

/-- Deterministic leaky-bucket reservation state. -/
structure RateSchedule where
  bytesPerSecond : UInt64
  nextAvailableNs : ℕ
deriving DecidableEq

namespace RateSchedule

def new (bytesPerSecond : UInt64) : RateSchedule := ⟨bytesPerSecond, 0⟩

/-- Reserves `bytes` at `now`, and says how long the caller must wait. -/
def reserve (s : RateSchedule) (now : Duration) (bytes : UInt64) : Duration × RateSchedule :=
  if s.bytesPerSecond = 0 ∨ bytes = 0 then (Duration.zero, s)
  else
    let start := max s.nextAvailableNs now.nanos
    let serviceNs := min (bytes.toNat * 1000000000) (2 ^ 128 - 1) ⌈/⌉ s.bytesPerSecond.toNat
    (durationFromNanos (start - now.nanos),
      { s with nextAvailableNs := min (start + serviceNs) (2 ^ 128 - 1) })

/-- How long the bytes take at the rate, in nanoseconds. -/
def service (rate bytes : UInt64) : ℕ := (bytes.toNat * 1000000000) ⌈/⌉ rate.toNat

end RateSchedule

/-- The limiter that the workers of a transfer share. The schedule is behind a mutex, and a worker
that finds it poisoned does not wait. -/
structure RuntimeLimiter where
  schedule : RateSchedule
  poisoned : Bool
deriving DecidableEq

namespace RuntimeLimiter

def enabled (rate : UInt64) : RuntimeLimiter := ⟨.new rate, false⟩

/-- There is no limiter without a rate, nor for a rate of zero. -/
def new (rate : Option UInt64) : Option RuntimeLimiter := (rate.filter (0 < ·)).map enabled

/-- How long a worker sleeps that calls `wait` when `elapsed` has passed since the epoch. -/
def wait (limiter : RuntimeLimiter) (elapsed : Duration) (bytes : UInt64) :
    Option Duration × RuntimeLimiter :=
  let (delay, limiter) :=
    if limiter.poisoned then (Duration.zero, limiter)
    else
      let (delay, schedule) := limiter.schedule.reserve elapsed bytes
      (delay, { limiter with schedule })
  (if delay.nanos = 0 then none else some delay, limiter)

end RuntimeLimiter

namespace RateSchedule

section Run

variable (rate : UInt64) (now : ℕ → Duration) (bytes : ℕ → UInt64)

/-- The schedule before reservation `k`. -/
def before : ℕ → RateSchedule
  | 0 => .new rate
  | k + 1 => ((before k).reserve (now k) (bytes k)).2

/-- When reservation `k` starts: once its caller has read the clock and waited. -/
def start (k : ℕ) : ℕ :=
  (now k).nanos + ((before rate now bytes k).reserve (now k) (bytes k)).1.nanos

/-- When reservation `j` should start: the latest time that one up to it requires, at which that
one and those in between have been served. -/
def due (j : ℕ) : ℕ :=
  (Finset.range (j + 1)).sup' Finset.nonempty_range_add_one
    fun i ↦ (now i).nanos + ∑ k ∈ Finset.Ico i j, service rate (bytes k)

end Run

variable {rate : UInt64} {now : ℕ → Duration} {bytes : ℕ → UInt64} {i j : ℕ}

/-! ## One reservation -/

/-- A reservation of some bytes, as a step of a server that counts up to the largest 128-bit
integer. -/
theorem reserve_eq {s : RateSchedule} {t : Duration} {b : UInt64} (hrate : 0 < s.bytesPerSecond)
    (hb : 0 < b) :
    s.reserve t b =
      (durationFromNanos (max s.nextAvailableNs t.nanos - t.nanos),
        { s with
          nextAvailableNs :=
            min (max s.nextAvailableNs t.nanos + service s.bytesPerSecond b) (2 ^ 128 - 1) }) := by
  have hfit : b.toNat * 1000000000 ≤ 2 ^ 128 - 1 := by
    have := b.toNat_lt
    omega
  have hne : ¬ (s.bytesPerSecond = 0 ∨ b = 0) := not_or.mpr
    ⟨UInt64.pos_iff_ne_zero.mp hrate, UInt64.pos_iff_ne_zero.mp hb⟩
  rw [reserve, if_neg hne, min_eq_left hfit]
  rfl

theorem bytesPerSecond_reserve (s : RateSchedule) (t : Duration) (b : UInt64) :
    (s.reserve t b).2.bytesPerSecond = s.bytesPerSecond := by
  obtain heq | ⟨delay, next, heq⟩ : s.reserve t b = (Duration.zero, s) ∨
      ∃ delay next, s.reserve t b = (delay, ⟨s.bytesPerSecond, next⟩) := by
    by_cases hnone : s.bytesPerSecond = 0 ∨ b = 0
    · exact .inl (if_pos hnone)
    · exact .inr ⟨_, _, if_neg hnone⟩
  · rw [heq]
  · rw [heq]

/-- The bytes of a reservation, at the rate for as long as it is served. -/
theorem mul_le_mul_service (hrate : 0 < rate) (b : UInt64) :
    b.toNat * 1000000000 ≤ rate.toNat * service rate b := by
  have hpos : 0 < rate.toNat := UInt64.lt_iff_toNat_lt.mp hrate
  rw [service]
  generalize b.toNat * 1000000000 = work
  have hceil : work ≤ rate.toNat • (work ⌈/⌉ rate.toNat) := le_smul_ceilDiv hpos
  rwa [smul_eq_mul] at hceil

/-! ## All reservations -/

theorem bytesPerSecond_before (rate : UInt64) (now : ℕ → Duration) (bytes : ℕ → UInt64) (j : ℕ) :
    (before rate now bytes j).bytesPerSecond = rate := by
  induction j with
  | zero => rfl
  | succ j ih => rw [before, bytesPerSecond_reserve, ih]

theorem due_eq_start (rate : UInt64) (now : ℕ → Duration) (bytes : ℕ → UInt64) (j : ℕ) :
    due rate now bytes j =
      Queueing.start (fun k ↦ (now k).nanos) (fun k ↦ service rate (bytes k)) j :=
  (Queueing.start_eq_sup' _ _ j).symm

/-- The schedule follows the server until its time saturates. -/
theorem max_nextAvailableNs_before (hrate : 0 < rate) (hbytes : ∀ k < j, 0 < bytes k) :
    max (before rate now bytes j).nextAvailableNs (now j).nanos =
      min (due rate now bytes j) (2 ^ 128 - 1) := by
  induction j with
  | zero =>
    have := (now 0).nanos_lt
    rw [due_eq_start, Queueing.start, before, new]
    dsimp only
    omega
  | succ j ih =>
    have := (now (j + 1)).nanos_lt
    have hprevious := ih fun k hk ↦ hbytes k (hk.trans j.lt_succ_self)
    have hreserve := reserve_eq (s := before rate now bytes j) (t := now j) (b := bytes j)
      (by rw [bytesPerSecond_before]; exact hrate) (hbytes j j.lt_succ_self)
    rw [hprevious, bytesPerSecond_before] at hreserve
    rw [before, hreserve, due_eq_start _ _ _ (j + 1), Queueing.start, ← due_eq_start]
    dsimp only
    omega

theorem start_eq (hrate : 0 < rate) (hbytes : ∀ k ≤ j, 0 < bytes k) :
    start rate now bytes j = min (due rate now bytes j) ((now j).nanos + (2 ^ 64 - 1)) := by
  have hnow := (now j).nanos_lt
  have hdue : (now j).nanos ≤ due rate now bytes j := by
    rw [due_eq_start]
    exact Queueing.arrival_le_start (fun k ↦ (now k).nanos) _ j
  rw [start, reserve_eq (by rw [bytesPerSecond_before]; exact hrate) (hbytes j le_rfl),
    max_nextAvailableNs_before hrate fun k hk ↦ hbytes k hk.le, durationFromNanos]
  dsimp only
  omega

/-- Between two starts, the bytes reserved in between have passed at the rate. -/
theorem sum_bytes_le (hrate : 0 < rate) (hij : i ≤ j) :
    due rate now bytes i ≤ due rate now bytes j ∧
      (∑ k ∈ Finset.Ico i j, (bytes k).toNat) * 1000000000 ≤
        rate.toNat * (due rate now bytes j - due rate now bytes i) := by
  have hwork : due rate now bytes i + ∑ k ∈ Finset.Ico i j, service rate (bytes k) ≤
      due rate now bytes j := by
    rw [due_eq_start, due_eq_start]
    exact Queueing.start_add_sum_le_start hij
  refine ⟨(Nat.le_add_right _ _).trans hwork, ?_⟩
  calc (∑ k ∈ Finset.Ico i j, (bytes k).toNat) * 1000000000
      = ∑ k ∈ Finset.Ico i j, (bytes k).toNat * 1000000000 := Finset.sum_mul _ _ _
    _ ≤ ∑ k ∈ Finset.Ico i j, rate.toNat * service rate (bytes k) :=
        Finset.sum_le_sum fun k _ ↦ mul_le_mul_service hrate (bytes k)
    _ = rate.toNat * ∑ k ∈ Finset.Ico i j, service rate (bytes k) := (Finset.mul_sum _ _ _).symm
    _ ≤ rate.toNat * (due rate now bytes j - due rate now bytes i) :=
        Nat.mul_le_mul_left _ (by omega)

/-- **The rate limiter is exact.** Whatever the clock readings, a reservation starts when it is due,
or after the longest delay that can be returned if that is earlier. As long as no delay is longer
than that, between the starts of two reservations no more bytes are admitted than the rate allows,
and no reservation waits longer than some reservation up to it requires. -/
theorem rate_limiter_exact (hrate : 0 < rate) (now : ℕ → Duration) (hbytes : ∀ k ≤ j, 0 < bytes k) :
    start rate now bytes j = min (due rate now bytes j) ((now j).nanos + (2 ^ 64 - 1)) ∧
    ((∀ k ≤ j, due rate now bytes k - (now k).nanos ≤ 2 ^ 64 - 1) →
      start rate now bytes j = due rate now bytes j ∧
      (∃ i ≤ j, start rate now bytes j =
        (now i).nanos + ∑ k ∈ Finset.Ico i j, service rate (bytes k)) ∧
      ∀ i < j, start rate now bytes i ≤ start rate now bytes j ∧
        (∑ k ∈ Finset.Ico i j, (bytes k).toNat) * 1000000000 ≤
          rate.toNat * (start rate now bytes j - start rate now bytes i)) := by
  refine ⟨start_eq hrate hbytes, fun hdelay ↦ ?_⟩
  have hstart : ∀ k ≤ j, start rate now bytes k = due rate now bytes k := by
    intro k hk
    have := hdelay k hk
    rw [start_eq hrate fun l hl ↦ hbytes l (hl.trans hk)]
    omega
  refine ⟨hstart j le_rfl, ?_, fun i hi ↦ ?_⟩
  · rw [hstart j le_rfl, due_eq_start]
    exact Queueing.exists_start_eq_forced _ _ j
  · rw [hstart j le_rfl, hstart i hi.le]
    exact sum_bytes_le hrate hi.le

end RateSchedule

/-! Three reservations at a thousand bytes a second, the second of which comes while the first is
served. -/

namespace Vectors

def reservedAt : ℕ → Duration
  | 0 => .zero
  | 1 => durationFromNanos (100 * 1000000)
  | _ => durationFromNanos (500 * 1000000)

def reservedBytes : ℕ → UInt64
  | 0 => 250
  | 1 => 250
  | _ => 500

end Vectors

open Vectors in
theorem rate_limiter_exact_reserved :
    RateSchedule.start 1000 reservedAt reservedBytes 2 = 500 * 1000000 ∧
      RateSchedule.start 1000 reservedAt reservedBytes 1 = 250 * 1000000 ∧
      250 * 1000000000 ≤ 1000 * (500 * 1000000 - 250 * 1000000) := by
  have hrate : (0 : UInt64) < 1000 := by decide
  have hbytes : ∀ k ≤ 2, 0 < reservedBytes k := by decide
  have hdue : RateSchedule.due 1000 reservedAt reservedBytes 1 = 250 * 1000000 ∧
      RateSchedule.due 1000 reservedAt reservedBytes 2 = 500 * 1000000 := by decide +kernel
  have hdelay : ∀ k ≤ 2, RateSchedule.due 1000 reservedAt reservedBytes k - (reservedAt k).nanos ≤
      2 ^ 64 - 1 := by decide +kernel
  have hone := RateSchedule.rate_limiter_exact (j := 1) hrate reservedAt
    fun k hk ↦ hbytes k (hk.trans one_le_two)
  have htwo := RateSchedule.rate_limiter_exact hrate reservedAt hbytes
  have hstart : RateSchedule.start 1000 reservedAt reservedBytes 1 = 250 * 1000000 :=
    (hone.2 fun k hk ↦ hdelay k (hk.trans one_le_two)).1.trans hdue.1
  have hbound := ((htwo.2 hdelay).2.2 1 one_lt_two).2
  rw [(htwo.2 hdelay).1, hdue.2, hstart] at hbound
  exact ⟨(htwo.2 hdelay).1.trans hdue.2, hstart, hbound⟩

/-! ## The workers

The limiter of a transfer takes its reservations in the order in which the workers get hold of the
mutex. -/

namespace RuntimeLimiter

variable (rate : UInt64) (now : ℕ → Duration) (bytes : ℕ → UInt64)

/-- The limiter before call `k` of `wait`. -/
def before : ℕ → RuntimeLimiter
  | 0 => enabled rate
  | k + 1 => ((before k).wait (now k) (bytes k)).2

theorem wait_eq (s : RateSchedule) (t : Duration) (b : UInt64) :
    wait ⟨s, false⟩ t b =
      (if (s.reserve t b).1.nanos = 0 then none else some (s.reserve t b).1,
        ⟨(s.reserve t b).2, false⟩) := rfl

theorem before_eq (k : ℕ) :
    before rate now bytes k = ⟨RateSchedule.before rate now bytes k, false⟩ := by
  induction k with
  | zero => rfl
  | succ k ih => rw [before, ih, wait_eq, RateSchedule.before]

/-- A worker sleeps until its reservation starts. -/
theorem nanos_wait (k : ℕ) :
    (now k).nanos +
        (((before rate now bytes k).wait (now k) (bytes k)).1.elim 0 fun delay ↦ delay.nanos) =
      RateSchedule.start rate now bytes k := by
  rw [before_eq, wait_eq, RateSchedule.start]
  split_ifs with hzero
  · rw [hzero, Option.elim_none]
  · rw [Option.elim_some]

end RuntimeLimiter

end TripTorrent
