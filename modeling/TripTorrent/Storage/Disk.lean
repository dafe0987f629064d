import Mathlib.Data.List.Basic
import Mathlib.Logic.Function.Basic

/-!
# Programs on a disk, and crashes

A disk maps paths to file contents. A script reads the disk and performs atomic operations on it one
after another; running it yields the operations it performed and its result. A crash may strike
between any two operations, so the disks it can leave are those after some initial part of the
operations.

`Script.Meets p d C Q` is the specification used throughout: started on `d`, the script leaves a
disk satisfying `C` whenever it is cut short, and its result and final disk satisfy `Q`. Its rules
follow the structure of the script.
-/

namespace Storage

/-! ## Contents of a file -/

/-- A file cut or padded with zeros to a length. -/
def resize (n : ℕ) (bytes : List UInt8) : List UInt8 :=
  bytes.take n ++ List.replicate (n - bytes.length) 0

/-- A file with data written at an offset. A gap is filled with zeros; writing nothing changes
nothing. -/
def patch (offset : ℕ) (data bytes : List UInt8) : List UInt8 :=
  if data = [] then bytes
  else resize offset bytes ++ data ++ bytes.drop (offset + data.length)

@[simp] theorem resize_nil (n : ℕ) : resize n [] = List.replicate n 0 := by
  rw [resize, List.take_nil, List.nil_append, List.length_nil, Nat.sub_zero]

theorem resize_eq_take {n : ℕ} {bytes : List UInt8} (h : n ≤ bytes.length) :
    resize n bytes = bytes.take n := by
  rw [resize, Nat.sub_eq_zero_of_le h, List.replicate_zero, List.append_nil]

@[simp] theorem patch_zero_nil (data : List UInt8) : patch 0 data [] = data := by
  by_cases h : data = []
  · rw [patch, if_pos h, h]
  · rw [patch, if_neg h, List.drop_nil, List.append_nil]
    rfl

/-- Data inside a file replaces just what was there. -/
theorem patch_eq {offset : ℕ} {data bytes : List UInt8} (h : offset + data.length ≤ bytes.length) :
    patch offset data bytes =
      bytes.take offset ++ data ++ bytes.drop (offset + data.length) := by
  by_cases hdata : data = []
  · rw [patch, if_pos hdata, hdata, List.append_nil, List.length_nil, Nat.add_zero,
      List.take_append_drop]
  · rw [patch, if_neg hdata, resize_eq_take (by omega)]

/-! ## Operations -/

variable {π : Type} [DecidableEq π]

abbrev Disk (π : Type) := π → Option (List UInt8)

/-- The atomic operations. Each is applied to files that are there when it is performed; on a
missing file it does nothing. -/
inductive Op (π : Type) where
  /-- Create the file empty, or truncate it. -/
  | create (path : π)
  | setLen (path : π) (length : ℕ)
  | writeAt (path : π) (offset : ℕ) (data : List UInt8)
  /-- Move a file over whatever is at the destination. -/
  | rename (source destination : π)
  | remove (path : π)

namespace Op

def apply (d : Disk π) : Op π → Disk π
  | .create path => Function.update d path (some [])
  | .setLen path length => Function.update d path ((d path).map (resize length))
  | .writeAt path offset data => Function.update d path ((d path).map (patch offset data))
  | .rename source destination =>
    match d source with
    | some bytes => Function.update (Function.update d source none) destination (some bytes)
    | none => d
  | .remove path => Function.update d path none

/-- A write neither creates nor removes a file. -/
theorem isSome_apply_writeAt (d : Disk π) (path : π) (offset : ℕ) (data : List UInt8) (q : π) :
    (apply d (.writeAt path offset data) q).isSome = (d q).isSome := by
  rw [apply]
  by_cases hq : q = path
  · subst hq
    rw [Function.update_self, Option.isSome_map]
  · rw [Function.update_of_ne hq]

/-- What is left of a write that is cut short after `j` bytes. Every other operation is done or not
done. -/
def torn (j : ℕ) : Op π → Option (Op π)
  | .writeAt path offset data => some (.writeAt path offset (data.take j))
  | _ => none

end Op

/-- A disk after some operations. -/
def applyAll (d : Disk π) (ops : List (Op π)) : Disk π := ops.foldl Op.apply d

@[simp] theorem applyAll_nil (d : Disk π) : applyAll d [] = d := rfl

@[simp] theorem applyAll_cons (d : Disk π) (op : Op π) (ops : List (Op π)) :
    applyAll d (op :: ops) = applyAll (op.apply d) ops := rfl

theorem applyAll_append (d : Disk π) (ops ops' : List (Op π)) :
    applyAll d (ops ++ ops') = applyAll (applyAll d ops) ops' := List.foldl_append

/-! ## Scripts -/

/-- A program: from the disk it is started on, the operations it performs and its result. -/
def Script (π ε α : Type) := Disk π → List (Op π) × Except ε α

namespace Script

variable {ε α β : Type}

/-- The operations a script performs. -/
def trace (p : Script π ε α) (d : Disk π) : List (Op π) := (p d).1

def result (p : Script π ε α) (d : Disk π) : Except ε α := (p d).2

/-- The disk a script leaves when it runs to its end. -/
def final (p : Script π ε α) (d : Disk π) : Disk π := applyAll d (p.trace d)

/-- The disk a script leaves when it is cut short after `k` operations. -/
def cut (p : Script π ε α) (d : Disk π) (k : ℕ) : Disk π := applyAll d ((p.trace d).take k)

/-- The disk a script leaves when it is cut short after `k` operations and, if the next one is a
write, `j` bytes of that. -/
def torn (p : Script π ε α) (d : Disk π) (k j : ℕ) : Disk π :=
  applyAll d ((p.trace d).take k ++ ((p.trace d)[k]?.bind (Op.torn j)).toList)

/-- End with a given outcome. -/
def done (outcome : Except ε α) : Script π ε α := fun _ ↦ ([], outcome)

def fail (error : ε) : Script π ε α := done (.error error)

def perform (op : Op π) : Script π ε Unit := fun _ ↦ ([op], .ok ())

/-- Read something off the disk. -/
def look (f : Disk π → α) : Script π ε α := fun d ↦ ([], .ok (f d))

def andThen (p : Script π ε α) (f : α → Script π ε β) : Script π ε β := fun d ↦
  match p d with
  | (ops, .ok a) =>
    let (ops', outcome) := f a (applyAll d ops)
    (ops ++ ops', outcome)
  | (ops, .error error) => (ops, .error error)

instance : Monad (Script π ε) where
  pure a := done (.ok a)
  bind := andThen

theorem look_bind (g : Disk π → α) (f : α → Script π ε β) (d : Disk π) :
    (look g >>= f) d = f (g d) d := rfl

theorem trace_perform_bind (op : Op π) (f : Unit → Script π ε β) (d : Disk π) :
    (perform op >>= f).trace d = op :: (f ()).trace (op.apply d) := rfl

theorem trace_bind_of_ok {p : Script π ε α} {f : α → Script π ε β} {d : Disk π} {a : α}
    (h : p.result d = .ok a) : (p >>= f).trace d = p.trace d ++ (f a).trace (p.final d) := by
  change (andThen p f d).1 = (p d).1 ++ (f a (applyAll d (p d).1)).1
  change (p d).2 = .ok a at h
  rcases hp : p d with ⟨ops, outcome⟩
  obtain rfl : outcome = .ok a := by rw [← h, hp]
  simp only [andThen, hp]

theorem trace_bind_of_error {p : Script π ε α} {f : α → Script π ε β} {d : Disk π} {error : ε}
    (h : p.result d = .error error) : (p >>= f).trace d = p.trace d := by
  change (andThen p f d).1 = (p d).1
  change (p d).2 = .error error at h
  rcases hp : p d with ⟨ops, outcome⟩
  obtain rfl : outcome = .error error := by rw [← h, hp]
  simp only [andThen, hp]

theorem trace_bind_pure (p : Script π ε α) (g : α → β) (d : Disk π) :
    (p >>= fun a ↦ pure (g a)).trace d = p.trace d := by
  cases h : p.result d with
  | error error => exact trace_bind_of_error h
  | ok a =>
    rw [trace_bind_of_ok h]
    exact List.append_nil _

/-- A crash strikes between two operations or inside a write. -/
theorem torn_cases (p : Script π ε α) (d : Disk π) (k j : ℕ) :
    p.torn d k j = p.cut d k ∨ ∃ path offset data,
      (p.trace d)[k]? = some (.writeAt path offset data) ∧
        p.torn d k j = Op.apply (p.cut d k) (.writeAt path offset (data.take j)) := by
  rw [torn, applyAll_append, ← cut]
  cases hop : (p.trace d)[k]? with
  | none => exact .inl rfl
  | some op =>
    cases op with
    | writeAt path offset data => exact .inr ⟨path, offset, data, rfl, rfl⟩
    | _ => exact .inl rfl

theorem torn_of_trace_eq_nil {p : Script π ε α} {d : Disk π} (h : p.trace d = []) (k j : ℕ) :
    p.torn d k j = d := by
  rw [torn, h, List.take_nil, List.getElem?_nil]
  rfl

/-- Started on `d`, the script leaves a disk satisfying `C` whenever it is cut short, and its
outcome and final disk satisfy `Q`. -/
def Meets (p : Script π ε α) (d : Disk π) (C : Disk π → Prop) (Q : Except ε α → Disk π → Prop) :
    Prop :=
  (∀ k, C (p.cut d k)) ∧ Q (p.result d) (p.final d)

section Rules

variable {p : Script π ε α} {f : α → Script π ε β} {d : Disk π} {C C' : Disk π → Prop}
  {Q Q' : Except ε α → Disk π → Prop} {R : Except ε β → Disk π → Prop}

theorem meets_congr {q : Script π ε α} (h : p d = q d) (hq : q.Meets d C Q) : p.Meets d C Q := by
  simp only [Meets, cut, result, final, trace, h]
  exact hq

/-- A script that performs nothing. -/
theorem meets_of_eq {outcome : Except ε α} (h : p d = ([], outcome)) (hC : C d)
    (hQ : Q outcome d) : p.Meets d C Q := by
  rw [Meets, result, final, trace, h]
  refine ⟨fun k ↦ ?_, hQ⟩
  rw [cut, trace, h, List.take_nil]
  exact hC

theorem meets_done {outcome : Except ε α} (hC : C d) (hQ : Q outcome d) :
    (done outcome : Script π ε α).Meets d C Q := meets_of_eq rfl hC hQ

theorem meets_pure {a : α} (hC : C d) (hQ : Q (.ok a) d) :
    (pure a : Script π ε α).Meets d C Q := meets_done hC hQ

theorem meets_look {g : Disk π → α} (hC : C d) (hQ : Q (.ok (g d)) d) :
    (look g : Script π ε α).Meets d C Q := meets_of_eq rfl hC hQ

theorem meets_perform {op : Op π} {Q : Except ε Unit → Disk π → Prop} (hC : C d)
    (hC' : C (op.apply d)) (hQ : Q (.ok ()) (op.apply d)) :
    (perform op : Script π ε Unit).Meets d C Q := by
  refine ⟨fun k ↦ ?_, hQ⟩
  rw [cut, trace, perform]
  cases k with
  | zero => exact hC
  | succ k =>
    rw [List.take_succ_cons, List.take_nil]
    exact hC'

/-- Sequencing: the second script starts where the first one ended, unless that failed. -/
theorem meets_bind (h : p.Meets d C fun outcome d' ↦
    match outcome with
    | .ok a => (f a).Meets d' C R
    | .error error => R (.error error) d') : (p >>= f).Meets d C R := by
  obtain ⟨hcut, hout⟩ := h
  rw [result, final, trace] at hout
  rw [Meets, result, final, trace]
  unfold cut trace at hcut ⊢
  change (∀ k, C (applyAll d ((andThen p f d).1.take k))) ∧
    R (andThen p f d).2 (applyAll d (andThen p f d).1)
  rw [andThen]
  cases hp : p d with
  | mk ops outcome =>
    rw [hp] at hcut hout
    cases outcome with
    | error error => exact ⟨hcut, hout⟩
    | ok a =>
      simp only
      refine ⟨fun k ↦ ?_, ?_⟩
      · rw [List.take_append, applyAll_append]
        by_cases hk : k ≤ ops.length
        · rw [Nat.sub_eq_zero_of_le hk, List.take_zero, applyAll_nil]
          exact hcut k
        · rw [List.take_of_length_le (by omega)]
          exact hout.1 _
      · rw [applyAll_append]
        exact hout.2

theorem Meets.initial (h : p.Meets d C Q) : C d := by
  have hfirst := h.1 0
  rwa [cut, List.take_zero] at hfirst

/-- A script that is met holds to its crash condition at the end as well. -/
theorem Meets.final (h : p.Meets d C Q) : C (p.final d) := by
  have hlast := h.1 (p.trace d).length
  rwa [cut, List.take_length] at hlast

theorem meets_look_bind {g : Disk π → α} (h : (f (g d)).Meets d C R) :
    (look g >>= f).Meets d C R :=
  meets_bind (meets_look h.initial h)

theorem meets_perform_bind {op : Op π} {f : Unit → Script π ε β} (hC : C d)
    (h : (f ()).Meets (op.apply d) C R) : (perform op >>= f).Meets d C R :=
  meets_bind (meets_perform hC h.initial h)

/-- A script followed by a return. -/
theorem meets_bind_pure {g : α → β} (h : p.Meets d C fun outcome d' ↦ R (outcome.map g) d') :
    (p >>= fun a ↦ pure (g a)).Meets d C R := by
  have hend := h.final
  refine meets_bind ⟨h.1, ?_⟩
  have hout := h.2
  revert hout
  cases p.result d with
  | error error => exact fun hout ↦ hout
  | ok a => exact fun hout ↦ meets_pure hend hout

end Rules

end Script

end Storage
