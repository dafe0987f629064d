import Mathlib.Data.List.Basic

/-!
# Computations that may fail

Inversion of a successful run: what a sequence of fallible steps returned tells what each of its
steps returned. A failed run is never of interest here beyond the fact that it failed.
-/

namespace Outcome

variable {ε α β : Type}

theorem bind_eq_ok_iff {x : Except ε α} {f : α → Except ε β} {b : β} :
    (x >>= f) = .ok b ↔ ∃ a, x = .ok a ∧ f a = .ok b := by
  cases x with
  | error e => simp [bind, Except.bind]
  | ok a => simp [bind, Except.bind]

theorem mapError_eq_ok_iff {δ : Type} {x : Except ε α} {f : ε → δ} {a : α} :
    x.mapError f = .ok a ↔ x = .ok a := by
  cases x with
  | error e => simp [Except.mapError]
  | ok b => simp [Except.mapError]

theorem forM_eq_ok_iff {f : α → Except ε Unit} {l : List α} :
    l.forM f = .ok () ↔ ∀ a ∈ l, f a = .ok () := by
  induction l with
  | nil => simp [List.forM, pure, Except.pure]
  | cons a l ih =>
    rw [List.forM, bind_eq_ok_iff, List.forall_mem_cons, ← ih]
    exact ⟨fun ⟨_, ha, hl⟩ ↦ ⟨ha, hl⟩, fun ⟨ha, hl⟩ ↦ ⟨(), ha, hl⟩⟩

/-- A fallible map none of whose steps fails. -/
theorem mapM_eq_ok {f : α → Except ε β} {g : α → β} {l : List α} (h : ∀ a ∈ l, f a = .ok (g a)) :
    l.mapM f = .ok (l.map g) := by
  induction l with
  | nil => rfl
  | cons a l ih =>
    rw [List.forall_mem_cons] at h
    rw [List.mapM_cons, h.1, ih h.2]
    rfl

/-- What every step of a fold keeps, a fold that does not fail keeps. -/
theorem foldlM_keeps {f : β → α → Except ε β} {l : List α} {b c : β} {P : β → Prop}
    (hstep : ∀ b c, ∀ a ∈ l, P b → f b a = .ok c → P c) (hb : P b) (h : l.foldlM f b = .ok c) :
    P c := by
  induction l generalizing b with
  | nil => exact Except.ok.inj h ▸ hb
  | cons a l ih =>
    obtain ⟨d, hd, hrest⟩ := bind_eq_ok_iff.mp (List.foldlM_cons.symm.trans h)
    have hkept : P d := hstep b d a List.mem_cons_self hb hd
    exact ih (fun b c a ha ↦ hstep b c a (List.mem_cons_of_mem _ ha)) hkept hrest

section

variable {f : β → ℕ → Option β} {P : ℕ → β → Prop} {b c : β} {n : ℕ}

/-- What every step of a loop keeps, with the number of steps so far, a loop that ends keeps. -/
theorem foldlM_range_keeps (hstep : ∀ i b c, P i b → f b i = some c → P (i + 1) c) (hb : P 0 b)
    (h : (List.range n).foldlM f b = some c) : P n c := by
  induction n generalizing c with
  | zero => exact Option.some.inj h ▸ hb
  | succ n ih =>
    rw [List.range_succ, List.foldlM_append] at h
    obtain ⟨d, hd, hlast⟩ := Option.bind_eq_some_iff.mp h
    rw [List.foldlM_cons] at hlast
    obtain ⟨e, he, hpure⟩ := Option.bind_eq_some_iff.mp hlast
    exact Option.some.inj hpure ▸ hstep n d e (ih hd) he

/-- A loop whose steps do not fail ends. -/
theorem exists_foldlM_range (hstep : ∀ b i, ∃ c, f b i = some c) (b : β) (n : ℕ) :
    ∃ c, (List.range n).foldlM f b = some c := by
  induction n with
  | zero => exact ⟨b, rfl⟩
  | succ n ih =>
    obtain ⟨c, hc⟩ := ih
    obtain ⟨d, hd⟩ := hstep c n
    refine ⟨d, ?_⟩
    rw [List.range_succ, List.foldlM_append, hc]
    exact congrArg (· >>= pure) hd

end

/-- A loop whose steps add to an output ends with what they have added. -/
theorem exists_foldlM_append {σ γ : Type} {f : σ → α → Option σ} {out : σ → List γ}
    {g : α → List γ} {l : List α}
    (hstep : ∀ a ∈ l, ∀ s, ∃ t, f s a = some t ∧ out t = out s ++ g a) (s : σ) :
    ∃ t, l.foldlM f s = some t ∧ out t = out s ++ l.flatMap g := by
  induction l generalizing s with
  | nil => exact ⟨s, rfl, (List.append_nil _).symm⟩
  | cons a l ih =>
    rw [List.forall_mem_cons] at hstep
    obtain ⟨next, hnext, hout⟩ := hstep.1 s
    obtain ⟨t, ht, hrest⟩ := ih hstep.2 next
    refine ⟨t, ?_, ?_⟩
    · rw [List.foldlM_cons, hnext]
      exact ht
    · rw [hrest, hout, List.flatMap_cons, List.append_assoc]

end Outcome
