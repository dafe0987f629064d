import Mathlib.Algebra.BigOperators.Group.List.Basic
import Mathlib.Algebra.Ring.Nat
import Mathlib.Logic.Relation

/-!
# Runs of a transition system

A transition system is a relation `R` on states. Safety is said along `Relation.ReflTransGen R`;
`Inevitable R P` says that every maximal run reaches a state satisfying `P`: as long as `P` does not
hold some step is possible, and no sequence of steps goes on for ever without reaching it.

Systems given by an executable partial function on states and actions are turned into relations by
`Step`, and their finite runs can be computed with `run`. Measures of systems made of a list of
components are sums over the list, and a step of one component changes one summand.
-/

namespace Transition

variable {σ α : Type*}

/-! ## Relations -/

section Relation

variable {R : σ → σ → Prop} {P I : σ → Prop} {s t : σ}

/-- What every step preserves holds along every run. -/
theorem invariant (hstep : ∀ s t, I s → R s t → I t) (hs : I s)
    (hrun : Relation.ReflTransGen R s t) : I t := by
  induction hrun with
  | refl => exact hs
  | tail _ hlast ih => exact hstep _ _ ih hlast

/-- Every maximal run from the state reaches a state satisfying `P`. -/
inductive Inevitable (R : σ → σ → Prop) (P : σ → Prop) : σ → Prop where
  | now {s : σ} (h : P s) : Inevitable R P s
  | next {s : σ} (hstep : ∃ t, R s t) (hall : ∀ t, R s t → Inevitable R P t) : Inevitable R P s

/-- An invariant under which no state but those satisfying `P` is stuck and every step decreases a
measure makes `P` inevitable. -/
theorem inevitable_of_measure (μ : σ → ℕ) (hstep : ∀ s t, I s → R s t → I t)
    (hmeasure : ∀ s t, I s → R s t → μ t < μ s) (hprogress : ∀ s, I s → ¬P s → ∃ t, R s t)
    (hs : I s) : Inevitable R P s := by
  induction hn : μ s using Nat.strong_induction_on generalizing s with
  | _ n ih =>
    by_cases hP : P s
    · exact .now hP
    · refine .next (hprogress s hs hP) fun t hst ↦ ?_
      exact ih (μ t) (hn ▸ hmeasure s t hs hst) (hstep s t hs hst) rfl

end Relation

/-! ## Executable systems -/

section Executable

variable (next : σ → α → Option σ)

/-- Some action leads from `s` to `t`. -/
def Step (s t : σ) : Prop := ∃ a, next s a = some t

/-- The state after a list of actions, if each of them is possible when its turn comes. -/
def run (s : σ) (actions : List α) : Option σ := actions.foldlM next s

variable {next}

theorem reflTransGen_of_run {actions : List α} {s t : σ} (h : run next s actions = some t) :
    Relation.ReflTransGen (Step next) s t := by
  induction actions generalizing s with
  | nil =>
    obtain rfl := Option.some.inj h
    exact .refl
  | cons a actions ih =>
    obtain ⟨u, hu, h⟩ := Option.bind_eq_some_iff.mp h
    exact .head ⟨a, hu⟩ (ih h)

/-- What every step preserves of the state and the actions so far holds after every run. -/
theorem run_invariant {I : List α → σ → Prop} {actions : List α} {s t : σ}
    (hstep : ∀ past s a t, I past s → next s a = some t → I (past ++ [a]) t) (hs : I [] s)
    (h : run next s actions = some t) : I actions t := by
  have hgeneral (later past : List α) (s : σ) (hs : I past s) (h : run next s later = some t) :
      I (past ++ later) t := by
    induction later generalizing past s with
    | nil =>
      obtain rfl := Option.some.inj h
      rwa [List.append_nil]
    | cons a later ih =>
      obtain ⟨u, hu, h⟩ := Option.bind_eq_some_iff.mp h
      rw [List.append_cons]
      exact ih (past ++ [a]) u (hstep past s a u hs hu) h
  exact hgeneral actions [] s hs h

/-- The system in which only actions that meet a condition are possible. -/
def restrict (K : σ → α → Prop) [∀ s a, Decidable (K s a)] (next : σ → α → Option σ) (s : σ)
    (a : α) : Option σ :=
  if K s a then next s a else none

theorem reflTransGen_of_run_restrict {K : σ → α → Prop} [∀ s a, Decidable (K s a)]
    {actions : List α} {s t : σ} (h : run (restrict K next) s actions = some t) :
    Relation.ReflTransGen (fun s t ↦ ∃ a, K s a ∧ next s a = some t) s t := by
  refine Relation.ReflTransGen.mono ?_ _ _ (reflTransGen_of_run h)
  rintro s t ⟨a, ha⟩
  rw [restrict] at ha
  split_ifs at ha with hK
  exact ⟨a, hK, ha⟩

end Executable

/-! ## Lists of components -/

section Components

variable {l : List α} {i j : ℕ} {a b : α}

/-- After a component has been replaced, each is the new one or what it was. -/
theorem replaced_or_unchanged (h : (l.set i a)[j]? = some b) :
    i = j ∧ b = a ∨ i ≠ j ∧ l[j]? = some b := by
  by_cases hij : i = j
  · subst hij
    rw [List.getElem?_set_self (List.length_set ▸ (List.getElem?_eq_some_iff.mp h).1)] at h
    exact .inl ⟨rfl, (Option.some.inj h).symm⟩
  · rw [List.getElem?_set_ne hij] at h
    exact .inr ⟨hij, h⟩

theorem sum_map_set (f : α → ℕ) (h : l[i]? = some a) :
    ((l.set i b).map f).sum + f a = (l.map f).sum + f b := by
  induction l generalizing i with
  | nil => simp at h
  | cons x l ih =>
    cases i with
    | zero =>
      obtain rfl : x = a := by simpa using h
      simp only [List.set_cons_zero, List.map_cons, List.sum_cons]
      omega
    | succ i =>
      have := ih (i := i) (by simpa using h)
      simp only [List.set_cons_succ, List.map_cons, List.sum_cons]
      omega

theorem countP_set (p : α → Bool) (h : l[i]? = some a) :
    (l.set i b).countP p + (if p a then 1 else 0) = l.countP p + if p b then 1 else 0 := by
  have hsum (l : List α) : l.countP p = (l.map fun x ↦ if p x then 1 else 0).sum := by
    induction l with
    | nil => rfl
    | cons x l ih => rw [List.countP_cons, List.map_cons, List.sum_cons, ih, add_comm]
  rw [hsum, hsum, sum_map_set _ h]

end Components

end Transition
