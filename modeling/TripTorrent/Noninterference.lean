import Mathlib.Order.Basic

/-!
# Inputs that make no difference

A machine takes one input after another and answers each. Some inputs are hidden: they may change
the state, but whether they are made should not be seen in the answers to the others. As usual this
is shown by unwinding. Two states are related as long as the answers that follow agree; a hidden
input keeps its state related to the other, and any other input has the same answer in both.

Inputs carry times that do not go back, and states may be related from some time on only.
-/

namespace Noninterference

variable {σ ι ω τ : Type} (step : σ → ι → σ × ω) (hidden : ι → Bool)

/-- The answers to the inputs that are not hidden. -/
def answers (s : σ) : List ι → List ω
  | [] => []
  | input :: inputs =>
    let (s, answer) := step s input
    if hidden input then answers s inputs else answer :: answers s inputs

/-- The states are related from a time on, whatever is hidden. -/
structure Unwinding [Preorder τ] (time : ι → τ) (related : τ → σ → σ → Prop) : Prop where
  hide : ∀ {t s s' input}, related t s s' → t ≤ time input → hidden input = true →
    related (time input) (step s input).1 s'
  agree : ∀ {t s s' input}, related t s s' → t ≤ time input → hidden input = false →
    (step s input).2 = (step s' input).2 ∧
      related (time input) (step s input).1 (step s' input).1

variable {step hidden} [Preorder τ] {time : ι → τ} {related : τ → σ → σ → Prop}

/-- Leaving the hidden inputs out changes no answer. -/
theorem Unwinding.answers_eq (h : Unwinding step hidden time related) {t : τ} {s s' : σ}
    {inputs : List ι} (hrelated : related t s s') (hfrom : ∀ input ∈ inputs, t ≤ time input)
    (hsorted : (inputs.map time).Pairwise (· ≤ ·)) :
    answers step hidden s inputs = answers step hidden s' (inputs.filter fun i ↦ !hidden i) := by
  induction inputs generalizing t s s' with
  | nil => rfl
  | cons input inputs ih =>
    rw [List.map_cons, List.pairwise_cons] at hsorted
    have hle : t ≤ time input := hfrom input List.mem_cons_self
    have hrest : ∀ later ∈ inputs, time input ≤ time later :=
      fun later hlater ↦ hsorted.1 _ (List.mem_map_of_mem hlater)
    rw [answers]
    dsimp only
    cases hhidden : hidden input with
    | true =>
      rw [if_pos rfl, List.filter_cons_of_neg (by simp [hhidden])]
      exact ih (h.hide hrelated hle hhidden) hrest hsorted.2
    | false =>
      obtain ⟨hanswer, hnext⟩ := h.agree hrelated hle hhidden
      rw [if_neg Bool.false_ne_true, List.filter_cons_of_pos (by simp [hhidden]), answers]
      dsimp only
      rw [hhidden, if_neg Bool.false_ne_true, hanswer, ih hnext hrest hsorted.2]

end Noninterference
