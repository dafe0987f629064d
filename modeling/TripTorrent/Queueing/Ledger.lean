import Mathlib.Algebra.Order.Group.Multiset
import Mathlib.Tactic.Abel

/-!
# Queues that lose entries

Entries are added behind a queue and taken from its front, and some may be lost from anywhere in
it. The ledger of such a queue accounts for every entry ever added: it has been taken, is still in
the queue, or was lost for a reason; and what was taken, followed by what is in the queue, is in the
order in which it was added. In particular no entry is taken twice.
-/

namespace Queueing

variable {α : Type} {Lost Lost' : α → Prop}
  {before after queue queue' taken taken' added added' : List α} {x : α}

/-- One round of a queue: some entries are lost, the first of the others are taken, and new ones are
added behind. -/
def Round (Lost : α → Prop) (before after taken added : List α) : Prop :=
  ∃ (keep : α → Bool) (rest : List α), before.filter keep = taken ++ rest ∧ after = rest ++ added ∧
    ∀ x ∈ before, keep x = false → Lost x

namespace Round

theorem refl (Lost : α → Prop) (queue : List α) : Round Lost queue queue [] [] :=
  ⟨fun _ ↦ true, queue, by simp, by simp, by simp⟩

theorem mono (h : Round Lost before after taken added) (hlost : ∀ x ∈ before, Lost x → Lost' x) :
    Round Lost' before after taken added := by
  obtain ⟨keep, rest, hkept, hafter, hwhy⟩ := h
  exact ⟨keep, rest, hkept, hafter, fun x hx hkeep ↦ hlost x hx (hwhy x hx hkeep)⟩

theorem filter (keep : α → Bool) (h : ∀ x ∈ before, keep x = false → Lost x) :
    Round Lost before (before.filter keep) [] [] :=
  ⟨keep, before.filter keep, rfl, (List.append_nil _).symm, h⟩

theorem add (h : Round Lost before after taken added) (new : List α) :
    Round Lost before (after ++ new) taken (added ++ new) := by
  obtain ⟨keep, rest, hkept, rfl, hlost⟩ := h
  exact ⟨keep, rest, hkept, List.append_assoc .., hlost⟩

theorem take (h : Round Lost before (x :: after) [] []) : Round Lost before after [x] [] := by
  obtain ⟨keep, rest, hkept, hafter, hlost⟩ := h
  rw [List.append_nil] at hafter
  rw [List.nil_append, ← hafter] at hkept
  exact ⟨keep, after, hkept, (List.append_nil _).symm, hlost⟩

/-- What is taken was in the queue. -/
theorem mem_of_mem_taken (h : Round Lost before after taken added) (hx : x ∈ taken) :
    x ∈ before := by
  obtain ⟨keep, rest, hkept, -, -⟩ := h
  have hmem : x ∈ before.filter keep := hkept ▸ List.mem_append_left rest hx
  exact List.mem_of_mem_filter hmem

/-- What is in the queue afterwards was there before or is new. -/
theorem mem_or_mem_of_mem_after (h : Round Lost before after taken added) (hx : x ∈ after) :
    x ∈ before ∨ x ∈ added := by
  obtain ⟨keep, rest, hkept, rfl, -⟩ := h
  rcases List.mem_append.mp hx with hrest | hadded
  · have hmem : x ∈ before.filter keep := hkept ▸ List.mem_append_right taken hrest
    exact .inl (List.mem_of_mem_filter hmem)
  · exact .inr hadded

end Round

/-- All entries added to a queue are accounted for. -/
structure Ledger (Lost : α → Prop) (added taken queue : List α) : Prop where
  sublist : (taken ++ queue).Sublist added
  perm : ∃ lost, added.Perm (taken ++ queue ++ lost) ∧ ∀ x ∈ lost, Lost x

namespace Ledger

theorem nil (Lost : α → Prop) : Ledger Lost [] [] [] := ⟨.refl _, [], .refl _, by simp⟩

theorem mono (h : Ledger Lost added taken queue) (hlost : ∀ x, Lost x → Lost' x) :
    Ledger Lost' added taken queue := by
  obtain ⟨lost, hperm, hwhy⟩ := h.perm
  exact ⟨h.sublist, lost, hperm, fun x hx ↦ hlost x (hwhy x hx)⟩

theorem mem_of_mem_queue (h : Ledger Lost added taken queue) (hx : x ∈ queue) : x ∈ added :=
  h.sublist.subset (List.mem_append_right taken hx)

/-- A round is entered in the ledger. -/
theorem round (h : Ledger Lost added taken queue) (hround : Round Lost queue queue' taken' added') :
    Ledger Lost (added ++ added') (taken ++ taken') queue' := by
  obtain ⟨lost, hperm, hlost⟩ := h.perm
  obtain ⟨keep, rest, hkept, rfl, hdropped⟩ := hround
  constructor
  · have hinner : (taken ++ (taken' ++ rest)).Sublist added := by
      rw [← hkept]
      exact (List.filter_sublist.append_left taken).trans h.sublist
    simpa [List.append_assoc] using hinner.append_right added'
  · refine ⟨lost ++ queue.filter fun x ↦ !keep x, ?_, fun x hx ↦ ?_⟩
    · have hsplit : queue.Perm (taken' ++ rest ++ queue.filter fun x ↦ !keep x) := by
        rw [← hkept]
        exact (List.filter_append_perm keep queue).symm
      -- as multisets the entries can be moved about
      rw [← Multiset.coe_eq_coe] at hperm hsplit ⊢
      simp only [← Multiset.coe_add] at hperm hsplit ⊢
      rw [hperm, hsplit]
      abel
    · rcases List.mem_append.mp hx with hx | hx
      · exact hlost x hx
      · obtain ⟨hmem, hkeep⟩ := List.mem_filter.mp hx
        exact hdropped x hmem (by simpa using hkeep)

end Ledger

end Queueing
