import Mathlib.Data.Finset.Card
import Mathlib.Data.Finset.Image
import Mathlib.Data.List.Pairwise
import Mathlib.Data.List.Sort

/-!
# Selection of the nearest elements, one from each group

The elements of a list are sorted by a key, and from the front the first element of each group is
kept, until there are enough. The sort leaves elements with equal keys in any order
(`UnstableSort`), so what is selected is described by the elements that stand before one that is
selected: none of them is of its group, and they are of fewer groups than there is room for
(`mem_take_firstPerGroup_iff`). Of the key only its order matters, and it enters last.
-/

namespace Selection

/-! ## Sorting by a key -/

/-- A sort by a key that leaves elements with equal keys in any order. -/
structure UnstableSort (κ : Type) [LinearOrder κ] where
  sortByKey : {α : Type} → (α → κ) → List α → List α
  perm : ∀ {α : Type} (key : α → κ) (l : List α), (sortByKey key l).Perm l
  sorted : ∀ {α : Type} (key : α → κ) (l : List α),
    (sortByKey key l).Pairwise fun a b ↦ key a ≤ key b

variable {κ : Type} [LinearOrder κ]

@[simp] theorem UnstableSort.mem_sortByKey (sort : UnstableSort κ) {α : Type} {key : α → κ}
    {l : List α} {a : α} : a ∈ sort.sortByKey key l ↔ a ∈ l :=
  (sort.perm key l).mem_iff

/-- Insertion sort, which keeps the order of elements with equal keys. -/
def UnstableSort.insertion (κ : Type) [LinearOrder κ] : UnstableSort κ where
  sortByKey key l := l.insertionSort fun a b ↦ key a ≤ key b
  perm key l := l.perm_insertionSort fun a b ↦ key a ≤ key b
  sorted {α} key l := by
    have : Std.Total fun a b : α ↦ key a ≤ key b := ⟨fun a b ↦ le_total (key a) (key b)⟩
    have : IsTrans α fun a b ↦ key a ≤ key b := ⟨fun _ _ _ ↦ le_trans⟩
    exact l.pairwise_insertionSort _

/-! ## The first elements -/

/-- The first elements are those with few before them. -/
theorem mem_take_iff {α : Type} {l : List α} {a : α} {k : ℕ} :
    a ∈ l.take k ↔ ∃ before after, l = before ++ a :: after ∧ before.length < k := by
  constructor
  · intro h
    obtain ⟨before, after, htake⟩ := List.append_of_mem h
    refine ⟨before, after ++ l.drop k, ?_, ?_⟩
    · rw [← List.cons_append, ← List.append_assoc, ← htake, List.take_append_drop]
    · have hlength := congrArg List.length htake
      rw [List.length_append, List.length_cons, List.length_take] at hlength
      omega
  · rintro ⟨before, after, rfl, hlt⟩
    rw [List.take_append, List.mem_append]
    refine .inr ?_
    obtain ⟨room, hroom⟩ : ∃ room, k - before.length = room + 1 :=
      ⟨k - before.length - 1, by omega⟩
    rw [hroom, List.take_succ_cons]
    exact List.mem_cons_self

/-- The only element with the least key comes first. -/
theorem exists_eq_cons_of_least {α : Type} {key : α → κ} {l : List α} {a : α}
    (hsorted : l.Pairwise fun a b ↦ key a ≤ key b) (hmem : a ∈ l)
    (hleast : ∀ b ∈ l, b ≠ a → key a < key b) : ∃ after, l = a :: after := by
  cases l with
  | nil => cases hmem
  | cons b after =>
    by_cases hne : b = a
    · exact ⟨after, by rw [hne]⟩
    · rcases List.mem_cons.mp hmem with rfl | hlater
      · exact absurd rfl hne
      · have hle := (List.pairwise_cons.mp hsorted).1 a hlater
        exact absurd hle (not_le.mpr (hleast b List.mem_cons_self hne))

/-! ## The first of each group -/

variable {α β : Type} [DecidableEq β] {group : α → β} {seen : Finset β} {l : List α} {a b : α}
  {k : ℕ}

/-- The first element of each group, apart from the groups that have been seen. -/
def firstPerGroup (group : α → β) : Finset β → List α → List α
  | _, [] => []
  | seen, a :: l =>
    if group a ∈ seen then firstPerGroup group seen l
    else a :: firstPerGroup group (insert (group a) seen) l

/-- One more group before those that are new after it. -/
theorem card_insert_sdiff {groups : Finset β} {x : β} (h : x ∉ seen) :
    (insert x groups \ seen).card = (groups \ insert x seen).card + 1 := by
  have hnew : x ∉ groups \ insert x seen :=
    fun hmem ↦ (Finset.mem_sdiff.mp hmem).2 (Finset.mem_insert_self x seen)
  rw [← Finset.card_insert_of_notMem hnew]
  congr 1
  grind

/-- **What is selected.** The elements before a selected one are of other groups, and of fewer new
ones than are selected. -/
theorem mem_take_firstPerGroup_iff : a ∈ (firstPerGroup group seen l).take k ↔
    ∃ before after, l = before ++ a :: after ∧ group a ∉ seen ∧ group a ∉ before.map group ∧
      ((before.map group).toFinset \ seen).card < k := by
  induction l generalizing seen k with
  | nil => simp [firstPerGroup]
  | cons x l ih =>
    rw [firstPerGroup]
    by_cases hseen : group x ∈ seen
    · -- an element of a group that has been seen changes nothing
      rw [if_pos hseen, ih]
      constructor
      · rintro ⟨before, after, rfl, ha, hbefore, hcard⟩
        refine ⟨x :: before, after, rfl, ha, ?_, ?_⟩
        · rw [List.map_cons, List.mem_cons, not_or]
          exact ⟨fun heq ↦ ha (heq ▸ hseen), hbefore⟩
        · rwa [List.map_cons, List.toFinset_cons, Finset.insert_sdiff_of_mem _ hseen]
      · rintro ⟨before, after, hl, ha, hbefore, hcard⟩
        cases before with
        | nil =>
          obtain ⟨rfl, -⟩ := List.cons_eq_cons.mp hl
          exact absurd hseen ha
        | cons y before =>
          obtain ⟨rfl, rfl⟩ := List.cons_eq_cons.mp hl
          rw [List.map_cons, List.mem_cons, not_or] at hbefore
          rw [List.map_cons, List.toFinset_cons, Finset.insert_sdiff_of_mem _ hseen] at hcard
          exact ⟨before, after, rfl, ha, hbefore.2, hcard⟩
    · rw [if_neg hseen]
      cases k with
      | zero => simp
      | succ k =>
        rw [List.take_succ_cons, List.mem_cons, ih]
        constructor
        · rintro (rfl | ⟨before, after, rfl, ha, hbefore, hcard⟩)
          · exact ⟨[], l, rfl, hseen, List.not_mem_nil, by simp⟩
          · rw [Finset.mem_insert, not_or] at ha
            refine ⟨x :: before, after, rfl, ha.2, ?_, ?_⟩
            · rw [List.map_cons, List.mem_cons, not_or]
              exact ⟨ha.1, hbefore⟩
            · rw [List.map_cons, List.toFinset_cons, card_insert_sdiff hseen]
              omega
        · rintro ⟨before, after, hl, ha, hbefore, hcard⟩
          cases before with
          | nil => exact .inl (List.cons_eq_cons.mp hl).1.symm
          | cons y before =>
            obtain ⟨rfl, rfl⟩ := List.cons_eq_cons.mp hl
            rw [List.map_cons, List.mem_cons, not_or] at hbefore
            rw [List.map_cons, List.toFinset_cons, card_insert_sdiff hseen] at hcard
            refine .inr ⟨before, after, rfl, ?_, hbefore.2, by omega⟩
            rw [Finset.mem_insert, not_or]
            exact ⟨hbefore.1, ha⟩

/-- No two elements that are kept are of the same group. -/
theorem pairwise_firstPerGroup :
    (firstPerGroup group seen l).Pairwise fun a b ↦ group a ≠ group b := by
  induction l generalizing seen with
  | nil => exact .nil
  | cons x l ih =>
    rw [firstPerGroup]
    split_ifs with hseen
    · exact ih
    · refine .cons (fun b hb heq ↦ ?_) ih
      rw [← List.take_length (l := firstPerGroup group (insert (group x) seen) l),
        mem_take_firstPerGroup_iff] at hb
      obtain ⟨_, _, -, hnew, -⟩ := hb
      exact hnew (heq ▸ Finset.mem_insert_self (group x) seen)

theorem injOn_take_firstPerGroup :
    Set.InjOn group {a | a ∈ (firstPerGroup group seen l).take k} := by
  have hpairwise : ((firstPerGroup group seen l).take k).Pairwise fun a b ↦ group a ≠ group b :=
    pairwise_firstPerGroup.sublist (List.take_sublist _ _)
  have : Std.Symm fun a b ↦ group a ≠ group b := ⟨fun _ _ h ↦ h.symm⟩
  intro a ha b hb heq
  by_contra hne
  exact hpairwise.forall ha hb hne heq

/-- One element of each new group is kept. -/
theorem length_firstPerGroup :
    (firstPerGroup group seen l).length = ((l.map group).toFinset \ seen).card := by
  induction l generalizing seen with
  | nil => simp [firstPerGroup]
  | cons x l ih =>
    rw [firstPerGroup, List.map_cons, List.toFinset_cons]
    split_ifs with hseen
    · rw [Finset.insert_sdiff_of_mem _ hseen, ih]
    · rw [card_insert_sdiff hseen, List.length_cons, ih]

/-! ## The nearest -/

/-- An element of a list stands after the first of its group. -/
theorem exists_first (group : α → β) (h : b ∈ l) : ∃ before c after, l = before ++ c :: after ∧
    group c = group b ∧ group c ∉ before.map group := by
  have hfind : (l.find? fun c ↦ decide (group c = group b)).isSome := by
    rw [List.find?_isSome]
    exact ⟨b, h, decide_eq_true rfl⟩
  obtain ⟨c, hc⟩ := Option.isSome_iff_exists.mp hfind
  obtain ⟨hgroup, before, after, hl, hbefore⟩ := List.find?_eq_some_iff_append.mp hc
  have hgroup' : group c = group b := of_decide_eq_true hgroup
  refine ⟨before, c, after, hl, hgroup', fun hmem ↦ ?_⟩
  obtain ⟨d, hd, heq⟩ := List.mem_map.mp hmem
  simpa [heq, hgroup'] using hbefore d hd

variable {key : α → κ}

/-- A selected element is at least as near as the others of its group, and as those of the groups
from which none is selected. -/
theorem key_le_of_mem_take (hsorted : l.Pairwise fun a b ↦ key a ≤ key b)
    (ha : a ∈ (firstPerGroup group seen l).take k) (hb : b ∈ l) (hseen : group b ∉ seen)
    (hother : ∀ c ∈ (firstPerGroup group seen l).take k, group c = group b → group b = group a) :
    key a ≤ key b := by
  obtain ⟨before, after, rfl, -, hbefore, hcard⟩ := mem_take_firstPerGroup_iff.mp ha
  rcases List.mem_append.mp hb with hmem | hmem
  · -- the first of its group before `a` would be selected
    obtain ⟨before, c, between, rfl, hgroup, hfirst⟩ := exists_first group hmem
    have hsubset : (before.map group).toFinset \ seen ⊆
        ((before ++ c :: between).map group).toFinset \ seen := by
      refine Finset.sdiff_subset_sdiff (fun x hx ↦ ?_) subset_rfl
      rw [List.map_append, List.toFinset_append]
      exact Finset.mem_union_left _ hx
    have hc : c ∈ (firstPerGroup group seen (before ++ c :: between ++ a :: after)).take k := by
      refine mem_take_firstPerGroup_iff.mpr ⟨before, between ++ a :: after, ?_, ?_, hfirst, ?_⟩
      · rw [List.append_assoc, List.cons_append]
      · rwa [hgroup]
      · exact (Finset.card_le_card hsubset).trans_lt hcard
    exact absurd (hother c hc hgroup ▸ List.mem_map_of_mem hmem) hbefore
  · rcases List.mem_cons.mp hmem with rfl | hmem
    · exact le_rfl
    · exact (List.pairwise_cons.mp (List.pairwise_append.mp hsorted).2.1).1 b hmem

theorem filter_eq_of_append {before after : List α} (hbefore : ∀ b ∈ before, key b < key a)
    (hafter : ∀ b ∈ after, key a ≤ key b) :
    (before ++ a :: after).filter (fun b ↦ key b < key a) = before := by
  have hkeep : before.filter (fun b ↦ key b < key a) = before :=
    List.filter_eq_self.mpr fun b hb ↦ decide_eq_true (hbefore b hb)
  have hdrop : after.filter (fun b ↦ key b < key a) = [] :=
    List.filter_eq_nil_iff.mpr fun b hb ↦ by simpa using hafter b hb
  rw [List.filter_append, List.filter_cons_of_neg (by simp), hkeep, hdrop, List.append_nil]

/-- For distinct keys, the elements before one are those with smaller keys. -/
theorem filter_eq_of_pairwise {before after : List α}
    (hsorted : (before ++ a :: after).Pairwise fun a b ↦ key a < key b) :
    (before ++ a :: after).filter (fun b ↦ key b < key a) = before := by
  obtain ⟨-, hafter, hbefore⟩ := List.pairwise_append.mp hsorted
  exact filter_eq_of_append (fun b hb ↦ hbefore b hb a List.mem_cons_self)
    fun b hb ↦ ((List.pairwise_cons.mp hafter).1 b hb).le

/-- **What is selected, for distinct keys.** An element that is the nearest of its group, with
nearer elements of fewer groups than are selected. -/
theorem mem_take_firstPerGroup_iff_of_lt (hsorted : l.Pairwise fun a b ↦ key a < key b) :
    a ∈ (firstPerGroup group seen l).take k ↔
      a ∈ l ∧ group a ∉ seen ∧ (∀ b ∈ l, key b < key a → group b ≠ group a) ∧
        (((l.filter fun b ↦ key b < key a).map group).toFinset \ seen).card < k := by
  rw [mem_take_firstPerGroup_iff]
  constructor
  · rintro ⟨before, after, rfl, hseen, hgroup, hcard⟩
    rw [filter_eq_of_pairwise hsorted]
    refine ⟨List.mem_append_right _ List.mem_cons_self, hseen, fun b hb hlt heq ↦ ?_, hcard⟩
    have hbefore : b ∈ before := by
      rw [← filter_eq_of_pairwise hsorted, List.mem_filter]
      exact ⟨hb, decide_eq_true hlt⟩
    exact hgroup (heq ▸ List.mem_map_of_mem hbefore)
  · rintro ⟨hmem, hseen, hgroup, hcard⟩
    obtain ⟨before, after, rfl⟩ := List.append_of_mem hmem
    rw [filter_eq_of_pairwise hsorted] at hcard
    refine ⟨before, after, rfl, hseen, fun hmap ↦ ?_, hcard⟩
    obtain ⟨b, hb, heq⟩ := List.mem_map.mp hmap
    have hlt := (List.pairwise_append.mp hsorted).2.2 b hb a List.mem_cons_self
    exact hgroup b (List.mem_append_left _ hb) hlt heq

end Selection
