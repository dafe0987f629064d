import Mathlib.Data.List.Infix
import Mathlib.Data.List.Induction
import TripTorrent.Codec.Slices

/-!
# Lines and blocks

Text is cut into lines at every occurrence of a separator of two different elements. A line without
the separator in it is found again between separators, whatever it begins and ends with, as no
occurrence of the separator can overlap another one.

A block is a sequence of lines, each followed by a separator, and an empty line at the end. Where
two separators follow each other the block ends, if none of its lines is empty.
-/

namespace Codec

variable {α : Type} {x y : α} {l r : List α} {lines : List (List α)} {i : ℕ}

/-- The separator does not occur. -/
def PairFree (x y : α) (l : List α) : Prop := ¬[x, y] <:+: l

instance [DecidableEq α] : Decidable (PairFree x y l) := inferInstanceAs (Decidable (¬_))

theorem PairFree.of_isInfix {m : List α} (h : PairFree x y l) (hm : m <:+: l) : PairFree x y m :=
  fun hpair ↦ h (hpair.trans hm)

theorem pairFree_nil : PairFree x y [] := by simp [PairFree]

theorem pairFree_singleton (a : α) : PairFree x y [a] := by
  intro h
  simpa using h.length_le

theorem pairFree_cons_iff {a : α} :
    PairFree x y (a :: l) ↔ ¬(a = x ∧ l.head? = some y) ∧ PairFree x y l := by
  rw [PairFree, PairFree, List.infix_cons_iff, not_or, List.cons_prefix_cons,
    List.singleton_prefix_iff_head?_eq_some, eq_comm (a := x)]

theorem pairFree_cons_cons_iff {a b : α} :
    PairFree x y (a :: b :: l) ↔ ¬(a = x ∧ b = y) ∧ PairFree x y (b :: l) := by
  rw [pairFree_cons_iff, List.head?_cons, Option.some_inj]

theorem PairFree.append {m : List α} (hx : x ∉ m) (h : PairFree x y l) :
    PairFree x y (m ++ l) := by
  induction m with
  | nil => exact h
  | cons a m ih =>
    rw [List.mem_cons, not_or] at hx
    exact pairFree_cons_iff.mpr ⟨fun heq ↦ hx.1 heq.1.symm, ih hx.2⟩

theorem pairFree_of_notMem (hx : x ∉ l) : PairFree x y l := by
  simpa using pairFree_nil.append hx

theorem PairFree.not_occurs (h : PairFree x y l) (i : ℕ) : ¬Occurs l i [x, y] :=
  fun hoccurs ↦ h (hoccurs.isInfix.trans (List.drop_suffix i l).isInfix)

/-! ## Cutting into lines -/

section Split

variable [DecidableEq α]

/-- The lines of a text. -/
def splitPair (x y : α) : List α → List (List α)
  | [] => [[]]
  | [a] => [[a]]
  | a :: b :: l =>
    if a = x ∧ b = y then [] :: splitPair x y l else (splitPair x y (b :: l)).modifyHead (a :: ·)

theorem splitPair_append (hxy : x ≠ y) (h : PairFree x y l) (r : List α) :
    splitPair x y (l ++ x :: y :: r) = l :: splitPair x y r := by
  induction l with
  | nil => rw [List.nil_append, splitPair, if_pos ⟨rfl, rfl⟩]
  | cons a l ih =>
    cases l with
    | nil =>
      rw [List.singleton_append, splitPair, if_neg (fun heq ↦ hxy heq.2), splitPair,
        if_pos ⟨rfl, rfl⟩]
      rfl
    | cons b l =>
      obtain ⟨hpair, h⟩ := pairFree_cons_cons_iff.mp h
      rw [List.cons_append, List.cons_append, splitPair, if_neg hpair, ← List.cons_append, ih h]
      rfl

/-- The first line begins the text, and no line contains the separator. -/
theorem splitPair_spec (l : List α) :
    ∃ first lines, splitPair x y l = first :: lines ∧ first <+: l ∧
      ∀ line ∈ first :: lines, PairFree x y line := by
  induction l using splitPair.induct x y with
  | case1 => exact ⟨[], [], rfl, List.prefix_rfl, by simpa using pairFree_nil⟩
  | case2 a => exact ⟨[a], [], rfl, List.prefix_rfl, by simpa using pairFree_singleton a⟩
  | case3 a b l hpair ih =>
    obtain ⟨first, lines, heq, -, hfree⟩ := ih
    rw [splitPair, if_pos hpair, heq]
    exact ⟨[], _, rfl, List.nil_prefix, List.forall_mem_cons.mpr ⟨pairFree_nil, hfree⟩⟩
  | case4 a b l hpair ih =>
    obtain ⟨first, lines, heq, hfirst, hfree⟩ := ih
    rw [splitPair, if_neg hpair, heq]
    rw [List.forall_mem_cons] at hfree
    refine ⟨a :: first, lines, rfl, List.cons_prefix_cons.mpr ⟨rfl, hfirst⟩,
      List.forall_mem_cons.mpr ⟨?_, hfree.2⟩⟩
    cases first with
    | nil => exact pairFree_singleton a
    | cons c first =>
      obtain rfl := (List.cons_prefix_cons.mp hfirst).1
      exact pairFree_cons_cons_iff.mpr ⟨hpair, hfree.1⟩

theorem pairFree_of_mem_splitPair {line : List α} (h : line ∈ splitPair x y l) :
    PairFree x y line := by
  obtain ⟨first, lines, heq, -, hfree⟩ := splitPair_spec (x := x) (y := y) l
  exact hfree line (heq ▸ h)

end Split

/-! ## Blocks -/

/-- Lines, each followed by a separator, and an empty line. -/
def block (x y : α) : List (List α) → List α
  | [] => [x, y]
  | line :: lines => line ++ x :: y :: block x y lines

/-- No line is empty or contains the separator. -/
def Lines (x y : α) (lines : List (List α)) : Prop := ∀ line ∈ lines, line ≠ [] ∧ PairFree x y line

theorem splitPair_block [DecidableEq α] (hxy : x ≠ y) (h : Lines x y lines) :
    splitPair x y (block x y lines) = lines ++ [[], []] := by
  induction lines with
  | nil => simp [block, splitPair]
  | cons line lines ih =>
    obtain ⟨hline, hlines⟩ := List.forall_mem_cons.mp h
    rw [block, splitPair_append hxy hline.2, ih hlines, List.cons_append]

/-- The lines that are not empty, of a block that has been cut into lines. -/
theorem Lines.filter_append [DecidableEq α] (h : Lines x y lines) :
    (lines ++ [[], []]).filter (· ≠ []) = lines := by
  rw [List.filter_append, List.filter_eq_self.mpr fun line hline ↦ decide_eq_true (h line hline).1]
  simp

/-- The separator occurs behind a line or later. -/
theorem occurs_pair (hxy : x ≠ y) (h : PairFree x y l) (hi : Occurs (l ++ x :: y :: r) i [x, y]) :
    i = l.length ∨ l.length + 2 ≤ i := by
  rw [occurs_cons_iff, occurs_singleton_iff] at hi
  obtain ⟨hx, hy⟩ := hi
  by_contra hne
  rw [not_or, not_le] at hne
  rcases lt_trichotomy (i + 1) l.length with hlt | heq | hgt
  · -- inside the line
    rw [List.getElem?_append_left (by omega)] at hx hy
    exact h.not_occurs i (occurs_cons_iff.mpr ⟨hx, occurs_singleton_iff.mpr hy⟩)
  · -- its first element would be the last one of the line
    rw [heq, List.getElem?_append_right le_rfl, Nat.sub_self] at hy
    exact hxy (Option.some.inj hy)
  · -- its first element would be the second one of the separator
    obtain rfl : i = l.length + 1 := by omega
    rw [List.getElem?_append_right (by omega), Nat.add_sub_cancel_left] at hx
    exact hxy (Option.some.inj hx).symm

theorem suffix_block (h : lines ≠ []) : [x, y, x, y] <:+ block x y lines := by
  induction lines with
  | nil => exact absurd rfl h
  | cons line lines ih =>
    cases lines with
    | nil => exact List.suffix_append _ _
    | cons next lines =>
      have hsuffix : block x y (next :: lines) <:+ block x y (line :: next :: lines) :=
        ⟨line ++ [x, y], by simp [block]⟩
      exact (ih (List.cons_ne_nil _ _)).trans hsuffix

/-- Two separators follow each other at the end of a block only. -/
theorem eq_of_occurs_block (hxy : x ≠ y) (h : Lines x y lines)
    (hi : Occurs (block x y lines) i [x, y, x, y]) : i + 4 = (block x y lines).length := by
  induction lines generalizing i with
  | nil =>
    have hlength := hi.length_le (List.cons_ne_nil _ _)
    simp only [block, List.length_cons, List.length_nil] at hlength
    omega
  | cons line lines ih =>
    obtain ⟨hline, hlines⟩ := List.forall_mem_cons.mp h
    rw [block] at hi ⊢
    have hsplit : line ++ x :: y :: block x y lines = (line ++ [x, y]) ++ block x y lines := by
      simp
    have hlength : (line ++ [x, y]).length = line.length + 2 := by simp
    obtain ⟨hfirst, hsecond⟩ := occurs_append_iff (a := [x, y]) (b := [x, y]) |>.mp hi
    rcases occurs_pair hxy hline.2 hfirst with rfl | hlater
    · rw [hsplit, List.length_cons, List.length_singleton, ← hlength,
        ← Nat.add_zero (line ++ [x, y]).length, occurs_append_right_iff] at hsecond
      cases lines with
      | nil => simp [block]
      | cons next lines =>
        -- the next line is not empty, so no separator stands where it begins
        obtain ⟨hnext, -⟩ := List.forall_mem_cons.mp hlines
        have hpos := List.length_pos_iff.mpr hnext.1
        rcases occurs_pair hxy hnext.2 hsecond with heq | hle
        · omega
        · omega
    · obtain ⟨j, rfl⟩ := Nat.exists_eq_add_of_le hlater
      rw [hsplit, ← hlength, occurs_append_right_iff] at hi
      have hend := ih hlines hi
      rw [hsplit, List.length_append, hlength]
      omega

theorem occurs_block_iff (hxy : x ≠ y) (h : Lines x y lines) (hne : lines ≠ []) :
    Occurs (block x y lines) i [x, y, x, y] ↔ i + 4 = (block x y lines).length := by
  refine ⟨eq_of_occurs_block hxy h, fun hi ↦ ?_⟩
  obtain ⟨init, hinit⟩ := suffix_block (x := x) (y := y) hne
  have hlength : init.length = i := by
    rw [← hinit, List.length_append] at hi
    exact (Nat.add_right_cancel hi).symm
  rw [← hinit, Occurs, ← hlength, List.drop_left]

end Codec
