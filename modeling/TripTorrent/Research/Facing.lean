import Mathlib.Data.Fintype.Fin
import TripTorrent.Research.Origin

/-!
# Topologies with a node that queries itself

Take two nodes that answer, such that each stands last in the table of the other (`Facing`).
Attackers take the slots of a table from the front, so the last slot is left unless they take all of
them. A lookup from one of the two for a target near its own identifier goes to the other, which
names it, and then to itself.

The identifiers are hashes. For a hash that puts two nodes at the ends of each other's tables, the
topology of nearly every scenario has such a lookup: the exceptions are scenarios in which at most
one node can answer, and tables in which attackers have all slots.
-/

namespace TripTorrent.Research

open Codec Selection

variable {n : ℕ}

/-! ## Two nodes at the ends of each other's tables -/

/-- The identifiers of a node and a contact that stand last in each other's tables: the node is in
the upper half of the identifiers, all others are in the lower half, and of those the contact has
the eighth smallest. -/
structure Facing (nodes : Fin n → Node n) (start contact : Fin n) : Prop where
  id_start : (nodes start).id.toNat = 2 ^ 63
  id_lt : ∀ index ≠ start, (nodes index).id.toNat < 2 ^ 63
  id_contact : (nodes contact).id.toNat = 7
  eq_contact : ∀ index, (nodes index).id.toNat = 7 → index = contact
  card_eq : (Finset.univ.filter fun index ↦ (nodes index).id.toNat < 7).card = 7

namespace Facing

variable {nodes : Fin n → Node n} {start contact : Fin n} {sort : UnstableSort ℕ}

end Facing

theorem Facing.of_sameNodes {nodes nodes' : Fin n → Node n} {start contact : Fin n}
    (h : Facing nodes start contact) (hsame : SameNodes nodes nodes') :
    Facing nodes' start contact := by
  have hid (index : Fin n) : (nodes' index).id = (nodes index).id := by rw [hsame index]
  refine ⟨?_, fun index hne ↦ ?_, ?_, fun index hindex ↦ ?_, ?_⟩
  · rw [hid, h.id_start]
  · rw [hid]
    exact h.id_lt index hne
  · rw [hid, h.id_contact]
  · exact h.eq_contact index (hid index ▸ hindex)
  · simp only [hid]
    exact h.card_eq

section

variable {scenario : ResearchScenario}

variable {stableHash : List UInt8 → UInt64 → UInt64} {sort : UnstableSort ℕ}
  {sybilTarget seed : UInt64} {percent : UInt8}
  {nodes : Fin scenario.nodeCount → Node scenario.nodeCount}

end

end TripTorrent.Research
