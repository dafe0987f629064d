import TripTorrent.Node.Control

/-!
# The life of a transfer

Once a row says completed or failed no thread has a claim to it. The statements that write a row
without looking at its status are only executed by the thread it belongs to, or for a transfer that
is entered in `downloads`; the others leave rows alone that are not running or pausing. So in runs
without disputes such a row is never changed again.

When every request is executed as a whole, nothing happens between the steps of a request but these
steps. There are no disputes then.
-/

namespace TripTorrent

open Std (ExtTreeMap)
open Storage.Keyed
open Transition

namespace NodeRuntime

variable {s t : NodeRuntime} {i id : ℕ} {θ θ' : Thread} {new : Option Thread}
  {row : TransferRecord}

theorem getElem?_alter_of_live {f : TransferRecord → TransferRecord} {k : ℕ}
    {live : TransferRecord} (hlive : s.transfers.rows[k]? = some live)
    (hstatus : live.status.isLive) (hrow : s.transfers.rows[id]? = some row)
    (hover : ¬row.status.isLive) : (s.transfers.alter k f).rows[id]? = some row := by
  rw [Transfers.getElem?_alter, if_neg, hrow]
  rintro rfl
  obtain rfl := Option.some.inj (hrow.symm.trans hlive)
  exact hover hstatus

namespace Owned

/-- No step of a thread touches the row of a transfer that is over. -/
theorem row_of_effect (h : s.Owned) (hi : s.threads[i]? = some θ) (heffect : Effect s t θ θ' new)
    (hrow : s.transfers.rows[id]? = some row) (hover : ¬row.status.isLive) :
    t.transfers.rows[id]? = some row := by
  have hmem : θ ∈ s.threads := List.mem_iff_getElem?.mpr ⟨i, hi⟩
  rcases heffect with ⟨ht, -, -, -⟩ | ⟨hcreate, -, -⟩ | ⟨-, -, -, ht, -, -⟩ | ⟨-, ht, -, -⟩ |
    ⟨-, ht, -, -⟩ | ⟨-, ht, -, -⟩ | ⟨ht, -, -⟩ | ⟨ht, -, -⟩ | ⟨hentered, ht, -, -⟩ | ⟨ht, -, -⟩ |
    ⟨-, ht, -, -⟩ | ⟨hclaims, -, -, -, -, ht, -, -⟩
  · rw [ht, hrow]
  · have hfresh := h.numbered.getElem?_createTransfer hcreate
    rw [(Transfers.createTransfer_eq_some_iff.mp hcreate).2.2]
    refine getElem?_insert.trans ?_
    rw [if_neg, hrow]
    rintro rfl
    cases hfresh.symm.trans hrow
  · rw [ht, hrow]
  · obtain ⟨live, hlive, hstatus, -⟩ := h.claimed _ hmem _ List.mem_cons_self
    exact ht ▸ getElem?_alter_of_live hlive hstatus hrow hover
  · rw [ht, hrow]
  · rw [ht, hrow]
  · rw [ht, hrow]
  · rw [ht, hrow]
  · obtain ⟨live, hlive, hstatus, -⟩ := h.live_of_entered hentered
    exact ht ▸ getElem?_alter_of_live hlive hstatus hrow hover
  · rw [ht, Transfers.getElem?_markRunningInterrupted, hrow, Option.map_some,
      TransferRecord.interrupt_of_not_live hover]
  · rw [ht, hrow]
  · obtain ⟨live, hlive, hstatus, -⟩ := h.claimed _ hmem _ (hclaims ▸ List.mem_singleton_self _)
    exact ht ▸ getElem?_alter_of_live hlive hstatus hrow hover

theorem row_of_change {a : NodeAction} (h : s.Owned) (hchange : Change s a t)
    (hrow : s.transfers.rows[id]? = some row) (hover : ¬row.status.isLive) :
    t.transfers.rows[id]? = some row := by
  rcases hchange with ⟨-, hi, heffect, -⟩ | ⟨-, -, ht, -, -⟩ | ⟨ht, -, -, -⟩ | ⟨ht, -, -, -⟩
  · exact h.row_of_effect hi heffect hrow hover
  · rw [ht, hrow]
  · rename_i k progress rate
    rcases Transfers.getElem?_updateProgress (s := s.transfers) k progress rate id with heq | heq
    · rw [ht, heq, hrow]
    · rw [ht, heq, hrow, Option.map_some, TransferRecord.progress_of_not_live hover]
  · rw [ht, hrow]

end Owned

end NodeRuntime

namespace Node

variable {b : Backend} {s t : NodeRuntime} {a : NodeAction} {node node' : Node}

/-- In a run without disputes, no step changes the row of a transfer that is over. -/
theorem row_of_undisputed {id : ℕ} {row : TransferRecord}
    (hrun : Relation.ReflTransGen (StepIf b Undisputed) new node)
    (hstep : StepIf b Undisputed node node') (hrow : node.transfers.rows[id]? = some row)
    (hover : ¬row.status.isLive) : node'.transfers.rows[id]? = some row := by
  have howned := owned_of_run hrun
  obtain ⟨a, -, hnext⟩ := hstep
  rcases node with ⟨library, transfers⟩ | s
  · rcases next_down_cases hnext with ⟨library', rfl⟩ | ⟨config, sharing, -, -, rfl⟩
    · exact hrow
    · change (NodeRuntime.recover config sharing transfers).transfers.rows[id]? = some row
      change transfers.rows[id]? = some row at hrow
      rw [(NodeRuntime.recover_cases config sharing transfers).1,
        Transfers.getElem?_markRunningInterrupted, hrow, Option.map_some,
        TransferRecord.interrupt_of_not_live hover]
  · have howned : s.Owned := howned
    rcases node' with ⟨library, transfers⟩ | t
    · obtain ⟨-, rfl⟩ := next_up_down hnext
      exact hrow
    · exact howned.row_of_change (NodeRuntime.change_of_next howned.numbered hnext) hrow hover

/-! ## Requests executed as a whole -/

def isExit : NodeAction → Bool
  | .exit => true
  | _ => false

/-- While a request is under way only it takes steps, until the node exits. -/
def Atomic : Node → NodeAction → Prop
  | .up s, a => ∀ (i : ℕ) (task : Task), s.threads[i]? = some (.request task) →
      a.moves = some i ∨ isExit a
  | .down .., _ => True

def atomic (s : NodeRuntime) (a : NodeAction) : Bool :=
  s.threads.zipIdx.all fun x ↦ !x.1.isRequest || a.moves == some x.2 || isExit a

theorem atomic_iff : atomic s a ↔ Atomic (.up s) a := by
  rw [atomic, List.all_eq_true]
  constructor
  · intro h i task hi
    have hall := h (.request task, i) (List.mem_zipIdx_iff_getElem?.mpr hi)
    simpa [Thread.isRequest] using hall
  · rintro h ⟨θ, i⟩ hi
    rw [List.mem_zipIdx_iff_getElem?] at hi
    rcases θ with task | result | worker | _
    · simpa [Thread.isRequest] using h i task hi
    · rfl
    · rfl
    · rfl

instance decidableAtomic (node : Node) (a : NodeAction) : Decidable (Atomic node a) :=
  match node with
  | .down .. => .isTrue trivial
  | .up _ => decidable_of_iff _ atomic_iff

theorem Atomic.undisputed (h : Atomic node a) : Undisputed node a := by
  rcases node with ⟨library, transfers⟩ | s
  · trivial
  intro i id row hmoves hi hrow hpaused task htask hid
  obtain ⟨j, hj⟩ := List.mem_iff_getElem?.mp htask
  rcases h j task hj with hmoves' | hexit
  · obtain rfl := Option.some.inj (hmoves.symm.trans hmoves')
    obtain rfl := Thread.request.inj (Option.some.inj (hi.symm.trans hj))
    cases hid
  · rcases a <;> first | exact absurd hexit Bool.false_ne_true | cases hmoves

theorem stepIf_undisputed (h : StepIf b Atomic node node') : StepIf b Undisputed node node' := by
  obtain ⟨a, ha, hnext⟩ := h
  exact ⟨a, ha.undisputed, hnext⟩

theorem run_undisputed (h : Relation.ReflTransGen (StepIf b Atomic) new node) :
    Relation.ReflTransGen (StepIf b Undisputed) new node :=
  Relation.ReflTransGen.mono (fun _ _ ↦ stepIf_undisputed) _ _ h

/-- **The transfer state machine.** When requests are executed as a whole, in any order with the
events of the workers and with exits and restarts, at most one transfer of any content is live, and
a row that says completed or failed stays as it is from then on. -/
theorem transfers_of_atomic (hrun : Relation.ReflTransGen (StepIf b Atomic) new node) :
    node.transfers.OnePerContent ∧
      ∀ node', Relation.ReflTransGen (StepIf b Atomic) node node' →
        ∀ (id : ℕ) (row : TransferRecord), node.transfers.rows[id]? = some row →
          (row.status = .completed ∨ row.status = .failed) →
          node'.transfers.rows[id]? = some row := by
  constructor
  · have howned := owned_of_run (run_undisputed hrun)
    rcases node with ⟨library, transfers⟩ | s
    · exact howned.2
    · exact NodeRuntime.Owned.one howned
  · intro node' hlater id row hrow hover
    have hover : ¬row.status.isLive := by
      rcases hover with hover | hover <;> rw [hover] <;> exact Bool.false_ne_true
    induction hlater with
    | refl => exact hrow
    | tail hbefore hlast ih =>
      exact row_of_undisputed (run_undisputed (hrun.trans hbefore)) (stepIf_undisputed hlast) ih
        hover

/-- A download fails, the node is restarted, and the same content is fetched again: the row of the
failed download is what it was. -/
theorem failed_transfer_after_restart :
    ∃ node node' row, Relation.ReflTransGen (StepIf sampleBackend Atomic) new node ∧
      Relation.ReflTransGen (StepIf sampleBackend Atomic) node node' ∧
      node.transfers.rows[1]? = some row ∧ row.status = .failed ∧
      node.transfers.OnePerContent ∧ node'.transfers.rows[1]? = some row ∧
      node'.transfers.rows[2]?.isSome := by
  let failing : List NodeAction :=
    startActions ++ [NodeAction.fetched 1 (.error "no provider")] ++ steps 1 4
  let again : List NodeAction := .exit :: startActions
  have hrun : (run (restrict Atomic (next sampleBackend)) new failing).map
      (fun node ↦ (node.transfers.rows[1]?.map TransferRecord.status,
        (run (restrict Atomic (next sampleBackend)) node again).map
          fun node ↦ node.transfers.rows[2]?.isSome)) = some (some .failed, some true) := by
    decide +kernel
  obtain ⟨node, hnode, hobserved⟩ := Option.map_eq_some_iff.mp hrun
  obtain ⟨hstatus, hagain⟩ := Prod.mk.inj hobserved
  obtain ⟨row, hrow, hfailed⟩ := Option.map_eq_some_iff.mp hstatus
  obtain ⟨node', hnode', hsecond⟩ := Option.map_eq_some_iff.mp hagain
  have hfirst := reflTransGen_of_run_restrict hnode
  have hlater := reflTransGen_of_run_restrict hnode'
  obtain ⟨hone, hrows⟩ := transfers_of_atomic hfirst
  exact ⟨node, node', row, hfirst, hlater, hrow, hfailed, hone,
    hrows node' hlater 1 row hrow (.inr hfailed), hsecond⟩

end Node

end TripTorrent
