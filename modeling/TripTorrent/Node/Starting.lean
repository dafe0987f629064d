import TripTorrent.Node.Control
import TripTorrent.Node.Orderly

/-!
# Starting a download

`start_fetch` inserts the row of the transfer before the last calls that can fail: reading the row
back, making the directory and setting the status. An error of one of them is returned to the
caller, and the row stays behind as running. It is in the way of every later `start_fetch` for the
same content.

Here a request runs from its first step to its last one while all other threads stand still, in a
state that any run may have reached. Each call to the store or the file system fails or not as
`Faults` says.
-/

namespace TripTorrent

open Std (ExtTreeMap)
open Transition

/-- The calls of `start_fetch` that fail, with the text of the error. -/
structure Faults where
  contentExists : Option String
  createTransfer : Option String
  getTransfer : Option String
  createDirAll : Option String
  updateTransfer : Option String

namespace Faults

def empty : Faults := ⟨none, none, none, none, none⟩

def on (faults : Faults) : Task → Option String
  | .contentExists .. => faults.contentExists
  | .createTransfer .. => faults.createTransfer
  | .getTransfer _ => faults.getTransfer
  | .createDirAll .. => faults.createDirAll
  | .updateTransfer _ => faults.updateTransfer
  | _ => none

/-- A call fails that is made after the row has been inserted. -/
def late (faults : Faults) : Bool :=
  faults.getTransfer.isSome || (faults.createDirAll.isSome || faults.updateTransfer.isSome)

end Faults

namespace NodeRuntime

section Definitions

variable (faults : Faults)

/-- Thread `i` takes up to `n` steps, as long as it is a request. -/
def drive (i : ℕ) : ℕ → NodeRuntime → NodeRuntime
  | 0, s => s
  | n + 1, s =>
    match s.threads[i]? with
    | some (.request task) => drive i n (s.move i (s.stepTask (faults.on task) task))
    | _ => s

/-- A call of `start_fetch`, which has eight steps. -/
def startFetch (s : NodeRuntime) (contentId : ContentId) (share : Bool) : NodeRuntime :=
  (s.call (.startFetch contentId share)).drive faults s.threads.length 8

/-- What `start_fetch` answers. -/
def answer (s : NodeRuntime) (contentId : ContentId) (share : Bool) :
    Option (Except NodeError NodeReply) :=
  match (s.startFetch faults contentId share).threads[s.threads.length]? with
  | some (.finished result) => some result
  | _ => none

/-- `start_fetch` comes to insert a row. -/
def Admits (s : NodeRuntime) (contentId : ContentId) : Prop :=
  s.config.bootstrap.isSome ∧ faults.contentExists = none ∧
    s.sharing.library.contentExists contentId.toString = .ok false ∧
    s.activeDownloads < s.config.maxConcurrentTransfers ∧ faults.createTransfer = none ∧
    ¬s.transfers.hasLive contentId.toString

/-- No live row has been added, and none that is in the way of the content. -/
def Untouched (s t : NodeRuntime) (contentId : ContentId) : Prop :=
  (∀ (id : ℕ) (row : TransferRecord), t.transfers.rows[id]? = some row → row.status.isLive →
      ∃ old, s.transfers.rows[id]? = some old) ∧
    (t.transfers.hasLive contentId.toString → s.transfers.hasLive contentId.toString)

end Definitions

variable {b : Backend} {faults : Faults} {s t : NodeRuntime} {i n : ℕ} {task task' : Task}
  {contentId : ContentId} {share : Bool}

/-! ## Runs of one request -/

theorem drive_of_request (hi : s.threads[i]? = some (.request task)) :
    s.drive faults i (n + 1) = (s.move i (s.stepTask (faults.on task) task)).drive faults i n := by
  rw [drive, hi]

theorem drive_of_finished {result : Except NodeError NodeReply}
    (hi : s.threads[i]? = some (.finished result)) : s.drive faults i n = s := by
  rcases n with _ | n
  · rfl
  · rw [drive, hi]

/-- Driving a thread is a run of the node. -/
theorem reflTransGen_drive (b : Backend) (n : ℕ) (s : NodeRuntime) :
    Relation.ReflTransGen (Step (Node.next b)) (.up s) (.up (s.drive faults i n)) := by
  induction n generalizing s with
  | zero => exact .refl
  | succ n ih =>
    rw [drive]
    split
    · rename_i task hi
      refine .head ⟨.advance i (faults.on task), ?_⟩ (ih _)
      rw [Node.next, advance, hi]
      rfl
    · exact .refl

theorem reflTransGen_startFetch (b : Backend) (hserving : s.serving) :
    Relation.ReflTransGen (Step (Node.next b)) (.up s)
      (.up (s.startFetch faults contentId share)) :=
  .head ⟨.call (.startFetch contentId share), if_pos hserving⟩ (reflTransGen_drive b 8 _)

/-- The request comes to its end with the result, and leaves the table. -/
def Ends (faults : Faults) (i n : ℕ) (s : NodeRuntime) (result : Except NodeError NodeReply)
    (transfers : Transfers) : Prop :=
  (s.drive faults i n).threads[i]? = some (.finished result) ∧
    (s.drive faults i n).transfers = transfers

/-- The last step. -/
theorem ends_last {result : Except NodeError NodeReply} (hi : s.threads[i]? = some (.request task))
    (hstep : (s.stepTask (faults.on task) task).thread = .finished result) :
    Ends faults i (n + 1) s result (s.stepTask (faults.on task) task).runtime.transfers := by
  have hfinished : (s.move i (s.stepTask (faults.on task) task)).threads[i]? =
      some (.finished result) := hstep ▸ getElem?_advance_self hi
  rw [Ends, drive_of_request hi, drive_of_finished hfinished]
  exact ⟨hfinished, rfl⟩

/-- A step after which the request goes on. -/
theorem ends_goOn {result : Except NodeError NodeReply} {transfers : Transfers}
    (hi : s.threads[i]? = some (.request task))
    (hstep : s.stepTask (faults.on task) task = t.goOn task')
    (h : (s.move i (t.goOn task')).threads[i]? = some (.request task') →
      Ends faults i n (s.move i (t.goOn task')) result transfers) :
    Ends faults i (n + 1) s result transfers := by
  rw [Ends, drive_of_request hi, hstep]
  exact h (getElem?_advance_self hi)

theorem ends_refuse {error : NodeError} (hi : s.threads[i]? = some (.request task))
    (hstep : s.stepTask (faults.on task) task = s.refuse error) :
    Ends faults i (n + 1) s (.error error) s.transfers := by
  have hthread : (s.stepTask (faults.on task) task).thread = .finished (.error error) := by
    rw [hstep]
    rfl
  have hlast := ends_last (n := n) hi hthread
  rwa [hstep] at hlast

/-! ## After the row has been inserted -/

/-- The request fails and leaves the table as given, or it succeeds. -/
def Outcome (faults : Faults) (i n : ℕ) (s : NodeRuntime) (fails : Bool) (transfers : Transfers) :
    Prop :=
  fails ∧ (∃ error, Ends faults i n s (.error error) transfers) ∨
    ¬fails ∧ ∃ reply after, Ends faults i n s (.ok reply) after

/-- A call that may fail, and what comes after it. -/
theorem outcome_attempt {fails : Bool} (hi : s.threads[i]? = some (.request task))
    (hstep : s.stepTask (faults.on task) task = s.attempt (faults.on task) (t.goOn task'))
    (h : (s.move i (t.goOn task')).threads[i]? = some (.request task') →
      Outcome faults i n (s.move i (t.goOn task')) fails s.transfers) :
    Outcome faults i (n + 1) s ((faults.on task).isSome || fails) s.transfers := by
  rcases hfault : faults.on task with _ | text
  · rw [hfault] at hstep
    have hgoOn : s.stepTask (faults.on task) task = t.goOn task' := by rw [hfault, hstep]; rfl
    rcases h (getElem?_advance_self hi) with ⟨hfails, error, hends⟩ | ⟨hfails, reply, after, hends⟩
    · exact .inl ⟨hfails, error, ends_goOn hi hgoOn fun _ ↦ hends⟩
    · exact .inr ⟨hfails, reply, after, ends_goOn hi hgoOn fun _ ↦ hends⟩
  · exact .inl ⟨rfl, .fault text, ends_refuse hi (by rw [hstep, hfault]; rfl)⟩

theorem outcome_insertControl {transfer : TransferRecord} {transfers : Transfers}
    (hi : s.threads[i]? = some (.request (.insertControl ⟨.startFetch, transfer, contentId⟩)))
    (hfree : s.downloads[transfer.id]? = none) :
    Outcome faults i 2 s false transfers := by
  have hstep : s.stepTask none (.insertControl ⟨.startFetch, transfer, contentId⟩) =
      ({ s.setControl s.controlCount .running with
        controlCount := s.controlCount + 1
        downloads := s.downloads.insert transfer.id s.controlCount } : NodeRuntime).goOn
          (.launch ⟨.startFetch, transfer, contentId⟩ s.controlCount) := by
    rw [stepTask]
    dsimp only
    rw [hfree]
    rfl
  exact .inr ⟨Bool.false_ne_true, .started transfer.id, _,
    ends_goOn hi hstep fun hi ↦ ends_last hi rfl⟩

theorem outcome_createDirAll {transfer : TransferRecord}
    (hi : s.threads[i]? = some (.request (.createDirAll .startFetch transfer)))
    (hcontent : transfer.contentId = contentId.toString) (hbootstrap : s.config.bootstrap.isSome)
    (hfree : s.downloads[transfer.id]? = none) :
    Outcome faults i 4 s (faults.createDirAll.isSome || faults.updateTransfer.isSome)
      s.transfers := by
  have hsome : ¬s.config.bootstrap.isNone := by
    rw [Option.isNone_iff_eq_none]
    exact Option.isSome_iff_ne_none.mp hbootstrap
  have hstep (fault : Option String) : s.stepTask fault (.createDirAll .startFetch transfer) =
      s.attempt fault (s.goOn (.updateTransfer ⟨.startFetch, transfer, contentId⟩)) := by
    rw [stepTask, if_neg hsome, hcontent, ContentId.fromStr_toString]
  refine outcome_attempt hi (hstep _) fun hi ↦ ?_
  have hupdate : Outcome faults i 3 (s.move i (s.goOn (.updateTransfer
      ⟨.startFetch, transfer, contentId⟩))) (faults.updateTransfer.isSome || false) s.transfers :=
    outcome_attempt hi rfl fun hi ↦ outcome_insertControl hi hfree
  rwa [Bool.or_false] at hupdate

/-- From the row on the request succeeds, unless a call fails; then the row is left as it is. -/
theorem outcome_getTransfer {id : ℕ} {transfer : TransferRecord}
    (hi : s.threads[i]? = some (.request (.getTransfer id)))
    (hrow : s.transfers.rows[id]? = some transfer) (hid : transfer.id = id)
    (hcontent : transfer.contentId = contentId.toString) (hbootstrap : s.config.bootstrap.isSome)
    (hfree : s.downloads[id]? = none) : Outcome faults i 5 s faults.late s.transfers := by
  have hstep (fault : Option String) : s.stepTask fault (.getTransfer id) =
      s.attempt fault (s.goOn (.createDirAll .startFetch transfer)) := by
    rw [stepTask, Transfers.getTransfer, hrow]
  subst hid
  exact outcome_attempt hi (hstep _) fun hi ↦ outcome_createDirAll hi hcontent hbootstrap hfree

/-! ## The whole call -/

/-- The row is inserted where nothing is in its way, and the request goes on from there. -/
theorem ends_createTransfer (faults : Faults)
    (hi : s.threads[i]? = some (.request (.createTransfer contentId share)))
    (hbootstrap : s.config.bootstrap.isSome) (hfree : s.downloads[s.transfers.lastId + 1]? = none) :
    ¬(faults.createTransfer = none ∧ ¬s.transfers.hasLive contentId.toString) ∧
        (∃ error, Ends faults i 6 s (.error error) s.transfers) ∨
      (faults.createTransfer = none ∧ ¬s.transfers.hasLive contentId.toString) ∧
        ∃ transfers, s.transfers.createTransfer contentId.toString share =
            some (transfers, s.transfers.lastId + 1) ∧
          Outcome faults i 6 s faults.late transfers := by
  rcases hfault : faults.createTransfer with _ | text
  swap
  · refine .inl ⟨fun h ↦ (by cases h.1), .fault text, ends_refuse hi ?_⟩
    rw [Faults.on, hfault]
    rfl
  rcases hcreate : s.transfers.createTransfer contentId.toString share with _ | ⟨transfers, id⟩
  · have hlive : s.transfers.hasLive contentId.toString := by
      rw [Transfers.createTransfer] at hcreate
      split_ifs at hcreate with hlive
      exact hlive
    refine .inl ⟨fun h ↦ h.2 hlive, .resumableExists contentId.toString, ends_refuse hi ?_⟩
    rw [Faults.on, hfault, stepTask, hcreate]
    rfl
  · obtain ⟨hlive, rfl, htransfers⟩ := Transfers.createTransfer_eq_some_iff.mp hcreate
    have hstep : s.stepTask (faults.on (.createTransfer contentId share))
        (.createTransfer contentId share) =
          ({ s with transfers } : NodeRuntime).goOn (.getTransfer (s.transfers.lastId + 1)) := by
      rw [Faults.on, hfault, stepTask, hcreate]
      rfl
    have hrow : transfers.rows[s.transfers.lastId + 1]? =
        some (.new (s.transfers.lastId + 1) contentId.toString share) := by
      rw [htransfers]
      exact ExtTreeMap.getElem?_insert_self
    refine .inr ⟨⟨rfl, hlive⟩, transfers, rfl, ?_⟩
    have houtcome : Outcome faults i 5 (s.move i (({ s with transfers } : NodeRuntime).goOn
        (.getTransfer (s.transfers.lastId + 1)))) faults.late transfers :=
      outcome_getTransfer (getElem?_advance_self hi) hrow rfl rfl hbootstrap hfree
    rcases houtcome with ⟨hlate, error, hends⟩ | ⟨hlate, reply, after, hends⟩
    · exact .inl ⟨hlate, error, ends_goOn hi hstep fun _ ↦ hends⟩
    · exact .inr ⟨hlate, reply, after, ends_goOn hi hstep fun _ ↦ hends⟩

/-- A call fails without having inserted a row, or it has inserted one and goes on from there. -/
theorem ends_contentExists (faults : Faults)
    (hi : s.threads[i]? = some (.request (.contentExists contentId share)))
    (hfree : s.downloads[s.transfers.lastId + 1]? = none) :
    ¬s.Admits faults contentId ∧ (∃ error, Ends faults i 8 s (.error error) s.transfers) ∨
      s.Admits faults contentId ∧
        ∃ transfers, s.transfers.createTransfer contentId.toString share =
            some (transfers, s.transfers.lastId + 1) ∧
          Outcome faults i 8 s faults.late transfers := by
  by_cases hbootstrap : s.config.bootstrap.isSome
  swap
  · refine .inl ⟨fun h ↦ hbootstrap h.1, .noBootstrap, ends_refuse hi ?_⟩
    rw [stepTask, if_pos (Option.not_isSome_iff_eq_none.mp hbootstrap ▸ rfl)]
  have hsome : ¬s.config.bootstrap.isNone := by
    rw [Option.isNone_iff_eq_none]
    exact Option.isSome_iff_ne_none.mp hbootstrap
  rcases hfault : faults.contentExists with _ | text
  swap
  · refine .inl ⟨fun h ↦ (by cases hfault.symm.trans h.2.1), .fault text, ends_refuse hi ?_⟩
    rw [stepTask, if_neg hsome, Faults.on, hfault]
    rfl
  rcases hexists : s.sharing.library.contentExists contentId.toString with error | _ | _
  · refine .inl ⟨fun h ↦ (by cases hexists.symm.trans h.2.2.1), .library error, ends_refuse hi ?_⟩
    rw [stepTask, if_neg hsome, Faults.on, hfault, hexists]
    rfl
  swap
  · refine .inl ⟨fun h ↦ (by cases hexists.symm.trans h.2.2.1), .alreadyStored, ends_refuse hi ?_⟩
    rw [stepTask, if_neg hsome, Faults.on, hfault, hexists]
    rfl
  have hfirst : s.stepTask (faults.on (.contentExists contentId share))
      (.contentExists contentId share) = s.goOn (.checkLimit contentId share) := by
    rw [stepTask, if_neg hsome, Faults.on, hfault, hexists]
    rfl
  by_cases hlimit : s.config.maxConcurrentTransfers ≤ s.activeDownloads
  · refine .inl ⟨fun h ↦ absurd h.2.2.2.1 (not_lt.mpr hlimit), .limitReached,
      ends_goOn hi hfirst fun hi ↦ ends_refuse hi (if_pos hlimit)⟩
  have hsecond : (s.move i (s.goOn (.checkLimit contentId share))).stepTask
      (faults.on (.checkLimit contentId share)) (.checkLimit contentId share) =
        (s.move i (s.goOn (.checkLimit contentId share))).goOn (.createTransfer contentId share) :=
    if_neg hlimit
  -- two steps lead to the insertion, and the table is as it was
  let u : NodeRuntime := (s.move i (s.goOn (.checkLimit contentId share))).move i
    ((s.move i (s.goOn (.checkLimit contentId share))).goOn (.createTransfer contentId share))
  have hreach {result : Except NodeError NodeReply} {transfers : Transfers}
      (h : Ends faults i 6 u result transfers) : Ends faults i 8 s result transfers :=
    ends_goOn hi hfirst fun hi ↦ ends_goOn hi hsecond fun _ ↦ h
  have hcheck : (s.move i (s.goOn (.checkLimit contentId share))).threads[i]? =
      some (.request (.checkLimit contentId share)) := getElem?_advance_self hi
  have hthread : u.threads[i]? = some (.request (.createTransfer contentId share)) :=
    getElem?_advance_self hcheck
  rcases ends_createTransfer faults hthread hbootstrap hfree with
    ⟨hnot, error, hends⟩ | ⟨hadmits, transfers, hcreate, houtcome⟩
  · exact .inl ⟨fun h ↦ hnot h.2.2.2.2, error, hreach hends⟩
  · refine .inr ⟨⟨hbootstrap, hfault, hexists, not_le.mp hlimit, hadmits⟩, transfers, hcreate, ?_⟩
    rcases houtcome with ⟨hlate, error, hends⟩ | ⟨hlate, reply, after, hends⟩
    · exact .inl ⟨hlate, error, hreach hends⟩
    · exact .inr ⟨hlate, reply, after, hreach hends⟩

/-- The outcome of a call in a state that a run has reached. -/
theorem startFetch_cases (faults : Faults) (contentId : ContentId) (share : Bool)
    (hs : s.Orderly) :
    ¬s.Admits faults contentId ∧
        (∃ error, s.answer faults contentId share = some (.error error)) ∧
        (s.startFetch faults contentId share).transfers = s.transfers ∨
      s.Admits faults contentId ∧ faults.late ∧
        (∃ error, s.answer faults contentId share = some (.error error)) ∧
        (s.startFetch faults contentId share).transfers.rows[s.transfers.lastId + 1]? =
          some (.new (s.transfers.lastId + 1) contentId.toString share) ∨
      s.Admits faults contentId ∧ ¬faults.late ∧
        ∃ reply, s.answer faults contentId share = some (.ok reply) := by
  have hfree : s.downloads[s.transfers.lastId + 1]? = none := by
    refine Option.eq_none_iff_forall_ne_some.mpr fun control hcontrol ↦ ?_
    exact Nat.not_succ_le_self _ (hs.entered _ control hcontrol)
  have hi : (s.call (.startFetch contentId share)).threads[s.threads.length]? =
      some (.request (.contentExists contentId share)) := by
    rw [call, enqueue, List.getElem?_append_right le_rfl, Nat.sub_self]
    rfl
  have hanswer {result : Except NodeError NodeReply} (h : (s.startFetch faults contentId
      share).threads[s.threads.length]? = some (.finished result)) :
      s.answer faults contentId share = some result := by
    rw [answer, h]
  rcases ends_contentExists faults hi hfree with
    ⟨hnot, error, hthread, htransfers⟩ | ⟨hadmits, transfers, hcreate, houtcome⟩
  · exact .inl ⟨hnot, ⟨error, hanswer hthread⟩, htransfers⟩
  rcases houtcome with ⟨hlate, error, hthread, htransfers⟩ | ⟨hlate, reply, after, hthread, -⟩
  · refine .inr (.inl ⟨hadmits, hlate, ⟨error, hanswer hthread⟩, ?_⟩)
    obtain ⟨-, -, hinserted⟩ := Transfers.createTransfer_eq_some_iff.mp hcreate
    rw [startFetch, htransfers, hinserted]
    exact ExtTreeMap.getElem?_insert_self
  · exact .inr (.inr ⟨hadmits, hlate, reply, hanswer hthread⟩)

/-- Eight steps are enough for an answer. -/
theorem isSome_answer (hs : s.Orderly) : (s.answer faults contentId share).isSome := by
  rcases startFetch_cases faults contentId share hs with
    ⟨-, ⟨error, h⟩, -⟩ | ⟨-, -, ⟨error, h⟩, -⟩ | ⟨-, -, reply, h⟩
  · rw [h]
    rfl
  · rw [h]
    rfl
  · rw [h]
    rfl

/-- **What a failed start leaves behind.** A call of `start_fetch` that returns an error leaves no
live row just when it has not come to insert one, or none of the calls after that fails. -/
theorem startFetch_untouched_iff
    (hrun : Relation.ReflTransGen (Step (Node.next b)) Node.new (.up s)) {error : NodeError}
    (hanswer : s.answer faults contentId share = some (.error error)) :
    s.Untouched (s.startFetch faults contentId share) contentId ↔
      ¬(s.Admits faults contentId ∧ faults.late) := by
  have hs : s.Orderly := Node.orderly_of_run hrun
  rcases startFetch_cases faults contentId share hs with
    ⟨hnot, -, htransfers⟩ | ⟨hadmits, hlate, -, hrow⟩ | ⟨-, -, reply, hok⟩
  · refine iff_of_true ⟨fun id row hrow _ ↦ ⟨row, ?_⟩, fun hlive ↦ ?_⟩ fun h ↦ hnot h.1
    · rwa [htransfers] at hrow
    · rwa [htransfers] at hlive
  · refine iff_of_false (fun h ↦ ?_) (not_not.mpr ⟨hadmits, hlate⟩)
    obtain ⟨old, hold⟩ := h.1 _ _ hrow rfl
    exact Nat.not_succ_le_self _ (hs.numbered.le_lastId _ old hold)
  · cases hanswer.symm.trans hok

/-! ### A node that has just been started -/

/-- A call whose insertion fails leaves nothing. -/
theorem failed_insertion_untouched :
    ∃ s, Relation.ReflTransGen (Step (Node.next Node.sampleBackend)) Node.new (.up s) ∧
      s.answer { Faults.empty with createTransfer := some "disk I/O error" }
        ⟨Vectors.payloadDigest⟩ true = some (.error (.fault "disk I/O error")) ∧
      s.Untouched (s.startFetch { Faults.empty with createTransfer := some "disk I/O error" }
        ⟨Vectors.payloadDigest⟩ true) ⟨Vectors.payloadDigest⟩ := by
  have hrun : ((run (Node.next Node.sampleBackend) Node.new [.create Node.sampleConfig]).bind
      Node.runtime?).any fun s ↦
        s.answer { Faults.empty with createTransfer := some "disk I/O error" }
          ⟨Vectors.payloadDigest⟩ true = some (.error (.fault "disk I/O error")) := by
    decide +kernel
  obtain ⟨s, hs, hobserved⟩ := Node.exists_runtime hrun
  have hanswer := of_decide_eq_true hobserved
  have hrun := reflTransGen_of_run hs
  exact ⟨s, hrun, hanswer,
    (startFetch_untouched_iff hrun hanswer).mpr fun h ↦ Bool.false_ne_true h.2⟩

/-- The directory cannot be made: the call fails, its row stays behind as running, and the next call
for the same content is refused because of it. -/
theorem failed_directory_leaves_row :
    ((run (Node.next Node.sampleBackend) Node.new [.create Node.sampleConfig]).bind
        Node.runtime?).map (fun s ↦
      let faults := { Faults.empty with createDirAll := some "No space left on device" }
      let t := s.startFetch faults ⟨Vectors.payloadDigest⟩ true
      (s.transfers.rows[1]?.isSome, s.answer faults ⟨Vectors.payloadDigest⟩ true,
        t.transfers.rows[1]?.map TransferRecord.status,
        t.answer Faults.empty ⟨Vectors.payloadDigest⟩ true)) =
      some (false, some (.error (.fault "No space left on device")), some .running,
        some (.error (.resumableExists (ContentId.mk Vectors.payloadDigest).toString))) := by
  decide +kernel

end NodeRuntime

end TripTorrent
