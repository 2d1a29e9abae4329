import MagicContext.Kernel.Backlog
import MagicContext.Lib.Feed

/-!
# The history of a store

The commit log, the change events and the outbox of a store are a feed: a commit that applies its
operation adds its changes, pruning makes the outbox forget, and nothing else that the writer does
is seen in it.

## What is here

* `Db.feed` — the feed of a store.
* `feed_upkeep`, `feed_commit` — a transaction is one step of it.
* `records_of_run` — the feed after a run.
* `positionLag_of_run` — what its readers have left.
-/

namespace MagicContext.Kernel

def ChangeEventRow.entry (e : ChangeEventRow) : Feed.Entry ChangePayload :=
  ⟨e.commitSeq, e.ordinal, e.payload⟩

/-- The entry that a row queues, and its position. -/
def OutboxRow.place (r : OutboxRow) : Feed.Entry ChangePayload × Nat :=
  (⟨r.commitSeq, r.ordinal, r.payload⟩, r.outboxPosition)

def Db.feed (db : Db) : Feed ChangePayload where
  commits := db.commitLog.rows.map CommitRow.commitSeq
  commitSequence := db.commitSequence
  entries := db.changeEvent.rows.map ChangeEventRow.entry
  queued := db.outbox.rows.map OutboxRow.place
  positions := db.outboxSequence

variable {sys : Platform} {db db' : Db}

/-! ## A transaction is a step -/

/-- The changes that a commit adds, if it applies its operation. -/
def Committed.batch (sys : Platform) (c : Committed) : Option (List ChangePayload) :=
  match c.result sys with
  | .error _ => none
  | .ok receipt =>
    if receipt.replayed then none
    else some ((c.call.changes sys c.before).map PendingChange.payload)

theorem queued_published (time : Int) (p : OutboxRow → Bool) (t : Table OutboxRow.outboxPosition) :
    (t.update p (fun r => { r with publishedAt := some time }) fun _ => rfl).rows.map
        OutboxRow.place = t.rows.map OutboxRow.place := by
  rw [Table.update, List.map_map]
  refine List.map_congr_left fun r _ => ?_
  rw [Function.comp_apply]
  split <;> rfl

theorem feed_pruneOutbox (db : Db) : db.feed.Step none (pruneOutbox db).feed := by
  rw [pruneOutbox]
  split
  · exact .keep
  · rename_i horizon _
    have hqueued : (db.outbox.delete fun r => decide (r.commitSeq ≤ horizon)).rows.map
        OutboxRow.place = (db.feed.prune horizon).queued := by
      change (db.outbox.rows.filter _).map _ = (db.outbox.rows.map _).filter _
      rw [List.filter_map]
      refine congrArg _ (List.filter_congr fun r _ => ?_)
      rw [← decide_not]
      exact decide_eq_decide.mpr Nat.not_le
    exact (Feed.Step.prune horizon).of_eq (Feed.ext rfl rfl rfl hqueued rfl)

theorem feed_upkeep (u : Upkeep) (db : Db) : db.feed.Step none (u.run sys db).feed := by
  cases u with
  | rebuildAlignment leaseEpoch answers =>
    exact Feed.Step.keep.of_eq
      (congrArg Db.feed (sameButProjection_repair sys leaseEpoch db answers) :)
  | markOutboxPublishedThrough position publishedAt =>
    exact Feed.Step.keep.of_eq (Feed.ext rfl rfl rfl (queued_published publishedAt _ db.outbox) rfl)
  | acknowledgeOutbox =>
    rw [Upkeep.run, acknowledgeOutbox]
    split <;> exact .keep
  | pruneOutbox => exact feed_pruneOutbox db
  | stampWriterFence | mergeReplayedClassification | reserve | stage => exact .keep

section Commit
variable (seq : Nat) (changes : List PendingChange)

theorem entries_eventsFrom (transactionId : String) :
    (eventsFrom transactionId seq 0 changes).map ChangeEventRow.entry =
      Feed.entriesOf seq (changes.map PendingChange.payload) := by
  rw [eventsFrom, Feed.entriesOf, List.zipIdx_map, List.map_map, List.map_map]
  rfl

/-- The outbox rows of a commit queue its entries at the next positions. -/
theorem queued_outboxFrom (recordedAt : Int) (base : Nat) :
    (outboxFrom recordedAt seq base 0 changes).map OutboxRow.place =
      (Feed.entriesOf seq (changes.map PendingChange.payload)).zipIdx (base + 1) := by
  refine List.ext_getElem ?_ fun i h h' => ?_
  · simp [outboxFrom, Feed.entriesOf]
  · simp [outboxFrom, Feed.entriesOf, PendingChange.outboxRow, OutboxRow.place]
    omega

end Commit

/-- **A commit is one step of the feed.** -/
theorem feed_commit (call : CommitCall) (db : Db) :
    db.feed.Step ((Committed.mk call db).batch sys) (call.run sys db).2.feed := by
  have hcase := commit_cases sys call db
  have hphases := commit_phases sys call db
  rw [Committed.batch, Committed.result]
  generalize (call.run sys db).1 = result at hcase hphases ⊢
  generalize (call.run sys db).2 = after at hcase hphases ⊢
  cases hphases with
  | failed => exact .keep
  | replayed receipt _ hreplayed hafter =>
    dsimp only
    rw [if_pos hreplayed]
    exact Feed.Step.keep.of_eq (congrArg Db.feed hafter :)
  | applied intent _ s s₁ s₂ _ receipt hreplayed hopened hrun hpublish =>
    obtain ⟨-, hsequence, row, hrow, hlog⟩ := log_of_applied hopened hrun hpublish
    generalize s₂.envelope.tx = after at hcase hsequence hlog ⊢
    cases hcase with
    | replayed => cases hreplayed
    | applied transactionId _ recordedAt _ _ _ _ hafter =>
      refine (Feed.Step.commit ((call.changes sys db).map PendingChange.payload)).of_eq
        (Feed.ext ?_ hsequence ?_ ?_ ?_)
      · rw [Db.feed, hlog, List.map_append, List.map_singleton, hrow]
        rfl
      · change after.published.changeEvent.map _ = _
        rw [hafter, Feed.commit, ← entries_eventsFrom _ _ transactionId]
        exact List.map_append
      · change after.published.outbox.map _ = _
        rw [hafter, Feed.commit, ← queued_outboxFrom _ _ recordedAt]
        exact List.map_append
      · change after.published.outboxSequence = _
        rw [hafter]
        refine congrArg (db.outboxSequence + ·) ?_
        rw [outboxFrom, List.length_map, List.length_zipIdx, List.length_map]

/-! ## Runs -/

variable (sys) in
/-- The changes of the commits of a run that apply their operation. -/
def batches (actions : List Action) (db : Db) : List (List ChangePayload) :=
  (commits sys actions db).filterMap (Committed.batch sys)

theorem records_run {history : List (List ChangePayload)} (actions : List Action)
    (h : db.feed.Records history) :
    (run sys actions db).feed.Records (history ++ batches sys actions db) := by
  induction actions generalizing db history with
  | nil => exact (List.append_nil history).symm ▸ h
  | cons a rest ih =>
    cases a with
    | upkeep u =>
      have hnext := ih (h.step (@feed_upkeep sys u db))
      rwa [Option.toList_none, List.append_nil] at hnext
    | commit call =>
      have hnext := ih (h.step (@feed_commit sys call db))
      have hbatches : batches sys (.commit call :: rest) db =
          ((Committed.mk call db).batch sys).toList ++ batches sys rest (call.run sys db).2 := by
        rw [batches, commits, List.filterMap_cons]
        cases (Committed.mk call db).batch sys <;> rfl
      rwa [List.append_assoc, ← hbatches] at hnext

theorem records_fresh : (Db.feed .fresh).Records [] := ⟨rfl, rfl, rfl, rfl, List.suffix_rfl⟩

variable (sys) in
/-- **After every run of an installed store** its commit log, its change events and its outbox are
the numbering of what the applied commits changed: no number is left out, the events of a commit
stand in its order, and the outbox is their end, at consecutive positions. -/
theorem records_of_run (actions : List Action) :
    (run sys actions .fresh).feed.Records (batches sys actions .fresh) :=
  @records_run _ _ [] actions records_fresh

/-! ## Readers of the outbox -/

structure OutboxLag where
  positionLag : Option Nat
  oldestUnconsumedAgeMs : Option Int
  consumerCount : Nat

/-- `consumer_horizon`: the lowest checkpoint. -/
def minimumCheckpoint (db : Db) : Option Nat :=
  (db.outboxConsumers.rows.map ConsumerRow.checkpointCommitSeq).min?

/-- `outbox_lag_in`, with the highest position that was published. -/
def outboxLagIn (watermark : Nat) (nowMs : Int) (db : Db) : OutboxLag where
  positionLag := (minimumCheckpoint db).map fun checkpoint =>
    db.outbox.count fun r => checkpoint < r.commitSeq && r.outboxPosition ≤ watermark
  oldestUnconsumedAgeMs := (minimumCheckpoint db).bind fun checkpoint =>
    ((db.outbox.select fun r => checkpoint < r.commitSeq).map OutboxRow.createdAt).min?.map
      -- `saturating_sub`; the lower limit is below zero
      fun createdAt => max (min (nowMs - createdAt) (2 ^ 63 - 1)) 0
  consumerCount := db.outboxConsumers.rows.length

/-- Above a checkpoint the outbox is the history. -/
theorem above_of_run {actions : List Action} {c : ConsumerRow}
    (hc : c ∈ (run sys actions .fresh).outboxConsumers) :
    Feed.above c.checkpointCommitSeq (run sys actions .fresh).feed.queued =
      Feed.above c.checkpointCommitSeq ((run sys actions .fresh).feed.entries.zipIdx 1) := by
  have hrecords := @records_run sys _ [] actions records_fresh
  have hkept := @delivering_of_reachable sys _ ⟨actions, rfl⟩
  refine hrecords.unread fun entry hentry hlater => ?_
  obtain ⟨e, he, rfl⟩ := List.mem_map.mp hentry
  obtain ⟨o, ho, hseq, hordinal, -, hpayload⟩ := hkept.kept c hc e he hlater
  refine ⟨o.place, List.mem_map_of_mem ho, ?_⟩
  rw [OutboxRow.place, hseq, hordinal, hpayload, ChangeEventRow.entry]

variable (sys) in
/-- **The lag does not depend on what was pruned**: it counts the changes of the history above the
lowest checkpoint, up to the highest published position. -/
theorem positionLag_of_run (actions : List Action) (watermark : Nat) (nowMs : Int) :
    let db := run sys actions .fresh
    (outboxLagIn watermark nowMs db).positionLag = (minimumCheckpoint db).map fun checkpoint =>
      (Feed.above checkpoint (db.feed.entries.zipIdx 1)).countP fun q => q.2 ≤ watermark := by
  intro db
  rw [outboxLagIn]
  cases hmin : minimumCheckpoint db with
  | none => rfl
  | some checkpoint =>
    obtain ⟨c, hc, rfl⟩ := List.mem_map.mp (List.min?_eq_some_iff.mp hmin).1
    have habove : Feed.above c.checkpointCommitSeq db.feed.queued = _ := above_of_run hc
    rw [Option.map_some, Option.map_some, ← habove, Feed.above, List.countP_filter]
    change _ = some ((db.outbox.rows.map OutboxRow.place).countP _)
    rw [List.countP_map]
    refine congrArg some (List.countP_congr fun r _ => ?_)
    rw [Function.comp_apply, Bool.and_comm]
    rfl

end MagicContext.Kernel
