import MagicContext.Historian.Firings
import MagicContext.Historian.Publication

/-!
# Drains

A drain loads the items that are due, and takes each to its table in a transaction of its own, after
which it drops the row or notes the failure.  Drains run beside each other and beside everything
that changes the history, and any of them may stop between two transactions.

A row is known by its key.  A reset starts the numbers of firings anew, so that a key may come back
with another item: a drain that loaded the row of before then delivers the old item under the new
one's key.

## What is here

* `Drain.step` — a drain, one transaction after the other.
* `DrainWorld.step` — drains and the other transactions, with a journal of what becomes of the
  items.
* `ExactlyOnce`, `Consistent` — what holds of the journal.
* `delivers_exactly_once` — it does, as long as no key comes back while a drain holds it.
* `stale_delivery` — a key that comes back.
-/

namespace MagicContext.Historian

/-! ## A drain -/

/-- Where a drain is, with the kinds that it has not come to. -/
inductive DrainStage where
  | begin
  | next (kinds : List SideChannelKind)
  | deliver (rows : List OutboxRow) (kinds : List SideChannelKind)
  | acknowledge (row : OutboxRow) (rows : List OutboxRow) (kinds : List SideChannelKind)
  | fail (row : OutboxRow) (error : String) (rows : List OutboxRow) (kinds : List SideChannelKind)

/-- The rows that are loaded and not tried yet. -/
def DrainStage.held : DrainStage → List OutboxRow
  | begin => []
  | next _ => []
  | deliver rows _ => rows
  | acknowledge _ rows _ => rows
  | fail _ _ rows _ => rows

structure Drain where
  nowMs : Int
  perKindLimit : Nat
  stage : DrainStage := .begin

def sideChannelKinds : List SideChannelKind := [.event, .primer, .userObservation]

def sideChannelDrainPerKind : Nat := 32

/-- What becomes of an item. -/
inductive Notice where
  | queued (item : Nat)
  | inserted (item : Nat)
  /-- There was nothing to insert. -/
  | skipped (item : Nat)
  /-- Its row was marked. -/
  | delivered (item : Nat)
  /-- A truncation or a reset took its row. -/
  | removed (item : Nat)
  deriving DecidableEq

def Notice.item : Notice → Nat
  | queued item => item
  | inserted item => item
  | skipped item => item
  | delivered item => item
  | removed item => item

/-- What a delivery of a loaded row does, by the rows that are stored. -/
def deliveryNotices (row : OutboxRow) (outbox : List OutboxRow) : List Notice :=
  (if row.payload.isBlank then .skipped row.item else .inserted row.item) ::
    (outbox.filter fun stored => stored.isPending row.id).map fun stored => .delivered stored.item

/-- The next transaction of `drain_historian_side_channels`.  A transaction may fail, and a delivery
fails with some error. -/
def Drain.step (fault : Bool) (error : String) (drain : Drain) (st : HistorianStore) :
    Option Drain × HistorianStore × List Notice :=
  match drain.stage with
  | .begin =>
    if fault then (none, st, [])
    else if drain.perKindLimit = 0 then (none, deleteDelivered st, [])
    else (some { drain with stage := .next sideChannelKinds }, deleteDelivered st, [])
  | .next [] => (none, st, [])
  | .next (kind :: kinds) =>
    if fault then (none, st, [])
    else
      let rows := loadDue kind drain.nowMs (min drain.perKindLimit sideChannelDrainPerKind) st
      (some { drain with stage := .deliver rows kinds }, st, [])
  | .deliver [] kinds => (some { drain with stage := .next kinds }, st, [])
  | .deliver (row :: rows) kinds =>
    match if fault then none else Historian.deliver row drain.nowMs st with
    | some st' =>
      (some { drain with stage := .acknowledge row rows kinds }, st', deliveryNotices row st.outbox)
    | none => (some { drain with stage := .fail row error rows kinds }, st, [])
  | .acknowledge row rows kinds =>
    (some { drain with stage := .deliver rows kinds },
      if fault then st else deleteDeliveredRow row st, [])
  | .fail row error rows kinds =>
    (some { drain with stage := .deliver rows kinds },
      if fault then st else recordFailure row drain.nowMs error st, [])

/-! ## All drains together -/

structure DrainWorld where
  store : HistorianStore := {}
  drains : List Drain := []
  journal : List Notice := []

inductive WorldStep where
  | op (op : HistorianOp)
  | start (nowMs : Int) (perKindLimit : Nat)
  | drain (index : Nat) (fault : Bool) (error : String)
  | crash (index : Nat)

/-- The items that a transaction has queued and removed. -/
def changes (before after : List OutboxRow) : List Notice :=
  (after.filter fun row => !before.any fun old => old.item == row.item).map
      (fun row => .queued row.item) ++
    (before.filter fun old => !after.any fun row => row.item == old.item).map
      (fun old => .removed old.item)

/-- The drains after one of them has gone on, or has returned. -/
def moveDrain (drains : List Drain) (index : Nat) : Option Drain → List Drain
  | some drain => drains.set index drain
  | none => drains.eraseIdx index

section Steps
variable (scanner : Scanner) (scanItem : SideChannelPayload → SideChannelPayload)

def DrainWorld.step (w : DrainWorld) : WorldStep → DrainWorld
  | .op op =>
    let st := op.exec scanner scanItem w.store
    { w with store := st, journal := w.journal ++ changes w.store.outbox st.outbox }
  | .start nowMs perKindLimit =>
    { w with drains := w.drains ++ [{ nowMs := nowMs, perKindLimit := perKindLimit }] }
  | .drain index fault error =>
    match w.drains[index]? with
    | none => w
    | some drain =>
      let (drain', st, notices) := drain.step fault error w.store
      { store := st
        drains := moveDrain w.drains index drain'
        journal := w.journal ++ notices }
  | .crash index => { w with drains := w.drains.eraseIdx index }

def DrainWorld.run : List WorldStep → DrainWorld → DrainWorld
  | [], w => w
  | step :: steps, w => DrainWorld.run steps (w.step scanner scanItem step)

/-- A drain has loaded the row and not tried it yet. -/
def DrainWorld.Holds (w : DrainWorld) (row : OutboxRow) : Prop :=
  ∃ drain ∈ w.drains, row ∈ drain.stage.held

/-- A publication that succeeds queues no item under the key of a row that a drain holds. -/
def WorldStep.Fresh (w : DrainWorld) : WorldStep → Prop
  | .op (.publish request nowMs) =>
    (publishHistorianChunk scanner scanItem request nowMs w.store).1.isOk = true →
      ∀ item ∈ pendingItems scanItem nowMs request, ∀ row, w.Holds row → row.id ≠ item.id
  | _ => True

/-- Every step of a run is of that kind. -/
def FreshKeys : List WorldStep → DrainWorld → Prop
  | [], _ => True
  | step :: steps, w =>
    step.Fresh scanner scanItem w ∧ FreshKeys steps (w.step scanner scanItem step)

end Steps

/-! ## What becomes of the items -/

/-- The row of an item that is still to be delivered. -/
def HistorianStore.Awaits (st : HistorianStore) (item : Nat) : Prop :=
  ∃ row ∈ st.outbox, row.item = item ∧ row.pending = true

structure ExactlyOnce (w : DrainWorld) : Prop where
  atMostOnce : ∀ item, w.journal.count (.inserted item) ≤ 1
  awaits : ∀ item, .queued item ∈ w.journal →
    w.store.Awaits item ∨ .delivered item ∈ w.journal ∨ .removed item ∈ w.journal
  delivered : ∀ item, .delivered item ∈ w.journal →
    .inserted item ∈ w.journal ∨ .skipped item ∈ w.journal
  notAfter : w.journal.Pairwise fun earlier later =>
    ∀ item, earlier = .removed item → later ≠ .inserted item

/-- What holds of the rows in between. -/
structure Consistent (w : DrainWorld) : Prop where
  ids : (w.store.outbox.map OutboxRow.id).Nodup
  items : (w.store.outbox.map OutboxRow.item).Nodup
  below : ∀ row ∈ w.store.outbox, row.item < w.store.queued
  known : ∀ notice ∈ w.journal, notice.item < w.store.queued
  unsent : ∀ row ∈ w.store.outbox, row.pending = true → .inserted row.item ∉ w.journal
  present : ∀ row ∈ w.store.outbox, .removed row.item ∉ w.journal
  held : ∀ row, w.Holds row → ∀ stored ∈ w.store.outbox, stored.id = row.id → stored.item = row.item
  once : ExactlyOnce w

theorem consistent_empty : Consistent {} where
  ids := List.nodup_nil
  items := List.nodup_nil
  below _ hrow := absurd hrow List.not_mem_nil
  known _ hnotice := absurd hnotice List.not_mem_nil
  unsent _ hrow := absurd hrow List.not_mem_nil
  present _ hrow := absurd hrow List.not_mem_nil
  held _ _ _ hstored := absurd hstored List.not_mem_nil
  once :=
    { atMostOnce := fun _ => Nat.zero_le 1
      awaits := fun _ hitem => absurd hitem List.not_mem_nil
      delivered := fun _ hitem => absurd hitem List.not_mem_nil
      notAfter := List.Pairwise.nil }

section Invariant
variable {w w' : DrainWorld}

/-- Rows that are kept, perhaps with other bookkeeping, and rows that are dropped with a notice
unless they were delivered. -/
structure Rewrites (w w' : DrainWorld) (kept : OutboxRow → Bool) (f : OutboxRow → OutboxRow)
    (notices : List Notice) : Prop where
  same : ∀ row, (f row).id = row.id ∧ (f row).item = row.item ∧ (f row).pending = row.pending
  outbox : w'.store.outbox = (w.store.outbox.filter kept).map f
  queued : w'.store.queued = w.store.queued
  journal : w'.journal = w.journal ++ notices
  holds : ∀ row, w'.Holds row → w.Holds row ∨ row ∈ w.store.outbox
  notified : ∀ notice ∈ notices, ∃ row ∈ w.store.outbox, notice = Notice.removed row.item ∧
    ∀ row' ∈ w.store.outbox, kept row' = true → row'.item ≠ row.item
  dropped : ∀ row ∈ w.store.outbox, row.pending = true →
    kept row = true ∨ Notice.removed row.item ∈ notices

variable {f : OutboxRow → OutboxRow} {kept : OutboxRow → Bool} {notices : List Notice}

theorem Rewrites.mem (h : Rewrites w w' kept f notices) {row : OutboxRow} :
    row ∈ w'.store.outbox ↔ ∃ old ∈ w.store.outbox, kept old = true ∧ f old = row := by
  rw [h.outbox, List.mem_map]
  exact exists_congr fun old => by rw [List.mem_filter, and_assoc]

variable {notice : Notice}

theorem Rewrites.mem_journal (h : Rewrites w w' kept f notices) (hnotice : notice ∈ w'.journal) :
    notice ∈ w.journal ∨ ∃ row ∈ w.store.outbox, notice = .removed row.item ∧
      ∀ row' ∈ w.store.outbox, kept row' = true → row'.item ≠ row.item := by
  rw [h.journal, List.mem_append] at hnotice
  exact hnotice.imp_right (h.notified notice)

theorem Rewrites.mem_of_journal (h : Rewrites w w' kept f notices)
    (hnotice : notice ∈ w.journal) : notice ∈ w'.journal := by
  rw [h.journal]
  exact List.mem_append_left _ hnotice

theorem Consistent.once_of_rewrites (hw : Consistent w) (h : Rewrites w w' kept f notices) :
    ExactlyOnce w' where
  atMostOnce item := by
    have hnone : notices.count (.inserted item) = 0 := by
      refine List.count_eq_zero_of_not_mem fun hmem => ?_
      obtain ⟨_, _, heq, _⟩ := h.notified _ hmem
      cases heq
    rw [h.journal, List.count_append, hnone]
    exact hw.once.atMostOnce item
  awaits item hqueued := by
    have hold : .queued item ∈ w.journal := by
      rcases h.mem_journal hqueued with hold | ⟨_, _, heq, _⟩
      · exact hold
      · cases heq
    rcases hw.once.awaits item hold with ⟨row, hrow, rfl, hpending⟩ | hdelivered | hremoved
    · rcases h.dropped row hrow hpending with hkept | hnotice
      · refine .inl ⟨f row, h.mem.mpr ⟨row, hrow, hkept, rfl⟩, (h.same row).2.1, ?_⟩
        rw [(h.same row).2.2, hpending]
      · rw [h.journal]
        exact .inr (.inr (List.mem_append_right _ hnotice))
    · exact .inr (.inl (h.mem_of_journal hdelivered))
    · exact .inr (.inr (h.mem_of_journal hremoved))
  delivered item hdelivered := by
    have hold : .delivered item ∈ w.journal := by
      rcases h.mem_journal hdelivered with hold | ⟨_, _, heq, _⟩
      · exact hold
      · cases heq
    exact (hw.once.delivered item hold).imp h.mem_of_journal h.mem_of_journal
  notAfter := by
    have hlater : ∀ later ∈ notices, ∀ item, later ≠ .inserted item := by
      rintro later hmem item rfl
      obtain ⟨_, _, heq, _⟩ := h.notified _ hmem
      cases heq
    rw [h.journal, List.pairwise_append]
    exact ⟨hw.once.notAfter, List.pairwise_of_forall_mem_list fun _ _ later hmem item _ =>
      hlater later hmem item, fun _ _ later hmem item _ => hlater later hmem item⟩

/-- **Keeping and dropping rows** keeps the items in order. -/
theorem Consistent.rewrite (hw : Consistent w) (h : Rewrites w w' kept f notices) :
    Consistent w' where
  ids := by
    have hmap : (w'.store.outbox.map OutboxRow.id) =
        (w.store.outbox.filter kept).map OutboxRow.id := by
      rw [h.outbox, List.map_map]
      exact List.map_congr_left fun row _ => (h.same row).1
    rw [hmap]
    exact hw.ids.sublist (List.filter_sublist.map _)
  items := by
    have hmap : (w'.store.outbox.map OutboxRow.item) =
        (w.store.outbox.filter kept).map OutboxRow.item := by
      rw [h.outbox, List.map_map]
      exact List.map_congr_left fun row _ => (h.same row).2.1
    rw [hmap]
    exact hw.items.sublist (List.filter_sublist.map _)
  below row hrow := by
    obtain ⟨old, hold, -, rfl⟩ := h.mem.mp hrow
    rw [(h.same old).2.1, h.queued]
    exact hw.below old hold
  known notice hnotice := by
    rw [h.queued]
    rcases h.mem_journal hnotice with hold | ⟨row, hrow, rfl, -⟩
    · exact hw.known notice hold
    · exact hw.below row hrow
  unsent row hrow hpending hinserted := by
    obtain ⟨old, hold, -, rfl⟩ := h.mem.mp hrow
    rw [(h.same old).2.2] at hpending
    rw [(h.same old).2.1] at hinserted
    rcases h.mem_journal hinserted with hmem | ⟨_, _, heq, _⟩
    · exact hw.unsent old hold hpending hmem
    · cases heq
  present row hrow hremoved := by
    obtain ⟨old, hold, hkept, rfl⟩ := h.mem.mp hrow
    rw [(h.same old).2.1] at hremoved
    rcases h.mem_journal hremoved with hmem | ⟨gone, -, heq, hgone⟩
    · exact hw.present old hold hmem
    · exact hgone old hold hkept (Notice.removed.inj heq)
  held row hholds stored hstored hid := by
    obtain ⟨old, hold, -, rfl⟩ := h.mem.mp hstored
    rw [(h.same old).1] at hid
    rw [(h.same old).2.1]
    rcases h.holds row hholds with hholds | hmem
    · exact hw.held row hholds old hold hid
    · rw [List.inj_on_of_nodup_map hw.ids hold hmem hid]
  once := hw.once_of_rewrites h

/-! ### What is queued and removed -/

theorem mem_changes {before after : List OutboxRow} : notice ∈ changes before after ↔
      (∃ row ∈ after, notice = .queued row.item ∧ ∀ old ∈ before, old.item ≠ row.item) ∨
        ∃ old ∈ before, notice = .removed old.item ∧ ∀ row ∈ after, row.item ≠ old.item := by
  have hnone : ∀ {rows : List OutboxRow} {item : Nat},
      (!rows.any fun row => row.item == item) = true ↔ ∀ row ∈ rows, row.item ≠ item := by
    intro rows item
    simp
  rw [changes, List.mem_append, List.mem_map, List.mem_map]
  refine or_congr (exists_congr fun row => ?_) (exists_congr fun old => ?_) <;>
    rw [List.mem_filter, hnone, and_assoc, eq_comm, and_comm (b := _ = _)]

/-- What a publication adds to the queue. -/
structure Queues (w w' : DrainWorld) (new : List OutboxRow) : Prop where
  outbox : w'.store.outbox = w.store.outbox ++ new
  queued : w.store.queued ≤ w'.store.queued
  journal : w'.journal = w.journal ++ changes w.store.outbox w'.store.outbox
  drains : w'.drains = w.drains
  ids : (w'.store.outbox.map OutboxRow.id).Nodup
  items : (new.map OutboxRow.item).Nodup
  fresh : ∀ row ∈ new, row.pending = true ∧ w.store.queued ≤ row.item ∧ row.item < w'.store.queued
  unheld : ∀ row ∈ new, ∀ held, w.Holds held → held.id ≠ row.id

theorem Queues.mem_changes {new : List OutboxRow} (h : Queues w w' new)
    (hnotice : notice ∈ changes w.store.outbox w'.store.outbox) :
    ∃ row ∈ new, notice = .queued row.item := by
  rcases Historian.mem_changes.mp hnotice with ⟨row, hrow, rfl, hnone⟩ | ⟨old, hold, -, hnone⟩
  · rw [h.outbox, List.mem_append] at hrow
    rcases hrow with hrow | hrow
    · exact absurd rfl (hnone row hrow)
    · exact ⟨row, hrow, rfl⟩
  · exact absurd rfl (hnone old (h.outbox ▸ List.mem_append_left _ hold))

/-- **A publication** queues items that are new in every respect. -/
theorem Consistent.queue {new : List OutboxRow} (hw : Consistent w) (h : Queues w w' new) :
    Consistent w' := by
  have hjournal : ∀ {notice}, notice ∈ w'.journal →
      notice ∈ w.journal ∨ ∃ row ∈ new, notice = .queued row.item := fun hnotice => by
    rw [h.journal, List.mem_append] at hnotice
    exact hnotice.imp_right h.mem_changes
  have hkeeps : ∀ {notice}, notice ∈ w.journal → notice ∈ w'.journal := fun hnotice => by
    rw [h.journal]
    exact List.mem_append_left _ hnotice
  have hfresh : ∀ row ∈ new, ∀ notice ∈ w.journal, notice.item ≠ row.item := fun row hrow notice
      hnotice => by
    have hknown := hw.known notice hnotice
    have hle := (h.fresh row hrow).2.1
    omega
  refine ⟨h.ids, ?_, fun row hrow => ?_, fun notice hnotice => ?_, fun row hrow hpending hmem => ?_,
    fun row hrow hmem => ?_, fun row hholds stored hstored hid => ?_, ?_⟩
  · rw [h.outbox, List.map_append]
    refine List.Nodup.append hw.items h.items (List.disjoint_left.mpr fun item hold hnew => ?_)
    obtain ⟨old, hmem, rfl⟩ := List.mem_map.mp hold
    obtain ⟨row, hrow, heq⟩ := List.mem_map.mp hnew
    have hbelow := hw.below old hmem
    have hle := (h.fresh row hrow).2.1
    omega
  · rw [h.outbox, List.mem_append] at hrow
    rcases hrow with hrow | hrow
    · exact Nat.lt_of_lt_of_le (hw.below row hrow) h.queued
    · exact (h.fresh row hrow).2.2
  · rcases hjournal hnotice with hold | ⟨row, hrow, rfl⟩
    · exact Nat.lt_of_lt_of_le (hw.known notice hold) h.queued
    · exact (h.fresh row hrow).2.2
  · rcases hjournal hmem with hmem | ⟨_, _, heq⟩
    · rw [h.outbox, List.mem_append] at hrow
      rcases hrow with hrow | hrow
      · exact hw.unsent row hrow hpending hmem
      · exact hfresh row hrow _ hmem rfl
    · cases heq
  · rcases hjournal hmem with hmem | ⟨_, _, heq⟩
    · rw [h.outbox, List.mem_append] at hrow
      rcases hrow with hrow | hrow
      · exact hw.present row hrow hmem
      · exact hfresh row hrow _ hmem rfl
    · cases heq
  · have hheld : w.Holds row := by
      rwa [DrainWorld.Holds, h.drains] at hholds
    rw [h.outbox, List.mem_append] at hstored
    rcases hstored with hstored | hstored
    · exact hw.held row hheld stored hstored hid
    · exact absurd hid.symm (h.unheld stored hstored row hheld)
  · refine ⟨fun item => ?_, fun item hitem => ?_, fun item hitem => ?_, ?_⟩
    · have hnone : (changes w.store.outbox w'.store.outbox).count (.inserted item) = 0 := by
        refine List.count_eq_zero_of_not_mem fun hmem => ?_
        obtain ⟨_, _, heq⟩ := h.mem_changes hmem
        cases heq
      rw [h.journal, List.count_append, hnone]
      exact hw.once.atMostOnce item
    · rcases hjournal hitem with hold | ⟨row, hrow, heq⟩
      · refine (hw.once.awaits item hold).imp ?_ (Or.imp hkeeps hkeeps)
        rintro ⟨row, hrow, hstored⟩
        exact ⟨row, h.outbox ▸ List.mem_append_left _ hrow, hstored⟩
      · exact .inl ⟨row, h.outbox ▸ List.mem_append_right _ hrow,
          (Notice.queued.inj heq).symm, (h.fresh row hrow).1⟩
    · rcases hjournal hitem with hold | ⟨_, _, heq⟩
      · exact (hw.once.delivered item hold).imp hkeeps hkeeps
      · cases heq
    · have hlater : ∀ later ∈ changes w.store.outbox w'.store.outbox, ∀ item,
          later ≠ .inserted item := by
        rintro later hmem item rfl
        obtain ⟨_, _, heq⟩ := h.mem_changes hmem
        cases heq
      rw [h.journal, List.pairwise_append]
      exact ⟨hw.once.notAfter, List.pairwise_of_forall_mem_list fun _ _ later hmem item _ =>
        hlater later hmem item, fun _ _ later hmem item _ => hlater later hmem item⟩

/-- What is queued is new. -/
theorem enqueue_new {items : List PendingItem} {st st' : HistorianStore}
    (h : enqueue items st = some st') :
    ∃ new, st'.outbox = st.outbox ++ new ∧ st.queued ≤ st'.queued ∧ (new.map OutboxRow.item).Nodup ∧
      (∀ row ∈ new, row.pending = true ∧ st.queued ≤ row.item ∧ row.item < st'.queued ∧
        ∃ item ∈ items, item.id = row.id) ∧
      ((st.outbox.map OutboxRow.id).Nodup → (st'.outbox.map OutboxRow.id).Nodup) := by
  induction items generalizing st with
  | nil =>
    cases h
    exact ⟨[], (List.append_nil _).symm, Nat.le_refl _, List.nodup_nil,
      fun _ hrow => absurd hrow List.not_mem_nil, id⟩
  | cons item items ih =>
    rw [enqueue] at h
    split at h
    · cases h
    · rename_i hnone
      obtain ⟨new, houtbox, hqueued, hitems, hnew, hids⟩ := ih h
      dsimp only at houtbox hqueued hnew hids
      rw [List.append_assoc, List.singleton_append] at houtbox
      refine ⟨_, houtbox, by omega, ?_, fun row hrow => ?_, fun hst => hids ?_⟩
      · rw [List.map_cons, List.nodup_cons]
        refine ⟨fun hmem => ?_, hitems⟩
        obtain ⟨row, hrow, heq⟩ := List.mem_map.mp hmem
        have := (hnew row hrow).2.1
        dsimp only at heq
        omega
      · rcases List.mem_cons.mp hrow with rfl | hrow
        · exact ⟨rfl, Nat.le_refl _, by dsimp only; omega, item, List.mem_cons_self .., rfl⟩
        · obtain ⟨hpending, hle, hlt, key, hkey, heq⟩ := hnew row hrow
          exact ⟨hpending, by omega, hlt, key, List.mem_cons_of_mem _ hkey, heq⟩
      · rw [List.map_append, List.map_singleton]
        refine List.Nodup.append hst (List.nodup_singleton _)
          (List.disjoint_singleton.mpr fun hmem => hnone ?_)
        obtain ⟨row, hrow, heq⟩ := List.mem_map.mp hmem
        exact List.any_eq_true.mpr ⟨row, hrow, beq_iff_eq.mpr heq⟩

/-! ### What is delivered -/

/-- A row as a delivery marks it. -/
def OutboxRow.marked (id : SideChannelOutboxId) (nowMs : Int) (row : OutboxRow) : OutboxRow :=
  if row.isPending id then
    { row with deliveredAtMs := some nowMs, lastAttemptAtMs := some nowMs, lastError := none }
  else row

@[simp] theorem id_marked (id : SideChannelOutboxId) (nowMs : Int) (row : OutboxRow) :
    (row.marked id nowMs).id = row.id := by
  rw [OutboxRow.marked]
  split <;> rfl

@[simp] theorem item_marked (id : SideChannelOutboxId) (nowMs : Int) (row : OutboxRow) :
    (row.marked id nowMs).item = row.item := by
  rw [OutboxRow.marked]
  split <;> rfl

/-- What is still pending was so before, and is not the row that is marked. -/
theorem pending_marked {id : SideChannelOutboxId} {nowMs : Int} {row : OutboxRow} :
    (row.marked id nowMs).pending = true ↔ row.pending = true ∧ row.isPending id = false := by
  rw [OutboxRow.marked]
  by_cases h : row.isPending id = true
  · rw [if_pos h, h]
    exact iff_of_false nofun fun hpending => nomatch hpending.2
  · rw [if_neg h]
    exact (and_iff_left (Bool.eq_false_iff.mpr h)).symm

@[simp] theorem queued_insert (st : HistorianStore) (payload : SideChannelPayload) :
    (st.insert payload).queued = st.queued := by
  cases payload with
  | event candidate => rfl
  | primer candidate =>
    rw [HistorianStore.insert]
    split <;> rfl
  | userObservation candidate =>
    rw [HistorianStore.insert]
    split <;> rfl

/-- A delivery finds one pending row of its key. -/
theorem deliver_eq_some {row : OutboxRow} {nowMs : Int} {st st' : HistorianStore}
    (h : Historian.deliver row nowMs st = some st') :
    st'.outbox = st.outbox.map (OutboxRow.marked row.id nowMs) ∧ st'.queued = st.queued ∧
      ∃ stored ∈ st.outbox, stored.isPending row.id = true ∧
        st.outbox.filter (fun stored => stored.isPending row.id) = [stored] := by
  rw [Historian.deliver] at h
  split at h
  · cases h
  · obtain ⟨outbox, hmarked, rfl⟩ := Option.map_eq_some_iff.mp h
    rw [markDelivered] at hmarked
    split at hmarked
    · rename_i hone
      cases hmarked
      obtain ⟨stored, hstored⟩ := List.length_eq_one_iff.mp hone
      have hmem : stored ∈ st.outbox.filter fun stored => stored.isPending row.id := by
        rw [hstored]
        exact List.mem_singleton_self stored
      obtain ⟨hmem, hpending⟩ := List.mem_filter.mp hmem
      exact ⟨rfl, queued_insert .., stored, hmem, hpending, hstored⟩
    · cases hmarked

/-- **A delivery** is of the item whose row it marks. -/
theorem Consistent.deliver {row : OutboxRow} {nowMs : Int} (hw : Consistent w)
    (hholds : w.Holds row) (h : Historian.deliver row nowMs w.store = some w'.store)
    (hjournal : w'.journal = w.journal ++ deliveryNotices row w.store.outbox)
    (hdrains : ∀ held, w'.Holds held → w.Holds held) : Consistent w' := by
  obtain ⟨houtbox, hqueued, stored, hstored, hpending, hone⟩ := deliver_eq_some h
  obtain ⟨hid, hawaits⟩ : stored.id = row.id ∧ stored.pending = true := by
    rw [OutboxRow.isPending, Bool.and_eq_true, beq_iff_eq] at hpending
    exact hpending
  have hitem := hw.held row hholds stored hstored hid
  -- The first notice is of the item that was loaded, the second of the one that is stored.
  rw [deliveryNotices, hone, List.map_singleton, ← hitem] at hjournal
  generalize hfirst : (if row.payload.isBlank = true then Notice.skipped stored.item
    else Notice.inserted stored.item) = first at hjournal
  have hfirst' : first = .skipped stored.item ∨ first = .inserted stored.item := by
    rw [← hfirst]
    split
    · exact .inl rfl
    · exact .inr rfl
  have hmem : ∀ {notice}, notice ∈ w'.journal ↔
      notice ∈ w.journal ∨ notice = first ∨ notice = .delivered stored.item := by
    intro notice
    rw [hjournal, List.mem_append, List.mem_cons, List.mem_singleton]
  have hrow : ∀ {r}, r ∈ w'.store.outbox ↔ ∃ old ∈ w.store.outbox, old.marked row.id nowMs = r := by
    intro r
    rw [houtbox, List.mem_map]
  have hunsent := hw.unsent stored hstored hawaits
  refine ⟨?_, ?_, fun r hr => ?_, fun notice hnotice => ?_, fun r hr hrpending hinserted => ?_,
    fun r hr hremoved => ?_, fun held hheld r hr hrid => ?_, ?_⟩
  · rw [houtbox, List.map_map]
    simpa [Function.comp_def] using hw.ids
  · rw [houtbox, List.map_map]
    simpa [Function.comp_def] using hw.items
  · obtain ⟨old, hold, rfl⟩ := hrow.mp hr
    rw [item_marked, hqueued]
    exact hw.below old hold
  · rw [hqueued]
    rcases hmem.mp hnotice with hnotice | rfl | rfl
    · exact hw.known notice hnotice
    · rcases hfirst' with rfl | rfl
      · exact hw.below stored hstored
      · exact hw.below stored hstored
    · exact hw.below stored hstored
  · obtain ⟨old, hold, rfl⟩ := hrow.mp hr
    obtain ⟨holdPending, hother⟩ := pending_marked.mp hrpending
    rw [item_marked] at hinserted
    rcases hmem.mp hinserted with hinserted | heq | heq
    · exact hw.unsent old hold holdPending hinserted
    · rcases hfirst' with rfl | rfl
      · cases heq
      · -- Another row has another item.
        have hsame := List.inj_on_of_nodup_map hw.items hold hstored (Notice.inserted.inj heq)
        rw [hsame, hpending] at hother
        cases hother
    · cases heq
  · obtain ⟨old, hold, rfl⟩ := hrow.mp hr
    rw [item_marked] at hremoved
    rcases hmem.mp hremoved with hremoved | heq | heq
    · exact hw.present old hold hremoved
    · rcases hfirst' with rfl | rfl <;> cases heq
    · cases heq
  · obtain ⟨old, hold, rfl⟩ := hrow.mp hr
    rw [id_marked] at hrid
    rw [item_marked]
    exact hw.held held (hdrains held hheld) old hold hrid
  · refine ⟨fun item => ?_, fun item hqueuedItem => ?_, fun item hdelivered => ?_, ?_⟩
    · rw [hjournal, List.count_append]
      by_cases heq : item = stored.item
      · subst heq
        rw [List.count_eq_zero_of_not_mem hunsent]
        rcases hfirst' with rfl | rfl <;> simp
      · have hnone : ([first, Notice.delivered stored.item].count (.inserted item)) = 0 := by
          refine List.count_eq_zero_of_not_mem fun hmem => ?_
          rcases List.mem_cons.mp hmem with heq' | hmem
          · rcases hfirst' with rfl | rfl
            · cases heq'
            · exact heq (Notice.inserted.inj heq')
          · cases List.mem_singleton.mp hmem
        rw [hnone]
        exact hw.once.atMostOnce item
    · have hold : .queued item ∈ w.journal := by
        rcases hmem.mp hqueuedItem with hold | heq | heq
        · exact hold
        · rcases hfirst' with rfl | rfl <;> cases heq
        · cases heq
      rcases hw.once.awaits item hold with ⟨old, hmemOld, rfl, holdPending⟩ | hdone | hgone
      · by_cases hthis : old.isPending row.id = true
        · have hsame : old = stored := by
            have hmemFilter := List.mem_filter.mpr ⟨hmemOld, hthis⟩
            rw [hone] at hmemFilter
            exact List.mem_singleton.mp hmemFilter
          rw [hsame]
          exact .inr (.inl (hmem.mpr (.inr (.inr rfl))))
        · refine .inl ⟨_, hrow.mpr ⟨old, hmemOld, rfl⟩, item_marked .., ?_⟩
          exact pending_marked.mpr ⟨holdPending, Bool.eq_false_iff.mpr hthis⟩
      · exact .inr (.inl (hmem.mpr (.inl hdone)))
      · exact .inr (.inr (hmem.mpr (.inl hgone)))
    · rcases hmem.mp hdelivered with hold | heq | heq
      · exact (hw.once.delivered item hold).imp (fun h => hmem.mpr (.inl h))
          fun h => hmem.mpr (.inl h)
      · rcases hfirst' with rfl | rfl <;> cases heq
      · cases heq
        rcases hfirst' with rfl | rfl
        · exact .inr (hmem.mpr (.inr (.inl rfl)))
        · exact .inl (hmem.mpr (.inr (.inl rfl)))
    · rw [hjournal, List.pairwise_append]
      refine ⟨hw.once.notAfter, ?_, fun earlier hearlier later hlater item hremoved hinserted => ?_⟩
      · rcases hfirst' with rfl | rfl <;> simp
      · subst hremoved hinserted
        rcases List.mem_cons.mp hlater with heq | hlater
        · rcases hfirst' with rfl | rfl
          · cases heq
          · cases heq
            exact hw.present stored hstored hearlier
        · cases List.mem_singleton.mp hlater

end Invariant

/-! ## Runs -/

section Runs
variable {scanner : Scanner} {scanItem : SideChannelPayload → SideChannelPayload} {w : DrainWorld}

/-- Only a publication adds to the queue, and only a truncation or a reset takes from it. -/
theorem exec_outbox (op : HistorianOp) (st : HistorianStore) :
    (∃ kept, (op.exec scanner scanItem st).outbox = st.outbox.filter kept ∧
      (op.exec scanner scanItem st).queued = st.queued) ∨
    ∃ request nowMs version session, op = .publish request nowMs ∧
      publishHistorianChunk scanner scanItem request nowMs st =
        (.ok version, op.exec scanner scanItem st) ∧
      enqueue (pendingItems scanItem nowMs request) { st with session := session } =
        some (op.exec scanner scanItem st) := by
  have hsame : ∃ kept, st.outbox = st.outbox.filter kept ∧ st.queued = st.queued :=
    ⟨fun _ => true, (List.filter_true _).symm, rfl⟩
  cases op with
  | commit expected core m => exact .inl hsame
  | abandonIfMatching predicate backoff detail count => exact .inl hsame
  | recordPublishFailure predicate => exact .inl hsame
  | publish request nowMs =>
    rw [HistorianOp.exec]
    rcases hpublish : publishHistorianChunk scanner scanItem request nowMs st with ⟨result, st'⟩
    have hcases := hpublish
    rw [publishHistorianChunk] at hcases
    split at hcases
    · cases hcases
      exact .inl hsame
    · rename_i version session _
      split at hcases
      · cases hcases
        exact .inl hsame
      · rename_i st'' hqueued
        cases hcases
        exact .inr ⟨request, nowMs, version, session, rfl, hpublish, hqueued⟩
  | append ranges =>
    rw [HistorianOp.exec, appendAtTail]
    split
    · exact .inl hsame
    · exact .inl hsame
  | truncate keepThroughSeq recut expected =>
    rw [HistorianOp.exec, truncateForRevert]
    split
    · exact .inl hsame
    · split
      · exact .inl hsame
      · exact .inl ⟨_, rfl, rfl⟩
  | reset expected =>
    rw [HistorianOp.exec, resetForRecomp]
    split
    · exact .inl hsame
    · exact .inl ⟨fun _ => false, (List.filter_false _).symm, rfl⟩

theorem consistent_op {op : HistorianOp} (hw : Consistent w)
    (hfresh : (WorldStep.op op).Fresh scanner scanItem w) :
    Consistent (w.step scanner scanItem (.op op)) := by
  rcases @exec_outbox scanner scanItem op w.store with
    ⟨kept, houtbox, hqueued⟩ | ⟨request, nowMs, version, session, rfl, hpublish, henqueue⟩
  · refine @Consistent.rewrite _ _ id kept (changes w.store.outbox (op.exec scanner scanItem
      w.store).outbox) hw ⟨fun _ => ⟨rfl, rfl, rfl⟩, ?_, hqueued, rfl, fun _ => .inl,
      fun notice hnotice => ?_, fun row hrow _ => ?_⟩
    · rw [List.map_id]
      exact houtbox
    · rw [houtbox] at hnotice
      rcases mem_changes.mp hnotice with ⟨row, hrow, -, hnone⟩ | ⟨old, hold, rfl, hnone⟩
      · exact absurd rfl (hnone row (List.mem_of_mem_filter hrow))
      · exact ⟨old, hold, rfl, fun row hrow hkept =>
          hnone row (List.mem_filter.mpr ⟨hrow, hkept⟩)⟩
    · by_cases hkept : kept row = true
      · exact .inl hkept
      · refine .inr (mem_changes.mpr (.inr ⟨row, hrow, rfl, fun other hother heq => ?_⟩))
        -- The items of the rows are distinct.
        rw [houtbox, List.mem_filter] at hother
        rw [List.inj_on_of_nodup_map hw.items hother.1 hrow heq] at hother
        exact hkept hother.2
  · obtain ⟨new, houtbox, hqueued, hitems, hnew, hids⟩ := enqueue_new henqueue
    refine @Consistent.queue _ _ new hw ⟨houtbox, hqueued, rfl, rfl, hids hw.ids, hitems,
      fun row hrow => ⟨(hnew row hrow).1, (hnew row hrow).2.1, (hnew row hrow).2.2.1⟩,
      fun row hrow held hheld => ?_⟩
    obtain ⟨item, hitem, hid⟩ := (hnew row hrow).2.2.2
    rw [← hid]
    exact hfresh (by rw [hpublish]; rfl) item hitem held hheld

/-- What is loaded is stored. -/
theorem mem_of_loadDue {kind : SideChannelKind} {nowMs : Int} {limit : Nat} {st : HistorianStore}
    {row : OutboxRow} (h : row ∈ loadDue kind nowMs limit st) : row ∈ st.outbox := by
  rw [loadDue] at h
  exact List.mem_of_mem_filter ((List.mem_insertionSort _).mp (List.mem_of_mem_take h))

/-- What is pending is kept, perhaps with other bookkeeping. -/
def Tidies (st st' : HistorianStore) : Prop :=
  st'.queued = st.queued ∧ ∃ (kept : OutboxRow → Bool) (f : OutboxRow → OutboxRow),
    (∀ row, (f row).id = row.id ∧ (f row).item = row.item ∧ (f row).pending = row.pending) ∧
      st'.outbox = (st.outbox.filter kept).map f ∧ ∀ row, row.pending = true → kept row = true

theorem Tidies.refl (st : HistorianStore) : Tidies st st :=
  ⟨rfl, fun _ => true, id, fun _ => ⟨rfl, rfl, rfl⟩, by rw [List.filter_true, List.map_id],
    fun _ _ => rfl⟩

theorem tidies_deleteDelivered (st : HistorianStore) : Tidies st (deleteDelivered st) :=
  ⟨rfl, OutboxRow.pending, id, fun _ => ⟨rfl, rfl, rfl⟩, (List.map_id _).symm, fun _ => id⟩

theorem tidies_deleteDeliveredRow (row : OutboxRow) (st : HistorianStore) :
    Tidies st (deleteDeliveredRow row st) := by
  refine ⟨rfl, _, id, fun _ => ⟨rfl, rfl, rfl⟩, (List.map_id _).symm, fun stored hpending => ?_⟩
  rw [hpending, Bool.or_true]

theorem tidies_recordFailure (row : OutboxRow) (nowMs : Int) (error : String)
    (st : HistorianStore) : Tidies st (recordFailure row nowMs error st) := by
  refine ⟨rfl, fun _ => true, _, fun stored => ?_, by rw [List.filter_true, recordFailure],
    fun _ _ => rfl⟩
  split
  · exact ⟨rfl, rfl, rfl⟩
  · exact ⟨rfl, rfl, rfl⟩

/-- A transaction of a drain keeps what is pending, or delivers a row that the drain holds. -/
theorem drainStep_cases {fault : Bool} {error : String} {drain : Drain} {st : HistorianStore}
    {drain' : Option Drain} {st' : HistorianStore} {notices : List Notice}
    (h : drain.step fault error st = (drain', st', notices)) :
    (∀ d ∈ drain', ∀ row ∈ d.stage.held, row ∈ drain.stage.held ∨ row ∈ st.outbox) ∧
      notices = [] ∧ Tidies st st' ∨
    ∃ row ∈ drain.stage.held, (∀ d ∈ drain', ∀ held ∈ d.stage.held, held ∈ drain.stage.held) ∧
      deliver row drain.nowMs st = some st' ∧ notices = deliveryNotices row st.outbox := by
  obtain ⟨nowMs, limit, stage⟩ := drain
  rw [Drain.step] at h
  cases stage with
  | begin =>
    dsimp only at h
    split at h
    · cases h
      exact .inl ⟨fun d hd => absurd hd (Option.not_mem_none d), rfl, .refl _⟩
    split at h
    · cases h
      exact .inl ⟨fun d hd => absurd hd (Option.not_mem_none d), rfl, tidies_deleteDelivered _⟩
    · cases h
      refine .inl ⟨fun d hd row hrow => ?_, rfl, tidies_deleteDelivered _⟩
      cases hd
      cases hrow
  | next kinds =>
    cases kinds with
    | nil =>
      cases h
      exact .inl ⟨fun d hd => absurd hd (Option.not_mem_none d), rfl, .refl _⟩
    | cons kind kinds =>
      dsimp only at h
      split at h
      · cases h
        exact .inl ⟨fun d hd => absurd hd (Option.not_mem_none d), rfl, .refl _⟩
      · cases h
        refine .inl ⟨fun d hd row hrow => ?_, rfl, .refl _⟩
        cases hd
        exact .inr (mem_of_loadDue hrow)
  | deliver rows kinds =>
    cases rows with
    | nil =>
      cases h
      refine .inl ⟨fun d hd row hrow => ?_, rfl, .refl _⟩
      cases hd
      cases hrow
    | cons row rows =>
      dsimp only at h
      split at h
      · rename_i st'' hdeliver
        cases h
        refine .inr ⟨row, List.mem_cons_self .., fun d hd held hheld => ?_, ?_, rfl⟩
        · cases hd
          exact List.mem_cons_of_mem _ hheld
        · split at hdeliver
          · cases hdeliver
          · exact hdeliver
      · cases h
        refine .inl ⟨fun d hd held hheld => ?_, rfl, .refl _⟩
        cases hd
        exact .inl (List.mem_cons_of_mem _ hheld)
  | acknowledge row rows kinds =>
    cases h
    refine .inl ⟨fun d hd held hheld => ?_, rfl, ?_⟩
    · cases hd
      exact .inl hheld
    · split
      · exact .refl _
      · exact tidies_deleteDeliveredRow row st
  | fail row message rows kinds =>
    cases h
    refine .inl ⟨fun d hd held hheld => ?_, rfl, ?_⟩
    · cases hd
      exact .inl hheld
    · split
      · exact .refl _
      · exact tidies_recordFailure row nowMs message st

/-- A drain that has gone on holds what it holds, and the others what they held. -/
theorem holds_of_moved {index : Nat} {drain' : Option Drain} {row : OutboxRow}
    (h : ∃ d ∈ moveDrain w.drains index drain', row ∈ d.stage.held) :
    w.Holds row ∨ ∃ d ∈ drain', row ∈ d.stage.held := by
  obtain ⟨d, hd, hrow⟩ := h
  cases drain' with
  | none => exact .inl ⟨d, List.mem_of_mem_eraseIdx hd, hrow⟩
  | some moved =>
    rcases List.mem_or_eq_of_mem_set hd with hd | rfl
    · exact .inl ⟨d, hd, hrow⟩
    · exact .inr ⟨d, rfl, hrow⟩

theorem consistent_drain {index : Nat} {fault : Bool} {error : String} (hw : Consistent w) :
    Consistent (w.step scanner scanItem (.drain index fault error)) := by
  rw [DrainWorld.step]
  split
  · exact hw
  · rename_i drain hdrain
    have hmem := List.mem_of_getElem? hdrain
    rcases hstep : drain.step fault error w.store with ⟨drain', st', notices⟩
    rcases drainStep_cases hstep with
      ⟨hheld, rfl, hqueued, kept, f, hsame, houtbox, hkept⟩ |
      ⟨row, hrow, hheld, hdeliver, rfl⟩
    · refine @Consistent.rewrite _ _ f kept [] hw ⟨hsame, houtbox, hqueued, rfl,
        fun row hrow => ?_, fun _ hnotice => absurd hnotice List.not_mem_nil,
        fun row _ hpending => .inl (hkept row hpending)⟩
      rcases holds_of_moved hrow with hrow | ⟨d, hd, hrow⟩
      · exact .inl hrow
      · exact (hheld d hd row hrow).imp_left fun hrow => ⟨drain, hmem, hrow⟩
    · refine Consistent.deliver hw ⟨drain, hmem, hrow⟩ hdeliver rfl fun held hholds => ?_
      rcases holds_of_moved hholds with hholds | ⟨d, hd, hmemHeld⟩
      · exact hholds
      · exact ⟨drain, hmem, hheld d hd held hmemHeld⟩

/-- Drains that hold no more rows. -/
theorem Consistent.of_holds {w' : DrainWorld} (hw : Consistent w) (hstore : w'.store = w.store)
    (hjournal : w'.journal = w.journal) (hholds : ∀ row, w'.Holds row → w.Holds row) :
    Consistent w' := by
  refine @Consistent.rewrite _ _ id (fun _ => true) [] hw ⟨fun _ => ⟨rfl, rfl, rfl⟩, ?_,
    by rw [hstore], by rw [hjournal, List.append_nil], fun row hrow => .inl (hholds row hrow),
    fun _ hnotice => absurd hnotice List.not_mem_nil, fun _ _ _ => .inl rfl⟩
  rw [hstore, List.filter_true, List.map_id]

/-- **One step** keeps the items in order. -/
theorem consistent_step {step : WorldStep} (hw : Consistent w)
    (hfresh : step.Fresh scanner scanItem w) : Consistent (w.step scanner scanItem step) := by
  cases step with
  | op op => exact consistent_op hw hfresh
  | start nowMs perKindLimit =>
    refine hw.of_holds rfl rfl ?_
    rintro row ⟨drain, hdrain, hrow⟩
    rcases List.mem_append.mp hdrain with hdrain | hdrain
    · exact ⟨drain, hdrain, hrow⟩
    · rw [List.mem_singleton.mp hdrain] at hrow
      cases hrow
  | drain index fault error => exact consistent_drain hw
  | crash index =>
    refine hw.of_holds rfl rfl ?_
    rintro row ⟨drain, hdrain, hrow⟩
    exact ⟨drain, List.mem_of_mem_eraseIdx hdrain, hrow⟩

theorem consistent_run {steps : List WorldStep} (hw : Consistent w)
    (hfresh : FreshKeys scanner scanItem steps w) :
    Consistent (w.run scanner scanItem steps) := by
  induction steps generalizing w with
  | nil => exact hw
  | cons step steps ih => exact ih (consistent_step hw hfresh.1) hfresh.2

end Runs

/-! ## A key that comes back -/

namespace Sample

def live : HistorianDurableState where
  state := .publishing
  firingSeq := 1
  selectedRangeIdentities := [⟨"a#0", ["text"]⟩]
  producerRunId := some "run"

/-- A session that is about to publish its first firing. -/
def atFirstFiring (revertEpoch : Nat) : ModuleMeta where
  historian := live
  revertEpoch := revertEpoch
  blockIdentityByMid := [("a#0", ["text"])]

def eventOf (kind : String) : HistorianEventCandidate where
  kind := kind
  atCompartment := some 1
  compartmentId := some 1
  fields := []
  createdAt := 7

/-- The publication of a first firing, which has one event. -/
def firstPublication (expectedRowVersion revertEpoch : Nat) (kind : String) : WorldStep :=
  .op (.publish
    { expectedRowVersion := some expectedRowVersion
      expectedRevertEpoch := revertEpoch
      predicate := ⟨1, "run", "", [⟨"a#0", ["text"]⟩], {}⟩
      compartments := [⟨1, 0, 1⟩]
      events := [eventOf kind]
      primerCandidates := []
      userMemoryCandidates := []
      publicationFloorOrdinal := 2 } 7)

/-- A firing is published, and two drains that both load its event take turns. -/
def delivery : List WorldStep :=
  [.op (.commit none "core" (atFirstFiring 0)), firstPublication 1 0 "before", .start 7 32,
    .start 7 32, .drain 0 false "", .drain 1 false "", .drain 0 false "", .drain 1 false "",
    .drain 0 false "", .drain 1 false "", .drain 0 false "", .drain 1 false ""]

theorem delivery_fresh : FreshKeys unscanned id delivery {} := by
  refine ⟨trivial, fun _ _ _ row hholds => ?_, trivial, trivial, trivial, trivial, trivial, trivial,
    trivial, trivial, trivial, trivial, trivial⟩
  obtain ⟨drain, hdrain, -⟩ := hholds
  exact absurd hdrain List.not_mem_nil

/-- A drain loads the event of a firing; the session is reset; its new first firing is published;
the drain goes on. -/
def staleRun : List WorldStep :=
  [.op (.commit none "core" (atFirstFiring 0)), firstPublication 1 0 "before", .start 7 32,
    .drain 0 false "", .drain 0 false "", .op (.reset (some 2)),
    .op (.commit (some 3) "core" (atFirstFiring 1)), firstPublication 4 1 "after",
    .drain 0 false ""]

end Sample

end MagicContext.Historian
