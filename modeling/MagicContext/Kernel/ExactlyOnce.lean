import MagicContext.Kernel.Run

/-!
# Exactly-once commits

The operation of a commit cannot reach the tables that the end of the commit writes: the change
events, the outbox and the receipts.  So a commit that succeeds has published exactly the list of
its changes, and has stored the receipt under which every later call with its producer and its key
is answered.

## What is here

* `TableName.closing` — the tables no operation touches.
* `publish_eq_ok` — what the end of a commit writes.
* `CommitCase` — the ways a call of `commit` can go.
* `commits_exactly_once` — what holds between the commits of a run.
-/

namespace MagicContext.Kernel

open Transaction RedactedIntent

/-! ## What an operation cannot touch -/

/-- The tables that the commit itself writes, before and after its operation. -/
def TableName.closing : TableName → Bool
  | .commitLog | .changeEvent | .outbox | .operationReceipts | .alignmentProjection
  | .alignmentProjectionState => true
  | _ => false

theorem SliceWrites.not_closing {seq : Nat} {w : Write} (h : SliceWrites seq w) :
    w.target.closing = false := by
  cases h with
  | invalidateTyped table | succeedTyped table => cases table <;> rfl
  | admission w hw => cases hw <;> rfl
  | _ => rfl

/-- **An operation stays out of the commit's own tables.** -/
theorem OperationWrites.not_closing {seq : Nat} {w : Write} (h : OperationWrites seq w) :
    w.target.closing = false := by
  cases h with
  | governance hw =>
    cases hw with
    | domain hw => cases hw <;> rfl
    | slice hw => exact hw.not_closing
  | control hw => cases hw <;> rfl
  | artifact hw => cases hw <;> rfl

/-- The tables the end of a commit adds rows to. -/
def TableName.publishing : TableName → Bool
  | .changeEvent | .outbox | .operationReceipts => true
  | _ => false

/-- Their contents. -/
structure Published where
  changeEvent : List ChangeEventRow
  outbox : List OutboxRow
  outboxSequence : Nat
  receipts : List ReceiptRow

namespace Published

variable (p : Published)

def withEvents (events : List ChangeEventRow) : Published :=
  { p with changeEvent := p.changeEvent ++ events }

/-- Rows with the next positions. -/
def withOutbox (rows : List OutboxRow) : Published :=
  { p with outbox := p.outbox ++ rows, outboxSequence := p.outboxSequence + rows.length }

def withReceipt (receipt : ReceiptRow) : Published :=
  { p with receipts := p.receipts ++ [receipt] }

@[simp] theorem withEvents_outboxSequence (events : List ChangeEventRow) :
    (p.withEvents events).outboxSequence = p.outboxSequence := rfl

@[simp] theorem withOutbox_outboxSequence (rows : List OutboxRow) :
    (p.withOutbox rows).outboxSequence = p.outboxSequence + rows.length := rfl

theorem withEvents_nil : p.withEvents [] = p := by
  rw [withEvents, List.append_nil]

theorem withEvents_append (events rest : List ChangeEventRow) :
    (p.withEvents events).withEvents rest = p.withEvents (events ++ rest) := by
  simp only [withEvents, List.append_assoc]

theorem withOutbox_nil : p.withOutbox [] = p := by
  rw [withOutbox, List.append_nil, List.length_nil, Nat.add_zero]

theorem withOutbox_append (rows rest : List OutboxRow) :
    (p.withOutbox rows).withOutbox rest = p.withOutbox (rows ++ rest) := by
  simp only [withOutbox, List.append_assoc, List.length_append, Nat.add_assoc]

end Published

open Published

def Db.published (db : Db) : Published where
  changeEvent := db.changeEvent.rows
  outbox := db.outbox.rows
  outboxSequence := db.outboxSequence
  receipts := db.operationReceipts.rows

theorem published_eq {db db' : Db} {t : TableName} (h : db.ChangesOnly t db')
    (ht : t.publishing = false) : db'.published = db.published := by
  cases h with
  | changeEvent | outbox | operationReceipts => cases ht
  | _ => rfl

theorem TableName.publishing_of_closing {t : TableName} (h : t.closing = false) :
    t.publishing = false := by
  cases t <;> first | rfl | cases h

/-- The redaction rows of published texts. -/
def RedactionWrites (_ : Nat) (w : Write) : Prop := ∃ row, w = .insertRedaction row

theorem published_of_redactions {s s' : Session} (h : Evolves RedactionWrites s s') :
    s'.envelope.tx.published = s.envelope.tx.published :=
  h.agree Db.published fun w db db' hw hdb => by
    obtain ⟨row, rfl⟩ := hw
    exact published_eq hdb rfl

theorem evolves_recordFields_redactions (ownerKind ownerId : String)
    (fields : List (String × RedactedField)) :
    Keeps (Evolves RedactionWrites) (recordFields ownerKind ownerId fields) :=
  evolves_recordFields (fun _ row => ⟨row, rfl⟩) _ _ _

/-! ## Publication -/

section Publication
variable {s s' : Session} {u : Unit} {transactionId : String} {ordinal : Nat}

theorem publishEvent_eq_ok {change : PendingChange}
    (h : publishEvent transactionId change ordinal s = .ok u s') :
    s'.envelope.commitSeq = s.envelope.commitSeq ∧ s'.envelope.tx.published =
      s.envelope.tx.published.withEvents
        [change.event transactionId s.envelope.commitSeq ordinal] := by
  rw [publishEvent, commitSeq_bind] at h
  obtain ⟨tx, rows, happly, h⟩ := exec_bind_eq_ok h
  obtain ⟨t, hinsert, heq⟩ := Checks.bind_eq_ok.mp happly
  cases heq
  have hrecord := (evolves_recordFields_redactions _ _ _).ok h
  refine ⟨hrecord.commitSeq, ?_⟩
  rw [published_of_redactions hrecord]
  change mk t.rows _ _ _ = _
  rw [insertRow_rows hinsert]
  rfl

theorem publishOutbox_eq_ok {recordedAt : Int} {change : PendingChange}
    (h : publishOutbox recordedAt change ordinal s = .ok u s') :
    s'.envelope.commitSeq = s.envelope.commitSeq ∧ s'.envelope.tx.published =
      s.envelope.tx.published.withOutbox
        [change.outboxRow recordedAt s.envelope.commitSeq ordinal
          (s.envelope.tx.published.outboxSequence + 1)] := by
  rw [publishOutbox, commitSeq_bind] at h
  obtain ⟨tx, rows, happly, h⟩ := exec_bind_eq_ok h
  obtain ⟨t, hinsert, heq⟩ := Checks.bind_eq_ok.mp happly
  cases heq
  obtain ⟨position, s₃, hlast, h⟩ := bind_eq_ok.mp h
  obtain ⟨rfl, rfl⟩ := EStateM.Result.ok.inj hlast
  have hrecord := (evolves_recordFields_redactions _ _ _).ok h
  refine ⟨hrecord.commitSeq, ?_⟩
  rw [published_of_redactions hrecord]
  change mk _ t.rows _ _ = _
  rw [insertRow_rows hinsert]
  rfl

/-- The change events of a list of changes, from an ordinal on. -/
def eventsFrom (transactionId : String) (commitSeq ordinal : Nat) (changes : List PendingChange) :
    List ChangeEventRow :=
  (changes.zipIdx ordinal).map fun (change, i) => change.event transactionId commitSeq i

/-- The outbox rows of a list of changes, from an ordinal on; `base` is the position before the
first row of the commit. -/
def outboxFrom (recordedAt : Int) (commitSeq base ordinal : Nat) (changes : List PendingChange) :
    List OutboxRow :=
  (changes.zipIdx ordinal).map fun (change, i) =>
    change.outboxRow recordedAt commitSeq i (base + i + 1)

theorem publishFrom_event_eq_ok {changes : List PendingChange}
    (h : publishFrom (publishEvent transactionId) ordinal changes s = .ok u s') :
    s'.envelope.commitSeq = s.envelope.commitSeq ∧ s'.envelope.tx.published =
      s.envelope.tx.published.withEvents
        (eventsFrom transactionId s.envelope.commitSeq ordinal changes) := by
  induction changes generalizing ordinal s with
  | nil =>
    obtain ⟨-, rfl⟩ := EStateM.Result.ok.inj h
    exact ⟨rfl, (withEvents_nil _).symm⟩
  | cons change rest ih =>
    obtain ⟨_, s₁, hfirst, h⟩ := bind_eq_ok.mp h
    obtain ⟨hseq, hpub⟩ := publishEvent_eq_ok hfirst
    obtain ⟨hseq', hpub'⟩ := ih h
    refine ⟨hseq'.trans hseq, ?_⟩
    rw [hpub', hpub, hseq, withEvents_append]
    rfl

theorem publishFrom_outbox_eq_ok {recordedAt : Int} {changes : List PendingChange}
    {base : Nat} (hbase : s.envelope.tx.published.outboxSequence = base + ordinal)
    (h : publishFrom (publishOutbox recordedAt) ordinal changes s = .ok u s') :
    s'.envelope.commitSeq = s.envelope.commitSeq ∧ s'.envelope.tx.published =
      s.envelope.tx.published.withOutbox
        (outboxFrom recordedAt s.envelope.commitSeq base ordinal changes) := by
  induction changes generalizing ordinal s with
  | nil =>
    obtain ⟨-, rfl⟩ := EStateM.Result.ok.inj h
    exact ⟨rfl, (withOutbox_nil _).symm⟩
  | cons change rest ih =>
    obtain ⟨_, s₁, hfirst, h⟩ := bind_eq_ok.mp h
    obtain ⟨hseq, hpub⟩ := publishOutbox_eq_ok hfirst
    have hbase' : s₁.envelope.tx.published.outboxSequence = base + (ordinal + 1) := by
      rw [hpub, withOutbox_outboxSequence, hbase, List.length_singleton, Nat.add_assoc]
    obtain ⟨hseq', hpub'⟩ := ih hbase' h
    refine ⟨hseq'.trans hseq, ?_⟩
    rw [hpub', hpub, hseq, hbase, withOutbox_append]
    rfl

theorem evolves_alignmentAffected {P : Nat → Write → Prop} (changes : List PendingChange) :
    Keeps (Evolves P) (alignmentAffected changes) := by
  rw [alignmentAffected]
  split
  · exact evolves_pure _
  · split
    · exact evolves_bind (fun s => Evolves.refl _ s) fun _ => evolves_query _
    · exact evolves_pure _

theorem evolves_rebuildIfAffected (sys : Platform) (changes : List PendingChange) :
    Keeps (Evolves ProjectionWrites) (rebuildIfAffected sys changes) := by
  refine evolves_bind (evolves_alignmentAffected _) fun affected => ?_
  cases affected with
  | true => exact evolves_rebuildAlignment
  | false => exact evolves_pure _

theorem published_of_rebuild (h : Evolves ProjectionWrites s s') :
    s'.envelope.tx.published = s.envelope.tx.published :=
  h.agree Db.published fun w db db' hw hdb => published_eq hdb (by cases hw <;> rfl)

theorem requireUnpoisoned_eq_ok :
    requireUnpoisoned s = .ok u s' ↔ s.envelope.poisoned = none ∧ s' = s := by
  rw [requireUnpoisoned]
  cases s.envelope.poisoned with
  | none => simp [eq_comm]
  | some e => simp

/-- **The end of a commit** publishes the changes of its envelope and stores its receipt. -/
theorem publish_eq_ok {sys : Platform} {intent : RedactedIntent}
    {recordedAt : Int} {afterEvents : Except KernelError Unit} {result : String}
    {receipt : CommitReceipt}
    (h : publish sys intent transactionId recordedAt afterEvents result s = .ok receipt s') :
    s.envelope.poisoned = none ∧
      receipt = { commitSeq := s.envelope.commitSeq, result := receipt.result, replayed := false } ∧
      s'.envelope.tx.published =
        ((s.envelope.tx.published.withEvents
            (eventsFrom transactionId s.envelope.commitSeq 0 s.envelope.changes)).withOutbox
          (outboxFrom recordedAt s.envelope.commitSeq s.envelope.tx.published.outboxSequence 0
            s.envelope.changes)).withReceipt
          (intent.receipt transactionId s.envelope.commitSeq receipt.result recordedAt) := by
  rw [publish, bind_eq_ok] at h
  obtain ⟨_, s₁, hpoison, h⟩ := h
  obtain ⟨hclean, heq₁⟩ := requireUnpoisoned_eq_ok.mp hpoison
  subst s₁
  refine ⟨hclean, ?_⟩
  obtain ⟨changes, s₂, hchanges, h⟩ := bind_eq_ok.mp h
  obtain ⟨rfl, rfl⟩ := EStateM.Result.ok.inj hchanges
  obtain ⟨redacted, -, h⟩ := check_bind_eq_ok.mp h
  obtain ⟨_, s₄, hevents, h⟩ := bind_eq_ok.mp h
  obtain ⟨hseq, hpub⟩ := publishFrom_event_eq_ok hevents
  obtain ⟨_, -, h⟩ := check_bind_eq_ok.mp h
  obtain ⟨_, s₆, houtbox, h⟩ := bind_eq_ok.mp h
  obtain ⟨hseq', hpub'⟩ :=
    @publishFrom_outbox_eq_ok _ _ _ _ _ _ s₄.envelope.tx.published.outboxSequence rfl houtbox
  rw [commitSeq_bind] at h
  obtain ⟨tx, rows, happly, h⟩ := exec_bind_eq_ok h
  obtain ⟨t, hinsert, heq⟩ := Checks.bind_eq_ok.mp happly
  cases heq
  obtain ⟨_, s₉, hrecord, h⟩ := bind_eq_ok.mp h
  have hrecord :=
    (evolves_record (P := RedactionWrites) (fun _ row => ⟨row, rfl⟩) _ _ _ _).ok hrecord
  obtain ⟨_, s₁₀, hrebuild, h⟩ := bind_eq_ok.mp h
  have hrebuild := (evolves_rebuildIfAffected sys _).ok hrebuild
  obtain ⟨_, -, h⟩ := query_bind_eq_ok h
  obtain ⟨rfl, rfl⟩ := EStateM.Result.ok.inj h
  have hseqs := hseq'.trans hseq
  refine ⟨by rw [← hseqs], ?_⟩
  rw [advance_envelope, published_of_rebuild hrebuild, published_of_redactions hrecord]
  calc (mk _ _ _ t.rows)
    _ = s₆.envelope.tx.published.withReceipt _ := by
      rw [insertRow_rows hinsert]
      rfl
    _ = _ := by rw [hpub', hpub, withEvents_outboxSequence, hseqs, hseq]

end Publication

/-! ## The ways a commit can go -/

section Cases
variable (sys : Platform)

theorem beginCommit_eq_ok {leaseEpoch : Nat} {intent : RedactedIntent} {transactionId : String}
    {recordedAt : Int} {s s' : Session} {u : Unit}
    (h : beginCommit leaseEpoch intent transactionId recordedAt s = .ok u s') :
    s'.envelope.commitSeq = s.envelope.tx.commitSequence + 1 ∧
      s'.envelope.tx.published = s.envelope.tx.published ∧ s'.envelope.poisoned = none := by
  rw [beginCommit] at h
  obtain ⟨tx, rows, happly, h⟩ := exec_bind_eq_ok h
  obtain ⟨t, -, heq⟩ := Checks.bind_eq_ok.mp happly
  cases heq
  obtain ⟨_, s₂, hopen, h⟩ := bind_eq_ok.mp h
  obtain ⟨-, rfl⟩ := EStateM.Result.ok.inj hopen
  have hrecord := (evolves_bind
    (evolves_record (P := RedactionWrites) (fun _ row => ⟨row, rfl⟩) "commit_log" transactionId
      "actor" intent.actor)
    fun _ => evolves_record (fun _ row => ⟨row, rfl⟩) "commit_log" transactionId "cause"
      intent.cause).ok h
  have hpub := published_of_redactions hrecord
  exact ⟨hrecord.commitSeq, hpub, hrecord.samePoison⟩

theorem runOperation_eq_ok {leaseEpoch : Nat} {intent : RedactedIntent} {operation : Operation}
    {s s' : Session} {a : Int × String}
    (h : runOperation sys leaseEpoch intent operation s = .ok a s') :
    s'.envelope.commitSeq = s.envelope.tx.commitSequence + 1 ∧
      s'.envelope.tx.published = s.envelope.tx.published := by
  rw [runOperation, bind_eq_ok] at h
  obtain ⟨recordedAt, s₁, htime, h⟩ := h
  obtain ⟨rfl, rfl⟩ := EStateM.Result.ok.inj htime
  obtain ⟨_, s₂, hbegin, h⟩ := bind_eq_ok.mp h
  obtain ⟨hseq, hpub, -⟩ := beginCommit_eq_ok hbegin
  obtain ⟨result, s₃, hrun, h⟩ := bind_eq_ok.mp h
  obtain ⟨-, rfl⟩ := EStateM.Result.ok.inj h
  have hevolves := (attempts_operation operation).ok hrun
  refine ⟨hevolves.commitSeq.trans hseq, ?_⟩
  rw [hevolves.agree Db.published fun w db db' hw hdb =>
    published_eq hdb (TableName.publishing_of_closing hw.not_closing)]
  exact hpub

/-- The list of changes of a commit's operation, when it ends. -/
def CommitCall.changes (call : CommitCall) (db : Db) : List PendingChange :=
  match RedactedIntent.new sys call.intent with
  | .ok intent =>
    (final (runOperation sys call.leaseEpoch intent call.operation)
      (startSession db call.answers.tail)).envelope.changes
  | .error _ => []

/-- The store without the projection and the metadata of its texts. -/
def Db.withoutProjection (db : Db) : Db :=
  { db with
    alignmentProjection := .empty
    alignmentProjectionState := none
    redactions := db.redactions.delete fun r => r.ownerKind == "alignment_projection" }

/-- The stores differ at most in the projection. -/
def SameButProjection (db db' : Db) : Prop := db'.withoutProjection = db.withoutProjection

/-- A row of its metadata is not seen. -/
theorem withoutProjection_redactions {db : Db} {t : Table fun r : RedactionRow =>
    (r.ownerKind, r.ownerId, r.fieldName, r.detectionOrdinal)}
    (h : t.rows.filter (fun r => !(r.ownerKind == "alignment_projection")) =
      db.redactions.rows.filter fun r => !(r.ownerKind == "alignment_projection")) :
    SameButProjection db { db with redactions := t } := by
  have ht : t.delete (fun r => r.ownerKind == "alignment_projection") =
      db.redactions.delete fun r => r.ownerKind == "alignment_projection" := Table.ext h
  simp only [SameButProjection, Db.withoutProjection, ht]

theorem sameButProjection_of_rebuild {s s' : Session} (h : Evolves ProjectionWrites s s') :
    SameButProjection s.envelope.tx s'.envelope.tx :=
  h.frame Db.withoutProjection fun w tx tx' rows hw happly => by
    cases hw with
    | clear | generation =>
      cases happly
      rfl
    | insert row =>
      obtain ⟨t, -, heq⟩ := Checks.bind_eq_ok.mp happly
      cases heq
      rfl
    | clearRedactions =>
      cases happly
      refine withoutProjection_redactions ?_
      change (tx.redactions.rows.filter _).filter _ = _
      rw [List.filter_filter]
      exact List.filter_congr fun r _ => Bool.and_self _
    | redaction row howner =>
      obtain ⟨t, hinsert, heq⟩ := Checks.bind_eq_ok.mp happly
      cases heq
      refine withoutProjection_redactions ?_
      rw [insertRow_rows hinsert, List.filter_append, List.filter_singleton, howner]
      exact List.append_nil _

theorem sameButProjection_repair (leaseEpoch : Nat) (db : Db) (answers : List Answer) :
    SameButProjection db (repairAlignment sys leaseEpoch db answers) := by
  rw [repairAlignment]
  split
  · have h := @evolves_rebuildAlignment sys
    cases hrun : rebuildAlignment sys (startSession db answers) with
    | ok _ s => exact sameButProjection_of_rebuild (h.ok hrun)
    | error => exact rfl
  · exact rfl

/-- The receipt under the call's producer and key. -/
abbrev CommitCall.receiptIn (call : CommitCall) (db : Db) : Option ReceiptRow :=
  findReceipt call.intent.producer call.intent.operationKey db

/-- What the tables hold after the end of a commit. -/
def CommitCall.publishedIn (call : CommitCall) (transactionId : String) (recordedAt : Int)
    (receipt : ReceiptRow) (db : Db) : Published :=
  let seq := db.commitSequence + 1
  let changes := call.changes sys db
  ((db.published.withEvents (eventsFrom transactionId seq 0 changes)).withOutbox
    (outboxFrom recordedAt seq db.outboxSequence 0 changes)).withReceipt receipt

/-- The ways a call of `commit` can go, with what it returns and leaves. -/
inductive CommitCase (call : CommitCall) (db : Db) : Except KernelError CommitReceipt → Db → Prop
  | failed (e : KernelError) : CommitCase call db (.error e) db
  | replayed (receipt : ReceiptRow) (after : Db) (hfind : call.receiptIn db = some receipt)
      (hdigest : receipt.requestDigest = call.intent.requestDigest)
      (hafter : SameButProjection db after) :
      CommitCase call db (.ok { commitSeq := receipt.commitSeq, result := receipt.resultPayload
                                replayed := true }) after
  | applied (transactionId result : String) (recordedAt : Int) (receipt : ReceiptRow) (after : Db)
      (hfind : call.receiptIn db = none)
      (hreceipt : receipt.producer = call.intent.producer ∧
        receipt.operationKey = call.intent.operationKey ∧
        receipt.requestDigest = call.intent.requestDigest ∧
        receipt.commitSeq = db.commitSequence + 1 ∧ receipt.resultPayload = result)
      (hafter : after.published = call.publishedIn sys transactionId recordedAt receipt db) :
      CommitCase call db (.ok { commitSeq := db.commitSequence + 1, result := result
                                replayed := false }) after

/-- The lookup keys of an intent are stored as they are. -/
theorem RedactedIntent.new_eq_ok {intent : CommitIntent} {redacted : RedactedIntent}
    (h : new sys intent = .ok redacted) :
    redacted.producer = intent.producer ∧ redacted.operationKey = intent.operationKey ∧
      redacted.requestDigest = intent.requestDigest := by
  rw [new] at h
  split at h
  · cases h
  · obtain ⟨producer, hproducer, h⟩ := Checks.bind_eq_ok.mp h
    obtain ⟨operationKey, hkey, h⟩ := Checks.bind_eq_ok.mp h
    obtain ⟨actor, -, h⟩ := Checks.bind_eq_ok.mp h
    obtain ⟨cause, -, h⟩ := Checks.bind_eq_ok.mp h
    cases h
    exact ⟨sys.identity_eq_ok hproducer, sys.identity_eq_ok hkey, rfl⟩

/-- **Every call of `commit`** goes one of the ways. -/
theorem commit_cases (call : CommitCall) (db : Db) :
    CommitCase sys call db (call.run sys db).1 (call.run sys db).2 := by
  rw [CommitCall.run, commit]
  cases hintent : new sys call.intent with
  | error e => exact .failed e
  | ok intent =>
    obtain ⟨hproducer, hkey, hdigest⟩ := new_eq_ok sys hintent
    dsimp only
    rw [commitPrepared]
    split
    · exact .failed _
    · split
      · exact .failed _
      · split
        · rename_i receipt hfind
          rw [replay]
          split
          · exact .failed _
          · rename_i hsame
            rw [hproducer, hkey] at hfind
            refine .replayed receipt _ hfind ((not_not.mp hsame).trans hdigest) ?_
            split
            · exact sameButProjection_repair sys _ _ _
            · exact rfl
        · rename_i hfind
          cases hrun : runCommit sys call.leaseEpoch intent call.operation call.afterEvents
              (startSession db call.answers.tail) with
          | error e s => exact .failed e
          | ok receipt s =>
            obtain ⟨⟨recordedAt, result⟩, s₁, hoperation, hpublish⟩ := bind_eq_ok.mp hrun
            obtain ⟨hseq, hpub⟩ := runOperation_eq_ok sys hoperation
            obtain ⟨-, hreceipt, hafter⟩ := publish_eq_ok hpublish
            have hchanges : call.changes sys db = s₁.envelope.changes := by
              rw [CommitCall.changes, hintent]
              exact congrArg (fun s => s.envelope.changes) (final_of_ok hoperation)
            rw [hseq, hpub] at hafter
            rw [hseq] at hreceipt
            rw [settle, hreceipt]
            refine .applied (intent.operationIdentity sys) _ recordedAt
              (intent.receipt (intent.operationIdentity sys) (db.commitSequence + 1)
                receipt.result recordedAt) _ (by rwa [hproducer, hkey] at hfind)
              ⟨hproducer, hkey, hdigest, rfl, rfl⟩ ?_
            rw [CommitCall.publishedIn, hchanges]
            exact hafter

variable {sys}

theorem CommitCase.of_error {call : CommitCall} {db after : Db} {e : KernelError}
    (h : CommitCase sys call db (.error e) after) : after = db := by
  cases h
  rfl

/-! ## Receipts stay -/

theorem findReceipt_append {producer operationKey : String} {db db' : Db}
    {receipts : List ReceiptRow} {receipt : ReceiptRow}
    (hrows : db'.operationReceipts.rows = db.operationReceipts.rows ++ receipts)
    (h : findReceipt producer operationKey db = some receipt) :
    findReceipt producer operationKey db' = some receipt := by
  rw [findReceipt] at h ⊢
  rw [hrows, List.find?_append, h, Option.some_or]

/-- The receipt a commit leaves answers for its key. -/
theorem findReceipt_new {db db' : Db} {receipt : ReceiptRow}
    (hrows : db'.operationReceipts.rows = db.operationReceipts.rows ++ [receipt])
    (h : findReceipt receipt.producer receipt.operationKey db = none) :
    findReceipt receipt.producer receipt.operationKey db' = some receipt := by
  rw [findReceipt] at h ⊢
  rw [hrows, List.find?_append, h, Option.none_or, List.find?_singleton, if_pos]
  rw [beq_self_eq_true, beq_self_eq_true]
  rfl

theorem SameButProjection.receipts {db db' : Db} (h : SameButProjection db db') :
    db'.operationReceipts.rows = db.operationReceipts.rows :=
  congrArg (fun db => db.operationReceipts.rows) h

variable (sys) in
/-- No transaction removes a receipt. -/
theorem receipts_run (a : Action) (db : Db) :
    ∃ receipts, (a.run sys db).operationReceipts.rows = db.operationReceipts.rows ++ receipts := by
  cases a with
  | commit call =>
    have hcase := commit_cases sys call db
    rw [Action.run]
    generalize (call.run sys db).1 = result at hcase
    generalize (call.run sys db).2 = after at hcase ⊢
    cases hcase with
    | failed => exact ⟨[], (List.append_nil _).symm⟩
    | replayed receipt _ _ _ hafter =>
      exact ⟨[], by rw [hafter.receipts, List.append_nil]⟩
    | applied transactionId result recordedAt receipt _ _ _ hafter =>
      exact ⟨[receipt], congrArg receipts hafter⟩
  | upkeep u =>
    refine ⟨[], ?_⟩
    rw [List.append_nil, Action.run]
    cases u with
    | rebuildAlignment leaseEpoch answers =>
      exact (sameButProjection_repair sys leaseEpoch db answers).receipts
    | acknowledgeOutbox consumerId checkpoint updatedAt =>
      rw [Upkeep.run, acknowledgeOutbox]
      split <;> rfl
    | pruneOutbox =>
      rw [Upkeep.run, pruneOutbox]
      split <;> rfl
    | stampWriterFence | mergeReplayedClassification | markOutboxPublishedThrough | reserve
    | stage => rfl

/-- A receipt that a store has is there for every later commit. -/
theorem findReceipt_commits {producer operationKey : String} {receipt : ReceiptRow}
    (actions : List Action) (db : Db) (h : findReceipt producer operationKey db = some receipt) :
    ∀ c ∈ commits sys actions db, findReceipt producer operationKey c.before = some receipt := by
  induction actions generalizing db with
  | nil => exact fun c hc => absurd hc List.not_mem_nil
  | cons a rest ih =>
    obtain ⟨receipts, hrows⟩ := receipts_run sys a db
    have hnext := ih (a.run sys db) (findReceipt_append hrows h)
    cases a with
    | commit call =>
      intro c hc
      rcases List.mem_cons.mp hc with rfl | hc
      · exact h
      · exact hnext c hc
    | upkeep u => exact hnext

/-! ## Runs -/

namespace Committed

variable (sys) (c c' : Committed)

/-- The commit applied the operation of a producer under a key. -/
def applies (producer operationKey : String) : Bool :=
  c.call.intent.producer == producer && c.call.intent.operationKey == operationKey &&
    match c.result sys with
    | .ok receipt => !receipt.replayed
    | .error _ => false

/-- The call gets as far as the receipts: its intent is valid, the database answers and the lease
holds. -/
def ReachesReceipts : Prop :=
  (∃ intent, RedactedIntent.new sys c.call.intent = .ok intent) ∧
    (c.call.answers.headD {}).fault = none ∧ fenceHolds c.call.leaseEpoch c.before = true

/-- If the first commit succeeded and the second has its producer and its key, the second leaves
the store alone but for the projection; with the digest of the first it returns what the first
returned, with another digest it is a conflict. -/
def RetriedBy : Prop :=
  ∀ receipt, c.result sys = .ok receipt → c'.call.intent.producer = c.call.intent.producer →
    c'.call.intent.operationKey = c.call.intent.operationKey →
    SameButProjection c'.before (c'.after sys) ∧
    (c'.call.intent.requestDigest = c.call.intent.requestDigest →
      (∀ receipt', c'.result sys = .ok receipt' → receipt' = { receipt with replayed := true }) ∧
      (c'.ReachesReceipts sys → c'.result sys = .ok { receipt with replayed := true })) ∧
    (c'.call.intent.requestDigest ≠ c.call.intent.requestDigest → (∃ e, c'.result sys = .error e) ∧
      (c'.ReachesReceipts sys → c'.result sys = .error .conflict))

/-- The rows a commit that is not a retry adds to the change events and to the outbox are those of
its operation's changes, in order and with the ordinals from zero on. -/
def PublishesChanges : Prop :=
  ∀ receipt, c.result sys = .ok receipt → receipt.replayed = false →
    ∃ transactionId recordedAt,
      (c.after sys).changeEvent.rows = c.before.changeEvent.rows ++
        eventsFrom transactionId receipt.commitSeq 0 (c.call.changes sys c.before) ∧
      (c.after sys).outbox.rows = c.before.outbox.rows ++
        outboxFrom recordedAt receipt.commitSeq c.before.outboxSequence 0
          (c.call.changes sys c.before)

end Committed

section Runs
variable {c : Committed}

variable (sys) in
theorem Committed.case (c : Committed) :
    CommitCase sys c.call c.before (c.result sys) (c.after sys) :=
  commit_cases sys c.call c.before

/-- What a call does that finds a receipt. -/
theorem answer_of_found {receipt : ReceiptRow} (hfind : c.call.receiptIn c.before = some receipt) :
    SameButProjection c.before (c.after sys) ∧
      ((∃ e, c.result sys = .error e) ∨
        receipt.requestDigest = c.call.intent.requestDigest ∧
          c.result sys = .ok
            { commitSeq := receipt.commitSeq, result := receipt.resultPayload, replayed := true }) := by
  have hcase := c.case sys
  generalize c.result sys = result at hcase ⊢
  generalize c.after sys = after at hcase ⊢
  cases hcase with
  | failed e => exact ⟨rfl, Or.inl ⟨e, rfl⟩⟩
  | replayed receipt' _ hfind' hdigest hafter =>
    obtain rfl := Option.some.inj (hfind.symm.trans hfind')
    exact ⟨hafter, Or.inr ⟨hdigest, rfl⟩⟩
  | applied _ _ _ _ _ hnone =>
    rw [hfind] at hnone
    cases hnone

/-- A call that gets as far as the receipts and finds one is answered from it. -/
theorem result_of_found {receipt : ReceiptRow} (hreaches : c.ReachesReceipts sys)
    (hfind : c.call.receiptIn c.before = some receipt) :
    c.result sys = if receipt.requestDigest = c.call.intent.requestDigest then
      .ok { commitSeq := receipt.commitSeq, result := receipt.resultPayload, replayed := true }
    else .error .conflict := by
  obtain ⟨⟨intent, hintent⟩, hfault, hfence⟩ := hreaches
  rw [CommitCall.receiptIn] at hfind
  obtain ⟨hproducer, hkey, hdigest⟩ := new_eq_ok sys hintent
  rw [Committed.result, CommitCall.run, commit, hintent]
  dsimp only
  rw [commitPrepared, hfence, hproducer, hkey, hfind]
  split
  · rename_i heq
    rw [heq] at hfault
    cases hfault
  · simp only [Bool.not_true, Bool.false_eq_true, if_false, replay, hdigest, ne_eq, ite_not]
    split <;> rfl

/-- A commit that succeeded has a receipt with what it returned. -/
theorem receipt_of_ok {receipt : CommitReceipt} (h : c.result sys = .ok receipt) :
    ∃ row, c.call.receiptIn (c.after sys) = some row ∧
      row.requestDigest = c.call.intent.requestDigest ∧ row.commitSeq = receipt.commitSeq ∧
      row.resultPayload = receipt.result := by
  have hcase := c.case sys
  rw [h] at hcase
  cases hcase with
  | replayed row _ hfind hdigest hafter =>
    exact ⟨row, findReceipt_append (hafter.receipts.trans (List.append_nil _).symm) hfind,
      hdigest, rfl, rfl⟩
  | applied _ _ _ row _ hfind hrow hafter =>
    obtain ⟨hproducer, hkey, hdigest, hseq, hresult⟩ := hrow
    refine ⟨row, ?_, hdigest, hseq, hresult⟩
    rw [CommitCall.receiptIn, ← hproducer, ← hkey] at hfind ⊢
    exact findReceipt_new (congrArg receipts hafter) hfind

theorem retriedBy_of_found {c' : Committed}
    (h : ∀ row, c.call.receiptIn (c.after sys) = some row → c.call.receiptIn c'.before = some row) :
    c.RetriedBy sys c' := by
  intro receipt hok hproducer hkey
  obtain ⟨row, hrow, hdigest, hseq, hresult⟩ := receipt_of_ok hok
  have hfind := h row hrow
  rw [CommitCall.receiptIn, ← hproducer, ← hkey] at hfind
  obtain ⟨hsame, hanswer⟩ := @answer_of_found sys _ _ hfind
  refine ⟨hsame, fun heq => ⟨fun receipt' hok' => ?_, fun hreaches => ?_⟩,
    fun hne => ⟨?_, fun hreaches => ?_⟩⟩
  · rcases hanswer with ⟨e, he⟩ | ⟨-, hanswer⟩
    · rw [he] at hok'
      cases hok'
    · rw [hanswer, hseq, hresult] at hok'
      exact (Except.ok.inj hok').symm
  · rw [result_of_found hreaches hfind, if_pos (hdigest.trans heq.symm), hseq, hresult]
  · rcases hanswer with he | ⟨hdigest', -⟩
    · exact he
    · exact absurd (hdigest'.symm.trans hdigest) hne
  · rw [result_of_found hreaches hfind, if_neg fun h => hne (h.symm.trans hdigest)]

theorem applies_eq_false {producer operationKey : String} {row : ReceiptRow}
    (hfind : findReceipt producer operationKey c.before = some row) :
    c.applies sys producer operationKey = false := by
  by_contra happlies
  rw [Bool.not_eq_false, Committed.applies, Bool.and_eq_true, Bool.and_eq_true, beq_iff_eq,
    beq_iff_eq] at happlies
  obtain ⟨⟨rfl, rfl⟩, happlied⟩ := happlies
  rcases (@answer_of_found sys _ _ hfind).2 with ⟨e, he⟩ | ⟨-, hok⟩
  · rw [he] at happlied
    cases happlied
  · rw [hok] at happlied
    cases happlied

theorem receipt_of_applies {producer operationKey : String}
    (h : c.applies sys producer operationKey = true) :
    ∃ row, findReceipt producer operationKey (c.after sys) = some row := by
  rw [Committed.applies, Bool.and_eq_true, Bool.and_eq_true, beq_iff_eq, beq_iff_eq] at h
  obtain ⟨⟨rfl, rfl⟩, happlied⟩ := h
  cases hresult : c.result sys with
  | error e =>
    rw [hresult] at happlied
    cases happlied
  | ok receipt =>
    obtain ⟨row, hrow, -⟩ := receipt_of_ok hresult
    exact ⟨row, hrow⟩

/-- Each operation is applied at most once. -/
theorem countP_applies_le_one (actions : List Action) (db : Db) (producer operationKey : String) :
    (commits sys actions db).countP (·.applies sys producer operationKey) ≤ 1 := by
  induction actions generalizing db with
  | nil => exact Nat.zero_le 1
  | cons a rest ih =>
    cases a with
    | upkeep u => exact ih _
    | commit call =>
      rw [commits, List.countP_cons]
      by_cases happlies : (Committed.mk call db).applies sys producer operationKey = true
      · obtain ⟨row, hrow⟩ := receipt_of_applies happlies
        have hlater := @findReceipt_commits sys _ _ _ rest _ hrow
        have hzero : (commits sys rest (call.run sys db).2).countP
            (·.applies sys producer operationKey) = 0 := by
          rw [List.countP_eq_zero]
          intro c hc
          rw [applies_eq_false (hlater c hc)]
          exact Bool.false_ne_true
        rw [hzero, if_pos happlies]
      · rw [if_neg happlies]
        exact ih _

theorem pairwise_retriedBy (actions : List Action) (db : Db) :
    (commits sys actions db).Pairwise (Committed.RetriedBy sys) := by
  induction actions generalizing db with
  | nil => exact List.Pairwise.nil
  | cons a rest ih =>
    cases a with
    | upkeep u => exact ih _
    | commit call =>
      refine List.pairwise_cons.mpr ⟨fun c' hc' => retriedBy_of_found fun row hrow => ?_, ih _⟩
      exact findReceipt_commits rest _ hrow c' hc'

theorem publishesChanges (c : Committed) : c.PublishesChanges sys := by
  intro receipt hok hfresh
  have hcase := c.case sys
  rw [hok] at hcase
  cases hcase with
  | replayed => cases hfresh
  | applied transactionId _ recordedAt _ _ _ _ hafter =>
    exact ⟨transactionId, recordedAt, congrArg changeEvent hafter, congrArg outbox hafter⟩

/-- **Commits are exactly-once.**  In every run, each operation key of a producer is applied at most
once; a later commit under a key that succeeded returns the stored sequence and result, or is a
conflict if its digest differs, and changes at most the projection; a commit that fails changes
nothing; and a commit that applies its operation publishes exactly the operation's changes. -/
theorem commits_exactly_once (actions : List Action) (db : Db) :
    (∀ producer operationKey,
      (commits sys actions db).countP (·.applies sys producer operationKey) ≤ 1) ∧
    (commits sys actions db).Pairwise (Committed.RetriedBy sys) ∧
    ∀ c ∈ commits sys actions db,
      (∀ e, c.result sys = .error e → c.after sys = c.before) ∧ c.PublishesChanges sys := by
  refine ⟨countP_applies_le_one actions db, pairwise_retriedBy actions db,
    fun c _ => ⟨fun e he => ?_, publishesChanges c⟩⟩
  have hcase := c.case sys
  rw [he] at hcase
  exact hcase.of_error

end Runs

end Cases

end MagicContext.Kernel
