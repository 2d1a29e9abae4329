import MagicContext.Kernel.Store
import MagicContext.Lib.Transaction

/-!
# Envelopes

An operation writes through an envelope: the open transaction, the commit it will become, and the
list of changes to publish.  Each statement can fail, by a constraint or because the database is
busy or broken, and a failed call leaves what it wrote before.  A method that may have left
something behind poisons the envelope, and a poisoned envelope is not committed.

## What is here

* `Platform` — the secret redactor and the hash, which are other packages' code.
* `Envelope`, `Session` and `M` — what a method runs on.  A session also holds the answers the
  database and the clock will give, so a statement about every session is about every failure.
* `exec`, `query` and the other steps a method is made of, and what each does.
* `guarded` — the poisoning that most methods do.
* `Evolves` and `Attempts` — what a method may do to a session, given the statements it may
  execute; the second is for calls that may poison.
-/

namespace MagicContext.Kernel

open Transaction

/-! ## Redaction -/

/-- A text after redaction, with what was found in it. -/
structure RedactedField where
  text : String
  detections : List Detection

/-- Code of other packages that the kernel calls. -/
structure Platform where
  /-- `redact_durable_text`. -/
  redactDurableText : String → RedactedField
  /-- A text in which nothing is detected stays as it is. -/
  clean : ∀ value, (redactDurableText value).detections = [] →
    (redactDurableText value).text = value
  /-- The lower-case hexadecimal SHA-256 digest. -/
  sha256 : List UInt8 → String

theorem clean_plain (value : String) (_ : (RedactedField.mk value []).detections = []) :
    (RedactedField.mk value []).text = value := rfl

/-- The bytes of a text. -/
def utf8 (value : String) : List UInt8 := value.toUTF8.data.toList

def maxRedactableBytes : Nat := 512 * 1024

namespace Platform

variable (sys : Platform)

def redactLossy (value : String) : RedactedField := sys.redactDurableText value

/-- Redacts input that fits the durable-text size limit. -/
def redact (value : String) : Except KernelError RedactedField :=
  if maxRedactableBytes < value.utf8ByteSize then .error .invalidInput
  else .ok (sys.redactLossy value)

/-- Lookup keys, primary keys and dedup identities must not contain detected secrets. -/
def identity (value : String) : Except KernelError String :=
  if (sys.redactDurableText value).detections = [] then
    .ok (sys.redactDurableText value).text
  else .error .invalidInput

/-- `Option::map(redact).transpose()`. -/
def redactOptional : Option String → Except KernelError (Option RedactedField)
  | none => .ok none
  | some value => some <$> sys.redact value

/-- `Option::map(identity).transpose()`. -/
def identityOptional : Option String → Except KernelError (Option String)
  | none => .ok none
  | some value => some <$> sys.identity value

/-- An accepted identity is the text itself. -/
theorem identity_eq_ok {value id : String} (h : sys.identity value = .ok id) : id = value := by
  rw [identity] at h
  split at h
  · rename_i hclean
    rw [← Except.ok.inj h]
    exact sys.clean value hclean
  · cases h

end Platform

/-! ## The envelope -/

/-- A change an operation has made and will publish. -/
structure PendingChange where
  object : ObjectRow
  kind : String
  replacedObjectId : Option String := none
  redactions : List (String × RedactedField) := []
  /-- Operator-supplied context for changes whose object row does not carry it. -/
  audit : Option (List (String × AuditValue)) := none

/-- What an admission decision is about. -/
inductive AdmissionKey where
  | candidate (candidateId : String)
  | object (objectId : String)
  deriving DecidableEq

structure StoredAdmission where
  decision : PriorDecision
  approvalObjectId : Option String

structure Envelope where
  tx : Db
  commitSeq : Nat
  changes : List PendingChange := []
  admissionOrdinal : Nat := 0
  /-- The decisions of this envelope by subject, newest first. -/
  admissionLatest : List (AdmissionKey × StoredAdmission) := []
  poisoned : Option KernelError := none

/-- The ways a statement fails that no constraint explains. -/
inductive StoreFault where
  | io | busy

def StoreFault.toError : StoreFault → KernelError
  | io => .io
  | busy => .busy

/-- What the database and the clock say at one step. -/
structure Answer where
  fault : Option StoreFault := none
  now : Int := 0

/-- An envelope with the answers it will get.  The two counters are ghosts. -/
structure Session where
  envelope : Envelope
  answers : List Answer := []
  /-- Rows written so far. -/
  written : Nat := 0
  /-- Dependents whose demotion was put off. -/
  deferred : Nat := 0

namespace Session

/-- The next answer; when none is given the database works and the clock shows zero. -/
def answer (s : Session) : Answer := s.answers.headD {}

def advance (s : Session) : Session := { s with answers := s.answers.tail }

/-- The session after a statement that changed the database to `tx`, and `rows` rows of it. -/
def wrote (s : Session) (tx : Db) (rows : Nat) : Session :=
  { s with envelope := { s.envelope with tx := tx }, written := s.written + rows }

/-- The session after a change to the envelope's own memory. -/
def remember (s : Session) (f : Envelope → Envelope) : Session :=
  { s with
    envelope := { f s.envelope with tx := s.envelope.tx, commitSeq := s.envelope.commitSeq } }

end Session

/-- The objects the pending changes tell of. -/
def Envelope.told (env : Envelope) : List ObjectRow := env.changes.map PendingChange.object

/-- A method of the envelope. -/
abbrev M := EStateM KernelError Session

variable {α β : Type}

/-- A statement that changes the database; the result is the number of rows. -/
def exec (w : Write) : M Nat := fun s =>
  match s.answer.fault with
  | some fault => .error fault.toError s.advance
  | none =>
    match w.apply s.envelope.tx with
    | .ok (tx, rows) => .ok rows (s.advance.wrote tx rows)
    | .error e => .error e s.advance

/-- A statement all of whose errors are reported as `Io`. -/
def execIo (w : Write) : M Nat := fun s =>
  match exec w s with
  | .ok rows s' => .ok rows s'
  | .error _ s' => .error .io s'

/-- Queries, with the time they run at. -/
def queryAt (q : Int → Envelope → Except KernelError α) : M α := fun s =>
  match s.answer.fault with
  | some fault => .error fault.toError s.advance
  | none =>
    match q s.answer.now s.envelope with
    | .ok a => .ok a s.advance
    | .error e => .error e s.advance

def query (q : Envelope → Except KernelError α) : M α := queryAt fun _ => q

/-- `current_time_ms`. -/
def currentTimeMs : M Int := fun s => .ok s.answer.now s.advance

def commitSeq : M Nat := fun s => .ok s.envelope.commitSeq s

/-- A computation on values that may fail. -/
def check : Except KernelError α → M α
  | .ok a => pure a
  | .error e => throw e

def require (ok : Bool) (e : KernelError) : M Unit := if ok then pure () else throw e

/-- A change to the memory of the envelope. -/
def update (f : Envelope → Envelope) : M Unit := fun s => .ok () (s.remember f)

def pushChange (change : PendingChange) : M Unit :=
  update fun env => { env with changes := env.changes ++ [change] }

/-- Counts a dependent whose demotion is put off. -/
def noteDeferred : M Unit := fun s => .ok () { s with deferred := s.deferred + 1 }

/-- A failed call may have written part of its rows, and the caller may discard the error: the
envelope remembers it.  A call on a poisoned envelope fails at once. -/
def guarded (method : M α) : M α := fun s =>
  match s.envelope.poisoned with
  | some e => .error e s
  | none =>
    match method s with
    | .ok a s' => .ok a s'
    | .error e s' => .error e (s'.remember fun env => { env with poisoned := some e })

/-- Inserts one metadata row per detection in ordinal order. -/
def recordAt (seq : Option Nat) (ownerKind ownerId fieldName : String) (field : RedactedField) :
    M Unit :=
  field.detections.zipIdx.forM fun (detection, ordinal) => do
    let _ ← exec (.insertRedaction
      { ownerKind := ownerKind, ownerId := ownerId, fieldName := fieldName
        detectionOrdinal := ordinal, detection := detection, commitSeq := seq })

/-- `record`, with the commit of the envelope. -/
def record (ownerKind ownerId fieldName : String) (field : RedactedField) : M Unit := do
  let seq ← commitSeq
  recordAt (some seq) ownerKind ownerId fieldName field

def recordFields (ownerKind ownerId : String) (fields : List (String × RedactedField)) : M Unit :=
  fields.forM fun (name, field) => record ownerKind ownerId name field

/-! ## What the steps do -/

section Steps
variable {s s' : Session} {a : α} {e : KernelError} {w : Write} {rows : Nat}

theorem exec_eq_ok : exec w s = .ok rows s' ↔ s.answer.fault = none ∧
    ∃ tx, w.apply s.envelope.tx = .ok (tx, rows) ∧ s' = s.advance.wrote tx rows := by
  rw [exec]
  rcases s.answer.fault with _ | fault
  · rcases w.apply s.envelope.tx with e | ⟨tx, -⟩
    · simp
    · simp only [EStateM.Result.ok.injEq, Except.ok.injEq, Prod.mk.injEq, true_and]
      constructor
      · rintro ⟨rfl, rfl⟩
        exact ⟨tx, ⟨rfl, rfl⟩, rfl⟩
      · rintro ⟨-, ⟨rfl, rfl⟩, rfl⟩
        exact ⟨rfl, rfl⟩
  · simp

/-- A failed statement changes nothing. -/
theorem exec_eq_error (h : exec w s = .error e s') : s' = s.advance ∧
    (e = .io ∨ e = .busy ∨ w.apply s.envelope.tx = .error e) := by
  rw [exec] at h
  split at h
  · rename_i fault _
    obtain ⟨rfl, rfl⟩ := EStateM.Result.error.inj h
    cases fault
    · exact ⟨rfl, .inl rfl⟩
    · exact ⟨rfl, .inr (.inl rfl)⟩
  · split at h
    · cases h
    · rename_i heq
      obtain ⟨rfl, rfl⟩ := EStateM.Result.error.inj h
      exact ⟨rfl, .inr (.inr heq)⟩

theorem execIo_eq_ok : execIo w s = .ok rows s' ↔ exec w s = .ok rows s' := by
  rw [execIo]
  cases exec w s with
  | ok n s₁ => exact Iff.rfl
  | error e s₁ => simp

theorem queryAt_eq_ok {q : Int → Envelope → Except KernelError α} :
    queryAt q s = .ok a s' ↔
      s.answer.fault = none ∧ q s.answer.now s.envelope = .ok a ∧ s' = s.advance := by
  rw [queryAt]
  rcases s.answer.fault with _ | fault
  · rcases q s.answer.now s.envelope with e | b
    · simp
    · simp [eq_comm]
  · simp

theorem query_eq_ok {q : Envelope → Except KernelError α} :
    query q s = .ok a s' ↔ s.answer.fault = none ∧ q s.envelope = .ok a ∧ s' = s.advance :=
  queryAt_eq_ok

theorem queryAt_eq_error {q : Int → Envelope → Except KernelError α}
    (h : queryAt q s = .error e s') :
    s' = s.advance ∧ (e = .io ∨ e = .busy ∨ q s.answer.now s.envelope = .error e) := by
  rw [queryAt] at h
  split at h
  · rename_i fault _
    obtain ⟨rfl, rfl⟩ := EStateM.Result.error.inj h
    cases fault
    · exact ⟨rfl, .inl rfl⟩
    · exact ⟨rfl, .inr (.inl rfl)⟩
  · split at h
    · cases h
    · rename_i heq
      obtain ⟨rfl, rfl⟩ := EStateM.Result.error.inj h
      exact ⟨rfl, .inr (.inr heq)⟩

@[simp] theorem currentTimeMs_apply : currentTimeMs s = .ok s.answer.now s.advance := rfl

theorem check_eq_ok {r : Except KernelError α} : check r s = .ok a s' ↔ r = .ok a ∧ s' = s := by
  cases r with
  | error e => simp [check]
  | ok b => simp [check, eq_comm]

theorem require_eq_ok {ok : Bool} {u : Unit} : require ok e s = .ok u s' ↔ ok = true ∧ s' = s := by
  cases ok with
  | false => simp [require]
  | true => simp [require, eq_comm]

/-! What follows a step. -/

section Binds
variable {b : β}

theorem check_bind_eq_ok {r : Except KernelError α} {f : α → M β} :
    (check r >>= f) s = .ok b s' ↔ ∃ a, r = .ok a ∧ f a s = .ok b s' := by
  simp only [bind_eq_ok, check_eq_ok]
  constructor
  · rintro ⟨a, _, ⟨ha, rfl⟩, h⟩
    exact ⟨a, ha, h⟩
  · rintro ⟨a, ha, h⟩
    exact ⟨a, s, ⟨ha, rfl⟩, h⟩

theorem require_bind_eq_ok {ok : Bool} {f : Unit → M β} (h : (require ok e >>= f) s = .ok b s') :
    ok = true ∧ f () s = .ok b s' := by
  obtain ⟨_, s₁, hrequire, hrest⟩ := bind_eq_ok.mp h
  obtain ⟨hok, rfl⟩ := require_eq_ok.mp hrequire
  exact ⟨hok, hrest⟩

theorem query_bind_eq_ok {q : Envelope → Except KernelError α} {f : α → M β}
    (h : (query q >>= f) s = .ok b s') : ∃ a, q s.envelope = .ok a ∧ f a s.advance = .ok b s' := by
  obtain ⟨a, s₁, hquery, h⟩ := bind_eq_ok.mp h
  obtain ⟨-, ha, rfl⟩ := query_eq_ok.mp hquery
  exact ⟨a, ha, h⟩

theorem exec_bind_eq_ok {f : Nat → M β} (h : (exec w >>= f) s = .ok b s') : ∃ tx rows,
    w.apply s.envelope.tx = .ok (tx, rows) ∧ f rows (s.advance.wrote tx rows) = .ok b s' := by
  obtain ⟨rows, s₁, hexec, h⟩ := bind_eq_ok.mp h
  obtain ⟨-, tx, happly, rfl⟩ := exec_eq_ok.mp hexec
  exact ⟨tx, rows, happly, h⟩

theorem commitSeq_bind (f : Nat → M β) : (commitSeq >>= f) s = f s.envelope.commitSeq s := rfl

end Binds

@[simp] theorem advance_envelope : s.advance.envelope = s.envelope := rfl

@[simp] theorem wrote_tx (tx : Db) : (s.wrote tx rows).envelope.tx = tx := rfl

theorem guarded_eq_ok {method : M α} :
    guarded method s = .ok a s' ↔ s.envelope.poisoned = none ∧ method s = .ok a s' := by
  rw [guarded]
  rcases s.envelope.poisoned with _ | e
  · cases method s with
    | ok b s₁ => simp
    | error e s₁ => simp
  · simp

/-- A failed call of a guarded method leaves a poisoned envelope. -/
theorem guarded_eq_error {method : M α} (h : guarded method s = .error e s') :
    s'.envelope.poisoned = some e := by
  rw [guarded] at h
  split at h
  · rename_i e' heq
    obtain ⟨rfl, rfl⟩ := EStateM.Result.error.inj h
    exact heq
  · split at h
    · cases h
    · obtain ⟨rfl, rfl⟩ := EStateM.Result.error.inj h
      rfl

end Steps

/-! ## What a method may do -/

/-- One of the allowed statements was executed. -/
def Executes (P : Write → Prop) (tx tx' : Db) : Prop :=
  ∃ w rows, P w ∧ w.apply tx = .ok (tx', rows)

theorem executes_mono {P Q : Write → Prop} (hPQ : ∀ w, P w → Q w) {tx tx' : Db}
    (h : Executes P tx tx') : Executes Q tx tx' := by
  obtain ⟨w, rows, hw, happly⟩ := h
  exact ⟨w, rows, hPQ w hw, happly⟩

/-- What happens to a session in a call that executes only the statements `P` allows at its commit,
however the call ends. -/
structure Attempts (P : Nat → Write → Prop) (s s' : Session) : Prop where
  commitSeq : s'.envelope.commitSeq = s.envelope.commitSeq
  tx : Relation.ReflTransGen (Executes (P s.envelope.commitSeq)) s.envelope.tx s'.envelope.tx
  poisoned : s.envelope.poisoned.isSome → s'.envelope.poisoned.isSome
  written : s.written ≤ s'.written
  /-- A pending change may be amended, but not withdrawn. -/
  told : s.envelope.told ⊆ s'.envelope.told

/-- The same of a method that does not poison. -/
structure Evolves (P : Nat → Write → Prop) (s s' : Session) : Prop extends Attempts P s s' where
  samePoison : s'.envelope.poisoned = s.envelope.poisoned

namespace Attempts

variable {P Q : Nat → Write → Prop} {s s' s'' : Session}

theorem trans (h : Attempts P s s') (h' : Attempts P s' s'') : Attempts P s s'' where
  commitSeq := h'.commitSeq.trans h.commitSeq
  tx := h.tx.trans (h.commitSeq ▸ h'.tx)
  poisoned := h'.poisoned ∘ h.poisoned
  written := h.written.trans h'.written
  told := List.Subset.trans h.told h'.told

theorem mono (h : Attempts P s s') (hPQ : ∀ seq w, P seq w → Q seq w) : Attempts Q s s' where
  commitSeq := h.commitSeq
  tx := Relation.ReflTransGen.mono (r := Executes (P s.envelope.commitSeq))
    (fun _ _ h => executes_mono (hPQ _) h) _ _ h.tx
  poisoned := h.poisoned
  written := h.written
  told := h.told

/-- A relation that every allowed statement keeps is kept. -/
theorem rel (h : Attempts P s s') {R : Db → Db → Prop} (hrefl : ∀ tx, R tx tx)
    (htrans : ∀ tx tx' tx'', R tx tx' → R tx' tx'' → R tx tx'')
    (hstep : ∀ w tx tx' rows, P s.envelope.commitSeq w → w.apply tx = .ok (tx', rows) → R tx tx') :
    R s.envelope.tx s'.envelope.tx := by
  have htx := h.tx
  generalize s'.envelope.tx = tx' at htx
  induction htx with
  | refl => exact hrefl _
  | tail _ hlast ih =>
    obtain ⟨w, rows, hw, happly⟩ := hlast
    exact htrans _ _ _ ih (hstep w _ _ rows hw happly)

/-- What no allowed statement touches stays. -/
theorem frame (h : Attempts P s s') {γ : Type} (f : Db → γ)
    (hstep : ∀ w tx tx' rows, P s.envelope.commitSeq w → w.apply tx = .ok (tx', rows) →
      f tx' = f tx) : f s'.envelope.tx = f s.envelope.tx :=
  h.rel (R := fun tx tx' => f tx' = f tx) (fun _ => rfl) (fun _ _ _ h h' => h'.trans h) hstep

end Attempts

namespace Evolves

variable {P Q : Nat → Write → Prop} {s s' s'' : Session}

theorem of (hseq : s'.envelope.commitSeq = s.envelope.commitSeq)
    (htx : Relation.ReflTransGen (Executes (P s.envelope.commitSeq)) s.envelope.tx s'.envelope.tx)
    (hpoison : s'.envelope.poisoned = s.envelope.poisoned) (hwritten : s.written ≤ s'.written)
    (htold : s.envelope.told ⊆ s'.envelope.told) : Evolves P s s' where
  commitSeq := hseq
  tx := htx
  poisoned h := by rwa [hpoison]
  written := hwritten
  told := htold
  samePoison := hpoison

theorem refl (P : Nat → Write → Prop) (s : Session) : Evolves P s s :=
  of rfl .refl rfl le_rfl fun _ h => h

theorem trans (h : Evolves P s s') (h' : Evolves P s' s'') : Evolves P s s'' where
  toAttempts := h.toAttempts.trans h'.toAttempts
  samePoison := h'.samePoison.trans h.samePoison

theorem mono (h : Evolves P s s') (hPQ : ∀ seq w, P seq w → Q seq w) : Evolves Q s s' where
  toAttempts := h.toAttempts.mono hPQ
  samePoison := h.samePoison

end Evolves

open Evolves

section Keeps
variable {P : Nat → Write → Prop} {m : M α}

theorem evolves_bind {f : α → M β} (hm : Keeps (Evolves P) m)
    (hf : ∀ a, Keeps (Evolves P) (f a)) : Keeps (Evolves P) (m >>= f) :=
  Keeps.bind (R := Evolves P) (fun _ _ _ h h' => trans h h') hm hf

theorem evolves_pure (a : α) : Keeps (Evolves P) (Pure.pure a : M α) :=
  keeps_pure (refl P) a

theorem Evolves.advance (s : Session) : Evolves P s s.advance :=
  .of rfl .refl rfl le_rfl fun _ h => h

theorem evolves_ite {c : Prop} [Decidable c] {m' : M α} (hm : Keeps (Evolves P) m)
    (hm' : Keeps (Evolves P) m') : Keeps (Evolves P) (if c then m else m') := by
  split
  · exact hm
  · exact hm'

/-- A statement `P` allows, whatever the commit. -/
theorem evolves_exec {w : Write} (hw : ∀ seq, P seq w) : Keeps (Evolves P) (exec w) := by
  intro s
  rcases h : exec w s with ⟨rows, s'⟩ | ⟨e, s'⟩
  · obtain ⟨-, tx, happly, rfl⟩ := exec_eq_ok.mp h
    rw [final_of_ok h]
    exact .of rfl (.single ⟨w, rows, hw _, happly⟩) rfl (Nat.le_add_right _ _) fun _ h => h
  · obtain ⟨rfl, -⟩ := exec_eq_error h
    rw [final_of_error h]
    exact advance s

theorem evolves_execIo {w : Write} (hw : ∀ seq, P seq w) : Keeps (Evolves P) (execIo w) := by
  intro s
  have h := evolves_exec hw s
  rw [final] at h ⊢
  rw [execIo]
  cases hx : exec w s with
  | ok rows s' =>
    rw [hx] at h
    exact h
  | error e s' =>
    rw [hx] at h
    exact h

/-- A method that uses the number of its commit. -/
theorem evolves_commitSeq_bind {f : Nat → M α}
    (hf : ∀ seq, Keeps (Evolves fun seq' w => seq' = seq → P seq' w) (f seq)) :
    Keeps (Evolves P) (commitSeq >>= f) := by
  intro s
  have h := hf s.envelope.commitSeq s
  have heq : final (commitSeq >>= f) s = final (f s.envelope.commitSeq) s := by
    rw [final, final]
    rfl
  rw [heq]
  exact .of h.commitSeq
    (Relation.ReflTransGen.mono (fun _ _ h => executes_mono (fun _ hw => hw rfl) h) _ _ h.tx)
    h.samePoison h.written h.told

theorem evolves_queryAt (q : Int → Envelope → Except KernelError α) :
    Keeps (Evolves P) (queryAt q) := by
  intro s
  rcases h : queryAt q s with ⟨a, s'⟩ | ⟨e, s'⟩
  · obtain ⟨-, -, rfl⟩ := queryAt_eq_ok.mp h
    rw [final_of_ok h]
    exact advance s
  · obtain ⟨rfl, -⟩ := queryAt_eq_error h
    rw [final_of_error h]
    exact advance s

theorem evolves_query (q : Envelope → Except KernelError α) : Keeps (Evolves P) (query q) :=
  evolves_queryAt _

theorem evolves_currentTimeMs : Keeps (Evolves P) currentTimeMs := advance

theorem evolves_check (r : Except KernelError α) : Keeps (Evolves P) (check r) := by
  intro s
  cases r with
  | ok a => exact refl P s
  | error e => exact refl P s

theorem evolves_require (ok : Bool) (e : KernelError) : Keeps (Evolves P) (require ok e) := by
  intro s
  cases ok with
  | false => exact refl P s
  | true => exact refl P s

section Binds
variable {f : α → M β} {w : Write} {g : Nat → M β}

theorem evolves_query_bind {q : Envelope → Except KernelError α}
    (hf : ∀ a, Keeps (Evolves P) (f a)) : Keeps (Evolves P) (query q >>= f) :=
  evolves_bind (evolves_query q) hf

theorem evolves_check_bind {r : Except KernelError α} (hf : ∀ a, Keeps (Evolves P) (f a)) :
    Keeps (Evolves P) (check r >>= f) := evolves_bind (evolves_check r) hf

theorem evolves_require_bind {ok : Bool} {e : KernelError} {f : Unit → M β}
    (hf : ∀ a, Keeps (Evolves P) (f a)) : Keeps (Evolves P) (require ok e >>= f) :=
  evolves_bind (evolves_require ok e) hf

theorem evolves_exec_bind (hw : ∀ seq, P seq w) (hg : ∀ rows, Keeps (Evolves P) (g rows)) :
    Keeps (Evolves P) (exec w >>= g) := evolves_bind (evolves_exec hw) hg

theorem evolves_execIo_bind (hw : ∀ seq, P seq w) (hg : ∀ rows, Keeps (Evolves P) (g rows)) :
    Keeps (Evolves P) (execIo w >>= g) := evolves_bind (evolves_execIo hw) hg

end Binds

/-- A change to the memory that leaves the poison and what is told. -/
theorem evolves_update {f : Envelope → Envelope}
    (hf : ∀ env, (f env).poisoned = env.poisoned) (htold : ∀ env, env.told ⊆ (f env).told) :
    Keeps (Evolves P) (update f) :=
  fun s => .of rfl .refl (hf s.envelope) le_rfl (htold s.envelope)

theorem evolves_pushChange (change : PendingChange) : Keeps (Evolves P) (pushChange change) := by
  refine evolves_update (fun _ => rfl) fun env => ?_
  rw [Envelope.told, Envelope.told, List.map_append]
  exact List.subset_append_left _ _

theorem evolves_noteDeferred : Keeps (Evolves P) noteDeferred :=
  fun _ => .of rfl .refl rfl le_rfl fun _ h => h

theorem evolves_forM {f : α → M PUnit} (hf : ∀ a, Keeps (Evolves P) (f a)) (l : List α) :
    Keeps (Evolves P) (l.forM f) :=
  keeps_forM (refl P) (fun _ _ _ h h' => trans h h') hf l

/-- The rows name the owner's kind. -/
theorem evolves_recordAt_owner {ownerKind : String}
    (hP : ∀ seq row, row.ownerKind = ownerKind → P seq (.insertRedaction row)) (seq : Option Nat)
    (ownerId fieldName : String) (field : RedactedField) :
    Keeps (Evolves P) (recordAt seq ownerKind ownerId fieldName field) :=
  evolves_forM (fun _ => evolves_bind (evolves_exec fun seq => hP seq _ rfl) fun _ =>
    evolves_pure _) _

section
variable (hP : ∀ seq row, P seq (.insertRedaction row))
include hP

theorem evolves_recordAt (seq : Option Nat)
    (ownerKind ownerId fieldName : String) (field : RedactedField) :
    Keeps (Evolves P) (recordAt seq ownerKind ownerId fieldName field) :=
  evolves_recordAt_owner (fun seq row _ => hP seq row) _ _ _ _

theorem evolves_record (ownerKind ownerId fieldName : String) (field : RedactedField) :
    Keeps (Evolves P) (record ownerKind ownerId fieldName field) :=
  evolves_bind (fun s => refl P s) fun _ => evolves_recordAt hP _ _ _ _ _

theorem evolves_recordFields (ownerKind ownerId : String) (fields : List (String × RedactedField)) :
    Keeps (Evolves P) (recordFields ownerKind ownerId fields) :=
  evolves_forM (fun _ => evolves_record hP _ _ _ _) _

end

/-! ## Calls that poison -/

theorem attempts (hm : Keeps (Evolves P) m) : Keeps (Attempts P) m :=
  hm.mono fun _ _ h => h.toAttempts

theorem attempts_bind {f : α → M β} (hm : Keeps (Attempts P) m)
    (hf : ∀ a, Keeps (Attempts P) (f a)) : Keeps (Attempts P) (m >>= f) :=
  Keeps.bind (R := Attempts P) (fun _ _ _ h h' => Attempts.trans h h') hm hf

theorem attempts_guarded (hm : Keeps (Attempts P) m) : Keeps (Attempts P) (guarded m) := by
  intro s
  rw [final, guarded]
  cases hp : s.envelope.poisoned with
  | some e => exact (refl P s).toAttempts
  | none =>
    cases hs : m s with
    | ok a s' => exact hm.ok hs
    | error e s' =>
      have h := hm.error hs
      exact ⟨h.commitSeq, h.tx, fun _ => rfl, h.written, h.told⟩

/-- A call that succeeds leaves the poison as it is. -/
def SucceedsClean (m : M α) : Prop :=
  ∀ s a s', m s = .ok a s' → s'.envelope.poisoned = s.envelope.poisoned

theorem succeedsClean (hm : Keeps (Evolves P) m) : SucceedsClean m :=
  fun _ _ _ h => (hm.ok h).samePoison

theorem SucceedsClean.bind {f : α → M β} (hm : SucceedsClean m)
    (hf : ∀ a, SucceedsClean (f a)) : SucceedsClean (m >>= f) := by
  intro s b s' h
  obtain ⟨a, s₁, hfirst, hsecond⟩ := bind_eq_ok.mp h
  exact (hf a _ _ _ hsecond).trans (hm _ _ _ hfirst)

theorem SucceedsClean.guarded (hm : SucceedsClean m) : SucceedsClean (guarded m) :=
  fun _ _ _ h => hm _ _ _ (guarded_eq_ok.mp h).2

end Keeps

end MagicContext.Kernel
