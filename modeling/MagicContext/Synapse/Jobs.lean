import MagicContext.Lib.Table

/-!
# The table of batch jobs

Jobs are found by the key of the request, which makes a repeated request find its job, and by their
number.  The table has one lock, and every operation here is what one call does while it holds it.
Times are numbers, and come with the calls; so do the capacities of strings, and the order in which
the map gives out jobs of one age.

Sums of the lengths of what is in memory do not overflow.  The counters' subtractions wrap around.

## What is here

* `Job`, `Jobs`, `JobTable` — the jobs, the two indexes and the counters, and what is fixed.
* `admitCharged`, `start`, `publishReady`, `failJob`, `poll`, `sweepExpired`, `enforceRetention`,
  `remove`, `closeAdmission`, `clear` — the operations.
* `Call`, `State.step`, `run` — runs of calls, with a log of the jobs that were started.
-/

namespace MagicContext.Synapse

/-! ## Jobs -/

structure BatchItem where
  id : String
  contentSha256 : String
  text : String

/-- The bits of an `f32`. -/
abbrev Component : Type := BitVec 32

inductive JobState where
  | queued (items : List BatchItem)
  | running
  | ready (vectors : List (List Component)) (boundaries : List Nat)
  | failed (code : String) (message : String)

structure Job where
  seq : Nat
  key : String
  payloadDigest : List UInt8
  /-- The ids and hashes of the items, in the order of the request. -/
  itemMeta : List (String × String)
  textBytes : Nat
  dimensions : Nat
  reservedResultBytes : Nat
  resultBytes : Nat := 0
  state : JobState
  completedAt : Option Nat := none
  /-- The bytes that are charged for the request's input. -/
  charge : Nat

namespace Job

def retainedInputBytes (job : Job) : Nat :=
  2 * job.key.utf8ByteSize + (job.itemMeta.map fun m => m.1.utf8ByteSize + m.2.utf8ByteSize).sum

def status (job : Job) : String :=
  match job.state with
  | .queued _ => "queued"
  | .running => "running"
  | .ready _ _ => "ready"
  | .failed _ _ => "failed"

def isCompleted (job : Job) : Bool :=
  match job.state with
  | .ready _ _ => true
  | .failed _ _ => true
  | _ => false

def isQueued (job : Job) : Bool :=
  match job.state with
  | .queued _ => true
  | _ => false

/-- `split_excess`, whose excess is released. -/
def releaseExcess (job : Job) : Job := { job with charge := min job.charge job.retainedInputBytes }

def failedWith (job : Job) (code message : String) (now : Nat) : Job :=
  releaseExcess { job with textBytes := 0, state := .failed code message, completedAt := some now }

end Job

structure Jobs where
  byKey : String → Option Nat := fun _ => none
  bySeq : Table Job.seq := .empty
  nextSeq : Nat := 1
  queuedTextBytes : Nat := 0
  retainedResultBytes : Nat := 0
  closed : Bool := false
  /-- A subtraction has gone below zero. -/
  underflowed : Bool := false

structure SynapseLimits where
  maxQueuedJobs : Nat
  maxQueuedRequestBytes : Nat
  maxRetainedJobs : Nat
  maxRetainedResultBytes : Nat
  maxPageVectors : Nat
  maxPageEncodedBytes : Nat
  retention : Nat

/-- What stays the same while the table is in use. -/
structure JobTable where
  limits : SynapseLimits
  incarnation : String
  sha256 : List UInt8 → List UInt8

inductive AdmitOutcome where
  | existing (jobId : String) (status : String)
  | conflict
  | admitted (jobId : String) (seq : Nat)
  | full
  | resultTooLarge
  | closed
  /-- A key is indexed and its job is not. -/
  | panicked

structure ResultPage where
  vectors : List (String × String × List Component)
  done : Bool
  nextCursor : Option String

inductive PollOutcome where
  | restarted
  | keyMismatch
  | pending (status : String)
  | failed (code : String) (message : String)
  | page (page : ResultPage)
  | badCursor

/-! ## Sizes -/

def u64Max : Nat := 18446744073709551615

/-- A sum or product of `usize` that is checked for overflow. -/
def checked (n : Nat) : Option Nat := if n ≤ u64Max then some n else none

/-- A failure that is reported again to whoever sends the same request again. -/
def failureIsPermanent (code : String) : Bool :=
  code ∈ ["artifact_invalid", "substitution_rejected", "schema_violation", "not_certified",
    "probe_required", "idempotency_conflict"]

def utf8 (s : String) : List UInt8 := s.toUTF8.data.toList

/-- A length as eight bytes, the lowest first, and what has that length. -/
def framed (bytes : List UInt8) : List UInt8 :=
  (List.range 8).map (fun k => UInt8.ofNat (bytes.length / 256 ^ k)) ++ bytes

def JobTable.digestPayload (t : JobTable) (key : String) (items : List BatchItem) : List UInt8 :=
  t.sha256 (framed (utf8 key) ++ items.flatMap fun item =>
    framed (utf8 item.id) ++ framed (utf8 item.contentSha256) ++ framed (utf8 item.text))

def textBytes (items : List BatchItem) : Nat := (items.map fun item => item.text.utf8ByteSize).sum

/-- `capacity` is what the strings of the items have reserved, which is no less than their
lengths. -/
def jobInputBytes (key : String) (items : List BatchItem) (capacity : Nat) : Nat :=
  min u64Max (2 * key.utf8ByteSize + capacity +
    (items.map fun item => item.id.utf8ByteSize + item.contentSha256.utf8ByteSize).sum)

def resultBytes (itemCount dimensions metadataBytes : Nat) : Option Nat :=
  checked (itemCount * dimensions * 4 + metadataBytes)

def admittedResultBytes (items : List BatchItem) (dimensions : Nat) : Option Nat :=
  resultBytes items.length dimensions
    (items.map fun item => item.id.utf8ByteSize + item.contentSha256.utf8ByteSize).sum

/-- A character in a JSON string. -/
def escapedCharBytes (c : Char) : Nat :=
  if c ∈ ['"', '\\', '\n', '\r', '\t', '\x08', '\x0c'] then 2
  else if c.toNat < 32 then 6
  else c.utf8Size

def escapedStringBytes (s : String) : Nat := (s.toList.map escapedCharBytes).sum

/-- An upper bound of what an item takes in a page. -/
def encodedItemCost (vectorLen : Nat) (id hash : String) : Nat :=
  min u64Max (vectorLen * 16 + escapedStringBytes id + hash.utf8ByteSize + 64)

/-! ## Job ids and cursors -/

namespace JobTable

variable (t : JobTable)

def jobId (seq : Nat) : String := t.incarnation ++ "-" ++ toString seq

def splitOnce (c : Char) : List Char → Option (List Char × List Char)
  | [] => none
  | d :: rest => if d = c then some ([], rest) else (splitOnce c rest).map fun p => (d :: p.1, p.2)

def rsplitOnce (c : Char) (s : List Char) : Option (List Char × List Char) :=
  (splitOnce c s.reverse).map fun p => (p.2.reverse, p.1.reverse)

def decimal (digits : List Char) : Nat :=
  digits.foldl (fun n d => 10 * n + (d.toNat - 48)) 0

/-- Only the canonical decimal names a job. -/
def parseJobId (jobId : List Char) : Option Nat :=
  match splitOnce '-' jobId with
  | none => none
  | some (incarnation, seq) =>
    if incarnation ≠ t.incarnation.toList then none
    else if seq = [] ∨ 20 < seq.length ∨ seq.all Char.isDigit = false then none
    else if 1 < seq.length ∧ seq.head? = some '0' then none
    else checked (decimal seq)

/-- `str::parse::<usize>`. -/
def parseUsize (s : List Char) : Option Nat :=
  let digits := if s.head? = some '+' then s.tail else s
  if digits = [] ∨ digits.all Char.isDigit = false then none else checked (decimal digits)

/-- Only the boundaries of this job's pages are cursors. -/
def parseCursor (cursor : String) (seq : Nat) (boundaries : List Nat) : Option Nat :=
  match rsplitOnce ':' cursor.toList with
  | none => none
  | some (jobId, offset) =>
    if t.parseJobId jobId ≠ some seq then none
    else (parseUsize offset).filter fun offset => boundaries.contains offset

/-- The positions where a new page starts; `count` and `bytes` are those of the page so far. -/
def pageBoundariesFrom (index count bytes : Nat) : List (Nat × String × String) → List Nat
  | [] => []
  | (vectorLen, id, hash) :: rest =>
    let encoded := encodedItemCost vectorLen id hash
    if 0 < count ∧ (t.limits.maxPageVectors ≤ count ∨
        (checked (bytes + encoded)).all fun n => decide (t.limits.maxPageEncodedBytes < n)) then
      index :: pageBoundariesFrom (index + 1) 1 encoded rest
    else pageBoundariesFrom (index + 1) (count + 1) (min u64Max (bytes + encoded)) rest

def pageBoundaries (itemMeta : List (String × String)) (vectors : List (List Component)) :
    List Nat :=
  t.pageBoundariesFrom 0 0 0 ((vectors.zip itemMeta).map fun p => (p.1.length, p.2))

end JobTable

/-! ## Removal -/

namespace Jobs

/-- `-=` on a counter. -/
def wrappingSub (n m : Nat) : Nat := if m ≤ n then n - m else n + (u64Max + 1) - m

variable (jobs : Jobs)

def releaseText (bytes : Nat) : Jobs :=
  { jobs with
    queuedTextBytes := wrappingSub jobs.queuedTextBytes bytes
    underflowed := jobs.underflowed || decide (jobs.queuedTextBytes < bytes) }

def releaseResult (bytes : Nat) : Jobs :=
  { jobs with
    retainedResultBytes := wrappingSub jobs.retainedResultBytes bytes
    underflowed := jobs.underflowed || decide (jobs.retainedResultBytes < bytes) }

def job (seq : Nat) : Option Job := jobs.bySeq.get seq

def setJob (job : Job) : Jobs := { jobs with bySeq := jobs.bySeq.put job }

def remove (seq : Nat) : Jobs :=
  match jobs.job seq with
  | none => jobs
  | some job =>
    let jobs := { jobs with bySeq := jobs.bySeq.delete fun j => decide (j.seq = seq) }
    let jobs := (jobs.releaseText job.textBytes).releaseResult job.resultBytes
    { jobs with byKey := Function.update jobs.byKey job.key none }

def removeAll (seqs : List Nat) : Jobs := seqs.foldl remove jobs

/-- The completed jobs that have been completed first, apart from one. -/
def oldest (keep : Option Nat) : List Job :=
  let candidates := jobs.bySeq.select fun job => job.isCompleted && decide (some job.seq ≠ keep)
  candidates.filter fun job => candidates.all fun other =>
    -- `None` is less than every time
    match job.completedAt, other.completedAt with
    | none, _ => true
    | some _, none => false
    | some a, some b => decide (a ≤ b)

end Jobs

namespace JobTable

variable (t : JobTable)

def expired (now : Nat) (job : Job) : Bool :=
  job.completedAt.any fun completed => decide (t.limits.retention ≤ now - completed)

def sweepExpired (now : Nat) (jobs : Jobs) : Jobs :=
  jobs.removeAll ((jobs.bySeq.select (t.expired now)).map Job.seq)

def withinRetention (jobs : Jobs) : Bool :=
  decide (jobs.bySeq.count Job.isCompleted ≤ t.limits.maxRetainedJobs) &&
    decide (jobs.retainedResultBytes ≤ t.limits.maxRetainedResultBytes)

/-- One round of the loop for each number of rounds that is left; `ties` chooses among jobs of one
age. -/
def enforceRetention (keep : Option Nat) (ties : Nat → Nat) : Nat → Jobs → Jobs
  | 0, jobs => jobs
  | rounds + 1, jobs =>
    if t.withinRetention jobs then jobs
    else
      match (jobs.oldest keep)[ties rounds % (jobs.oldest keep).length]? with
      | some job => enforceRetention keep ties rounds (jobs.remove job.seq)
      | none =>
        match keep with
        | none => jobs
        | some seq => jobs.remove seq

/-- The loop; every round but the last removes a completed job. -/
def enforce (keep : Option Nat) (ties : Nat → Nat) (jobs : Jobs) : Jobs :=
  t.enforceRetention keep ties (jobs.bySeq.count Job.isCompleted + 1) jobs

/-! ## Calls -/

def keyIsRetained (key : String) (now : Nat) (jobs : Jobs) : Bool × Jobs :=
  let jobs := t.sweepExpired now jobs
  ((jobs.byKey key).isSome, jobs)

def newJob (key : String) (items : List BatchItem) (dimensions result charge seq : Nat) : Job where
  seq := seq
  key := key
  payloadDigest := t.digestPayload key items
  itemMeta := items.map fun item => (item.id, item.contentSha256)
  textBytes := textBytes items
  dimensions := dimensions
  reservedResultBytes := result
  state := .queued items
  charge := charge

/-- Every check has passed. -/
def insertJob (key : String) (items : List BatchItem) (dimensions result charge : Nat)
    (jobs : Jobs) : Jobs :=
  { jobs with
    nextSeq := jobs.nextSeq + 1
    queuedTextBytes := jobs.queuedTextBytes + textBytes items
    byKey := Function.update jobs.byKey key (some jobs.nextSeq)
    bySeq := jobs.bySeq.put (t.newJob key items dimensions result charge jobs.nextSeq) }

/-- What admission decides after it has looked the key up; `failedReplay` is the retryable failure
that the new job replaces. -/
def admitNew (key : String) (items : List BatchItem) (dimensions charge capacity : Nat)
    (failedReplay : Option Nat) (jobs : Jobs) : AdmitOutcome × Jobs :=
  match admittedResultBytes items dimensions with
  | none => (.resultTooLarge, jobs)
  | some result =>
    if t.limits.maxRetainedResultBytes < result then (.resultTooLarge, jobs)
    else if t.limits.maxQueuedJobs ≤ jobs.bySeq.count (fun job => !job.isCompleted) ∨
        t.limits.maxQueuedRequestBytes < jobs.queuedTextBytes + textBytes items then (.full, jobs)
    else
      let jobs := jobs.removeAll failedReplay.toList
      (.admitted (t.jobId jobs.nextSeq) jobs.nextSeq,
        t.insertJob key items dimensions result (min charge (jobInputBytes key items capacity)) jobs)

def admitCharged (key : String) (items : List BatchItem) (dimensions charge capacity now : Nat)
    (jobs : Jobs) : AdmitOutcome × Jobs :=
  if jobs.closed then (.closed, jobs)
  else
    let jobs := t.sweepExpired now jobs
    match jobs.byKey key with
    | none => t.admitNew key items dimensions charge capacity none jobs
    | some seq =>
      match jobs.job seq with
      | none => (.panicked, jobs)
      | some job =>
        if job.payloadDigest ≠ t.digestPayload key items then (.conflict, jobs)
        else
          match job.state with
          | .failed code _ =>
            if failureIsPermanent code then (.existing (t.jobId seq) job.status, jobs)
            else t.admitNew key items dimensions charge capacity (some seq) jobs
          | _ => (.existing (t.jobId seq) job.status, jobs)

def start (seq : Nat) (jobs : Jobs) : Option (List BatchItem) × Jobs :=
  match jobs.job seq with
  | none => (none, jobs)
  | some job =>
    match job.state with
    | .queued items => (some items, jobs.setJob { job with state := .running })
    | _ => (none, jobs)

def failJob (seq : Nat) (code message : String) (now : Nat) (ties : Nat → Nat) (jobs : Jobs) :
    Jobs :=
  match jobs.job seq with
  | none => jobs
  | some job =>
    if job.isCompleted then jobs
    else
      t.enforce (some seq) ties
        ((jobs.setJob (job.failedWith code message now)).releaseText job.textBytes)

/-- The job with its vectors. -/
def readied (job : Job) (vectors : List (List Component)) (now : Nat) : Job :=
  Job.releaseExcess { job with
    textBytes := 0
    state := .ready vectors (t.pageBoundaries job.itemMeta vectors)
    resultBytes := job.reservedResultBytes
    completedAt := some now }

def publishReady (seq : Nat) (vectors : List (List Component)) (now : Nat) (ties : Nat → Nat)
    (jobs : Jobs) : Jobs :=
  match jobs.job seq with
  | none => jobs
  | some job =>
    if vectors.length ≠ job.itemMeta.length then
      t.failJob seq "artifact_invalid" "inference returned a different item count" now ties jobs
    else if vectors.any fun vector => vector.length ≠ job.dimensions then
      t.failJob seq "artifact_invalid" "inference returned a different vector dimension" now ties
        jobs
    else
      let jobs := (jobs.setJob (t.readied job vectors now)).releaseText job.textBytes
      t.enforce (some seq) ties
        { jobs with retainedResultBytes := jobs.retainedResultBytes + job.reservedResultBytes }

/-- The page at an offset. -/
def page (job : Job) (vectors : List (List Component)) (boundaries : List Nat) (offset : Nat) :
    ResultPage :=
  let next := (boundaries.find? fun b => decide (offset < b)).getD vectors.length
  let done := decide (vectors.length ≤ next)
  { vectors := (((job.itemMeta.zip vectors).take next).drop offset).map fun p => (p.1.1, p.1.2, p.2)
    done
    nextCursor := if done then none else some (t.jobId job.seq ++ ":" ++ toString next) }

def poll (jobId key : String) (cursor : Option String) (now : Nat) (jobs : Jobs) :
    PollOutcome × Jobs :=
  let jobs := t.sweepExpired now jobs
  match (t.parseJobId jobId.toList).bind jobs.job with
  | none => (.restarted, jobs)
  | some job =>
    if job.key ≠ key then (.keyMismatch, jobs)
    else
      match job.state with
      | .queued _ => (.pending job.status, jobs)
      | .running => (.pending job.status, jobs)
      | .failed code message => (.failed code message, jobs)
      | .ready vectors boundaries =>
        match cursor with
        | none => (.page (t.page job vectors boundaries 0), jobs)
        | some cursor =>
          match t.parseCursor cursor job.seq boundaries with
          | none => (.badCursor, jobs)
          | some offset => (.page (t.page job vectors boundaries offset), jobs)

end JobTable

namespace Jobs

def closeAdmission (jobs : Jobs) : Jobs :=
  ({ jobs with closed := true } : Jobs).removeAll ((jobs.bySeq.select Job.isQueued).map Job.seq)

def clear (jobs : Jobs) : Jobs :=
  { jobs with
    bySeq := .empty, byKey := fun _ => none, queuedTextBytes := 0, retainedResultBytes := 0 }

end Jobs

/-! ## Runs -/

inductive Call where
  | admitted (key : String) (items : List BatchItem) (dimensions charge capacity now : Nat)
  | start (seq : Nat)
  | publishReady (seq : Nat) (vectors : List (List Component)) (now : Nat) (ties : Nat → Nat)
  | publishFailed (seq : Nat) (code message : String) (now : Nat) (ties : Nat → Nat)
  | poll (jobId key : String) (cursor : Option String) (now : Nat)
  | keyIsRetained (key : String) (now : Nat)
  | sweep (now : Nat)
  | closeAdmission
  | clear

structure State where
  jobs : Jobs := {}
  /-- The jobs that were started, in order. -/
  started : List Nat := []

namespace JobTable

variable (t : JobTable)

def step (s : State) : Call → State
  | .admitted key items dimensions charge capacity now =>
    { s with jobs := (t.admitCharged key items dimensions charge capacity now s.jobs).2 }
  | .start seq =>
    { jobs := (start seq s.jobs).2
      started := if (start seq s.jobs).1.isSome then s.started ++ [seq] else s.started }
  | .publishReady seq vectors now ties => { s with jobs := t.publishReady seq vectors now ties s.jobs }
  | .publishFailed seq code message now ties =>
    { s with jobs := t.failJob seq code message now ties s.jobs }
  | .poll jobId key cursor now => { s with jobs := (t.poll jobId key cursor now s.jobs).2 }
  | .keyIsRetained key now => { s with jobs := (t.keyIsRetained key now s.jobs).2 }
  | .sweep now => { s with jobs := t.sweepExpired now s.jobs }
  | .closeAdmission => { s with jobs := s.jobs.closeAdmission }
  | .clear => { s with jobs := s.jobs.clear }

def run (calls : List Call) : State := calls.foldl t.step {}

end JobTable

end MagicContext.Synapse
