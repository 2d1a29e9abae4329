import MagicContext.Host.Registry
import MagicContext.Kernel.Ingest
import MagicContext.Lib.Entries
import MagicContext.Lib.SortedMap

/-!
# Staging of artifact uploads

An artifact arrives in pages on a route, which holds one upload at a time.  All uploads draw on one
budget, which is charged with the declared size when an upload begins.  A finish takes the complete
upload out of the map; its worker owns the pages and a guard owns the charge, until the upload is
put back for a retry or the guard is dropped.

## What is here

* `StagingBudget`, `UploadCoordinator` — the budget, the uploads, and what one call does to them
  under the lock.
* `finishUpload` — the assembly of a complete upload and the verdict of the store.
* `Task` — a page that is being decoded, and a finish that is being worked on, with their guards.
* `World.step`, `run` — one event, and runs.
-/

namespace MagicContext.Uploads

open Host (RouteHandle)
open Kernel (ArtifactIngestRequest ArtifactHandle)

/-! ## The budget -/

structure StagingBudget where
  totalBytes : Nat
  pending : Nat
  maxBytes : Nat
  maxPending : Nat

namespace StagingBudget

def new (maxBytes maxPending : Nat) : StagingBudget := ⟨0, 0, maxBytes, maxPending⟩

/-- Admits one more upload when both caps hold afterwards. -/
def tryReserve (b : StagingBudget) (bytes : Nat) : Option StagingBudget :=
  if b.maxBytes < b.totalBytes + bytes ∨ b.maxPending ≤ b.pending then none
  else some { b with totalBytes := b.totalBytes + bytes, pending := b.pending + 1 }

def release (b : StagingBudget) (bytes : Nat) : StagingBudget :=
  { b with totalBytes := b.totalBytes - bytes, pending := b.pending - 1 }

end StagingBudget

def mib : Nat := 1024 * 1024
def uploadAllowanceBytes : Nat := Kernel.maxPayloadBytes + mib
def pageBytesMax : Nat := 16 * mib
def pageBase64BytesMax : Nat := (pageBytesMax + 2) / 3 * 4
def maxPendingUploads : Nat := 4
def maxStagedBytes : Nat := uploadAllowanceBytes * maxPendingUploads
def pageDecodeBytesMax : Nat := (pageBase64BytesMax + pageBytesMax) * maxPendingUploads
def pageDecodeJobsMax : Nat := 4 * maxPendingUploads
def uploadStaleAfter : Nat := 10 * 60 * 1000

/-! ## Uploads -/

structure Page where
  digest : String
  bytes : List UInt8

/-- What a `begin` declares. -/
structure Declaration where
  uploadId : String
  totalBytes : Nat
  pageCount : Nat
  payloadDigest : String
  request : ArtifactIngestRequest
  deriving DecidableEq

/-- Times are in milliseconds of the monotonic clock. -/
structure Upload where
  uploadId : String
  generation : Nat
  totalBytes : Nat
  pageCount : Nat
  payloadDigest : String
  receivedBytes : Nat
  pages : SortedMap Nat Page
  request : ArtifactIngestRequest
  lastActivity : Nat

namespace Upload

def isComplete (u : Upload) : Bool :=
  u.pages.entries.length == u.pageCount && u.receivedBytes == u.totalBytes

def declaration (u : Upload) : Declaration :=
  { uploadId := u.uploadId
    totalBytes := u.totalBytes
    pageCount := u.pageCount
    payloadDigest := u.payloadDigest
    request := u.request }

/-- The two declare the same upload. -/
def declaresSame (u : Upload) (d : Declaration) : Bool := decide (u.declaration = d)

/-- How many pages and bytes were received. -/
structure Progress where
  uploadId : String
  receivedPages : Nat
  receivedBytes : Nat

def progress (u : Upload) : Progress :=
  ⟨u.uploadId, u.pages.entries.length, u.receivedBytes⟩

end Upload

/-- A new upload, before the coordinator gives it a generation. -/
def Declaration.upload (d : Declaration) (now : Nat) : Upload where
  uploadId := d.uploadId
  generation := 0
  totalBytes := d.totalBytes
  pageCount := d.pageCount
  payloadDigest := d.payloadDigest
  receivedBytes := 0
  pages := SortedMap.empty
  request := d.request
  lastActivity := now

inductive InvalidReason where
  | uploadNotFound | pageIndex | pageDigest | payloadDigest

inductive BeginOutcome where
  | started
  | resumed (progress : Upload.Progress)

structure UploadCoordinator where
  budget : StagingBudget := .new maxStagedBytes maxPendingUploads
  uploads : Entries RouteHandle Upload := Entries.empty
  latestGeneration : Entries RouteHandle Nat := Entries.empty
  staleAfter : Nat := uploadStaleAfter
  nextGeneration : Nat := 1
  decodingBytes : Nat := 0
  decodeMax : Nat := pageDecodeBytesMax
  decodingJobs : Nat := 0
  decodeJobsMax : Nat := pageDecodeJobsMax

namespace UploadCoordinator

variable (c : UploadCoordinator) (route : RouteHandle)

/-- Drops the route's upload, with its charge. -/
def take : UploadCoordinator :=
  match c.uploads.find route with
  | none => c
  | some upload =>
    { c with uploads := c.uploads.erase route, budget := c.budget.release upload.totalBytes }

def staleRoutes (now : Nat) : List RouteHandle :=
  c.uploads.rows.filterMap fun e =>
    if c.staleAfter ≤ now - e.2.lastActivity then some e.1 else none

def evictStale (now : Nat) : UploadCoordinator :=
  (c.staleRoutes now).foldl take c

/-- Admits a new upload of the route; nothing is held for it. -/
def start (d : Declaration) (now : Nat) : Option BeginOutcome × UploadCoordinator :=
  match c.budget.tryReserve d.totalBytes with
  | none => (none, c)
  | some budget =>
    (some .started,
      { c with
        budget
        uploads := c.uploads.set route { d.upload now with generation := c.nextGeneration }
        latestGeneration := c.latestGeneration.set route c.nextGeneration
        nextGeneration := c.nextGeneration + 1 })

/-- Nothing is the rejection for a full queue. -/
def begin (d : Declaration) (now : Nat) : Option BeginOutcome × UploadCoordinator :=
  let c := c.evictStale now
  match c.uploads.find route with
  | none => c.start route d now
  | some existing =>
    if existing.declaresSame d then
      (some (.resumed existing.progress),
        { c with uploads := c.uploads.set route { existing with lastActivity := now } })
    else (c.take route).start route d now

/-- The route's upload, when it goes by this id. -/
def upload (uploadId : String) : Option Upload :=
  (c.uploads.find route).filter fun u => u.uploadId = uploadId

def acceptsPage (uploadId : String)
    (index now : Nat) : Except InvalidReason Nat × UploadCoordinator :=
  match c.upload route uploadId with
  | none => (.error .uploadNotFound, c)
  | some u =>
    if u.pageCount ≤ index then (.error .pageIndex, c)
    else
      (.ok u.generation,
        { c with uploads := c.uploads.set route { u with lastActivity := now } })

def discard : UploadCoordinator :=
  { c with latestGeneration := c.latestGeneration.erase route }.take route

def release (c : UploadCoordinator) (bytes : Nat) : UploadCoordinator :=
  { c with budget := c.budget.release bytes }

def reserveDecode (bytes : Nat) : Option UploadCoordinator :=
  if c.decodeJobsMax ≤ c.decodingJobs then none
  else if c.decodeMax < c.decodingBytes + bytes then none
  else some { c with
    decodingBytes := c.decodingBytes + bytes, decodingJobs := c.decodingJobs + 1 }

def releaseDecode (bytes : Nat) : UploadCoordinator :=
  { c with decodingBytes := c.decodingBytes - bytes, decodingJobs := c.decodingJobs - 1 }

def clear : UploadCoordinator :=
  { (c.uploads.rows.map Prod.fst).foldl take c with latestGeneration := Entries.empty }

def stage (uploadId : String) (generation index : Nat) (page : Page) (now : Nat) :
    Except InvalidReason Upload.Progress × UploadCoordinator :=
  match (c.upload route uploadId).filter fun u => u.generation = generation with
  | none => (.error .uploadNotFound, c)
  | some u =>
    if u.pageCount ≤ index then (.error .pageIndex, c)
    else
      match u.pages.get index with
      | some existing =>
        if existing.digest = page.digest then
          let u := { u with lastActivity := now }
          (.ok u.progress, { c with uploads := c.uploads.set route u })
        else (.error .pageDigest, c)
      | none =>
        if page.bytes.length = 0 ∨ u.totalBytes < u.receivedBytes + page.bytes.length then
          (.error .pageIndex, c)
        else
          let u := { u with
            receivedBytes := u.receivedBytes + page.bytes.length
            pages := u.pages.insert index page
            lastActivity := now }
          (.ok u.progress, { c with uploads := c.uploads.set route u })

def takeComplete (uploadId : String) : Except InvalidReason Upload × UploadCoordinator :=
  match c.upload route uploadId with
  | none => (.error .uploadNotFound, c)
  | some u =>
    if u.isComplete then (.ok u, { c with uploads := c.uploads.erase route })
    else (.error .pageIndex, c)

/-- Puts an upload back; it comes back when a newer one of its route superseded it. -/
def restore (u : Upload) (now : Nat) : Option Upload × UploadCoordinator :=
  if (c.uploads.find route).isSome ∨ c.latestGeneration.find route ≠ some u.generation then
    (some u, c)
  else (none, { c with uploads := c.uploads.set route { u with lastActivity := now } })

end UploadCoordinator

/-! ## Finishes -/

/-- What the store says to an ingest. -/
inductive StoreAnswer where
  | ingested (handle : ArtifactHandle)
  | retriable
  | refused

inductive FinishOutcome where
  | ingested (handle : ArtifactHandle)
  | refused
  | retry

def Upload.payload (u : Upload) : List UInt8 := u.pages.entries.flatMap fun e => e.2.bytes

/-- The pages in index order go to the store, when they hash to the declared digest. -/
def finishUpload (sha256 : List UInt8 → String) (ingest : ArtifactIngestRequest → StoreAnswer)
    (u : Upload) : FinishOutcome :=
  if sha256 u.payload ≠ u.payloadDigest then .refused
  else
    match ingest { u.request with payload := u.payload } with
    | .ingested handle => .ingested handle
    | .retriable => .retry
    | .refused => .refused

/-! ## Tasks -/

/-- The work that goes on without the lock, with what it holds: a decode reservation, or the charge
of an upload. -/
inductive Task where
  | decoding (route : RouteHandle) (uploadId : String) (generation index bytes : Nat)
  /-- The page is staged or refused. -/
  | decoded (bytes : Nat)
  | finishing (route : RouteHandle) (upload : Upload) (bytes : Nat)
  /-- The upload is gone, or back in the map and its charge with it. -/
  | finished (generation : Nat) (bytes : Option Nat)

inductive Event where
  | begin (route : RouteHandle) (d : Declaration) (now : Nat)
  | page (route : RouteHandle) (uploadId : String) (index encodedBytes now : Nat)
  /-- The decoded page, unless it was refused or nobody waits for it. -/
  | decoded (i : Nat) (page : Option Page) (now : Nat)
  | dropDecode (i : Nat)
  | finish (route : RouteHandle) (uploadId : String)
  /-- The worker of a finish ends; without an outcome of the store it panicked. -/
  | worked (i : Nat) (ingest : Option (ArtifactIngestRequest → StoreAnswer)) (now : Nat)
  | dropGuard (i : Nat)
  | discard (route : RouteHandle)
  | clear

/-- What became of the uploads of the routes. -/
inductive Record where
  | began (route : RouteHandle) (generation : Nat)
  | discarded (route : RouteHandle)
  | cleared

/-- The coordinator and the tasks; what became of the uploads, the latest first. -/
structure World where
  coordinator : UploadCoordinator := {}
  tasks : List Task := []
  log : List Record := []

/-- The working bytes of one page: its text, and at most three bytes for four characters. -/
def decodeBytes (encodedBytes : Nat) : Nat := encodedBytes + (encodedBytes + 3) / 4 * 3

namespace World

def beginUpload (w : World) (route : RouteHandle) (d : Declaration) (now : Nat) : World :=
  match w.coordinator.begin route d now with
  | (some .started, c) =>
    { w with coordinator := c, log := .began route w.coordinator.nextGeneration :: w.log }
  | (_, c) => { w with coordinator := c }

def acceptPage (w : World) (route : RouteHandle) (uploadId : String)
    (index encodedBytes now : Nat) : World :=
  match w.coordinator.acceptsPage route uploadId index now with
  | (.error _, c) => { w with coordinator := c }
  | (.ok generation, c) =>
    match c.reserveDecode (decodeBytes encodedBytes) with
    | none => { w with coordinator := c }
    | some c =>
      { w with
        coordinator := c
        tasks := w.tasks ++ [.decoding route uploadId generation index (decodeBytes encodedBytes)] }

def stagePage (w : World) (i : Nat) (page : Option Page) (now : Nat) : World :=
  match w.tasks[i]? with
  | some (.decoding route uploadId generation index bytes) =>
    let c := match page with
      | none => w.coordinator
      | some page => (w.coordinator.stage route uploadId generation index page now).2
    { w with coordinator := c, tasks := w.tasks.set i (.decoded bytes) }
  | _ => w

def dropDecode (w : World) (i : Nat) : World :=
  match w.tasks[i]? with
  | some (.decoded bytes) =>
    { w with coordinator := w.coordinator.releaseDecode bytes, tasks := w.tasks.eraseIdx i }
  | _ => w

def takeUpload (w : World) (route : RouteHandle) (uploadId : String) : World :=
  match w.coordinator.takeComplete route uploadId with
  | (.error _, c) => { w with coordinator := c }
  | (.ok u, c) =>
    { w with coordinator := c, tasks := w.tasks ++ [.finishing route u u.totalBytes] }

variable (sha256 : List UInt8 → String)

/-- A retry hands its charge over with the upload, unless the upload comes back. -/
def work (w : World) (i : Nat) (ingest : Option (ArtifactIngestRequest → StoreAnswer))
    (now : Nat) : World :=
  match w.tasks[i]? with
  | some (.finishing route u bytes) =>
    match ingest.map fun ingest => finishUpload sha256 ingest u with
    | some .retry =>
      match w.coordinator.restore route u now with
      | (none, c) =>
        { w with coordinator := c, tasks := w.tasks.set i (.finished u.generation none) }
      | (some _, c) =>
        { w with coordinator := c, tasks := w.tasks.set i (.finished u.generation (some bytes)) }
    | _ => { w with tasks := w.tasks.set i (.finished u.generation (some bytes)) }
  | _ => w

def dropGuard (w : World) (i : Nat) : World :=
  match w.tasks[i]? with
  | some (.finished _ bytes) =>
    { w with
      coordinator := match bytes with
        | none => w.coordinator
        | some bytes => w.coordinator.release bytes
      tasks := w.tasks.eraseIdx i }
  | _ => w

def step (w : World) : Event → World
  | .begin route d now => w.beginUpload route d now
  | .page route uploadId index encodedBytes now =>
    w.acceptPage route uploadId index encodedBytes now
  | .decoded i page now => w.stagePage i page now
  | .dropDecode i => w.dropDecode i
  | .finish route uploadId => w.takeUpload route uploadId
  | .worked i ingest now => w.work sha256 i ingest now
  | .dropGuard i => w.dropGuard i
  | .discard route =>
    { w with coordinator := w.coordinator.discard route, log := .discarded route :: w.log }
  | .clear => { w with coordinator := w.coordinator.clear, log := .cleared :: w.log }

def run (w : World) (es : List Event) : World := es.foldl (step sha256) w

end World

end MagicContext.Uploads
