import MagicContext.Staging.UploadRuns

/-!
# Uploads, however their calls interleave

Pages are decoded and finishes are worked on without the lock, so anything can happen to a route in
between.  Every event is upkeep or one of a few moves of an upload and its charge; from this follow
what the budget holds, that a charge is returned once, and who may change or bring back an upload.

## What is here

* `Stepped`, `step_cases` — all that an event can come to.
* `Budgeted`, `Decoding` — the budget and the decode counters, and what they stand for.
* `Sound` — the uploads in the map and those being finished fit their declarations.
* `Current` — which upload of a route is the one that may come back.
* `uploads_held` — what holds along every run.
-/

namespace MagicContext.Uploads

open Host (RouteHandle)
open Kernel (ArtifactIngestRequest)
open Entries

/-! ## Tasks -/

def Task.decodeBytes : Task → Nat
  | .decoding _ _ _ _ bytes => bytes
  | .decoded bytes => bytes
  | _ => 0

/-- The task holds a decode reservation. -/
def Task.decodes : Task → Bool
  | .decoding .. => true
  | .decoded _ => true
  | _ => false

section Lists
variable {tasks : List Task} {i : Nat} {task : Task}

theorem perm_eraseIdx (h : tasks[i]? = some task) : tasks.Perm (task :: tasks.eraseIdx i) := by
  obtain ⟨hi, heq⟩ := List.getElem?_eq_some_iff.mp h
  exact heq ▸ (List.getElem_cons_eraseIdx_perm hi).symm

theorem perm_set (h : tasks[i]? = some task) (task' : Task) :
    (tasks.set i task').Perm (task' :: tasks.eraseIdx i) :=
  List.set_perm_cons_eraseIdx (List.getElem?_eq_some_iff.mp h).1 task'

theorem guards_perm {tasks' : List Task} (h : tasks.Perm tasks') : guards tasks = guards tasks' :=
  congrArg (Multiset.filterMap Task.charge) (Multiset.coe_eq_coe.mpr h)

theorem guards_cons (task : Task) (tasks : List Task) :
    guards (task :: tasks) = (task.charge.toList : Multiset Charge) + guards tasks := by
  rw [guards, ← Multiset.cons_coe]
  cases hcharge : task.charge with
  | none => rw [Multiset.filterMap_cons_none _ _ hcharge, guards]; simp
  | some charge => rw [Multiset.filterMap_cons_some _ _ _ hcharge, guards]; rfl

theorem guards_add (task : Task) (tasks : List Task) :
    guards (tasks ++ [task]) = (task.charge.toList : Multiset Charge) + guards tasks := by
  rw [← guards_cons]
  exact guards_perm List.perm_append_comm

section
variable (h : tasks[i]? = some task)
include h

theorem guards_eraseIdx :
    guards tasks = (task.charge.toList : Multiset Charge) + guards (tasks.eraseIdx i) := by
  rw [← guards_cons]
  exact guards_perm (perm_eraseIdx h)

theorem guards_set (task' : Task) : guards (tasks.set i task') =
      (task'.charge.toList : Multiset Charge) + guards (tasks.eraseIdx i) := by
  rw [← guards_cons]
  exact guards_perm (perm_set h task')

/-- A task that goes on with the same charge. -/
theorem guards_set_same {task' : Task}
    (hcharge : task'.charge = task.charge) : guards (tasks.set i task') = guards tasks := by
  rw [guards_set h, guards_eraseIdx h, hcharge]

theorem decodeBytes_eraseIdx : (tasks.map Task.decodeBytes).sum =
      task.decodeBytes + ((tasks.eraseIdx i).map Task.decodeBytes).sum :=
  ((perm_eraseIdx h).map Task.decodeBytes).sum_nat.trans List.sum_cons

theorem decodeBytes_set {task' : Task} (hbytes : task'.decodeBytes = task.decodeBytes) :
    ((tasks.set i task').map Task.decodeBytes).sum = (tasks.map Task.decodeBytes).sum := by
  rw [decodeBytes_eraseIdx h, ← hbytes]
  exact ((perm_set h task').map Task.decodeBytes).sum_nat.trans List.sum_cons

theorem decodes_eraseIdx : tasks.countP Task.decodes =
      (tasks.eraseIdx i).countP Task.decodes + if task.decodes then 1 else 0 :=
  ((perm_eraseIdx h).countP_eq _).trans List.countP_cons

theorem decodes_set {task' : Task} (hdecodes : task'.decodes = task.decodes) :
    (tasks.set i task').countP Task.decodes = tasks.countP Task.decodes := by
  rw [decodes_eraseIdx h, ← hdecodes]
  exact ((perm_set h task').countP_eq _).trans List.countP_cons

end

end Lists

/-! ## What an event can come to -/

/-- All that an event can come to. -/
inductive Stepped (sha256 : List UInt8 → String) (w : World) : Event → World → Prop where
  | kept {e : Event} {c : UploadCoordinator} (hkeep : Upkeep w.coordinator c) :
      Stepped sha256 w e { w with coordinator := c }
  | began {route : RouteHandle} {d : Declaration} {now : Nat} {c : UploadCoordinator}
      {budget : StagingBudget} (hkeep : Upkeep w.coordinator c)
      (hfree : c.uploads.find route = none)
      (hroom : c.budget.tryReserve d.totalBytes = some budget) :
      Stepped sha256 w (.begin route d now)
        { w with
          coordinator := started c route budget d now
          log := .began route w.coordinator.nextGeneration :: w.log }
  | accepted {route : RouteHandle} {uploadId : String} {index encodedBytes now : Nat} {u : Upload}
      {c c' : UploadCoordinator} (hkeep : Upkeep w.coordinator c)
      (hupload : w.coordinator.upload route uploadId = some u) (hindex : index < u.pageCount)
      (hroom : c.reserveDecode (decodeBytes encodedBytes) = some c') :
      Stepped sha256 w (.page route uploadId index encodedBytes now)
        { w with
          coordinator := c'
          tasks := w.tasks ++
            [.decoding route uploadId u.generation index (decodeBytes encodedBytes)] }
  | refused {i : Nat} {page : Option Page} {now : Nat} {route : RouteHandle} {uploadId : String}
      {generation index bytes : Nat} {c : UploadCoordinator}
      (htask : w.tasks[i]? = some (.decoding route uploadId generation index bytes))
      (hkeep : Upkeep w.coordinator c) :
      Stepped sha256 w (.decoded i page now)
        { w with coordinator := c, tasks := w.tasks.set i (.decoded bytes) }
  | staged {i : Nat} {page : Page} {now : Nat} {route : RouteHandle} {uploadId : String}
      {index bytes : Nat} {u : Upload}
      (htask : w.tasks[i]? = some (.decoding route uploadId u.generation index bytes))
      (hupload : w.coordinator.upload route uploadId = some u) (hindex : index < u.pageCount)
      (hfree : u.pages.get index = none)
      (hfits : u.receivedBytes + page.bytes.length ≤ u.totalBytes) :
      Stepped sha256 w (.decoded i (some page) now)
        { w with
          coordinator := { w.coordinator with
            uploads := w.coordinator.uploads.set route (u.add index page now) }
          tasks := w.tasks.set i (.decoded bytes) }
  | released {i bytes : Nat} (htask : w.tasks[i]? = some (.decoded bytes)) :
      Stepped sha256 w (.dropDecode i)
        { w with
          coordinator := w.coordinator.releaseDecode bytes, tasks := w.tasks.eraseIdx i }
  | took {route : RouteHandle} {uploadId : String} {u : Upload}
      (hfind : w.coordinator.uploads.find route = some u) (hcomplete : u.isComplete = true) :
      Stepped sha256 w (.finish route uploadId)
        { w with
          coordinator := { w.coordinator with
            uploads := w.coordinator.uploads.erase route }
          tasks := w.tasks ++ [.finishing route u u.totalBytes] }
  | worked {i now : Nat} {ingest : Option (ArtifactIngestRequest → StoreAnswer)}
      {route : RouteHandle} {u : Upload} {bytes : Nat}
      (htask : w.tasks[i]? = some (.finishing route u bytes)) :
      Stepped sha256 w (.worked i ingest now)
        { w with tasks := w.tasks.set i (.finished u.generation (some bytes)) }
  | restored {i now : Nat} {ingest : ArtifactIngestRequest → StoreAnswer} {route : RouteHandle}
      {u : Upload} {bytes : Nat} (htask : w.tasks[i]? = some (.finishing route u bytes))
      (hretry : finishUpload sha256 ingest u = .retry)
      (hfree : w.coordinator.uploads.find route = none)
      (hlatest : w.coordinator.latestGeneration.find route = some u.generation) :
      Stepped sha256 w (.worked i (some ingest) now)
        { w with
          coordinator := { w.coordinator with
            uploads := w.coordinator.uploads.set route { u with lastActivity := now } }
          tasks := w.tasks.set i (.finished u.generation none) }
  | dropped {i generation bytes : Nat}
      (htask : w.tasks[i]? = some (.finished generation (some bytes))) :
      Stepped sha256 w (.dropGuard i)
        { w with coordinator := w.coordinator.release bytes, tasks := w.tasks.eraseIdx i }
  | disarmed {i generation : Nat} (htask : w.tasks[i]? = some (.finished generation none)) :
      Stepped sha256 w (.dropGuard i) { w with tasks := w.tasks.eraseIdx i }
  | discarded {route : RouteHandle} {c : UploadCoordinator} (hkeep : Upkeep w.coordinator c) :
      Stepped sha256 w (.discard route)
        { w with
          coordinator := { c with latestGeneration := w.coordinator.latestGeneration.erase route }
          log := .discarded route :: w.log }
  | cleared {c : UploadCoordinator} (hkeep : Upkeep w.coordinator c) :
      Stepped sha256 w .clear
        { w with
          coordinator := { c with latestGeneration := Entries.empty }, log := .cleared :: w.log }

section Step
variable (sha256 : List UInt8 → String) (w : World)

theorem stepped_beginUpload (route : RouteHandle) (d : Declaration) (now : Nat) :
    Stepped sha256 w (.begin route d now) (w.beginUpload route d now) := by
  unfold World.beginUpload
  have hbegan := begin_cases w.coordinator route d now
  generalize w.coordinator.begin route d now = began at hbegan ⊢
  obtain ⟨outcome, c⟩ := began
  cases hbegan with
  | kept hkeep houtcome =>
    match outcome with
    | none => exact .kept hkeep
    | some (.resumed _) => exact .kept hkeep
    | some .started => exact absurd rfl houtcome
  | started hkeep hfree hroom => exact .began hkeep hfree hroom

theorem stepped_acceptPage (route : RouteHandle) (uploadId : String)
    (index encodedBytes now : Nat) :
    Stepped sha256 w (.page route uploadId index encodedBytes now)
      (w.acceptPage route uploadId index encodedBytes now) := by
  unfold World.acceptPage
  split
  · rename_i haccept
    exact acceptsPage_error haccept ▸ .kept (.refl _)
  · rename_i haccept
    obtain ⟨hkeep, u, hupload, rfl, hindex⟩ := acceptsPage_ok haccept
    split
    · exact .kept hkeep
    · rename_i hroom
      exact .accepted hkeep hupload hindex hroom

/-- The world as it is. -/
theorem stepped_self (e : Event) : Stepped sha256 w e w := .kept (.refl _)

theorem stepped_stagePage (i : Nat) (page : Option Page) (now : Nat) :
    Stepped sha256 w (.decoded i page now) (w.stagePage i page now) := by
  unfold World.stagePage
  split
  · rename_i route uploadId generation index bytes htask
    cases page with
    | none => exact .refused htask (.refl _)
    | some page =>
      have hstaged := stage_cases w.coordinator route uploadId generation index page now
      dsimp only
      generalize (w.coordinator.stage route uploadId generation index page now).2 = c at hstaged ⊢
      cases hstaged with
      | kept hkeep => exact .refused htask hkeep
      | added hupload hgeneration hindex hfree hbytes hfits =>
        exact .staged (hgeneration ▸ htask) hupload hindex hfree hfits
  · exact stepped_self sha256 w _

theorem stepped_takeUpload (route : RouteHandle) (uploadId : String) :
    Stepped sha256 w (.finish route uploadId) (w.takeUpload route uploadId) := by
  unfold World.takeUpload
  split
  · rename_i htake
    exact takeComplete_error htake ▸ .kept (.refl _)
  · rename_i htake
    obtain ⟨hfind, hcomplete, rfl⟩ := takeComplete_ok htake
    exact .took hfind hcomplete

theorem stepped_work (i : Nat) (ingest : Option (ArtifactIngestRequest → StoreAnswer)) (now : Nat) :
    Stepped sha256 w (.worked i ingest now) (w.work sha256 i ingest now) := by
  unfold World.work
  split
  · rename_i route u bytes htask
    split
    · rename_i hfinish
      obtain ⟨ingest, rfl, hretry⟩ := Option.map_eq_some_iff.mp hfinish
      split
      · rename_i hrestore
        obtain ⟨hfree, hlatest, rfl⟩ := restore_none hrestore
        exact .restored htask hretry hfree hlatest
      · rename_i hrestore
        exact restore_some hrestore ▸ .worked htask
    · exact .worked htask
  · exact stepped_self sha256 w _

theorem stepped_dropGuard (i : Nat) : Stepped sha256 w (.dropGuard i) (w.dropGuard i) := by
  unfold World.dropGuard
  split
  · rename_i generation bytes htask
    cases bytes with
    | none => exact .disarmed htask
    | some bytes => exact .dropped htask
  · exact stepped_self sha256 w _

/-- **Every event is upkeep or one of these moves.** -/
theorem step_cases (e : Event) : Stepped sha256 w e (w.step sha256 e) := by
  cases e with
  | begin route d now => exact stepped_beginUpload sha256 w route d now
  | page route uploadId index encodedBytes now =>
    exact stepped_acceptPage sha256 w route uploadId index encodedBytes now
  | decoded i page now => exact stepped_stagePage sha256 w i page now
  | dropDecode i =>
    change Stepped sha256 w _ (w.dropDecode i)
    unfold World.dropDecode
    split
    · rename_i htask
      exact .released htask
    · exact stepped_self sha256 w _
  | finish route uploadId => exact stepped_takeUpload sha256 w route uploadId
  | worked i ingest now => exact stepped_work sha256 w i ingest now
  | dropGuard i => exact stepped_dropGuard sha256 w i
  | discard route =>
    change Stepped sha256 w _ { w with
      coordinator := w.coordinator.discard route, log := .discarded route :: w.log }
    rw [discard_eq]
    exact .discarded (.take ..)
  | clear => exact .cleared (.foldl_take ..)

end Step

/-! ## Uploads and their declarations -/

/-- Uploads fit their declarations, and those being finished are complete. -/
structure Sound (w : World) : Prop where
  fits : ∀ route u, w.coordinator.uploads.find route = some u → u.Fits
  finishing : ∀ route u bytes, .finishing route u bytes ∈ w.tasks →
    u.Fits ∧ u.isComplete = true ∧ bytes = u.totalBytes

variable {sha256 : List UInt8 → String} {w w' : World} {e : Event}

theorem mem_of_mem_set {tasks : List Task} {i : Nat} {task task' : Task}
    (h : task ∈ tasks.set i task') (hne : task ≠ task') : task ∈ tasks :=
  (List.mem_or_eq_of_mem_set h).resolve_right hne

theorem Upkeep.fits {c c' : UploadCoordinator} (hkeep : Upkeep c c')
    (h : ∀ route u, c.uploads.find route = some u → u.Fits) (route : RouteHandle) (u' : Upload)
    (hfind : c'.uploads.find route = some u') : u'.Fits := by
  obtain ⟨u, hfind, htouched⟩ := hkeep.find route u' hfind
  exact (h route u hfind).touched htouched

theorem Sound.stepped (h : Sound w) (hstep : Stepped sha256 w e w') : Sound w' := by
  obtain ⟨hfits, hfinishing⟩ := h
  have hset : ∀ {uploads : Entries RouteHandle Upload} {route : RouteHandle} {u : Upload},
      (∀ other u, uploads.find other = some u → u.Fits) → u.Fits →
      ∀ other u', (uploads.set route u).find other = some u' → u'.Fits := by
    intro uploads route u hall hu other u' hfind
    rw [find_set] at hfind
    split at hfind
    · cases hfind
      exact hu
    · exact hall other u' hfind
  cases hstep with
  | kept hkeep | discarded hkeep | cleared hkeep => exact ⟨hkeep.fits hfits, hfinishing⟩
  | began hkeep hfree hroom =>
    exact ⟨hset (hkeep.fits hfits) (Upload.fits_upload ..), hfinishing⟩
  | accepted hkeep hupload hindex hroom =>
    refine ⟨?_, fun route u bytes hmem => ?_⟩
    · rw [(reserveDecode_some hroom).2.1]
      exact hkeep.fits hfits
    · rcases List.mem_append.mp hmem with hmem | hmem
      · exact hfinishing route u bytes hmem
      · cases List.mem_singleton.mp hmem
  | refused htask hkeep =>
    exact ⟨hkeep.fits hfits, fun route u bytes hmem =>
      hfinishing route u bytes (mem_of_mem_set hmem (by rintro ⟨⟩))⟩
  | staged htask hupload hindex hfree hbytes =>
    refine ⟨hset hfits ?_, fun route u bytes hmem =>
      hfinishing route u bytes (mem_of_mem_set hmem (by rintro ⟨⟩))⟩
    exact (hfits _ _ (find_of_upload hupload)).add hindex hfree hbytes _
  | released htask | dropped htask | disarmed htask =>
    exact ⟨hfits, fun route u bytes hmem =>
      hfinishing route u bytes (List.mem_of_mem_eraseIdx hmem)⟩
  | took hfind hcomplete =>
    refine ⟨fun other u hfind' => ?_, fun route u bytes hmem => ?_⟩
    · rw [find_erase] at hfind'
      split at hfind'
      · cases hfind'
      · exact hfits other u hfind'
    · rcases List.mem_append.mp hmem with hmem | hmem
      · exact hfinishing route u bytes hmem
      · cases List.mem_singleton.mp hmem
        exact ⟨hfits _ _ hfind, hcomplete, rfl⟩
  | worked htask =>
    exact ⟨hfits, fun route u bytes hmem =>
      hfinishing route u bytes (mem_of_mem_set hmem (by rintro ⟨⟩))⟩
  | restored htask hretry hfree hlatest =>
    have hu := (hfinishing _ _ _ (List.mem_of_getElem? htask)).1
    exact ⟨hset hfits ⟨hu.index, hu.received, hu.within⟩, fun route u bytes hmem =>
      hfinishing route u bytes (mem_of_mem_set hmem (by rintro ⟨⟩))⟩

/-! ## What the budget and the decode counters stand for -/

/-- The budget is what is charged, within its caps. -/
structure Budgeted (held : Multiset Charge) (c : UploadCoordinator) : Prop extends
    Charged held c where
  totalBytes_le : c.budget.totalBytes ≤ maxStagedBytes
  pending_le : c.budget.pending ≤ maxPendingUploads
  maxBytes : c.budget.maxBytes = maxStagedBytes
  maxPending : c.budget.maxPending = maxPendingUploads

/-- The decode counters are the live reservations, within their caps. -/
structure Decoding (tasks : List Task) (c : UploadCoordinator) : Prop where
  bytes : c.decodingBytes = (tasks.map Task.decodeBytes).sum
  jobs : c.decodingJobs = tasks.countP Task.decodes
  bytes_le : c.decodingBytes ≤ pageDecodeBytesMax
  jobs_le : c.decodingJobs ≤ pageDecodeJobsMax
  decodeMax : c.decodeMax = pageDecodeBytesMax
  decodeJobsMax : c.decodeJobsMax = pageDecodeJobsMax

section Accounts
variable {held : Multiset Charge} {tasks : List Task} {c c' : UploadCoordinator}
  {held' : Multiset Charge}

theorem Budgeted.of_charged (h : Budgeted held c)
    (hcharged : Charged held' c') (htotal : c'.budget.totalBytes ≤ c.budget.totalBytes)
    (hpending : c'.budget.pending ≤ c.budget.pending)
    (hmax : c'.budget.maxBytes = c.budget.maxBytes)
    (hmaxPending : c'.budget.maxPending = c.budget.maxPending) : Budgeted held' c' where
  toCharged := hcharged
  totalBytes_le := Nat.le_trans htotal h.totalBytes_le
  pending_le := Nat.le_trans hpending h.pending_le
  maxBytes := hmax.trans h.maxBytes
  maxPending := hmaxPending.trans h.maxPending

theorem Budgeted.keep (h : Budgeted held c) (hkeep : Upkeep c c') : Budgeted held c' :=
  h.of_charged (hkeep.charged held h.toCharged) hkeep.totalBytes hkeep.pending hkeep.maxBytes
    hkeep.maxPending

/-- A charge that changes hands. -/
theorem Budgeted.of_charges (h : Budgeted held c)
    (hbudget : c'.budget = c.budget) (hcharges : c'.charges + held' = c.charges + held) :
    Budgeted held' c' := by
  refine h.of_charged (h.toCharged.of_charges hbudget hcharges) ?_ ?_ ?_ ?_ <;> rw [hbudget]

theorem Budgeted.of_guards (h : Budgeted held c) (hheld : held' = held) : Budgeted held' c :=
  hheld ▸ h

theorem Budgeted.release {charge : Charge} (h : Budgeted (charge ::ₘ held) c) :
    Budgeted held (c.release charge.bytes) :=
  h.of_charged h.toCharged.release (Nat.sub_le ..) (Nat.sub_le ..) rfl rfl

theorem Budgeted.started {route : RouteHandle} {d : Declaration} {now : Nat}
    {budget : StagingBudget} (h : Budgeted held c) (hfree : c.uploads.find route = none)
    (hroom : c.budget.tryReserve d.totalBytes = some budget) :
    Budgeted held (started c route budget d now) := by
  unfold StagingBudget.tryReserve at hroom
  split at hroom
  · cases hroom
  rename_i hcaps
  cases hroom
  obtain ⟨hbytes, hpending⟩ := not_or.mp hcaps
  have hcharges : ∀ budget, (Uploads.started c route budget d now).charges =
      ⟨c.nextGeneration, d.totalBytes⟩ ::ₘ c.charges := fun _ => charges_put hfree
  refine ⟨⟨?_, ?_⟩, ?_, ?_, h.maxBytes, h.maxPending⟩
  · rw [hcharges, Multiset.cons_add, declaredBytes_cons, ← h.totalBytes, Nat.add_comm]
    rfl
  · rw [hcharges, Multiset.cons_add, Multiset.card_cons, ← h.pending]
    rfl
  · exact h.maxBytes ▸ Nat.le_of_not_lt hbytes
  · exact h.maxPending ▸ Nat.lt_of_not_le hpending

section
variable (h : Decoding tasks c)
include h

theorem Decoding.frame {budget : StagingBudget}
    {uploads : Entries RouteHandle Upload} {latestGeneration : Entries RouteHandle Nat}
    {nextGeneration : Nat} :
    Decoding tasks { c with budget, uploads, latestGeneration, nextGeneration } :=
  ⟨h.bytes, h.jobs, h.bytes_le, h.jobs_le, h.decodeMax, h.decodeJobsMax⟩

theorem Decoding.keep (hkeep : Upkeep c c') : Decoding tasks c' := by
  rw [hkeep.rest]
  exact h.frame

/-- Tasks that hold the same reservations. -/
theorem Decoding.of_tasks {tasks' : List Task}
    (hbytes : (tasks'.map Task.decodeBytes).sum = (tasks.map Task.decodeBytes).sum)
    (hjobs : tasks'.countP Task.decodes = tasks.countP Task.decodes) : Decoding tasks' c :=
  ⟨h.bytes.trans hbytes.symm, h.jobs.trans hjobs.symm, h.bytes_le, h.jobs_le, h.decodeMax,
    h.decodeJobsMax⟩

theorem Decoding.set {i : Nat} {task : Task}
    (htask : tasks[i]? = some task) (task' : Task) (hbytes : task'.decodeBytes = task.decodeBytes)
    (hdecodes : task'.decodes = task.decodes) : Decoding (tasks.set i task') c :=
  h.of_tasks (decodeBytes_set htask hbytes) (decodes_set htask hdecodes)

/-- A task that holds no reservation comes or goes. -/
theorem Decoding.add {task : Task} (hbytes : task.decodeBytes = 0)
    (hdecodes : task.decodes = false) : Decoding (tasks ++ [task]) c :=
  h.of_tasks (by simp [hbytes]) (by simp [hdecodes])

theorem Decoding.erase {i : Nat} {task : Task}
    (htask : tasks[i]? = some task) (hbytes : task.decodeBytes = 0)
    (hdecodes : task.decodes = false) : Decoding (tasks.eraseIdx i) c :=
  h.of_tasks (by rw [decodeBytes_eraseIdx htask, hbytes, Nat.zero_add])
    (by rw [decodes_eraseIdx htask, hdecodes]; rfl)

theorem Decoding.reserve {route : RouteHandle} {uploadId : String}
    {generation index bytes : Nat} (hroom : c.reserveDecode bytes = some c') :
    Decoding (tasks ++ [.decoding route uploadId generation index bytes]) c' := by
  unfold UploadCoordinator.reserveDecode at hroom
  split at hroom
  · cases hroom
  rename_i hjobs
  split at hroom
  · cases hroom
  rename_i hbytes
  cases hroom
  refine ⟨?_, ?_, h.decodeMax ▸ Nat.le_of_not_lt hbytes,
    h.decodeJobsMax ▸ Nat.lt_of_not_le hjobs, h.decodeMax, h.decodeJobsMax⟩
  · simp [h.bytes, Task.decodeBytes]
  · simp [h.jobs, Task.decodes]

theorem Decoding.release {i bytes : Nat} (htask : tasks[i]? = some (.decoded bytes)) :
    Decoding (tasks.eraseIdx i) (c.releaseDecode bytes) := by
  have hbytes := h.bytes
  have hjobs := h.jobs
  rw [decodeBytes_eraseIdx htask] at hbytes
  rw [decodes_eraseIdx htask] at hjobs
  refine ⟨?_, ?_, Nat.le_trans (Nat.sub_le ..) h.bytes_le, Nat.le_trans (Nat.sub_le ..) h.jobs_le,
    h.decodeMax, h.decodeJobsMax⟩
  · change c.decodingBytes - bytes = _
    rw [hbytes]
    exact Nat.add_sub_cancel_left ..
  · change c.decodingJobs - 1 = _
    rw [hjobs]
    rfl

end

end Accounts

/-- What an event does to the charges: it hands them over, it adds one, or it returns one. -/
inductive Settled (w w' : World) : Prop where
  | same {c : UploadCoordinator} (hkeep : Upkeep w.coordinator c)
      (hbudget : w'.coordinator.budget = c.budget)
      (hnext : w'.coordinator.nextGeneration = c.nextGeneration)
      (hcharges : w'.charges = c.charges + guards w.tasks) : Settled w w'
  | began {c : UploadCoordinator} {route : RouteHandle} {d : Declaration} {now : Nat}
      {budget : StagingBudget} (hkeep : Upkeep w.coordinator c)
      (hfree : c.uploads.find route = none)
      (hroom : c.budget.tryReserve d.totalBytes = some budget)
      (hstarted : w'.coordinator = started c route budget d now)
      (hguards : guards w'.tasks = guards w.tasks) : Settled w w'
  | returned {charge : Charge} (hreleased : w'.coordinator = w.coordinator.release charge.bytes)
      (hguards : guards w.tasks = charge ::ₘ guards w'.tasks) : Settled w w'

theorem settled_of_stepped (hsound : Sound w) (hstep : Stepped sha256 w e w') : Settled w w' := by
  cases hstep with
  | kept hkeep => exact .same hkeep rfl rfl rfl
  | began hkeep hfree hroom => exact .began hkeep hfree hroom rfl rfl
  | accepted hkeep hupload hindex hroom =>
    obtain ⟨hbudget, huploads, hnext, -⟩ := reserveDecode_some hroom
    refine .same hkeep hbudget hnext ?_
    rw [World.charges, UploadCoordinator.charges, huploads]
    exact congrArg (_ + ·) (guards_add ..)
  | refused htask hkeep =>
    exact .same hkeep rfl rfl (congrArg (_ + ·) (guards_set_same htask rfl))
  | @staged i page now route uploadId index bytes u htask hupload hindex hfree hfits =>
    refine .same (.refl _) rfl rfl ?_
    have hcharges := charges_replace (find_of_upload hupload) (u.add index page now) rfl
    exact congrArg₂ (· + ·) hcharges (guards_set_same htask rfl)
  | released htask =>
    exact .same (.refl _) rfl rfl (congrArg (_ + ·) (guards_eraseIdx htask).symm)
  | took hfind hcomplete =>
    refine .same (.refl _) rfl rfl ?_
    rw [charges_eq hfind, Multiset.cons_add, ← Multiset.add_cons]
    exact congrArg (_ + ·) (guards_add ..)
  | worked htask => exact .same (.refl _) rfl rfl (congrArg (_ + ·) (guards_set_same htask rfl))
  | @restored i now ingest route u bytes htask hretry hfree hlatest =>
    have hbytes := (hsound.finishing route u bytes (List.mem_of_getElem? htask)).2.2
    have hheld : guards w.tasks = u.charge ::ₘ guards (w.tasks.eraseIdx i) := by
      rw [guards_eraseIdx htask, hbytes]
      exact Multiset.singleton_add ..
    have hleft := (guards_set htask (.finished u.generation none)).trans (zero_add _)
    refine .same (.refl _) rfl rfl ?_
    rw [World.charges, hheld, hleft, Multiset.add_cons, ← Multiset.cons_add]
    exact congrArg (· + _) (charges_put hfree)
  | @dropped i generation bytes htask =>
    refine @Settled.returned _ _ ⟨generation, bytes⟩ rfl ?_
    exact (guards_eraseIdx htask).trans (Multiset.singleton_add ..)
  | disarmed htask =>
    refine .same (.refl _) rfl rfl (congrArg (_ + ·) ?_)
    exact ((guards_eraseIdx htask).trans (zero_add _)).symm
  | discarded hkeep => exact .same hkeep rfl rfl rfl
  | cleared hkeep => exact .same hkeep rfl rfl rfl

theorem Budgeted.settled (h : Budgeted (guards w.tasks) w.coordinator) (hsettled : Settled w w') :
    Budgeted (guards w'.tasks) w'.coordinator := by
  cases hsettled with
  | same hkeep hbudget hnext hcharges => exact (h.keep hkeep).of_charges hbudget hcharges
  | began hkeep hfree hroom hstarted hguards =>
    rw [hstarted, hguards]
    exact (h.keep hkeep).started hfree hroom
  | returned hreleased hguards =>
    rw [hreleased]
    exact (h.of_guards hguards.symm).release

theorem Decoding.stepped (h : Decoding w.tasks w.coordinator) (hstep : Stepped sha256 w e w') :
    Decoding w'.tasks w'.coordinator := by
  cases hstep with
  | kept hkeep => exact h.keep hkeep
  | began hkeep hfree hroom => exact (h.keep hkeep).frame
  | accepted hkeep hupload hindex hroom => exact (h.keep hkeep).reserve hroom
  | refused htask hkeep => exact (h.keep hkeep).set htask (.decoded _) rfl rfl
  | staged htask hupload hindex hfree hfits => exact (h.set htask (.decoded _) rfl rfl).frame
  | released htask => exact h.release htask
  | took hfind hcomplete => exact (h.add rfl rfl).frame
  | worked htask => exact h.set htask (.finished _ (some _)) rfl rfl
  | restored htask hretry hfree hlatest => exact (h.set htask (.finished _ none) rfl rfl).frame
  | dropped htask => exact (h.erase htask rfl rfl).frame
  | disarmed htask => exact h.erase htask rfl rfl
  | discarded hkeep => exact (h.keep hkeep).frame
  | cleared hkeep => exact (h.keep hkeep).frame

/-! ## Charges are returned once -/

/-- An event charges one new upload at most; every other charge was there before. -/
theorem charges_of_settled (h : Settled w w') :
    (w'.charges ≤ w.charges ∧ w'.coordinator.nextGeneration = w.coordinator.nextGeneration) ∨
    ∃ bytes, w'.charges ≤ ⟨w.coordinator.nextGeneration, bytes⟩ ::ₘ w.charges ∧
      w'.coordinator.nextGeneration = w.coordinator.nextGeneration + 1 := by
  have hkept : ∀ {c : UploadCoordinator}, Upkeep w.coordinator c →
      c.charges + guards w.tasks ≤ w.charges ∧
        c.nextGeneration = w.coordinator.nextGeneration := fun hkeep =>
    ⟨add_le_add_left hkeep.charges _, by rw [hkeep.rest]⟩
  cases h with
  | same hkeep hbudget hnext hcharges =>
    exact .inl ⟨hcharges ▸ (hkept hkeep).1, hnext.trans (hkept hkeep).2⟩
  | @began c route d now budget hkeep hfree hroom hstarted hguards =>
    obtain ⟨hle, hnext⟩ := hkept hkeep
    refine .inr ⟨d.totalBytes, ?_, ?_⟩
    · have hcharges : w'.coordinator.charges = ⟨c.nextGeneration, d.totalBytes⟩ ::ₘ c.charges := by
        rw [hstarted]
        exact charges_put hfree
      rw [World.charges, hguards, hcharges, Multiset.cons_add, hnext]
      exact Multiset.cons_le_cons _ hle
    · rw [hstarted, ← hnext]
      rfl
  | @returned charge hreleased hguards =>
    refine .inl ⟨?_, by rw [hreleased]; rfl⟩
    have hcharges : w'.coordinator.charges = w.coordinator.charges := by rw [hreleased]; rfl
    rw [World.charges, World.charges, hcharges, hguards]
    exact add_le_add_right (Multiset.le_cons_self ..) _

def World.generations (w : World) : Multiset Nat := w.charges.map Charge.generation

/-- Every charge is held once, under a generation given out before. -/
structure Single (w : World) : Prop where
  once : w.generations.Nodup
  given : ∀ generation ∈ w.generations, generation < w.coordinator.nextGeneration

theorem Single.settled (h : Single w) (hsettled : Settled w w') : Single w' := by
  rcases charges_of_settled hsettled with ⟨hle, hnext⟩ | ⟨bytes, hle, hnext⟩
  · have hle := Multiset.map_le_map (f := Charge.generation) hle
    exact ⟨Multiset.nodup_of_le hle h.once, fun generation hmem =>
      hnext ▸ h.given generation (Multiset.mem_of_le hle hmem)⟩
  · have hle := Multiset.map_le_map (f := Charge.generation) hle
    rw [Multiset.map_cons] at hle
    refine ⟨Multiset.nodup_of_le hle (Multiset.nodup_cons.mpr ⟨fun hmem => ?_, h.once⟩), ?_⟩
    · exact absurd (h.given _ hmem) (Nat.lt_irrefl _)
    · intro generation hmem
      rw [hnext]
      rcases Multiset.mem_cons.mp (Multiset.mem_of_le hle hmem) with rfl | hmem
      · exact Nat.lt_succ_self _
      · exact Nat.lt_succ_of_lt (h.given generation hmem)

/-- What was returned is not charged again. -/
theorem returned_settled (h : Settled w w') {generation : Nat}
    (hgiven : generation < w.coordinator.nextGeneration) (hreturned : generation ∉ w.generations) :
    generation < w'.coordinator.nextGeneration ∧ generation ∉ w'.generations := by
  rcases charges_of_settled h with ⟨hle, hnext⟩ | ⟨bytes, hle, hnext⟩
  · exact ⟨hnext ▸ hgiven, fun hmem =>
      hreturned (Multiset.mem_of_le (Multiset.map_le_map hle) hmem)⟩
  · refine ⟨hnext ▸ Nat.lt_succ_of_lt hgiven, fun hmem => ?_⟩
    have hmem := Multiset.mem_of_le (Multiset.map_le_map (f := Charge.generation) hle) hmem
    rw [Multiset.map_cons] at hmem
    rcases Multiset.mem_cons.mp hmem with rfl | hmem
    · exact absurd hgiven (Nat.lt_irrefl _)
    · exact hreturned hmem

/-! ## The upload of a route that may come back -/

/-- The record speaks about the route. -/
def Record.Concerns (route : RouteHandle) : Record → Prop
  | .began other _ => other = route
  | .discarded other => other = route
  | .cleared => True

/-- Nothing superseded, discarded or cleared the upload of the route since it began. -/
def Current (log : List Record) (route : RouteHandle) (generation : Nat) : Prop :=
  ∃ later older, log = later ++ .began route generation :: older ∧
    ∀ record ∈ later, ¬ record.Concerns route

/-- The coordinator remembers only the newest upload of a route. -/
def Remembers (w : World) : Prop :=
  ∀ route generation, w.coordinator.latestGeneration.find route = some generation →
    Current w.log route generation

theorem current_cons {log : List Record} {route : RouteHandle} {generation : Nat} {record : Record}
    (h : Current log route generation) (hrecord : ¬ record.Concerns route) :
    Current (record :: log) route generation := by
  obtain ⟨later, older, rfl, hlater⟩ := h
  refine ⟨record :: later, older, rfl, fun r hr => ?_⟩
  rcases List.mem_cons.mp hr with rfl | hr
  · exact hrecord
  · exact hlater r hr

theorem Remembers.stepped (h : Remembers w) (hstep : Stepped sha256 w e w') : Remembers w' := by
  have hkept : ∀ {c : UploadCoordinator}, Upkeep w.coordinator c →
      c.latestGeneration = w.coordinator.latestGeneration := fun hkeep => by rw [hkeep.rest]
  cases hstep with
  | kept hkeep => exact fun route generation hfind => h route generation (hkept hkeep ▸ hfind)
  | @began began d now c budget hkeep hfree hroom =>
    intro route generation hfind
    change (c.latestGeneration.set began c.nextGeneration).find route = _ at hfind
    rw [find_set] at hfind
    split at hfind
    · rename_i heq
      cases hfind
      have hnext : c.nextGeneration = w.coordinator.nextGeneration := by rw [hkeep.rest]
      exact ⟨[], w.log, by rw [heq, hnext]; rfl, fun _ hmem => absurd hmem List.not_mem_nil⟩
    · rename_i hne
      exact current_cons (h route generation (hkept hkeep ▸ hfind)) hne
  | accepted hkeep hupload hindex hroom =>
    intro route generation hfind
    rw [(reserveDecode_some hroom).2.2.2] at hfind
    exact h route generation (hkept hkeep ▸ hfind)
  | refused htask hkeep =>
    exact fun route generation hfind => h route generation (hkept hkeep ▸ hfind)
  | staged | released | took | worked | restored | dropped | disarmed => exact h
  | @discarded discarded c hkeep =>
    intro route generation hfind
    rw [find_erase] at hfind
    split at hfind
    · cases hfind
    · rename_i hne
      exact current_cons (h route generation hfind) hne
  | cleared hkeep => rintro route generation ⟨⟩

/-! ## Who puts an upload into the map, or a page into an upload -/

/-- The page request whose decode holds this generation was accepted by that upload. -/
def Accepted (sha256 : List UInt8 → String) (es : List Event) (route : RouteHandle)
    (uploadId : String) (generation index : Nat) : Prop :=
  ∃ before encodedBytes now after u,
    es = before ++ .page route uploadId index encodedBytes now :: after ∧
    (World.run sha256 {} before).coordinator.upload route uploadId = some u ∧
    u.generation = generation ∧ index < u.pageCount

/-- How an upload is in the map after an event. -/
inductive Arrival (sha256 : List UInt8 → String) (w : World) (route : RouteHandle) (u' : Upload) :
    Event → Prop where
  | stayed {e : Event} {u : Upload} (hfind : w.coordinator.uploads.find route = some u)
      (htouched : Touched u u') : Arrival sha256 w route u' e
  | staged {i : Nat} {page : Page} {now : Nat} {uploadId : String} {index bytes : Nat} {u : Upload}
      (hfind : w.coordinator.uploads.find route = some u)
      (htask : w.tasks[i]? = some (.decoding route uploadId u.generation index bytes))
      (hid : u.uploadId = uploadId)
      (hadd : u' = u.add index page now) : Arrival sha256 w route u' (.decoded i (some page) now)
  | began {d : Declaration} {now : Nat}
      (hnew : u' = { d.upload now with generation := w.coordinator.nextGeneration }) :
      Arrival sha256 w route u' (.begin route d now)
  | restored {i now : Nat} {ingest : ArtifactIngestRequest → StoreAnswer} {u : Upload} {bytes : Nat}
      (htask : w.tasks[i]? = some (.finishing route u bytes))
      (hretry : finishUpload sha256 ingest u = .retry)
      (hcurrent : Current w.log route u.generation)
      (hback : u' = { u with lastActivity := now }) :
      Arrival sha256 w route u' (.worked i (some ingest) now)

theorem arrival_of_stepped (h : Remembers w) (hstep : Stepped sha256 w e w') {route : RouteHandle}
    {u' : Upload} (hfind : w'.coordinator.uploads.find route = some u') :
    Arrival sha256 w route u' e := by
  have hkept : ∀ {c : UploadCoordinator}, Upkeep w.coordinator c →
      c.uploads.find route = some u' → Arrival sha256 w route u' e := by
    intro c hkeep hfind
    obtain ⟨u, hfind, htouched⟩ := hkeep.find route u' hfind
    exact .stayed hfind htouched
  have hsame : w.coordinator.uploads.find route = some u' → Arrival sha256 w route u' e :=
    hkept (.refl _)
  cases hstep with
  | kept hkeep | refused htask hkeep | discarded hkeep | cleared hkeep => exact hkept hkeep hfind
  | @began began d now c budget hkeep hfree hroom =>
    change (c.uploads.set began _).find route = _ at hfind
    rw [find_set] at hfind
    split at hfind
    · rename_i heq
      cases hfind
      have hnext : c.nextGeneration = w.coordinator.nextGeneration := by rw [hkeep.rest]
      exact heq ▸ .began (by rw [hnext])
    · exact hkept hkeep hfind
  | accepted hkeep hupload hindex hroom =>
    rw [(reserveDecode_some hroom).2.1] at hfind
    exact hkept hkeep hfind
  | @staged i page now staged uploadId index bytes u htask hupload hindex hfree hfits =>
    rw [find_set] at hfind
    split at hfind
    · rename_i heq
      cases hfind
      subst heq
      have hid := of_decide_eq_true (Option.filter_eq_some_iff.mp hupload).2
      exact .staged (find_of_upload hupload) htask hid rfl
    · exact hsame hfind
  | @took took uploadId u hfree hcomplete =>
    rw [find_erase] at hfind
    split at hfind
    · cases hfind
    · exact hsame hfind
  | @restored i now ingest restored u bytes htask hretry hfree hlatest =>
    rw [find_set] at hfind
    split at hfind
    · rename_i heq
      cases hfind
      subst heq
      exact .restored htask hretry (h _ _ hlatest) rfl
    · exact hsame hfind
  | released htask => exact hsame hfind
  | worked htask => exact hsame hfind
  | dropped htask => exact hsame hfind
  | disarmed htask => exact hsame hfind

/-- The decodes under way, and what accepted their pages. -/
def DecodesAccepted (sha256 : List UInt8 → String) (es : List Event) (w : World) : Prop :=
  ∀ route uploadId generation index bytes,
    .decoding route uploadId generation index bytes ∈ w.tasks →
    Accepted sha256 es route uploadId generation index

theorem Accepted.concat {es : List Event} {route : RouteHandle} {uploadId : String}
    {generation index : Nat} (h : Accepted sha256 es route uploadId generation index) (e : Event) :
    Accepted sha256 (es ++ [e]) route uploadId generation index := by
  obtain ⟨before, encodedBytes, now, after, u, rfl, hu⟩ := h
  exact ⟨before, encodedBytes, now, after ++ [e], u, by simp, hu⟩

theorem DecodesAccepted.stepped {es : List Event} (h : DecodesAccepted sha256 es w)
    (hw : w = World.run sha256 {} es) (hstep : Stepped sha256 w e w') :
    DecodesAccepted sha256 (es ++ [e]) w' := by
  intro route uploadId generation index bytes hmem
  have hkept : .decoding route uploadId generation index bytes ∈ w.tasks →
      Accepted sha256 (es ++ [e]) route uploadId generation index := fun hmem =>
    (h route uploadId generation index bytes hmem).concat e
  cases hstep with
  | kept | began | discarded | cleared => exact hkept hmem
  | @accepted route' uploadId' index' encodedBytes now u c c' hkeep hupload hindex hroom =>
    rcases List.mem_append.mp hmem with hmem | hmem
    · exact hkept hmem
    · cases List.mem_singleton.mp hmem
      exact ⟨es, encodedBytes, now, [], u, rfl, hw ▸ hupload, rfl, hindex⟩
  | refused | staged | worked | restored => exact hkept (mem_of_mem_set hmem nofun)
  | released | dropped | disarmed => exact hkept (List.mem_of_mem_eraseIdx hmem)
  | took =>
    rcases List.mem_append.mp hmem with hmem | hmem
    · exact hkept hmem
    · cases List.mem_singleton.mp hmem

/-! ## Runs -/

/-- What holds after these events. -/
structure Consistent (sha256 : List UInt8 → String) (es : List Event) (w : World) : Prop where
  sound : Sound w
  budgeted : Budgeted (guards w.tasks) w.coordinator
  decoding : Decoding w.tasks w.coordinator
  single : Single w
  remembers : Remembers w
  accepted : DecodesAccepted sha256 es w

theorem consistent_start : Consistent sha256 [] {} where
  sound := ⟨fun _ _ hfind => (nomatch hfind), fun _ _ _ hmem => absurd hmem List.not_mem_nil⟩
  budgeted := ⟨⟨rfl, rfl⟩, Nat.zero_le _, Nat.zero_le _, rfl, rfl⟩
  decoding := ⟨rfl, rfl, Nat.zero_le _, Nat.zero_le _, rfl, rfl⟩
  single := ⟨Multiset.nodup_zero, fun _ hmem => absurd hmem (Multiset.notMem_zero _)⟩
  remembers _ _ hfind := nomatch hfind
  accepted _ _ _ _ _ hmem := absurd hmem List.not_mem_nil

theorem run_concat (w : World) (es : List Event) (e : Event) :
    w.run sha256 (es ++ [e]) = (w.run sha256 es).step sha256 e := by
  rw [World.run, List.foldl_concat]
  rfl

theorem run_append (w : World) (es es' : List Event) :
    w.run sha256 (es ++ es') = (w.run sha256 es).run sha256 es' :=
  List.foldl_append

theorem consistent_run (sha256 : List UInt8 → String) (es : List Event) :
    Consistent sha256 es (World.run sha256 {} es) := by
  induction es using List.reverseRecOn with
  | nil => exact consistent_start
  | append_singleton es e ih =>
    rw [run_concat]
    have hstep := step_cases sha256 (World.run sha256 {} es) e
    have hsettled := settled_of_stepped ih.sound hstep
    exact
      { sound := ih.sound.stepped hstep
        budgeted := ih.budgeted.settled hsettled
        decoding := ih.decoding.stepped hstep
        single := ih.single.settled hsettled
        remembers := ih.remembers.stepped hstep
        accepted := ih.accepted.stepped rfl hstep }

theorem returned_run {es : List Event} (hsound : Sound w) {generation : Nat}
    (hgiven : generation < w.coordinator.nextGeneration) (hreturned : generation ∉ w.generations) :
    generation ∉ (w.run sha256 es).generations := by
  induction es generalizing w with
  | nil => exact hreturned
  | cons e es ih =>
    have hstep := step_cases sha256 w e
    have hsettled := settled_of_stepped hsound hstep
    obtain ⟨hgiven, hreturned⟩ := returned_settled hsettled hgiven hreturned
    exact ih (hsound.stepped hstep) hgiven hreturned

/-- What the staging of uploads keeps to along events. -/
structure Held (sha256 : List UInt8 → String) (es : List Event) : Prop where
  /-- The budget is the declared bytes and the number of what is charged, within the caps. -/
  budgeted : let w := World.run sha256 {} es
    w.coordinator.budget.totalBytes = declaredBytes w.charges ∧
      w.coordinator.budget.pending = w.charges.card ∧
      w.coordinator.budget.totalBytes ≤ maxStagedBytes ∧
      w.coordinator.budget.pending ≤ maxPendingUploads
  /-- The decode counters are the live reservations. -/
  decoding : Decoding (World.run sha256 {} es).tasks (World.run sha256 {} es).coordinator
  /-- No upload is charged twice. -/
  single : (World.run sha256 {} es).generations.Nodup
  /-- A charge that was returned is never charged again. -/
  returned : ∀ before after generation, es = before ++ after →
    generation < (World.run sha256 {} before).coordinator.nextGeneration →
    generation ∉ (World.run sha256 {} before).generations →
      generation ∉ (World.run sha256 {} es).generations
  /-- An upload being finished has exactly the pages it declared, and its guard their charge. -/
  whole : ∀ route u bytes, .finishing route u bytes ∈ (World.run sha256 {} es).tasks →
    u.Whole ∧ bytes = u.totalBytes
  /-- What the store takes is these pages in the order of their indices. -/
  ingested : ∀ route u bytes ingest handle,
    .finishing route u bytes ∈ (World.run sha256 {} es).tasks →
    finishUpload sha256 ingest u = .ingested handle →
      sha256 u.assembled = u.payloadDigest ∧
        ingest { u.request with payload := u.assembled } = .ingested handle
  /-- Pages and uploads come into the map in these ways only. -/
  arrival : ∀ before e after, es = before ++ e :: after →
    ∀ route u', (World.run sha256 {} (before ++ [e])).coordinator.uploads.find route = some u' →
      Arrival sha256 (World.run sha256 {} before) route u' e
  /-- A page that is being decoded goes by the generation of the upload that accepted it. -/
  accepted : ∀ before after, es = before ++ after →
    DecodesAccepted sha256 before (World.run sha256 {} before)

/-- **Uploads are charged once and returned once, take only pages that they accepted, finish with
exactly the pages they declared, and come back only while they are the newest of their route.** -/
theorem uploads_held (sha256 : List UInt8 → String) (es : List Event) : Held sha256 es := by
  have h := consistent_run sha256 es
  have hwhole : ∀ route u bytes, .finishing route u bytes ∈ (World.run sha256 {} es).tasks →
      u.Whole ∧ bytes = u.totalBytes := by
    intro route u bytes hmem
    obtain ⟨hfits, hcomplete, hbytes⟩ := h.sound.finishing route u bytes hmem
    exact ⟨hfits.whole hcomplete, hbytes⟩
  refine ⟨⟨h.budgeted.totalBytes, h.budgeted.pending, h.budgeted.totalBytes_le,
    h.budgeted.pending_le⟩, h.decoding, h.single.once, ?_, hwhole, ?_, ?_, ?_⟩
  · rintro before after generation rfl hgiven hreturned
    rw [run_append]
    exact returned_run (consistent_run sha256 before).sound hgiven hreturned
  · intro route u bytes ingest handle hmem hfinish
    exact finishUpload_of_whole (hwhole route u bytes hmem).1 hfinish
  · rintro before e after rfl route u' hfind
    rw [run_concat] at hfind
    exact arrival_of_stepped (consistent_run sha256 before).remembers (step_cases sha256 _ e) hfind
  · rintro before after rfl
    exact (consistent_run sha256 before).accepted

end MagicContext.Uploads
