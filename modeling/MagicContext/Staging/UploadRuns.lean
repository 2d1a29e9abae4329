import MagicContext.Staging.Uploads
import Mathlib.Algebra.BigOperators.Group.Multiset.Basic

/-!
# What a call does to the uploads

Most of what the coordinator does is upkeep: uploads are dropped with their charges, or marked as
active.  A call does no more than upkeep and one of a few things that matter — it starts an upload,
stages a page, hands a complete upload out, or takes one back.

## What is here

* `Charge`, `Charged` — what the uploads and the guards are charged with, and the budget that
  follows it.
* `Upkeep` — drops and marks, and that evictions, discards and clears are nothing else.
* `Fits`, `Whole` — the pages of an upload, and of a complete one.
-/

namespace MagicContext.Uploads

open Host (RouteHandle)
open Kernel (ArtifactIngestRequest ArtifactHandle)
open UploadCoordinator

/-! ## Charges -/

/-- What was reserved for one upload, which its generation names. -/
structure Charge where
  generation : Nat
  bytes : Nat

def Upload.charge (u : Upload) : Charge := ⟨u.generation, u.totalBytes⟩

/-- The charge that the guard of a finish holds. -/
def Task.charge : Task → Option Charge
  | .finishing _ u bytes => some ⟨u.generation, bytes⟩
  | .finished generation (some bytes) => some ⟨generation, bytes⟩
  | _ => none

def guards (tasks : List Task) : Multiset Charge := Multiset.filterMap Task.charge tasks

namespace UploadCoordinator

def charges (c : UploadCoordinator) : Multiset Charge := c.uploads.values.map Upload.charge

end UploadCoordinator

/-- All that is charged: the uploads in the map, and those being finished. -/
def World.charges (w : World) : Multiset Charge := w.coordinator.charges + guards w.tasks

def declaredBytes (charges : Multiset Charge) : Nat := (charges.map Charge.bytes).sum

/-- The budget holds the charges of the uploads and of these guards. -/
structure Charged (held : Multiset Charge) (c : UploadCoordinator) : Prop where
  totalBytes : c.budget.totalBytes = declaredBytes (c.charges + held)
  pending : c.budget.pending = (c.charges + held).card

@[simp] theorem declaredBytes_cons (a : Charge) (s : Multiset Charge) :
    declaredBytes (a ::ₘ s) = a.bytes + declaredBytes s := by
  simp [declaredBytes]

section Charges
variable {c : UploadCoordinator} {route : RouteHandle} {held : Multiset Charge}

theorem charges_eq {u : Upload} (h : c.uploads.find route = some u) :
    c.charges = u.charge ::ₘ (c.uploads.erase route).values.map Upload.charge := by
  rw [charges, Entries.values_erase h, Multiset.map_cons]

theorem charges_set (u : Upload) :
    (c.uploads.set route u).values.map Upload.charge =
      u.charge ::ₘ (c.uploads.erase route).values.map Upload.charge := by
  rw [Entries.values_set, Multiset.map_cons]

/-- An upload changed within its charge. -/
theorem charges_replace {u : Upload} (h : c.uploads.find route = some u) (u' : Upload)
    (hcharge : u'.charge = u.charge) :
    (c.uploads.set route u').values.map Upload.charge = c.charges := by
  rw [charges_set, charges_eq h, hcharge]

theorem charges_put {u : Upload} (h : c.uploads.find route = none) :
    (c.uploads.set route u).values.map Upload.charge = u.charge ::ₘ c.charges := by
  rw [charges_set, Entries.erase_of_find h]
  rfl

/-- A guard's charge that is given back. -/
theorem Charged.release {charge : Charge} (h : Charged (charge ::ₘ held) c) :
    Charged held (c.release charge.bytes) := by
  have htotal := h.totalBytes
  have hpending := h.pending
  rw [Multiset.add_cons, declaredBytes_cons] at htotal
  rw [Multiset.add_cons, Multiset.card_cons] at hpending
  constructor
  · change c.budget.totalBytes - charge.bytes = declaredBytes (c.charges + held)
    omega
  · change c.budget.pending - 1 = (c.charges + held).card
    omega

/-- A charge that changes hands between the map and a guard. -/
theorem Charged.of_charges {held' : Multiset Charge} {c' : UploadCoordinator} (h : Charged held c)
    (hbudget : c'.budget = c.budget) (hcharges : c'.charges + held' = c.charges + held) :
    Charged held' c' := by
  constructor
  · rw [hbudget, hcharges, h.totalBytes]
  · rw [hbudget, hcharges, h.pending]

end Charges

/-! ## Upkeep -/

/-- One upload, but for the time it was last active. -/
def Touched (u u' : Upload) : Prop := u' = { u with lastActivity := u'.lastActivity }

theorem Touched.refl (u : Upload) : Touched u u := rfl

theorem Touched.trans {u u' u'' : Upload} (h : Touched u u') (h' : Touched u' u'') :
    Touched u u'' := by
  rw [Touched] at h h' ⊢
  rw [h', h]

/-- Uploads are dropped with their charges or marked as active, and nothing else happens. -/
structure Upkeep (c c' : UploadCoordinator) : Prop where
  find : ∀ route u', c'.uploads.find route = some u' →
    ∃ u, c.uploads.find route = some u ∧ Touched u u'
  charges : c'.charges ≤ c.charges
  charged : ∀ held, Charged held c → Charged held c'
  totalBytes : c'.budget.totalBytes ≤ c.budget.totalBytes
  pending : c'.budget.pending ≤ c.budget.pending
  maxBytes : c'.budget.maxBytes = c.budget.maxBytes
  maxPending : c'.budget.maxPending = c.budget.maxPending
  rest : c' = { c with budget := c'.budget, uploads := c'.uploads }

namespace Upkeep
variable {c c' c'' : UploadCoordinator}

theorem refl (c : UploadCoordinator) : Upkeep c c where
  find _ u h := ⟨u, h, .refl u⟩
  charges := le_refl _
  charged _ h := h
  totalBytes := le_refl _
  pending := le_refl _
  maxBytes := rfl
  maxPending := rfl
  rest := rfl

theorem trans (h : Upkeep c c') (h' : Upkeep c' c'') : Upkeep c c'' where
  find route u'' hfind := by
    obtain ⟨u', hfind', htouched'⟩ := h'.find route u'' hfind
    obtain ⟨u, hfind, htouched⟩ := h.find route u' hfind'
    exact ⟨u, hfind, htouched.trans htouched'⟩
  charges := le_trans h'.charges h.charges
  charged held hcharged := h'.charged held (h.charged held hcharged)
  totalBytes := le_trans h'.totalBytes h.totalBytes
  pending := le_trans h'.pending h.pending
  maxBytes := h'.maxBytes.trans h.maxBytes
  maxPending := h'.maxPending.trans h.maxPending
  rest := by rw [h'.rest, h.rest]

theorem take (c : UploadCoordinator) (route : RouteHandle) : Upkeep c (c.take route) := by
  unfold UploadCoordinator.take
  cases hfind : c.uploads.find route with
  | none => exact refl c
  | some u =>
    refine ⟨?_, ?_, ?_, Nat.sub_le .., Nat.sub_le .., rfl, rfl, rfl⟩
    · intro other u' hfind'
      rw [Entries.find_erase] at hfind'
      split at hfind'
      · cases hfind'
      · exact ⟨u', hfind', .refl u'⟩
    · rw [charges_eq hfind]
      exact Multiset.le_cons_self ..
    · intro held h
      have hsame : Charged (u.charge ::ₘ held) { c with uploads := c.uploads.erase route } := by
        refine h.of_charges rfl ?_
        rw [charges_eq hfind, Multiset.add_cons, Multiset.cons_add]
        rfl
      exact hsame.release

theorem foldl_take (routes : List RouteHandle) (c : UploadCoordinator) :
    Upkeep c (routes.foldl UploadCoordinator.take c) := by
  induction routes generalizing c with
  | nil => exact refl c
  | cons route routes ih => exact (take c route).trans (ih _)

theorem evictStale (c : UploadCoordinator) (now : Nat) : Upkeep c (c.evictStale now) :=
  foldl_take ..

/-- An upload marked as active. -/
theorem touch {route : RouteHandle} {u : Upload} (now : Nat) (h : c.uploads.find route = some u) :
    Upkeep c { c with uploads := c.uploads.set route { u with lastActivity := now } } := by
  have hcharges := charges_replace h { u with lastActivity := now } rfl
  refine ⟨?_, le_of_eq hcharges, ?_, le_refl _, le_refl _, rfl, rfl, rfl⟩
  · intro other u' hfind'
    rw [Entries.find_set] at hfind'
    split at hfind'
    · rename_i heq
      cases hfind'
      exact ⟨u, heq ▸ h, rfl⟩
    · exact ⟨u', hfind', .refl u'⟩
  · intro held hcharged
    exact hcharged.of_charges rfl (congrArg (· + held) hcharges)

end Upkeep

theorem find_take (c : UploadCoordinator) (route other : RouteHandle) :
    (c.take route).uploads.find other = if route = other then none else c.uploads.find other := by
  unfold take
  cases hfind : c.uploads.find route with
  | none =>
    dsimp only
    split
    · rename_i heq
      rw [← heq, hfind]
    · rfl
  | some u => exact Entries.find_erase ..

theorem discard_eq (c : UploadCoordinator) (route : RouteHandle) :
    c.discard route =
      { c.take route with latestGeneration := c.latestGeneration.erase route } := by
  unfold UploadCoordinator.discard UploadCoordinator.take
  cases c.uploads.find route with
  | none => rfl
  | some u => rfl

/-! ## Calls -/

section Calls
variable (c : UploadCoordinator) (route : RouteHandle)

/-- The coordinator with the upload that it has just admitted. -/
def started (budget : StagingBudget) (d : Declaration) (now : Nat) : UploadCoordinator :=
  { c with
    budget
    uploads := c.uploads.set route { d.upload now with generation := c.nextGeneration }
    latestGeneration := c.latestGeneration.set route c.nextGeneration
    nextGeneration := c.nextGeneration + 1 }

/-- A begin resumes or refuses, or it starts an upload of a route that then has none. -/
inductive Began (d : Declaration) (now : Nat) : Option BeginOutcome → UploadCoordinator → Prop where
  | kept {outcome : Option BeginOutcome} {c' : UploadCoordinator} (hkeep : Upkeep c c')
      (houtcome : outcome ≠ some .started) : Began d now outcome c'
  | started {c' : UploadCoordinator} {budget : StagingBudget} (hkeep : Upkeep c c')
      (hfree : c'.uploads.find route = none)
      (hroom : c'.budget.tryReserve d.totalBytes = some budget) :
      Began d now (some .started) (started c' route budget d now)

theorem start_cases {c c' : UploadCoordinator} {route : RouteHandle} (d : Declaration) (now : Nat)
    (hkeep : Upkeep c c') (hfree : c'.uploads.find route = none) :
    Began c route d now (c'.start route d now).1 (c'.start route d now).2 := by
  unfold start
  cases hroom : c'.budget.tryReserve d.totalBytes with
  | none => exact .kept hkeep nofun
  | some budget => exact .started hkeep hfree hroom

theorem begin_cases (d : Declaration) (now : Nat) :
    Began c route d now (c.begin route d now).1 (c.begin route d now).2 := by
  unfold begin
  have hkeep := Upkeep.evictStale c now
  generalize c.evictStale now = c' at hkeep
  dsimp only
  cases hfind : c'.uploads.find route with
  | none => exact start_cases d now hkeep hfind
  | some existing =>
    dsimp only
    by_cases hsame : existing.declaresSame d
    · rw [if_pos hsame]
      exact .kept (hkeep.trans (.touch now hfind)) nofun
    · rw [if_neg hsame]
      refine start_cases d now (hkeep.trans (.take c' route)) ?_
      rw [find_take, if_pos rfl]

variable {c route} {uploadId : String}

theorem find_of_upload {u : Upload} (h : c.upload route uploadId = some u) :
    c.uploads.find route = some u :=
  (Option.filter_eq_some_iff.mp h).1

variable {c' : UploadCoordinator}

theorem acceptsPage_error {index now : Nat} {reason : InvalidReason}
    (h : c.acceptsPage route uploadId index now = (.error reason, c')) : c' = c := by
  unfold acceptsPage at h
  split at h
  · exact (congrArg Prod.snd h).symm
  · split at h
    · exact (congrArg Prod.snd h).symm
    · cases congrArg Prod.fst h

/-- An accepted page goes by the generation of the upload that accepted it. -/
theorem acceptsPage_ok {index now generation : Nat}
    (h : c.acceptsPage route uploadId index now = (.ok generation, c')) :
    Upkeep c c' ∧ ∃ u, c.upload route uploadId = some u ∧ u.generation = generation ∧
      index < u.pageCount := by
  unfold acceptsPage at h
  split at h
  · cases congrArg Prod.fst h
  · rename_i u hupload
    by_cases hindex : u.pageCount ≤ index
    · rw [if_pos hindex] at h
      cases congrArg Prod.fst h
    · rw [if_neg hindex] at h
      cases h
      exact ⟨.touch now (find_of_upload hupload), u, hupload, rfl, Nat.lt_of_not_le hindex⟩

/-- An upload with one more page. -/
def Upload.add (u : Upload) (index : Nat) (page : Page) (now : Nat) : Upload :=
  { u with
    receivedBytes := u.receivedBytes + page.bytes.length
    pages := u.pages.insert index page
    lastActivity := now }

/-- A decoded page is refused, was staged before, or is staged into the upload of its
generation. -/
inductive PageStaged (c : UploadCoordinator) (route : RouteHandle) (uploadId : String)
    (generation index : Nat) (page : Page) (now : Nat) : UploadCoordinator → Prop where
  | kept {c' : UploadCoordinator} (hkeep : Upkeep c c') :
      PageStaged c route uploadId generation index page now c'
  | added {u : Upload} (hupload : c.upload route uploadId = some u)
      (hgeneration : u.generation = generation) (hindex : index < u.pageCount)
      (hfree : u.pages.get index = none) (hbytes : page.bytes.length ≠ 0)
      (hfits : u.receivedBytes + page.bytes.length ≤ u.totalBytes) :
      PageStaged c route uploadId generation index page now
        { c with uploads := c.uploads.set route (u.add index page now) }

theorem stage_cases (c : UploadCoordinator) (route : RouteHandle) (uploadId : String)
    (generation index : Nat) (page : Page) (now : Nat) :
    PageStaged c route uploadId generation index page now
      (c.stage route uploadId generation index page now).2 := by
  unfold stage
  cases hupload : (c.upload route uploadId).filter fun u => u.generation = generation with
  | none => exact .kept (.refl c)
  | some u =>
    obtain ⟨hupload, hgeneration⟩ := Option.filter_eq_some_iff.mp hupload
    have hgeneration := of_decide_eq_true hgeneration
    dsimp only
    by_cases hindex : u.pageCount ≤ index
    · rw [if_pos hindex]
      exact .kept (.refl c)
    rw [if_neg hindex]
    cases hpage : u.pages.get index with
    | some existing =>
      dsimp only
      by_cases hdigest : existing.digest = page.digest
      · rw [if_pos hdigest]
        exact .kept (.touch now (find_of_upload hupload))
      · rw [if_neg hdigest]
        exact .kept (.refl c)
    | none =>
      by_cases hbytes : page.bytes.length = 0 ∨ u.totalBytes < u.receivedBytes + page.bytes.length
      · rw [if_pos hbytes]
        exact .kept (.refl c)
      · rw [if_neg hbytes]
        obtain ⟨hbytes, hfits⟩ := not_or.mp hbytes
        exact .added hupload hgeneration (Nat.lt_of_not_le hindex) hpage hbytes
          (Nat.le_of_not_lt hfits)

theorem reserveDecode_some {bytes : Nat} (h : c.reserveDecode bytes = some c') :
    c'.budget = c.budget ∧ c'.uploads = c.uploads ∧ c'.nextGeneration = c.nextGeneration ∧
      c'.latestGeneration = c.latestGeneration := by
  unfold reserveDecode at h
  split at h
  · cases h
  · split at h
    · cases h
    · cases h
      exact ⟨rfl, rfl, rfl, rfl⟩

theorem takeComplete_error {reason : InvalidReason}
    (h : c.takeComplete route uploadId = (.error reason, c')) : c' = c := by
  unfold takeComplete at h
  split at h
  · exact (congrArg Prod.snd h).symm
  · split at h
    · cases congrArg Prod.fst h
    · exact (congrArg Prod.snd h).symm

theorem takeComplete_ok {u : Upload} (h : c.takeComplete route uploadId = (.ok u, c')) :
    c.uploads.find route = some u ∧ u.isComplete = true ∧
      c' = { c with uploads := c.uploads.erase route } := by
  unfold takeComplete at h
  split at h
  · cases congrArg Prod.fst h
  · rename_i u' hupload
    by_cases hcomplete : u'.isComplete
    · rw [if_pos hcomplete] at h
      cases h
      exact ⟨find_of_upload hupload, hcomplete, rfl⟩
    · rw [if_neg hcomplete] at h
      cases congrArg Prod.fst h

/-- An upload goes back into a map that has none of its route, and as the newest of the route. -/
theorem restore_none {u : Upload} {now : Nat} (h : c.restore route u now = (none, c')) :
    c.uploads.find route = none ∧ c.latestGeneration.find route = some u.generation ∧
      c' = { c with uploads := c.uploads.set route { u with lastActivity := now } } := by
  unfold restore at h
  split at h
  · cases congrArg Prod.fst h
  · rename_i hnot
    obtain ⟨hfree, hlatest⟩ := not_or.mp hnot
    cases h
    exact ⟨Option.not_isSome_iff_eq_none.mp hfree, not_not.mp hlatest, rfl⟩

theorem restore_some {u u' : Upload} {now : Nat} (h : c.restore route u now = (some u', c')) :
    c' = c := by
  unfold restore at h
  split at h
  · exact (congrArg Prod.snd h).symm
  · cases congrArg Prod.fst h

end Calls

/-! ## Pages -/

namespace Upload

/-- The pages of an upload, one after the other by index. -/
def assembled (u : Upload) : List UInt8 :=
  (List.range u.pageCount).flatMap fun i => ((u.pages.get i).map Page.bytes).getD []

/-- The pages stay within what was declared. -/
structure Fits (u : Upload) : Prop where
  index : ∀ i ∈ u.pages.keys, i < u.pageCount
  received : u.payload.length = u.receivedBytes
  within : u.receivedBytes ≤ u.totalBytes

/-- There is exactly one page for each index, and together they have the declared size. -/
structure Whole (u : Upload) : Prop where
  keys : u.pages.keys = List.range u.pageCount
  payload : u.payload = u.assembled
  length : u.assembled.length = u.totalBytes

variable {u u' : Upload}

theorem Fits.touched (h : Fits u) (htouched : Touched u u') : Fits u' := by
  rw [htouched]
  exact ⟨h.index, h.received, h.within⟩

theorem fits_upload (d : Declaration) (generation now : Nat) :
    Fits { d.upload now with generation } where
  index _ hi := absurd hi List.not_mem_nil
  received := rfl
  within := Nat.zero_le _

theorem Fits.add (h : Fits u) {index : Nat} {page : Page} (hindex : index < u.pageCount)
    (hfree : u.pages.get index = none)
    (hfits : u.receivedBytes + page.bytes.length ≤ u.totalBytes) (now : Nat) :
    Fits (u.add index page now) where
  index i hi := by
    rw [SortedMap.mem_keys, Upload.add, SortedMap.get_insert] at hi
    split at hi
    · rename_i heq
      exact heq ▸ hindex
    · exact h.index i (SortedMap.mem_keys.mpr hi)
  received := by
    have hperm := (SortedMap.perm_insert page hfree).flatMap_right fun e => e.2.bytes
    have hlength := hperm.length_eq
    rw [List.flatMap_cons, List.length_append] at hlength
    change (u.add index page now).payload.length = page.bytes.length + u.payload.length at hlength
    rw [hlength, h.received, Nat.add_comm]
    rfl
  within := hfits

/-- **A complete upload has exactly the pages it declared**, and its payload is these in the order
of their indices, with the declared size. -/
theorem Fits.whole (h : Fits u) (hcomplete : u.isComplete = true) : Whole u := by
  obtain ⟨hcount, hbytes⟩ := Bool.and_eq_true_iff.mp hcomplete
  have hkeys : u.pages.keys = List.range u.pageCount :=
    SortedMap.keys_eq_range h.index (beq_iff_eq.mp hcount)
  have hpayload : u.payload = u.assembled := by
    rw [payload, SortedMap.flatMap_entries, hkeys, assembled]
  refine ⟨hkeys, hpayload, ?_⟩
  rw [← hpayload, h.received]
  exact beq_iff_eq.mp hbytes

end Upload

/-- What the store is given for a complete upload, and only when it hashes to the digest. -/
theorem finishUpload_of_whole {sha256 : List UInt8 → String}
    {ingest : ArtifactIngestRequest → StoreAnswer} {u : Upload} {handle : ArtifactHandle}
    (h : u.Whole) (hfinish : finishUpload sha256 ingest u = .ingested handle) :
    sha256 u.assembled = u.payloadDigest ∧
      ingest { u.request with payload := u.assembled } = .ingested handle := by
  rw [finishUpload, h.payload] at hfinish
  split at hfinish
  · cases hfinish
  · rename_i hdigest
    refine ⟨not_not.mp hdigest, ?_⟩
    cases hanswer : ingest { u.request with payload := u.assembled } with
    | ingested handle' =>
      rw [hanswer] at hfinish
      cases hfinish
      rfl
    | retriable =>
      rw [hanswer] at hfinish
      cases hfinish
    | refused =>
      rw [hanswer] at hfinish
      cases hfinish

end MagicContext.Uploads
