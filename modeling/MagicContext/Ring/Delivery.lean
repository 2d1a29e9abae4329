import MagicContext.Ring.Bytes
import MagicContext.Ring.Conservation

/-!
# Delivery

Frames are received in the order of their commits, each once, with the bytes that were committed,
and a lease shows the same bytes until it is released.  There is one exception.  When every byte in
use belongs to a released frame, reclaiming also removes the page that holds the reclaim cursor,
and the front of that page, a lap later, may already hold bytes of the producer's outstanding
reservation.

## What is here

* `System.Delivers` — the history is in order and leases show what was received.
* `Control.Punches` and `Op.Spares` — the cells the exception clears, and the steps that leave the
  bytes of a reservation alone.
* `System.Tracks` — the invariant: every live frame is in the arena as it was committed, and so is
  every byte the producer has stored.  `System.Sound` adds the rings that a doorbell has stopped.
* `run_delivers` — **every run of sparing steps delivers**; `lost_write` — a run that does not.
-/

namespace MagicContext.Ring

open Word

variable {g : Grant} {c : Control} {r : Option Reservation}

/-! ## What is promised -/

/-- Frames arrive in the order of their commits, and a lease shows the frame that was received. -/
structure System.Delivers (sys : System) : Prop where
  received : ∀ (n : Nat) (f : Frame), sys.received[n]? = some f →
    ∃ f', sys.commits[n]? = some f' ∧ f.Same f'
  held : ∀ lease ∈ sys.leases, (lease.lease.frame sys.shared.arena).Same lease.seen ∧
    ∃ n : Nat, sys.received[n]? = some lease.seen

/-- Reclaiming clears cell `q` with the page at the reclaim cursor: every byte in use belongs to a
released frame, the write cursor is on a page boundary and the reclaim cursor is not. -/
def Control.Punches (c : Control) (g : Grant) (os : Outcomes) (q : Nat) : Prop :=
  ∃ last, c.completed < last ∧ last ≤ c.consumed ∧
    (∀ k, c.completed < k → k ≤ last → (c.slot g k).state = .releasePending) ∧
    c.Punched g os (c.position g last) q

/-- A step leaves the bytes of the outstanding reservation alone: an attempt to reserve does not
clear a cell in which the producer has stored a byte other than zero. -/
def Op.Spares (g : Grant) (sys : System) : Op → Prop
  | .tryReserve os bound _ => bound ≤ maxFrameBytes → sys.shared.quarantined = false →
      ∀ res i b, sys.reservation = some res → sys.written i = some b → b ≠ 0 →
        ¬ sys.shared.Punches g os ((res.plan.allocationStart + i) % g.arenaBytes)
  | _ => True

/-- Every step of a run spares the outstanding reservation. -/
def System.SparingRun (g : Grant) : System → List Op → Prop
  | _, [] => True
  | sys, op :: ops => op.Spares g sys ∧ SparingRun g (sys.step g op) ops

/-! ## Where live frames are -/

/-- The descriptor and the arena hold the frame with sequence `k`. -/
structure Holds (g : Grant) (k : Nat) (d : FrameDescriptor) (arena : Nat → UInt8) (f : Frame) :
    Prop where
  wireHeader : d.wireHeader = f.wireHeader
  sequence : k = f.sequence
  bodyLen : d.bodyLen = f.bodyLen
  body : ∀ i, i < d.bodyLen → arena ((d.allocationStart + i) % g.arenaBytes) = f.body i

theorem Holds.congr {k : Nat} {d : FrameDescriptor} {arena arena' : Nat → UInt8} {f : Frame}
    (h : Holds g k d arena f)
    (harena : ∀ i, i < d.bodyLen → arena' ((d.allocationStart + i) % g.arenaBytes) =
      arena ((d.allocationStart + i) % g.arenaBytes)) : Holds g k d arena' f :=
  ⟨h.wireHeader, h.sequence, h.bodyLen, fun i hi => (harena i hi).trans (h.body i hi)⟩

/-- The lease of a frame shows the frame. -/
theorem Holds.lease {k : Nat} {d : FrameDescriptor} {arena : Nat → UInt8} {f : Frame}
    (h : Holds g k d arena f) (hlen : d.bodyLen ≤ g.arenaBytes) :
    ((leaseOf g k d).frame arena).Same f := by
  refine ⟨h.wireHeader, h.sequence, h.bodyLen, fun i hi => ?_⟩
  change (leaseOf g k d).byte arena i = f.body i
  rw [leaseOf_byte hlen hi]
  exact h.body i hi

theorem Wf.bodyLen_le (h : Wf g c r) {n : Nat} (hn : c.completed ≤ n) (hn' : n < c.published) :
    (c.slot g (n + 1)).descriptor.bodyLen ≤ g.arenaBytes :=
  have hlive := h.live (n + 1) (Nat.lt_succ_of_le hn) hn'
  Nat.le_trans hlive.describes.body_le hlive.describes.len_le

/-- The body of a live frame lies between its position and the next one. -/
theorem Wf.body_position (h : Wf g c r) {n i : Nat} (hn : c.completed ≤ n) (hn' : n < c.published)
    (hi : i < (c.slot g (n + 1)).descriptor.bodyLen) :
    c.position g n ≤ (c.slot g (n + 1)).descriptor.allocationStart + i ∧
      (c.slot g (n + 1)).descriptor.allocationStart + i < c.position g (n + 1) := by
  have hbody := (h.live (n + 1) (by omega) hn').describes.body_le
  rw [h.position_succ n hn hn', position_of_lt hn']
  omega

variable {res : Reservation} {os : Outcomes} {sys : System}

/-- A live frame and a reservation share no cell. -/
theorem Wf.reserved_cell_ne (h : Wf g c (some res)) {n i j : Nat} (hn : c.completed ≤ n)
    (hn' : n < c.published) (hi : i < (c.slot g (n + 1)).descriptor.bodyLen)
    (hj : j < res.plan.allocationLen) :
    (res.plan.allocationStart + j) % g.arenaBytes ≠
      ((c.slot g (n + 1)).descriptor.allocationStart + i) % g.arenaBytes := by
  have hres := h.reserved res rfl
  have hstart : res.plan.allocationStart = c.arenaWrite := by
    rw [hres.plan_eq]
    rfl
  have hfits := hres.fits
  have hreclaimed := h.reclaimed_le_position hn (Nat.le_of_lt hn')
  have hwrite := h.position_le_write (k := n + 1) (by omega) hn'
  obtain ⟨hlo, hhi⟩ := h.body_position hn hn' hi
  exact Circular.mod_ne c.arenaReclaimed (by omega) (by omega) (by omega) (by omega) (by omega)

/-- **Reclaiming leaves the frames behind the run alone.** -/
theorem Wf.live_not_removable (h : Wf g c r) {last n i : Nat} (hlast : c.completed ≤ last)
    (hn : last ≤ n) (hn' : n < c.published) (hi : i < (c.slot g (n + 1)).descriptor.bodyLen) :
    ¬ c.Removable g os (c.position g last)
      (((c.slot g (n + 1)).descriptor.allocationStart + i) % g.arenaBytes) := by
  obtain ⟨hlo, hhi⟩ := h.body_position (Nat.le_trans hlast hn) hn' hi
  have hmono := h.position_mono hlast hn (Nat.le_of_lt hn')
  have hwrite := h.position_le_write (k := n + 1) (by omega) hn'
  intro hremovable
  rcases hremovable.cells with ⟨x, hxlo, hxhi, hx⟩ | ⟨-, -, -, -, ⟨hall, -⟩, -⟩
  · have hlap := h.write_le
    exact Circular.mod_ne c.arenaReclaimed (by omega) (by omega) (by omega) (by omega) (by omega) hx
  · -- nothing in use lies behind the run
    omega

/-- Reclaiming leaves the reservation alone, but for the page at the reclaim cursor. -/
theorem Wf.reserved_not_removable (h : Wf g c (some res))
    {last j : Nat} (hlast : c.completed ≤ last) (hlast' : last ≤ c.published)
    (hj : j < res.plan.allocationLen) (hremovable : c.Removable g os (c.position g last)
      ((res.plan.allocationStart + j) % g.arenaBytes)) :
    c.Punched g os (c.position g last) ((res.plan.allocationStart + j) % g.arenaBytes) := by
  have hres := h.reserved res rfl
  have hstart : res.plan.allocationStart = c.arenaWrite := by
    rw [hres.plan_eq]
    rfl
  have hfits := hres.fits
  have hwrite := h.position_le_write hlast hlast'
  rcases hremovable.cells with ⟨x, hxlo, hxhi, hx⟩ | hpunched
  · exact absurd hx (Circular.mod_ne c.arenaReclaimed (by omega) (by omega) (by omega) (by omega)
      (by omega))
  · exact hpunched

/-! ## The invariant -/

/-- Frame `n` is waiting to be received, or leased. -/
def System.InUse (g : Grant) (sys : System) (n : Nat) : Prop :=
  sys.shared.completed ≤ n ∧ n < sys.shared.published ∧
    (sys.shared.consumed ≤ n ∨ (sys.shared.slot g (n + 1)).state = .receiverLeased ∨
      sys.shared.quarantined = true)

/-- **The invariant of delivery.** -/
structure System.Tracks (g : Grant) (sys : System) : Prop where
  wf : sys.Wf g
  commits_length : sys.commits.length = sys.shared.published
  received_length : sys.received.length = sys.shared.consumed
  received : ∀ (n : Nat) (f : Frame), sys.received[n]? = some f →
    ∃ f', sys.commits[n]? = some f' ∧ f.Same f'
  /-- A frame that is not received is in the arena as it was committed. -/
  waiting : ∀ n, sys.shared.consumed ≤ n → n < sys.shared.published →
    ∃ f, sys.commits[n]? = some f ∧
      Holds g (n + 1) (sys.shared.slot g (n + 1)).descriptor sys.shared.arena f
  /-- A leased frame is there as it was received. -/
  held : ∀ lease ∈ sys.leases, ∃ n, sys.InUse g n ∧ n < sys.shared.consumed ∧
    lease.lease = leaseOf g (n + 1) (sys.shared.slot g (n + 1)).descriptor ∧
    Holds g (n + 1) (sys.shared.slot g (n + 1)).descriptor sys.shared.arena lease.seen ∧
    sys.received[n]? = some lease.seen
  /-- And every byte the producer has stored is there. -/
  written : ∀ res i b, sys.reservation = some res → sys.written i = some b →
    i < res.plan.allocationLen ∧
      sys.shared.arena ((res.plan.allocationStart + i) % g.arenaBytes) = b

theorem System.Tracks.delivers (h : sys.Tracks g) : sys.Delivers where
  received := h.received
  held := by
    intro lease hlease
    obtain ⟨n, ⟨hn, hn', -⟩, -, heq, hholds, hseen⟩ := h.held lease hlease
    rw [heq]
    exact ⟨hholds.lease (Ring.Wf.bodyLen_le h.wf hn hn'), n, hseen⟩

theorem System.Tracks.fresh : System.fresh.Tracks g where
  wf := System.Wf.fresh
  commits_length := rfl
  received_length := rfl
  received := fun n f hf => by cases hf
  waiting := fun n _ hn => absurd hn (Nat.not_lt_zero n)
  held := fun lease hlease => by cases hlease
  written := fun res i b hres => by cases hres

/-- The body of frame `n` is what it was. -/
def System.SameBody (g : Grant) (sys sys' : System) (n : Nat) : Prop :=
  ∀ i, i < (sys.shared.slot g (n + 1)).descriptor.bodyLen →
    sys'.shared.arena (((sys.shared.slot g (n + 1)).descriptor.allocationStart + i) %
        g.arenaBytes) =
      sys.shared.arena (((sys.shared.slot g (n + 1)).descriptor.allocationStart + i) % g.arenaBytes)

/-- A lease stays where its frame does. -/
theorem System.Tracks.holds_on {sys sys' : System} (h : sys.Tracks g) {lease : Held}
    (hlease : lease ∈ sys.leases) (hpublished : sys.shared.published ≤ sys'.shared.published)
    (hconsumed : sys.shared.consumed ≤ sys'.shared.consumed)
    (hquarantined : sys.shared.quarantined = true → sys'.shared.quarantined = true)
    (hreceived : ∀ n, n < sys.shared.consumed → sys'.received[n]? = sys.received[n]?)
    (hkept : ∀ n, sys.InUse g n → n < sys.shared.consumed →
      lease.lease = leaseOf g (n + 1) (sys.shared.slot g (n + 1)).descriptor →
      sys'.shared.completed ≤ n ∧ (sys'.shared.slot g (n + 1) = sys.shared.slot g (n + 1) ∨
        (sys'.shared.slot g (n + 1)).descriptor = (sys.shared.slot g (n + 1)).descriptor ∧
          sys'.shared.quarantined = true) ∧ sys.SameBody g sys' n) :
    ∃ n, sys'.InUse g n ∧ n < sys'.shared.consumed ∧
      lease.lease = leaseOf g (n + 1) (sys'.shared.slot g (n + 1)).descriptor ∧
      Holds g (n + 1) (sys'.shared.slot g (n + 1)).descriptor sys'.shared.arena lease.seen ∧
      sys'.received[n]? = some lease.seen := by
  obtain ⟨n, huse, hn, heq, hholds, hseen⟩ := h.held lease hlease
  obtain ⟨hcompleted, hslot, harena⟩ := hkept n huse hn heq
  have hdescriptor : (sys'.shared.slot g (n + 1)).descriptor =
      (sys.shared.slot g (n + 1)).descriptor := hslot.elim (congrArg _) And.left
  refine ⟨n, ⟨hcompleted, huse.2.1.trans_le hpublished, .inr ?_⟩, hn.trans_le hconsumed, ?_, ?_,
    (hreceived n hn).trans hseen⟩
  · rcases hslot with hslot | ⟨-, hdead⟩
    · rw [hslot]
      exact (huse.2.2.resolve_left (Nat.not_le.mpr hn)).imp_right hquarantined
    · exact .inr hdead
  · rw [hdescriptor]
    exact heq
  · rw [hdescriptor]
    exact hholds.congr harena

/-- **The frame rule.**  A step that keeps the history, and the slots and bytes of the frames in
use, keeps the invariant. -/
theorem System.Tracks.frame {sys sys' : System} (h : sys.Tracks g) (hwf : sys'.Wf g)
    (hcommits : sys'.commits = sys.commits) (hreceived : sys'.received = sys.received)
    (hleases : sys'.leases = sys.leases)
    (hpublished : sys'.shared.published = sys.shared.published)
    (hconsumed : sys'.shared.consumed = sys.shared.consumed)
    (hquarantined : sys.shared.quarantined = true → sys'.shared.quarantined = true)
    (hkept : ∀ n, sys.InUse g n → sys'.shared.completed ≤ n ∧
      sys'.shared.slot g (n + 1) = sys.shared.slot g (n + 1) ∧ sys.SameBody g sys' n)
    (hwritten : ∀ res i b, sys'.reservation = some res → sys'.written i = some b →
      i < res.plan.allocationLen ∧
        sys'.shared.arena ((res.plan.allocationStart + i) % g.arenaBytes) = b) :
    sys'.Tracks g where
  wf := hwf
  commits_length := by rw [hcommits, hpublished, h.commits_length]
  received_length := by rw [hreceived, hconsumed, h.received_length]
  received := by
    rw [hreceived, hcommits]
    exact h.received
  waiting := by
    intro n hn hn'
    rw [hconsumed] at hn
    rw [hpublished] at hn'
    have hcompleted := Ring.Wf.completed_le h.wf
    obtain ⟨-, hslot, harena⟩ := hkept n ⟨by omega, hn', .inl hn⟩
    obtain ⟨f, hf, hholds⟩ := h.waiting n hn hn'
    rw [hcommits, hslot]
    exact ⟨f, hf, hholds.congr harena⟩
  held := by
    intro lease hlease
    rw [hleases] at hlease
    refine h.holds_on hlease hpublished.ge hconsumed.ge hquarantined (fun n _ => by rw [hreceived])
      fun n huse _ _ => ?_
    obtain ⟨hcompleted, hslot, harena⟩ := hkept n huse
    exact ⟨hcompleted, .inl hslot, harena⟩
  written := hwritten

/-! ## The steps of the producer -/

/-- Aborting gives back a slot that no live frame has. -/
theorem System.Tracks.abort (h : sys.Tracks g) (hres : sys.reservation = some res) :
    (sys.abort g res).Tracks g := by
  have hwf := h.wf.reserving hres
  have hclaim := hwf.reserved res rfl
  have hroom := hclaim.room
  refine h.frame (Ring.Wf.abort hwf) rfl rfl rfl rfl rfl id ?_ (fun res i b hnone => by cases hnone)
  rintro n ⟨hn, hn', -⟩
  refine ⟨hn, ?_, fun _ _ => rfl⟩
  change (sys.shared.toControl.setSlot g res.sequence _).slot g (n + 1) = _
  rw [hclaim.sequence_eq]
  exact hwf.slot_next hroom _ (by omega) (by omega) (by omega)

/-- Refilling: the control words stay, and what changes in the arena are cells of the
reservation. -/
theorem System.Tracks.refill (h : sys.Tracks g)
    (hres : sys.reservation = some res) (arena : Nat → UInt8) (written : Nat → Option UInt8)
    (cursor : Nat) (wireHeader : WireHeader) (harena : ∀ q, (∀ i, i < res.plan.allocationLen →
      (res.plan.allocationStart + i) % g.arenaBytes ≠ q) → arena q = sys.shared.arena q)
    (hwritten : ∀ i b, written i = some b → i < res.plan.allocationLen ∧
      arena ((res.plan.allocationStart + i) % g.arenaBytes) = b) : ({ sys with
      shared := { sys.shared with arena := arena }
      reservation := some { res with cursor := cursor, wireHeader := wireHeader }
      written := written } : System).Tracks g := by
  have hwf := h.wf.reserving hres
  refine h.frame (hwf.refill cursor wireHeader) rfl rfl rfl rfl rfl id ?_ ?_
  · rintro n ⟨hn, hn', -⟩
    refine ⟨hn, rfl, fun i hi => ?_⟩
    exact harena _ fun j hj => hwf.reserved_cell_ne hn hn' hi hj
  · intro res' i b hres' hb
    obtain rfl := Option.some.inj hres'
    exact hwritten i b hb

/-- What copying behind the cursor does: nothing, or it stores each byte at its own position. -/
theorem Wf.writeReservation {s : Shared} (h : Wf g s.toControl (some res)) (cursor : Nat)
    (bytes : List UInt8) :
    (∃ e, s.writeReservation g res.plan cursor bytes = (s, .error e)) ∨
      ∃ arena, cursor + bytes.length ≤ res.plan.allocationLen ∧
        s.writeReservation g res.plan cursor bytes = ({ s with arena := arena }, .ok ()) ∧
        (∀ q, (∀ j, j < bytes.length →
          (res.plan.allocationStart + cursor + j) % g.arenaBytes ≠ q) → arena q = s.arena q) ∧
        ∀ j, j < bytes.length →
          arena ((res.plan.allocationStart + cursor + j) % g.arenaBytes) = bytes.getD j 0 := by
  have hres := h.reserved res rfl
  have hstart : res.plan.allocationStart = s.arenaWrite := by
    rw [hres.plan_eq]
    rfl
  have hend := hres.end_lt
  have hlen := hres.len_le
  have hmin := g.arena_min
  rw [Shared.writeReservation]
  split
  · exact .inl ⟨_, rfl⟩
  rename_i stop hstop
  obtain ⟨rfl, -⟩ := checkedAdd_eq_some.mp hstop
  split
  · exact .inl ⟨_, rfl⟩
  obtain ⟨hok, hframe, hstored⟩ := copyChunks_spec res.plan.allocationStart g.arena_pos
    bytes.length cursor bytes s.arena (Nat.le_refl _) (by omega) (by omega)
  refine .inr ⟨_, by omega, ?_, hframe, hstored⟩
  rw [← hok]

theorem System.Tracks.write (h : sys.Tracks g) (hres : sys.reservation = some res)
    (bytes : List UInt8) : (sys.write g res bytes).Tracks g := by
  have hwf := h.wf.reserving hres
  rw [System.write]
  rcases hwf.writeReservation res.cursor bytes with ⟨e, heq⟩ | ⟨arena, hroom, heq, hframe, hstored⟩
  · rw [heq]
    exact h.abort hres
  rw [heq]
  refine h.refill hres arena _ (res.cursor + bytes.length) res.wireHeader ?_ ?_
  · intro q hq
    refine hframe q fun j hj => ?_
    rw [Nat.add_assoc]
    exact hq (res.cursor + j) (by omega)
  · intro i b hb
    split at hb
    · -- a byte that was stored now
      have hstore := hstored (i - res.cursor) (by omega)
      have hindex : res.plan.allocationStart + res.cursor + (i - res.cursor) =
          res.plan.allocationStart + i := by omega
      rw [hindex, List.getD_eq_getElem?_getD, hb] at hstore
      exact ⟨by omega, hstore⟩
    · obtain ⟨hi, hold⟩ := h.written res i b hres hb
      refine ⟨hi, ?_⟩
      rw [← hold]
      refine hframe _ fun j hj => ?_
      have hfits := (hwf.reserved res rfl).len_le
      have hmin := g.arena_min
      exact Circular.mod_ne res.plan.allocationStart (by omega) (by omega) (by omega) (by omega)
        (by omega)

theorem System.Tracks.poke (h : sys.Tracks g) (hres : sys.reservation = some res) (index : Nat)
    (byte : UInt8) : (sys.poke res index byte).Tracks g := by
  have hwf := h.wf.reserving hres
  have hclaim := hwf.reserved res rfl
  have hmin := g.arena_min
  have hlen := hclaim.len_le
  rw [System.poke]
  split
  swap
  · exact h
  rename_i hindex
  have hoffset : res.plan.segmentOffset index =
      (res.plan.allocationStart + index) % g.arenaBytes := by
    rw [hclaim.plan_eq]
    exact segmentOffset_ofRun g.arena_pos (by omega) hindex
  rw [hoffset]
  have hrefill := h.refill hres
    (Function.update sys.shared.arena ((res.plan.allocationStart + index) % g.arenaBytes) byte)
    (Function.update sys.written index (some byte)) res.cursor res.wireHeader
    (fun q hq => Function.update_of_ne (fun heq => hq index hindex heq.symm) _ _)
  rw [← hres] at hrefill
  refine hrefill fun i b hb => ?_
  rcases eq_or_ne i index with rfl | hne
  · rw [Function.update_self] at hb
    obtain rfl := Option.some.inj hb
    exact ⟨hindex, Function.update_self _ _ _⟩
  · rw [Function.update_of_ne hne] at hb
    obtain ⟨hi, hold⟩ := h.written res i b hres hb
    refine ⟨hi, ?_⟩
    rw [← hold]
    exact Function.update_of_ne (Circular.mod_ne res.plan.allocationStart (by omega) (by omega)
      (by omega) (by omega) (by omega)) _ _

/-- Changing only the cursor and the header. -/
theorem System.Tracks.move (h : sys.Tracks g) (hres : sys.reservation = some res) (cursor : Nat)
    (wireHeader : WireHeader) : ({ sys with
      reservation := some { res with cursor := cursor, wireHeader := wireHeader } } :
      System).Tracks g :=
  h.refill hres sys.shared.arena sys.written cursor wireHeader (fun _ _ => rfl)
    fun i b hb => h.written res i b hres hb

/-- Freeing slots leaves the rest of the lap alone. -/
theorem slot_freeSlots {first n k : Nat} (hfirst : 0 < first) (hk : first + n ≤ k)
    (hk' : k < first + g.descriptorDepth) : (c.freeSlots g first n).slot g k = c.slot g k := by
  induction n generalizing c first with
  | zero => rfl
  | succ n ih =>
    rw [Control.freeSlots]
    rcases Nat.lt_or_ge k (first + 1 + g.descriptorDepth) with hlap | hbeyond
    · rw [ih (Nat.succ_pos first) (by omega) hlap]
      exact slot_setSlot_of_ne (first - 1) (by omega) (by omega) (by omega) (by omega) (by omega)
    · omega

theorem freeSlots_cursors (first n : Nat) : (c.freeSlots g first n).published = c.published ∧
    (c.freeSlots g first n).consumed = c.consumed := by
  induction n generalizing c first with
  | zero => exact ⟨rfl, rfl⟩
  | succ n ih => exact ih (c := c.setSlot g first (c.slot g first).freed) (first + 1)

/-- Where a step that spares the reservation may clear cells. -/
theorem Wf.spared {s s' : Shared} (h : Wf g s.toControl (some res)) {last i : Nat}
    (hlast : s.completed ≤ last) (hlast' : last ≤ s.consumed)
    (hpending : ∀ k, s.completed < k → k ≤ last → (s.slot g k).state = .releasePending)
    (hclears : Clears (fun q => s.completed < last ∧
      s.toControl.Removable g os (s.position g last) q) s s') (hi : i < res.plan.allocationLen)
    (hspares : ¬ s.Punches g os ((res.plan.allocationStart + i) % g.arenaBytes)) :
    s'.arena ((res.plan.allocationStart + i) % g.arenaBytes) =
      s.arena ((res.plan.allocationStart + i) % g.arenaBytes) := by
  refine hclears.arena _ ?_
  rintro ⟨hlt, hremovable⟩
  have hconsumed := h.consumed_le
  have hpunched := h.reserved_not_removable hlast (by omega) hi hremovable
  exact hspares ⟨last, hlt, hlast', hpending, hpunched⟩

/-- **Reclaiming keeps the invariant**, when it spares the reservation. -/
theorem System.Tracks.reclaim (h : sys.Tracks g) (hquarantined : sys.shared.quarantined = false)
    (hspares : ∀ res i b, sys.reservation = some res → sys.written i = some b → b ≠ 0 →
      ¬ sys.shared.Punches g os ((res.plan.allocationStart + i) % g.arenaBytes)) :
    ({ sys with shared := (sys.shared.reclaimCompleted g os).1 } : System).Tracks g := by
  have hwf' := Ring.Wf.reclaimCompleted_fst h.wf os
  obtain ⟨last, s', hlast, hlast', hpending, hclears, hcases⟩ := Ring.Wf.reclaimCompleted h.wf os
  have hdepth := Ring.Wf.published_le h.wf
  -- frames in use lie behind the run
  have huse : ∀ n, sys.InUse g n → last ≤ n := by
    rintro n ⟨hn, -, hwait | hleased | hquarantined'⟩
    · omega
    · by_contra hlt
      have hstate := hpending (n + 1) (by omega) (by omega)
      rw [hleased] at hstate
      cases hstate
    · rw [hquarantined] at hquarantined'
      cases hquarantined'
  have harena : ∀ n, sys.InUse g n → sys.SameBody g { sys with shared := s' } n := by
    intro n hn i hi
    refine hclears.arena _ fun hremovable => ?_
    exact Ring.Wf.live_not_removable h.wf hlast (huse n hn) hn.2.1 hi hremovable.2
  have hwritten : ∀ res i b, sys.reservation = some res → sys.written i = some b →
      i < res.plan.allocationLen ∧
        s'.arena ((res.plan.allocationStart + i) % g.arenaBytes) = b := by
    intro res i b hres hb
    obtain ⟨hi, hstored⟩ := h.written res i b hres hb
    refine ⟨hi, ?_⟩
    rcases eq_or_ne b 0 with rfl | hb'
    · -- clearing a zero leaves a zero
      rcases hclears.zero ((res.plan.allocationStart + i) % g.arenaBytes) with heq | heq
      · exact heq.trans hstored
      · exact heq
    · have hwf := h.wf.reserving hres
      rw [hwf.spared hlast hlast' hpending hclears hi (hspares res i b hres hb hb')]
      exact hstored
  rcases hcases with ⟨e, heq⟩ | heq
  · rw [heq] at hwf' ⊢
    refine h.frame hwf' rfl rfl rfl ?_ ?_ ?_ ?_ hwritten
    · exact congrArg Control.published hclears.control
    · exact congrArg Control.consumed hclears.control
    · intro hq
      rw [hquarantined] at hq
      cases hq
    · intro n hn
      refine ⟨?_, ?_, harena n hn⟩
      · rw [hclears.control]
        exact hn.1
      · rw [hclears.control]
  · rw [heq] at hwf' ⊢
    obtain ⟨m, rfl⟩ := Nat.exists_eq_add_of_le hlast
    rw [Nat.add_sub_cancel_left] at hwf' ⊢
    obtain ⟨hpublished, hconsumed⟩ :=
      freeSlots_cursors (g := g) (c := sys.shared.toControl) (sys.shared.completed + 1) m
    refine h.frame hwf' rfl rfl rfl ?_ ?_ ?_ ?_ hwritten
    · exact hpublished
    · exact hconsumed
    · intro hq
      rw [hquarantined] at hq
      cases hq
    · intro n hn
      have hlast := huse n hn
      have hpub := hn.2.1
      refine ⟨hlast, ?_, harena n hn⟩
      exact slot_freeSlots (Nat.succ_pos _) (by omega) (by omega)

theorem System.Tracks.tryReserve (h : sys.Tracks g) (os : Outcomes) (bound : Nat)
    (wireHeader : WireHeader) (hspares : (Op.tryReserve os bound wireHeader).Spares g sys) :
    (sys.tryReserve g os bound wireHeader).Tracks g := by
  have hrefused : ∀ e, sys.shared.tryReserve g os bound wireHeader = (sys.shared, .error e) →
      (sys.tryReserve g os bound wireHeader).Tracks g := by
    intro e heq
    rw [System.tryReserve, heq]
    exact h
  rcases Nat.lt_or_ge maxFrameBytes bound with hbound | hbound
  · exact hrefused .boundExceedsSpans (by rw [Shared.tryReserve, if_pos hbound])
  rcases hquarantined : sys.shared.quarantined with _ | _
  swap
  · refine hrefused .quarantined ?_
    rw [Shared.tryReserve, if_neg (Nat.not_lt.mpr hbound), hquarantined]
    rfl
  rcases Ring.Wf.tryReserve h.wf os bound wireHeader with ⟨e, heq⟩ | ⟨s', result, hreclaim, hcases⟩
  · exact hrefused e heq
  have hreclaimed := h.reclaim hquarantined (hspares hbound hquarantined)
  rw [hreclaim] at hreclaimed
  rcases hcases with ⟨e, heq⟩ | ⟨plan, -, hroom, hlimit, hfree, hplan, heq⟩
  · rw [System.tryReserve, heq]
    exact hreclaimed
  · rw [System.tryReserve, heq]
    have hwf : Ring.Wf g s'.toControl sys.reservation := hreclaimed.wf
    refine hreclaimed.frame (hwf.reserve hroom hlimit hfree hplan) rfl rfl rfl rfl rfl id ?_
      (fun res i b _ hnone => by cases hnone)
    rintro n ⟨hn, hn', -⟩
    change s'.completed ≤ n at hn
    change n < s'.published at hn'
    refine ⟨hn, ?_, fun _ _ => rfl⟩
    exact hwf.slot_next hroom _ (by omega) (by omega) (by omega)

/-! ## The steps of the receiver -/

/-- **Receiving keeps the invariant**: the frame received is the next one committed. -/
theorem System.Tracks.tryReceive (h : sys.Tracks g) : (sys.tryReceive g).Tracks g := by
  rcases Ring.Wf.tryReceive h.wf with ⟨e, heq⟩ | heq | ⟨hnext, hroom, heq⟩
  · rw [System.tryReceive, heq]
    exact h
  · rw [System.tryReceive, heq]
    exact h
  rw [System.tryReceive, heq]
  have hcompleted := Ring.Wf.completed_le h.wf
  have hdepth := Ring.Wf.published_le h.wf
  have hbody := Ring.Wf.bodyLen_le h.wf hcompleted hnext
  obtain ⟨f, hf, hholds⟩ := h.waiting sys.shared.consumed (Nat.le_refl _) hnext
  have hlength := h.received_length
  generalize hc' : (sys.shared.toControl.setSlot g (sys.shared.consumed + 1)
      { sys.shared.slot g (sys.shared.consumed + 1) with
        state := .receiverLeased }).setConsumer (sys.shared.consumed + 1)
      (sys.shared.activeLeases + 1) = c'
  have hwf : Ring.Wf g c' sys.reservation := by
    rw [← hc']
    exact Ring.Wf.lease h.wf hnext hroom
  have hother : ∀ n, sys.shared.completed ≤ n → n < sys.shared.published →
      n ≠ sys.shared.consumed → c'.slot g (n + 1) = sys.shared.slot g (n + 1) := by
    intro n hn hn' hne
    rw [← hc']
    exact slot_setSlot_of_ne sys.shared.completed (by omega) (by omega) (by omega) (by omega)
      (by omega)
  have hself : c'.slot g (sys.shared.consumed + 1) =
      { sys.shared.slot g (sys.shared.consumed + 1) with state := .receiverLeased } := by
    rw [← hc']
    exact slot_setSlot_self _ _
  have hcompleted' : c'.completed = sys.shared.completed := by rw [← hc']; rfl
  have hpublished' : c'.published = sys.shared.published := by rw [← hc']; rfl
  have hconsumed' : c'.consumed = sys.shared.consumed + 1 := by rw [← hc']; rfl
  refine
    { wf := hwf
      commits_length := h.commits_length.trans hpublished'.symm
      received_length := ?_
      received := ?_
      waiting := ?_
      held := ?_
      written := h.written }
  · rw [List.length_append, hlength]
    exact hconsumed'.symm
  · intro n f' hf'
    rcases Nat.lt_or_ge n sys.received.length with hn | hn
    · rw [List.getElem?_append_left hn] at hf'
      exact h.received n f' hf'
    · -- the frame received now
      rw [List.getElem?_append_right hn] at hf'
      have hzero : n - sys.received.length = 0 := by
        by_contra hne
        rw [List.getElem?_eq_none (by simp; omega)] at hf'
        cases hf'
      have hindex : n = sys.shared.consumed := by omega
      rw [hzero] at hf'
      obtain rfl := Option.some.inj hf'
      rw [hindex]
      exact ⟨f, hf, hholds.lease hbody⟩
  · intro n hn hn'
    change c'.consumed ≤ n at hn
    change n < c'.published at hn'
    change ∃ f, sys.commits[n]? = some f ∧
      Holds g (n + 1) (c'.slot g (n + 1)).descriptor sys.shared.arena f
    rw [hother n (by omega) (by omega) (by omega)]
    exact h.waiting n (by omega) (by omega)
  · intro lease hlease
    rcases List.mem_append.mp hlease with hold | hnew
    · refine h.holds_on hold hpublished'.ge ((Nat.le_succ _).trans_eq hconsumed'.symm) id
        (fun n hn => List.getElem?_append_left (by omega)) fun n huse hlt _ => ?_
      exact ⟨hcompleted'.trans_le huse.1, .inl (hother n huse.1 huse.2.1 (by omega)),
        fun _ _ => rfl⟩
    · obtain rfl := List.mem_singleton.mp hnew
      refine ⟨sys.shared.consumed, ⟨?_, ?_, .inr (.inl ?_)⟩, ?_, ?_, ?_, ?_⟩
      · exact hcompleted'.trans_le hcompleted
      · exact hnext.trans_eq hpublished'.symm
      · change (c'.slot g (sys.shared.consumed + 1)).state = _
        rw [hself]
      · change sys.shared.consumed < c'.consumed
        omega
      · change leaseOf g _ _ = leaseOf g _ (c'.slot g (sys.shared.consumed + 1)).descriptor
        rw [hself]
      · change Holds g _ (c'.slot g (sys.shared.consumed + 1)).descriptor sys.shared.arena _
        rw [hself]
        exact ⟨rfl, rfl, rfl, fun i hi => (leaseOf_byte hbody hi).symm⟩
      · rw [List.getElem?_append_right (by omega), hlength, Nat.sub_self]
        rfl

/-- **Releasing keeps the invariant**: the other leases are of other frames. -/
theorem System.Tracks.release (h : sys.Tracks g) (os : Outcomes) (identity : ReleaseIdentity) :
    (sys.release g os identity).Tracks g := by
  rcases hquarantined : sys.shared.quarantined with _ | _
  swap
  · rw [System.release, Shared.release, if_pos hquarantined]
    exact h
  rcases hrelease : sys.shared.release g os identity with ⟨s', result⟩
  rcases Ring.Wf.releaseLease h.wf os identity hrelease with ⟨rfl, hfailed⟩ |
    ⟨hcompleted, hconsumed, hidentity, hleased, harena, hcontrol, hresult⟩
  · rw [System.release, hrelease]
    rcases result with e | ⟨⟩
    · exact h
    · exact absurd rfl hfailed
  have hwf : Ring.Wf g s'.toControl sys.reservation := by
    rw [hcontrol]
    exact Ring.Wf.release h.wf hcompleted hconsumed hleased
  have hpublished := Ring.Wf.consumed_le h.wf
  have hdepth := Ring.Wf.published_le h.wf
  have hother : ∀ n, sys.shared.completed ≤ n → n < sys.shared.published →
      n + 1 ≠ identity.sequence → s'.slot g (n + 1) = sys.shared.slot g (n + 1) := by
    intro n hn hn' hne
    rw [hcontrol]
    exact slot_setSlot_of_ne sys.shared.completed hcompleted (by omega) (by omega) (by omega) hne
  have hself : s'.slot g identity.sequence = { sys.shared.slot g identity.sequence with
      state := .releasePending, completionSequence := identity.sequence } := by
    rw [hcontrol]
    exact slot_setSlot_self _ _
  have hdescriptor : ∀ n, sys.shared.completed ≤ n → n < sys.shared.published →
      (s'.slot g (n + 1)).descriptor = (sys.shared.slot g (n + 1)).descriptor := by
    intro n hn hn'
    rcases eq_or_ne (n + 1) identity.sequence with heq | hne
    · rw [heq, hself]
    · rw [hother n hn hn' hne]
  have hcompleted' : s'.completed = sys.shared.completed := by rw [hcontrol]; rfl
  have hpublished' : s'.published = sys.shared.published := by rw [hcontrol]; rfl
  have hconsumed' : s'.consumed = sys.shared.consumed := by rw [hcontrol]; rfl
  -- what both endings share: the leases that stay are in use
  have hstays : ∀ leases : List Held, (∀ lease ∈ leases, lease ∈ sys.leases) →
      (∀ lease ∈ leases, lease.lease.identity ≠ identity ∨ s'.quarantined = true) →
      ({ sys with shared := s', leases := leases } : System).Tracks g := by
    intro leases hsub hne
    refine
      { wf := hwf
        commits_length := h.commits_length.trans hpublished'.symm
        received_length := h.received_length.trans hconsumed'.symm
        received := h.received
        waiting := ?_
        held := ?_
        written := ?_ }
    · intro n hn hn'
      change s'.consumed ≤ n at hn
      change n < s'.published at hn'
      rw [hdescriptor n (by omega) (by omega), harena]
      exact h.waiting n (by omega) (by omega)
    · intro lease hlease
      refine h.holds_on (hsub lease hlease) hpublished'.ge hconsumed'.ge
        (fun hdead => by cases hquarantined.symm.trans hdead) (fun _ _ => rfl)
        fun n huse _ heq => ⟨hcompleted'.trans_le huse.1, ?_, fun _ _ => by rw [harena]⟩
      refine (hne lease hlease).imp
        (fun hdiffers => hother n huse.1 huse.2.1 fun hsame => hdiffers ?_)
        fun hdead => ⟨hdescriptor n huse.1 huse.2.1, hdead⟩
      rw [heq, hidentity, ← hsame]
      rfl
    · intro res i b hres hb
      rw [harena]
      exact h.written res i b hres hb
  rw [System.release, hrelease]
  rcases result with e | ⟨⟩
  · rcases hresult with hok | hdead
    · cases hok
    · exact hstays sys.leases (fun _ => id) fun _ _ => .inr hdead
  · refine hstays _ (fun lease hlease => (List.mem_filter.mp hlease).1) fun lease hlease => ?_
    exact .inl (of_decide_eq_true (List.mem_filter.mp hlease).2)

/-! ## Stopped rings -/

/-- A ring in quarantine without a reservation: the history has come to its end. -/
structure System.Stopped (sys : System) : Prop where
  quarantined : sys.shared.quarantined = true
  reservation : sys.reservation = none
  delivers : sys.Delivers

/-- A stopped ring stays as it is. -/
theorem System.Stopped.step (h : sys.Stopped) (op : Op) : (sys.step g op).Stopped := by
  cases op with
  | tryReserve os bound wireHeader =>
    rw [System.step, System.tryReserve, Shared.tryReserve]
    split
    · rename_i shared e hreserve
      split at hreserve
      · obtain ⟨rfl, -⟩ := Prod.mk.inj hreserve
        exact h
      · rw [if_pos h.quarantined] at hreserve
        obtain ⟨rfl, -⟩ := Prod.mk.inj hreserve
        exact h
    · rename_i shared res hreserve
      split at hreserve
      · cases (Prod.mk.inj hreserve).2
      · rw [if_pos h.quarantined] at hreserve
        cases (Prod.mk.inj hreserve).2
  | write bytes | poke index byte | advance bytes | setWireHeader wireHeader | commit os bodyLen
  | abort => rw [System.step, h.reservation]; exact h
  | tryReceive =>
    rw [System.step, System.tryReceive, Shared.tryReceive, if_pos h.quarantined]
    exact h
  | release os identity =>
    rw [System.step, System.release, Shared.release, if_pos h.quarantined]
    exact h
  | park dataParked capacityParked =>
    exact ⟨h.quarantined, h.reservation, h.delivers.received, h.delivers.held⟩

/-- A ring that works, or has stopped. -/
def System.Sound (g : Grant) (sys : System) : Prop := sys.Tracks g ∨ sys.Stopped

/-- **Committing** appends the frame that was put together; a commit whose doorbell fails stops the
ring. -/
theorem System.Tracks.commit (h : sys.Tracks g) (hres : sys.reservation = some res)
    (os : Outcomes) (bodyLen : Nat) : (sys.commit g os res bodyLen).Sound g := by
  have hwf := h.wf.reserving hres
  have habort := h.abort hres
  rw [System.commit]
  split
  · exact .inl habort
  rename_i hlen
  split
  · exact .inl habort
  rcases hwf.commitReservation os bodyLen (Nat.not_lt.mp hlen) with ⟨e, heq⟩ |
    ⟨d, s', hd, hstart, hdlen, hbody, hheader, harena, hcontrol,
      ⟨hquarantined, heq⟩ | ⟨-, hdead, e, heq⟩⟩
  · rw [heq]
    exact .inl habort
  · rw [heq]
    have hclaim := hwf.reserved res rfl
    have hroom := hclaim.room
    have hcompleted := hwf.completed_le
    have hother : ∀ n, sys.shared.completed ≤ n → n < sys.shared.published →
        s'.slot g (n + 1) = sys.shared.slot g (n + 1) := by
      intro n hn hn'
      rw [hcontrol]
      exact hwf.slot_next hroom _ (by omega) (by omega) (by omega)
    have hself : (s'.slot g (sys.shared.published + 1)).descriptor = d := by
      rw [hcontrol]
      exact congrArg Slot.descriptor (slot_setSlot_self _ _)
    have hcompleted' : s'.completed = sys.shared.completed := by rw [hcontrol]; rfl
    have hpublished' : s'.published = sys.shared.published + 1 := by rw [hcontrol]; rfl
    have hconsumed' : s'.consumed = sys.shared.consumed := by rw [hcontrol]; rfl
    have hlength := h.commits_length
    refine .inl
      { wf := ?_
        commits_length := ?_
        received_length := h.received_length.trans hconsumed'.symm
        received := ?_
        waiting := ?_
        held := ?_
        written := fun _ _ _ hnone => by cases hnone }
    · change Ring.Wf g s'.toControl none
      rw [hcontrol]
      exact hwf.publish hd hstart hdlen
    · rw [List.length_append, hlength]
      exact hpublished'.symm
    · intro n f hf
      obtain ⟨f', hf', hsame⟩ := h.received n f hf
      have hn : n < sys.commits.length := (List.getElem?_eq_some_iff.mp hf').1
      exact ⟨f', (List.getElem?_append_left hn).trans hf', hsame⟩
    · intro n hn hn'
      change s'.consumed ≤ n at hn
      change n < s'.published at hn'
      rcases Nat.lt_or_ge n sys.shared.published with hold | hnew
      · obtain ⟨f, hf, hholds⟩ := h.waiting n (by omega) hold
        rw [List.getElem?_append_left (by omega), hother n (by omega) hold, harena]
        exact ⟨f, hf, hholds⟩
      · -- the frame committed now
        obtain rfl : n = sys.shared.published := by omega
        rw [List.getElem?_append_right (by omega), hlength, Nat.sub_self, hself, harena]
        refine ⟨_, rfl, hheader, hclaim.sequence_eq.symm, hbody, fun i hi => ?_⟩
        change _ = (sys.written i).getD _
        have hplan : res.plan.allocationStart = d.allocationStart := by
          rw [hclaim.plan_eq, hstart]
          rfl
        rw [hplan]
        rcases hb : sys.written i with _ | b
        · rfl
        · obtain ⟨-, hstored⟩ := h.written res i b hres hb
          rw [hplan] at hstored
          exact hstored
    · intro lease hlease
      refine h.holds_on hlease ((Nat.le_succ _).trans_eq hpublished'.symm) hconsumed'.ge
        hquarantined.trans (fun _ _ => rfl) fun n huse _ _ => ?_
      exact ⟨hcompleted'.trans_le huse.1, .inl (hother n huse.1 huse.2.1),
        fun _ _ => by rw [harena]⟩
  · rw [heq]
    refine .inr ⟨hdead, rfl, h.delivers.received, ?_⟩
    intro lease hlease
    have hheld := h.delivers.held lease hlease
    rw [← harena] at hheld
    exact hheld

/-! ## Every run of sparing steps -/

/-- **One step.** -/
theorem System.Sound.step (h : sys.Sound g) (op : Op) (hspares : op.Spares g sys) :
    (sys.step g op).Sound g := by
  rcases h with h | hstopped
  swap
  · exact .inr (hstopped.step op)
  cases op with
  | tryReserve os bound wireHeader => exact .inl (h.tryReserve os bound wireHeader hspares)
  | tryReceive => exact .inl h.tryReceive
  | release os identity => exact .inl (h.release os identity)
  | park dataParked capacityParked =>
    exact .inl (h.frame h.wf rfl rfl rfl rfl rfl id (fun n hn => ⟨hn.1, rfl, fun _ _ => rfl⟩)
      h.written)
  | write bytes =>
    rcases hres : sys.reservation with _ | res
    · rw [System.step, hres]
      exact .inl h
    · rw [System.step, hres]
      exact .inl (h.write hres bytes)
  | poke index byte =>
    rcases hres : sys.reservation with _ | res
    · rw [System.step, hres]
      exact .inl h
    · rw [System.step, hres]
      exact .inl (h.poke hres index byte)
  | advance bytes =>
    rcases hres : sys.reservation with _ | res
    · rw [System.step, hres]
      exact .inl h
    rw [System.step, hres]
    change (sys.advance g res bytes).Sound g
    rw [System.advance]
    split
    · exact .inl (h.abort hres)
    split
    · exact .inl (h.abort hres)
    · exact .inl (h.move hres _ res.wireHeader)
  | setWireHeader wireHeader =>
    rcases hres : sys.reservation with _ | res
    · rw [System.step, hres]
      exact .inl h
    · rw [System.step, hres]
      exact .inl (h.move hres res.cursor wireHeader)
  | commit os bodyLen =>
    rcases hres : sys.reservation with _ | res
    · rw [System.step, hres]
      exact .inl h
    · rw [System.step, hres]
      exact h.commit hres os bodyLen
  | abort =>
    rcases hres : sys.reservation with _ | res
    · rw [System.step, hres]
      exact .inl h
    · rw [System.step, hres]
      exact .inl (h.abort hres)

/-- **Every state of a run.** -/
theorem System.Sound.run (h : sys.Sound g) (ops : List Op) (hspares : sys.SparingRun g ops)
    (n : Nat) : (sys.run g (ops.take n)).Sound g := by
  induction ops generalizing sys n with
  | nil =>
    rw [List.take_nil]
    exact h
  | cons op rest ih =>
    obtain ⟨hop, hrest⟩ := hspares
    rcases n with _ | n
    · exact h
    · exact ih (h.step op hop) hrest n

/-- **Delivery.**  In every run whose steps spare the bytes of the outstanding reservation, and in
every state of it, the frames received are the frames committed, in order, and every lease still
shows the frame that was received. -/
theorem run_delivers (g : Grant) (ops : List Op) (hspares : System.fresh.SparingRun g ops)
    (n : Nat) : (System.fresh.run g (ops.take n)).Delivers := by
  have hfresh : System.fresh.Sound g := .inl System.Tracks.fresh
  rcases hfresh.run ops hspares n with h | h
  · exact h.delivers
  · exact h.delivers

/-- While the second frame is being written the first is released, and another attempt to reserve
reclaims it. -/
def twoFrames : List Op :=
  [.tryReserve willing 1 oneByteHeader, .write [7], .commit willing 1, .tryReceive,
    .tryReserve willing 1 oneByteHeader, .write [8], .release willing (smallGrant.identity 1),
    .tryReserve willing 1 oneByteHeader, .commit willing 1, .tryReceive]

theorem run_delivers_round_trip :
    (System.fresh.run smallGrant (twoFrames.take 10)).Delivers ∧
      (System.fresh.run smallGrant twoFrames).received.length = 2 := by
  refine ⟨run_delivers smallGrant _ ?_ 10, by decide +kernel⟩
  refine ⟨fun _ _ res i b hres => (by cases hres), trivial, trivial, trivial,
    fun _ _ res i b hres => ?_, trivial, trivial, fun _ _ res i b _ _ _ hpunches => ?_, trivial,
    trivial, trivial⟩
  · have hnone : (System.fresh.run smallGrant (twoFrames.take 4)).reservation.isNone := by
      decide +kernel
    rw [Option.isNone_iff_eq_none] at hnone
    cases hnone.symm.trans hres
  · -- the frame ends inside its page
    obtain ⟨last, hlo, hhi, -, -, -, -, -, ⟨-, -, hpage⟩, -⟩ := hpunches
    have hends : ∀ k ≤ 1, (System.fresh.run smallGrant (twoFrames.take 7)).shared.completed < k →
        (System.fresh.run smallGrant (twoFrames.take 7)).shared.toControl.position smallGrant k %
          smallGrant.pageSize ≠ 0 := by
      decide +kernel
    exact hends last hhi hlo hpage

/-! ## A run that is not sparing -/

/-- A header that declares `len` bytes. -/
def headerOf (len : Nat) : WireHeader :=
  #v[UInt8.ofNat len, UInt8.ofNat (len / 256), UInt8.ofNat (len / 65536),
    UInt8.ofNat (len / 16777216), 2, 0, 0, 0, 0, 0, 0, 0, 0, 0, 0, 0, 0, 0, 0, 0, 0]

/-- The reclaim cursor stops inside the first page, the next frame ends on its boundary, and the
third one fills the rest of the arena up to the front of that page.  Then a second attempt to
reserve reclaims the second frame. -/
def lostWrite : List Op :=
  [.tryReserve willing 100 (headerOf 100), .advance 100, .commit willing 100, .tryReceive,
    .release willing (smallGrant.identity 1),
    .tryReserve willing 3996 (headerOf 3996), .advance 3996, .commit willing 3996, .tryReceive,
    .tryReserve willing 67104868 (headerOf 67104868), .poke 67104867 7, .advance 67104868,
    .release willing (smallGrant.identity 2),
    .tryReserve willing 1 oneByteHeader,
    .commit willing 67104868, .tryReceive]

theorem lost_write : ¬ (System.fresh.run smallGrant lostWrite).Delivers := by
  intro h
  have hreceived : ((System.fresh.run smallGrant lostWrite).received[2]?.map
      fun f => (f.bodyLen, f.body 67104867)) = some (67104868, 0) := by
    decide +kernel
  have hcommitted : ((System.fresh.run smallGrant lostWrite).commits[2]?.map
      fun f => f.body 67104867) = some 7 := by
    decide +kernel
  obtain ⟨f, hf, hshown⟩ := Option.map_eq_some_iff.mp hreceived
  obtain ⟨f', hf', -, -, -, hbody⟩ := h.received 2 f hf
  obtain ⟨hlen, hzero⟩ := Prod.mk.inj hshown
  rw [hf'] at hcommitted
  have hseven : f'.body 67104867 = 7 := Option.some.inj hcommitted
  have hsame := hbody 67104867 (by omega)
  rw [hzero, hseven] at hsame
  cases hsame

end MagicContext.Ring
