import Mathlib.Data.Fintype.Basic
import Mathlib.Data.Finset.Card

/-!
# The registry of routes

Channels belong to the whole process: whoever holds one may be a route of any connection.  The
registry has one lock, and every operation here is what one call does while it holds it, from the
registry before to the registry after.  The generations' membership maps change under the same
lock, and stand beside the slots.

## What is here

* `Occupant`, `Slot`, `Registry` — a channel is free or has one occupant, and remembers the highest
  epoch that it was given out under.
* `reserve`, `installBound`, `takeRejectedBind`, `beginCloseFor`, `finalizeClose`,
  `registerDispatch`, `routesOfGeneration`, `markGoneStarted`, `forceDrain` — the operations.
* `Registry.occupantAt` — the occupant that a handle names.
* `Registry.Sound` — the count of live routes, the epochs and the membership maps.
-/

namespace MagicContext.Host

/-! ## The state -/

/-- A `u16`; adding wraps around. -/
abbrev Channel : Type := Fin 65536

instance channelNeZero : @NeZero Nat Zero.ofOfNat0 65536 := ⟨by decide⟩

/-- Every channel.  The list is long, and no proof looks into it. -/
@[irreducible] def channels : List Channel := List.finRange 65536

/-- `u32::MAX`. -/
def maxEpoch : Nat := 4294967295

structure RouteHandle where
  channel : Channel
  epoch : Nat
  deriving DecidableEq

inductive RouteClass where
  | general | reserved

inductive OccState where
  /-- The bind callback is in flight; the bind task owns the cleanup. -/
  | binding (closeRequested : Bool)
  | live
  /-- Somebody settles the work; nobody else may free or reuse. -/
  | closing
  deriving DecidableEq

structure Occupant where
  epoch : Nat
  /-- The generation that owns the route. -/
  gen : Nat
  state : OccState
  class_ : RouteClass
  /-- The dispatch tasks that were registered. -/
  aborts : List Nat := []
  cancelled : Bool := false
  goneStarted : Bool := false

structure Slot where
  /-- The highest epoch used on the channel. -/
  lastEpoch : Nat := 0
  occupant : Option Occupant := none

structure Registry where
  maxRoutes : Nat
  slots : Channel → Slot := fun _ => {}
  live : Nat := 0
  cursor : Channel := 1
  accepting : Bool := true
  /-- The epochs under which a generation looks its routes up. -/
  membership : Nat → Channel → Option Nat := fun _ _ => none

namespace Registry

def occupant (r : Registry) (channel : Channel) : Option Occupant := (r.slots channel).occupant

def lastEpoch (r : Registry) (channel : Channel) : Nat := (r.slots channel).lastEpoch

variable (r : Registry)

/-- The occupant that a handle names. -/
def occupantAt (handle : RouteHandle) : Option Occupant :=
  (r.occupant handle.channel).filter fun o => o.epoch == handle.epoch

/-- The channels that have an occupant. -/
def occupied : Finset Channel :=
  Finset.univ.filter fun channel => (r.occupant channel).isSome

def setOccupant (channel : Channel) (o : Option Occupant) : Registry :=
  { r with slots := Function.update r.slots channel { r.slots channel with occupant := o } }

def setMembership (gen : Nat) (channel : Channel) (epoch : Option Nat) : Registry :=
  { r with
    membership := Function.update r.membership gen
      (Function.update (r.membership gen) channel epoch) }

/-! ## The operations -/

/-- The scan for a free channel: it starts at the cursor and stops when it is back there. -/
def scan (free : Channel → Bool) (start : Channel) : Nat → Channel → Option Channel
  | 0, _ => none
  | fuel + 1, candidate =>
    if candidate ≠ 0 ∧ free candidate then some candidate
    else if candidate + 1 = start then none
    else scan free start fuel (candidate + 1)

/-- A channel can be given out. -/
def available (channel : Channel) : Bool :=
  (r.occupant channel).isNone && decide (r.lastEpoch channel < maxEpoch)

/-- A channel is given out under its next epoch. -/
def admitted (gen : Nat) (class_ : RouteClass) (channel : Channel) (r : Registry) : Registry :=
  let epoch := r.lastEpoch channel + 1
  { r with
    slots := Function.update r.slots channel
      ⟨epoch, some { epoch, gen, state := .binding false, class_ }⟩
    live := r.live + 1
    cursor := channel + 1 }

/-- `retired` tells whether the token of the generation is cancelled. -/
def reserve (gen : Nat) (retired : Bool) (class_ : RouteClass) (r : Registry) :
    Option (RouteHandle × Registry) :=
  if !r.accepting || retired || decide (r.maxRoutes ≤ r.live) then none
  else
    (scan r.available r.cursor 65536 r.cursor).map fun channel =>
      (⟨channel, r.lastEpoch channel + 1⟩, r.admitted gen class_ channel)

inductive BindInstall where
  | installed
  | closeWins

variable (handle : RouteHandle)

/-- `none` is a panic: the route is not there, or its bind has been completed before. -/
def installBound (r : Registry) : Option (BindInstall × Registry) :=
  match r.occupantAt handle with
  | none => none
  | some o =>
    match o.state with
    | .binding false =>
      some (.installed,
        (r.setOccupant handle.channel (some { o with state := .live })).setMembership o.gen
          handle.channel (some handle.epoch))
    | .binding true =>
      some (.closeWins, r.setOccupant handle.channel (some { o with state := .closing }))
    | .live => none
    | .closing => none

def takeRejectedBind (r : Registry) : Registry :=
  match r.occupantAt handle with
  | none => r
  | some o => r.setOccupant handle.channel (some { o with cancelled := true, state := .closing })

def freezeAdmission : Registry := { r with accepting := false }

/-- Who cleans up after a close request. -/
inductive CloseDecision where
  /-- The caller. -/
  | owner (gen : Nat) (aborts : List Nat)
  | deferredToBind
  | alreadyGone

/-- A close, on behalf of a generation if `owner` names one. -/
def beginCloseFor (owner : Option Nat) (r : Registry) : CloseDecision × Registry :=
  match r.occupantAt handle with
  | none => (.alreadyGone, r)
  | some o =>
    if owner.any fun gen => o.gen ≠ gen then (.alreadyGone, r)
    else
      match o.state with
      | .binding _ =>
        (.deferredToBind, r.setOccupant handle.channel
          (some { o with cancelled := true, state := .binding true }))
      | .live =>
        (.owner o.gen o.aborts,
          (r.setOccupant handle.channel
            (some { o with state := .closing, cancelled := true, aborts := [] })).setMembership
            o.gen handle.channel none)
      | .closing => (.alreadyGone, r)

def freed (channel : Channel) (r : Registry) : Registry :=
  { r.setOccupant channel none with live := r.live - 1 }

def finalizeClose (r : Registry) : Registry :=
  match r.occupantAt handle with
  | none => r
  | some _ => r.freed handle.channel

/-- The registration of a dispatch task; `finished` tells which tasks have ended. -/
def registerDispatch (gen : Nat) (task : Nat) (finished : Nat → Bool)
    (r : Registry) : Option Registry :=
  if !r.accepting then none
  else
    match r.occupantAt handle with
    | none => none
    | some o =>
      if o.gen ≠ gen ∨ o.state ≠ .live then none
      else
        some (r.setOccupant handle.channel
          (some { o with aborts := o.aborts.filter (fun t => !finished t) ++ [task] }))

/-- What a dispatch finds before it takes permits. -/
def routeTracker (gen : Nat) (r : Registry) : Option RouteClass :=
  match r.occupantAt handle with
  | none => none
  | some o => if o.gen = gen ∧ o.state = .live then some o.class_ else none

/-- The routes of a generation, whatever their state. -/
def routesOfGeneration (gen : Nat) (r : Registry) : List RouteHandle :=
  channels.filterMap fun channel =>
    ((r.occupant channel).filter fun o => o.gen == gen).map fun o => ⟨channel, o.epoch⟩

/-- Whether the caller has to run the route-gone callback. -/
def markGoneStarted (r : Registry) : Bool × Registry :=
  match r.occupantAt handle with
  | none => (false, r)
  | some o =>
    if o.goneStarted then (false, r)
    else (true, r.setOccupant handle.channel (some { o with goneStarted := true }))

/-- What forced shutdown does to an occupant. -/
def drainOccupant (o : Occupant) : Occupant :=
  if o.goneStarted then o
  else
    match o.state with
    | .binding _ => { o with cancelled := true, state := .binding true }
    | _ => { o with state := .closing, cancelled := true, aborts := [] }

/-- Forced shutdown claims this occupant. -/
def drained (o : Occupant) : Bool :=
  !o.goneStarted && (match o.state with
    | .binding _ => false
    | _ => true)

/-- The routes that forced shutdown claims on channels, with their tasks. -/
def claims (among : List Channel) : List (RouteHandle × List Nat) :=
  among.filterMap fun channel =>
    ((r.occupant channel).filter drained).map fun o => (⟨channel, o.epoch⟩, o.aborts)

/-- All the routes that forced shutdown claims, and the registry after. -/
def forceDrain : List (RouteHandle × List Nat) × Registry :=
  (r.claims channels,
    { r with
      slots := fun channel =>
        { r.slots channel with occupant := (r.occupant channel).map drainOccupant }
      membership := fun gen channel =>
        if (r.occupant channel).any fun o => drained o && o.gen == gen then none
        else r.membership gen channel })

/-! ## Occupants -/

variable {r : Registry} {channel : Channel} {handle : RouteHandle} {o o' : Occupant}

theorem occupantAt_eq_some :
    r.occupantAt handle = some o ↔ r.occupant handle.channel = some o ∧ o.epoch = handle.epoch := by
  simp [occupantAt, Option.filter_eq_some_iff]

@[simp] theorem occupant_setOccupant (new : Option Occupant) (d : Channel) :
    (r.setOccupant channel new).occupant d = if d = channel then new else r.occupant d := by
  by_cases h : d = channel
  · subst h
    simp [occupant, setOccupant]
  · simp [occupant, setOccupant, h]

@[simp] theorem lastEpoch_setOccupant (new : Option Occupant) (d : Channel) :
    (r.setOccupant channel new).lastEpoch d = r.lastEpoch d := by
  by_cases h : d = channel
  · subst h
    simp [lastEpoch, setOccupant]
  · simp [lastEpoch, setOccupant, Function.update_of_ne h]

@[simp] theorem membership_setOccupant (new : Option Occupant) :
    (r.setOccupant channel new).membership = r.membership := rfl

@[simp] theorem occupant_setMembership (gen : Nat) (epoch : Option Nat) (d : Channel) :
    (r.setMembership gen channel epoch).occupant d = r.occupant d := rfl

@[simp] theorem lastEpoch_setMembership (gen : Nat) (epoch : Option Nat) (d : Channel) :
    (r.setMembership gen channel epoch).lastEpoch d = r.lastEpoch d := rfl

theorem membership_setMembership (gen g : Nat) (epoch : Option Nat) (d : Channel) :
    (r.setMembership gen channel epoch).membership g d =
      if g = gen ∧ d = channel then epoch else r.membership g d := by
  by_cases hg : g = gen
  · subst hg
    by_cases hd : d = channel
    · subst hd
      simp [setMembership]
    · simp [setMembership, hd]
  · simp [setMembership, hg]

/-- A handle that is not the one of the occupant names the same as before. -/
theorem occupantAt_of_ne {r' : Registry} {g : RouteHandle} (hne : g ≠ handle)
    (ho : r.occupantAt handle = some o) (hnew : ∀ p, r'.occupant handle.channel = some p →
      p.epoch = handle.epoch)
    (hother : ∀ d, d ≠ handle.channel → r'.occupant d = r.occupant d) :
    r'.occupantAt g = r.occupantAt g := by
  by_cases hchannel : g.channel = handle.channel
  · have hepoch : g.epoch ≠ handle.epoch := fun h => hne (by
      cases g
      cases handle
      exact congrArg₂ RouteHandle.mk hchannel h)
    have hbefore : r.occupantAt g = none := by
      rw [Option.eq_none_iff_forall_not_mem]
      intro p hp
      obtain ⟨hat, heq⟩ := occupantAt_eq_some.mp hp
      rw [hchannel, (occupantAt_eq_some.mp ho).1] at hat
      cases hat
      exact hepoch (heq.symm.trans (occupantAt_eq_some.mp ho).2)
    have hafter : r'.occupantAt g = none := by
      rw [Option.eq_none_iff_forall_not_mem]
      intro p hp
      obtain ⟨hat, heq⟩ := occupantAt_eq_some.mp hp
      rw [hchannel] at hat
      exact hepoch (heq.symm.trans (hnew p hat))
    rw [hbefore, hafter]
  · rw [occupantAt, occupantAt, hother _ hchannel]

theorem occupantAt_replace (new : Occupant) (ho : r.occupantAt handle = some o)
    (hepoch : new.epoch = o.epoch) (g : RouteHandle) :
    (r.setOccupant handle.channel (some new)).occupantAt g =
      if g = handle then some new else r.occupantAt g := by
  have hnew := hepoch.trans (occupantAt_eq_some.mp ho).2
  by_cases h : g = handle
  · rw [if_pos h, h, occupantAt_eq_some]
    exact ⟨by simp, hnew⟩
  · rw [if_neg h]
    refine occupantAt_of_ne h ho (fun p hp => ?_) fun d hd => by simp [hd]
    rw [occupant_setOccupant, if_pos rfl] at hp
    cases hp
    exact hnew

@[simp] theorem occupantAt_setMembership (gen : Nat) (epoch : Option Nat) (g : RouteHandle) :
    (r.setMembership gen channel epoch).occupantAt g = r.occupantAt g := rfl

theorem scan_free {free : Channel → Bool} {start : Channel} {fuel : Nat} {candidate : Channel}
    (h : scan free start fuel candidate = some channel) : free channel = true := by
  induction fuel generalizing candidate with
  | zero => cases h
  | succ fuel ih =>
    rw [scan] at h
    by_cases hfree : candidate ≠ 0 ∧ free candidate = true
    · rw [if_pos hfree] at h
      cases h
      exact hfree.2
    · rw [if_neg hfree] at h
      by_cases hstart : candidate + 1 = start
      · rw [if_pos hstart] at h
        cases h
      · rw [if_neg hstart] at h
        exact ih h

/-! ## What every registry keeps -/

structure Sound (r : Registry) : Prop where
  live : r.live = r.occupied.card
  bounded : r.live ≤ r.maxRoutes
  epoch : ∀ channel o, r.occupant channel = some o → o.epoch = r.lastEpoch channel
  membership : ∀ gen channel epoch, r.membership gen channel = some epoch ↔
    ∃ o, r.occupant channel = some o ∧ o.gen = gen ∧ o.epoch = epoch ∧ o.state = .live

theorem sound_fresh (maxRoutes : Nat) : Sound { maxRoutes } where
  live := by simp [occupied, occupant]
  bounded := Nat.zero_le _
  epoch := nofun
  membership := by
    intro gen channel epoch
    simp [occupant]

theorem occupied_replace (ho : r.occupant channel = some o) :
    (r.setOccupant channel (some o')).occupied = r.occupied := by
  ext d
  by_cases h : d = channel
  · subst h
    simp [occupied, ho]
  · simp [occupied, h]

/-- An occupant changes, and stays live or not live. -/
theorem Sound.replace (h : r.Sound) (ho : r.occupant channel = some o)
    (hepoch : o'.epoch = o.epoch) (hgen : o'.gen = o.gen)
    (hlive : o'.state = .live ↔ o.state = .live) :
    (r.setOccupant channel (some o')).Sound where
  live := by
    rw [occupied_replace ho]
    exact h.live
  bounded := h.bounded
  epoch := by
    intro d p hd
    rw [occupant_setOccupant] at hd
    rw [lastEpoch_setOccupant]
    split at hd
    · cases hd
      subst d
      exact hepoch.trans (h.epoch channel o ho)
    · exact h.epoch d p hd
  membership := by
    intro gen d epoch
    rw [occupant_setOccupant]
    refine (h.membership gen d epoch).trans ?_
    by_cases hd : d = channel
    · subst hd
      simp [ho, hepoch, hgen, hlive]
    · simp [hd]

/-- An occupant changes, and its generation's map with it. -/
theorem Sound.publish (new : Occupant) (h : r.Sound) (ho : r.occupant channel = some o)
    (hepoch : new.epoch = o.epoch) (hgen : new.gen = o.gen) :
    ((r.setOccupant channel (some new)).setMembership o.gen channel
      (if new.state = .live then some o.epoch else none)).Sound where
  live := by
    refine h.live.trans (congrArg Finset.card ?_)
    exact (occupied_replace ho).symm
  bounded := h.bounded
  epoch := by
    intro d p hd
    rw [occupant_setMembership, occupant_setOccupant] at hd
    rw [lastEpoch_setMembership, lastEpoch_setOccupant]
    split at hd
    · cases hd
      subst d
      exact hepoch.trans (h.epoch channel o ho)
    · exact h.epoch d p hd
  membership := by
    intro gen d epoch
    rw [occupant_setMembership, occupant_setOccupant, membership_setMembership]
    by_cases hd : d = channel
    · subst hd
      by_cases hg : gen = o.gen
      · subst hg
        by_cases hlive : new.state = .live
        · simp [hlive, hepoch, hgen]
        · simp [hlive]
      · have hother : r.membership gen d ≠ some epoch := by
          intro hmem
          obtain ⟨p, hp, hpgen, -⟩ := (h.membership gen d epoch).mp hmem
          cases ho.symm.trans hp
          exact hg hpgen.symm
        simp [hg, hother, hgen, Ne.symm hg]
    · simpa [hd] using h.membership gen d epoch

theorem occupant_admitted (gen : Nat) (class_ : RouteClass) (d : Channel) :
    (r.admitted gen class_ channel).occupant d =
      if d = channel then
        some { epoch := r.lastEpoch channel + 1, gen, state := .binding false, class_ }
      else r.occupant d := by
  by_cases h : d = channel
  · subst h
    simp [occupant, admitted]
  · simp [occupant, admitted, h]

theorem lastEpoch_admitted (gen : Nat) (class_ : RouteClass) (d : Channel) :
    (r.admitted gen class_ channel).lastEpoch d =
      if d = channel then r.lastEpoch channel + 1 else r.lastEpoch d := by
  by_cases h : d = channel
  · subst h
    simp [lastEpoch, admitted]
  · simp [lastEpoch, admitted, h]

/-- What a reservation finds, and what it gives out. -/
theorem reserve_eq_some {gen : Nat} {retired : Bool} {class_ : RouteClass} {r' : Registry}
    (h : reserve gen retired class_ r = some (handle, r')) :
    r.accepting = true ∧ r.live < r.maxRoutes ∧ r.occupant handle.channel = none ∧
      handle.epoch = r.lastEpoch handle.channel + 1 ∧
      r' = r.admitted gen class_ handle.channel := by
  rw [reserve] at h
  split at h
  · cases h
  · rename_i hopen
    rw [Option.map_eq_some_iff] at h
    obtain ⟨channel, hscan, heq⟩ := h
    cases heq
    have hfree := scan_free hscan
    simp only [available, Bool.and_eq_true, Option.isNone_iff_eq_none] at hfree
    simp only [Bool.or_eq_true, Bool.not_eq_true', decide_eq_true_eq, not_or, Nat.not_le] at hopen
    exact ⟨Bool.not_eq_false _ ▸ hopen.1.1, hopen.2, hfree.1, rfl, rfl⟩

theorem Sound.admitted (h : r.Sound) (gen : Nat) (class_ : RouteClass)
    (hroom : r.live < r.maxRoutes) (hfree : r.occupant channel = none) :
    (r.admitted gen class_ channel).Sound where
  live := by
    have hinsert : (r.admitted gen class_ channel).occupied = insert channel r.occupied := by
      ext d
      by_cases hd : d = channel
      · simp [occupied, occupant_admitted, hd]
      · simp [occupied, occupant_admitted, hd]
    rw [hinsert, Finset.card_insert_of_notMem (by simp [occupied, hfree])]
    exact congrArg (· + 1) h.live
  bounded := hroom
  epoch := by
    intro d p hd
    rw [occupant_admitted] at hd
    rw [lastEpoch_admitted]
    by_cases hdc : d = channel
    · rw [if_pos hdc] at hd ⊢
      cases hd
      rfl
    · rw [if_neg hdc] at hd ⊢
      exact h.epoch d p hd
  membership := by
    intro g d epoch
    rw [occupant_admitted]
    refine (h.membership g d epoch).trans ?_
    by_cases hdc : d = channel
    · subst hdc
      simp [hfree]
    · simp [hdc]

theorem occupant_freed (d : Channel) :
    (r.freed channel).occupant d = if d = channel then none else r.occupant d :=
  occupant_setOccupant none d

theorem lastEpoch_freed (d : Channel) : (r.freed channel).lastEpoch d = r.lastEpoch d :=
  lastEpoch_setOccupant none d

theorem occupantAt_freed (ho : r.occupantAt handle = some o) (g : RouteHandle) :
    (r.freed handle.channel).occupantAt g = if g = handle then none else r.occupantAt g := by
  by_cases h : g = handle
  · rw [if_pos h, h, occupantAt, occupant_freed, if_pos rfl]
    rfl
  · rw [if_neg h]
    refine occupantAt_of_ne h ho (fun p hp => ?_) fun d hd => by rw [occupant_freed, if_neg hd]
    rw [occupant_freed, if_pos rfl] at hp
    cases hp

theorem Sound.freed (h : r.Sound) (ho : r.occupant channel = some o) (hstate : o.state ≠ .live) :
    (r.freed channel).Sound where
  live := by
    have herase : (r.freed channel).occupied = r.occupied.erase channel := by
      ext d
      by_cases hd : d = channel
      · simp [occupied, occupant_freed, hd]
      · simp [occupied, occupant_freed, hd]
    rw [herase, Finset.card_erase_of_mem (by simp [occupied, ho])]
    exact congrArg (· - 1) h.live
  bounded := (Nat.sub_le ..).trans h.bounded
  epoch := by
    intro d p hd
    rw [occupant_freed] at hd
    split at hd
    · cases hd
    · exact (h.epoch d p hd).trans (lastEpoch_freed d).symm
  membership := by
    intro gen d epoch
    rw [occupant_freed]
    refine (h.membership gen d epoch).trans ?_
    by_cases hd : d = channel
    · subst hd
      simp [ho, hstate]
    · simp [hd]

theorem drainOccupant_epoch (o : Occupant) : (drainOccupant o).epoch = o.epoch := by
  rw [drainOccupant]
  split
  · rfl
  · split <;> rfl

theorem occupant_forceDrain (r : Registry) (channel : Channel) :
    r.forceDrain.2.occupant channel = (r.occupant channel).map drainOccupant := rfl

/-- Forced shutdown leaves nothing live, apart from routes whose callback has started. -/
theorem Sound.forceDrain (h : r.Sound)
    (hgone : ∀ channel o, r.occupant channel = some o → o.goneStarted = true → o.state ≠ .live) :
    r.forceDrain.2.Sound where
  live := by
    refine h.live.trans (congrArg Finset.card ?_)
    ext d
    simp [occupied, occupant_forceDrain]
  bounded := h.bounded
  epoch := by
    intro d p hd
    rw [occupant_forceDrain, Option.map_eq_some_iff] at hd
    obtain ⟨o, ho, rfl⟩ := hd
    exact (drainOccupant_epoch o).trans (h.epoch d o ho)
  membership := by
    intro gen d epoch
    have hnone : ¬ ∃ o, r.forceDrain.2.occupant d = some o ∧ o.gen = gen ∧ o.epoch = epoch ∧
        o.state = .live := by
      rintro ⟨p, hp, -, -, hlive⟩
      rw [occupant_forceDrain, Option.map_eq_some_iff] at hp
      obtain ⟨o, ho, rfl⟩ := hp
      rw [drainOccupant] at hlive
      split at hlive
      · rename_i hstarted
        exact hgone d o ho hstarted hlive
      · split at hlive <;> cases hlive
    refine ⟨fun hmem => ?_, fun hex => absurd hex hnone⟩
    have hbefore : r.membership gen d = some epoch ∧
        (r.occupant d).any (fun o => drained o && o.gen == gen) = false := by
      change (if (r.occupant d).any fun o => drained o && o.gen == gen then none
        else r.membership gen d) = some epoch at hmem
      split at hmem
      · cases hmem
      · rename_i hany
        exact ⟨hmem, Bool.eq_false_iff.mpr hany⟩
    obtain ⟨o, ho, hgen, -, hlive⟩ := (h.membership gen d epoch).mp hbefore.1
    have hnotStarted : o.goneStarted = false :=
      Bool.eq_false_iff.mpr fun hstarted => hgone d o ho hstarted hlive
    have hany := hbefore.2
    rw [ho, Option.any_some, drained, hnotStarted, hlive, hgen] at hany
    simp at hany

end Registry
end MagicContext.Host
