import MagicContext.Lib.Fitting
import MagicContext.Lib.Ranking
import MagicContext.Selection.Safety

/-!
# The choice in an emergency

In an emergency as many arcs are dropped as it takes to get below a target, those of the lowest
tier first and the oldest of a tier first, and some are never chosen: what the tail protects, the
newest of the higher tiers, and the newest examples of `ctx_reduce`.

## What is here

* `Eligible`, `TierBefore` — which arcs may be chosen, and in what order.
* `CheapestPrefix` — the shortest prefix of these that reclaims enough, or all of them.
* `EmergencyActs` — no guard forbids a choice.
* `selectEmergency_cheapest` — the choice is the cheapest prefix when no guard forbids one, and
  nothing otherwise; it spares what is never chosen.
* `selectEmergency_below_rearm` — a guard forbids a choice that would reclaim little.
-/

namespace MagicContext.Selection

open Historian (u64Max)
open ToolArc

variable {F : Type} [WholeDouble F]

/-! ## The order of arcs -/

theorem ToolArc.older_trans {a b c : ToolArc} (h : a.Older b) (h' : b.Older c) : a.Older c := by
  rcases h with h | ⟨h, hid⟩
  · rcases h' with h' | ⟨h', -⟩
    · exact .inl (by omega)
    · exact .inl (by omega)
  · rcases h' with h' | ⟨h', hid'⟩
    · exact .inl (by omega)
    · exact .inr ⟨by omega, le_trans hid hid'⟩

theorem ToolArc.older_total (a b : ToolArc) : a.Older b ∨ b.Older a := by
  rcases Nat.lt_trichotomy a.ordinal b.ordinal with h | h | h
  · exact .inl (.inl h)
  · rcases le_total a.arcId b.arcId with hid | hid
    · exact .inl (.inr ⟨h, hid⟩)
    · exact .inr (.inr ⟨h.symm, hid⟩)
  · exact .inr (.inl h)

theorem sorted_older (l : List ToolArc) : (l.insertionSort Older).Pairwise Older := by
  have : IsTrans ToolArc Older := ⟨fun _ _ _ => older_trans⟩
  have : Std.Total Older := ⟨older_total⟩
  exact List.pairwise_insertionSort _ l

theorem sorted_newer (l : List ToolArc) : (l.insertionSort Newer).Pairwise Newer := by
  have : IsTrans ToolArc Newer := ⟨fun _ _ _ h h' => older_trans h' h⟩
  have : Std.Total Newer := ⟨fun a b => older_total b a⟩
  exact List.pairwise_insertionSort _ l

/-- Newer than another arc. -/
def ToolArc.Later (a b : ToolArc) : Prop := a.Newer b ∧ a.arcId ≠ b.arcId

instance : DecidableRel ToolArc.Later := fun _ _ => inferInstanceAs (Decidable (_ ∧ _))

theorem ToolArc.later_asymm {a b : ToolArc} (h : a.Later b) : ¬b.Later a := by
  rintro ⟨hnewer, -⟩
  obtain ⟨hnewer', hid⟩ := h
  rcases hnewer with hlt | ⟨heq, hle⟩
  · rcases hnewer' with hlt' | ⟨heq', -⟩ <;> omega
  · rcases hnewer' with hlt' | ⟨-, hle'⟩
    · omega
    · exact hid (le_antisymm hle hle')

/-! ## What may be chosen -/

/-- The newest of the arcs that satisfy `p`. -/
def AmongNewest (p : ToolArc → Bool) (arcs : List ToolArc) (k : Nat) (arc : ToolArc) : Prop :=
  Ranking.AmongFirst ToolArc.Later (arcs.filter p) k arc

instance {p : ToolArc → Bool} {arcs : List ToolArc} {k : Nat} {arc : ToolArc} :
    Decidable (AmongNewest p arcs k arc) :=
  inferInstanceAs (Decidable (Ranking.AmongFirst _ _ _ _))

/-- A fifth of a tier, rounded up. -/
def reserveCount (F : Type) [WholeDouble F] (n : Nat) : Nat :=
  WholeDouble.toU64 (WholeDouble.ceil ((tierRecencyReserve : F) * Double.ofNat n))

/-- Without rounding the reserve is a fifth of the tier, rounded up. -/
theorem reserveCount_rat {n : Nat} (h : n ≤ u64Max) : reserveCount ℚ n = (n + 4) / 5 := by
  obtain ⟨m, hm⟩ : ∃ m, m = (n + 4) / 5 := ⟨_, rfl⟩
  have hfifth : (tierRecencyReserve : ℚ) = 1 / 5 := by decide +kernel
  have hceil : ⌈(1 / 5 : ℚ) * n⌉ = (m : ℤ) := by
    have hle : (n : ℚ) ≤ 5 * m := by exact_mod_cast (show n ≤ 5 * m by omega)
    have hlt : (5 * m : ℚ) < n + 5 := by exact_mod_cast (show 5 * m < n + 5 by omega)
    rw [Int.ceil_eq_iff, Int.cast_natCast]
    constructor <;> linarith
  have hvalue : WholeDouble.ceil ((tierRecencyReserve : ℚ) * Double.ofNat n) = (m : ℚ) := by
    rw [hfifth]
    change ((⌈(1 / 5 : ℚ) * n⌉ : ℤ) : ℚ) = _
    rw [hceil, Int.cast_natCast]
  have hmax : min m u64Max = m := by omega
  rw [reserveCount, hvalue, ← hm]
  change min ⌊(m : ℚ)⌋.toNat u64Max = m
  rw [Int.floor_natCast, Int.toNat_natCast, hmax]

variable (tools : SelectionTools)

def InTier (tier : Nat) (arc : ToolArc) : Bool :=
  resolveToolTier tools arc.name == tier

/-- One of the newest fifth of its tier. -/
def InReserve (F : Type) [WholeDouble F] (tools : SelectionTools) (arcs : List ToolArc) (tier : Nat)
    (arc : ToolArc) : Prop :=
  AmongNewest (InTier tools tier) arcs (reserveCount F (arcs.filter (InTier tools tier)).length) arc

def InProtectedTail (ctx : SelectionContext F) (arc : ToolArc) : Prop :=
  ctx.protectedCutoffOrdinal < arc.ordinal ∧ 0 < ctx.protectedCutoffOrdinal

/-- One of the newest `ctx_reduce` arcs. -/
def IsKeptExample (arcs : List ToolArc) (arc : ToolArc) : Prop :=
  AmongNewest (fun arc => arc.name == "ctx_reduce") arcs ctxReduceKeep arc

/-- **What may be chosen.** -/
def Eligible (arcs : List ToolArc) (ctx : SelectionContext F) (arc : ToolArc) : Prop :=
  ¬InProtectedTail ctx arc ∧ ¬IsKeptExample arcs arc ∧ ¬InReserve F tools arcs 1 arc ∧
    ¬InReserve F tools arcs 2 arc

instance {tools : SelectionTools} {arcs : List ToolArc} {ctx : SelectionContext F} {arc : ToolArc} :
    Decidable (Eligible tools arcs ctx arc) := by
  unfold Eligible InProtectedTail IsKeptExample InReserve
  infer_instance

/-- **The order of the choice**: the third tier, the second, the first, and the oldest first in
each. -/
def TierBefore (a b : ToolArc) : Prop :=
  resolveToolTier tools b.name < resolveToolTier tools a.name ∨
    (resolveToolTier tools a.name = resolveToolTier tools b.name ∧ a.Older b)

/-- The tokens to reclaim. -/
def emergencyReclaim (ctx : SelectionContext F) (allActiveFloorTokens : F) : F :=
  let fixedFloor := Double.maximum (ctx.currentTotalInputTokens - allActiveFloorTokens) 0
  let workingSpan := Double.maximum (ctx.ceilingTokens - fixedFloor) 0
  let target := fixedFloor + targetFraction * workingSpan
  Double.round (ctx.currentTotalInputTokens - target)

/-- **The cheapest prefix**: the shortest prefix of what may be chosen that reclaims enough, or all
of it. -/
def CheapestPrefix (arcs : List ToolArc) (ctx : SelectionContext F)
    (allActiveFloorTokens : F) (chosen : List String) : Prop :=
  ∃ order taken, order.Perm (arcs.filter fun arc => decide (Eligible tools arcs ctx arc)) ∧
    order.Pairwise (TierBefore tools) ∧
    Fitting.Shortest (fun sum => decide (emergencyReclaim ctx allActiveFloorTokens ≤ sum))
      (fun arc => bytesToTokens arc.reclaimBytes) 0 order taken ∧
    chosen = taken.map ToolArc.arcId

/-- **No guard forbids a choice**: the ceiling and the usage are known, the usage has changed since
the last drop, and there is more to reclaim than the least worth it. -/
def EmergencyActs (ctx : SelectionContext F) (allActiveFloorTokens : F) : Prop :=
  (Double.isFinite ctx.ceilingTokens = true ∧ ¬ctx.ceilingTokens ≤ 0) ∧
  (Double.isFinite ctx.currentTotalInputTokens = true ∧ ¬ctx.currentTotalInputTokens ≤ 0) ∧
  ¬(ctx.hasPriorDrop = true ∧ Double.same ctx.currentTotalInputTokens ctx.priorInputSample = true) ∧
  ¬emergencyReclaim ctx allActiveFloorTokens ≤ emergencyRearmMinTokens

/-! ## The code's order -/

section
variable {tools : SelectionTools} {arcs : List ToolArc} {ctx : SelectionContext F}
  {allActiveFloorTokens : F}

/-- An arc is one of the newest when its id is among those of the newest. -/
theorem contains_newest_iff (hdistinct : (arcs.map arcId).Nodup) (p : ToolArc → Bool)
    (k : Nat) {arc : ToolArc} (harc : arc ∈ arcs) :
    arc.arcId ∈ (((arcs.filter p).insertionSort Newer).take k).map arcId ↔
      AmongNewest p arcs k arc := by
  have hperm := List.perm_insertionSort Newer (arcs.filter p)
  have hnodup : (((arcs.filter p).insertionSort Newer).map arcId).Nodup :=
    (hperm.map arcId).nodup_iff.mpr (hdistinct.sublist (List.filter_sublist.map arcId))
  have hsorted : ((arcs.filter p).insertionSort Newer).Pairwise Later :=
    List.pairwise_and_iff.mpr ⟨sorted_newer _, List.pairwise_map.mp hnodup⟩
  rw [AmongNewest, ← Ranking.amongFirst_perm hperm,
    ← Ranking.mem_take_iff (r := Later) later_asymm hsorted]
  constructor
  · intro hmem
    obtain ⟨arc', harc', heq⟩ := List.mem_map.mp hmem
    have hsource : arc' ∈ arcs :=
      (List.mem_filter.mp (hperm.mem_iff.mp (List.mem_of_mem_take harc'))).1
    rwa [List.inj_on_of_nodup_map hdistinct hsource harc heq] at harc'
  · exact List.mem_map_of_mem

theorem resolveToolTier_cases (tools : SelectionTools) (name : String) :
    resolveToolTier tools name = 1 ∨ resolveToolTier tools name = 2 ∨
      resolveToolTier tools name = 3 := by
  rw [resolveToolTier]
  split
  · exact .inl rfl
  · split
    · exact .inr (.inl rfl)
    · exact .inr (.inr rfl)

/-- The arcs of a tier, the oldest first. -/
def byTier (tools : SelectionTools) (candidates : List ToolArc) (tier : Nat) : List ToolArc :=
  (candidates.filter fun arc => resolveToolTier tools arc.name == tier).insertionSort ToolArc.Older

theorem mem_byTier {candidates : List ToolArc} {tier : Nat} {arc : ToolArc} :
    arc ∈ byTier tools candidates tier ↔
      arc ∈ candidates ∧ resolveToolTier tools arc.name = tier := by
  rw [byTier, (List.perm_insertionSort _ _).mem_iff, List.mem_filter, beq_iff_eq]

/-- The tiers one after the other are all the candidates. -/
theorem byTier_perm (candidates : List ToolArc) :
    (byTier tools candidates 3 ++ byTier tools candidates 2 ++ byTier tools candidates 1).Perm
      candidates := by
  rw [List.perm_iff_count]
  intro arc
  have hcount : ∀ tier, (byTier tools candidates tier).count arc =
      if resolveToolTier tools arc.name = tier then candidates.count arc else 0 := by
    intro tier
    rw [byTier, (List.perm_insertionSort _ _).count_eq]
    split
    · rename_i htier
      exact List.count_filter (by simpa using htier)
    · rename_i htier
      refine List.count_eq_zero_of_not_mem fun hmem => htier ?_
      simpa using (List.mem_filter.mp hmem).2
  rw [List.count_append, List.count_append, hcount, hcount, hcount]
  rcases resolveToolTier_cases tools arc.name with htier | htier | htier <;>
    simp [htier]

theorem byTier_sorted (candidates : List ToolArc) :
    (byTier tools candidates 3 ++ byTier tools candidates 2 ++
      byTier tools candidates 1).Pairwise (TierBefore tools) := by
  have hwithin : ∀ tier, (byTier tools candidates tier).Pairwise (TierBefore tools) := by
    intro tier
    refine List.Pairwise.imp_of_mem ?_ (sorted_older _)
    intro a b ha hb hab
    have htier : resolveToolTier tools a.name = tier := (mem_byTier.mp ha).2
    have htier' : resolveToolTier tools b.name = tier := (mem_byTier.mp hb).2
    exact .inr ⟨htier.trans htier'.symm, hab⟩
  have hacross : ∀ {tier tier'}, tier' < tier → ∀ a ∈ byTier tools candidates tier,
      ∀ b ∈ byTier tools candidates tier', TierBefore tools a b := by
    intro tier tier' hlt a ha b hb
    refine .inl ?_
    rw [(mem_byTier.mp ha).2, (mem_byTier.mp hb).2]
    exact hlt
  rw [List.pairwise_append, List.pairwise_append]
  refine ⟨⟨hwithin 3, hwithin 2, hacross (by omega)⟩, hwithin 1, fun a ha b hb => ?_⟩
  rcases List.mem_append.mp ha with ha | ha
  · exact hacross (by omega) a ha b hb
  · exact hacross (by omega) a ha b hb

/-! ## The choice -/

theorem takeUntilReclaimed_eq (reclaimTokens reclaimed : F) (arcs : List ToolArc) :
    takeUntilReclaimed reclaimTokens reclaimed arcs =
      Fitting.reaching (fun sum => decide (reclaimTokens ≤ sum))
        (fun arc => bytesToTokens arc.reclaimBytes) reclaimed arcs := by
  induction arcs generalizing reclaimed with
  | nil => rfl
  | cons arc arcs ih =>
    rw [takeUntilReclaimed, Fitting.reaching, ih]
    simp only [decide_eq_true_eq]

theorem selectEmergency_of_not_acts (h : ¬EmergencyActs ctx allActiveFloorTokens) :
    selectEmergency tools arcs ctx allActiveFloorTokens = [] := by
  rw [selectEmergency]
  split
  · rfl
  split
  · rfl
  split
  · rfl
  dsimp only
  split
  · rfl
  · rename_i hceiling husage hrepeated hrearm
    refine absurd ⟨?_, ?_, ?_, hrearm⟩ h
    · simpa using hceiling
    · simpa using husage
    · simpa using hrepeated

/-- The code's conditions on a candidate are that it is eligible. -/
theorem eligible_iff (hdistinct : (arcs.map arcId).Nodup) {arc : ToolArc} (harc : arc ∈ arcs) :
    Eligible tools arcs ctx arc ↔
      ¬(ctx.protectedCutoffOrdinal < arc.ordinal ∧ 0 < ctx.protectedCutoffOrdinal) ∧
      arc.arcId ∉ newestCtxReduceArcIds arcs ∧
      ¬((resolveToolTier tools arc.name = 1 ∨ resolveToolTier tools arc.name = 2) ∧
        arc.arcId ∈ tierReserve F tools arcs 1 ++ tierReserve F tools arcs 2) := by
  have hexample : arc.arcId ∈ newestCtxReduceArcIds arcs ↔ IsKeptExample arcs arc :=
    contains_newest_iff hdistinct _ _ harc
  have hreserve : ∀ tier, arc.arcId ∈ tierReserve F tools arcs tier ↔
      InReserve F tools arcs tier arc := fun tier => contains_newest_iff hdistinct _ _ harc
  have htier : ∀ {tier}, InReserve F tools arcs tier arc →
      resolveToolTier tools arc.name = tier := by
    intro tier hin
    simpa [InTier] using (List.mem_filter.mp hin.1).2
  rw [Eligible, InProtectedTail, hexample, List.mem_append, hreserve, hreserve]
  constructor
  · rintro ⟨htail, hkept, hfirst, hsecond⟩
    refine ⟨htail, hkept, ?_⟩
    rintro ⟨-, hin | hin⟩
    · exact hfirst hin
    · exact hsecond hin
  · rintro ⟨htail, hkept, hnone⟩
    exact ⟨htail, hkept, fun hin => hnone ⟨.inl (htier hin), .inl hin⟩,
      fun hin => hnone ⟨.inr (htier hin), .inr hin⟩⟩

theorem selectEmergency_of_acts (hdistinct : (arcs.map arcId).Nodup)
    (h : EmergencyActs ctx allActiveFloorTokens) :
    selectEmergency tools arcs ctx allActiveFloorTokens =
      (takeUntilReclaimed (emergencyReclaim ctx allActiveFloorTokens) 0
        (byTier tools (arcs.filter fun arc => decide (Eligible tools arcs ctx arc)) 3 ++
          byTier tools (arcs.filter fun arc => decide (Eligible tools arcs ctx arc)) 2 ++
          byTier tools (arcs.filter fun arc => decide (Eligible tools arcs ctx arc)) 1)).map
        arcId := by
  obtain ⟨hceiling, husage, hrepeated, hrearm⟩ := h
  have hcandidates : (arcs.filter fun arc => decide (Eligible tools arcs ctx arc)) =
      arcs.filter fun arc =>
        !(decide (ctx.protectedCutoffOrdinal < arc.ordinal) &&
            decide (0 < ctx.protectedCutoffOrdinal)) &&
          !(newestCtxReduceArcIds arcs).contains arc.arcId &&
          !((resolveToolTier tools arc.name == 1 || resolveToolTier tools arc.name == 2) &&
            (tierReserve F tools arcs 1 ++ tierReserve F tools arcs 2).contains arc.arcId) := by
    refine List.filter_congr fun arc harc => ?_
    rw [Bool.eq_iff_iff, decide_eq_true_eq, eligible_iff hdistinct harc]
    simp only [Bool.and_eq_true, Bool.not_eq_true', decide_eq_true_eq,
      ← Bool.not_eq_true, List.contains_iff_mem, Bool.or_eq_true, beq_iff_eq, and_assoc,
      not_and]
  rw [hcandidates, selectEmergency, if_neg (by simpa using hceiling),
    if_neg (by simpa using husage), if_neg (by simpa using hrepeated)]
  rw [emergencyReclaim] at hrearm ⊢
  rw [if_neg hrearm]
  rfl

/-- **The choice in an emergency**: the cheapest prefix, unless a guard forbids a choice, and never
an arc of the protected tail, of the newest fifth of the first two tiers, or one of the newest
`ctx_reduce` arcs. -/
theorem selectEmergency_cheapest (hdistinct : (arcs.map ToolArc.arcId).Nodup)
    (htrans : ∀ x y z : F, x ≤ y → y ≤ z → x ≤ z)
    (hrearm : (0 : F) ≤ emergencyRearmMinTokens) :
    (¬EmergencyActs ctx allActiveFloorTokens →
      selectEmergency tools arcs ctx allActiveFloorTokens = []) ∧
    (EmergencyActs ctx allActiveFloorTokens →
      CheapestPrefix tools arcs ctx allActiveFloorTokens
        (selectEmergency tools arcs ctx allActiveFloorTokens)) ∧
    ∀ arc ∈ arcs, arc.arcId ∈ selectEmergency tools arcs ctx allActiveFloorTokens →
      Eligible tools arcs ctx arc := by
  have hcheapest : EmergencyActs ctx allActiveFloorTokens →
      CheapestPrefix tools arcs ctx allActiveFloorTokens
        (selectEmergency tools arcs ctx allActiveFloorTokens) := by
    intro hacts
    refine ⟨_, _, byTier_perm _, byTier_sorted _, ?_, selectEmergency_of_acts hdistinct hacts⟩
    rw [takeUntilReclaimed_eq]
    refine Fitting.reaching_shortest ?_ _
    exact decide_eq_false fun hzero => hacts.2.2.2 (htrans _ _ _ hzero hrearm)
  refine ⟨selectEmergency_of_not_acts, hcheapest, fun arc harc hchosen => ?_⟩
  by_cases hacts : EmergencyActs ctx allActiveFloorTokens
  · obtain ⟨order, taken, hperm, -, hshortest, heq⟩ := hcheapest hacts
    rw [heq] at hchosen
    obtain ⟨arc', harc', hid⟩ := List.mem_map.mp hchosen
    have hmem := List.mem_filter.mp (hperm.mem_iff.mp (hshortest.isPrefix.subset harc'))
    rw [← List.inj_on_of_nodup_map hdistinct hmem.1 harc hid]
    exact of_decide_eq_true hmem.2
  · rw [selectEmergency_of_not_acts hacts] at hchosen
    cases hchosen

end

/-- The selection gives the emergency arcs that are told apart by their ids. -/
theorem activeArcs_distinct (tools : SelectionTools) (items : List SelItem)
    (frozenKeys : List String) :
    ((activeArcs tools items frozenKeys).map arcId).Nodup := by
  have harcs : ((groupArcs tools items frozenKeys).map arcId).Nodup := by
    rw [groupArcs, ((List.perm_insertionSort _ _).map _).nodup_iff, List.map_map,
      List.map_congr_left (g := Prod.fst)]
    · exact SortedMap.nodup_keys _
    · rintro ⟨arcId, arc⟩ hmem
      rw [← SortedMap.get_eq_some, get_groupBy, Option.map_eq_some_iff] at hmem
      obtain ⟨-, -, rfl⟩ := hmem
      exact arcId_foldl _ _
  exact harcs.sublist (List.filter_sublist.map _)

/-! ## Two emergencies -/

/-- An emergency at some usage. -/
def emergencyOf (currentTotalInputTokens : ℚ) : SelectionContext ℚ :=
  { quietContext [] with
    passClass := .emergencyForce
    currentTotalInputTokens
    ceilingTokens := 10000 }

def bashArc : ToolArc := { arcId := "a", name := "bash", ordinal := 3, resultBytes := 12000 }

/-- Calls of three tiers; the newest of the second and of the first are reserved. -/
def tieredArcs : List ToolArc :=
  [{ bashArc with arcId := "r1", name := "read", ordinal := 1 },
    { bashArc with arcId := "e1", name := "edit", ordinal := 2 }, bashArc,
    { bashArc with arcId := "e2", name := "edit", ordinal := 4 },
    { bashArc with arcId := "r2", name := "read", ordinal := 5 }]

/-- Of the third tier and the second the calls `a` and `e1` are enough. -/
theorem selectEmergency_cheapest_tiers :
    CheapestPrefix plainTools tieredArcs (emergencyOf 9900) 7000
      (selectEmergency plainTools tieredArcs (emergencyOf 9900) 7000) :=
  (selectEmergency_cheapest (by decide) (fun _ _ _ => le_trans) (by decide +kernel)).2.1
    (by unfold EmergencyActs; decide +kernel)

/-- **A guard forbids a choice**: of the 1980 tokens to reclaim the only call would give 3000. -/
theorem selectEmergency_below_rearm :
    ¬CheapestPrefix plainTools [bashArc] (emergencyOf 9600) 3000
      (selectEmergency plainTools [bashArc] (emergencyOf 9600) 3000) := by
  rintro ⟨order, taken, hperm, -, hshortest, heq⟩
  have hnone : selectEmergency plainTools [bashArc] (emergencyOf 9600) 3000 = [] := by
    decide +kernel
  rw [hnone] at heq
  obtain rfl : taken = [] := List.map_eq_nil_iff.mp heq.symm
  rcases hshortest.enough_or_all with henough | hall
  · have hzero : ¬emergencyReclaim (emergencyOf 9600) 3000 ≤ 0 := by decide +kernel
    exact hzero (of_decide_eq_true henough)
  · rw [← hall] at hperm
    have hlength := hperm.length_eq
    revert hlength
    decide +kernel

end MagicContext.Selection
