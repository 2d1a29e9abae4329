import MagicContext.Boundary.Index

/-!
# The history in its decay

Compartments are rendered the more sparsely the older they are, by a curve over the doubles.  When
the whole is still over the budget, the oldest row that is not archived goes down a tier, over and
over, until it fits.

## What is here

* `renderedTier`, `computeTiers` — the curve.
* `renderOneCompartment` — a row at a tier; `renderDecayedCompartments`, `guardLoop` — the body.
* `Demotes` — tiers that differ on a prefix, all archived but perhaps its last.
* `renderDecayedCompartments_spec` — where the guard ends.
-/

namespace MagicContext.Render

/-! ## The curve -/

class PowDouble (F : Type) extends Double F where
  powf : F → F → F

section Curve
variable {F : Type} [PowDouble F]

/-- `Z1` to `Z4`. -/
def z1 : F := 0.201
def z2 : F := 0.729
def z3 : F := 1.322
def z4 : F := 2.587

/-- `P_FLOOR`. -/
def pFloor : F := 0.1

/-- `TIER_COST`. -/
def tierCost : Nat → Nat
  | 1 => 322
  | 2 => 109
  | 3 => 35
  | 4 => 20
  | 5 => 5
  | _ => 0

structure DecayInput where
  index : Nat
  importance : Int

/-- `importance.clamp(1, 100)`. -/
def clampImportance (importance : Int) : Int := max 1 (min 100 importance)

def zValue (compartmentIndex : Nat) (importance : Int) (budgetPressure : F) : F :=
  let a : F := Double.ofNat (max compartmentIndex 1 - 1)
  let imp : F := Double.ofNat (clampImportance importance).toNat
  let p := Double.maximum budgetPressure pFloor
  let f := PowDouble.powf 2 ((imp - 50) / 25)
  let h := 24 * f / p
  a / h

def tier (compartmentIndex : Nat) (importance : Int) (budgetPressure : F) : Nat :=
  let z := zValue compartmentIndex importance budgetPressure
  if z < z1 then 1 else if z < z2 then 2 else if z < z3 then 3 else if z < z4 then 4 else 5

def shouldArchive (compartmentIndex : Nat) (importance : Int) (budgetPressure anchorOverlap : F) :
    Bool :=
  let z := zValue compartmentIndex importance budgetPressure
  decide (z4 + 2 * Double.clamp anchorOverlap 0 1 ≤ z)

def renderedTier (compartmentIndex : Nat) (importance : Int) (budgetPressure anchorOverlap : F) :
    Nat :=
  if shouldArchive compartmentIndex importance budgetPressure anchorOverlap then 5
  else min (tier compartmentIndex importance budgetPressure) 4

def computeBudgetPressure (compartments : List DecayInput) (historyBudget : F) : F :=
  if historyBudget ≤ 0 then 1
  else
    let naturalCost := compartments.foldl (fun cost c =>
      let naturalTier := tier c.index c.importance (1 : F)
      if naturalTier < 5 then cost + Double.ofNat (tierCost naturalTier) else cost) (0 : F)
    Double.maximum (naturalCost / historyBudget) pFloor

end Curve

/-! ## Rows -/

structure DecayRenderCompartment where
  startMessage : Int
  endMessage : Int
  title : String
  content : String
  startDate : Option String := none
  endDate : Option String := none
  p1 : Option String := none
  p2 : Option String := none
  p3 : Option String := none
  p4 : Option String := none
  importance : Option Int := none
  legacy : Option Int := none

def escapeXmlContent (s : String) : String :=
  Text.replaceText ">" "&gt;" (Text.replaceText "<" "&lt;" (Text.replaceText "&" "&amp;" s))

/-- What stands before a byte offset, and after it; `none` inside a character or past the end. -/
def splitAtByte : Nat → List Char → Option (List Char × List Char)
  | 0, s => some ([], s)
  | _ + 1, [] => none
  | n + 1, c :: s =>
    if c.utf8Size ≤ n + 1 then (splitAtByte (n + 1 - c.utf8Size) s).map fun p => (c :: p.1, p.2)
    else none
termination_by _ s => s.length

def formatDateRange (startDate endDate : Option String) : String :=
  match startDate, endDate with
  | some startDate, some endDate =>
    if startDate = "" ∨ endDate = "" then ""
    else if startDate = endDate then startDate
    else
      let endDay := (splitAtByte 8 endDate.toList).map fun p => String.ofList p.2
      let sameMonth := (splitAtByte 7 startDate.toList).map Prod.fst =
        (splitAtByte 7 endDate.toList).map Prod.fst
      if sameMonth then startDate ++ "→" ++ endDay.getD endDate else startDate ++ "→" ++ endDate
  | _, _ => ""

/-- A control character, or a separator of lines or paragraphs. -/
def breaksLine (c : Char) : Bool :=
  let n := c.toNat
  n < 0x20 || (0x7F ≤ n && n < 0xA0) || n == 0x2028 || n == 0x2029

/-- Each run of characters that break a line becomes one space. -/
def singleLine : Bool → List Char → List Char
  | _, [] => []
  | replacing, c :: s =>
    if breaksLine c then if replacing then singleLine true s else ' ' :: singleLine true s
    else c :: singleLine false s

def sanitizeCompartmentTitle (title : String) : String :=
  escapeXmlContent (String.ofList (singleLine false title.toList))

variable (c : DecayRenderCompartment)

def compartmentHeading : String :=
  let dateRange := formatDateRange c.startDate c.endDate
  let dateSegment := if dateRange = "" then "" else " · " ++ dateRange
  "## " ++ toString c.startMessage ++ "-" ++ toString c.endMessage ++ dateSegment ++ " · " ++
    sanitizeCompartmentTitle c.title

def guardCompartmentBody (body : String) : String :=
  let guarded := Text.replaceText "\n## " "\n ## " body
  if "## ".toList.isPrefixOf guarded.toList then " " ++ guarded else guarded

def isTieredRow : Bool := c.p1.any (· ≠ "")

/-- The first of some texts that is not empty. -/
def densest (texts : List (Option String)) : Option String :=
  texts.findSome? fun text => text.filter (· ≠ "")

def tierBody (tier : Nat) : String :=
  let tiers := [c.p1, c.p2, c.p3, c.p4]
  match tiers[tier - 1]?.join with
  | some requested => Text.trimText requested
  | none => Text.trimText ((densest (tiers.take (tier - 1)).reverse).getD c.content)

/-- `trim_end` and `…` after a cut. -/
def truncateWithEllipsis (content : String) (max : Nat) : String :=
  if content.toList.length ≤ max then content
  else
    let cut := (content.toList.take max).reverse.dropWhile Text.isWhitespace
    String.ofList cut.reverse ++ "…"

def legacyBodyForTier (content : String) (tier : Nat) : String :=
  if tier ≤ 1 then content
  else if tier = 2 then truncateWithEllipsis content 1200
  else truncateWithEllipsis content 420

/-- A line of the content starts with `U:`; the end of a line does not matter to that. -/
def legacyTier : Nat :=
  if (c.content.toList.splitOn '\n').any fun line => "U:".toList.isPrefixOf line then 3 else 4

def renderOneCompartment (tier : Nat) : String :=
  if 5 ≤ tier then ""
  else if c.legacy = some 1 ∨ isTieredRow c = false then
    let flat := Text.trimText c.content
    if 4 ≤ tier ∨ flat = "" then compartmentHeading c
    else compartmentHeading c ++ "\n" ++
      guardCompartmentBody (escapeXmlContent (legacyBodyForTier flat tier))
  else
    let body := tierBody c tier
    if body = "" then compartmentHeading c
    else compartmentHeading c ++ "\n" ++ guardCompartmentBody (escapeXmlContent body)

/-! ## The body -/

section Body
variable {F : Type} [PowDouble F]

def isCurved (c : DecayRenderCompartment) : Bool := decide (c.legacy ≠ some 1)

/-- The place on the curve of the first of some rows: how many there are from it to the newest. -/
def curveIndex (rows : List DecayRenderCompartment) : Nat := rows.countP isCurved % 2 ^ 32

def curveInputs : List DecayRenderCompartment → List DecayInput
  | [] => []
  | c :: rows =>
    if isCurved c then
      ⟨curveIndex (c :: rows), clampImportance (c.importance.getD 50)⟩ :: curveInputs rows
    else curveInputs rows

def tiersAt (pressure : F) : List DecayRenderCompartment → List Nat
  | [] => []
  | c :: rows =>
    (if isCurved c then renderedTier (curveIndex (c :: rows)) (c.importance.getD 50) pressure 0
      else legacyTier c) :: tiersAt pressure rows

def computeTiers (compartments : List DecayRenderCompartment) (historyBudget : F) : List Nat :=
  tiersAt (if 0 < historyBudget then computeBudgetPressure (curveInputs compartments) historyBudget
    else 1) compartments

/-- A row, its tier and how it is rendered. -/
structure RenderedRow where
  compartment : DecayRenderCompartment
  tier : Nat
  text : String

def RenderedRow.at (c : DecayRenderCompartment) (tier : Nat) : RenderedRow :=
  ⟨c, tier, renderOneCompartment c tier⟩

def joinBody (rendered : List String) : String :=
  String.intercalate "\n\n" (rendered.filter (· ≠ ""))

/-- Demotes the first row that is not archived, which alone is rendered again. -/
def demote : List RenderedRow → Option (List RenderedRow)
  | [] => none
  | row :: rows =>
    if row.tier < 5 then some (.at row.compartment (row.tier + 1) :: rows)
    else (demote rows).map (row :: ·)

section
variable (historyBudget : F) (estimateTokens : String → Nat)

def OverBudget (body : String) : Prop :=
  0 < historyBudget ∧ historyBudget < Double.ofNat (estimateTokens body)

instance (body : String) : Decidable (OverBudget historyBudget estimateTokens body) :=
  inferInstanceAs (Decidable (_ ∧ _))

def guardLoop : Nat → List RenderedRow → List RenderedRow
  | 0, rows => rows
  | guard + 1, rows =>
    if OverBudget historyBudget estimateTokens (joinBody (rows.map RenderedRow.text)) then
      match demote rows with
      | none => rows
      | some rows => guardLoop guard rows
    else rows

def renderDecayedCompartments (compartments : List DecayRenderCompartment) : String :=
  if compartments.isEmpty then ""
  else
    let rows := compartments.zipWith .at (computeTiers compartments historyBudget)
    joinBody ((guardLoop historyBudget estimateTokens (compartments.length * 5) rows).map
      RenderedRow.text)

end

/-! ## Where the guard ends -/

theorem renderedTier_le (compartmentIndex : Nat) (importance : Int) (pressure overlap : F) :
    renderedTier compartmentIndex importance pressure overlap ≤ 5 := by
  rw [renderedTier]
  split
  · exact Nat.le_refl 5
  · exact Nat.le_trans (Nat.min_le_right _ _) (by decide)

theorem legacyTier_le (c : DecayRenderCompartment) : legacyTier c ≤ 5 := by
  rw [legacyTier]
  split <;> decide

theorem tiersAt_le (pressure : F) (rows : List DecayRenderCompartment) :
    ∀ tier ∈ tiersAt pressure rows, tier ≤ 5 := by
  induction rows with
  | nil => nofun
  | cons c rows ih =>
    refine List.forall_mem_cons.mpr ⟨?_, ih⟩
    split
    · exact renderedTier_le _ _ _ _
    · exact legacyTier_le c

theorem length_tiersAt (pressure : F) (rows : List DecayRenderCompartment) :
    (tiersAt pressure rows).length = rows.length := by
  induction rows with
  | nil => rfl
  | cons c rows ih => exact congrArg (· + 1) ih

end Body

/-- One more demotion, on the tiers alone. -/
def demoteTiers : List Nat → Option (List Nat)
  | [] => none
  | tier :: tiers =>
    if tier < 5 then some ((tier + 1) :: tiers) else (demoteTiers tiers).map (tier :: ·)

theorem demote_at (compartments : List DecayRenderCompartment) {tiers : List Nat}
    (hlength : tiers.length = compartments.length) :
    demote (compartments.zipWith .at tiers) =
      (demoteTiers tiers).map (compartments.zipWith .at ·) := by
  induction compartments generalizing tiers with
  | nil =>
    cases List.length_eq_zero_iff.mp hlength
    rfl
  | cons c compartments ih =>
    obtain ⟨tier, tiers, rfl⟩ := List.exists_cons_of_length_eq_add_one hlength
    rw [List.zipWith_cons_cons, demote, demoteTiers]
    by_cases hlt : tier < 5
    · rw [if_pos hlt, if_pos (show (RenderedRow.at c tier).tier < 5 from hlt)]
      rfl
    · rw [if_neg hlt, if_neg (show ¬(RenderedRow.at c tier).tier < 5 from hlt),
        ih (Nat.succ.inj hlength), Option.map_map, Option.map_map]
      rfl

/-- How many demotions are left. -/
def remaining (tiers : List Nat) : Nat := (tiers.map (5 - ·)).sum

theorem demoteTiers_spec (tiers : List Nat) :
    match demoteTiers tiers with
    | none => remaining tiers = 0
    | some tiers' => tiers'.length = tiers.length ∧ remaining tiers' + 1 = remaining tiers := by
  induction tiers with
  | nil => rfl
  | cons tier tiers ih =>
    rw [demoteTiers]
    by_cases hlt : tier < 5
    · rw [if_pos hlt]
      simp [remaining]
      omega
    · rw [if_neg hlt]
      cases hdemote : demoteTiers tiers with
      | none =>
        rw [hdemote] at ih
        simp only [remaining, Option.map_none, List.map_cons, List.sum_cons] at ih ⊢
        omega
      | some tiers' =>
        rw [hdemote] at ih
        simp only [remaining, Option.map_some, List.map_cons, List.sum_cons, List.length_cons]
          at ih ⊢
        omega

theorem remaining_le (tiers : List Nat) : remaining tiers ≤ tiers.length * 5 := by
  induction tiers with
  | nil => exact Nat.le_refl 0
  | cons tier tiers ih =>
    simp only [remaining, List.map_cons, List.sum_cons, List.length_cons] at ih ⊢
    omega

theorem le_of_remaining {tiers : List Nat} (h : remaining tiers = 0) :
    ∀ tier ∈ tiers, 5 ≤ tier := by
  intro tier htier
  have hzero := List.sum_eq_zero_iff_forall_eq_nat.mp h _ (List.mem_map_of_mem htier)
  omega

/-- Tiers that differ on a prefix only, whose rows are archived but perhaps the last, which is at a
higher tier than it was. -/
inductive Demotes : List Nat → List Nat → Prop
  | stop (tiers : List Nat) : Demotes tiers tiers
  | here {tier tier' : Nat} (tiers : List Nat) :
      tier < tier' → tier' ≤ 5 → Demotes (tier :: tiers) (tier' :: tiers)
  | past {tier : Nat} {tiers tiers' : List Nat} :
      Demotes tiers tiers' → Demotes (tier :: tiers) (5 :: tiers')

theorem Demotes.of_demoteTiers {tiers tiers' : List Nat} (h : demoteTiers tiers = some tiers')
    (hle : ∀ tier ∈ tiers, tier ≤ 5) : Demotes tiers tiers' := by
  induction tiers generalizing tiers' with
  | nil => cases h
  | cons tier tiers ih =>
    rw [List.forall_mem_cons] at hle
    rw [demoteTiers] at h
    split at h
    · rename_i hlt
      cases h
      exact .here tiers (Nat.lt_succ_self tier) hlt
    · obtain ⟨rest, hrest, rfl⟩ := Option.map_eq_some_iff.mp h
      obtain rfl : tier = 5 := by omega
      exact .past (ih hrest hle.2)

/-- **One more demotion.** -/
theorem Demotes.demoteTiers {start tiers tiers' : List Nat} (hstart : Demotes start tiers)
    (h : demoteTiers tiers = some tiers') (hle : ∀ tier ∈ start, tier ≤ 5) :
    Demotes start tiers' := by
  induction hstart generalizing tiers' with
  | stop tiers => exact .of_demoteTiers h hle
  | @here tier tier' tiers hlt hle' =>
    rw [Render.demoteTiers] at h
    split at h
    · rename_i hmore
      cases h
      exact .here tiers (Nat.lt_succ_of_lt hlt) hmore
    · obtain ⟨rest, hrest, rfl⟩ := Option.map_eq_some_iff.mp h
      obtain rfl : tier' = 5 := by omega
      exact .past (.of_demoteTiers hrest (List.forall_mem_cons.mp hle).2)
  | past _ ih =>
    obtain ⟨rest, hrest, rfl⟩ := Option.map_eq_some_iff.mp h
    exact .past (ih hrest (List.forall_mem_cons.mp hle).2)

theorem Demotes.le {start tiers : List Nat} (h : Demotes start tiers)
    (hle : ∀ tier ∈ start, tier ≤ 5) : ∀ tier ∈ tiers, tier ≤ 5 := by
  induction h with
  | stop tiers => exact hle
  | here tiers _ hle' => exact List.forall_mem_cons.mpr ⟨hle', (List.forall_mem_cons.mp hle).2⟩
  | past _ ih =>
    exact List.forall_mem_cons.mpr ⟨Nat.le_refl 5, ih (List.forall_mem_cons.mp hle).2⟩

section Guard
variable {F : Type} [PowDouble F] (historyBudget : F) (estimateTokens : String → Nat)
  (compartments : List DecayRenderCompartment)

/-- The rows at some tiers, rendered afresh. -/
def bodyAt (tiers : List Nat) : String :=
  joinBody (compartments.zipWith renderOneCompartment tiers)

/-- Tiers that the guard comes to: before the last demotion the body was over the budget. -/
structure Guarded (start tiers : List Nat) : Prop where
  demotes : Demotes start tiers
  needed : tiers = start ∨ ∃ before, Demotes start before ∧ demoteTiers before = some tiers ∧
    OverBudget historyBudget estimateTokens (bodyAt compartments before)

variable {historyBudget estimateTokens compartments} {start tiers : List Nat}

/-- **The guard's loop**, with a bound that allows for every demotion. -/
theorem guardLoop_at (hle : ∀ tier ∈ start, tier ≤ 5) (hlength : tiers.length = compartments.length)
    (h : Guarded historyBudget estimateTokens compartments start tiers) {guard : Nat}
    (hguard : remaining tiers ≤ guard) :
    ∃ tiers', guardLoop historyBudget estimateTokens guard (compartments.zipWith .at tiers) =
        compartments.zipWith .at tiers' ∧
      Guarded historyBudget estimateTokens compartments start tiers' ∧
      (¬OverBudget historyBudget estimateTokens (bodyAt compartments tiers') ∨
        remaining tiers' = 0) := by
  induction guard generalizing tiers with
  | zero => exact ⟨tiers, rfl, h, Or.inr (Nat.le_zero.mp hguard)⟩
  | succ guard ih =>
    have hbody : joinBody ((compartments.zipWith .at tiers).map RenderedRow.text) =
        bodyAt compartments tiers := by
      rw [List.map_zipWith]
      rfl
    rw [guardLoop, hbody]
    by_cases hover : OverBudget historyBudget estimateTokens (bodyAt compartments tiers)
    · rw [if_pos hover, demote_at compartments hlength]
      have hspec := demoteTiers_spec tiers
      cases hdemote : demoteTiers tiers with
      | none =>
        rw [hdemote] at hspec
        exact ⟨tiers, rfl, h, Or.inr hspec⟩
      | some tiers' =>
        rw [hdemote] at hspec
        exact ih (hspec.1.trans hlength)
          ⟨h.demotes.demoteTiers hdemote hle, Or.inr ⟨tiers, h.demotes, hdemote, hover⟩⟩ (by omega)
    · rw [if_neg hover]
      exact ⟨tiers, rfl, h, Or.inl hover⟩

/-- **The guard ends** where the body fits the budget or all rows are archived.  The body is that of
its tiers, which differ from the curve's on a prefix only, and before the last demotion it did not
fit. -/
theorem renderDecayedCompartments_spec (historyBudget : F) (estimateTokens : String → Nat)
    (compartments : List DecayRenderCompartment) :
    ∃ tiers, renderDecayedCompartments historyBudget estimateTokens compartments =
        bodyAt compartments tiers ∧
      Guarded historyBudget estimateTokens compartments (computeTiers compartments historyBudget)
        tiers ∧
      (¬OverBudget historyBudget estimateTokens (bodyAt compartments tiers) ∨
        ∀ tier ∈ tiers, tier = 5) := by
  have hle : ∀ tier ∈ computeTiers compartments historyBudget, tier ≤ 5 := tiersAt_le _ _
  have hlength : (computeTiers compartments historyBudget).length = compartments.length :=
    length_tiersAt _ _
  obtain ⟨tiers, hloop, hguarded, hend⟩ := @guardLoop_at _ _ historyBudget estimateTokens
    compartments _ _ hle hlength ⟨.stop _, Or.inl rfl⟩ (compartments.length * 5)
    (hlength ▸ remaining_le _)
  refine ⟨tiers, ?_, hguarded, hend.imp_right fun hnone tier htier => ?_⟩
  · rw [renderDecayedCompartments]
    split
    · rename_i hempty
      rw [List.isEmpty_iff.mp hempty]
      rfl
    · dsimp only
      rw [hloop, List.map_zipWith]
      rfl
  · exact Nat.le_antisymm (hguarded.demotes.le hle tier htier) (le_of_remaining hnone tier htier)

end Guard

end MagicContext.Render
