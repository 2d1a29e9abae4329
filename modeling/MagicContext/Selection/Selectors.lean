import MagicContext.Doubles
import MagicContext.Selection.Reasoning

/-!
# The selectors

Each selector picks arcs out of the active ones: calls that later calls supersede, duplicates of
safe tools, a batch by age, and in an emergency as many as it takes.

## What is here

* `selectSupersession`, `selectToolDedup`, `selectTwoPass`, `selectEmergency`.
* `mem_of_selectTwoPass` and its like — a selector picks only arcs it was given.
-/

namespace MagicContext.Selection

open Historian (u64Max)

variable {F : Type} [WholeDouble F]

def todowriteKeep : Nat := 1

def ctxReduceKeep : Nat := 3

def zeroValueMetaTools : List String := ["bash_status", "bash_kill"]

def ctxNoteZeroValueActions : List String := ["read", "dismiss"]

def dedupSafeTools : List String :=
  ["mcp_grep", "mcp_read", "mcp_glob", "mcp_ast_grep_search", "mcp_lsp_diagnostics",
    "mcp_lsp_symbols", "mcp_lsp_find_references", "mcp_lsp_goto_definition",
    "mcp_lsp_prepare_rename"]

def editTools : List String := ["edit", "write"]

def filePathKeys : List String := ["filePath", "file_path", "path"]

def targetFraction : F := 0.30

def tierRecencyReserve : F := 0.20

def ageReclaimMinTokens : Nat := 250

def emergencyRearmMinTokens : F := 2000.0

def tokensPerByte : F := 0.25

def t1Tools : List String := ["read", "todowrite", "task", "aft_outline", "aft_zoom"]

def t2Tools : List String := ["edit", "write", "apply_patch", "grep", "glob", "aft_search"]

def isEditTool (name : String) : Bool := editTools.contains name

/-- The string under the first of the keys that has one. -/
def readInputStr (input : Json) (keys : List String) : Option String :=
  keys.findSome? fun key => input.stringField key

/-- The newest of each kind are kept as examples. -/
def newestCtxReduceArcIds (arcs : List ToolArc) : List String :=
  (((arcs.filter fun arc => arc.name == "ctx_reduce").insertionSort ToolArc.Newer).take
    ctxReduceKeep).map ToolArc.arcId

/-! ## Supersession -/

structure ArcIntent where
  editMarker : Bool

structure SupersessionScan where
  intents : SortedMap String ArcIntent := .empty
  todowriteSeen : Nat := 0
  seenFile : List String := []

/-- An arc, after those that are newer. -/
def SupersessionScan.visit (protectedCtxReduceArcs : List String) (scan : SupersessionScan)
    (arc : ToolArc) : SupersessionScan :=
  let scan :=
    if isEditTool arc.name then
      match arc.input.bind fun input => readInputStr input filePathKeys with
      | some file =>
        if scan.seenFile.contains file then
          { scan with
            intents := scan.intents.insert arc.arcId ((scan.intents.get arc.arcId).getD ⟨true⟩) }
        else { scan with seenFile := scan.seenFile ++ [file] }
      | none => scan
    else scan
  let todowriteSeen := if arc.name == "todowrite" then scan.todowriteSeen + 1
    else scan.todowriteSeen
  let isDropTarget :=
    if arc.name == "todowrite" then decide (todowriteKeep < todowriteSeen)
    else if arc.name == "ctx_reduce" then !protectedCtxReduceArcs.contains arc.arcId
    else if zeroValueMetaTools.contains arc.name then true
    else if arc.name == "ctx_note" then
      (arc.input.bind fun input => readInputStr input ["action"]).any fun action =>
        ctxNoteZeroValueActions.contains action
    else false
  { scan with
    todowriteSeen
    -- a drop wins over a marker
    intents := if isDropTarget then scan.intents.insert arc.arcId ⟨false⟩ else scan.intents }

def selectSupersession (arcs : List ToolArc) : SortedMap String ArcIntent :=
  ((arcs.insertionSort ToolArc.Newer).foldl
    (SupersessionScan.visit (newestCtxReduceArcIds arcs)) {}).intents

/-! ## Duplicates -/

/-- Earlier by the last result. -/
def ToolArc.ResultBefore (a b : ToolArc) : Prop :=
  a.dedupResultOrdinal < b.dedupResultOrdinal ∨
    (a.dedupResultOrdinal = b.dedupResultOrdinal ∧
      (a.dedupResultBlockIndex < b.dedupResultBlockIndex ∨
        (a.dedupResultBlockIndex = b.dedupResultBlockIndex ∧ a.arcId ≤ b.arcId)))

instance : DecidableRel ToolArc.ResultBefore := fun _ _ =>
  inferInstanceAs (Decidable (_ ∨ (_ ∧ (_ ∨ (_ ∧ _)))))

variable (tools : SelectionTools)

/-- What duplicates agree on, when the arc may be dropped as one. -/
def dedupFingerprint (ctx : SelectionContext F) (arc : ToolArc) : Option String :=
  match arc.ownerMessageId, arc.input with
  | some owner, some input =>
    if !dedupSafeTools.contains arc.dedupName || arc.resultIds.isEmpty ||
        arc.callInputs.any (fun call => ctx.blockIsProtected call.1) ||
        arc.resultIds.any ctx.blockIsProtected ||
        (decide (0 < ctx.protectedCutoffOrdinal) &&
          decide (ctx.protectedCutoffOrdinal < arc.ordinal)) then
      none
    else some (owner ++ ":" ++ arc.dedupName ++ ":" ++ tools.jsonText input)
  | _, _ => none

/-- All but the newest of each group. -/
def selectToolDedup (arcs : List ToolArc) (ctx : SelectionContext F) : List String :=
  let groups := arcs.foldl (fun (groups : SortedMap String (List ToolArc)) arc =>
    match dedupFingerprint tools ctx arc with
    | some fingerprint => groups.insert fingerprint ((groups.get fingerprint).getD [] ++ [arc])
    | none => groups) .empty
  groups.entries.flatMap fun entry =>
    if entry.2.length ≤ 1 then []
    else (entry.2.insertionSort ToolArc.ResultBefore).dropLast.map ToolArc.arcId

/-! ## Age -/

def twoPassBatchCanApply (ctx : SelectionContext F) : Bool :=
  ctx.schedulerPressureExecute && (ctx.passAlreadyBusting || ctx.passClass == .emergencyForce)

/-- The one that no other is behind; of several the last. -/
def newestArc (arcs : List ToolArc) : Option ToolArc :=
  arcs.foldl (fun newest arc =>
    match newest with
    | some best => if best.Older arc then some arc else some best
    | none => some arc) none

def selectTwoPass (arcs : List ToolArc) (ctx : SelectionContext F) : List String :=
  if !twoPassBatchCanApply ctx || ctx.lastExecuteOrdinal == 0 then []
  else
    let protectedCtxReduceArcs := newestCtxReduceArcIds arcs
    let newestTodowrite :=
      (newestArc (arcs.filter fun arc => arc.name == "todowrite")).map ToolArc.arcId
    ((((arcs.filter fun arc => decide (arc.ordinal ≤ ctx.lastExecuteOrdinal)).filter fun arc =>
      arc.reclaimTokens.all fun tokens => decide (ageReclaimMinTokens ≤ tokens)).filter fun arc =>
      decide (some arc.arcId ≠ newestTodowrite)).filter fun arc =>
      !protectedCtxReduceArcs.contains arc.arcId).map ToolArc.arcId

/-! ## Emergency -/

def resolveToolTier (name : String) : Nat :=
  let n := normalizeToolName tools name
  if t1Tools.contains n then 1 else if t2Tools.contains n then 2 else 3

def bytesToTokens (bytes : Nat) : F := Double.round (Double.ofNat bytes * tokensPerByte)

/-- What the live blocks come to, calls and results by arc. -/
def activeFloorTokens (items : List SelItem) (frozenKeys : List String) : F :=
  let counted := items.filter fun item =>
    !frozenKeys.contains item.id && item.messageRole != .system && item.kind != .opaqueBlock
  let tokens := (counted.filter fun item => item.arcId.isNone).foldl
    (fun (tokens : F) item => tokens + bytesToTokens item.byteSize) 0
  let toolTagBytes := groupBy SelItem.arcId (fun _ _ => 0)
    (fun bytes item => min (bytes + item.byteSize) u64Max) counted
  tokens + toolTagBytes.entries.foldl (fun (sum : F) entry => sum + bytesToTokens entry.2) 0

/-- The newest fifth of a tier, rounded up. -/
def tierReserve (F : Type) [WholeDouble F] (tools : SelectionTools) (arcs : List ToolArc)
    (tier : Nat) : List String :=
  let nums := arcs.filter fun arc => resolveToolTier tools arc.name == tier
  let reserveCount := WholeDouble.toU64
    (WholeDouble.ceil ((tierRecencyReserve : F) * Double.ofNat nums.length))
  ((nums.insertionSort ToolArc.Newer).take reserveCount).map ToolArc.arcId

/-- Takes arcs until enough is reclaimed. -/
def takeUntilReclaimed (reclaimTokens : F) : F → List ToolArc → List ToolArc
  | _, [] => []
  | reclaimed, arc :: arcs =>
    let reclaimed := reclaimed + bytesToTokens arc.reclaimBytes
    if reclaimTokens ≤ reclaimed then [arc]
    else arc :: takeUntilReclaimed reclaimTokens reclaimed arcs

def selectEmergency (arcs : List ToolArc) (ctx : SelectionContext F)
    (allActiveFloorTokens : F) : List String :=
  if !Double.isFinite ctx.ceilingTokens || decide (ctx.ceilingTokens ≤ 0) then []
  else if !Double.isFinite ctx.currentTotalInputTokens ||
      decide (ctx.currentTotalInputTokens ≤ 0) then []
  else if ctx.hasPriorDrop && Double.same ctx.currentTotalInputTokens ctx.priorInputSample then []
  else
    let fixedFloor :=
      Double.maximum (ctx.currentTotalInputTokens - allActiveFloorTokens) 0
    let workingSpan := Double.maximum (ctx.ceilingTokens - fixedFloor) 0
    let target := fixedFloor + targetFraction * workingSpan
    let reclaimTokens := Double.round (ctx.currentTotalInputTokens - target)
    if reclaimTokens ≤ emergencyRearmMinTokens then []
    else
      let reserved := tierReserve F tools arcs 1 ++ tierReserve F tools arcs 2
      let protectedCtxReduceArcs := newestCtxReduceArcIds arcs
      let candidates := arcs.filter fun arc =>
        let tier := resolveToolTier tools arc.name
        !(decide (ctx.protectedCutoffOrdinal < arc.ordinal) &&
            decide (0 < ctx.protectedCutoffOrdinal)) &&
          !protectedCtxReduceArcs.contains arc.arcId &&
          !((tier == 1 || tier == 2) && reserved.contains arc.arcId)
      let byTier := fun tier : Nat =>
        (candidates.filter fun arc => resolveToolTier tools arc.name == tier).insertionSort
          ToolArc.Older
      (takeUntilReclaimed reclaimTokens 0 (byTier 3 ++ byTier 2 ++ byTier 1)).map ToolArc.arcId

/-! ## What is picked -/

section
variable {arcs : List ToolArc} {ctx : SelectionContext F} {arcId : String}

omit [WholeDouble F] in
theorem mem_of_selectTwoPass (h : arcId ∈ selectTwoPass arcs ctx) :
    arcId ∈ arcs.map ToolArc.arcId := by
  rw [selectTwoPass] at h
  split at h
  · cases h
  · obtain ⟨arc, harc, rfl⟩ := List.mem_map.mp h
    simp only [List.mem_filter] at harc
    exact List.mem_map_of_mem harc.1.1.1.1

theorem takeUntilReclaimed_subset (reclaimTokens reclaimed : F) (arcs : List ToolArc) :
    takeUntilReclaimed reclaimTokens reclaimed arcs ⊆ arcs := by
  induction arcs generalizing reclaimed with
  | nil => exact List.Subset.refl _
  | cons arc arcs ih =>
    rw [takeUntilReclaimed]
    split
    · exact List.cons_subset_cons arc (List.nil_subset _)
    · exact List.cons_subset_cons arc (ih _)

theorem mem_of_selectEmergency {tools : SelectionTools} {floor : F}
    (h : arcId ∈ selectEmergency tools arcs ctx floor) : arcId ∈ arcs.map ToolArc.arcId := by
  rw [selectEmergency] at h
  split at h
  · cases h
  split at h
  · cases h
  split at h
  · cases h
  dsimp only at h
  split at h
  · cases h
  refine List.map_subset _ (List.Subset.trans (takeUntilReclaimed_subset _ _ _) ?_) h
  have htier : ∀ (l : List ToolArc) (p : ToolArc → Bool), l ⊆ arcs →
      (l.filter p).insertionSort ToolArc.Older ⊆ arcs := fun l p hl arc harc =>
    hl (List.mem_filter.mp ((List.perm_insertionSort _ _).mem_iff.mp harc)).1
  exact List.append_subset.mpr ⟨List.append_subset.mpr
    ⟨htier _ _ (List.filter_subset_self _), htier _ _ (List.filter_subset_self _)⟩,
    htier _ _ (List.filter_subset_self _)⟩

end

end MagicContext.Selection
