import Mathlib.Data.List.Nodup
import Mathlib.Logic.Relation
import MagicContext.Word

/-!
# Ancestry tests

Whether one commit is an ancestor of another is found by walking from the latter to its parents.
All tests on a repository share one graph of commits, in which each commit carries the number of the
last test that visited it; the numbers wrap around, and then all marks are cleared.  Commits whose
generation is lower than that of the wanted one are not walked past.

## What is here

* `Commit`, `Query`, `Walks` — the history, one test with what befalls it, and what tests share.
* `walk` and `testAncestryGraph`.
* `run_spec` — what the answers of any sequence of tests say.
-/

namespace MagicContext.Applicability

structure Commit (ι : Type) where
  parents : List ι
  /-- From the commit-graph, where there is one. -/
  generation : Option Nat

/-- `ANCESTRY_WALK_CAP`. -/
def ancestryWalkCap : Nat := 2 ^ 20

inductive Obstacle where
  | unreadable | exhausted | capped

/-- A test, with what the budget and the object database answer turn by turn. -/
structure Query (ι : Type) where
  ancestor : ι
  descendant : ι
  exhausted : Nat → Bool
  readable : Nat → ι → Bool

/-- What tests on a repository share: the marks of the commits in the graph, and the number of the
last test. -/
structure Walks (ι : Type) where
  graph : ι → Option Nat
  graphQuery : Nat

def Walks.fresh {ι : Type} : Walks ι := ⟨fun _ => none, 0⟩

variable {ι : Type}

/-! ## The walk -/

section Walk
variable [DecidableEq ι] (history : ι → Option (Commit ι))

/-- `get_or_insert_commit` of the graph library, as it documents it: the commit, with the mark it had,
and the graph with the mark changed.  Only a commit that is not in the graph yet is read. -/
def getOrInsertCommit (graph : ι → Option Nat) (readable : Bool) (id : ι) (update : Nat → Nat) :
    Option (Commit ι × Nat × (ι → Option Nat)) :=
  if (graph id).isSome || readable then
    (history id).map fun commit =>
      let mark := (graph id).getD 0
      (commit, mark, Function.update graph id (some (update mark)))
  else none

/-- The wanted commit cannot be behind one of a lower generation. -/
def prunes (generation ancestorGeneration : Option Nat) : Bool :=
  match generation, ancestorGeneration with
  | some generation, some ancestor => decide (generation < ancestor)
  | _, _ => false

/-- The loop of `test_ancestry_graph`, from a turn on. -/
def walk (q : Query ι) (query : Nat) (ancestorGeneration : Option Nat) (turn steps : Nat)
    (pending : List ι) (graph : ι → Option Nat) : Except Obstacle Bool × (ι → Option Nat) :=
  match pending with
  | [] => (.ok false, graph)
  | id :: pending =>
    if q.exhausted turn then (.error .exhausted, graph)
    else if ancestryWalkCap ≤ steps then (.error .capped, graph)
    else
      match getOrInsertCommit history graph (q.readable turn id) id fun _ => query with
      | none => (.error .unreadable, graph)
      | some (commit, mark, graph) =>
        if mark = query then walk q query ancestorGeneration (turn + 1) steps pending graph
        else if id = q.ancestor then (.ok true, graph)
        else if prunes commit.generation ancestorGeneration then
          walk q query ancestorGeneration (turn + 1) (steps + 1) pending graph
        else
          walk q query ancestorGeneration (turn + 1) (steps + 1) (pending ++ commit.parents) graph
termination_by (ancestryWalkCap - steps, pending.length)

/-- The number of the next test, and the graph it starts with. -/
def Walks.next (walks : Walks ι) (graph : ι → Option Nat) : Nat × (ι → Option Nat) :=
  let query := Word.wrappingAdd walks.graphQuery 1
  if query = 0 then (1, fun id => (graph id).map fun _ => 0) else (query, graph)

/-- `test_ancestry_graph`, with the reason for no answer. -/
def testAncestryGraph (walks : Walks ι) (q : Query ι) : Except Obstacle Bool × Walks ι :=
  match getOrInsertCommit history walks.graph (q.readable 0 q.ancestor) q.ancestor id with
  | none => (.error .unreadable, walks)
  | some (ancestor, _, graph) =>
    let (query, graph) := walks.next graph
    let (answer, graph) := walk history q query ancestor.generation 1 0 [q.descendant] graph
    (answer, { graph, graphQuery := query })

/-- The answers of tests that are made one after the other. -/
def run (walks : Walks ι) : List (Query ι) → List (Except Obstacle Bool)
  | [] => []
  | q :: queries =>
    let (answer, walks) := testAncestryGraph history walks q
    answer :: run walks queries

end Walk

/-! ## Ancestry -/

variable {q : Query ι} {query steps : Nat} {graph : ι → Option Nat} {v : ι}

section Ancestry
variable {history : ι → Option (Commit ι)}

/-- The second commit is a parent of the first. -/
def Parent (history : ι → Option (Commit ι)) (v w : ι) : Prop :=
  ∃ commit, history v = some commit ∧ w ∈ commit.parents

/-- The second commit is the first or an ancestor of it. -/
abbrev Reaches (history : ι → Option (Commit ι)) : ι → ι → Prop :=
  Relation.ReflTransGen (Parent history)

def generationOf (history : ι → Option (Commit ι)) (v : ι) : Option Nat :=
  (history v).bind fun commit => commit.generation

/-- Generations increase along ancestry, between commits that have one. -/
def GenerationsIncrease (history : ι → Option (Commit ι)) : Prop :=
  ∀ v w, Relation.TransGen (Parent history) v w → ∀ g g', generationOf history v = some g →
    generationOf history w = some g' → g' < g

/-- What is walked past has the wanted commit behind it when it is there at all. -/
theorem not_reaches_of_prunes (hincrease : GenerationsIncrease history) {v ancestor : ι}
    (hne : v ≠ ancestor)
    (h : prunes (generationOf history v) (generationOf history ancestor) = true) :
    ¬ Reaches history v ancestor := by
  intro hreaches
  rcases Relation.reflTransGen_iff_eq_or_transGen.mp hreaches with heq | hbehind
  · exact hne heq.symm
  · cases hg : generationOf history v with
    | none => cases hg ▸ h
    | some g =>
      cases hg' : generationOf history ancestor with
      | none => cases hg ▸ hg' ▸ h
      | some g' =>
        rw [hg, hg', prunes, decide_eq_true_eq] at h
        exact Nat.lt_asymm h (hincrease v ancestor hbehind g g' hg hg')

/-! ## What the walk keeps -/

/-- How far a walk has come: which commits are marked, and what is behind them. -/
structure WalkInv (history : ι → Option (Commit ι)) (q : Query ι) (query steps : Nat)
    (pending : List ι) (graph : ι → Option Nat) : Prop where
  descendant : graph q.descendant = some query ∨ q.descendant ∈ pending
  reached : ∀ v, graph v = some query ∨ v ∈ pending → Reaches history q.descendant v
  passed : ∀ v, graph v = some query → v ≠ q.ancestor ∧
    (prunes (generationOf history v) (generationOf history q.ancestor) = true ∨
      ∀ w, Parent history v w → graph w = some query ∨ w ∈ pending)
  counted : ∃ visited : List ι, visited.Nodup ∧ visited.length = steps ∧
    ∀ v ∈ visited, graph v = some query
  marks : ∀ v mark, graph v = some mark → mark ≤ query ∧ (history v).isSome

/-- **When nothing is left to be walked, the wanted commit is not behind the first one.** -/
theorem WalkInv.not_reaches (hincrease : GenerationsIncrease history)
    (h : WalkInv history q query steps [] graph) : ¬ Reaches history q.descendant q.ancestor := by
  intro hreaches
  have hmarked : ∀ v, Reaches history q.descendant v → Reaches history v q.ancestor →
      graph v = some query := by
    intro v hv
    induction hv with
    | refl => exact fun _ => h.descendant.resolve_right List.not_mem_nil
    | @tail v w _ hparent ih =>
      intro hw
      obtain ⟨hne, hpassed⟩ := h.passed v (ih (.head hparent hw))
      rcases hpassed with hprunes | hparents
      · exact absurd (.head hparent hw) (not_reaches_of_prunes hincrease hne hprunes)
      · exact (hparents w hparent).resolve_right List.not_mem_nil
  exact (h.passed q.ancestor (hmarked q.ancestor hreaches .refl)).1 rfl

/-- A commit that was marked before is dropped. -/
theorem WalkInv.skip {pending : List ι} (h : WalkInv history q query steps (v :: pending) graph)
    (hmark : graph v = some query) : WalkInv history q query steps pending graph := by
  have hdrop : ∀ {w}, graph w = some query ∨ w ∈ v :: pending →
      graph w = some query ∨ w ∈ pending := by
    rintro w (hw | hw)
    · exact .inl hw
    · rcases List.mem_cons.mp hw with rfl | hw
      · exact .inl hmark
      · exact .inr hw
  refine ⟨hdrop h.descendant, fun w hw => h.reached w (hw.imp_right (List.mem_cons_of_mem v)),
    fun w hw => ⟨(h.passed w hw).1, (h.passed w hw).2.imp_right fun hparents u hu =>
      hdrop (hparents u hu)⟩, h.counted, h.marks⟩

/-- No commit carries the number of a test that is still to come. -/
structure WalksInv (history : ι → Option (Commit ι)) (walks : Walks ι) : Prop where
  bounded : walks.graphQuery < Word.u64Limit
  marks : ∀ v mark, walks.graph v = some mark → mark ≤ walks.graphQuery ∧ (history v).isSome

theorem walksInv_fresh : WalksInv history Walks.fresh :=
  ⟨Nat.two_pow_pos 64, nofun⟩

/-- A test starts with a number that no commit carries. -/
theorem next_spec {walks : Walks ι} (hbounded : walks.graphQuery < Word.u64Limit)
    (hmarks : ∀ v mark, graph v = some mark → mark ≤ walks.graphQuery ∧ (history v).isSome) :
    0 < (walks.next graph).1 ∧ (walks.next graph).1 < Word.u64Limit ∧
      ∀ v mark, (walks.next graph).2 v = some mark →
        mark < (walks.next graph).1 ∧ (history v).isSome := by
  rw [Walks.next, Word.wrappingAdd]
  split
  · refine ⟨Nat.one_pos, Nat.one_lt_two_pow (by decide), fun v mark hmark => ?_⟩
    obtain ⟨mark', hmark', rfl⟩ := Option.map_eq_some_iff.mp hmark
    exact ⟨Nat.one_pos, (hmarks v mark' hmark').2⟩
  · rename_i hwrapped
    have hlt : walks.graphQuery + 1 < Word.u64Limit := by
      refine Nat.lt_of_le_of_ne hbounded fun heq => hwrapped ?_
      rw [heq, Nat.mod_self]
    rw [Nat.mod_eq_of_lt hlt]
    refine ⟨Nat.succ_pos _, hlt, fun v mark hmark => ?_⟩
    exact ⟨Nat.lt_succ_of_le (hmarks v mark hmark).1, (hmarks v mark hmark).2⟩

end Ancestry

/-! ## What the walk finds -/

section Found
variable [DecidableEq ι] {history : ι → Option (Commit ι)}

theorem getOrInsertCommit_eq_some {graph graph' : ι → Option Nat} {readable : Bool}
    {update : Nat → Nat} {commit : Commit ι} {mark : Nat}
    (h : getOrInsertCommit history graph readable v update = some (commit, mark, graph')) :
    history v = some commit ∧ mark = (graph v).getD 0 ∧
      graph' = Function.update graph v (some (update mark)) := by
  rw [getOrInsertCommit] at h
  split at h
  · obtain ⟨commit', hcommit, hresult⟩ := Option.map_eq_some_iff.mp h
    cases hresult
    exact ⟨hcommit, rfl, rfl⟩
  · cases h

theorem getOrInsertCommit_eq_none {readable : Bool} {update : Nat → Nat}
    (h : getOrInsertCommit history graph readable v update = none) :
    history v = none ∨ readable = false := by
  rw [getOrInsertCommit] at h
  split at h
  · exact .inl (Option.map_eq_none_iff.mp h)
  · rename_i hnot
    rw [Bool.or_eq_true, not_or, Bool.not_eq_true, Bool.not_eq_true] at hnot
    exact .inr hnot.2

/-- The marks of a graph when a commit has been marked. -/
theorem marks_update {commit : Commit ι}
    (h : ∀ w mark, graph w = some mark → mark ≤ query ∧ (history w).isSome)
    (hcommit : history v = some commit) (w : ι) (mark : Nat)
    (hmark : Function.update graph v (some query) w = some mark) :
    mark ≤ query ∧ (history w).isSome := by
  by_cases hw : w = v
  · rw [hw, Function.update_self] at hmark
    rw [← Option.some_inj.mp hmark, hw, hcommit]
    exact ⟨Nat.le_refl _, rfl⟩
  · rw [Function.update_of_ne hw] at hmark
    exact h w mark hmark

/-- A commit is marked; its parents are still to be walked unless it is walked past. -/
theorem WalkInv.visit {pending later : List ι} {commit : Commit ι}
    (h : WalkInv history q query steps (v :: pending) graph) (hcommit : history v = some commit)
    (hnew : graph v ≠ some query) (hne : v ≠ q.ancestor)
    (hlater : prunes commit.generation (generationOf history q.ancestor) = true ∧ later = [] ∨
      later = commit.parents) : WalkInv history q query (steps + 1) (pending ++ later)
      (Function.update graph v (some query)) := by
  have hmarked : ∀ {w}, Function.update graph v (some query) w = some query ↔
      w = v ∨ graph w = some query := by
    intro w
    by_cases hw : w = v
    · rw [hw, Function.update_self]
      exact ⟨fun _ => .inl rfl, fun _ => rfl⟩
    · rw [Function.update_of_ne hw]
      exact ⟨.inr, fun h => h.resolve_left hw⟩
  have hcarry : ∀ {w}, graph w = some query ∨ w ∈ v :: pending →
      Function.update graph v (some query) w = some query ∨ w ∈ pending ++ later := by
    rintro w (hw | hw)
    · exact .inl (hmarked.mpr (.inr hw))
    · rcases List.mem_cons.mp hw with rfl | hw
      · exact .inl (hmarked.mpr (.inl rfl))
      · exact .inr (List.mem_append_left _ hw)
  have hreached := h.reached v (.inr (List.mem_cons_self ..))
  refine ⟨hcarry h.descendant, fun w hw => ?_, fun w hw => ?_, ?_, marks_update h.marks hcommit⟩
  · rcases hw with hw | hw
    · rcases hmarked.mp hw with rfl | hw
      · exact hreached
      · exact h.reached w (.inl hw)
    · rcases List.mem_append.mp hw with hw | hw
      · exact h.reached w (.inr (List.mem_cons_of_mem v hw))
      · rcases hlater with ⟨-, hnil⟩ | hparents
        · rw [hnil] at hw
          cases hw
        · exact hreached.tail ⟨commit, hcommit, hparents ▸ hw⟩
  · rcases hmarked.mp hw with rfl | hw
    · refine ⟨hne, hlater.imp (fun hprunes => ?_) fun hparents u hu => .inr ?_⟩
      · rw [generationOf, hcommit]
        exact hprunes.1
      · obtain ⟨commit', hcommit', hu⟩ := hu
        cases hcommit.symm.trans hcommit'
        exact List.mem_append_right _ (hparents ▸ hu)
    · obtain ⟨hne', hpassed⟩ := h.passed w hw
      exact ⟨hne', hpassed.imp_right fun hparents u hu => hcarry (hparents u hu)⟩
  · obtain ⟨visited, hnodup, hlength, hvisited⟩ := h.counted
    refine ⟨v :: visited, List.nodup_cons.mpr ⟨fun hmem => hnew (hvisited v hmem), hnodup⟩,
      congrArg Nat.succ hlength, fun w hw => hmarked.mpr ?_⟩
    exact (List.mem_cons.mp hw).imp_right (hvisited w)

/-- What an answer says, or the lack of one. -/
def Explains (history : ι → Option (Commit ι)) (q : Query ι) : Except Obstacle Bool → Prop
  | .ok reachable => reachable = true ↔ Reaches history q.descendant q.ancestor
  | .error .unreadable => ∃ v turn, (v = q.ancestor ∨ Reaches history q.descendant v) ∧
      (history v = none ∨ q.readable turn v = false)
  | .error .exhausted => ∃ turn, q.exhausted turn = true
  | .error .capped => ∃ visited : List ι, visited.Nodup ∧ visited.length = ancestryWalkCap ∧
      ∀ v ∈ visited, Reaches history q.descendant v

/-- **The walk answers what is so, or meets an obstacle there is.** -/
theorem walk_spec (hincrease : GenerationsIncrease history) {pending : List ι}
    (hquery : 0 < query) (turn : Nat) (h : WalkInv history q query steps pending graph)
    (hcap : steps ≤ ancestryWalkCap) :
    Explains history q
        (walk history q query (generationOf history q.ancestor) turn steps pending graph).1 ∧
      ∀ v mark,
        (walk history q query (generationOf history q.ancestor) turn steps pending graph).2 v =
          some mark → mark ≤ query ∧ (history v).isSome := by
  fun_induction walk history q query (generationOf history q.ancestor) turn steps pending graph with
  | case1 turn steps graph =>
    exact ⟨⟨nofun, fun hreaches => absurd hreaches (h.not_reaches hincrease)⟩, h.marks⟩
  | case2 turn steps graph v pending hexhausted => exact ⟨⟨turn, hexhausted⟩, h.marks⟩
  | case3 turn steps graph v pending _ hcapped =>
    obtain ⟨visited, hnodup, hlength, hvisited⟩ := h.counted
    refine ⟨⟨visited, hnodup, hlength.trans (Nat.le_antisymm hcap hcapped), fun w hw => ?_⟩,
      h.marks⟩
    exact h.reached w (.inl (hvisited w hw))
  | case4 turn steps graph v pending _ _ hnone =>
    refine ⟨⟨v, turn, .inr (h.reached v (.inr (List.mem_cons_self ..))), ?_⟩, h.marks⟩
    exact getOrInsertCommit_eq_none hnone
  | case5 turn steps graph v pending _ _ commit graph' hsome ih =>
    obtain ⟨-, hmark, hgraph⟩ := getOrInsertCommit_eq_some hsome
    have hseen : graph v = some query := by
      cases hv : graph v with
      | none =>
        rw [hv, Option.getD_none] at hmark
        exact absurd hquery (hmark ▸ Nat.lt_irrefl 0)
      | some mark =>
        rw [hv, Option.getD_some] at hmark
        rw [hmark]
    have hsame : graph' = graph := by rw [hgraph, ← hseen, Function.update_eq_self]
    rw [hsame] at ih ⊢
    exact ih (h.skip hseen) hcap
  | case6 turn steps graph pending _ _ commit mark graph' hnew hsome =>
    obtain ⟨hcommit, -, hgraph⟩ := getOrInsertCommit_eq_some hsome
    refine ⟨⟨fun _ => h.reached q.ancestor (.inr (List.mem_cons_self ..)), fun _ => rfl⟩, ?_⟩
    rw [hgraph]
    exact marks_update h.marks hcommit
  | case7 turn steps graph v pending _ hcapped commit mark graph' hsome hnew hne hprunes ih =>
    obtain ⟨hcommit, hmark, hgraph⟩ := getOrInsertCommit_eq_some hsome
    have hvisit := h.visit hcommit (fun hseen => hnew (hmark.trans (hseen ▸ rfl))) hne
      (.inl ⟨hprunes, rfl⟩)
    rw [List.append_nil, ← hgraph] at hvisit
    exact ih hvisit (Nat.lt_of_not_le hcapped)
  | case8 turn steps graph v pending _ hcapped commit mark graph' hsome hnew hne _ ih =>
    obtain ⟨hcommit, hmark, hgraph⟩ := getOrInsertCommit_eq_some hsome
    have hvisit := h.visit hcommit (fun hseen => hnew (hmark.trans (hseen ▸ rfl))) hne (.inr rfl)
    rw [← hgraph] at hvisit
    exact ih hvisit (Nat.lt_of_not_le hcapped)

/-! ## Tests that share a graph -/

theorem testAncestryGraph_spec (hincrease : GenerationsIncrease history) {walks : Walks ι}
    (h : WalksInv history walks) (q : Query ι) :
    Explains history q (testAncestryGraph history walks q).1 ∧
      WalksInv history (testAncestryGraph history walks q).2 := by
  rw [testAncestryGraph]
  split
  · rename_i hnone
    exact ⟨⟨q.ancestor, 0, .inl rfl, getOrInsertCommit_eq_none hnone⟩, h⟩
  · rename_i ancestor mark graph hsome
    obtain ⟨hcommit, rfl, hgraph⟩ := getOrInsertCommit_eq_some hsome
    have hmark : id ((walks.graph q.ancestor).getD 0) ≤ walks.graphQuery := by
      cases hv : walks.graph q.ancestor with
      | none => exact Nat.zero_le _
      | some mark => exact (h.marks _ mark hv).1
    have hmarks : ∀ v mark, graph v = some mark → mark ≤ walks.graphQuery ∧ (history v).isSome := by
      intro v mark hv
      rw [hgraph] at hv
      by_cases hva : v = q.ancestor
      · rw [hva, Function.update_self] at hv
        rw [hva, hcommit, ← Option.some_inj.mp hv]
        exact ⟨hmark, rfl⟩
      · rw [Function.update_of_ne hva] at hv
        exact h.marks v mark hv
    obtain ⟨hpos, hlt, hnew⟩ := next_spec h.bounded hmarks
    have hgeneration : ancestor.generation = generationOf history q.ancestor := by
      rw [generationOf, hcommit]
      rfl
    have hunseen : ∀ v, (walks.next graph).2 v ≠ some (walks.next graph).1 :=
      fun v hv => Nat.lt_irrefl _ (hnew v _ hv).1
    have hstart : WalkInv history q (walks.next graph).1 0 [q.descendant] (walks.next graph).2 := by
      refine ⟨.inr (List.mem_singleton.mpr rfl), fun v hv => ?_,
        fun v hv => absurd hv (hunseen v), ⟨[], List.nodup_nil, rfl, nofun⟩,
        fun v mark hv => ⟨Nat.le_of_lt (hnew v mark hv).1, (hnew v mark hv).2⟩⟩
      rw [List.mem_singleton.mp (hv.resolve_left (hunseen v))]
    obtain ⟨hexplains, hmarks'⟩ := walk_spec hincrease hpos 1 hstart (Nat.zero_le _)
    rw [← hgeneration] at hexplains hmarks'
    exact ⟨hexplains, hlt, hmarks'⟩

theorem run_explains (hincrease : GenerationsIncrease history) {walks : Walks ι}
    (h : WalksInv history walks) (queries : List (Query ι)) :
    List.Forall₂ (Explains history) queries (run history walks queries) := by
  induction queries generalizing walks with
  | nil => exact .nil
  | cons q queries ih =>
    obtain ⟨hexplains, hinv⟩ := testAncestryGraph_spec hincrease h q
    exact .cons hexplains (ih hinv)

/-- **Where generations increase along ancestry, each of any sequence of tests says what is so, or
says nothing because a commit could not be read, the budget was exhausted or as many commits were
walked as may be.** -/
theorem run_spec (hincrease : GenerationsIncrease history) (queries : List (Query ι)) :
    List.Forall₂ (Explains history) queries (run history Walks.fresh queries) :=
  run_explains hincrease walksInv_fresh queries

end Found

/-! ### A history of three commits -/

/-- Each commit is a child of the one before; the last one and the first one have generations. -/
def threeCommits (first last : Nat) : Nat → Option (Commit Nat)
  | 0 => some ⟨[], some first⟩
  | 1 => some ⟨[0], none⟩
  | 2 => some ⟨[1], some last⟩
  | _ => none

/-- Whether the first commit is an ancestor of the last. -/
def firstOfLast : Query Nat where
  ancestor := 0
  descendant := 2
  exhausted _ := false
  readable _ _ := true

theorem parent_threeCommits {first last v w : Nat} :
    Parent (threeCommits first last) v w ↔ v = 1 ∧ w = 0 ∨ v = 2 ∧ w = 1 := by
  constructor
  · rintro ⟨commit, hcommit, hw⟩
    rcases v with _ | _ | _ | v
    · cases hcommit
      cases hw
    · cases hcommit
      exact .inl ⟨rfl, List.mem_singleton.mp hw⟩
    · cases hcommit
      exact .inr ⟨rfl, List.mem_singleton.mp hw⟩
    · cases hcommit
  · rintro (⟨rfl, rfl⟩ | ⟨rfl, rfl⟩)
    · exact ⟨_, rfl, List.mem_singleton.mpr rfl⟩
    · exact ⟨_, rfl, List.mem_singleton.mpr rfl⟩

theorem run_spec_threeCommits :
    GenerationsIncrease (threeCommits 1 5) ∧
      List.Forall₂ (Explains (threeCommits 1 5)) [firstOfLast, firstOfLast]
        (run (threeCommits 1 5) Walks.fresh [firstOfLast, firstOfLast]) := by
  have hincrease : GenerationsIncrease (threeCommits 1 5) := by
    intro v w h g g' hg hg'
    have hlt : w < v := by
      clear hg hg'
      induction h with
      | single hparent =>
        have := parent_threeCommits.mp hparent
        omega
      | tail _ hparent ih =>
        have := parent_threeCommits.mp hparent
        omega
    rcases v with _ | _ | _ | v
    · exact absurd hlt (Nat.not_lt_zero w)
    · cases hg
    · rcases w with _ | _ | w
      · cases hg
        cases hg'
        decide
      · cases hg'
      · omega
    · cases hg
  exact ⟨hincrease, run_spec hincrease _⟩

/-- **Generations that increase from parent to child are not enough: behind a commit that has none
there can be one that has a greater one.**  No commit-graph gives such a history: the parents of a
commit that has a generation have one there. -/
theorem pruned_ancestor :
    ¬ ∀ history : Nat → Option (Commit Nat),
      (∀ v w, Parent history v w → ∀ g g', generationOf history v = some g →
        generationOf history w = some g' → g' < g) →
      ∀ queries, List.Forall₂ (Explains history) queries (run history Walks.fresh queries) := by
  intro h
  have hincrease : ∀ v w, Parent (threeCommits 10 5) v w → ∀ g g',
      generationOf (threeCommits 10 5) v = some g →
        generationOf (threeCommits 10 5) w = some g' → g' < g := by
    intro v w hparent g g' hg hg'
    rcases parent_threeCommits.mp hparent with ⟨rfl, rfl⟩ | ⟨rfl, rfl⟩
    · cases hg
    · cases hg'
  have hreaches : Reaches (threeCommits 10 5) 2 0 :=
    .head (parent_threeCommits.mpr (.inr ⟨rfl, rfl⟩))
      (.single (parent_threeCommits.mpr (.inl ⟨rfl, rfl⟩)))
  have hrun : run (threeCommits 10 5) Walks.fresh [firstOfLast] = [.ok false] := by
    simp [run, testAncestryGraph, getOrInsertCommit, firstOfLast, threeCommits, Walks.fresh,
      Walks.next, Word.wrappingAdd, Word.u64Limit, walk, prunes, ancestryWalkCap]
  have hexplains := h (threeCommits 10 5) hincrease [firstOfLast]
  rw [hrun] at hexplains
  cases hexplains with
  | cons hfirst _ => exact Bool.false_ne_true (hfirst.mpr hreaches)

end MagicContext.Applicability
