import Mathlib.Data.List.SplitBy
import MagicContext.Selection.Drops

/-!
# The messages between two assistants

The check for arcs whose results keep two assistants apart goes by the indexes of the messages.  For
the blocks of a transcript it says the same by the ordinals: an arc is found when everything between
two messages is a call or a result of it, one of them in a message of results.

## What is here

* `Transcript` — a tail whose blocks make up messages in order.
* `Describes`, `ordered_adjacencyMessages` — the messages of a transcript.
* `mem_consecutiveRuns` — a stretch between two other messages is one run.
* `mem_collapseArcIds` — **the arcs that are found**.
-/

namespace MagicContext.Selection

open AdjacencyMessageShape

/-- The blocks of messages with one role each, and with an ordinal each that no other has. -/
structure Transcript extends Tail where
  named : ∀ item ∈ items, (itemMessageId item).isSome = true
  together : ∀ a ∈ items, ∀ b ∈ items, itemMessageId a = itemMessageId b →
    a.ordinal = b.ordinal ∧ a.messageRole = b.messageRole
  separate : ∀ a ∈ items, ∀ b ∈ items, a.ordinal = b.ordinal → itemMessageId a = itemMessageId b

/-! ## The messages of a transcript -/

section
variable (message : AdjacencyMessageShape) (l : List SelItem)

theorem mid_foldl_absorb : (l.foldl absorb message).mid = message.mid := by
  induction l generalizing message with
  | nil => rfl
  | cons item l ih => exact ih _

theorem role_foldl_absorb : (l.foldl absorb message).role = message.role := by
  induction l generalizing message with
  | nil => rfl
  | cons item l ih => exact ih _

theorem items_foldl_absorb : (l.foldl absorb message).items = message.items ++ l := by
  induction l generalizing message with
  | nil => exact (List.append_nil _).symm
  | cons item l ih =>
    rw [List.foldl_cons, ih]
    exact List.append_assoc _ _ _

theorem hasReasoning_foldl_absorb :
    (l.foldl absorb message).hasReasoning =
      (message.hasReasoning || l.any SelItem.isReasoning) := by
  induction l generalizing message with
  | nil => exact (Bool.or_false _).symm
  | cons item l ih =>
    rw [List.foldl_cons, ih, List.any_cons, ← Bool.or_assoc]
    rfl

theorem ordinal_foldl_absorb (h : ∀ item ∈ l, item.ordinal = message.ordinal) :
    (l.foldl absorb message).ordinal = message.ordinal := by
  induction l generalizing message with
  | nil => rfl
  | cons item l ih =>
    obtain ⟨hitem, hl⟩ := List.forall_mem_cons.mp h
    have hordinal : (message.absorb item).ordinal = message.ordinal := by
      change min message.ordinal item.ordinal = message.ordinal
      rw [hitem, Nat.min_self]
    rw [List.foldl_cons, ih _ fun other hother => (hl other hother).trans hordinal.symm, hordinal]

end

/-- What a message says of its blocks. -/
structure Describes (items : List SelItem) (message : AdjacencyMessageShape) : Prop where
  blocks : ∀ item, item ∈ message.items ↔ item ∈ items ∧ itemMessageId item = some message.mid
  nonempty : message.items ≠ []
  ordinal : ∀ item ∈ message.items, item.ordinal = message.ordinal
  role : ∀ item ∈ message.items, item.messageRole = message.role
  reasoning : message.hasReasoning = message.items.any SelItem.isReasoning

section
variable {t : Transcript} {message : AdjacencyMessageShape}

/-- A message is what its blocks make of it. -/
theorem mem_adjacencyMessages {items : List SelItem} : message ∈ adjacencyMessages items ↔
    ∃ first, (keyed itemMessageId message.mid items).head? = some first ∧
      (keyed itemMessageId message.mid items).foldl absorb
        { mid := message.mid, ordinal := first.ordinal, role := first.messageRole } = message := by
  rw [adjacencyMessages, (List.perm_insertionSort _ _).mem_iff, List.mem_map]
  constructor
  · rintro ⟨⟨mid, message⟩, hentry, rfl⟩
    rw [← SortedMap.get_eq_some, get_groupBy, Option.map_eq_some_iff] at hentry
    obtain ⟨first, hfirst, rfl⟩ := hentry
    rw [mid_foldl_absorb]
    exact ⟨first, hfirst, rfl⟩
  · rintro ⟨first, hfirst, hmessage⟩
    refine ⟨(message.mid, message), ?_, rfl⟩
    rw [← SortedMap.get_eq_some, get_groupBy, Option.map_eq_some_iff]
    exact ⟨first, hfirst, hmessage⟩

theorem describes_of_mem (h : message ∈ adjacencyMessages t.items) : Describes t.items message := by
  obtain ⟨first, hfirst, hmessage⟩ := mem_adjacencyMessages.mp h
  have hmem : ∀ item ∈ keyed itemMessageId message.mid t.items,
      item ∈ t.items ∧ itemMessageId item = some message.mid := fun _ => mem_keyed.mp
  obtain ⟨hfirstMem, hfirstMid⟩ := hmem first (List.mem_of_mem_head? hfirst)
  have hsame : ∀ item ∈ keyed itemMessageId message.mid t.items,
      item.ordinal = first.ordinal ∧ item.messageRole = first.messageRole := fun item hitem =>
    t.together item (hmem item hitem).1 first hfirstMem ((hmem item hitem).2.trans hfirstMid.symm)
  have hitems : message.items = keyed itemMessageId message.mid t.items := by
    rw [← hmessage, items_foldl_absorb, mid_foldl_absorb]
    rfl
  have hordinal : message.ordinal = first.ordinal := by
    rw [← hmessage, ordinal_foldl_absorb _ _ fun item hitem => (hsame item hitem).1]
  have hrole : message.role = first.messageRole := by
    rw [← hmessage, role_foldl_absorb]
  refine ⟨fun item => ?_, ?_, fun item hitem => ?_, fun item hitem => ?_, ?_⟩
  · rw [hitems]
    exact mem_keyed
  · rw [hitems]
    exact List.ne_nil_of_mem (List.mem_of_mem_head? hfirst)
  · rw [hitems] at hitem
    rw [hordinal, (hsame item hitem).1]
  · rw [hitems] at hitem
    rw [hrole, (hsame item hitem).2]
  · rw [hitems, ← hmessage, hasReasoning_foldl_absorb, mid_foldl_absorb, Bool.false_or]

/-- Every block is in a message. -/
theorem exists_message {item : SelItem} (h : item ∈ t.items) :
    ∃ message ∈ adjacencyMessages t.items, item ∈ message.items := by
  obtain ⟨mid, hmid⟩ := Option.isSome_iff_exists.mp (t.named item h)
  have hkeyed : item ∈ keyed itemMessageId mid t.items := mem_keyed.mpr ⟨h, hmid⟩
  obtain ⟨first, rest, hitems⟩ := List.exists_cons_of_ne_nil (List.ne_nil_of_mem hkeyed)
  let message := (keyed itemMessageId mid t.items).foldl absorb
    { mid, ordinal := first.ordinal, role := first.messageRole }
  have hmessageMid : message.mid = mid := mid_foldl_absorb _ _
  refine ⟨message, mem_adjacencyMessages.mpr ⟨first, ?_, ?_⟩, ?_⟩
  · rw [hmessageMid, hitems, List.head?_cons]
  · rw [hmessageMid]
  · rw [items_foldl_absorb]
    exact hkeyed

theorem before_total : Std.Total Before :=
  ⟨fun a b => by
    rcases Nat.lt_trichotomy a.ordinal b.ordinal with h | h | h
    · exact .inl (.inl h)
    · rcases le_total a.mid b.mid with hmid | hmid
      · exact .inl (.inr ⟨h, hmid⟩)
      · exact .inr (.inr ⟨h.symm, hmid⟩)
    · exact .inr (.inl h)⟩

theorem before_trans : IsTrans AdjacencyMessageShape Before :=
  ⟨fun a b c => by
    rintro (hab | ⟨hab, hmid⟩) (hbc | ⟨hbc, hmid'⟩)
    · exact .inl (hab.trans hbc)
    · exact .inl (hbc ▸ hab)
    · exact .inl (hab ▸ hbc)
    · exact .inr ⟨hab.trans hbc, hmid.trans hmid'⟩⟩

/-- **The messages are in the order of their ordinals.** -/
theorem ordered_adjacencyMessages (t : Transcript) :
    (adjacencyMessages t.items).Pairwise fun a b => a.ordinal < b.ordinal := by
  have hsorted : (adjacencyMessages t.items).Pairwise Before := by
    have := before_total
    have := before_trans
    exact List.pairwise_insertionSort _ _
  have hmids : ((adjacencyMessages t.items).map mid).Nodup := by
    rw [adjacencyMessages]
    refine ((List.perm_insertionSort _ _).map _).nodup_iff.mpr ?_
    rw [List.map_map]
    have hkeys := (groupBy itemMessageId
      (fun mid item => ({ mid, ordinal := item.ordinal, role := item.messageRole } :
        AdjacencyMessageShape)) absorb t.items).nodup_keys
    rw [SortedMap.keys] at hkeys
    refine (List.map_congr_left fun entry hentry => ?_) ▸ hkeys
    rw [← SortedMap.get_eq_some, get_groupBy, Option.map_eq_some_iff] at hentry
    obtain ⟨first, -, hentry⟩ := hentry
    rw [Function.comp_apply, ← hentry, mid_foldl_absorb]
  refine ((List.pairwise_map.mp hmids).and hsorted).imp_of_mem ?_
  rintro a b ha hb ⟨hne, hbefore⟩
  rcases hbefore with hlt | ⟨heq, -⟩
  · exact hlt
  · -- messages with one ordinal are one message
    have hda := describes_of_mem ha
    have hdb := describes_of_mem hb
    obtain ⟨x, hx⟩ := List.exists_mem_of_ne_nil _ hda.nonempty
    obtain ⟨y, hy⟩ := List.exists_mem_of_ne_nil _ hdb.nonempty
    have hxMem := (hda.blocks x).mp hx
    have hyMem := (hdb.blocks y).mp hy
    have hmid := t.separate x hxMem.1 y hyMem.1
      ((hda.ordinal x hx).trans (heq.trans (hdb.ordinal y hy).symm))
    rw [hxMem.2, hyMem.2] at hmid
    exact absurd (Option.some.inj hmid) hne

end

/-! ## Runs of messages -/

/-- The indexes of the messages that the removal of the arc alone removes. -/
def removableIndexes (arcId : String) (messages : List AdjacencyMessageShape) (start : Nat) :
    List Nat :=
  (keyed (fun entry => entry.1.fullyRemovedByArc) arcId (messages.zipIdx start)).map Prod.snd

variable {arcId : String} {messages : List AdjacencyMessageShape}

theorem get_removableByArc (h : removableIndexes arcId messages 0 ≠ []) :
    (removableByArc messages).get arcId = some (removableIndexes arcId messages 0) := by
  have hne : keyed (fun entry : AdjacencyMessageShape × Nat => entry.1.fullyRemovedByArc) arcId
      messages.zipIdx ≠ [] := fun hnil => h (by rw [removableIndexes, hnil]; rfl)
  obtain ⟨first, rest, hentries⟩ := List.exists_cons_of_ne_nil hne
  rw [removableByArc, get_groupBy, foldl_push, List.nil_append, removableIndexes, hentries]
  rfl

theorem removableIndexes_append (arcId : String) (messages more : List AdjacencyMessageShape)
    (start : Nat) : removableIndexes arcId (messages ++ more) start =
      removableIndexes arcId messages start ++
        removableIndexes arcId more (start + messages.length) := by
  rw [removableIndexes, List.zipIdx_append, keyed, List.filter_append, List.map_append]
  rfl

theorem removableIndexes_cons_of_ne {message : AdjacencyMessageShape}
    (h : message.fullyRemovedByArc ≠ some arcId) (messages : List AdjacencyMessageShape)
    (start : Nat) : removableIndexes arcId (message :: messages) start =
      removableIndexes arcId messages (start + 1) := by
  rw [removableIndexes, List.zipIdx_cons, keyed_cons, if_neg h]
  rfl

theorem removableIndexes_all
    (h : ∀ message ∈ messages, message.fullyRemovedByArc = some arcId) (start : Nat) :
    removableIndexes arcId messages start = List.range' start messages.length := by
  induction messages generalizing start with
  | nil => rfl
  | cons message messages ih =>
    obtain ⟨hmessage, hmessages⟩ := List.forall_mem_cons.mp h
    rw [removableIndexes, List.zipIdx_cons, keyed_cons, if_pos hmessage, List.map_cons,
      List.length_cons, List.range'_succ]
    exact congrArg (start :: ·) (ih hmessages (start + 1))

theorem mem_removableIndexes
    {start index : Nat} (h : index ∈ removableIndexes arcId messages start) :
    start ≤ index ∧ index < start + messages.length := by
  obtain ⟨entry, hentry, rfl⟩ := List.mem_map.mp h
  have hmem := (mem_keyed.mp hentry).1
  exact ⟨List.le_snd_of_mem_zipIdx hmem, List.snd_lt_add_of_mem_zipIdx hmem⟩

/-- A stretch of indexes that nothing else touches is one run. -/
theorem mem_consecutiveRuns {before after : List Nat} {first count : Nat} (hcount : 0 < count)
    (hbefore : ∀ index ∈ before, index + 1 < first)
    (hafter : ∀ index ∈ after, first + count < index) :
    List.range' first count ∈ consecutiveRuns (before ++ (List.range' first count ++ after)) := by
  obtain ⟨count, rfl⟩ : ∃ n, count = n + 1 := ⟨count - 1, by omega⟩
  have hchain : (List.range' first (count + 1)).IsChain fun left right =>
      (right == left + 1) = true := by
    simp only [beq_iff_eq]
    exact List.isChain_range' first (count + 1) 1
  have hsplit : consecutiveRuns (List.range' first (count + 1)) = [List.range' first (count + 1)] :=
    List.splitBy_of_isChain (by rw [List.range'_succ]; exact List.cons_ne_nil _ _) hchain
  rw [consecutiveRuns, List.splitBy_append, List.splitBy_append]
  · refine List.mem_append_right _ (List.mem_append_left _ ?_)
    rw [← consecutiveRuns, hsplit]
    exact List.mem_singleton_self _
  · intro x hx y hy
    have hxMem := List.mem_of_getLast? hx
    have hyMem := List.mem_of_mem_head? hy
    rw [List.mem_range'_1] at hxMem
    have := hafter y hyMem
    rw [beq_eq_false_iff_ne]
    omega
  · intro x hx y hy
    have := hbefore x (List.mem_of_getLast? hx)
    rw [List.range'_succ, List.cons_append, List.head?_cons, Option.mem_some_iff] at hy
    rw [beq_eq_false_iff_ne]
    omega

theorem hazardousRun_range {pre run post : List AdjacencyMessageShape}
    {left right : AdjacencyMessageShape} (hleft : left.role = .assistant)
    (hright : right.role = .assistant)
    (hreasoning : left.hasReasoning = true ∨ right.hasReasoning = true)
    (hseparator : ∃ message ∈ run, message.isResultSeparator = true) :
    hazardousRun (pre ++ left :: (run ++ right :: post))
      (List.range' (pre.length + 1) run.length) = true := by
  obtain ⟨separator, hmem, hresults⟩ := hseparator
  obtain ⟨index, hindex, hget⟩ := List.mem_iff_getElem.mp hmem
  have hhead : (List.range' (pre.length + 1) run.length).head? = some (pre.length + 1) := by
    rw [List.head?_range', if_neg (by omega)]
  have hlast : (List.range' (pre.length + 1) run.length).getLast? =
      some (pre.length + run.length) := by
    rw [List.getLast?_range', if_neg (by omega)]
    congr 1
    omega
  have hleftGet : (pre ++ left :: (run ++ right :: post))[pre.length + 1 - 1]? = some left := by
    simp
  have hrightGet : (pre ++ left :: (run ++ right :: post))[pre.length + run.length + 1]? =
      some right := by
    rw [List.getElem?_append_right (by omega)]
    simp [show pre.length + run.length + 1 - pre.length = run.length + 1 by omega]
  have hrunGet : (pre ++ left :: (run ++ right :: post))[pre.length + 1 + index]? =
      some separator := by
    rw [List.getElem?_append_right (by omega),
      show pre.length + 1 + index - pre.length = index + 1 by omega, List.getElem?_cons_succ,
      List.getElem?_append_left hindex, List.getElem?_eq_getElem hindex, hget]
  rw [hazardousRun, hhead, hlast]
  dsimp only
  rw [if_neg (by omega), hleftGet, hrightGet]
  dsimp only
  rw [hleft, hright, Bool.and_eq_true, Bool.and_eq_true, Bool.and_eq_true, Bool.or_eq_true,
    List.any_eq_true]
  refine ⟨⟨⟨⟨pre.length + 1 + index, ?_, ?_⟩, rfl⟩, rfl⟩, hreasoning⟩
  · rw [List.mem_range'_1]
    omega
  · rw [hrunGet]
    exact hresults

/-! ## The arcs that are found -/

theorem fullyRemovedByArc_iff {message : AdjacencyMessageShape}
    (h : message.items ≠ []) : message.fullyRemovedByArc = some arcId ↔
      ∀ item ∈ message.items, item.arcId = some arcId ∧ item.isTool = true := by
  obtain ⟨first, rest, hitems⟩ := List.exists_cons_of_ne_nil h
  rw [fullyRemovedByArc, hitems, List.head?_cons, Option.bind_some,
    Option.filter_eq_some_iff, List.all_eq_true]
  simp only [Bool.and_eq_true, decide_eq_true_eq]
  exact and_iff_right_of_imp fun hall => (hall first (List.mem_cons_self ..)).1

/-- Two messages and what is between them. -/
theorem split_messages {t : Transcript} {left right : AdjacencyMessageShape}
    (hleft : left ∈ adjacencyMessages t.items) (hright : right ∈ adjacencyMessages t.items)
    (hlt : left.ordinal < right.ordinal) :
    ∃ pre run post, adjacencyMessages t.items = pre ++ left :: (run ++ right :: post) ∧
      ∀ message ∈ adjacencyMessages t.items,
        message ∈ run ↔ left.ordinal < message.ordinal ∧ message.ordinal < right.ordinal := by
  have hordered := ordered_adjacencyMessages t
  obtain ⟨pre, rest, hmessages⟩ := List.append_of_mem hleft
  rw [hmessages, List.pairwise_append, List.pairwise_cons] at hordered
  obtain ⟨-, ⟨hrest, hrestOrdered⟩, hpre⟩ := hordered
  have hrightRest : right ∈ rest := by
    rw [hmessages, List.mem_append, List.mem_cons] at hright
    rcases hright with hmem | rfl | hmem
    · exact absurd (hpre right hmem left (List.mem_cons_self ..)) (Nat.lt_asymm hlt)
    · exact absurd hlt (Nat.lt_irrefl _)
    · exact hmem
  obtain ⟨run, post, rfl⟩ := List.append_of_mem hrightRest
  rw [List.pairwise_append, List.pairwise_cons] at hrestOrdered
  obtain ⟨-, ⟨hpost, -⟩, hrun⟩ := hrestOrdered
  refine ⟨pre, run, post, hmessages, fun message hmessage => ⟨fun hmem => ?_, fun hbetween => ?_⟩⟩
  · exact ⟨hrest message (List.mem_append_left _ hmem),
      hrun message hmem right (List.mem_cons_self ..)⟩
  · rw [hmessages, List.mem_append, List.mem_cons, List.mem_append, List.mem_cons] at hmessage
    rcases hmessage with hmem | rfl | hmem | rfl | hmem
    · exact absurd (hpre message hmem left (List.mem_cons_self ..)) (Nat.lt_asymm hbetween.1)
    · exact absurd hbetween.1 (Nat.lt_irrefl _)
    · exact hmem
    · exact absurd hbetween.2 (Nat.lt_irrefl _)
    · exact absurd (hpost message hmem) (Nat.lt_asymm hbetween.2)

/-- The block stands between the two. -/
def SelItem.Between (left right item : SelItem) : Prop :=
  left.ordinal < item.ordinal ∧ item.ordinal < right.ordinal

/-- **An arc is found** when everything between two assistants is a call or a result of it, one in
a message of results, and neither assistant's message is the arc's alone. -/
theorem mem_collapseArcIds {t : Transcript} {left right : SelItem}
    (hleft : left ∈ t.items) (hright : right ∈ t.items) (hlt : left.ordinal < right.ordinal)
    (hleftRole : left.messageRole = .assistant) (hrightRole : right.messageRole = .assistant)
    (hreasoning : left.isReasoning = true ∨ right.isReasoning = true)
    (hbetween : ∀ item ∈ t.items, left.Between right item →
      item.arcId = some arcId ∧ item.isTool = true)
    (hseparator : ∃ item ∈ t.items, left.Between right item ∧
      item.messageRole = .nonAssistant ∧ item.isResult = true)
    (hleftStays : ¬ (left.arcId = some arcId ∧ left.isTool = true))
    (hrightStays : ¬ (right.arcId = some arcId ∧ right.isTool = true)) :
    arcId ∈ reasoningAdjacencyCollapseArcIds t.items := by
  obtain ⟨leftMessage, hleftMem, hleftItem⟩ := exists_message hleft
  obtain ⟨rightMessage, hrightMem, hrightItem⟩ := exists_message hright
  have hdl := describes_of_mem hleftMem
  have hdr := describes_of_mem hrightMem
  have hleftOrdinal := hdl.ordinal left hleftItem
  have hrightOrdinal := hdr.ordinal right hrightItem
  obtain ⟨pre, run, post, hmessages, hrun⟩ :=
    split_messages hleftMem hrightMem (by rw [← hleftOrdinal, ← hrightOrdinal]; exact hlt)
  have hrunMem : ∀ message ∈ run, message ∈ adjacencyMessages t.items := by
    intro message hmem
    rw [hmessages]
    exact List.mem_append_right _ (List.mem_cons_of_mem _ (List.mem_append_left _ hmem))
  -- the messages of the run are the arc's alone, the two around it are not
  have hremovable : ∀ message ∈ run, message.fullyRemovedByArc = some arcId := by
    intro message hmem
    have hd := describes_of_mem (hrunMem message hmem)
    have hordinals := (hrun message (hrunMem message hmem)).mp hmem
    refine (fullyRemovedByArc_iff hd.nonempty).mpr fun item hitem => ?_
    refine hbetween item ((hd.blocks item).mp hitem).1 ⟨?_, ?_⟩
    · rw [hleftOrdinal, hd.ordinal item hitem]
      exact hordinals.1
    · rw [hrightOrdinal, hd.ordinal item hitem]
      exact hordinals.2
  have hleftKept : leftMessage.fullyRemovedByArc ≠ some arcId := fun h =>
    hleftStays ((fullyRemovedByArc_iff hdl.nonempty).mp h left hleftItem)
  have hrightKept : rightMessage.fullyRemovedByArc ≠ some arcId := fun h =>
    hrightStays ((fullyRemovedByArc_iff hdr.nonempty).mp h right hrightItem)
  have hseparatorRun : ∃ message ∈ run, message.isResultSeparator = true := by
    obtain ⟨item, hitem, hordinals, hrole, hresult⟩ := hseparator
    obtain ⟨message, hmem, hitemMem⟩ := exists_message hitem
    have hd := describes_of_mem hmem
    refine ⟨message, (hrun message hmem).mpr ?_, ?_⟩
    · rw [← hd.ordinal item hitemMem, ← hleftOrdinal, ← hrightOrdinal]
      exact hordinals
    · rw [isResultSeparator, ← hd.role item hitemMem, hrole,
        List.any_eq_true.mpr ⟨item, hitemMem, hresult⟩]
      rfl
  -- so the run is one of the stretches of indexes
  have hindexes : removableIndexes arcId (adjacencyMessages t.items) 0 =
      removableIndexes arcId pre 0 ++ (List.range' (pre.length + 1) run.length ++
        removableIndexes arcId post (pre.length + 1 + run.length + 1)) := by
    rw [hmessages, removableIndexes_append, removableIndexes_cons_of_ne hleftKept,
      removableIndexes_append, removableIndexes_cons_of_ne hrightKept,
      removableIndexes_all hremovable, Nat.zero_add]
  have hcount : 0 < run.length := by
    obtain ⟨message, hmem, -⟩ := hseparatorRun
    exact List.length_pos_of_mem hmem
  have hget : (removableByArc (adjacencyMessages t.items)).get arcId =
      some (removableIndexes arcId (adjacencyMessages t.items) 0) := by
    refine get_removableByArc fun hnil => ?_
    rw [hindexes, List.append_eq_nil_iff, List.append_eq_nil_iff, List.range'_eq_nil_iff] at hnil
    omega
  rw [reasoningAdjacencyCollapseArcIds, List.mem_map]
  refine ⟨(arcId, _), List.mem_filter.mpr ⟨SortedMap.get_eq_some.mp hget, ?_⟩, rfl⟩
  rw [List.any_eq_true]
  refine ⟨List.range' (pre.length + 1) run.length, ?_, ?_⟩
  · rw [hindexes]
    refine mem_consecutiveRuns hcount (fun index hindex => ?_) fun index hindex => ?_
    · have := (mem_removableIndexes hindex).2
      omega
    · have := (mem_removableIndexes hindex).1
      omega
  · rw [hmessages]
    refine hazardousRun_range ?_ ?_ ?_ hseparatorRun
    · rw [← hdl.role left hleftItem, hleftRole]
    · rw [← hdr.role right hrightItem, hrightRole]
    · rw [hdl.reasoning, hdr.reasoning, List.any_eq_true, List.any_eq_true]
      exact hreasoning.imp (fun h => ⟨left, hleftItem, h⟩) fun h => ⟨right, hrightItem, h⟩

end MagicContext.Selection
