import Mathlib.Data.List.GetD
import Mathlib.Data.List.Sort
import Mathlib.Data.Rat.Floor
import MagicContext.Historian.State
import MagicContext.Json

/-!
# Messages, and their tokens by ordinal

The compartment boundary is computed from the live messages: each has an ordinal and blocks whose
tokens have been counted.  The source computes with doubles; the model is over any type with their
operations, and nothing about the order or the arithmetic of that type is used.

## What is here

* `Double` — the operations on doubles.
* `BoundaryBlock`, `BoundaryMsg` — the live messages.
* `TokenIndex` — the ordinals in order with the prefix sums of their tokens, and the two searches
  in them.
-/

namespace MagicContext

/-! ## Doubles -/

/-- The operations of `f64` the source uses. -/
class Double (F : Type) extends Add F, Sub F, Mul F, Div F, LE F, LT F where
  decLe : ∀ x y : F, Decidable (x ≤ y)
  decLt : ∀ x y : F, Decidable (x < y)
  /-- `as f64`. -/
  ofNat : Nat → F
  /-- A decimal literal. -/
  ofScientific : Nat → Bool → Nat → F
  isFinite : F → Bool
  floor : F → F
  /-- To the nearest whole number, halves away from zero. -/
  round : F → F
  /-- `f64::max`: the other one when one is not a number. -/
  maximum : F → F → F
  minimum : F → F → F

namespace Double

variable {F : Type} [Double F]

instance (x y : F) : Decidable (x ≤ y) := decLe x y

instance (x y : F) : Decidable (x < y) := decLt x y

instance (priority := low) (n : Nat) : OfNat F n := ⟨ofNat n⟩

instance (priority := low) : OfScientific F := ⟨ofScientific⟩

/-- `f64::clamp`. -/
def clamp (x lo hi : F) : F := if x < lo then lo else if hi < x then hi else x

/-- The numbers of the machine. -/
instance : Double Float where
  decLe _ _ := inferInstance
  decLt _ _ := inferInstance
  ofNat := Float.ofNat
  ofScientific := Float.ofScientific
  isFinite := Float.isFinite
  floor := Float.floor
  round := Float.round
  maximum x y := if x.isNaN then y else if y.isNaN then x else if x ≤ y then y else x
  minimum x y := if x.isNaN then y else if y.isNaN then x else if x ≤ y then x else y

/-- Exact numbers, which agree with doubles where nothing is rounded. -/
instance : Double ℚ where
  decLe _ _ := inferInstance
  decLt _ _ := inferInstance
  ofNat n := n
  ofScientific m s e := OfScientific.ofScientific m s e
  isFinite _ := true
  floor x := ⌊x⌋
  round x := if 0 ≤ x then ⌊x + 1 / 2⌋ else -⌊-x + 1 / 2⌋
  maximum := max
  minimum := min

end Double

namespace Boundary

open Historian (u64Max saturatingSucc)

/-! ## The live messages -/

inductive Role where
  | user | assistant | system
  | other (value : String)
  deriving DecidableEq

def Role.asStr : Role → String
  | user => "user"
  | assistant => "assistant"
  | system => "system"
  | other value => value

inductive SelKind where
  | toolCall (name : String) (input : Json)
  | toolResult (toolName : String)
  | reasoning | text | redactedReasoning | media | opaqueBlock
  deriving DecidableEq

structure BoundaryBlock where
  kind : SelKind
  providerExecuted : Bool := false
  arcId : Option String := none
  /-- The text before any reduction. -/
  original : String := ""
  originalTokenCount : Nat
  ignored : Bool := false

structure BoundaryMsg where
  messageOrdinal : Nat
  role : Role
  blocks : List BoundaryBlock

/-- The messages by ordinal, those of one ordinal as they came. -/
def inOrder (messages : List BoundaryMsg) : List BoundaryMsg :=
  messages.insertionSort fun a b => a.messageOrdinal ≤ b.messageOrdinal

theorem mem_inOrder {messages : List BoundaryMsg} {message : BoundaryMsg} :
    message ∈ inOrder messages ↔ message ∈ messages := List.mem_insertionSort _

theorem sorted_inOrder (messages : List BoundaryMsg) :
    (inOrder messages).Pairwise fun a b => a.messageOrdinal ≤ b.messageOrdinal := by
  exact List.pairwise_insertionSort _ messages

/-! ## The index -/

structure TokenIndex (F : Type) where
  rawMessageCount : Nat
  firstOrdinal : Nat
  lastOrdinal : Nat
  /-- One past the last ordinal. -/
  terminalOrdinal : Nat
  /-- Increasing. -/
  ordinals : List Nat
  /-- The tokens before each ordinal, and after the last. -/
  prefixSums : List F

/-- What an index says of its ordinals. -/
structure TokenIndex.Sound {F : Type} (messages : List BoundaryMsg) (index : TokenIndex F) :
    Prop where
  increasing : index.ordinals.Pairwise (· < ·)
  mem_iff : ∀ n, n ∈ index.ordinals ↔ ∃ message ∈ messages, message.messageOrdinal = n
  rawMessageCount_eq : index.rawMessageCount = index.ordinals.length
  firstOrdinal_eq : index.firstOrdinal = index.ordinals.head?.getD 1
  lastOrdinal_eq : index.lastOrdinal = index.ordinals.getLast?.getD 0
  terminalOrdinal_eq : index.terminalOrdinal = (index.ordinals.getLast?.map saturatingSucc).getD 1

section

variable {F : Type} [Double F]

def blockTokens (message : BoundaryMsg) : F :=
  (message.blocks.map fun block => (Double.ofNat block.originalTokenCount : F)).foldl (· + ·) 0

/-- Adds the tokens of a message to the last ordinal, or opens the next one. -/
def pushTotal (acc : List Nat × List F) (ordinal : Nat) (total : F) : List Nat × List F :=
  if acc.1.getLast? = some ordinal then
    (acc.1, acc.2.dropLast ++ [acc.2.getLastD 0 + total])
  else (acc.1 ++ [ordinal], acc.2 ++ [acc.2.getLastD 0 + total])

namespace TokenIndex

/-- `TokenIndex::new`. -/
def new (messages : List BoundaryMsg) : TokenIndex F :=
  let (ordinals, prefixSums) := (inOrder messages).foldl
    (fun acc message => pushTotal acc message.messageOrdinal (blockTokens message)) ([], [0])
  { rawMessageCount := ordinals.length
    firstOrdinal := ordinals.head?.getD 1
    lastOrdinal := ordinals.getLast?.getD 0
    terminalOrdinal := (ordinals.getLast?.map saturatingSucc).getD 1
    ordinals
    prefixSums }

variable (index : TokenIndex F)

/-- The tokens before the ordinal at a position. -/
def sumAt (position : Nat) : F := index.prefixSums.getD position 0

def tokenForOrdinal (ordinal : Nat) : F :=
  match index.ordinals.findIdx? (· == ordinal) with
  | some position => index.sumAt (position + 1) - index.sumAt position
  | none => 0

def totalTokens : F := index.prefixSums.getLastD 0

/-- The position of the first ordinal that is not below. -/
def lowerBound (ordinal : Nat) : Nat := index.ordinals.findIdx fun candidate => ordinal ≤ candidate

def exclusiveEndForPrefixIndex (position : Nat) : Nat :=
  if position = 0 then index.firstOrdinal
  else saturatingSucc (index.ordinals.getD (position - 1) 0)

def clampOrdinal (ordinal : Nat) : Nat :=
  if index.ordinals.isEmpty then ordinal
  else min (max ordinal index.firstOrdinal) index.terminalOrdinal

def suffixTokensFromOrdinal (ordinal : Nat) : F :=
  if index.ordinals.isEmpty then 0
  else if ordinal ≤ index.firstOrdinal then index.totalTokens
  else if index.terminalOrdinal ≤ ordinal then 0
  else index.totalTokens - index.sumAt (index.lowerBound ordinal)

def rangeTokens (startInclusive endExclusive : Nat) : F :=
  if index.ordinals.isEmpty || decide (endExclusive ≤ startInclusive) then 0
  else
    let start := max startInclusive index.firstOrdinal
    let stop := min (max endExclusive start) index.terminalOrdinal
    if stop ≤ start then 0
    else
      let startIndex := index.lowerBound start
      let endIndex := index.lowerBound stop
      if endIndex ≤ startIndex then 0
      else index.sumAt endIndex - index.sumAt startIndex

/-- The search for the last position between `lo` and `hi` whose sum does not exceed `cut`.  Each
round leaves fewer positions between them, so `hi + 1 - lo` rounds are enough. -/
def searchSum (cut : F) : Nat → Nat → Nat → Nat → Nat
  | 0, _, _, best => best
  | rounds + 1, lo, hi, best =>
    if lo ≤ hi then
      let mid := (lo + hi) / 2
      if index.sumAt mid ≤ cut then searchSum cut rounds (mid + 1) hi mid
      else if mid = 0 then best
      else searchSum cut rounds lo (mid - 1) best
    else best

/-- The search stays between its bounds. -/
theorem searchSum_bounds (cut : F) (rounds : Nat) {bottom top lo hi best : Nat} (hlo : bottom ≤ lo)
    (hhi : hi ≤ top) (hbest : bottom ≤ best ∧ best ≤ top) :
    bottom ≤ index.searchSum cut rounds lo hi best ∧
      index.searchSum cut rounds lo hi best ≤ top := by
  induction rounds generalizing lo hi best with
  | zero => exact hbest
  | succ rounds ih =>
    rw [searchSum]
    dsimp only
    split
    · split
      · exact ih (by omega) hhi (by omega)
      · split
        · exact hbest
        · exact ih hlo (by omega) hbest
    · exact hbest

def findSuffixStartForTokens (tokens : F) : Nat :=
  if index.ordinals.isEmpty then 1
  else if !Double.isFinite tokens || decide (tokens ≤ 0) then index.terminalOrdinal
  else
    let target := Double.maximum (Double.floor tokens) 0
    let total := index.totalTokens
    if total < target then index.firstOrdinal
    else
      let hi := index.prefixSums.length - 1
      let best := index.searchSum (total - target) (hi + 1) 0 hi 0
      index.ordinals.getD best index.terminalOrdinal

def findHeadEndForCap (startInclusive endExclusive : Nat) (capTokens : F) : Nat :=
  if index.ordinals.isEmpty then startInclusive
  else
    let start := min (max startInclusive index.firstOrdinal) index.terminalOrdinal
    let stop := min (max endExclusive start) index.terminalOrdinal
    if !Double.isFinite capTokens || decide (capTokens ≤ 0) then start
    else
      let startIndex := index.lowerBound start
      let endIndex := index.lowerBound stop
      if endIndex ≤ startIndex then start
      else
        let cut := index.sumAt startIndex + Double.floor capTokens
        let bestIndex :=
          index.searchSum cut (endIndex + 1 - startIndex) startIndex endIndex startIndex
        if bestIndex = startIndex then
          min (saturatingSucc (index.ordinals.getD startIndex 0)) stop
        else min (index.exclusiveEndForPrefixIndex bestIndex) stop

/-! ### The ordinals of an index -/

theorem pushTotal_fst (acc : List Nat × List F) (ordinal : Nat) (total : F) :
    (pushTotal acc ordinal total).1 =
      if acc.1.getLast? = some ordinal then acc.1 else acc.1 ++ [ordinal] := by
  rw [pushTotal]
  split <;> rfl

/-- The last of increasing numbers is the one that none exceeds. -/
theorem getLast?_of_max {l : List Nat} (hl : l.Pairwise (· < ·)) {n : Nat} (hn : n ∈ l)
    (hmax : ∀ m ∈ l, m ≤ n) : l.getLast? = some n := by
  rcases List.eq_nil_or_concat l with rfl | ⟨rest, last, rfl⟩
  · cases hn
  · rw [List.concat_eq_append] at hl hn hmax ⊢
    have hlast : last ≤ n := hmax last (by simp)
    rcases List.mem_append.mp hn with hrest | hself
    · have hlt := (List.pairwise_append.mp hl).2.2 n hrest last (List.mem_singleton_self last)
      exact absurd hlt (not_lt.mpr hlast)
    · rw [List.mem_singleton.mp hself, List.getLast?_concat]

/-- Ordinals that come in order stay increasing, and none is lost. -/
theorem foldl_pushTotal {messages : List BoundaryMsg} {acc : List Nat × List F}
    (hsorted : messages.Pairwise fun a b => a.messageOrdinal ≤ b.messageOrdinal)
    (hacc : acc.1.Pairwise (· < ·))
    (hle : ∀ n ∈ acc.1, ∀ message ∈ messages, n ≤ message.messageOrdinal) :
    let result := messages.foldl
      (fun acc message => pushTotal acc message.messageOrdinal (blockTokens message)) acc
    result.1.Pairwise (· < ·) ∧
      ∀ n, n ∈ result.1 ↔ n ∈ acc.1 ∨ ∃ message ∈ messages, message.messageOrdinal = n := by
  induction messages generalizing acc with
  | nil => simpa using hacc
  | cons message messages ih =>
    obtain ⟨hfirst, hsorted⟩ := List.pairwise_cons.mp hsorted
    have hmessage : ∀ n ∈ acc.1, n ≤ message.messageOrdinal := fun n hn =>
      hle n hn message (List.mem_cons_self ..)
    have hpush : (pushTotal acc message.messageOrdinal (blockTokens message)).1.Pairwise (· < ·) ∧
        ∀ n, n ∈ (pushTotal acc message.messageOrdinal (blockTokens message)).1 ↔
          n ∈ acc.1 ∨ n = message.messageOrdinal := by
      rw [pushTotal_fst]
      split
      · rename_i hlast
        refine ⟨hacc, fun n => ⟨Or.inl, ?_⟩⟩
        rintro (hn | rfl)
        · exact hn
        · exact List.mem_of_getLast? hlast
      · rename_i hlast
        refine ⟨List.pairwise_append.mpr ⟨hacc, List.pairwise_singleton _ _, ?_⟩, by simp⟩
        intro n hn m hm
        rw [List.mem_singleton.mp hm]
        refine lt_of_le_of_ne (hmessage n hn) fun heq => hlast (heq ▸ ?_)
        exact getLast?_of_max hacc hn fun m hm => heq ▸ hmessage m hm
    obtain ⟨hincreasing, hmem⟩ := ih hsorted hpush.1 fun n hn other hother => by
      rcases (hpush.2 n).mp hn with hn | rfl
      · exact hle n hn other (List.mem_cons_of_mem message hother)
      · exact hfirst other hother
    refine ⟨hincreasing, fun n => (hmem n).trans ?_⟩
    rw [hpush.2, List.exists_mem_cons_iff]
    exact or_assoc.trans (or_congr_right (or_congr_left eq_comm))

theorem sound_new (messages : List BoundaryMsg) : Sound messages (new messages : TokenIndex F) := by
  have h := @foldl_pushTotal F _ (inOrder messages) ([], [0]) (sorted_inOrder messages)
    List.Pairwise.nil (by simp)
  refine ⟨h.1, fun n => (h.2 n).trans ?_, rfl, rfl, rfl, rfl⟩
  simp [mem_inOrder]


end TokenIndex

end

namespace TokenIndex.Sound

variable {F : Type} {messages : List BoundaryMsg} {index : TokenIndex F}

section
variable (h : Sound messages index)
include h

theorem nil_of_rawMessageCount (hzero : index.rawMessageCount = 0) : messages = [] := by
  have hnil : index.ordinals = [] :=
    List.eq_nil_of_length_eq_zero (h.rawMessageCount_eq.symm.trans hzero)
  refine List.eq_nil_iff_forall_not_mem.mpr fun message hmessage => ?_
  have hmem := (h.mem_iff message.messageOrdinal).mpr ⟨message, hmessage, rfl⟩
  rw [hnil] at hmem
  cases hmem

theorem firstOrdinal_le {n : Nat} (hn : n ∈ index.ordinals) : index.firstOrdinal ≤ n := by
  have hincreasing := h.increasing
  rw [h.firstOrdinal_eq]
  cases hordinals : index.ordinals with
  | nil => rw [hordinals] at hn; cases hn
  | cons first rest =>
    rw [hordinals] at hn hincreasing
    rcases List.mem_cons.mp hn with rfl | hrest
    · exact Nat.le_refl n
    · exact (List.rel_of_pairwise_cons hincreasing hrest).le

theorem le_lastOrdinal {n : Nat} (hn : n ∈ index.ordinals) : n ≤ index.lastOrdinal := by
  have hincreasing := h.increasing
  rw [h.lastOrdinal_eq]
  rcases List.eq_nil_or_concat index.ordinals with hnil | ⟨rest, last, hordinals⟩
  · rw [hnil] at hn
    cases hn
  · rw [List.concat_eq_append] at hordinals
    rw [hordinals] at hn hincreasing ⊢
    rw [List.getLast?_concat, Option.getD_some]
    rcases List.mem_append.mp hn with hrest | hself
    · exact ((List.pairwise_append.mp hincreasing).2.2 n hrest last
        (List.mem_singleton_self last)).le
    · exact (List.mem_singleton.mp hself).le

theorem terminalOrdinal_of_mem {n : Nat} (hn : n ∈ index.ordinals) :
    index.terminalOrdinal = saturatingSucc index.lastOrdinal := by
  have hsome : index.ordinals.getLast?.isSome :=
    List.getLast?_isSome.mpr (List.ne_nil_of_mem hn)
  obtain ⟨last, hlast⟩ := Option.isSome_iff_exists.mp hsome
  rw [h.terminalOrdinal_eq, h.lastOrdinal_eq, hlast]
  rfl

theorem clampOrdinal_le (hmessages : messages ≠ []) (ordinal : Nat) :
    index.clampOrdinal ordinal ≤ index.terminalOrdinal := by
  obtain ⟨message, hmessage⟩ := List.exists_mem_of_ne_nil messages hmessages
  have hmem : message.messageOrdinal ∈ index.ordinals :=
    (h.mem_iff _).mpr ⟨message, hmessage, rfl⟩
  rw [clampOrdinal, if_neg (by simpa using List.ne_nil_of_mem hmem)]
  exact min_le_right ..

theorem terminalOrdinal_le : index.terminalOrdinal ≤ u64Max := by
  rw [h.terminalOrdinal_eq]
  cases index.ordinals.getLast? with
  | none => decide
  | some last => exact min_le_right ..

end

end TokenIndex.Sound

theorem TokenIndex.le_ordinals_of_lowerBound {F : Type} {index : TokenIndex F}
    (hincreasing : index.ordinals.Pairwise (· < ·)) {start position : Nat}
    (hposition : index.lowerBound start ≤ position) (hlt : position < index.ordinals.length) :
    start ≤ index.ordinals.getD position 0 := by
  have hfirst : start ≤ index.ordinals.get ⟨index.lowerBound start, hposition.trans_lt hlt⟩ :=
    of_decide_eq_true (List.findIdx_getElem (w := hposition.trans_lt hlt))
  rw [List.getD_eq_getElem _ _ hlt]
  rcases hposition.eq_or_lt with heq | hposition
  · exact hfirst.trans_eq (by simp only [heq, List.get_eq_getElem])
  · exact hfirst.trans (List.pairwise_iff_getElem.mp hincreasing _ _ _ hlt hposition).le

section

variable {F : Type} [Double F]

/-- The capped end does not lie before the start. -/
theorem TokenIndex.Sound.le_findHeadEndForCap {messages : List BoundaryMsg}
    {index : TokenIndex F} (h : Sound messages index) {startInclusive : Nat}
    (hrange : startInclusive ≤ u64Max) (hstart : startInclusive ≤ index.terminalOrdinal)
    (endExclusive : Nat) (capTokens : F) :
    startInclusive ≤ index.findHeadEndForCap startInclusive endExclusive capTokens := by
  rw [findHeadEndForCap]
  split
  · exact Nat.le_refl _
  dsimp only
  generalize hs : min (max startInclusive index.firstOrdinal) index.terminalOrdinal = start
  generalize hstop : min (max endExclusive start) index.terminalOrdinal = stop
  have hle : startInclusive ≤ start := hs ▸ le_min (le_max_left ..) hstart
  have hle' : start ≤ stop := hstop ▸ le_min (le_max_right ..) (hs ▸ min_le_right ..)
  have hsucc : ∀ position, index.lowerBound start ≤ position → position < index.lowerBound stop →
      startInclusive ≤ min (saturatingSucc (index.ordinals.getD position 0)) stop := by
    intro position hposition hlt
    have hlength : position < index.ordinals.length := hlt.trans_le List.findIdx_le_length
    have hordinal := le_ordinals_of_lowerBound h.increasing hposition hlength
    have hsucc := Nat.le_succ_of_le (hle.trans hordinal)
    exact le_min (le_min hsucc hrange) (hle.trans hle')
  split
  · exact hle
  split
  · exact hle
  rename_i hlt
  have hbounds := searchSum_bounds index
    (index.sumAt (index.lowerBound start) + Double.floor capTokens)
    (index.lowerBound stop + 1 - index.lowerBound start)
    (Nat.le_refl (index.lowerBound start)) (Nat.le_refl (index.lowerBound stop))
    ⟨Nat.le_refl _, (not_le.mp hlt).le⟩
  split
  · exact hsucc _ (Nat.le_refl _) (not_le.mp hlt)
  · rw [exclusiveEndForPrefixIndex, if_neg (by omega)]
    exact hsucc _ (by omega) (by omega)

end

end Boundary
end MagicContext
