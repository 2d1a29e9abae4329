import Mathlib.Data.List.Induction
import MagicContext.Lib.Recency
import MagicContext.Wire.Messages
import MagicContext.Word

/-!
# The serialized output cache

What a session was last served is kept per session, so that messages that did not change are not
serialized again.  The sessions are charged for what they retain, the charges stay within a budget,
and the sessions that were used longest ago are dropped for it.  The sum of the charges is kept
beside the sessions, and so is the order of their use.

## What is here

* `SerializedOutputCache`, with `remove`, `snapshot` and `replace`.
* `Models` — the cache holds a table in the order of its use, and the sum of its charges.
* `models_run` — every call acts on the table as the table's own operations do.
* `serializedOutputCache_accounting` — what holds after any calls.
-/

namespace MagicContext.Wire

/-! ## Sizes -/

/-- `usize::MAX`. -/
def usizeMax : Nat := Word.u64Limit - 1

def saturatingAdd (a b : Nat) : Nat := min (a + b) usizeMax

def saturatingMul (a b : Nat) : Nat := min (a * b) usizeMax

/-- What the compiler lays out: `size_of` of a string, an entry, a session and a `usize`. -/
structure Layout where
  string : Nat
  entry : Nat
  session : Nat
  word : Nat

/-- A string and the bytes it has allocated. -/
structure HeapString where
  text : String
  capacity : Nat

/-- A clone has the bytes it needs. -/
def HeapString.clone (s : HeapString) : HeapString := { s with capacity := s.text.utf8ByteSize }

/-! ## The cache -/

structure ServedMessage where
  message : CkWireMessage
  retainedBytes : Nat

structure SerializedOutputCacheEntry where
  identity : HeapString
  served : Option ServedMessage

def SerializedOutputCacheEntry.clone (entry : SerializedOutputCacheEntry) :
    SerializedOutputCacheEntry := { entry with identity := entry.identity.clone }

/-- The text of an entry's key. -/
def entryKey (row : HeapString × SerializedOutputCacheEntry) : String := row.1.text

/-- A map of entries, and how many it has room for. -/
structure CacheEntries where
  capacity : Nat := 0
  entries : Table entryKey := Table.empty

def CacheEntries.isEmpty (map : CacheEntries) : Bool := map.entries.rows.isEmpty

def CacheEntries.clone (map : CacheEntries) : CacheEntries where
  capacity := map.capacity
  entries := map.entries.update (fun _ => true) (fun row => (row.1.clone, row.2.clone)) fun _ => rfl

structure SerializedOutputCacheStats where
  reusedItems : Nat := 0
  serializedItems : Nat := 0

structure SerializedOutputSession where
  revertEpoch : Nat
  retainedBytes : Nat
  entries : CacheEntries
  stats : SerializedOutputCacheStats

/-- The id a session is kept under. -/
def sessionKey (row : String × SerializedOutputSession) : String := row.1

/-- What a session is charged. -/
def charge (row : String × SerializedOutputSession) : Nat := row.2.retainedBytes

structure SerializedOutputCache where
  sessions : Table sessionKey
  lru : List String
  retainedBytes : Nat
  maxRetainedBytes : Nat

def SERIALIZED_OUTPUT_CACHE_BUDGET_BYTES : Nat := 256 * 1024 * 1024

def hashMapAllocationBytes (layout : Layout) (map : CacheEntries) : Nat :=
  -- one control byte per bucket, and seven entries for every eight buckets
  let buckets := saturatingAdd (saturatingMul map.capacity 8) 6 / 7
  saturatingMul buckets (saturatingAdd (saturatingAdd layout.string layout.entry) 1)

def clonedStringRetainedBytes (layout : Layout) (value : String) : Nat :=
  saturatingAdd layout.string value.utf8ByteSize

/-- `key.capacity()` and the capacities behind the entry. -/
def entryBytes (row : HeapString × SerializedOutputCacheEntry) : Nat :=
  saturatingAdd (saturatingAdd row.1.capacity row.2.identity.capacity)
    ((row.2.served.map ServedMessage.retainedBytes).getD 0)

def entriesRetainedBytes (layout : Layout) (sessionId : String) (entries : CacheEntries) : Nat :=
  -- `Iterator::sum` wraps around
  let rows := (entries.entries.rows.map entryBytes).foldl Word.wrappingAdd 0
  saturatingAdd
    (saturatingAdd
      (saturatingAdd (saturatingAdd (hashMapAllocationBytes layout entries) rows) layout.session)
      (layout.word * 3))
    (saturatingMul (clonedStringRetainedBytes layout sessionId) 2)

namespace SerializedOutputCache

def new (maxRetainedBytes : Nat) : SerializedOutputCache where
  sessions := Table.empty
  lru := []
  retainedBytes := 0
  maxRetainedBytes := maxRetainedBytes

/-- `Default::default`. -/
def initial : SerializedOutputCache := new SERIALIZED_OUTPUT_CACHE_BUDGET_BYTES

variable (cache : SerializedOutputCache)

/-- `if let Some(session) = self.sessions.remove(..)`, with its charge. -/
def takeSession (sessionId : String) : SerializedOutputCache :=
  match cache.sessions.get sessionId with
  | some (_, session) =>
    { cache with
      sessions := cache.sessions.delete fun row => decide (sessionKey row = sessionId)
      retainedBytes := cache.retainedBytes - session.retainedBytes }
  | none => cache

def remove (sessionId : String) : SerializedOutputCache :=
  { cache.takeSession sessionId with
    lru := cache.lru.filter fun candidate => decide (candidate ≠ sessionId) }

/-- Removes the session if it is of another revert epoch. -/
def current (sessionId : String) (revertEpoch : Nat) : SerializedOutputCache :=
  if (cache.sessions.get sessionId).any fun row => decide (row.2.revertEpoch ≠ revertEpoch) then
    cache.remove sessionId
  else cache

/-- The cache afterwards, and the entries. -/
def snapshot (sessionId : String) (revertEpoch : Nat) : SerializedOutputCache × CacheEntries :=
  let cache := cache.current sessionId revertEpoch
  let entries := ((cache.sessions.get sessionId).map fun row => row.2.entries.clone).getD {}
  if entries.isEmpty then (cache, entries)
  else
    ({ cache with
      lru := (cache.lru.filter fun candidate => decide (candidate ≠ sessionId)) ++ [sessionId] },
      entries)

/-- `while self.retained_bytes > self.max_retained_bytes`, from the front of the order. -/
def evictOldest : List String → SerializedOutputCache → SerializedOutputCache
  | [], cache => { cache with lru := [] }
  | oldest :: lru, cache =>
    if cache.retainedBytes ≤ cache.maxRetainedBytes then { cache with lru := oldest :: lru }
    else evictOldest lru (cache.takeSession oldest)

def replace (layout : Layout) (cache : SerializedOutputCache) (sessionId : String)
    (revertEpoch : Nat) (entries : CacheEntries) (stats : SerializedOutputCacheStats) :
    SerializedOutputCache :=
  let cache := cache.remove sessionId
  let retainedBytes := entriesRetainedBytes layout sessionId entries
  if cache.maxRetainedBytes < retainedBytes then cache
  else
    evictOldest (cache.lru ++ [sessionId])
      { cache with
        sessions := cache.sessions.put (sessionId, ⟨revertEpoch, retainedBytes, entries, stats⟩)
        retainedBytes := saturatingAdd cache.retainedBytes retainedBytes }

end SerializedOutputCache

open SerializedOutputCache

/-! ## Calls -/

inductive CacheCall where
  | snapshot (sessionId : String) (revertEpoch : Nat)
  | replace (sessionId : String) (revertEpoch : Nat) (entries : CacheEntries)
      (stats : SerializedOutputCacheStats)
  | remove (sessionId : String)

namespace SerializedOutputCache

/-- The cache after a call. -/
def step (layout : Layout) (cache : SerializedOutputCache) : CacheCall → SerializedOutputCache
  | .snapshot sessionId revertEpoch => (cache.snapshot sessionId revertEpoch).1
  | .replace sessionId revertEpoch entries stats =>
    cache.replace layout sessionId revertEpoch entries stats
  | .remove sessionId => cache.remove sessionId

/-- The cache after calls. -/
def run (layout : Layout) (cache : SerializedOutputCache) (calls : List CacheCall) :
    SerializedOutputCache := calls.foldl (step layout) cache

end SerializedOutputCache

/-- What was last stored for a session, and at which revert epoch, unless it was removed. -/
def lastStored (sessionId : String) (calls : List CacheCall) : Option (Nat × CacheEntries) :=
  calls.foldl
    (fun last call =>
      match call with
      | .snapshot .. => last
      | .replace id revertEpoch entries _ =>
        if id = sessionId then some (revertEpoch, entries) else last
      | .remove id => if id = sessionId then none else last)
    none

/-! ## The table in the order of its use -/

/-- The cache holds a table in the order of its use. -/
structure Models {max : Nat} (cache : SerializedOutputCache)
    (store : Recency sessionKey charge max) : Prop where
  sessions : cache.sessions = store.table
  lru : cache.lru = store.order
  retainedBytes : cache.retainedBytes = store.table.total charge
  maxRetainedBytes : cache.maxRetainedBytes = max

/-- Taking a session out keeps the sum. -/
theorem takeSession_eq {cache : SerializedOutputCache}
    (h : cache.retainedBytes = cache.sessions.total charge) (sessionId : String) :
    cache.takeSession sessionId =
      { cache with
        sessions := without cache.sessions sessionId
        retainedBytes := (without cache.sessions sessionId).total charge } := by
  rw [takeSession]
  rcases hget : cache.sessions.get sessionId with _ | ⟨id, session⟩
  · rw [without_of_none hget, ← h]
  · have hsum := Table.total_delete hget charge
    have hleft : cache.retainedBytes - session.retainedBytes =
        (without cache.sessions sessionId).total charge := by
      rw [h, ← hsum]
      exact Nat.add_sub_cancel ..
    simp only [hleft]
    rfl

theorem models_new (max : Nat) : Models (new max) (Recency.empty : Recency sessionKey charge max) :=
  ⟨rfl, rfl, rfl, rfl⟩

section Steps
variable {max : Nat} {cache : SerializedOutputCache} {store : Recency sessionKey charge max}

theorem models_remove (h : Models cache store) (sessionId : String) :
    Models (cache.remove sessionId) (store.remove sessionId) := by
  have hsum : cache.retainedBytes = cache.sessions.total charge := by
    rw [h.retainedBytes, h.sessions]
  rw [remove, takeSession_eq hsum]
  refine ⟨?_, ?_, ?_, h.maxRetainedBytes⟩
  · rw [h.sessions]
    rfl
  · rw [h.lru]
    rfl
  · rw [h.sessions]
    rfl

/-- Evicting is making room. -/
theorem evictOldest_eq (lru : List String) (cache : SerializedOutputCache)
    (h : cache.retainedBytes = cache.sessions.total charge) :
    evictOldest lru cache =
      { cache with
        sessions := (makeRoom charge cache.maxRetainedBytes cache.sessions lru).1
        lru := (makeRoom charge cache.maxRetainedBytes cache.sessions lru).2
        retainedBytes :=
          (makeRoom charge cache.maxRetainedBytes cache.sessions lru).1.total charge } := by
  induction lru generalizing cache with
  | nil => simp [evictOldest, makeRoom, ← h]
  | cons oldest lru ih =>
    rw [evictOldest, makeRoom, ← h]
    split
    · simp [← h]
    · rw [takeSession_eq h, ih _ rfl]

theorem models_replace (layout : Layout) (hmax : 2 * max ≤ usizeMax) (h : Models cache store)
    (sessionId : String) (revertEpoch : Nat) (entries : CacheEntries)
    (stats : SerializedOutputCacheStats) :
    Models (cache.replace layout sessionId revertEpoch entries stats)
      (store.put (sessionId,
        ⟨revertEpoch, entriesRetainedBytes layout sessionId entries, entries, stats⟩)) := by
  generalize hrow : (sessionId, (⟨revertEpoch, entriesRetainedBytes layout sessionId entries,
    entries, stats⟩ : SerializedOutputSession)) = row
  have hkey : sessionKey row = sessionId := by rw [← hrow]; rfl
  have hcharge : charge row = entriesRetainedBytes layout (sessionKey row) entries := by
    rw [← hrow]
    rfl
  have hremoved := models_remove h (sessionKey row)
  rw [replace, hrow, ← hkey, ← hcharge, hremoved.maxRetainedBytes, Recency.put]
  by_cases hfits : charge row ≤ max
  · rw [if_neg (by omega), if_pos hfits]
    have hsum : saturatingAdd (cache.remove (sessionKey row)).retainedBytes (charge row) =
        (store.crowded row).1.total charge := by
      have hleft := (store.remove (sessionKey row)).fits
      rw [hremoved.retainedBytes, store.total_crowded, saturatingAdd]
      omega
    rw [hsum, hremoved.sessions, hremoved.lru, evictOldest_eq _ _ rfl]
    exact ⟨rfl, rfl, rfl, rfl⟩
  · rw [if_pos (by omega), if_neg hfits]
    exact hremoved

/-- The cache with which a snapshot reads: a session of another revert epoch is gone. -/
theorem models_current (h : Models cache store) (sessionId : String) (revertEpoch : Nat) :
    ∃ store' : Recency sessionKey charge max, Models (cache.current sessionId revertEpoch) store' ∧
      (∀ id row, store'.table.get id = some row → store.table.get id = some row) ∧
      ∀ row, store'.table.get sessionId = some row → row.2.revertEpoch = revertEpoch := by
  rw [current]
  split
  · refine ⟨store.remove sessionId, models_remove h sessionId,
      fun id row hrow => (Recency.get_remove hrow).2, fun row hrow => ?_⟩
    exact absurd rfl (Recency.get_remove hrow).1
  · rename_i hstale
    refine ⟨store, h, fun _ _ hrow => hrow, fun row hrow => ?_⟩
    rw [h.sessions, hrow] at hstale
    simpa using hstale

/-- A session that is read moves to the end of the order. -/
theorem models_touch (h : Models cache store) {sessionId : String}
    {row : String × SerializedOutputSession} (hrow : store.table.get sessionId = some row) :
    Models
      { cache with
        lru := (cache.lru.filter fun candidate => decide (candidate ≠ sessionId)) ++ [sessionId] }
      (store.touch sessionId) := by
  have hmem : sessionId ∈ store.order := store.listed.mem_iff.mpr (by rw [hrow]; rfl)
  refine ⟨?_, ?_, ?_, h.maxRetainedBytes⟩
  · rw [Recency.touch_table]
    exact h.sessions
  · rw [Recency.touch, dif_pos hmem, h.lru]
    rfl
  · rw [Recency.touch_table]
    exact h.retainedBytes

/-- **What a snapshot returns** is of the session and its revert epoch, or there is nothing. -/
theorem models_snapshot (h : Models cache store) (sessionId : String) (revertEpoch : Nat) :
    ∃ store' : Recency sessionKey charge max,
      Models (cache.snapshot sessionId revertEpoch).1 store' ∧
      (∀ id row, store'.table.get id = some row → store.table.get id = some row) ∧
      ((cache.snapshot sessionId revertEpoch).2.isEmpty = false →
        ∃ row, store.table.get sessionId = some row ∧ row.2.revertEpoch = revertEpoch ∧
          (cache.snapshot sessionId revertEpoch).2 = row.2.entries.clone) := by
  obtain ⟨store', hcurrent, hkeeps, hepoch⟩ := models_current h sessionId revertEpoch
  rw [snapshot, hcurrent.sessions]
  rcases hget : store'.table.get sessionId with _ | row
  · refine ⟨store', ?_, hkeeps, fun hfilled => ?_⟩
    · exact hcurrent
    · cases hfilled
  · rw [Option.map_some, Option.getD_some]
    split
    · rename_i hempty
      refine ⟨store', hcurrent, hkeeps, fun hfilled => ?_⟩
      rw [hempty] at hfilled
      cases hfilled
    · have htouched := models_touch hcurrent hget
      rw [hcurrent.sessions] at htouched
      refine ⟨store'.touch sessionId, htouched, ?_, fun _ => ?_⟩
      · intro id found hfound
        rw [Recency.touch_table] at hfound
        exact hkeeps id found hfound
      · exact ⟨row, hkeeps _ _ hget, hepoch row hget, rfl⟩

end Steps

/-! ## After any calls -/

theorem lastStored_append (sessionId : String) (calls : List CacheCall) (call : CacheCall) :
    lastStored sessionId (calls ++ [call]) = match call with
      | .snapshot .. => lastStored sessionId calls
      | .replace id revertEpoch entries _ =>
        if id = sessionId then some (revertEpoch, entries) else lastStored sessionId calls
      | .remove id => if id = sessionId then none else lastStored sessionId calls := by
  rw [lastStored, List.foldl_append]
  rfl

/-- What the sessions hold is what was last stored for them, and they are charged for it. -/
def HoldsStored (layout : Layout) (calls : List CacheCall) (sessions : Table sessionKey) : Prop :=
  ∀ id row, sessions.get id = some row →
    lastStored id calls = some (row.2.revertEpoch, row.2.entries) ∧
      row.2.retainedBytes = entriesRetainedBytes layout id row.2.entries

/-- **The cache holds a table in the order of its use**, after any calls. -/
theorem models_run (layout : Layout) {max : Nat} (hmax : 2 * max ≤ usizeMax)
    (calls : List CacheCall) :
    ∃ store : Recency sessionKey charge max,
      Models ((new max).run layout calls) store ∧ HoldsStored layout calls store.table := by
  induction calls using List.reverseRecOn with
  | nil =>
    refine ⟨Recency.empty, models_new max, fun id row hrow => ?_⟩
    cases hrow
  | append_singleton calls call ih =>
    obtain ⟨store, hmodels, hstored⟩ := ih
    rw [run, List.foldl_append]
    cases call with
    | snapshot sessionId revertEpoch =>
      obtain ⟨store', hmodels', hkeeps, -⟩ := models_snapshot hmodels sessionId revertEpoch
      refine ⟨store', hmodels', fun id row hrow => ?_⟩
      rw [lastStored_append]
      exact hstored id row (hkeeps id row hrow)
    | replace sessionId revertEpoch entries stats =>
      refine ⟨_, models_replace layout hmax hmodels sessionId revertEpoch entries stats,
        fun id row hrow => ?_⟩
      rw [lastStored_append]
      rcases Recency.get_put hrow with ⟨hkey, rfl⟩ | ⟨hkey, hkept⟩
      · obtain rfl : id = sessionId := hkey
        exact ⟨if_pos rfl, rfl⟩
      · have hne : sessionId ≠ id := Ne.symm hkey
        simp only [if_neg hne]
        exact hstored id row hkept
    | remove sessionId =>
      refine ⟨_, models_remove hmodels sessionId, fun id row hrow => ?_⟩
      obtain ⟨hkey, hkept⟩ := Recency.get_remove hrow
      rw [lastStored_append]
      simp only [if_neg hkey.symm]
      exact hstored id row hkept

/-- **The accounting of the cache after any calls**: the sum is that of the charges and within the
budget, the order has every session once and nothing else, and a snapshot returns only what was
last stored for the session at the revert epoch it asks for. -/
theorem serializedOutputCache_accounting (layout : Layout) (max : Nat)
    (hmax : 2 * max ≤ usizeMax) (calls : List CacheCall) :
    let cache := (SerializedOutputCache.new max).run layout calls
    cache.retainedBytes = (cache.sessions.rows.map fun row => row.2.retainedBytes).sum ∧
    (∀ row ∈ cache.sessions,
      row.2.retainedBytes = entriesRetainedBytes layout row.1 row.2.entries) ∧
    cache.retainedBytes ≤ max ∧
    cache.lru.Nodup ∧ (∀ id, id ∈ cache.lru ↔ ∃ row ∈ cache.sessions, row.1 = id) ∧
    ∀ sessionId revertEpoch, (cache.snapshot sessionId revertEpoch).2.isEmpty = false →
      ∃ entries, lastStored sessionId calls = some (revertEpoch, entries) ∧
        (cache.snapshot sessionId revertEpoch).2 = entries.clone := by
  intro cache
  obtain ⟨store, hmodels, hstored⟩ := models_run layout hmax calls
  refine ⟨?_, ?_, ?_, ?_, ?_, ?_⟩
  · rw [hmodels.retainedBytes, hmodels.sessions]
    rfl
  · intro row hrow
    rw [hmodels.sessions] at hrow
    exact (hstored _ row (Table.get_key hrow)).2
  · rw [hmodels.retainedBytes]
    exact store.fits
  · rw [hmodels.lru]
    exact store.listed.nodup
  · intro id
    rw [hmodels.lru, store.listed.mem_iff, Table.isSome_get, hmodels.sessions]
    rfl
  · intro sessionId revertEpoch hfilled
    obtain ⟨-, -, -, hreturned⟩ := models_snapshot hmodels sessionId revertEpoch
    obtain ⟨row, hget, rfl, hentries⟩ := hreturned hfilled
    exact ⟨row.2.entries, (hstored sessionId row hget).1, hentries⟩

/-- An entry that was stored at the first revert epoch is not returned at the second. -/
theorem snapshot_later_epoch :
    ((SerializedOutputCache.initial.run ⟨24, 120, 80, 8⟩
      [.replace "session" 1 ⟨3, Table.empty.put (⟨"tail:a", 6⟩, ⟨⟨"identity", 8⟩, none⟩)⟩
        {}]).snapshot "session" 2).2.isEmpty = true := by
  rw [← Bool.not_eq_false]
  intro hfilled
  obtain ⟨-, -, -, -, -, hreturned⟩ := serializedOutputCache_accounting ⟨24, 120, 80, 8⟩
    SERIALIZED_OUTPUT_CACHE_BUDGET_BYTES (by decide) _
  obtain ⟨entries, hlast, -⟩ := hreturned "session" 2 hfilled
  simp [lastStored] at hlast

end MagicContext.Wire
