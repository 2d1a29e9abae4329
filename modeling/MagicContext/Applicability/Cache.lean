import MagicContext.Lib.Entries

/-!
# The cache with two generations

When the current generation is full it becomes the previous one, and what was the previous
generation is dropped; a hit in the previous generation moves the entry to the current one while
there is room.  A key can be in both generations at once, the older value in the previous one.

## What is here

* `TwoGenerationCache` with `get`, `insert` and `update`.
* `Good` — what every call keeps: sizes, and that what is found is the latest.
* `Recent` — what keeps a key from being dropped.
* `cache_refines_map` and `dropped_early`.
-/

namespace MagicContext.Applicability

open Entries

structure TwoGenerationCache (κ ν : Type) where
  current : Entries κ ν
  previous : Entries κ ν
  cap : Nat

namespace TwoGenerationCache

variable {κ ν : Type}

def new (cap : Nat) : TwoGenerationCache κ ν := ⟨.empty, .empty, cap⟩

section
variable [DecidableEq κ]

variable (cache : TwoGenerationCache κ ν)

def getKeyValue (key : κ) : Option (κ × ν) × TwoGenerationCache κ ν :=
  match cache.current.find key with
  | some value => (some (key, value), cache)
  | none =>
    match cache.previous.find key with
    | some value =>
      let previous := cache.previous.erase key
      if cache.current.length < cache.cap then
        (some (key, value), { cache with current := cache.current.set key value, previous })
      else (some (key, value), { cache with previous := previous.set key value })
    | none => (none, cache)

def get (key : κ) : Option ν × TwoGenerationCache κ ν :=
  ((cache.getKeyValue key).1.map Prod.snd, (cache.getKeyValue key).2)

/-- Hands out the generation that is dropped, if one is. -/
def insert (key : κ) (value : ν) : Option (Entries κ ν) × TwoGenerationCache κ ν :=
  if cache.cap ≤ cache.current.length ∧ (cache.current.find key).isNone then
    (some cache.previous,
      { cache with previous := cache.current, current := Entries.empty.set key value })
  else (none, { cache with current := cache.current.set key value })

def update (key : κ) (apply : ν → ν) : Bool × TwoGenerationCache κ ν :=
  match cache.current.find key with
  | some value => (true, { cache with current := cache.current.set key (apply value) })
  | none =>
    match cache.previous.find key with
    | some value => (true, { cache with previous := cache.previous.set key (apply value) })
    | none => (false, cache)

/-! ## Calls -/

inductive Call (κ ν : Type) where
  | get (key : κ)
  | insert (key : κ) (value : ν)
  | update (key : κ) (apply : ν → ν)

def step : Call κ ν → TwoGenerationCache κ ν
  | .get key => (cache.get key).2
  | .insert key value => (cache.insert key value).2
  | .update key apply => (cache.update key apply).2

def run (calls : List (Call κ ν)) : TwoGenerationCache κ ν :=
  calls.foldl step cache

/-- The value of a key after the last call that set it. -/
def latest (values : κ → Option ν) : Call κ ν → κ → Option ν
  | .get _, key => values key
  | .insert key' value, key => if key' = key then some value else values key
  | .update key' apply, key => if key' = key then (values key).map apply else values key

/-- The hit moves the key from the previous generation to the current one. -/
def Promotes (key : κ) : Prop :=
  cache.current.find key = none ∧ (cache.previous.find key).isSome ∧
    cache.current.length < cache.cap

instance (key : κ) : Decidable (cache.Promotes key) := inferInstanceAs (Decidable (_ ∧ _))

/-- The key that a call inserts or promotes. -/
def entered : Call κ ν → List κ
  | .get key => if cache.Promotes key then [key] else []
  | .insert key _ => [key]
  | .update _ _ => []

/-- The keys that calls insert or promote. -/
def allEntered (cache : TwoGenerationCache κ ν) : List (Call κ ν) → List κ
  | [] => []
  | call :: calls => cache.entered call ++ (cache.step call).allEntered calls

/-- A call that inserts the key, or hits it while the current generation has room. -/
def Renews (key : κ) : Call κ ν → Prop
  | .get key' => key' = key ∧ (cache.get key).1.isSome ∧ cache.current.length < cache.cap
  | .insert key' _ => key' = key
  | .update _ _ => False

/-! ## What is found is the latest -/

variable {cache : TwoGenerationCache κ ν} {values : κ → Option ν} {key : κ}

/-- The sizes are kept, and no value but the latest can be found. -/
structure Good (cache : TwoGenerationCache κ ν) (values : κ → Option ν) : Prop where
  current : ∀ {key value}, cache.current.find key = some value → values key = some value
  previous : ∀ {key value}, cache.current.find key = none →
    cache.previous.find key = some value → values key = some value
  length_current : cache.current.length ≤ cache.cap
  length_previous : cache.previous.length ≤ cache.cap

theorem get_fst (cache : TwoGenerationCache κ ν) (key : κ) :
    (cache.get key).1 = (cache.current.find key).or (cache.previous.find key) := by
  rw [get, getKeyValue]
  split
  · rename_i h
    simp [h]
  · rename_i h
    split
    · rename_i h'
      split <;> simp [h, h']
    · rename_i h'
      simp [h, h']

theorem Good.found (hgood : cache.Good values) {value : ν} (h : (cache.get key).1 = some value) :
    values key = some value := by
  rw [get_fst, Option.or_eq_some_iff] at h
  exact h.elim hgood.current fun h => hgood.previous h.1 h.2

/-! ## What a call does -/

inductive Effect (cache : TwoGenerationCache κ ν) : Call κ ν → TwoGenerationCache κ ν → Prop
  | looked {key : κ} (h : (cache.current.find key).isSome ∨ cache.previous.find key = none) :
      Effect cache (.get key) cache
  | promoted {key : κ} {value : ν} (hcurrent : cache.current.find key = none)
      (hprevious : cache.previous.find key = some value)
      (hroom : cache.current.length < cache.cap) :
      Effect cache (.get key)
        { cache with
          current := cache.current.set key value, previous := cache.previous.erase key }
  | returned {key : κ} {value : ν} (hprevious : cache.previous.find key = some value)
      (hfull : cache.cap ≤ cache.current.length) :
      Effect cache (.get key) { cache with previous := cache.previous.set key value }
  | inserted {key : κ} {value : ν}
      (hroom : cache.current.length < cache.cap ∨ (cache.current.find key).isSome) :
      Effect cache (.insert key value) { cache with current := cache.current.set key value }
  | rotated {key : κ} {value : ν} (hfull : cache.cap ≤ cache.current.length)
      (hnew : cache.current.find key = none) :
      Effect cache (.insert key value)
        { cache with previous := cache.current, current := Entries.empty.set key value }
  | updated {key : κ} {value : ν} {apply : ν → ν} (h : cache.current.find key = some value) :
      Effect cache (.update key apply)
        { cache with current := cache.current.set key (apply value) }
  | updatedPrevious {key : κ} {value : ν} {apply : ν → ν} (hcurrent : cache.current.find key = none)
      (hprevious : cache.previous.find key = some value) :
      Effect cache (.update key apply)
        { cache with previous := cache.previous.set key (apply value) }
  | missed {key : κ} {apply : ν → ν} (hcurrent : cache.current.find key = none)
      (hprevious : cache.previous.find key = none) : Effect cache (.update key apply) cache

theorem step_effect (cache : TwoGenerationCache κ ν) (call : Call κ ν) :
    Effect cache call (cache.step call) := by
  cases call with
  | get key =>
    simp only [step, get, getKeyValue]
    split
    · rename_i hcurrent
      exact .looked (.inl (Option.isSome_of_eq_some hcurrent))
    · rename_i hcurrent
      split
      · rename_i hprevious
        split
        · rename_i hroom
          exact .promoted hcurrent hprevious hroom
        · rename_i hfull
          rw [set_erase]
          exact .returned hprevious (not_lt.mp hfull)
      · rename_i hprevious
        exact .looked (.inr hprevious)
  | insert key value =>
    simp only [step, insert]
    split
    · rename_i h
      exact .rotated h.1 (Option.isNone_iff_eq_none.mp h.2)
    · rename_i h
      refine .inserted ?_
      rwa [not_and_or, not_le, Option.isNone_iff_eq_none, ← ne_eq, ← Option.isSome_iff_ne_none] at h
  | update key apply =>
    simp only [step, update]
    split
    · rename_i h
      exact .updated h
    · rename_i hcurrent
      split
      · rename_i hprevious
        exact .updatedPrevious hcurrent hprevious
      · rename_i hprevious
        exact .missed hcurrent hprevious

theorem Good.step (hgood : cache.Good values) (hcap : 1 ≤ cache.cap) (call : Call κ ν) :
    (cache.step call).Good (latest values call) := by
  obtain ⟨hcurrent, hprevious, hlength, hlength'⟩ := hgood
  have heffect := step_effect cache call
  generalize cache.step call = cache' at heffect ⊢
  cases heffect with
  | looked => exact ⟨hcurrent, hprevious, hlength, hlength'⟩
  | promoted hnone hfound hroom =>
    refine ⟨?_, ?_, ?_, ?_⟩
    · grind [latest, find_set]
    · grind [latest, find_set, find_erase]
    · rw [length_set, hnone]
      exact hroom
    · exact (length_erase_le _ _).trans hlength'
  | returned hfound =>
    refine ⟨hcurrent, ?_, hlength, ?_⟩
    · grind [latest, find_set]
    · rwa [length_set, hfound]
  | inserted hroom =>
    refine ⟨?_, ?_, ?_, hlength'⟩
    · grind [latest, find_set]
    · grind [latest, find_set]
    · rw [length_set]
      split
      · exact hlength
      · grind
  | rotated hfull hnew =>
    refine ⟨?_, ?_, ?_, hlength⟩
    · grind [latest, find_set, find_empty]
    · grind [latest, find_set, find_empty]
    · exact hcap
  | updated h =>
    refine ⟨?_, ?_, ?_, hlength'⟩
    · grind [latest, find_set]
    · grind [latest, find_set]
    · rwa [length_set, h]
  | updatedPrevious hnone hfound =>
    refine ⟨?_, ?_, hlength, ?_⟩
    · grind [latest]
    · grind [latest, find_set]
    · rwa [length_set, hfound]
  | missed hnone hnone' =>
    refine ⟨?_, ?_, hlength, hlength'⟩
    · grind [latest]
    · grind [latest]

/-! ## Recent keys are kept -/

/-- The key is in the current generation, or in the previous one while nothing but keys in `S` has
come to the current one. -/
def Recent (cache : TwoGenerationCache κ ν) (key : κ) (S : Finset κ) : Prop :=
  (cache.current.find key).isSome ∨
    (cache.previous.find key).isSome ∧ ∀ k, (cache.current.find k).isSome → k ∈ S

theorem Recent.step {S : Finset κ} (hrecent : cache.Recent key S) (call : Call κ ν)
    (hfew : (S ∪ (cache.entered call).toFinset.erase key).card ≤ cache.cap) :
    (cache.step call).Recent key (S ∪ (cache.entered call).toFinset.erase key) := by
  have hmem : ∀ k, k ∈ S ∪ (cache.entered call).toFinset.erase key ↔
      k ∈ S ∨ k ≠ key ∧ k ∈ cache.entered call := by simp
  have heffect := step_effect cache call
  generalize hS' : S ∪ (cache.entered call).toFinset.erase key = S' at hfew hmem ⊢
  generalize cache.step call = cache' at heffect ⊢
  cases heffect with
  | looked | returned | updatedPrevious | missed => grind [Recent, find_set]
  | promoted hnone hfound => grind [Recent, find_set, find_erase, entered, Promotes]
  | inserted => grind [Recent, find_set, entered]
  | updated h => grind [Recent, find_set]
  | @rotated key' value hfull hnew =>
    have hentered : ∀ k, k ∈ cache.entered (.insert key' value) ↔ k = key' :=
      fun k => List.mem_singleton
    rcases eq_or_ne key' key with rfl | hne
    · exact .inl (by simp)
    rcases hrecent with hcurrent | ⟨-, hkeys⟩
    · exact .inr ⟨hcurrent, by grind [find_set, find_empty]⟩
    · -- the keys of the full generation and the new one are more than there may be
      have hlength := length_le_card (m := cache.current.set key' value) (S := S') (by
        grind [find_set])
      rw [length_set, hnew] at hlength
      simp only [Option.isSome_none, Bool.false_eq_true, if_false] at hlength
      omega

@[simp] theorem cap_step (cache : TwoGenerationCache κ ν) (call : Call κ ν) :
    (cache.step call).cap = cache.cap := by
  have heffect := step_effect cache call
  generalize cache.step call = cache' at heffect ⊢
  cases heffect <;> rfl

theorem Recent.run {S : Finset κ} (hrecent : cache.Recent key S) (calls : List (Call κ ν))
    (hfew : (S ∪ (cache.allEntered calls).toFinset.erase key).card ≤ cache.cap) :
    ((cache.run calls).get key).1.isSome := by
  induction calls generalizing cache S with
  | nil =>
    rw [run, List.foldl_nil, get_fst, Option.isSome_or, Bool.or_eq_true]
    exact hrecent.imp_right And.left
  | cons call calls ih =>
    rw [allEntered, List.toFinset_append, Finset.erase_union_distrib, ← Finset.union_assoc] at hfew
    refine ih (hrecent.step call ?_) (by rwa [cap_step])
    exact (Finset.card_le_card Finset.subset_union_left).trans hfew

theorem recent_of_renews {call : Call κ ν} (h : cache.Renews key call) :
    (cache.step call).Recent key ∅ := by
  have heffect := step_effect cache call
  generalize cache.step call = cache' at heffect ⊢
  cases heffect <;> grind [Recent, Renews, get_fst, find_set, find_empty]

/-! ## Runs -/

theorem Good.run (hgood : cache.Good values) (hcap : 1 ≤ cache.cap) (calls : List (Call κ ν)) :
    (cache.run calls).Good (calls.foldl latest values) := by
  induction calls generalizing cache values with
  | nil => exact hgood
  | cons call calls ih => exact ih (hgood.step hcap call) (by rwa [cap_step])

theorem good_new (cap : Nat) : (new cap : TwoGenerationCache κ ν).Good fun _ => none :=
  ⟨by simp [new], by simp [new], Nat.zero_le _, Nat.zero_le _⟩

theorem cap_run (cache : TwoGenerationCache κ ν) (calls : List (Call κ ν)) :
    (cache.run calls).cap = cache.cap := by
  induction calls generalizing cache with
  | nil => rfl
  | cons call calls ih => exact (ih _).trans (cap_step cache call)

/-- **What the cache promises**: nothing but the latest value of a key is found, no more than twice
the capacity is held, and a key that has been inserted, or hit while there was room, is found until
more than the capacity of other keys have been inserted or promoted. -/
theorem cache_refines_map {cap : Nat} (hcap : 1 ≤ cap) (calls : List (Call κ ν)) :
    (∀ key value, (((new cap).run calls).get key).1 = some value →
      calls.foldl latest (fun _ => none) key = some value) ∧
    ((new cap).run calls).current.length + ((new cap).run calls).previous.length ≤ 2 * cap ∧
    ∀ before call after key, calls = before ++ call :: after →
      ((new cap).run before).Renews key call →
      (((((new cap).run before).step call).allEntered after).toFinset.erase key).card ≤ cap →
      (((new cap).run calls).get key).1.isSome := by
  have hgood := (good_new cap).run hcap calls
  refine ⟨fun key value => hgood.found, ?_, ?_⟩
  · have hcurrent := hgood.length_current
    have hprevious := hgood.length_previous
    rw [cap_run] at hcurrent hprevious
    change _ ≤ cap at hcurrent
    change _ ≤ cap at hprevious
    omega
  · rintro before call after key rfl hrenews hfew
    rw [run, List.foldl_append, List.foldl_cons]
    refine (recent_of_renews hrenews).run after ?_
    rw [Finset.empty_union, cap_step, cap_run]
    exact hfew

/-- Three keys fill two generations; the first is promoted, and the second is updated and found. -/
theorem cache_refines_map_promoted :
    let calls : List (Call Nat Nat) :=
      [.insert 0 5, .insert 1 6, .insert 2 7, .get 0, .update 1 (· + 1)]
    ((new 2).run calls).current.find 0 = some 5 ∧ ((new 2).run calls).previous.find 1 = some 7 ∧
      calls.foldl latest (fun _ => none) 1 = some 7 ∧
      ((new 2).run calls).current.length + ((new 2).run calls).previous.length ≤ 4 ∧
      (((new 2).run calls).get 1).1.isSome := by
  intro calls
  obtain ⟨hlatest, hsize, hkept⟩ := @cache_refines_map Nat Nat _ 2 (by decide) calls
  exact ⟨by decide, by decide, hlatest 1 7 (by decide), hsize,
    hkept [.insert 0 5] (.insert 1 6) [.insert 2 7, .get 0, .update 1 (· + 1)] 1 rfl rfl
      (by decide)⟩

/-- The keys that calls insert. -/
def inserted : List (Call κ ν) → List κ :=
  List.filterMap fun
    | .insert key _ => some key
    | _ => none

/-- Three keys are inserted, and a fourth; the first two are hit, and a fifth is inserted: the third
cannot be found, though the capacity is three and two keys were inserted after it. -/
theorem dropped_early :
    let before : List (Call Nat Nat) := [.insert 0 0, .insert 1 1]
    let after : List (Call Nat Nat) := [.insert 3 3, .get 0, .get 1, .insert 4 4]
    ((new 3).run before).Renews 2 (.insert 2 2) ∧ ((new 3).run before).current.length < 3 ∧
      ((inserted after).toFinset.erase 2).card < 3 ∧
      (((new 3).run (before ++ .insert 2 2 :: after)).get 2).1 = none :=
  ⟨rfl, by decide, by decide, by decide⟩

end
end TwoGenerationCache
end MagicContext.Applicability
