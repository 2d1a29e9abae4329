import Mathlib.Algebra.Ring.Nat
import Mathlib.Data.List.Nodup
import Mathlib.Data.List.Perm.Subperm
import Mathlib.Order.Lattice

/-!
# Maps that are listed in the order of their keys

A finite map as the list of its entries, by increasing keys.  Two maps that answer alike are one
list, so equality of maps is equality of lists.

## What is here

* `SortedMap` — the entries, with `get`, `keys`, `map`, `insert` and `ofList`.
* `ext_get` — a map is what it answers.
* `get_ofList`, `ofList_perm`, `ofList_map` — maps from lists without repeated keys.
-/


/-- Entries with increasing keys. -/
structure SortedMap (κ ν : Type) [LinearOrder κ] where
  entries : List (κ × ν)
  sorted : entries.Pairwise fun e e' => e.1 < e'.1
  deriving DecidableEq

namespace SortedMap

variable {κ ν μ : Type} [LinearOrder κ]

def empty : SortedMap κ ν := ⟨[], List.Pairwise.nil⟩

def keys (m : SortedMap κ ν) : List κ := m.entries.map Prod.fst

def get (m : SortedMap κ ν) (k : κ) : Option ν :=
  (m.entries.find? fun e => decide (e.1 = k)).map Prod.snd

/-- The map with every value changed; keys stay. -/
def map (f : κ → ν → μ) (m : SortedMap κ ν) : SortedMap κ μ where
  entries := m.entries.map fun e => (e.1, f e.1 e.2)
  sorted := List.pairwise_map.mpr (m.sorted.imp fun h => h)

/-- Puts an entry in its place. -/
def insertEntry (k : κ) (v : ν) : List (κ × ν) → List (κ × ν)
  | [] => [(k, v)]
  | e :: entries =>
    if k < e.1 then (k, v) :: e :: entries
    else if k = e.1 then (k, v) :: entries
    else e :: insertEntry k v entries

variable {k : κ} {m : SortedMap κ ν} {entries : List (κ × ν)}

theorem mem_insertEntry {v : ν} {e : κ × ν}
    (h : e ∈ insertEntry k v entries) : e = (k, v) ∨ e ∈ entries := by
  induction entries with
  | nil => exact .inl (List.mem_singleton.mp h)
  | cons e' entries ih =>
    rw [insertEntry] at h
    split at h
    · exact List.mem_cons.mp h
    · split at h
      · exact (List.mem_cons.mp h).imp_right (List.mem_cons_of_mem e')
      · rcases List.mem_cons.mp h with rfl | h
        · exact .inr (List.mem_cons_self ..)
        · exact (ih h).imp_right (List.mem_cons_of_mem e')

theorem sorted_insertEntry {v : ν} (h : entries.Pairwise fun e e' => e.1 < e'.1) :
    (insertEntry k v entries).Pairwise fun e e' => e.1 < e'.1 := by
  induction entries with
  | nil => exact List.pairwise_singleton _ _
  | cons e entries ih =>
    rw [insertEntry]
    split
    · rename_i hlt
      refine List.Pairwise.cons (fun e' he' => ?_) h
      rcases List.mem_cons.mp he' with rfl | he'
      · exact hlt
      · exact lt_trans hlt (List.rel_of_pairwise_cons h he')
    · rename_i hlt
      split
      · rename_i heq
        exact List.Pairwise.cons (fun e' he' => heq ▸ List.rel_of_pairwise_cons h he') h.of_cons
      · rename_i hne
        refine List.Pairwise.cons (fun e' he' => ?_) (ih h.of_cons)
        rcases mem_insertEntry he' with rfl | he'
        · exact lt_of_le_of_ne (not_lt.mp hlt) fun heq => hne heq.symm
        · exact List.rel_of_pairwise_cons h he'

/-- The map with a value at a key. -/
def insert (m : SortedMap κ ν) (k : κ) (v : ν) : SortedMap κ ν :=
  ⟨insertEntry k v m.entries, sorted_insertEntry m.sorted⟩

/-- The entries of a list; of two with one key the later counts. -/
def ofList (l : List (κ × ν)) : SortedMap κ ν :=
  l.foldl (fun m e => m.insert e.1 e.2) empty

theorem get_eq_some {v : ν} : m.get k = some v ↔ (k, v) ∈ m.entries := by
  obtain ⟨entries, sorted⟩ := m
  rw [get]
  induction entries with
  | nil => simp
  | cons e entries ih =>
    have hrest := ih sorted.of_cons
    rw [List.find?_cons]
    by_cases he : e.1 = k
    · rw [decide_eq_true he, Option.map_some, Option.some_inj, List.mem_cons]
      constructor
      · rintro rfl
        exact .inl (he ▸ rfl)
      · rintro (rfl | hmem)
        · rfl
        · exact absurd (he ▸ List.rel_of_pairwise_cons sorted hmem) (lt_irrefl _)
    · rw [decide_eq_false he, List.mem_cons]
      refine hrest.trans ⟨.inr, fun h => h.resolve_left ?_⟩
      rintro rfl
      exact he rfl

theorem get_map (f : κ → ν → μ) (k : κ) : (m.map f).get k = (m.get k).map (f k) := by
  obtain ⟨entries, sorted⟩ := m
  rw [get, get, map, List.find?_map, Option.map_map, Option.map_map]
  induction entries with
  | nil => rfl
  | cons e entries ih =>
    rw [List.find?_cons, List.find?_cons]
    by_cases he : e.1 = k
    · simp [he]
    · simpa [he] using ih sorted.of_cons

theorem find_insertEntry (k k' : κ) (v : ν) (entries : List (κ × ν)) :
    (insertEntry k v entries).find? (fun e => decide (e.1 = k')) =
      if k = k' then some (k', v) else entries.find? fun e => decide (e.1 = k') := by
  induction entries with
  | nil => by_cases h : k = k' <;> simp [insertEntry, h]
  | cons e entries ih =>
    rw [insertEntry]
    split
    · by_cases h : k = k' <;> simp [h]
    · split
      · rename_i heq
        by_cases h : k = k'
        · simp [h]
        · have he : ¬ e.1 = k' := fun he => h (heq.trans he)
          simp [h, he]
      · rename_i hne
        by_cases he : e.1 = k'
        · have h : ¬ k = k' := fun h => hne (h.trans he.symm)
          simp [h, he]
        · simpa [he] using ih

theorem get_insert (m : SortedMap κ ν) (k k' : κ) (v : ν) :
    (m.insert k v).get k' = if k = k' then some v else m.get k' := by
  rw [get, get, insert, find_insertEntry]
  split <;> rfl

theorem mem_keys : k ∈ m.keys ↔ (m.get k).isSome := by
  rw [Option.isSome_iff_exists, keys, List.mem_map]
  constructor
  · rintro ⟨⟨k', v⟩, hmem, rfl⟩
    exact ⟨v, get_eq_some.mpr hmem⟩
  · rintro ⟨v, h⟩
    exact ⟨(k, v), get_eq_some.mp h, rfl⟩

theorem nodup (m : SortedMap κ ν) : m.entries.Nodup :=
  m.sorted.imp fun h heq => absurd (heq ▸ h) (lt_irrefl _)

/-- **A map is what it answers.** -/
theorem ext_get {m m' : SortedMap κ ν} (h : ∀ k, m.get k = m'.get k) : m = m' := by
  have hmem : ∀ e, e ∈ m.entries ↔ e ∈ m'.entries := fun (k, v) => by
    rw [← get_eq_some, ← get_eq_some, h]
  have hperm : m.entries.Perm m'.entries :=
    (List.perm_ext_iff_of_nodup m.nodup m'.nodup).mpr hmem
  have hentries : m.entries = m'.entries :=
    hperm.eq_of_pairwise (fun e e' _ _ h h' => absurd (lt_trans h h') (lt_irrefl _)) m.sorted
      m'.sorted
  cases m
  cases m'
  cases hentries
  rfl

theorem get_eq_none : m.get k = none ↔ k ∉ m.keys := by
  rw [mem_keys, Option.not_isSome_iff_eq_none]

/-- An entry with a new key comes in addition to the others. -/
theorem perm_insertEntry (v : ν) (h : ∀ e ∈ entries, k ≠ e.1) :
    (insertEntry k v entries).Perm ((k, v) :: entries) := by
  induction entries with
  | nil => exact List.Perm.refl _
  | cons e entries ih =>
    rw [insertEntry]
    split
    · exact List.Perm.refl _
    · rw [if_neg (h e (List.mem_cons_self ..))]
      exact ((ih fun e' he' => h e' (List.mem_cons_of_mem e he')).cons e).trans (List.Perm.swap ..)

theorem perm_insert (v : ν) (h : m.get k = none) :
    (m.insert k v).entries.Perm ((k, v) :: m.entries) := by
  refine perm_insertEntry v fun e he heq => get_eq_none.mp h ?_
  exact heq ▸ List.mem_map_of_mem he

theorem sum_insertEntry (k : κ) (n : Nat) {entries : List (κ × Nat)}
    (sorted : entries.Pairwise fun e e' => e.1 < e'.1) :
    ((insertEntry k n entries).map Prod.snd).sum +
        ((entries.find? fun e => decide (e.1 = k)).map Prod.snd).getD 0 =
      (entries.map Prod.snd).sum + n := by
  induction entries with
  | nil => simp [insertEntry]
  | cons e entries ih =>
    rw [insertEntry]
    split
    · rename_i hlt
      have hnone : (e :: entries).find? (fun e => decide (e.1 = k)) = none := by
        rw [List.find?_eq_none]
        rintro e' he' heq
        rcases List.mem_cons.mp he' with rfl | hmem
        · exact absurd (of_decide_eq_true heq) (ne_of_gt hlt)
        · exact absurd (of_decide_eq_true heq)
            (ne_of_gt (lt_trans hlt (List.rel_of_pairwise_cons sorted hmem)))
      rw [hnone, List.map_cons, List.sum_cons, Option.map_none, Option.getD_none, Nat.add_zero]
      exact Nat.add_comm _ _
    · split
      · rename_i heq
        simp only [heq, List.find?_cons, decide_true, Option.map_some, Option.getD_some,
          List.map_cons, List.sum_cons]
        omega
      · rename_i hne
        have hrest := ih sorted.of_cons
        rw [List.find?_cons, decide_eq_false fun heq => hne heq.symm, List.map_cons, List.map_cons,
          List.sum_cons, List.sum_cons]
        dsimp only
        omega

/-- The sum of the values with a new one in place of an old one. -/
theorem sum_insert (m : SortedMap κ Nat) (k : κ) (n : Nat) :
    ((m.insert k n).entries.map Prod.snd).sum + (m.get k).getD 0 =
      (m.entries.map Prod.snd).sum + n :=
  sum_insertEntry k n m.sorted

/-- What the values give, in the order of their keys. -/
theorem flatMap_entries (m : SortedMap κ ν) (f : ν → List μ) :
    m.entries.flatMap (fun e => f e.2) = m.keys.flatMap fun k => ((m.get k).map f).getD [] := by
  rw [keys, List.flatMap_map]
  refine List.flatMap_congr fun e he => ?_
  rw [get_eq_some.mpr he, Option.map_some, Option.getD_some]

theorem nodup_keys (m : SortedMap κ ν) : m.keys.Nodup :=
  List.pairwise_map.mpr (m.sorted.imp ne_of_lt)

/-- Increasing keys below a bound that are as many as the bound are all keys below it. -/
theorem keys_eq_range {m : SortedMap Nat ν} {n : Nat} (hlt : ∀ k ∈ m.keys, k < n)
    (hlength : m.entries.length = n) : m.keys = List.range n := by
  have hsub : m.keys.Subperm (List.range n) :=
    List.subperm_of_subset m.nodup_keys fun k hk => List.mem_range.mpr (hlt k hk)
  have hperm : m.keys.Perm (List.range n) :=
    hsub.perm_of_length_le (by rw [List.length_range, keys, List.length_map, hlength])
  exact hperm.eq_of_pairwise (fun k k' _ _ h h' => absurd (lt_trans h h') (lt_irrefl _))
    (List.pairwise_map.mpr m.sorted) List.pairwise_lt_range

/-! ## Maps from lists -/

theorem get_empty (k : κ) : (empty : SortedMap κ ν).get k = none := rfl

theorem get_foldl_insert {l : List (κ × ν)} (hl : (l.map Prod.fst).Nodup) (m : SortedMap κ ν)
    (k : κ) (v : ν) :
    (l.foldl (fun m e => m.insert e.1 e.2) m).get k = some v ↔
      (k, v) ∈ l ∨ (k ∉ l.map Prod.fst ∧ m.get k = some v) := by
  induction l generalizing m with
  | nil => simp
  | cons e l ih =>
    obtain ⟨hnotMem, hl⟩ := List.nodup_cons.mp hl
    rw [List.foldl_cons, ih hl, get_insert, List.mem_cons, List.map_cons, List.mem_cons]
    by_cases hk : e.1 = k
    · subst hk
      have hmem : (e.1, v) ∉ l := fun h => hnotMem (List.mem_map.mpr ⟨_, h, rfl⟩)
      rw [if_pos rfl, Option.some_inj]
      constructor
      · rintro (h | ⟨-, rfl⟩)
        · exact absurd h hmem
        · exact .inl (.inl rfl)
      · rintro ((heq | h) | ⟨hne, -⟩)
        · exact .inr ⟨hnotMem, (congrArg Prod.snd heq).symm⟩
        · exact absurd h hmem
        · exact absurd (.inl rfl) hne
    · rw [if_neg hk]
      constructor
      · rintro (h | ⟨hne, h⟩)
        · exact .inl (.inr h)
        · exact .inr ⟨fun h' => h'.elim (fun h' => hk h'.symm) hne, h⟩
      · rintro ((heq | h) | ⟨hne, h⟩)
        · exact absurd (congrArg Prod.fst heq).symm hk
        · exact .inl h
        · exact .inr ⟨fun h' => hne (.inr h'), h⟩

/-- A map from a list without repeated keys has its entries. -/
theorem get_ofList {l : List (κ × ν)} (hl : (l.map Prod.fst).Nodup) (k : κ) (v : ν) :
    (ofList l).get k = some v ↔ (k, v) ∈ l := by
  rw [ofList, get_foldl_insert hl]
  simp [get_empty]

/-- A map is the map of its entries. -/
theorem ofList_entries (m : SortedMap κ ν) : ofList m.entries = m := by
  refine ext_get fun k => Option.ext fun v => ?_
  rw [get_ofList m.nodup_keys, get_eq_some]

/-- The order of a list without repeated keys does not matter. -/
theorem ofList_perm {l l' : List (κ × ν)} (hl : (l.map Prod.fst).Nodup) (h : l.Perm l') :
    ofList l = ofList l' := by
  refine ext_get fun k => Option.ext fun v => ?_
  rw [get_ofList hl, get_ofList ((h.map Prod.fst).nodup_iff.mp hl), h.mem_iff]

theorem entries_ofList {l : List (κ × ν)} (hl : (l.map Prod.fst).Nodup) :
    (ofList l).entries.Perm l :=
  (List.perm_ext_iff_of_nodup (nodup _) (List.Nodup.of_map _ hl)).mpr fun (k, v) => by
    rw [← get_eq_some, get_ofList hl]

theorem map_insertEntry (f : ν → μ) (k : κ) (v : ν) (entries : List (κ × ν)) :
    (insertEntry k v entries).map (fun e => (e.1, f e.2)) =
      insertEntry k (f v) (entries.map fun e => (e.1, f e.2)) := by
  induction entries with
  | nil => rfl
  | cons e entries ih =>
    rw [List.map_cons, insertEntry, insertEntry]
    split
    · rfl
    · split
      · rfl
      · rw [List.map_cons, ih]

/-- Values can be changed before or after the map is made. -/
theorem ofList_map (f : ν → μ) (l : List (κ × ν)) :
    ofList (l.map fun e => (e.1, f e.2)) = (ofList l).map fun _ v => f v := by
  have hfold : ∀ m : SortedMap κ ν,
      (l.map fun e => (e.1, f e.2)).foldl (fun m e => m.insert e.1 e.2) (m.map fun _ v => f v) =
        (l.foldl (fun m e => m.insert e.1 e.2) m).map fun _ v => f v := by
    induction l with
    | nil => exact fun _ => rfl
    | cons e l ih =>
      intro m
      rw [List.map_cons, List.foldl_cons, List.foldl_cons, ← ih]
      congr 1
      rw [insert, map, map, insert, mk.injEq]
      exact (map_insertEntry f e.1 e.2 m.entries).symm
  exact hfold empty

end SortedMap
