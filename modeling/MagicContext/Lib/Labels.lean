import Mathlib.Order.Lattice

/-!
# Labels that only rise

A store keeps copies of things.  Every copy has a label from an order with joins, and some of the
copies are live.  A new copy of a thing gets the join of all its labels, dead copies included, and
raises the live ones to it.  So the live copies of a thing are level, and what a label has ever been
is not forgotten when the last live copy goes.

## What is here

* `Labelled` — what of a row is the thing, the label, and whether it is live.
* `join` and `raise` — the join of the labels of a thing, and writing it to the live copies.
* `Level` — no copy of a thing is above a live one.
* `Known` — a label that no upper bound of the copies is without.
* The rules of `Level` and `Known` for `raise`, for a new copy and for copies that die.
-/

namespace MagicContext

/-- Rows that are labelled copies. -/
structure Labelled (ρ κ L : Type) where
  key : ρ → κ
  live : ρ → Bool
  label : ρ → L
  relabel : L → ρ → ρ
  key_relabel : ∀ l r, key (relabel l r) = key r
  live_relabel : ∀ l r, live (relabel l r) = live r
  label_relabel : ∀ l r, label (relabel l r) = l

namespace Labelled

variable {ρ κ L : Type} (c : Labelled ρ κ L)

/-! ## Copies that die -/

/-- The same copies later, of which some may have died. -/
structure Fades (rows rows' : List ρ) : Prop where
  old : ∀ r' ∈ rows', ∃ r ∈ rows, c.key r = c.key r' ∧ c.label r = c.label r' ∧
    (c.live r' = true → c.live r = true)
  kept : ∀ r ∈ rows, ∃ r' ∈ rows', c.key r' = c.key r ∧ c.label r' = c.label r

section Fades
variable {c} {rows rows' : List ρ}

theorem Fades.refl (rows : List ρ) : c.Fades rows rows :=
  ⟨fun r hr => ⟨r, hr, rfl, rfl, id⟩, fun r hr => ⟨r, hr, rfl, rfl⟩⟩

theorem Fades.trans {rows'' : List ρ} (h : c.Fades rows rows') (h' : c.Fades rows' rows'') :
    c.Fades rows rows'' where
  old r'' hr'' := by
    obtain ⟨r', hr', hkey', hlabel', hlive'⟩ := h'.old r'' hr''
    obtain ⟨r, hr, hkey, hlabel, hlive⟩ := h.old r' hr'
    exact ⟨r, hr, hkey.trans hkey', hlabel.trans hlabel', hlive ∘ hlive'⟩
  kept r hr := by
    obtain ⟨r', hr', hkey, hlabel⟩ := h.kept r hr
    obtain ⟨r'', hr'', hkey', hlabel'⟩ := h'.kept r' hr'
    exact ⟨r'', hr'', hkey'.trans hkey, hlabel'.trans hlabel⟩

/-- Changing rows in what is neither thing nor label, without reviving any. -/
theorem Fades.of_map {f : ρ → ρ} (hkey : ∀ r, c.key (f r) = c.key r)
    (hlabel : ∀ r, c.label (f r) = c.label r)
    (hlive : ∀ r, c.live (f r) = true → c.live r = true) (rows : List ρ) :
    c.Fades rows (rows.map f) where
  old r' hr' := by
    obtain ⟨r, hr, rfl⟩ := List.mem_map.mp hr'
    exact ⟨r, hr, (hkey r).symm, (hlabel r).symm, hlive r⟩
  kept r hr := ⟨f r, List.mem_map_of_mem hr, hkey r, hlabel r⟩

end Fades

/-! ## Live copies -/

section Level
variable [SemilatticeSup L]

/-- No copy of a thing is above a live one. -/
def Level (rows : List ρ) : Prop :=
  ∀ r ∈ rows, c.live r = true → ∀ r' ∈ rows, c.key r' = c.key r → c.label r' ≤ c.label r

/-- No copy of the thing is above the label. -/
def Bounded (k : κ) (u : L) (rows : List ρ) : Prop := ∀ r ∈ rows, c.key r = k → c.label r ≤ u

/-- Whatever bounds the copies of the thing bounds the label. -/
def Known (k : κ) (l : L) (rows : List ρ) : Prop := ∀ u, c.Bounded k u rows → l ≤ u

variable {c} {k : κ} {l : L} {rows rows' : List ρ} {r : ρ}

/-- **The live copies of a thing are level.** -/
theorem Level.eq (h : c.Level rows) {r r' : ρ} (hr : r ∈ rows) (hr' : r' ∈ rows)
    (hlive : c.live r = true) (hlive' : c.live r' = true) (hkey : c.key r = c.key r') :
    c.label r = c.label r' :=
  le_antisymm (h r' hr' hlive' r hr hkey) (h r hr hlive r' hr' hkey.symm)

/-- **A live copy carries what is known.** -/
theorem Level.le_of_known (h : c.Level rows) (hknown : c.Known (c.key r) l rows) (hr : r ∈ rows)
    (hlive : c.live r = true) : l ≤ c.label r :=
  hknown _ fun r' hr' hkey => h r hr hlive r' hr' hkey

theorem Level.fade (h : c.Level rows) (hfades : c.Fades rows rows') : c.Level rows' := by
  intro r₁' hr₁' hlive r₂' hr₂' hkey
  obtain ⟨r₁, hr₁, hkey₁, hlabel₁, hlive₁⟩ := hfades.old r₁' hr₁'
  obtain ⟨r₂, hr₂, hkey₂, hlabel₂, -⟩ := hfades.old r₂' hr₂'
  rw [← hlabel₁, ← hlabel₂]
  exact h r₁ hr₁ (hlive₁ hlive) r₂ hr₂ (hkey₂.trans (hkey.trans hkey₁.symm))

theorem Known.fade (h : c.Known k l rows) (hfades : c.Fades rows rows') : c.Known k l rows' := by
  intro u hu
  refine h u fun r hr hkey => ?_
  obtain ⟨r', hr', hkey', hlabel⟩ := hfades.kept r hr
  exact hlabel ▸ hu r' hr' (hkey'.trans hkey)

theorem Known.append (h : c.Known k l rows) : c.Known k l (rows ++ rows') := by
  intro u hu
  exact h u fun r hr => hu r (List.mem_append_left _ hr)

theorem known_append (hle : l ≤ c.label r) : c.Known (c.key r) l (rows ++ [r]) := by
  intro u hu
  exact hle.trans (hu r (List.mem_append_right _ (List.mem_singleton_self r)) rfl)

theorem foldl_sup_le {u : L} :
    rows.foldl (fun l r => l ⊔ c.label r) l ≤ u ↔ l ≤ u ∧ ∀ r ∈ rows, c.label r ≤ u := by
  induction rows generalizing l with
  | nil => simp
  | cons r rows ih => simp [ih, and_assoc]

end Level

/-! ## Raising -/

section Raise
variable [DecidableEq κ]

/-- Writes a label to the live copies of a thing. -/
def raise (k : κ) (l : L) (rows : List ρ) : List ρ :=
  rows.map fun r => if c.key r = k ∧ c.live r = true then c.relabel l r else r

section Copies
variable {c} {k : κ} {u : L} {rows : List ρ}

/-- Where a row of the raised list comes from. -/
theorem mem_raise {r' : ρ} : r' ∈ c.raise k u rows ↔ ∃ r ∈ rows,
    (if c.key r = k ∧ c.live r = true then c.relabel u r else r) = r' :=
  List.mem_map

/-- The live copies of a thing carry what they were raised to. -/
theorem label_of_raise {r : ρ} (hr : r ∈ c.raise k u rows) (hlive : c.live r = true)
    (hkey : c.key r = k) : c.label r = u := by
  obtain ⟨r₀, -, rfl⟩ := mem_raise.mp hr
  by_cases hhit : c.key r₀ = k ∧ c.live r₀ = true
  · rw [if_pos hhit]
    exact c.label_relabel _ _
  · rw [if_neg hhit] at hlive hkey
    exact absurd ⟨hkey, hlive⟩ hhit

end Copies

section Join
variable [SemilatticeSup L]

/-- The join of a label with those of all copies of a thing. -/
def join (k : κ) (l : L) (rows : List ρ) : L :=
  (rows.filter fun r => c.key r = k).foldl (fun l r => l ⊔ c.label r) l

variable {c} {k k' : κ} {l u : L} {rows : List ρ} {r : ρ}

theorem join_le : c.join k l rows ≤ u ↔ l ≤ u ∧ c.Bounded k u rows := by
  simp [join, foldl_sup_le, Bounded]

theorem le_join : l ≤ c.join k l rows := (join_le.mp le_rfl).1

theorem bounded_join : c.Bounded k (c.join k l rows) rows := (join_le.mp le_rfl).2

/-- A label is known as soon as it adds nothing to the others. -/
theorem known_of_le_join {b : L} (hb : ∀ u, b ≤ u) (h : l ≤ c.join k b rows) : c.Known k l rows :=
  fun u hu => h.trans (join_le.mpr ⟨hb u, hu⟩)

theorem le_raise (hu : c.Bounded k u rows) (hr : r ∈ rows) :
    ∃ r' ∈ c.raise k u rows, c.key r' = c.key r ∧ c.label r ≤ c.label r' := by
  refine ⟨_, mem_raise.mpr ⟨r, hr, rfl⟩, ?_⟩
  split
  · rename_i hhit
    exact ⟨c.key_relabel _ _, (hu r hr hhit.1).trans (c.label_relabel _ _).ge⟩
  · exact ⟨rfl, le_rfl⟩

/-- What is known stays known when the live copies rise. -/
theorem Known.raise (h : c.Known k' l rows) (hu : c.Bounded k u rows) :
    c.Known k' l (c.raise k u rows) := by
  intro v hv
  refine h v fun r hr hkey => ?_
  obtain ⟨r', hr', hkey', hle⟩ := le_raise hu hr
  exact hle.trans (hv r' hr' (hkey'.trans hkey))

/-- A label is known once it is written to a live copy. -/
theorem known_raise (hr : r ∈ rows) (hlive : c.live r = true) (hle : l ≤ u) :
    c.Known (c.key r) l (c.raise (c.key r) u rows) := by
  intro v hv
  have hrow := hv _ (mem_raise.mpr ⟨r, hr, rfl⟩)
  rw [if_pos ⟨rfl, hlive⟩, c.key_relabel, c.label_relabel] at hrow
  exact hle.trans (hrow rfl)

theorem bounded_raise (hu : c.Bounded k u rows) : c.Bounded k u (c.raise k u rows) := by
  intro r hr hkey
  obtain ⟨r₀, hr₀, rfl⟩ := mem_raise.mp hr
  by_cases hhit : c.key r₀ = k ∧ c.live r₀ = true
  · rw [if_pos hhit]
    exact (c.label_relabel _ _).le
  · rw [if_neg hhit] at hkey ⊢
    exact hu r₀ hr₀ hkey

theorem Level.raise (h : c.Level rows) (hu : c.Bounded k u rows) : c.Level (c.raise k u rows) := by
  intro r₁ hr₁ hlive r₂ hr₂ hkey
  by_cases hk : c.key r₁ = k
  · rw [label_of_raise hr₁ hlive hk]
    exact bounded_raise hu r₂ hr₂ (hkey.trans hk)
  · obtain ⟨s₁, hs₁, rfl⟩ := mem_raise.mp hr₁
    obtain ⟨s₂, hs₂, rfl⟩ := mem_raise.mp hr₂
    -- Neither row is about the thing whose copies rise.
    have hmiss₁ : ¬ (c.key s₁ = k ∧ c.live s₁ = true) := by
      intro hhit
      rw [if_pos hhit, c.key_relabel] at hk
      exact hk hhit.1
    rw [if_neg hmiss₁] at hlive hkey hk ⊢
    have hmiss₂ : ¬ (c.key s₂ = k ∧ c.live s₂ = true) := by
      intro hhit
      rw [if_pos hhit, c.key_relabel] at hkey
      exact hk (hkey.symm.trans hhit.1)
    rw [if_neg hmiss₂] at hkey ⊢
    exact h s₁ hs₁ hlive s₂ hs₂ hkey

/-- **A new copy with the label the live ones were raised to** leaves all level. -/
theorem Level.add (h : c.Level rows) (hu : c.Bounded (c.key r) u rows) (hlabel : c.label r = u) :
    c.Level (c.raise (c.key r) u rows ++ [r]) := by
  intro r₁ hr₁ hlive r₂ hr₂ hkey
  rcases List.mem_append.mp hr₁ with hr₁ | hr₁
  · rcases List.mem_append.mp hr₂ with hr₂ | hr₂
    · exact h.raise hu r₁ hr₁ hlive r₂ hr₂ hkey
    · obtain rfl := List.mem_singleton.mp hr₂
      rw [label_of_raise hr₁ hlive hkey.symm, hlabel]
  · obtain rfl := List.mem_singleton.mp hr₁
    rw [hlabel]
    rcases List.mem_append.mp hr₂ with hr₂ | hr₂
    · exact bounded_raise hu r₂ hr₂ hkey
    · rw [List.mem_singleton.mp hr₂, hlabel]

end Join
end Raise

end Labelled
end MagicContext
