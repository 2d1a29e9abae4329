import Mathlib.Data.List.Infix

/-!
# Taking what fits

Things are taken one after the other, each at a cost that is added to what has been spent, until
one is refused at what has been spent so far.

## What is here

* `fitting` — the things that are taken; `fitting_prefix`, they come first.
* `fitting_append` — when all of the first things fit, the others follow at what those have cost.
* `reaching` — the things that are taken until it is enough; `reaching_shortest`, as few as that
  takes.
-/

namespace Fitting

variable {α F : Type*} [Add F]

/-- What has been spent after taking all of a list. -/
def spent (cost : α → F) (start : F) (items : List α) : F :=
  items.foldl (fun total item => total + cost item) start

/-- The things taken before the first that is refused. -/
def fitting (refuses : F → F → Bool) (cost : α → F) : F → List α → List α
  | _, [] => []
  | total, item :: rest =>
    if refuses total (cost item) then []
    else item :: fitting refuses cost (total + cost item) rest

variable {refuses : F → F → Bool} {cost : α → F}

theorem fitting_prefix (total : F) (items : List α) :
    fitting refuses cost total items <+: items := by
  induction items generalizing total with
  | nil => exact List.prefix_refl []
  | cons item rest ih =>
    rw [fitting]
    split
    · exact List.nil_prefix
    · exact List.prefix_cons_inj item |>.mpr (ih _)

/-- **When all of the first things fit**, the others follow at what those have cost. -/
theorem fitting_append {total : F} {items : List α} (h : fitting refuses cost total items = items)
    (rest : List α) :
    fitting refuses cost total (items ++ rest) =
      items ++ fitting refuses cost (spent cost total items) rest := by
  induction items generalizing total with
  | nil => rfl
  | cons item items ih =>
    rw [fitting] at h
    split at h
    · cases h
    · rename_i htaken
      rw [List.cons_append, fitting, if_neg htaken, ih (List.cons.inj h).2]
      rfl

theorem fitting_concat {total : F} {items : List α} (h : fitting refuses cost total items = items)
    (item : α) :
    fitting refuses cost total (items ++ [item]) =
      if refuses (spent cost total items) (cost item) then items else items ++ [item] := by
  rw [fitting_append h, fitting]
  split
  · exact List.append_nil items
  · rfl

theorem spent_concat (start : F) (items : List α) (item : α) :
    spent cost start (items ++ [item]) = spent cost start items + cost item := by
  rw [spent, spent, List.foldl_append]
  rfl

/-! ## Taking until it is enough -/

/-- The things taken up to the one with which enough has been spent. -/
def reaching (enough : F → Bool) (cost : α → F) : F → List α → List α
  | _, [] => []
  | total, item :: rest =>
    if enough (total + cost item) then [item]
    else item :: reaching enough cost (total + cost item) rest

/-- The shortest prefix with which enough is spent, or everything. -/
structure Shortest (enough : F → Bool) (cost : α → F) (start : F) (items taken : List α) :
    Prop where
  isPrefix : taken <+: items
  enough_or_all : enough (spent cost start taken) = true ∨ taken = items
  least : ∀ less, less <+: taken → less ≠ taken → enough (spent cost start less) = false

variable {enough : F → Bool} {start : F}

/-- **What is taken is the shortest prefix with which enough is spent**, or everything. -/
theorem reaching_shortest (hstart : enough start = false) (items : List α) :
    Shortest enough cost start items (reaching enough cost start items) := by
  induction items generalizing start with
  | nil =>
    refine ⟨List.prefix_refl [], Or.inr rfl, fun less hless hne => ?_⟩
    exact absurd (List.prefix_nil.mp hless) hne
  | cons item rest ih =>
    rw [reaching]
    split
    · rename_i hreached
      refine ⟨List.prefix_cons_inj item |>.mpr List.nil_prefix, Or.inl hreached,
        fun less hless hne => ?_⟩
      rcases List.prefix_cons_iff.mp hless with rfl | ⟨tail, rfl, htail⟩
      · exact hstart
      · rw [List.prefix_nil.mp htail] at hne
        exact absurd rfl hne
    · rename_i hmore
      have hrest := ih (Bool.eq_false_iff.mpr hmore)
      refine ⟨List.prefix_cons_inj item |>.mpr hrest.isPrefix, ?_, fun less hless hne => ?_⟩
      · rcases hrest.enough_or_all with hreached | hall
        · exact Or.inl hreached
        · exact Or.inr (congrArg (item :: ·) hall)
      · rcases List.prefix_cons_iff.mp hless with rfl | ⟨tail, rfl, htail⟩
        · exact hstart
        · exact hrest.least tail htail fun heq => hne (congrArg (item :: ·) heq)

end Fitting
