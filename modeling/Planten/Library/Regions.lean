import Planten.Library.PathMap
import Mathlib.Data.Set.Basic

/-
  Parts of a flat map that do not meet.

  Around a home lie the paths above it, at it and below it.
  Work that stays at a home changes nothing that is around
  another one, and what it finds depends only on what is
  around its own.

  Key definitions include:
    * `PathMap.around`
    * `PathMap.AgreeOn`
    * `PathMap.StaysAt`

  Key theorems include:
    * `PathMap.AgreeOn.relabel`
    * `PathMap.StaysAt.agreeOn`
-/

------------------------------------------------------------
-- Regions
------------------------------------------------------------

namespace PathMap

variable {κ ν : Type}

/- The paths above, at and below a home. -/
def around (home : List κ) : Set (List κ) :=
  {p | p <+: home ∨ home <+: p}

/- Two maps have the same values on a set of paths. -/
def AgreeOn
    (R : Set (List κ))
    (m m' : PathMap κ ν) : Prop :=
  ∀ p ∈ R, m p = m' p

/-
  The second map differs from the first at and below a home,
  and in ancestors of it that were missing.
-/
def StaysAt
    (home : List κ)
    (m m' : PathMap κ ν) : Prop :=
  ∀ p, ¬ home <+: p →
    m' p = m p ∨ p <+: home ∧ m p = none

theorem nil_mem_around (home : List κ) :
    [] ∈ around home :=
  Or.inl List.nil_prefix

theorem mem_around_of_isPrefix
    {home p : List κ}
    (hPrefix : home <+: p) :
    p ∈ around home :=
  Or.inr hPrefix

/- A prefix of a path at or below a home lies around it. -/
theorem mem_around_of_prefixes
    {home p q : List κ}
    (hHome : home <+: q)
    (hPrefix : p <+: q) :
    p ∈ around home :=
  List.prefix_or_prefix_of_prefix hPrefix hHome

end PathMap

------------------------------------------------------------
-- Agreement
------------------------------------------------------------

namespace PathMap

namespace AgreeOn

variable {κ ν : Type} {R : Set (List κ)}
variable {m m' m'' : PathMap κ ν}

theorem refl (m : PathMap κ ν) : AgreeOn R m m :=
  fun _ _ => rfl

theorem trans
    (hAgree : AgreeOn R m m')
    (hAgree' : AgreeOn R m' m'') :
    AgreeOn R m m'' :=
  fun p hMem => (hAgree p hMem).trans (hAgree' p hMem)

variable [DecidableEq κ]

theorem assign
    (hAgree : AgreeOn R m m')
    (p : List κ)
    (v : ν) :
    AgreeOn R (m.assign p v) (m'.assign p v) := by
  intro q hMem
  simp only [PathMap.assign, hAgree q hMem]

theorem prune
    (hAgree : AgreeOn R m m')
    (p : List κ) :
    AgreeOn R (m.prune p) (m'.prune p) := by
  intro q hMem
  simp only [PathMap.prune, hAgree q hMem]

theorem fill
    (hAgree : AgreeOn R m m')
    (fresh : List κ → ν)
    (p : List κ) :
    AgreeOn R (m.fill fresh p) (m'.fill fresh p) := by
  intro q hMem
  simp only [PathMap.fill, hAgree q hMem]

theorem plant
    {b b' : PathMap κ ν}
    (hAgree : AgreeOn R m m')
    (p : List κ)
    (hBranch : ∀ q, p ++ q ∈ R → b q = b' q) :
    AgreeOn R (m.plant p b) (m'.plant p b') := by
  intro q hMem
  by_cases hBelow : p <+: q
  · rcases hBelow with ⟨rest, rfl⟩
    rw [plant_append, plant_append, hBranch rest hMem]
  · rw [plant_of_not_isPrefix _ _ hBelow,
      plant_of_not_isPrefix _ _ hBelow, hAgree q hMem]

/- A move carries what was below the old path. -/
theorem relabel
    (hAgree : AgreeOn R m m')
    {p : List κ}
    {k : κ}
    (hBelow : ∀ q, p ++ [k] ++ q ∈ R)
    (k' : κ)
    (v : ν) :
    AgreeOn R (m.relabel p k k' v)
      (m'.relabel p k k' v) := by
  apply (hAgree.prune (p ++ [k])).plant
  intro q _
  simp only [PathMap.assign, branch, hAgree _ (hBelow q)]

end AgreeOn

end PathMap

------------------------------------------------------------
-- Work at a Home
------------------------------------------------------------

namespace PathMap

namespace StaysAt

variable {κ ν : Type} {home : List κ} {m m' : PathMap κ ν}

theorem refl (m : PathMap κ ν) : StaysAt home m m :=
  fun _ _ => Or.inl rfl

/- What is there away from the home stays there. -/
theorem isSome
    {p : List κ}
    (hStays : StaysAt home m m')
    (hAway : ¬ home <+: p)
    (hSome : (m p).isSome) :
    (m' p).isSome := by
  rcases hStays p hAway with hSame | ⟨_, hNone⟩
  · rwa [hSame]
  · rw [hNone] at hSome
    cases hSome

/- Work at one home leaves alone what is around another. -/
theorem agreeOn
    {other : List κ}
    (hStays : StaysAt home m m')
    (hClosed : m.Closed)
    (hParent : (m other.dropLast).isSome)
    (hApart : ¬ home <+: other)
    (hApart' : ¬ other <+: home) :
    AgreeOn (around other) m' m := by
  intro p hMem
  have hAway : ¬ home <+: p := by
    intro hHome
    rcases hMem with hAbove | hBelow
    · exact hApart (hHome.trans hAbove)
    · rcases List.prefix_or_prefix_of_prefix hHome hBelow with
        hPrefix | hPrefix
      · exact hApart hPrefix
      · exact hApart' hPrefix
  rcases hStays p hAway with hSame | ⟨hAncestor, hNone⟩
  · exact hSame
  · -- a common ancestor is above the other home's parent
    rcases hMem with hAbove | hBelow
    · have hNe : p ≠ other := by
        rintro rfl
        exact hApart' hAncestor
      have hProper : p <+: other.dropLast := by
        rcases hAbove with ⟨rest, rfl⟩
        have hRest : rest ≠ [] := by
          rintro rfl
          exact hNe (List.append_nil p).symm
        rw [List.dropLast_append_of_ne_nil hRest]
        exact List.prefix_append p _
      have hSome := isSome_of_isPrefix hClosed hProper hParent
      rw [hNone] at hSome
      cases hSome
    · exact (hApart' (hBelow.trans hAncestor)).elim

variable [DecidableEq κ]

theorem assign
    {p : List κ}
    (hHome : home <+: p)
    (v : ν) :
    StaysAt home m (m.assign p v) := by
  intro q hAway
  have hNe : q ≠ p := by
    rintro rfl
    exact hAway hHome
  exact Or.inl (if_neg hNe)

theorem prune
    {p : List κ}
    (hHome : home <+: p) :
    StaysAt home m (m.prune p) := by
  intro q hAway
  exact Or.inl (prune_of_not_isPrefix m
    (fun hBelow => hAway (hHome.trans hBelow)))

theorem fill
    {p : List κ}
    (hHome : home <+: p)
    (fresh : List κ → ν) :
    StaysAt home m (m.fill fresh p) := by
  intro q hAway
  by_cases hFilled : q <+: p ∧ (m q).isNone
  · refine Or.inr ⟨?_, Option.isNone_iff_eq_none.mp hFilled.2⟩
    exact (List.prefix_or_prefix_of_prefix hFilled.1
      hHome).resolve_right hAway
  · exact Or.inl (if_neg hFilled)

theorem relabel
    {p : List κ}
    (hHome : home <+: p)
    (k k' : κ)
    (v : ν) :
    StaysAt home m (m.relabel p k k' v) := by
  intro q hAway
  have hApart (c : κ) : ¬ p ++ [c] <+: q := fun hBelow =>
    hAway ((hHome.trans (List.prefix_append p [c])).trans
      hBelow)
  exact Or.inl
    (relabel_of_not_isPrefix m v (hApart k) (hApart k'))

end StaysAt

end PathMap
