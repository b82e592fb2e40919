import Planten.Library.ChildKeys
import Mathlib.Data.Option.Basic

/-
  Flat maps that are alike.

  Two maps are alike when they have the same paths, with
  values that a relation relates.  The operations keep them
  alike.

  Key definitions include:
    * `PathMap.Alike`

  Key theorems include:
    * `PathMap.Alike.cases`
    * `PathMap.Alike.plant`
    * `PathMap.Alike.relabel`
    * `PathMap.Alike.childKeys`
-/

------------------------------------------------------------
-- Likeness
------------------------------------------------------------

namespace PathMap

variable {κ ν : Type} {r : ν → ν → Prop}

/- The same paths, with related values. -/
def Alike
    (r : ν → ν → Prop)
    (m m' : PathMap κ ν) : Prop :=
  ∀ p, Option.Rel r (m p) (m' p)

namespace Alike

variable {m m' b b' : PathMap κ ν}

theorem refl
    (hRefl : ∀ v, r v v)
    (m : PathMap κ ν) : Alike r m m := by
  intro p
  cases m p with
  | none =>
      exact .none
  | some v =>
      exact .some (hRefl v)

/- At a path either both have a node, or neither has. -/
theorem cases
    (hAlike : Alike r m m')
    (p : List κ) :
    (m p = none ∧ m' p = none) ∨
      ∃ v v', m p = some v ∧ m' p = some v' ∧ r v v' := by
  have hRel := hAlike p
  cases hNode : m p with
  | none =>
      rw [hNode] at hRel
      generalize m' p = other at hRel ⊢
      cases hRel
      exact Or.inl ⟨rfl, rfl⟩
  | some v =>
      rw [hNode] at hRel
      generalize m' p = other at hRel ⊢
      cases hRel with
      | some hRelated =>
          exact Or.inr ⟨_, _, rfl, rfl, hRelated⟩

theorem isSome_eq
    (hAlike : Alike r m m')
    (p : List κ) :
    (m p).isSome = (m' p).isSome := by
  rcases hAlike.cases p with
    ⟨hNone, hNone'⟩ | ⟨v, v', hSome, hSome', _⟩
  · rw [hNone, hNone']
  · rw [hSome, hSome']
    rfl

theorem eq_none_iff
    (hAlike : Alike r m m')
    (p : List κ) :
    m p = none ↔ m' p = none := by
  rw [← Option.not_isSome_iff_eq_none,
    ← Option.not_isSome_iff_eq_none, hAlike.isSome_eq]

theorem single
    {v v' : ν}
    (hRelated : r v v') :
    Alike r (PathMap.single v : PathMap κ ν)
      (PathMap.single v') := by
  intro q
  unfold PathMap.single
  split_ifs
  · exact .some hRelated
  · exact .none

variable [DecidableEq κ]

theorem assign
    {v v' : ν}
    (hAlike : Alike r m m')
    (p : List κ)
    (hRelated : r v v') :
    Alike r (m.assign p v) (m'.assign p v') := by
  intro q
  unfold PathMap.assign
  split_ifs
  · exact .some hRelated
  · exact hAlike q

theorem prune
    (hAlike : Alike r m m')
    (p : List κ) :
    Alike r (m.prune p) (m'.prune p) := by
  intro q
  unfold PathMap.prune
  split_ifs
  · exact .none
  · exact hAlike q

theorem fill
    {fresh : List κ → ν}
    (hAlike : Alike r m m')
    (hFresh : ∀ q, r (fresh q) (fresh q))
    (p : List κ) :
    Alike r (m.fill fresh p) (m'.fill fresh p) := by
  intro q
  unfold PathMap.fill
  simp only [Option.isNone_iff_eq_none,
    hAlike.eq_none_iff q]
  split_ifs
  · exact .some (hFresh q)
  · exact hAlike q

theorem plant
    (hAlike : Alike r m m')
    (p : List κ)
    (hBranch : Alike r b b') :
    Alike r (m.plant p b) (m'.plant p b') := by
  intro q
  unfold PathMap.plant
  split_ifs
  · exact hBranch _
  · exact hAlike q

/- A move keeps maps alike. -/
theorem relabel
    {v v' : ν}
    (hAlike : Alike r m m')
    (p : List κ)
    (k k' : κ)
    (hRelated : r v v') :
    Alike r (m.relabel p k k' v) (m'.relabel p k k' v') := by
  apply (hAlike.prune _).plant
  refine assign ?_ [] hRelated
  intro q
  exact hAlike _

end Alike

/- Maps that are alike list the same children. -/
theorem Alike.childKeys
    [LinearOrder κ]
    {m m' : PathMap κ ν}
    (hAlike : Alike r m m')
    (p : List κ) :
    m.childKeys p = m'.childKeys p :=
  childKeys_congr (fun _ => hAlike.isSome_eq _)

end PathMap
