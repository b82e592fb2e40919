import Planten.Library.PathMap
import Mathlib.Data.List.Sort

/-
  The keys of the children of a path, in ascending order.

  A flat map has no list of children at a path, but where
  they are finitely many there is just one ascending list of
  their keys.

  Key definitions include:
    * `PathMap.ListsChildren`
    * `PathMap.childKeys`

  Key theorems include:
    * `PathMap.ListsChildren.unique`
    * `PathMap.childKeys_eq`
    * `PathMap.childKeys_congr`
-/

------------------------------------------------------------
-- Child Keys
------------------------------------------------------------

namespace PathMap

variable {κ ν ν' : Type} [LinearOrder κ]

/- The keys of the children of a path, ascending. -/
structure ListsChildren
    (m : PathMap κ ν)
    (p : List κ)
    (ks : List κ) : Prop where
  ascending : ks.Pairwise (· < ·)
  mem_iff : ∀ k, k ∈ ks ↔ (m (p ++ [k])).isSome

/- An ascending list is determined by its members. -/
theorem ListsChildren.unique
    {m : PathMap κ ν}
    {p ks ks' : List κ}
    (hKeys : m.ListsChildren p ks)
    (hKeys' : m.ListsChildren p ks') :
    ks = ks' := by
  have hPerm : ks.Perm ks' := by
    rw [List.perm_ext_iff_of_nodup
      (hKeys.ascending.imp ne_of_lt)
      (hKeys'.ascending.imp ne_of_lt)]
    intro k
    rw [hKeys.mem_iff, hKeys'.mem_iff]
  exact hPerm.eq_of_pairwise
    (fun a b _ _ hLt hGt => (lt_asymm hLt hGt).elim)
    hKeys.ascending hKeys'.ascending

open Classical in
/- The keys of the children of a path, if they have a list. -/
noncomputable def childKeys
    (m : PathMap κ ν)
    (p : List κ) : List κ :=
  if h : ∃ ks, m.ListsChildren p ks then h.choose else []

theorem childKeys_eq
    {m : PathMap κ ν}
    {p ks : List κ}
    (hKeys : m.ListsChildren p ks) :
    m.childKeys p = ks := by
  have hExists : ∃ ks, m.ListsChildren p ks := ⟨ks, hKeys⟩
  rw [childKeys, dif_pos hExists]
  exact hExists.choose_spec.unique hKeys

/- Maps with the same children at a path list the same keys. -/
theorem childKeys_congr
    {m : PathMap κ ν}
    {m' : PathMap κ ν'}
    {p p' : List κ}
    (hSame :
      ∀ k, (m (p ++ [k])).isSome =
        (m' (p' ++ [k])).isSome) :
    m.childKeys p = m'.childKeys p' := by
  have hLists (ks : List κ) :
      m.ListsChildren p ks ↔ m'.ListsChildren p' ks := by
    constructor
    · intro hKeys
      refine ⟨hKeys.ascending, fun k => ?_⟩
      rw [hKeys.mem_iff, hSame]
    · intro hKeys
      refine ⟨hKeys.ascending, fun k => ?_⟩
      rw [hKeys.mem_iff, hSame]
  by_cases hExists : ∃ ks, m.ListsChildren p ks
  · rcases hExists with ⟨ks, hKeys⟩
    rw [childKeys_eq hKeys, childKeys_eq ((hLists ks).mp hKeys)]
  · have hExists' : ¬ ∃ ks, m'.ListsChildren p' ks := by
      rintro ⟨ks, hKeys⟩
      exact hExists ⟨ks, (hLists ks).mpr hKeys⟩
    rw [childKeys, dif_neg hExists, childKeys,
      dif_neg hExists']

end PathMap
