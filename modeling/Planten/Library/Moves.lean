import Planten.Library.PathMap

/-
  Moves of a branch.

  A change of one node, or of its place among its siblings,
  is a move of its branch: the node gets a new value, what is
  below it comes along, and nothing else changes.  In a map
  whose paths are bounded the branch is found at one place
  only: were it also found above or below its new place, the
  map would hold longer and longer paths.

  Key definitions include:
    * `PathMap.Bounded`
    * `PathMap.Moves`

  Key theorems include:
    * `PathMap.moves_assign`, `PathMap.moves_relabel`
    * `PathMap.Bounded.not_repeats`
    * `PathMap.Moves.not_found_above`
    * `PathMap.Moves.not_found_below`
-/

------------------------------------------------------------
-- Moves
------------------------------------------------------------

namespace PathMap

variable {κ ν : Type}

/- The paths of a map are shorter than some bound. -/
def Bounded (m : PathMap κ ν) : Prop :=
  ∃ bound, ∀ q, (m q).isSome → q.length < bound

/-
  The branch at `p` is moved to `p'`, with a new value at its
  top.
-/
structure Moves
    (m : PathMap κ ν)
    (p p' : List κ)
    (v : ν)
    (m' : PathMap κ ν) : Prop where
  top : m' p' = some v
  below : ∀ rest, rest ≠ [] → m' (p' ++ rest) = m (p ++ rest)
  left : ∀ q, p <+: q → ¬ p' <+: q → m' q = none
  others : ∀ q, ¬ p <+: q → ¬ p' <+: q → m' q = m q

variable [DecidableEq κ]

/- A new value at a path moves the branch to where it is. -/
theorem moves_assign
    (m : PathMap κ ν)
    (p : List κ)
    (v : ν) :
    m.Moves p p v (m.assign p v) := by
  constructor
  · rw [assign, if_pos rfl]
  · intro rest hRest
    have hNot : p ++ rest ≠ p := by
      intro hEq
      exact hRest (List.append_right_eq_self.mp hEq)
    rw [assign, if_neg hNot]
  · intro q hBelow hNot
    exact (hNot hBelow).elim
  · intro q hNot _
    have hOther : q ≠ p := by
      rintro rfl
      exact hNot List.prefix_rfl
    rw [assign, if_neg hOther]

/- A new key moves the branch beside where it is. -/
theorem moves_relabel
    (m : PathMap κ ν)
    (p : List κ)
    (k k' : κ)
    (v : ν) :
    m.Moves (p ++ [k]) (p ++ [k']) v
      (m.relabel p k k' v) := by
  constructor
  · have hTop :=
      plant_append (m.prune (p ++ [k]))
        ((m.branch (p ++ [k])).assign [] v) (p ++ [k']) []
    rw [List.append_nil] at hTop
    rw [relabel, hTop, assign, if_pos rfl]
  · intro rest hRest
    rw [relabel, plant_append, assign, if_neg hRest]
    rfl
  · intro q hOld hNew
    rw [relabel, plant_of_not_isPrefix _ _ hNew, prune,
      if_pos hOld]
  · intro q hOld hNew
    exact relabel_of_not_isPrefix m v hOld hNew

end PathMap

------------------------------------------------------------
-- Endless Paths
------------------------------------------------------------

namespace PathMap

variable {κ ν : Type}
variable {m m' : PathMap κ ν} {p p' step : List κ} {v : ν}

/- Going on in the same way leaves a bounded map. -/
theorem Bounded.exists_eq_none
    (hBounded : m.Bounded)
    (p : List κ)
    (hStep : step ≠ []) :
    ∃ n, m (p ++ (List.replicate n step).flatten) = none := by
  rcases hBounded with ⟨bound, hBound⟩
  refine ⟨bound, ?_⟩
  rw [← Option.not_isSome_iff_eq_none]
  intro hSome
  have hShort := hBound _ hSome
  have hPos := List.length_pos_iff.mpr hStep
  have hLong := Nat.le_mul_of_pos_right bound hPos
  rw [List.length_append, List.length_flatten,
    List.map_replicate, List.sum_replicate_nat]
    at hShort
  omega

/- A map that repeats itself along a path is not bounded. -/
theorem Bounded.not_repeats
    (hBounded : m.Bounded)
    (hStep : step ≠ [])
    (hNode : (m p).isSome) :
    ¬ ∀ rest,
        (m (p ++ rest)).isSome →
          (m (p ++ (step ++ rest))).isSome := by
  intro hRepeats
  rcases hBounded.exists_eq_none p hStep with ⟨n, hNone⟩
  have hTower (n : Nat) :
      (m (p ++ (List.replicate n step).flatten)).isSome := by
    induction n with
    | zero =>
        rwa [List.replicate_zero, List.flatten_nil,
          List.append_nil]
    | succ n ih =>
        rw [List.replicate_succ, List.flatten_cons]
        exact hRepeats _ ih
  have hSome := hTower n
  rw [hNone] at hSome
  cases hSome

/- A moved branch is not found above its new place. -/
theorem Moves.not_found_above
    (hMoves : m.Moves p (p' ++ step) v m')
    (hBounded : m.Bounded)
    (hNode : (m p).isSome)
    (hStep : step ≠ []) :
    ¬ ∀ rest, rest ≠ [] →
        m' (p' ++ rest) = m (p ++ rest) := by
  intro hFound
  apply hBounded.not_repeats hStep hNode
  intro rest hRest
  rw [← hFound (step ++ rest)
    (List.append_ne_nil_of_left_ne_nil hStep rest),
    ← List.append_assoc]
  by_cases hEnd : rest = []
  · rw [hEnd, List.append_nil, hMoves.top]
    rfl
  · rwa [hMoves.below rest hEnd]

/- Nor is it found below its new place. -/
theorem Moves.not_found_below
    (hMoves : m.Moves p p' v m')
    (hBounded : m.Bounded)
    (hStep : step ≠ [])
    (hNode : (m' (p' ++ step)).isSome) :
    ¬ ∀ rest, rest ≠ [] →
        m' (p' ++ step ++ rest) = m (p ++ rest) := by
  intro hFound
  have hBelow : (m (p ++ step)).isSome := by
    rwa [← hMoves.below step hStep]
  apply hBounded.not_repeats hStep hBelow
  intro rest hRest
  rw [List.append_assoc] at hRest ⊢
  have hLong : step ++ rest ≠ [] :=
    List.append_ne_nil_of_left_ne_nil hStep rest
  rw [← hFound (step ++ rest) hLong] at hRest
  rwa [List.append_assoc, hMoves.below _
    (List.append_ne_nil_of_left_ne_nil hStep _)] at hRest

end PathMap
