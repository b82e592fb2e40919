import Mathlib.Data.List.Infix
import Mathlib.Data.List.DropRight

/-
  Flat maps from key paths.

  A tree with keyed children is seen from outside as a
  partial map from key paths to node values.  The operations
  below say what a hierarchical store does to that map: drop
  a branch, put a branch in place, change one value, move a
  branch, and fill in the missing ancestors of a path.

  Key definitions include:
    * `PathMap`
    * `PathMap.Closed`
    * `PathMap.branch`
    * `PathMap.single`
    * `PathMap.prune`
    * `PathMap.plant`
    * `PathMap.assign`
    * `PathMap.fill`
    * `PathMap.relabel`
    * `PathMap.Forall`, `PathMap.Above`

  Key theorems include:
    * `PathMap.isSome_of_isPrefix`
    * `PathMap.relabel_of_not_isPrefix`
    * `PathMap.Forall.relabel`
    * `PathMap.Above.fill`
    * `PathMap.Above.relabel`
-/

------------------------------------------------------------
-- Operations
------------------------------------------------------------

/- A partial map from key paths to node values. -/
abbrev PathMap (κ ν : Type) :=
  List κ → Option ν

namespace PathMap

variable {κ ν : Type}

/- With a path, its ancestors are in the map. -/
def Closed (m : PathMap κ ν) : Prop :=
  ∀ p k, (m (p ++ [k])).isSome → (m p).isSome

/- The part of a map at and below a path. -/
def branch
    (m : PathMap κ ν)
    (p : List κ) : PathMap κ ν :=
  fun q => m (p ++ q)

variable [DecidableEq κ]

/- The branch of a node with nothing below it. -/
def single (v : ν) : PathMap κ ν :=
  fun q => if q = [] then some v else none

/- Drop a path and everything below it. -/
def prune
    (m : PathMap κ ν)
    (p : List κ) : PathMap κ ν :=
  fun q => if p <+: q then none else m q

/- Put a branch in place of whatever was at a path. -/
def plant
    (m : PathMap κ ν)
    (p : List κ)
    (b : PathMap κ ν) : PathMap κ ν :=
  fun q => if p <+: q then b (q.drop p.length) else m q

/- Change the value at one path. -/
def assign
    (m : PathMap κ ν)
    (p : List κ)
    (v : ν) : PathMap κ ν :=
  fun q => if q = p then some v else m q

/- Add the missing paths leading to `p`, and `p` itself. -/
def fill
    (fresh : List κ → ν)
    (m : PathMap κ ν)
    (p : List κ) : PathMap κ ν :=
  fun q =>
    if q <+: p ∧ (m q).isNone then some (fresh q) else m q

/-
  Move the branch at `p ++ [k]` to `p ++ [k']`, with a new
  value at its top.
-/
def relabel
    (m : PathMap κ ν)
    (p : List κ)
    (k k' : κ)
    (v : ν) : PathMap κ ν :=
  (m.prune (p ++ [k])).plant (p ++ [k'])
    ((m.branch (p ++ [k])).assign [] v)

end PathMap

------------------------------------------------------------
-- Closed Maps
------------------------------------------------------------

namespace PathMap

variable {κ ν : Type}

/- A closed map holds every ancestor of its paths. -/
theorem isSome_of_append
    {m : PathMap κ ν}
    (hClosed : m.Closed)
    (p q : List κ)
    (hSome : (m (p ++ q)).isSome) :
    (m p).isSome := by
  induction q using List.reverseRecOn with
  | nil =>
      simpa using hSome
  | append_singleton q k ih =>
      rw [← List.append_assoc] at hSome
      exact ih (hClosed _ _ hSome)

/- A closed map holds every prefix of its paths. -/
theorem isSome_of_isPrefix
    {m : PathMap κ ν}
    (hClosed : m.Closed)
    {p q : List κ}
    (hPrefix : p <+: q)
    (hSome : (m q).isSome) :
    (m p).isSome := by
  rcases hPrefix with ⟨rest, rfl⟩
  exact isSome_of_append hClosed p rest hSome

/- Below a missing path a closed map is empty. -/
theorem eq_none_of_isPrefix
    {m : PathMap κ ν}
    (hClosed : m.Closed)
    {p q : List κ}
    (hPrefix : p <+: q)
    (hNone : m p = none) :
    m q = none := by
  by_contra hNe
  have hSome : (m q).isSome :=
    Option.isSome_iff_ne_none.mpr hNe
  have hTop := isSome_of_isPrefix hClosed hPrefix hSome
  simp [hNone] at hTop

end PathMap

------------------------------------------------------------
-- Pointwise Laws
------------------------------------------------------------

namespace PathMap

variable {κ ν : Type} [DecidableEq κ]

theorem prune_of_not_isPrefix
    (m : PathMap κ ν)
    {p q : List κ}
    (hPrefix : ¬ p <+: q) :
    m.prune p q = m q := by
  simp [prune, hPrefix]

@[simp] theorem plant_append
    (m b : PathMap κ ν)
    (p q : List κ) :
    m.plant p b (p ++ q) = b q := by
  simp [plant]

theorem plant_of_not_isPrefix
    (m b : PathMap κ ν)
    {p q : List κ}
    (hPrefix : ¬ p <+: q) :
    m.plant p b q = m q := by
  simp [plant, hPrefix]

/- Planting at the empty path replaces the whole map. -/
@[simp] theorem plant_nil
    (m b : PathMap κ ν) :
    m.plant [] b = b := by
  funext q
  simp [plant]

/- Planting a branch with one changed value is an assignment. -/
theorem plant_branch_assign
    (m : PathMap κ ν)
    (p q : List κ)
    (v : ν) :
    m.plant p ((m.branch p).assign q v) =
      m.assign (p ++ q) v := by
  funext r
  by_cases hPrefix : p <+: r
  · rcases hPrefix with ⟨rest, rfl⟩
    simp [assign, branch]
  · have hNe : r ≠ p ++ q := by
      rintro rfl
      exact hPrefix (List.prefix_append p q)
    rw [plant_of_not_isPrefix m _ hPrefix]
    simp [assign, hNe]

/- Planting a branch with a pruned part is a pruning. -/
theorem plant_branch_prune
    (m : PathMap κ ν)
    (p q : List κ) :
    m.plant p ((m.branch p).prune q) =
      m.prune (p ++ q) := by
  funext r
  by_cases hPrefix : p <+: r
  · rcases hPrefix with ⟨rest, rfl⟩
    simp [prune, branch, List.prefix_append_right_inj]
  · have hNot : ¬ p ++ q <+: r := by
      intro hLong
      exact hPrefix
        ((List.prefix_append p q).trans hLong)
    rw [plant_of_not_isPrefix m _ hPrefix,
      prune_of_not_isPrefix m hNot]

/- Planting inside a planted branch is one planting. -/
theorem plant_branch_plant
    (m b : PathMap κ ν)
    (p q : List κ) :
    m.plant p ((m.branch p).plant q b) =
      m.plant (p ++ q) b := by
  funext r
  by_cases hPrefix : p <+: r
  · rcases hPrefix with ⟨rest, rfl⟩
    simp only [plant_append]
    by_cases hRest : q <+: rest
    · rcases hRest with ⟨tail, rfl⟩
      simp [← List.append_assoc]
    · have hNot : ¬ p ++ q <+: p ++ rest := by
        rwa [List.prefix_append_right_inj]
      rw [plant_of_not_isPrefix _ _ hRest,
        plant_of_not_isPrefix _ _ hNot]
      rfl
  · have hNot : ¬ p ++ q <+: r := by
      intro hLong
      exact hPrefix
        ((List.prefix_append p q).trans hLong)
    rw [plant_of_not_isPrefix m _ hPrefix,
      plant_of_not_isPrefix m _ hNot]

/- A move inside a planted branch is a move of the whole. -/
theorem plant_branch_relabel
    (m : PathMap κ ν)
    (p : List κ)
    (k k' : κ)
    (v : ν) :
    m.plant p
        (((m.branch p).prune [k]).plant [k']
          ((m.branch (p ++ [k])).assign [] v)) =
      m.relabel p k k' v := by
  funext r
  rw [relabel]
  by_cases hPrefix : p <+: r
  · rcases hPrefix with ⟨rest, rfl⟩
    rw [plant_append]
    by_cases hRest : [k'] <+: rest
    · rcases hRest with ⟨tail, rfl⟩
      rw [plant_append, ← List.append_assoc, plant_append]
    · have hNot : ¬ p ++ [k'] <+: p ++ rest := by
        rwa [List.prefix_append_right_inj]
      rw [plant_of_not_isPrefix _ _ hRest,
        plant_of_not_isPrefix _ _ hNot]
      simp [prune, branch, List.prefix_append_right_inj]
  · have hNot (k₀ : κ) : ¬ p ++ [k₀] <+: r := by
      intro hLong
      exact hPrefix
        ((List.prefix_append p [k₀]).trans hLong)
    rw [plant_of_not_isPrefix m _ hPrefix,
      plant_of_not_isPrefix _ _ (hNot k'),
      prune_of_not_isPrefix _ (hNot k)]

/- Away from both ends a move changes nothing. -/
theorem relabel_of_not_isPrefix
    (m : PathMap κ ν)
    {p q : List κ}
    {k k' : κ}
    (v : ν)
    (hOld : ¬ p ++ [k] <+: q)
    (hNew : ¬ p ++ [k'] <+: q) :
    m.relabel p k k' v q = m q := by
  rw [relabel, plant_of_not_isPrefix _ _ hNew,
    prune_of_not_isPrefix _ hOld]

/- A filled path keeps every value that was there. -/
theorem fill_of_isSome
    (fresh : List κ → ν)
    (m : PathMap κ ν)
    (p : List κ)
    {q : List κ}
    {v : ν}
    (hSome : m q = some v) :
    m.fill fresh p q = some v := by
  simp [fill, hSome]

/- A filled path is there up to its end. -/
theorem isSome_fill
    (fresh : List κ → ν)
    (m : PathMap κ ν)
    {p q : List κ}
    (hPrefix : q <+: p) :
    (m.fill fresh p q).isSome := by
  cases hValue : m q with
  | none =>
      simp [fill, hPrefix, hValue]
  | some v =>
      rw [fill_of_isSome fresh m p hValue]
      rfl

/- Filling adds nothing off the path. -/
theorem fill_of_not_isPrefix
    (fresh : List κ → ν)
    (m : PathMap κ ν)
    {p q : List κ}
    (hPrefix : ¬ q <+: p) :
    m.fill fresh p q = m q := by
  simp [fill, hPrefix]

/- Right below a path that is there one value is added. -/
theorem fill_concat
    {m : PathMap κ ν}
    (hClosed : m.Closed)
    (fresh : List κ → ν)
    {p : List κ}
    {k : κ}
    (hParent : (m p).isSome)
    (hNone : m (p ++ [k]) = none) :
    m.fill fresh (p ++ [k]) =
      m.assign (p ++ [k]) (fresh (p ++ [k])) := by
  funext q
  by_cases hHere : q = p ++ [k]
  · subst hHere
    simp [fill, assign, hNone]
  · rw [assign, if_neg hHere]
    by_cases hPrefix : q <+: p ++ [k]
    · have hAbove : q <+: p := by
        rw [List.prefix_concat_iff] at hPrefix
        exact hPrefix.resolve_left hHere
      rcases Option.isSome_iff_exists.mp
        (isSome_of_isPrefix hClosed hAbove hParent) with
        ⟨v, hValue⟩
      rw [fill_of_isSome fresh m _ hValue, hValue]
    · exact fill_of_not_isPrefix fresh m hPrefix

/-
  Filling in the ancestors of a missing path and planting a
  single node there fills in the whole path.
-/
theorem fill_dropLast_plant_single
    {m : PathMap κ ν}
    (hClosed : m.Closed)
    (fresh : List κ → ν)
    {p : List κ}
    (hNone : m p = none)
    (hNonempty : p ≠ [])
    (v : ν) :
    (m.fill fresh p.dropLast).plant p (single v) =
      m.fill (fun q => if q = p then v else fresh q) p := by
  funext q
  by_cases hBelow : p <+: q
  · have hMissing := eq_none_of_isPrefix hClosed hBelow hNone
    rcases hBelow with ⟨rest, rfl⟩
    rw [plant_append]
    cases rest with
    | nil =>
        simp [single, fill, hNone]
    | cons k rest =>
        have hNot : ¬ p ++ k :: rest <+: p := by
          intro hPrefix
          have hLength := hPrefix.length_le
          simp only [List.length_append,
            List.length_cons] at hLength
          omega
        rw [fill_of_not_isPrefix _ _ hNot, hMissing]
        simp [single]
  · have hNe : q ≠ p := by
      rintro rfl
      exact hBelow List.prefix_rfl
    have hDrop : q <+: p.dropLast ↔ q <+: p := by
      constructor
      · intro hPrefix
        exact hPrefix.trans (List.dropLast_prefix p)
      · intro hPrefix
        have hParts :=
          List.dropLast_append_getLast hNonempty
        rw [← hParts, List.prefix_concat_iff,
          hParts] at hPrefix
        exact hPrefix.resolve_left hNe
    rw [plant_of_not_isPrefix _ _ hBelow]
    simp only [fill, hDrop, if_neg hNe]

end PathMap

------------------------------------------------------------
-- Properties of All Entries
------------------------------------------------------------

namespace PathMap

variable {κ ν : Type}

/- Every entry of the map has a property. -/
def Forall
    (m : PathMap κ ν)
    (P : List κ → ν → Prop) : Prop :=
  ∀ q v, m q = some v → P q v

variable {m : PathMap κ ν} {P : List κ → ν → Prop}

theorem Forall.single
    {v : ν}
    (hNew : P [] v) :
    (PathMap.single v : PathMap κ ν).Forall P := by
  intro q w hEntry
  unfold PathMap.single at hEntry
  split at hEntry
  · rename_i hNil
    cases hEntry
    exact hNil ▸ hNew
  · cases hEntry

variable [DecidableEq κ]

theorem Forall.prune
    (hAll : m.Forall P)
    (p : List κ) :
    (m.prune p).Forall P := by
  intro q v hEntry
  unfold PathMap.prune at hEntry
  split at hEntry
  · cases hEntry
  · exact hAll q v hEntry

theorem Forall.assign
    {p : List κ}
    {v : ν}
    (hAll : m.Forall P)
    (hNew : P p v) :
    (m.assign p v).Forall P := by
  intro q w hEntry
  unfold PathMap.assign at hEntry
  split at hEntry
  · rename_i hHere
    cases hEntry
    exact hHere ▸ hNew
  · exact hAll q w hEntry

theorem Forall.fill
    {fresh : List κ → ν}
    {p : List κ}
    (hAll : m.Forall P)
    (hNew : ∀ q, q <+: p → m q = none → P q (fresh q)) :
    (m.fill fresh p).Forall P := by
  intro q v hEntry
  unfold PathMap.fill at hEntry
  split at hEntry
  · rename_i hFresh
    cases hEntry
    exact hNew q hFresh.1
      (Option.isNone_iff_eq_none.mp hFresh.2)
  · exact hAll q v hEntry

theorem Forall.plant
    {b : PathMap κ ν}
    {p : List κ}
    (hAll : m.Forall P)
    (hBranch : b.Forall (fun q v => P (p ++ q) v)) :
    (m.plant p b).Forall P := by
  intro q v hEntry
  by_cases hBelow : p <+: q
  · rcases hBelow with ⟨rest, rfl⟩
    rw [plant_append] at hEntry
    exact hBranch rest v hEntry
  · rw [plant_of_not_isPrefix _ _ hBelow] at hEntry
    exact hAll q v hEntry

/- A move keeps what does not depend on the path above. -/
theorem Forall.relabel
    {p : List κ}
    {k k' : κ}
    {v : ν}
    (hAll : m.Forall P)
    (hTop : P (p ++ [k']) v)
    (hMove : ∀ q w,
      q ≠ [] → P (p ++ [k] ++ q) w →
        P (p ++ [k'] ++ q) w) :
    (m.relabel p k k' v).Forall P := by
  refine (hAll.prune (p ++ [k])).plant ?_
  intro q w hEntry
  unfold PathMap.assign at hEntry
  split at hEntry
  · rename_i hHere
    cases hEntry
    rw [hHere, List.append_nil]
    exact hTop
  · rename_i hBelow
    exact hMove q w hBelow (hAll _ w hEntry)

end PathMap

------------------------------------------------------------
-- Values above Others
------------------------------------------------------------

namespace PathMap

variable {κ ν : Type}

/- Every value with another right below it has a property. -/
def Above
    (m : PathMap κ ν)
    (D : ν → Prop) : Prop :=
  ∀ p k v, (m (p ++ [k])).isSome → m p = some v → D v

variable {m : PathMap κ ν} {D : ν → Prop}

theorem Above.single (v : ν) :
    (PathMap.single v : PathMap κ ν).Above D := by
  intro p k w hBelow _
  simp [PathMap.single] at hBelow

variable [DecidableEq κ]

theorem Above.prune
    (hAbove : m.Above D)
    (p : List κ) :
    (m.prune p).Above D := by
  intro q k v hBelow hHere
  unfold PathMap.prune at hBelow hHere
  split at hBelow
  · cases hBelow
  · split at hHere
    · cases hHere
    · exact hAbove q k v hBelow hHere

/- A new value has it when there is something below. -/
theorem Above.assign
    {p : List κ}
    {v : ν}
    (hAbove : m.Above D)
    (hHere : (m p).isSome)
    (hNew : ∀ k, (m (p ++ [k])).isSome → D v) :
    (m.assign p v).Above D := by
  intro q k w hBelow hEntry
  have hOld : (m (q ++ [k])).isSome := by
    unfold PathMap.assign at hBelow
    split at hBelow
    · rename_i hPath
      rw [hPath]
      exact hHere
    · exact hBelow
  unfold PathMap.assign at hEntry
  split at hEntry
  · rename_i hPath
    cases hEntry
    rw [hPath] at hOld
    exact hNew k hOld
  · exact hAbove q k w hOld hEntry

/-
  Filling in a path puts something below its proper
  prefixes: below the last that is there, and below each one
  that is added.
-/
theorem Above.fill
    {fresh : List κ → ν}
    {p : List κ}
    (hClosed : m.Closed)
    (hAbove : m.Above D)
    (hLast : ∀ q k v,
      q ++ [k] <+: p → m q = some v →
        m (q ++ [k]) = none → D v)
    (hAdded : ∀ q k,
      q ++ [k] <+: p → m q = none → D (fresh q)) :
    (m.fill fresh p).Above D := by
  intro q k v hBelow hEntry
  have hOld :
      (m (q ++ [k])).isSome ∨
        q ++ [k] <+: p ∧ m (q ++ [k]) = none := by
    unfold PathMap.fill at hBelow
    split at hBelow
    · rename_i hFilled
      exact Or.inr ⟨hFilled.1,
        Option.isNone_iff_eq_none.mp hFilled.2⟩
    · exact Or.inl hBelow
  cases hHere : m q with
  | some w =>
      rw [fill_of_isSome fresh m p hHere] at hEntry
      cases hEntry
      rcases hOld with hSome | ⟨hPrefix, hNone⟩
      · exact hAbove q k v hSome hHere
      · exact hLast q k v hPrefix hHere hNone
  | none =>
      unfold PathMap.fill at hEntry
      split at hEntry
      · cases hEntry
        rcases hOld with hSome | ⟨hPrefix, _⟩
        · have hTop := hClosed q k hSome
          rw [hHere] at hTop
          cases hTop
        · exact hAdded q k hPrefix hHere
      · rw [hHere] at hEntry
        cases hEntry

/-
  A move to a free path keeps it when the new top value has
  it, should there be something below.
-/
theorem Above.relabel
    {p : List κ}
    {k k' : κ}
    {v : ν}
    (hAbove : m.Above D)
    (hHere : (m (p ++ [k])).isSome)
    (hTop : ∀ c, (m (p ++ [k] ++ [c])).isSome → D v) :
    (m.relabel p k k' v).Above D := by
  intro q c w hBelow hEntry
  unfold PathMap.relabel at hBelow hEntry
  by_cases hMoved : p ++ [k'] <+: q
  · rcases hMoved with ⟨rest, rfl⟩
    rw [List.append_assoc _ rest, plant_append] at hBelow
    rw [plant_append] at hEntry
    have hOld : (m (p ++ [k] ++ (rest ++ [c]))).isSome := by
      simpa [PathMap.assign, branch] using hBelow
    unfold PathMap.assign at hEntry
    split at hEntry
    · rename_i hNil
      cases hEntry
      rw [hNil, List.nil_append] at hOld
      exact hTop c hOld
    · rw [← List.append_assoc] at hOld
      exact hAbove _ c w hOld hEntry
  · rw [plant_of_not_isPrefix _ _ hMoved] at hEntry
    have hThere : m q = some w := by
      unfold PathMap.prune at hEntry
      split at hEntry
      · cases hEntry
      · exact hEntry
    by_cases hParent : p ++ [k'] <+: q ++ [c]
    · -- the new path itself: its parent had the old one
      have hPath : p = q := by
        rw [List.prefix_concat_iff] at hParent
        rcases hParent with hEq | hShort
        · exact List.append_inj_left' hEq rfl
        · exact (hMoved hShort).elim
      rw [← hPath] at hThere
      exact hAbove p k w hHere hThere
    · rw [plant_of_not_isPrefix _ _ hParent] at hBelow
      unfold PathMap.prune at hBelow
      split at hBelow
      · cases hBelow
      · exact hAbove q c w hBelow hThere

end PathMap
