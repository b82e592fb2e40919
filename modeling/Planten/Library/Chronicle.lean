import Planten.Library.Moves
import Mathlib.Logic.Function.Basic

/-
  Chronicles of a store of named things.

  A thing is known by when it was made and by the path it was
  made at, whatever it is called later.  A chronicle holds what
  each thing was at first and what was recorded of it since,
  and which thing is at which path.  The map of the store is
  the replay of the records.

  Key definitions include:
    * `Chronicle`
    * `Chronicle.view`
    * `Chronicle.create`, `Chronicle.record`
    * `Chronicle.move`, `Chronicle.drop`
    * `Chronicle.Sound`
    * `Chronicle.Extends`

  Key theorems include:
    * `Chronicle.view_create`
    * `Chronicle.view_of_moves`
    * `Chronicle.view_record`, `Chronicle.view_move`
    * `Chronicle.Sound.of_moves`
-/

------------------------------------------------------------
-- Chronicles
------------------------------------------------------------

/- When a thing was made, and the path it was made at. -/
abbrev Ident (κ : Type) :=
  Nat × List κ

/-
  How many times something was made, which things are at the
  paths, what they were at first, and what was recorded.
-/
structure Chronicle (κ ρ ν : Type) where
  made : Nat
  names : PathMap κ (Ident κ)
  first : Ident κ → ν
  log : Ident κ → List ρ

namespace Chronicle

variable {κ ρ ν : Type}

/- The chronicle of a store that is there already. -/
def start
    (m : PathMap κ ν)
    (v : ν) : Chronicle κ ρ ν where
  made := 1
  names := fun p => (m p).map (fun _ => (0, p))
  first := fun id => (m id.2).getD v
  log := fun _ => []

/- What a thing is, after all that was recorded of it. -/
def replay
    (revise : ν → ρ → ν)
    (j : Chronicle κ ρ ν)
    (id : Ident κ) : ν :=
  (j.log id).foldl revise (j.first id)

def view
    (revise : ν → ρ → ν)
    (j : Chronicle κ ρ ν) : PathMap κ ν :=
  fun p => (j.names p).map (j.replay revise)

variable [DecidableEq κ]

/- New things at the missing paths that lead to `p`. -/
def create
    (j : Chronicle κ ρ ν)
    (fresh : List κ → ν)
    (p : List κ) : Chronicle κ ρ ν where
  made := j.made + 1
  names := j.names.fill (fun q => (j.made, q)) p
  first := fun id =>
    if id.1 = j.made then fresh id.2 else j.first id
  log := fun id => if id.1 = j.made then [] else j.log id

/- A record of the thing at a path, if there is one. -/
def record
    (j : Chronicle κ ρ ν)
    (p : List κ)
    (r : ρ) : Chronicle κ ρ ν :=
  match j.names p with
  | none => j
  | some id =>
      { j with
        log := Function.update j.log id (j.log id ++ [r]) }

/- A record of a thing that gets another key. -/
def move
    (j : Chronicle κ ρ ν)
    (p : List κ)
    (k k' : κ)
    (r : ρ) : Chronicle κ ρ ν :=
  match j.names (p ++ [k]) with
  | none => j
  | some id =>
      { j.record (p ++ [k]) r with
        names := j.names.relabel p k k' id }

/- The things at and below a path are gone. -/
def drop
    (j : Chronicle κ ρ ν)
    (p : List κ) : Chronicle κ ρ ν :=
  { j with names := j.names.prune p }

/- A thing is at one path only, and was made before now. -/
structure Sound (j : Chronicle κ ρ ν) : Prop where
  distinct :
    ∀ p q id,
      j.names p = some id → j.names q = some id → p = q
  past : ∀ p id, j.names p = some id → id.1 < j.made

/- What one chronicle holds of a thing, another holds too. -/
structure Extends (j j' : Chronicle κ ρ ν) : Prop where
  made : j.made ≤ j'.made
  first :
    ∀ id, id.1 < j.made → j'.first id = j.first id
  log : ∀ id, id.1 < j.made → j.log id <+: j'.log id

end Chronicle

------------------------------------------------------------
-- Moves of Things
------------------------------------------------------------

namespace PathMap

variable {κ ν : Type} {m m' m'' : PathMap κ ν}
variable {p p' : List κ} {v : ν}

/- A move leaves one map. -/
theorem Moves.unique
    (hMoves : m.Moves p p' v m')
    (hOther : m.Moves p p' v m'') :
    m' = m'' := by
  funext q
  by_cases hNew : p' <+: q
  · rcases hNew with ⟨rest, rfl⟩
    by_cases hTop : rest = []
    · rw [hTop, List.append_nil, hMoves.top, hOther.top]
    · rw [hMoves.below rest hTop, hOther.below rest hTop]
  · by_cases hOld : p <+: q
    · rw [hMoves.left q hOld hNew, hOther.left q hOld hNew]
    · rw [hMoves.others q hOld hNew,
        hOther.others q hOld hNew]

/-
  What is somewhere after a move was there before, or came
  along from the old place.
-/
theorem Moves.source
    (hMoves : m.Moves p p' v m')
    (hHere : m p = some v)
    {q : List κ}
    {w : ν}
    (hEntry : m' q = some w) :
    (∃ rest, q = p' ++ rest ∧ m (p ++ rest) = some w) ∨
      ¬ p <+: q ∧ m q = some w := by
  by_cases hNew : p' <+: q
  · rcases hNew with ⟨rest, rfl⟩
    refine Or.inl ⟨rest, rfl, ?_⟩
    by_cases hTop : rest = []
    · rw [hTop, List.append_nil, hMoves.top] at hEntry
      rw [hTop, List.append_nil, hHere, hEntry]
    · rw [← hMoves.below rest hTop, hEntry]
  · by_cases hOld : p <+: q
    · rw [hMoves.left q hOld hNew] at hEntry
      cases hEntry
    · rw [hMoves.others q hOld hNew] at hEntry
      exact Or.inr ⟨hOld, hEntry⟩

end PathMap

namespace Chronicle

variable {κ ρ ν : Type} {j j' : Chronicle κ ρ ν}
variable {revise : ν → ρ → ν}
variable {p p' : List κ} {id : Ident κ} {r : ρ}

theorem Sound.of_moves
    (hSound : j.Sound)
    (hHere : j.names p = some id)
    (hMoves : j.names.Moves p p' id j'.names)
    (hMade : j'.made = j.made) :
    j'.Sound := by
  constructor
  · intro q q' other hEntry hEntry'
    rcases hMoves.source hHere hEntry with
      ⟨rest, rfl, hOld⟩ | ⟨hApart, hOld⟩
    · rcases hMoves.source hHere hEntry' with
        ⟨rest', rfl, hOld'⟩ | ⟨hApart', hOld'⟩
      · have hEq := hSound.distinct _ _ _ hOld hOld'
        rw [List.append_cancel_left hEq]
      · have hEq := hSound.distinct _ _ _ hOld hOld'
        exact (hApart' (hEq ▸ List.prefix_append p rest)).elim
    · rcases hMoves.source hHere hEntry' with
        ⟨rest', rfl, hOld'⟩ | ⟨hApart', hOld'⟩
      · have hEq := hSound.distinct _ _ _ hOld hOld'
        exact (hApart
          (hEq ▸ List.prefix_append p rest')).elim
      · exact hSound.distinct _ _ _ hOld hOld'
  · intro q other hEntry
    rw [hMade]
    rcases hMoves.source hHere hEntry with
      ⟨rest, _, hOld⟩ | ⟨_, hOld⟩
    · exact hSound.past _ _ hOld
    · exact hSound.past _ _ hOld

/-
  When a thing is moved and something is recorded of it, its
  value is moved and revised.
-/
theorem view_of_moves
    [DecidableEq κ]
    (hSound : j.Sound)
    (hHere : j.names p = some id)
    (hMoves : j.names.Moves p p' id j'.names)
    (hFirst : j'.first = j.first)
    (hLog :
      j'.log =
        Function.update j.log id (j.log id ++ [r])) :
    (j.view revise).Moves p p'
      (revise (j.replay revise id) r)
      (j'.view revise) := by
  have hSelf :
      j'.replay revise id =
        revise (j.replay revise id) r := by
    rw [replay, hFirst, hLog, Function.update_self,
      List.foldl_append]
    rfl
  have hOther
      {q : List κ}
      (hAway : q ≠ p) :
      (j.names q).map (j'.replay revise) =
        (j.names q).map (j.replay revise) := by
    cases hName : j.names q with
    | none =>
        rfl
    | some other =>
        have hNe : other ≠ id := by
          rintro rfl
          exact hAway (hSound.distinct _ _ _ hName hHere)
        rw [Option.map_some, Option.map_some, replay, hFirst,
          hLog, Function.update_of_ne hNe, replay]
  constructor
  · rw [view, hMoves.top, Option.map_some, hSelf]
  · intro rest hRest
    have hAway : p ++ rest ≠ p := by
      intro hEq
      exact hRest (List.append_right_eq_self.mp hEq)
    rw [view, hMoves.below rest hRest, hOther hAway, view]
  · intro q hOld hNew
    rw [view, hMoves.left q hOld hNew, Option.map_none]
  · intro q hOld hNew
    have hAway : q ≠ p := by
      rintro rfl
      exact hOld List.prefix_rfl
    rw [view, hMoves.others q hOld hNew, hOther hAway, view]

end Chronicle

------------------------------------------------------------
-- Laws of Chronicles
------------------------------------------------------------

namespace Chronicle

variable {κ ρ ν : Type} {revise : ν → ρ → ν}
variable {m : PathMap κ ν} {j : Chronicle κ ρ ν}
variable {p : List κ} {k k' : κ} {v : ν} {r : ρ}

theorem view_start
    (revise : ν → ρ → ν)
    (m : PathMap κ ν)
    (v : ν) :
    (start m v : Chronicle κ ρ ν).view revise = m := by
  funext p
  cases hValue : m p <;>
    simp [view, start, replay, hValue]

theorem sound_start
    (m : PathMap κ ν)
    (v : ν) :
    (start m v : Chronicle κ ρ ν).Sound := by
  constructor
  · intro p q id hHere hThere
    simp only [start, Option.map_eq_some_iff] at hHere hThere
    rcases hHere with ⟨_, _, rfl⟩
    rcases hThere with ⟨_, _, hEq⟩
    exact (congrArg Prod.snd hEq).symm
  · intro p id hHere
    simp only [start, Option.map_eq_some_iff] at hHere
    rcases hHere with ⟨_, _, rfl⟩
    exact Nat.zero_lt_one

theorem Extends.refl (j : Chronicle κ ρ ν) :
    j.Extends j :=
  ⟨le_refl _, fun _ _ => rfl, fun _ _ => List.prefix_rfl⟩

theorem Extends.trans
    {j' j'' : Chronicle κ ρ ν}
    (hFirst : j.Extends j')
    (hSecond : j'.Extends j'') :
    j.Extends j'' := by
  constructor
  · exact hFirst.made.trans hSecond.made
  · intro id hLt
    rw [hSecond.first id (hLt.trans_le hFirst.made),
      hFirst.first id hLt]
  · intro id hLt
    exact (hFirst.log id hLt).trans
      (hSecond.log id (hLt.trans_le hFirst.made))

theorem view_eq_some
    (hEntry : j.view revise p = some v) :
    ∃ id, j.names p = some id ∧ j.replay revise id = v := by
  unfold view at hEntry
  rw [Option.map_eq_some_iff] at hEntry
  exact hEntry

theorem view_eq_none_iff :
    j.view revise p = none ↔ j.names p = none :=
  Option.map_eq_none_iff

variable [DecidableEq κ]

/- Nothing is recorded at a path that is not there. -/
theorem record_of_missing
    (hNone : j.view revise p = none)
    (r : ρ) :
    j.record p r = j := by
  rw [record, view_eq_none_iff.mp hNone]

/- New things are as they are made, and others stay. -/
theorem view_create
    (hSound : j.Sound)
    (fresh : List κ → ν)
    (p : List κ) :
    (j.create fresh p).view revise =
      (j.view revise).fill fresh p := by
  funext q
  cases hName : j.names q with
  | none =>
      by_cases hPrefix : q <+: p
      · simp [view, create, PathMap.fill, replay, hName,
          hPrefix]
      · simp [view, create, PathMap.fill, hName, hPrefix]
  | some id =>
      have hOld : id.1 ≠ j.made :=
        (hSound.past q id hName).ne
      simp [view, create, PathMap.fill, replay, hName, hOld]

theorem sound_create
    (hSound : j.Sound)
    (fresh : List κ → ν)
    (p : List κ) :
    (j.create fresh p).Sound := by
  have hCases
      {q : List κ}
      {id : Ident κ}
      (hEntry : (j.create fresh p).names q = some id) :
      id = (j.made, q) ∨ j.names q = some id := by
    unfold create PathMap.fill at hEntry
    simp only at hEntry
    split at hEntry
    · cases hEntry
      exact Or.inl rfl
    · exact Or.inr hEntry
  constructor
  · intro q q' id hHere hThere
    rcases hCases hHere with rfl | hOld
    · rcases hCases hThere with hEq | hOld'
      · exact congrArg Prod.snd hEq
      · exact absurd (hSound.past _ _ hOld') (lt_irrefl _)
    · rcases hCases hThere with rfl | hOld'
      · exact absurd (hSound.past _ _ hOld) (lt_irrefl _)
      · exact hSound.distinct _ _ _ hOld hOld'
  · intro q id hHere
    rcases hCases hHere with rfl | hOld
    · exact Nat.lt_succ_self _
    · exact (hSound.past _ _ hOld).trans
        (Nat.lt_succ_self _)

theorem extends_create
    (j : Chronicle κ ρ ν)
    (fresh : List κ → ν)
    (p : List κ) :
    j.Extends (j.create fresh p) := by
  constructor
  · exact Nat.le_succ _
  · intro id hLt
    exact if_neg hLt.ne
  · intro id hLt
    unfold create
    simp only
    rw [if_neg hLt.ne]

/- A record at a path revises the value there. -/
theorem view_record
    (hSound : j.Sound)
    (hEntry : j.view revise p = some v)
    (r : ρ) :
    (j.record p r).view revise =
      (j.view revise).assign p (revise v r) := by
  rcases view_eq_some hEntry with ⟨id, hName, rfl⟩
  have hSelf : j.names.Moves p p id (j.record p r).names := by
    rw [record, hName]
    constructor
    · exact hName
    · intro rest _
      rfl
    · intro q hOld hNew
      exact (hNew hOld).elim
    · intro q _ _
      rfl
  refine PathMap.Moves.unique ?_
    (PathMap.moves_assign (j.view revise) p _)
  refine view_of_moves hSound hName hSelf ?_ ?_
  · rw [record, hName]
  · rw [record, hName]

theorem sound_record
    (hSound : j.Sound)
    (p : List κ)
    (r : ρ) :
    (j.record p r).Sound := by
  unfold record
  cases j.names p with
  | none =>
      exact hSound
  | some id =>
      exact ⟨hSound.distinct, hSound.past⟩

theorem extends_record
    (j : Chronicle κ ρ ν)
    (p : List κ)
    (r : ρ) :
    j.Extends (j.record p r) := by
  unfold record
  cases j.names p with
  | none =>
      exact .refl j
  | some id =>
      refine ⟨le_refl _, fun _ _ => rfl, ?_⟩
      intro other _
      simp only
      by_cases hSame : other = id
      · rw [hSame, Function.update_self]
        exact List.prefix_append _ _
      · rw [Function.update_of_ne hSame]

/- A move with a record moves the revised value. -/
theorem view_move
    (hSound : j.Sound)
    (hEntry : j.view revise (p ++ [k]) = some v)
    (k' : κ)
    (r : ρ) :
    (j.move p k k' r).view revise =
      (j.view revise).relabel p k k' (revise v r) := by
  rcases view_eq_some hEntry with ⟨id, hName, rfl⟩
  have hMoves :
      j.names.Moves (p ++ [k]) (p ++ [k']) id
        (j.move p k k' r).names := by
    rw [move, hName]
    exact PathMap.moves_relabel j.names p k k' id
  refine PathMap.Moves.unique ?_
    (PathMap.moves_relabel (j.view revise) p k k' _)
  refine view_of_moves hSound hName hMoves ?_ ?_
  · rw [move, record, hName]
  · rw [move, record, hName]

theorem sound_move
    (hSound : j.Sound)
    (p : List κ)
    (k k' : κ)
    (r : ρ) :
    (j.move p k k' r).Sound := by
  cases hName : j.names (p ++ [k]) with
  | none =>
      rw [move, hName]
      exact hSound
  | some id =>
      have hMoves :
          j.names.Moves (p ++ [k]) (p ++ [k']) id
            (j.move p k k' r).names := by
        rw [move, hName]
        exact PathMap.moves_relabel j.names p k k' id
      refine hSound.of_moves hName hMoves ?_
      rw [move, record, hName]

theorem extends_move
    (j : Chronicle κ ρ ν)
    (p : List κ)
    (k k' : κ)
    (r : ρ) :
    j.Extends (j.move p k k' r) := by
  unfold move
  cases j.names (p ++ [k]) with
  | none =>
      exact .refl j
  | some id =>
      have hRecord := j.extends_record (p ++ [k]) r
      exact ⟨hRecord.made, hRecord.first, hRecord.log⟩

theorem view_drop
    (j : Chronicle κ ρ ν)
    (p : List κ) :
    (j.drop p).view revise = (j.view revise).prune p := by
  funext q
  unfold view drop PathMap.prune
  simp only
  split
  · rfl
  · rfl

theorem sound_drop
    (hSound : j.Sound)
    (p : List κ) :
    (j.drop p).Sound := by
  have hOld
      {q : List κ}
      {id : Ident κ}
      (hEntry : (j.drop p).names q = some id) :
      j.names q = some id := by
    unfold drop PathMap.prune at hEntry
    simp only at hEntry
    split at hEntry
    · cases hEntry
    · exact hEntry
  exact
    ⟨fun q q' id hHere hThere =>
        hSound.distinct q q' id (hOld hHere) (hOld hThere),
      fun q id hHere => hSound.past q id (hOld hHere)⟩

theorem extends_drop
    (j : Chronicle κ ρ ν)
    (p : List κ) :
    j.Extends (j.drop p) :=
  ⟨le_refl _, fun _ _ => rfl, fun _ _ => List.prefix_rfl⟩

end Chronicle
