import Mathlib.Data.List.Basic

/-
  Splitting a list at one place where a separator stands.

  Key definitions include:
    * `Splitting.splitOnce`
    * `Splitting.rsplitOnce`

  Key theorems include:
    * `Splitting.splitOnce_eq_some_iff`
    * `Splitting.eq_of_splits`
    * `Splitting.rsplitOnce_eq_some_iff`
    * `Splitting.exists_of_count_eq_one`
    * `Splitting.not_mem_of_mem_splitOn`
-/

------------------------------------------------------------
-- The First and the Last Separator
------------------------------------------------------------

namespace Splitting

variable {α : Type} [DecidableEq α]

/- What stands before and after the first separator. -/
def splitOnce
    (sep : α) :
    List α → Option (List α × List α)
| [] => none
| c :: rest =>
    if c = sep then
      some ([], rest)
    else
      (splitOnce sep rest).map
        (fun parts => (c :: parts.1, parts.2))

/- What stands before and after the last separator. -/
def rsplitOnce
    (sep : α)
    (l : List α) : Option (List α × List α) :=
  (splitOnce sep l.reverse).map
    (fun parts => (parts.2.reverse, parts.1.reverse))

variable {sep : α} {l before after : List α}

theorem splitOnce_eq_some_iff :
    splitOnce sep l = some (before, after) ↔
      l = before ++ sep :: after ∧ sep ∉ before := by
  induction l generalizing before with
  | nil =>
      simp [splitOnce]
  | cons c l ih =>
      rw [splitOnce]
      by_cases hSep : c = sep
      · rw [if_pos hSep]
        constructor
        · intro hSome
          cases hSome
          exact ⟨hSep ▸ rfl, List.not_mem_nil⟩
        · rintro ⟨hList, hNot⟩
          cases before with
          | nil =>
              cases hList
              rfl
          | cons b before =>
              cases hList
              exact absurd (hSep ▸ List.mem_cons_self) hNot
      · rw [if_neg hSep, Option.map_eq_some_iff]
        constructor
        · rintro ⟨⟨front, rest⟩, hRest, hParts⟩
          cases hParts
          rcases ih.mp hRest with ⟨hList, hNot⟩
          refine ⟨congrArg (List.cons c) hList, ?_⟩
          rw [List.mem_cons, not_or]
          exact ⟨Ne.symm hSep, hNot⟩
        · rintro ⟨hList, hNot⟩
          cases before with
          | nil =>
              cases hList
              exact absurd rfl hSep
          | cons b before =>
              cases hList
              rw [List.mem_cons, not_or] at hNot
              exact ⟨(before, after), ih.mpr ⟨rfl, hNot.2⟩,
                rfl⟩

theorem splitOnce_eq_none_iff :
    splitOnce sep l = none ↔ sep ∉ l := by
  induction l with
  | nil =>
      simp [splitOnce]
  | cons c l ih =>
      rw [splitOnce, List.mem_cons, not_or]
      by_cases hSep : c = sep
      · simp [hSep]
      · rw [if_neg hSep, Option.map_eq_none_iff, ih]
        simp [Ne.symm hSep]

/- A list is split at its first separator in one way. -/
theorem eq_of_splits
    {before' after' : List α}
    (hList : l = before ++ sep :: after)
    (hList' : l = before' ++ sep :: after')
    (hBefore : sep ∉ before)
    (hBefore' : sep ∉ before') :
    before = before' ∧ after = after' := by
  have hSplit :
      splitOnce sep l = some (before, after) :=
    splitOnce_eq_some_iff.mpr ⟨hList, hBefore⟩
  have hSplit' :
      splitOnce sep l = some (before', after') :=
    splitOnce_eq_some_iff.mpr ⟨hList', hBefore'⟩
  cases hSplit.symm.trans hSplit'
  exact ⟨rfl, rfl⟩

theorem rsplitOnce_eq_some_iff :
    rsplitOnce sep l = some (before, after) ↔
      l = before ++ sep :: after ∧ sep ∉ after := by
  have hReverse :
      l.reverse = after.reverse ++ sep :: before.reverse ↔
        l = before ++ sep :: after := by
    rw [List.reverse_eq_iff]
    simp
  rw [rsplitOnce, Option.map_eq_some_iff]
  constructor
  · rintro ⟨⟨front, rest⟩, hSplit, hParts⟩
    cases hParts
    rcases splitOnce_eq_some_iff.mp hSplit with
      ⟨hList, hNot⟩
    refine ⟨hReverse.mp ?_, ?_⟩
    · rw [List.reverse_reverse, List.reverse_reverse]
      exact hList
    · rw [List.mem_reverse]
      exact hNot
  · rintro ⟨hList, hNot⟩
    refine ⟨(after.reverse, before.reverse),
      splitOnce_eq_some_iff.mpr ⟨hReverse.mpr hList, ?_⟩,
      by simp⟩
    rw [List.mem_reverse]
    exact hNot

theorem rsplitOnce_eq_none_iff :
    rsplitOnce sep l = none ↔ sep ∉ l := by
  rw [rsplitOnce, Option.map_eq_none_iff,
    splitOnce_eq_none_iff, List.mem_reverse]

/- One separator splits a list in one way. -/
theorem exists_of_count_eq_one
    (hCount : l.count sep = 1) :
    ∃ before after,
      l = before ++ sep :: after ∧
        sep ∉ before ∧ sep ∉ after := by
  cases hSplit : splitOnce sep l with
  | none =>
      have hNone := splitOnce_eq_none_iff.mp hSplit
      rw [List.count_eq_zero.mpr hNone] at hCount
      cases hCount
  | some parts =>
      rcases parts with ⟨before, after⟩
      rcases splitOnce_eq_some_iff.mp hSplit with
        ⟨rfl, hBefore⟩
      refine ⟨before, after, rfl, hBefore, ?_⟩
      rw [List.count_append, List.count_cons_self,
        List.count_eq_zero.mpr hBefore] at hCount
      exact List.count_eq_zero.mp (by omega)

end Splitting

------------------------------------------------------------
-- All Separators
------------------------------------------------------------

namespace Splitting

variable {α : Type} [DecidableEq α]

/- The parts of a split do not hold the separator. -/
theorem not_mem_of_mem_splitOn
    {sep : α}
    {l part : List α}
    (hPart : part ∈ l.splitOn sep) :
    sep ∉ part := by
  induction l generalizing part with
  | nil =>
      rw [List.splitOn_nil, List.mem_singleton] at hPart
      rw [hPart]
      exact List.not_mem_nil
  | cons c l ih =>
      rw [List.splitOn_cons_eq_if_modifyHead] at hPart
      split at hPart
      · rcases List.mem_cons.mp hPart with rfl | hPart
        · exact List.not_mem_nil
        · exact ih hPart
      · rename_i hc
        cases hParts : l.splitOn sep with
        | nil =>
            exact (List.splitOn_ne_nil sep l hParts).elim
        | cons first parts =>
            rw [hParts, List.modifyHead_cons] at hPart
            rcases List.mem_cons.mp hPart with rfl | hPart
            · have hFirst : sep ∉ first := by
                apply ih
                rw [hParts]
                exact List.mem_cons_self
              rw [List.mem_cons, not_or]
              refine ⟨?_, hFirst⟩
              rintro rfl
              exact hc (beq_self_eq_true sep)
            · apply ih
              rw [hParts]
              exact List.mem_cons_of_mem _ hPart

end Splitting
