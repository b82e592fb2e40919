import Planten.RamFs.Inode
import Mathlib.Data.List.DropRight

/-
  Resolution of one walk step over path strings.

  Key definitions include:
    * `resolveStep`
    * `walkComponents`

  Key theorems include:
    * `components_resolveStep`
    * `resolveStep_eq_none_iff`
-/

------------------------------------------------------------
-- Resolution
------------------------------------------------------------

namespace Planten

/- `str::rfind('/')`, as an index of characters. -/
def rfindSlash (l : List Char) : Option Nat :=
  match l.reverse.findIdx? (fun c => c = '/') with
  | none => none
  | some i => some (l.length - 1 - i)

/- The parent of a path string. -/
def parentPath (base : String) : String :=
  let trimmed := base.toList.rdropWhile (fun c => c = '/')
  match rfindSlash trimmed with
  | some 0 => "/"
  | some idx => String.ofList (trimmed.take idx)
  | none => "/"

/- `resolve_step`: the path of one walk step. -/
def resolveStep
    (base component : String) : Option String :=
  if component = "" then
    none
  else if component = "." then
    some base
  else if component = "/" then
    some "/"
  else if component = ".." then
    if base = "/" then some "/" else some (parentPath base)
  else if base = "/" then
    some ("/" ++ component)
  else
    some (base ++ "/" ++ component)

/- The components a walk step leads to. -/
def walkComponents
    (base : List String)
    (component : String) : List String :=
  if component = "." then
    base
  else if component = ".." then
    base.dropLast
  else if component = "/" then
    []
  else
    base ++ components component

end Planten

------------------------------------------------------------
-- Components of a Resolved Step
------------------------------------------------------------

namespace Planten

/- Only an empty component is refused. -/
theorem resolveStep_eq_none_iff
    (base component : String) :
    resolveStep base component = none ↔
      component = "" := by
  unfold resolveStep
  split_ifs <;> simp_all

/- The last slash splits a list. -/
theorem rfindSlash_eq_some
    {l : List Char}
    {idx : Nat}
    (hFind : rfindSlash l = some idx) :
    l = l.take idx ++ '/' :: l.drop (idx + 1) ∧
      '/' ∉ l.drop (idx + 1) := by
  unfold rfindSlash at hFind
  split at hFind
  · cases hFind
  · rename_i i hIdx
    cases hFind
    rw [List.findIdx?_eq_some_iff_getElem] at hIdx
    rcases hIdx with ⟨hLt, hSlash, hBefore⟩
    have hLength : i < l.length := by
      simpa using hLt
    have hGet : l[l.length - 1 - i] = '/' := by
      simpa [List.getElem_reverse] using hSlash
    constructor
    · conv_lhs =>
        rw [← List.take_append_drop (l.length - 1 - i) l]
      rw [List.drop_eq_getElem_cons (by omega), hGet]
    · intro hMem
      rw [List.mem_iff_getElem] at hMem
      rcases hMem with ⟨j, hj, hEq⟩
      rw [List.getElem_drop] at hEq
      rw [List.length_drop] at hj
      have hNot := hBefore (i - 1 - j) (by omega)
      rw [List.getElem_reverse] at hNot
      have hIndex :
          l.length - 1 - (i - 1 - j) =
            l.length - 1 - i + 1 + j := by
        omega
      simp only [hIndex, hEq] at hNot
      simp at hNot

theorem rfindSlash_eq_none
    {l : List Char}
    (hFind : rfindSlash l = none) :
    '/' ∉ l := by
  unfold rfindSlash at hFind
  split at hFind
  · rename_i hIdx
    rw [List.findIdx?_eq_none_iff] at hIdx
    intro hMem
    have hNot := hIdx '/' (by simpa using hMem)
    simp at hNot
  · cases hFind

/- Trailing slashes add no component. -/
theorem components_rdropWhile (l : List Char) :
    components
        (String.ofList
          (l.rdropWhile (fun c => c = '/'))) =
      components (String.ofList l) := by
  induction l using List.reverseRecOn with
  | nil =>
      rfl
  | append_singleton l c ih =>
      by_cases hc : c = '/'
      · subst hc
        rw [List.rdropWhile_concat_pos _ _ _ (by simp), ih]
        have hSlash :=
          components_append_slash (String.ofList l) ""
        have hList :
            String.ofList l ++ "/" ++ "" =
              String.ofList (l ++ ['/']) := by
          rw [String.ofList_append, String.append_empty]
        rw [hList, components_empty,
          List.append_nil] at hSlash
        exact hSlash.symm
      · rw [List.rdropWhile_concat_neg _ _ _
          (by simpa using hc)]

/- The parent drops the last component. -/
theorem components_parentPath (base : String) :
    components (parentPath base) =
      (components base).dropLast := by
  have hBase :=
    components_rdropWhile base.toList
  rw [String.ofList_toList] at hBase
  rw [← hBase]
  unfold parentPath
  simp only
  set trimmed :=
    base.toList.rdropWhile (fun c => c = '/')
    with hTrimmed
  cases hFind : rfindSlash trimmed with
  | none =>
      have hSlash := rfindSlash_eq_none hFind
      simp only [components_slash]
      by_cases hNil : trimmed = []
      · rw [hNil]
        rfl
      · rw [components_of_plain
          (by simpa using hNil)
          (by simpa using hSlash)]
        rfl
  | some idx =>
      have hSplit := rfindSlash_eq_some hFind
      have hLastNe : trimmed.drop (idx + 1) ≠ [] := by
        -- a trimmed list does not end in a slash
        intro hNil
        rw [hNil] at hSplit
        have hNe : trimmed ≠ [] := by
          intro hEmpty
          rw [hEmpty] at hSplit
          simp at hSplit
        have hNoSlash :=
          List.rdropWhile_last_not
            (fun c => decide (c = '/')) base.toList hNe
        have hLast :
            trimmed.getLast? = some '/' := by
          rw [hSplit.1]
          simp
        rw [List.getLast?_eq_some_getLast hNe] at hLast
        have hEq := Option.some.inj hLast
        exact hNoSlash (by simpa using hEq)
      have hParts :
          components (String.ofList trimmed) =
            components (String.ofList (trimmed.take idx)) ++
              [String.ofList (trimmed.drop (idx + 1))] := by
        have hString :
            String.ofList trimmed =
              String.ofList (trimmed.take idx) ++ "/" ++
                String.ofList (trimmed.drop (idx + 1)) := by
          have hCons :
              String.ofList
                  ('/' :: trimmed.drop (idx + 1)) =
                "/" ++
                  String.ofList (trimmed.drop (idx + 1)) :=
            @String.ofList_append ['/'] _
          conv_lhs => rw [hSplit.1]
          rw [String.ofList_append, hCons,
            String.append_assoc]
        rw [hString, components_append_slash,
          components_of_plain
            (s := String.ofList (trimmed.drop (idx + 1)))
            (by simpa using hLastNe)
            (by simpa using hSplit.2)]
      rw [hParts, List.dropLast_concat]
      cases idx with
      | zero =>
          simp
      | succ idx =>
          rfl

/- The components of a resolved step. -/
theorem components_resolveStep
    {base component path : String}
    (hStep : resolveStep base component = some path) :
    components path =
      walkComponents (components base) component := by
  unfold resolveStep at hStep
  unfold walkComponents
  by_cases hEmpty : component = ""
  · rw [if_pos hEmpty] at hStep
    cases hStep
  rw [if_neg hEmpty] at hStep
  by_cases hDot : component = "."
  · rw [if_pos hDot] at hStep
    cases hStep
    rw [if_pos hDot]
  rw [if_neg hDot] at hStep
  by_cases hSlash : component = "/"
  · rw [if_pos hSlash] at hStep
    cases hStep
    subst hSlash
    rw [if_neg (by decide), if_neg (by decide), if_pos rfl,
      components_slash]
  rw [if_neg hSlash] at hStep
  by_cases hDots : component = ".."
  · rw [if_pos hDots] at hStep
    rw [if_neg hDot, if_pos hDots]
    by_cases hRoot : base = "/"
    · rw [if_pos hRoot] at hStep
      cases hStep
      rw [hRoot]
      decide
    · rw [if_neg hRoot] at hStep
      cases hStep
      exact components_parentPath base
  rw [if_neg hDots] at hStep
  rw [if_neg hDot, if_neg hDots, if_neg hSlash]
  by_cases hRoot : base = "/"
  · rw [if_pos hRoot] at hStep
    cases hStep
    rw [hRoot, components_slash, List.nil_append]
    exact components_slash_append component
  · rw [if_neg hRoot] at hStep
    cases hStep
    exact components_append_slash base component

end Planten
