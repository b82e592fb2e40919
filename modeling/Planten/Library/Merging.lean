import Mathlib.Data.List.Chain
import Mathlib.Data.List.Forall2

/-
  Lists whose neighbours are merged as they are built.

  An item that is added to a list is joined to the last item
  where the two can be joined, and appended otherwise.  The
  laws say what such a list keeps of the items, that no two
  of its neighbours can be joined any more, and that each of
  its items is joined from a block of neighbours.

  Key definitions include:
    * `Merging.add`
    * `Merging.merge`
    * `Merging.JoinedFrom`

  Key theorems include:
    * `Merging.flatMap_merge`
    * `Merging.filter_merge`
    * `Merging.separated_merge`
    * `Merging.blocks_merge`
    * `Merging.merge_of_separated`
    * `Merging.add_cases`
-/

------------------------------------------------------------
-- Merging
------------------------------------------------------------

namespace Merging

variable {α : Type}

/- An item is joined to the last one, or appended. -/
def add
    (join : α → α → Option α)
    (items : List α)
    (b : α) : List α :=
  match items.getLast?.bind (fun a => join a b) with
  | some c => items.dropLast ++ [c]
  | none => items ++ [b]

def merge
    (join : α → α → Option α)
    (items : List α) : List α :=
  items.foldl (add join) []

/- No two neighbours can be joined. -/
def Separated
    (join : α → α → Option α)
    (items : List α) : Prop :=
  items.IsChain (fun a b => join a b = none)

/- The items of a block, joined from the left. -/
inductive JoinedFrom
    (join : α → α → Option α) :
    List α → α → Prop where
| single (a : α) : JoinedFrom join [a] a
| more
    {block : List α}
    {a b c : α}
    (hBlock : JoinedFrom join block a)
    (hJoin : join a b = some c) :
    JoinedFrom join (block ++ [b]) c

end Merging

------------------------------------------------------------
-- Adding an Item
------------------------------------------------------------

namespace Merging

variable {α : Type} {join : α → α → Option α}
variable {items : List α} {a b c : α}

theorem add_of_join
    (hJoin : join a b = some c) :
    add join (items ++ [a]) b = items ++ [c] := by
  simp [add, hJoin]

theorem add_of_no_join
    (hJoin : join a b = none) :
    add join (items ++ [a]) b = items ++ [a] ++ [b] := by
  simp [add, hJoin]

/- An item that is added changes the last one or is new. -/
theorem add_cases
    (join : α → α → Option α)
    (items : List α)
    (b : α) :
    add join items b = items ++ [b] ∨
      ∃ front a c,
        items = front ++ [a] ∧ join a b = some c ∧
          add join items b = front ++ [c] := by
  rcases List.eq_nil_or_concat' items with
    rfl | ⟨front, a, rfl⟩
  · exact Or.inl rfl
  · cases hJoin : join a b with
    | none =>
        exact Or.inl (add_of_no_join hJoin)
    | some c =>
        exact Or.inr
          ⟨front, a, c, rfl, hJoin, add_of_join hJoin⟩

/-
  An induction over the lists that are merged: the empty
  list, an item that is joined, and one that is appended.
-/
theorem merge_induction
    {P : List α → List α → Prop}
    (hNil : P [] [])
    (hJoined :
      ∀ items front a b c,
        merge join items = front ++ [a] →
          join a b = some c →
            P items (front ++ [a]) →
              P (items ++ [b]) (front ++ [c]))
    (hAppended :
      ∀ items b,
        (∀ a ∈ (merge join items).getLast?,
            join a b = none) →
          P items (merge join items) →
            P (items ++ [b]) (merge join items ++ [b]))
    (items : List α) :
    P items (merge join items) := by
  induction items using List.reverseRecOn with
  | nil =>
      exact hNil
  | append_singleton items b ih =>
      have hMerge :
          merge join (items ++ [b]) =
            add join (merge join items) b := by
        simp [merge]
      rw [hMerge]
      rcases List.eq_nil_or_concat' (merge join items)
        with hEmpty | ⟨front, a, hLast⟩
      · have hNew := hAppended items b (by simp [hEmpty]) ih
        rw [hEmpty] at hNew ⊢
        exact hNew
      · cases hJoin : join a b with
        | none =>
            have hNew :=
              hAppended items b (by simp [hLast, hJoin]) ih
            rw [hLast] at hNew ⊢
            rw [add_of_no_join hJoin]
            exact hNew
        | some c =>
            rw [hLast, add_of_join hJoin]
            rw [hLast] at ih
            exact hJoined items front a b c hLast hJoin ih

end Merging

------------------------------------------------------------
-- Laws of Merging
------------------------------------------------------------

namespace Merging

variable {α β : Type} {join : α → α → Option α}

/- What joining keeps of two items is kept of the list. -/
theorem flatMap_merge
    {expand : α → List β}
    (hExpand :
      ∀ a b c, join a b = some c →
        expand c = expand a ++ expand b)
    (items : List α) :
    (merge join items).flatMap expand =
      items.flatMap expand := by
  apply merge_induction
    (P := fun items merged =>
      merged.flatMap expand = items.flatMap expand)
  · rfl
  · intro items front a b c _ hJoin ih
    simp only [List.flatMap_append,
      List.flatMap_singleton] at ih ⊢
    rw [hExpand a b c hJoin, ← ih, List.append_assoc]
  · intro items b _ ih
    simp only [List.flatMap_append, ih]

/- Items that are never joined are kept as they are. -/
theorem filter_merge
    {p : α → Bool}
    (hNever :
      ∀ a b c, join a b = some c →
        p a = false ∧ p b = false ∧ p c = false)
    (items : List α) :
    (merge join items).filter p = items.filter p := by
  apply merge_induction
    (P := fun items merged =>
      merged.filter p = items.filter p)
  · rfl
  · intro items front a b c _ hJoin ih
    rcases hNever a b c hJoin with ⟨hA, hB, hC⟩
    simp only [List.filter_append] at ih ⊢
    rw [← ih]
    simp [hA, hB, hC]
  · intro items b _ ih
    simp only [List.filter_append, ih]

/-
  Joining an item to the last one does not let the last one
  be joined to what is in front of it.
-/
theorem separated_merge
    (hLeft :
      ∀ x a b c, join a b = some c →
        join x a = none → join x c = none)
    (items : List α) :
    Separated join (merge join items) := by
  apply merge_induction
    (P := fun _ merged => Separated join merged)
  · exact List.IsChain.nil
  · intro items front a b c _ hJoin ih
    rcases List.isChain_append.mp ih with
      ⟨hFront, _, hLast⟩
    apply hFront.append (List.isChain_singleton c)
    intro x hX y hY
    cases hY
    exact hLeft x a b c hJoin (hLast x hX a rfl)
  · intro items b hNone ih
    apply ih.append (List.isChain_singleton b)
    intro a hA y hY
    cases hY
    exact hNone a hA

/-
  The items are the blocks one after the other, and each
  item of the merged list is joined from its block.
-/
theorem blocks_merge (items : List α) :
    ∃ blocks,
      blocks.flatten = items ∧
        List.Forall₂ (JoinedFrom join) blocks
          (merge join items) := by
  apply merge_induction
    (P := fun items merged =>
      ∃ blocks,
        blocks.flatten = items ∧
          List.Forall₂ (JoinedFrom join) blocks merged)
  · exact ⟨[], rfl, List.Forall₂.nil⟩
  · rintro items front a b c _ hJoin
      ⟨blocks, hItems, hBlocks⟩
    have hFront := List.forall₂_take_append _ _ _ hBlocks
    have hLast := List.forall₂_drop_append _ _ _ hBlocks
    rcases List.forall₂_cons_right_iff.mp hLast with
      ⟨block, rest, hBlock, hRest, hDrop⟩
    cases hRest
    refine ⟨blocks.take front.length ++ [block ++ [b]],
      ?_, ?_⟩
    · rw [← hItems]
      conv_rhs =>
        rw [← List.take_append_drop front.length blocks,
          hDrop]
      simp
    · apply List.rel_append hFront
      exact List.Forall₂.cons (hBlock.more hJoin) .nil
  · rintro items b _ ⟨blocks, hItems, hBlocks⟩
    refine ⟨blocks ++ [[b]], ?_, ?_⟩
    · rw [← hItems]
      simp
    · apply List.rel_append hBlocks
      exact List.Forall₂.cons (.single b) .nil

/- A separated list is merged already. -/
theorem merge_of_separated
    {items : List α}
    (hSeparated : Separated join items) :
    merge join items = items := by
  induction items using List.reverseRecOn with
  | nil =>
      rfl
  | append_singleton items b ih =>
      rcases List.isChain_append.mp hSeparated with
        ⟨hFront, _, hLast⟩
      rw [merge, List.foldl_append]
      change add join (merge join items) b = _
      rw [ih hFront]
      rcases add_cases join items b with
        hNew | ⟨front, a, c, rfl, hJoin, _⟩
      · exact hNew
      · have hNone := hLast a (by simp) b rfl
        cases hJoin.symm.trans hNone

end Merging
