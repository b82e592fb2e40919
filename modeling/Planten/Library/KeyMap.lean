import Mathlib.Data.List.Nodup
import Mathlib.Data.List.Basic

/-
  Finite maps as association lists.

  A map is read with `List.lookup`, so the first entry of a
  key wins.  The order of the entries stands for the
  iteration order of a hash table and carries no meaning.

  Key definitions include:
    * `KeyMap.keys`
    * `KeyMap.insert`
    * `KeyMap.erase`

  Key theorems include:
    * `KeyMap.lookup_insert`
    * `KeyMap.lookup_erase`
    * `KeyMap.nodup_keys_insert`
    * `KeyMap.nodup_keys_erase`
-/

------------------------------------------------------------
-- Operations
------------------------------------------------------------

namespace KeyMap

variable {κ α : Type}

/- The keys of a map, in iteration order. -/
def keys (m : List (κ × α)) : List κ :=
  m.map Prod.fst

variable [DecidableEq κ]

/-
  Store a value under a key.  An existing entry keeps its
  place; a new entry is appended.
-/
def insert
    (k : κ)
    (a : α) :
    List (κ × α) → List (κ × α)
| [] => [(k, a)]
| (k', a') :: m =>
    if k' = k then
      (k, a) :: m
    else
      (k', a') :: insert k a m

/- Drop every entry of a key. -/
def erase
    (k : κ)
    (m : List (κ × α)) :
    List (κ × α) :=
  m.filter (fun entry => entry.1 ≠ k)

end KeyMap

------------------------------------------------------------
-- Lookup
------------------------------------------------------------

namespace KeyMap

variable {κ α : Type} [DecidableEq κ]

/- Looking up in a nonempty list tests the first key. -/
theorem lookup_cons_eq
    (k k' : κ)
    (a : α)
    (m : List (κ × α)) :
    ((k', a) :: m).lookup k =
      if k = k' then some a else m.lookup k := by
  by_cases hEq : k = k'
  · simp [hEq]
  · have hBeq : (k == k') = false := by
      simpa using hEq
    simp [List.lookup_cons, hBeq, hEq]

/- Insertion changes the lookup of its own key only. -/
theorem lookup_insert
    (k k' : κ)
    (a : α)
    (m : List (κ × α)) :
    (insert k a m).lookup k' =
      if k' = k then some a else m.lookup k' := by
  induction m with
  | nil =>
      simp [insert, lookup_cons_eq]
  | cons entry m ih =>
      rcases entry with ⟨k₀, a₀⟩
      by_cases hHead : k₀ = k
      · subst hHead
        simp only [insert, if_true, lookup_cons_eq]
        split <;> simp_all
      · simp only [insert, hHead, if_false,
          lookup_cons_eq, ih]
        by_cases hKey : k' = k₀
        · subst hKey
          simp [hHead]
        · simp [hKey]

theorem lookup_insert_self
    (k : κ)
    (a : α)
    (m : List (κ × α)) :
    (insert k a m).lookup k = some a :=
  (lookup_insert k k a m).trans (if_pos rfl)


/- Erasure changes the lookup of its own key only. -/
theorem lookup_erase
    (k k' : κ)
    (m : List (κ × α)) :
    (erase k m).lookup k' =
      if k' = k then none else m.lookup k' := by
  induction m with
  | nil =>
      simp [erase]
  | cons entry m ih =>
      rcases entry with ⟨k₀, a₀⟩
      by_cases hHead : k₀ = k
      · have hErase :
            erase k ((k₀, a₀) :: m) = erase k m := by
          simp [erase, hHead]
        rw [hErase, ih, lookup_cons_eq]
        by_cases hKey : k' = k
        · simp [hKey]
        · have hNe : k' ≠ k₀ := by
            rw [hHead]
            exact hKey
          simp [hKey, hNe]
      · have hErase :
            erase k ((k₀, a₀) :: m) =
              (k₀, a₀) :: erase k m := by
          simp [erase, hHead]
        rw [hErase, lookup_cons_eq, lookup_cons_eq, ih]
        by_cases hKey : k' = k₀
        · subst hKey
          simp [hHead]
        · simp [hKey]

/- Storing the value already held changes nothing. -/
theorem insert_of_lookup
    {k : κ}
    {a : α}
    {m : List (κ × α)}
    (hLookup : m.lookup k = some a) :
    insert k a m = m := by
  induction m with
  | nil =>
      simp at hLookup
  | cons entry m ih =>
      rcases entry with ⟨k₀, a₀⟩
      rw [lookup_cons_eq] at hLookup
      by_cases hHead : k = k₀
      · subst hHead
        simp only [if_true, Option.some.injEq] at hLookup
        simp [insert, hLookup]
      · rw [if_neg hHead] at hLookup
        simp [insert, Ne.symm hHead, ih hLookup]

/- A successful lookup finds an entry of the list. -/
theorem mem_of_lookup
    {k : κ}
    {a : α}
    {m : List (κ × α)}
    (hLookup : m.lookup k = some a) :
    (k, a) ∈ m := by
  induction m with
  | nil =>
      simp at hLookup
  | cons entry m ih =>
      rcases entry with ⟨k₀, a₀⟩
      rw [lookup_cons_eq] at hLookup
      by_cases hHead : k = k₀
      · subst hHead
        simp only [if_true, Option.some.injEq] at hLookup
        simp [hLookup]
      · rw [if_neg hHead] at hLookup
        exact List.mem_cons_of_mem _ (ih hLookup)

/- The keys are the arguments whose lookup succeeds. -/
theorem mem_keys_iff
    (k : κ)
    (m : List (κ × α)) :
    k ∈ keys m ↔ (m.lookup k).isSome := by
  induction m with
  | nil =>
      simp [keys]
  | cons entry m ih =>
      rcases entry with ⟨k₀, a₀⟩
      rw [lookup_cons_eq]
      by_cases hHead : k = k₀
      · simp [keys, hHead]
      · have hTail :
            k ∈ keys ((k₀, a₀) :: m) ↔ k ∈ keys m := by
          simp [keys, hHead]
        rw [hTail, ih, if_neg hHead]

end KeyMap

------------------------------------------------------------
-- Unique Keys
------------------------------------------------------------

namespace KeyMap

variable {κ α : Type} [DecidableEq κ]

/- Insertion keeps the keys or appends one. -/
theorem keys_insert
    (k : κ)
    (a : α)
    (m : List (κ × α)) :
    keys (insert k a m) =
      if k ∈ keys m then keys m else keys m ++ [k] := by
  induction m with
  | nil =>
      simp [insert, keys]
  | cons entry m ih =>
      rcases entry with ⟨k₀, a₀⟩
      by_cases hHead : k₀ = k
      · simp [insert, keys, hHead]
      · have hKeys :
            keys (insert k a ((k₀, a₀) :: m)) =
              k₀ :: keys (insert k a m) := by
          simp [insert, keys, hHead]
        have hMem :
            k ∈ keys ((k₀, a₀) :: m) ↔ k ∈ keys m := by
          simp [keys, Ne.symm hHead]
        rw [hKeys, ih]
        by_cases hTail : k ∈ keys m
        · rw [if_pos hTail, if_pos (hMem.mpr hTail)]
          rfl
        · rw [if_neg hTail, if_neg (hMem.not.mpr hTail)]
          rfl

/- Insertion keeps keys unique. -/
theorem nodup_keys_insert
    {m : List (κ × α)}
    (k : κ)
    (a : α)
    (hNodup : (keys m).Nodup) :
    (keys (insert k a m)).Nodup := by
  rw [keys_insert]
  by_cases hMem : k ∈ keys m
  · simpa [hMem] using hNodup
  · rw [if_neg hMem]
    exact List.nodup_append.mpr
      ⟨hNodup, by simp, by
        intro x hx y hy hEq
        simp only [List.mem_singleton] at hy
        exact hMem (by rwa [← hy, ← hEq])⟩

/- Erasure keeps keys unique. -/
theorem nodup_keys_erase
    {m : List (κ × α)}
    (k : κ)
    (hNodup : (keys m).Nodup) :
    (keys (erase k m)).Nodup :=
  hNodup.sublist (List.filter_sublist.map Prod.fst)

/- Every entry of an insertion is new or was there before. -/
theorem mem_insert
    {k : κ}
    {a : α}
    {m : List (κ × α)}
    {entry : κ × α}
    (hMem : entry ∈ insert k a m) :
    entry = (k, a) ∨ entry ∈ m := by
  induction m with
  | nil =>
      exact Or.inl (by simpa [insert] using hMem)
  | cons head m ih =>
      rcases head with ⟨k₀, a₀⟩
      by_cases hHead : k₀ = k
      · simp only [insert, hHead, if_true,
          List.mem_cons] at hMem
        rcases hMem with hNew | hTail
        · exact Or.inl hNew
        · exact Or.inr (List.mem_cons_of_mem _ hTail)
      · simp only [insert, hHead, if_false,
          List.mem_cons] at hMem
        rcases hMem with hEq | hTail
        · exact Or.inr (by simp [hEq])
        · rcases ih hTail with hNew | hOld
          · exact Or.inl hNew
          · exact Or.inr (List.mem_cons_of_mem _ hOld)

end KeyMap
