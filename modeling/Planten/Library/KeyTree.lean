import Planten.Library.KeyMap
import Planten.Library.PathMap

/-
  Trees whose children are stored under keys.

  Every node carries a value and an association list of
  children.  A pointer that walks down existing children and
  works on the node it reaches is `descend`; its effect on
  the whole tree is `replace`.  Walks that create missing
  nodes on the way are `grow` and `graft`.  Seen from
  outside a tree is the flat map `entries`.

  Key definitions include:
    * `KeyTree`
    * `KeyTree.subtree?`
    * `KeyTree.entries`
    * `KeyTree.UniqueKeys`
    * `KeyTree.replace`
    * `KeyTree.descend`
    * `KeyTree.grow`
    * `KeyTree.graft`

  Key theorems include:
    * `KeyTree.entries_closed`
    * `KeyTree.entries_replace`
    * `KeyTree.descend_of_some`
    * `KeyTree.descend_missing`
    * `KeyTree.entries_of_parent`
    * `KeyTree.entries_moveEntry`
    * `KeyTree.entries_grow`
    * `KeyTree.entries_graft`
-/

------------------------------------------------------------
-- Trees
------------------------------------------------------------

/- A node value with children under keys. -/
inductive KeyTree (κ ν : Type) where
| node (val : ν) (children : List (κ × KeyTree κ ν))

namespace KeyTree

variable {κ ν : Type}

/- The value of the top node. -/
def val : KeyTree κ ν → ν
| node v _ => v

/- The children of the top node, in iteration order. -/
def children : KeyTree κ ν → List (κ × KeyTree κ ν)
| node _ cs => cs

/- A node without children. -/
def leaf (v : ν) : KeyTree κ ν :=
  node v []

/- Change the value of the top node. -/
def withVal
    (t : KeyTree κ ν)
    (v : ν) : KeyTree κ ν :=
  node v t.children

@[simp] theorem val_node
    (v : ν)
    (cs : List (κ × KeyTree κ ν)) :
    (node v cs).val = v := rfl

@[simp] theorem children_node
    (v : ν)
    (cs : List (κ × KeyTree κ ν)) :
    (node v cs).children = cs := rfl

@[simp] theorem val_withVal
    (t : KeyTree κ ν)
    (v : ν) :
    (t.withVal v).val = v := rfl

variable [DecidableEq κ]

/- The child stored under a key. -/
def child?
    (t : KeyTree κ ν)
    (k : κ) : Option (KeyTree κ ν) :=
  t.children.lookup k

/- Store a child under a key. -/
def setChild
    (t : KeyTree κ ν)
    (k : κ)
    (c : KeyTree κ ν) : KeyTree κ ν :=
  node t.val (KeyMap.insert k c t.children)

/- Drop the child under a key. -/
def removeChild
    (t : KeyTree κ ν)
    (k : κ) : KeyTree κ ν :=
  node t.val (KeyMap.erase k t.children)

/- The node reached by following a key path. -/
def subtree? :
    KeyTree κ ν → List κ → Option (KeyTree κ ν)
| t, [] => some t
| t, k :: ks =>
    match t.child? k with
    | none => none
    | some c => c.subtree? ks

/- The flat map from key paths to node values. -/
def entries (t : KeyTree κ ν) : PathMap κ ν :=
  fun p => (t.subtree? p).map val

@[simp] theorem val_setChild
    (t : KeyTree κ ν)
    (k : κ)
    (c : KeyTree κ ν) :
    (t.setChild k c).val = t.val := rfl

@[simp] theorem val_removeChild
    (t : KeyTree κ ν)
    (k : κ) :
    (t.removeChild k).val = t.val := rfl

@[simp] theorem child?_leaf
    (v : ν)
    (k : κ) :
    (leaf v : KeyTree κ ν).child? k = none := rfl

@[simp] theorem child?_withVal
    (t : KeyTree κ ν)
    (v : ν)
    (k : κ) :
    (t.withVal v).child? k = t.child? k := rfl

theorem child?_setChild
    (t : KeyTree κ ν)
    (k k' : κ)
    (c : KeyTree κ ν) :
    (t.setChild k c).child? k' =
      if k' = k then some c else t.child? k' :=
  KeyMap.lookup_insert k k' c t.children

theorem child?_removeChild
    (t : KeyTree κ ν)
    (k k' : κ) :
    (t.removeChild k).child? k' =
      if k' = k then none else t.child? k' :=
  KeyMap.lookup_erase k k' t.children

/- Storing the child already held changes nothing. -/
theorem setChild_of_child?
    {t c : KeyTree κ ν}
    {k : κ}
    (hChild : t.child? k = some c) :
    t.setChild k c = t := by
  cases t with
  | node v cs =>
      have hSame : KeyMap.insert k c cs = cs :=
        KeyMap.insert_of_lookup hChild
      simp only [setChild, val_node, children_node, hSame]

end KeyTree

------------------------------------------------------------
-- Paths
------------------------------------------------------------

namespace KeyTree

variable {κ ν : Type} [DecidableEq κ]

@[simp] theorem subtree?_nil (t : KeyTree κ ν) :
    t.subtree? [] = some t := rfl

theorem subtree?_cons
    (t : KeyTree κ ν)
    (k : κ)
    (ks : List κ) :
    t.subtree? (k :: ks) =
      (t.child? k).bind (fun c => c.subtree? ks) := by
  rw [subtree?]
  cases t.child? k <;> rfl

@[simp] theorem subtree?_singleton
    (t : KeyTree κ ν)
    (k : κ) :
    t.subtree? [k] = t.child? k := by
  rw [subtree?_cons]
  cases t.child? k <;> rfl

/- Following two paths in turn follows their concatenation. -/
theorem subtree?_append
    (t : KeyTree κ ν)
    (p q : List κ) :
    t.subtree? (p ++ q) =
      (t.subtree? p).bind (fun s => s.subtree? q) := by
  induction p generalizing t with
  | nil =>
      rfl
  | cons k p ih =>
      rw [List.cons_append, subtree?_cons, subtree?_cons]
      cases t.child? k with
      | none =>
          rfl
      | some c =>
          exact ih c

@[simp] theorem entries_nil (t : KeyTree κ ν) :
    t.entries [] = some t.val := rfl

theorem entries_cons
    (t : KeyTree κ ν)
    (k : κ)
    (ks : List κ) :
    t.entries (k :: ks) =
      (t.child? k).bind (fun c => c.entries ks) := by
  rw [entries, subtree?_cons]
  cases t.child? k <;> rfl

/- The map of a subtree is the branch of the map. -/
theorem entries_of_subtree?
    {t s : KeyTree κ ν}
    {p : List κ}
    (hSub : t.subtree? p = some s) :
    s.entries = t.entries.branch p := by
  funext q
  simp [entries, PathMap.branch, subtree?_append, hSub]

/- A path is in the map exactly when it reaches a node. -/
theorem isSome_entries_iff
    (t : KeyTree κ ν)
    (p : List κ) :
    (t.entries p).isSome ↔ (t.subtree? p).isSome := by
  simp [entries]

theorem entries_eq_none_iff
    (t : KeyTree κ ν)
    (p : List κ) :
    t.entries p = none ↔ t.subtree? p = none := by
  simp [entries]

theorem entries_eq_some_iff
    (t : KeyTree κ ν)
    (p : List κ)
    (v : ν) :
    t.entries p = some v ↔
      ∃ s, t.subtree? p = some s ∧ s.val = v := by
  simp [entries]

/- The map of a tree holds the ancestors of its paths. -/
theorem entries_closed (t : KeyTree κ ν) :
    t.entries.Closed := by
  intro p k hSome
  rw [isSome_entries_iff, subtree?_append] at hSome
  rw [isSome_entries_iff]
  cases hSub : t.subtree? p with
  | none =>
      simp [hSub] at hSome
  | some s =>
      rfl

/- A path that reaches a node is shorter than the tree. -/
theorem length_lt_of_subtree?
    {t s : KeyTree κ ν}
    {p : List κ}
    (hSub : t.subtree? p = some s) :
    p.length < sizeOf t := by
  induction p generalizing t with
  | nil =>
      cases t
      rw [node.sizeOf_spec, List.length_nil]
      omega
  | cons k p ih =>
      rw [subtree?_cons, Option.bind_eq_some_iff] at hSub
      rcases hSub with ⟨c, hChild, hSub⟩
      have hShort := ih hSub
      have hMem :=
        List.sizeOf_lt_of_mem (KeyMap.mem_of_lookup hChild)
      cases t
      rw [children_node, Prod.mk.sizeOf_spec] at hMem
      rw [node.sizeOf_spec, List.length_cons]
      omega

/- The paths of a tree are bounded. -/
theorem entries_bounded (t : KeyTree κ ν) :
    ∃ bound, ∀ p, (t.entries p).isSome → p.length < bound := by
  refine ⟨sizeOf t, ?_⟩
  intro p hSome
  rw [isSome_entries_iff, Option.isSome_iff_exists] at hSome
  rcases hSome with ⟨s, hSub⟩
  exact length_lt_of_subtree? hSub

/- The keys of a subtree are the paths one key longer. -/
theorem mem_keys_iff_entries
    {t s : KeyTree κ ν}
    {p : List κ}
    (hSub : t.subtree? p = some s)
    (k : κ) :
    k ∈ KeyMap.keys s.children ↔
      (t.entries (p ++ [k])).isSome := by
  rw [KeyMap.mem_keys_iff, isSome_entries_iff,
    subtree?_append, hSub]
  simp [child?]

end KeyTree

------------------------------------------------------------
-- Flat Effect of Node Operations
------------------------------------------------------------

namespace KeyTree

variable {κ ν : Type} [DecidableEq κ]

theorem entries_withVal
    (t : KeyTree κ ν)
    (v : ν) :
    (t.withVal v).entries = t.entries.assign [] v := by
  funext q
  cases q with
  | nil =>
      simp [PathMap.assign]
  | cons k q =>
      simp [PathMap.assign, entries_cons]

theorem entries_setChild
    (t c : KeyTree κ ν)
    (k : κ) :
    (t.setChild k c).entries =
      t.entries.plant [k] c.entries := by
  funext q
  cases q with
  | nil =>
      simp [PathMap.plant]
  | cons k' q =>
      rw [entries_cons, child?_setChild]
      by_cases hKey : k' = k
      · subst hKey
        simp [PathMap.plant]
      · have hNot : ¬ [k] <+: k' :: q := by
          simp [List.cons_prefix_cons, Ne.symm hKey]
        rw [PathMap.plant_of_not_isPrefix _ _ hNot,
          entries_cons, if_neg hKey]

theorem entries_removeChild
    (t : KeyTree κ ν)
    (k : κ) :
    (t.removeChild k).entries = t.entries.prune [k] := by
  funext q
  cases q with
  | nil =>
      simp [PathMap.prune]
  | cons k' q =>
      rw [entries_cons, child?_removeChild]
      by_cases hKey : k' = k
      · subst hKey
        simp [PathMap.prune]
      · have hNot : ¬ [k] <+: k' :: q := by
          simp [List.cons_prefix_cons, Ne.symm hKey]
        rw [PathMap.prune_of_not_isPrefix _ hNot,
          entries_cons, if_neg hKey]

/- A leaf maps the empty path only. -/
theorem entries_leaf
    (v : ν)
    (q : List κ) :
    (leaf v : KeyTree κ ν).entries q =
      if q = [] then some v else none := by
  cases q with
  | nil =>
      rfl
  | cons k q =>
      simp [entries_cons]

end KeyTree

------------------------------------------------------------
-- Unique Keys
------------------------------------------------------------

namespace KeyTree

variable {κ ν : Type}

/- No node stores two children under one key. -/
inductive UniqueKeys : KeyTree κ ν → Prop where
| node
    {v : ν}
    {cs : List (κ × KeyTree κ ν)}
    (hNodup : (KeyMap.keys cs).Nodup)
    (hChildren : ∀ c ∈ cs, UniqueKeys c.2) :
    UniqueKeys (KeyTree.node v cs)

namespace UniqueKeys

theorem nodup
    {t : KeyTree κ ν}
    (hUnique : t.UniqueKeys) :
    (KeyMap.keys t.children).Nodup := by
  cases hUnique with
  | node hNodup hChildren =>
      exact hNodup

theorem of_mem
    {t : KeyTree κ ν}
    {c : κ × KeyTree κ ν}
    (hUnique : t.UniqueKeys)
    (hMem : c ∈ t.children) :
    c.2.UniqueKeys := by
  cases hUnique with
  | node hNodup hChildren =>
      exact hChildren c hMem

theorem leaf (v : ν) :
    (KeyTree.leaf v : KeyTree κ ν).UniqueKeys :=
  .node (by simp [KeyMap.keys]) (by simp)

theorem withVal
    {t : KeyTree κ ν}
    (hUnique : t.UniqueKeys)
    (v : ν) :
    (t.withVal v).UniqueKeys :=
  .node hUnique.nodup (fun _ hMem => hUnique.of_mem hMem)

variable [DecidableEq κ]

theorem child
    {t c : KeyTree κ ν}
    {k : κ}
    (hUnique : t.UniqueKeys)
    (hChild : t.child? k = some c) :
    c.UniqueKeys :=
  hUnique.of_mem (KeyMap.mem_of_lookup hChild)

theorem setChild
    {t c : KeyTree κ ν}
    (hUnique : t.UniqueKeys)
    (k : κ)
    (hChild : c.UniqueKeys) :
    (t.setChild k c).UniqueKeys := by
  refine .node
    (KeyMap.nodup_keys_insert k c hUnique.nodup) ?_
  intro entry hMem
  rcases KeyMap.mem_insert hMem with hNew | hOld
  · rw [hNew]
    exact hChild
  · exact hUnique.of_mem hOld

theorem removeChild
    {t : KeyTree κ ν}
    (hUnique : t.UniqueKeys)
    (k : κ) :
    (t.removeChild k).UniqueKeys := by
  refine .node
    (KeyMap.nodup_keys_erase k hUnique.nodup) ?_
  intro entry hMem
  exact hUnique.of_mem (List.mem_of_mem_filter hMem)

theorem subtree
    {t s : KeyTree κ ν}
    {p : List κ}
    (hUnique : t.UniqueKeys)
    (hSub : t.subtree? p = some s) :
    s.UniqueKeys := by
  induction p generalizing t with
  | nil =>
      simp only [subtree?_nil, Option.some.injEq] at hSub
      rwa [← hSub]
  | cons k p ih =>
      rw [subtree?_cons] at hSub
      cases hChild : t.child? k with
      | none =>
          simp [hChild] at hSub
      | some c =>
          rw [hChild] at hSub
          exact ih (hUnique.child hChild) hSub

end UniqueKeys

end KeyTree

------------------------------------------------------------
-- Replacement and Descent
------------------------------------------------------------

namespace KeyTree

variable {κ ν : Type} [DecidableEq κ]

/- Put a subtree in place of the node at an existing path. -/
def replace
    (s : KeyTree κ ν) :
    KeyTree κ ν → List κ → KeyTree κ ν
| _, [] => s
| t, k :: ks =>
    match t.child? k with
    | none => t
    | some c => t.setChild k (replace s c ks)

/- Replacement plants the new branch at its path. -/
theorem entries_replace
    (s : KeyTree κ ν)
    {t : KeyTree κ ν}
    {p : List κ}
    (hSome : (t.subtree? p).isSome) :
    (replace s t p).entries =
      t.entries.plant p s.entries := by
  induction p generalizing t with
  | nil =>
      simp [replace]
  | cons k p ih =>
      rw [subtree?_cons] at hSome
      cases hChild : t.child? k with
      | none =>
          simp [hChild] at hSome
      | some c =>
          have hSub : (c.subtree? p).isSome := by
            simpa [hChild] using hSome
          have hBranch :
              c.entries = t.entries.branch [k] :=
            entries_of_subtree? (by simpa using hChild)
          rw [replace, hChild]
          simp only [entries_setChild]
          rw [ih hSub, hBranch,
            PathMap.plant_branch_plant]
          rfl

/- Replacing a node by itself changes nothing. -/
theorem replace_self
    {t s : KeyTree κ ν}
    {p : List κ}
    (hSub : t.subtree? p = some s) :
    replace s t p = t := by
  induction p generalizing t with
  | nil =>
      simpa [replace] using hSub.symm
  | cons k p ih =>
      rw [subtree?_cons] at hSub
      cases hChild : t.child? k with
      | none =>
          simp [hChild] at hSub
      | some c =>
          rw [hChild] at hSub
          rw [replace, hChild]
          simp only [ih hSub]
          exact setChild_of_child? hChild

theorem UniqueKeys.replace
    {t s : KeyTree κ ν}
    (hUnique : t.UniqueKeys)
    (hNew : s.UniqueKeys)
    (p : List κ) :
    (KeyTree.replace s t p).UniqueKeys := by
  induction p generalizing t with
  | nil =>
      exact hNew
  | cons k p ih =>
      rw [KeyTree.replace]
      cases hChild : t.child? k with
      | none =>
          exact hUnique
      | some c =>
          exact hUnique.setChild k
            (ih (hUnique.child hChild))

variable {ε β : Type}

/-
  Walk down existing children, run `body` on the node
  reached, and write the walked nodes back.  A missing child
  ends the walk with the answer `missing`.
-/
def descend
    (missing : β)
    (body : KeyTree κ ν → Except ε (KeyTree κ ν × β)) :
    KeyTree κ ν → List κ → Except ε (KeyTree κ ν × β)
| t, [] => body t
| t, k :: ks =>
    match t.child? k with
    | none => .ok (t, missing)
    | some c =>
        match descend missing body c ks with
        | .error e => .error e
        | .ok (c', b) => .ok (t.setChild k c', b)

/- A walk over a missing path leaves the tree alone. -/
theorem descend_of_none
    {missing : β}
    {body : KeyTree κ ν → Except ε (KeyTree κ ν × β)}
    {t : KeyTree κ ν}
    {p : List κ}
    (hSub : t.subtree? p = none) :
    descend missing body t p = .ok (t, missing) := by
  induction p generalizing t with
  | nil =>
      simp at hSub
  | cons k p ih =>
      rw [subtree?_cons] at hSub
      rw [descend]
      cases hChild : t.child? k with
      | none =>
          rfl
      | some c =>
          rw [hChild] at hSub
          simp only [ih hSub]
          rw [setChild_of_child? hChild]

/- A walk over an existing path replaces the node reached. -/
theorem descend_of_some
    {missing : β}
    {body : KeyTree κ ν → Except ε (KeyTree κ ν × β)}
    {t s : KeyTree κ ν}
    {p : List κ}
    (hSub : t.subtree? p = some s) :
    descend missing body t p =
      (body s).map (fun r => (replace r.1 t p, r.2)) := by
  induction p generalizing t with
  | nil =>
      simp only [subtree?_nil, Option.some.injEq] at hSub
      subst hSub
      rw [descend]
      cases body t <;> rfl
  | cons k p ih =>
      rw [subtree?_cons] at hSub
      rw [descend]
      cases hChild : t.child? k with
      | none =>
          simp [hChild] at hSub
      | some c =>
          rw [hChild] at hSub
          simp only [ih hSub]
          cases body s with
          | error e =>
              rfl
          | ok r =>
              simp [Except.map, replace, hChild]

/-
  A walk that answers `missing` leaves the tree alone when
  its work on a node does.
-/
theorem descend_missing
    {missing : β}
    {body : KeyTree κ ν → Except ε (KeyTree κ ν × β)}
    {t t' : KeyTree κ ν}
    {p : List κ}
    (hBody : ∀ s s', body s = .ok (s', missing) → s' = s)
    (hRun : descend missing body t p = .ok (t', missing)) :
    t' = t := by
  cases hSub : t.subtree? p with
  | none =>
      rw [descend_of_none hSub] at hRun
      cases hRun
      rfl
  | some s =>
      rw [descend_of_some hSub] at hRun
      cases hWork : body s with
      | error e =>
          rw [hWork] at hRun
          cases hRun
      | ok r =>
          rcases r with ⟨s', b⟩
          rw [hWork] at hRun
          cases hRun
          rw [hBody s s' hWork]
          exact replace_self hSub

/- A walk keeps keys unique when its work does. -/
theorem UniqueKeys.descend
    {missing : β}
    {body : KeyTree κ ν → Except ε (KeyTree κ ν × β)}
    (hBody : ∀ s r,
      s.UniqueKeys → body s = .ok r → r.1.UniqueKeys)
    {t : KeyTree κ ν}
    {p : List κ}
    {r : KeyTree κ ν × β}
    (hUnique : t.UniqueKeys)
    (hOk : KeyTree.descend missing body t p = .ok r) :
    r.1.UniqueKeys := by
  cases hSub : t.subtree? p with
  | none =>
      rw [descend_of_none hSub] at hOk
      cases hOk
      exact hUnique
  | some s =>
      rw [descend_of_some hSub] at hOk
      cases hRun : body s with
      | error e =>
          rw [hRun] at hOk
          cases hOk
      | ok r' =>
          rw [hRun] at hOk
          cases hOk
          exact hUnique.replace
            (hBody s r' (hUnique.subtree hSub) hRun) p

end KeyTree

------------------------------------------------------------
-- Entries of a Parent
------------------------------------------------------------

namespace KeyTree

variable {κ ν : Type} [DecidableEq κ]
variable {t parent child : KeyTree κ ν}
variable {p : List κ} {k : κ}

/- Without its parent a node is missing. -/
theorem entries_of_no_parent
    (hParent : t.subtree? p = none)
    (k : κ) :
    t.entries (p ++ [k]) = none := by
  rw [entries_eq_none_iff, subtree?_append, hParent]
  rfl

/- An entry of the parent is the node at the whole path. -/
theorem subtree?_of_parent
    (hParent : t.subtree? p = some parent)
    (k : κ) :
    t.subtree? (p ++ [k]) = parent.child? k := by
  rw [subtree?_append, hParent]
  simp

theorem entries_of_parent
    (hParent : t.subtree? p = some parent)
    (k : κ) :
    t.entries (p ++ [k]) = (parent.child? k).map val := by
  cases hChild : parent.child? k with
  | none =>
      rw [Option.map_none, entries_eq_none_iff,
        subtree?_of_parent hParent, hChild]
  | some child =>
      rw [Option.map_some, entries_eq_some_iff]
      refine ⟨child, ?_, rfl⟩
      rw [subtree?_of_parent hParent, hChild]

/- Changing the parent changes its branch. -/
theorem entries_replace_parent
    (hParent : t.subtree? p = some parent)
    (s : KeyTree κ ν) :
    (replace s t p).entries =
      t.entries.plant p s.entries := by
  apply entries_replace
  rw [hParent]
  rfl

theorem entries_removeEntry
    (hParent : t.subtree? p = some parent)
    (k : κ) :
    (replace (parent.removeChild k) t p).entries =
      t.entries.prune (p ++ [k]) := by
  rw [entries_replace_parent hParent, entries_removeChild,
    entries_of_subtree? hParent,
    PathMap.plant_branch_prune]

/- A new value for an entry is an assignment. -/
theorem entries_setEntry
    (hParent : t.subtree? p = some parent)
    (hChild : parent.child? k = some child)
    (v : ν) :
    (replace (parent.setChild k (child.withVal v)) t
        p).entries =
      t.entries.assign (p ++ [k]) v := by
  have hSub : t.subtree? (p ++ [k]) = some child := by
    rw [subtree?_of_parent hParent, hChild]
  rw [entries_replace_parent hParent, entries_setChild,
    entries_withVal, entries_of_subtree? hSub,
    entries_of_subtree? hParent,
    PathMap.plant_branch_plant,
    PathMap.plant_branch_assign, List.append_nil]

/- Moving an entry to another key is a relabelling. -/
theorem entries_moveEntry
    (hParent : t.subtree? p = some parent)
    (hChild : parent.child? k = some child)
    (k' : κ)
    (v : ν) :
    (replace
        ((parent.removeChild k).setChild k'
          (child.withVal v)) t p).entries =
      t.entries.relabel p k k' v := by
  have hSub : t.subtree? (p ++ [k]) = some child := by
    rw [subtree?_of_parent hParent, hChild]
  rw [entries_replace_parent hParent, entries_setChild,
    entries_removeChild, entries_withVal,
    entries_of_subtree? hSub,
    entries_of_subtree? hParent,
    PathMap.plant_branch_relabel]

end KeyTree

------------------------------------------------------------
-- Growth
------------------------------------------------------------

namespace KeyTree

variable {κ ν : Type} [DecidableEq κ]

/-
  Walk down a path, creating each missing node with the
  value `fresh` gives to its path.
-/
def grow :
    (List κ → ν) → KeyTree κ ν → List κ → KeyTree κ ν
| _, t, [] => t
| fresh, t, k :: ks =>
    t.setChild k
      (grow (fun p => fresh (k :: p))
        ((t.child? k).getD (leaf (fresh [k]))) ks)

/-
  Create the missing ancestors of a path and put a subtree
  at its end.
-/
def graft :
    (List κ → ν) → KeyTree κ ν → KeyTree κ ν →
      List κ → KeyTree κ ν
| _, s, _, [] => s
| fresh, s, t, k :: ks =>
    t.setChild k
      (graft (fun p => fresh (k :: p)) s
        ((t.child? k).getD (leaf (fresh [k]))) ks)

/- Growth reads `fresh` at nonempty paths only. -/
theorem grow_congr
    (fresh fresh' : List κ → ν)
    (hSame : ∀ p, p ≠ [] → fresh p = fresh' p)
    (t : KeyTree κ ν)
    (p : List κ) :
    grow fresh t p = grow fresh' t p := by
  induction p generalizing t fresh fresh' with
  | nil =>
      rfl
  | cons k p ih =>
      rw [grow, grow, hSame [k] (by simp)]
      rw [ih _ _ (fun q _ => hSame (k :: q) (by simp))]

/- Grafting reads `fresh` at nonempty paths only. -/
theorem graft_congr
    (fresh fresh' : List κ → ν)
    (hSame : ∀ p, p ≠ [] → fresh p = fresh' p)
    (s t : KeyTree κ ν)
    (p : List κ) :
    graft fresh s t p = graft fresh' s t p := by
  induction p generalizing t fresh fresh' with
  | nil =>
      rfl
  | cons k p ih =>
      rw [graft, graft, hSame [k] (by simp)]
      rw [ih _ _ (fun q _ => hSame (k :: q) (by simp))]

theorem UniqueKeys.childOrLeaf
    {t : KeyTree κ ν}
    (hUnique : t.UniqueKeys)
    (k : κ)
    (v : ν) :
    ((t.child? k).getD (KeyTree.leaf v)).UniqueKeys := by
  cases hChild : t.child? k with
  | none =>
      exact UniqueKeys.leaf v
  | some c =>
      exact hUnique.child hChild

theorem UniqueKeys.grow
    {t : KeyTree κ ν}
    (fresh : List κ → ν)
    (hUnique : t.UniqueKeys)
    (p : List κ) :
    (KeyTree.grow fresh t p).UniqueKeys := by
  induction p generalizing t fresh with
  | nil =>
      exact hUnique
  | cons k p ih =>
      exact hUnique.setChild k
        (ih _ (hUnique.childOrLeaf k _))

theorem UniqueKeys.graft
    {t s : KeyTree κ ν}
    (fresh : List κ → ν)
    (hUnique : t.UniqueKeys)
    (hNew : s.UniqueKeys)
    (p : List κ) :
    (KeyTree.graft fresh s t p).UniqueKeys := by
  induction p generalizing t fresh with
  | nil =>
      exact hNew
  | cons k p ih =>
      exact hUnique.setChild k
        (ih _ (hUnique.childOrLeaf k _))

/- The map below a child that is created when missing. -/
theorem entries_childOrLeaf
    (t : KeyTree κ ν)
    (k : κ)
    (v : ν)
    (q : List κ) :
    ((t.child? k).getD (leaf v)).entries q =
      if q = [] ∧ (t.child? k).isNone then
        some v
      else
        t.entries (k :: q) := by
  rw [entries_cons]
  cases t.child? k with
  | none =>
      simp [entries_leaf]
  | some c =>
      simp

/- Filling below such a child is filling below its key. -/
theorem fill_childOrLeaf
    (fresh : List κ → ν)
    (t : KeyTree κ ν)
    (k : κ)
    (p q : List κ) :
    (((t.child? k).getD (leaf (fresh [k]))).entries).fill
        (fun l => fresh (k :: l)) p q =
      t.entries.fill fresh (k :: p) (k :: q) := by
  simp only [PathMap.fill, entries_childOrLeaf]
  cases hChild : t.child? k with
  | none =>
      have hNone : t.entries (k :: q) = none := by
        simp [entries_cons, hChild]
      by_cases hq : q = []
      · subst hq
        simp [hNone, List.cons_prefix_cons]
      · simp [hq, hNone, List.cons_prefix_cons]
  | some c =>
      simp [List.cons_prefix_cons]

/- Growth fills in the missing part of its path. -/
theorem entries_grow
    (fresh : List κ → ν)
    (t : KeyTree κ ν)
    (p : List κ) :
    (grow fresh t p).entries = t.entries.fill fresh p := by
  induction p generalizing t fresh with
  | nil =>
      funext q
      by_cases hNil : q = []
      · subst hNil
        simp [grow, PathMap.fill]
      · simp [grow, PathMap.fill, hNil]
  | cons k p ih =>
      funext q
      rw [grow, entries_setChild, ih]
      cases q with
      | nil =>
          simp [PathMap.plant, PathMap.fill]
      | cons k' q =>
          by_cases hKey : k' = k
          · subst hKey
            have hSplit : k' :: q = [k'] ++ q := rfl
            rw [hSplit, PathMap.plant_append]
            exact fill_childOrLeaf fresh t k' p q
          · have hNot : ¬ [k] <+: k' :: q := by
              simp [List.cons_prefix_cons, Ne.symm hKey]
            rw [PathMap.plant_of_not_isPrefix _ _ hNot]
            simp [PathMap.fill, List.cons_prefix_cons, hKey]

/-
  Grafting fills in the missing ancestors and plants the new
  branch.
-/
theorem entries_graft
    (fresh : List κ → ν)
    (s t : KeyTree κ ν)
    (p : List κ) :
    (graft fresh s t p).entries =
      (t.entries.fill fresh p.dropLast).plant p
        s.entries := by
  induction p generalizing t fresh with
  | nil =>
      simp [graft]
  | cons k p ih =>
      funext q
      rw [graft, entries_setChild, ih]
      cases q with
      | nil =>
          simp [PathMap.plant, PathMap.fill]
      | cons k' q =>
          by_cases hKey : k' = k
          · subst hKey
            have hSplit : k' :: q = [k'] ++ q := rfl
            rw [hSplit, PathMap.plant_append]
            by_cases hPrefix : p <+: q
            · rcases hPrefix with ⟨rest, rfl⟩
              have hAll :
                  [k'] ++ (p ++ rest) = (k' :: p) ++ rest :=
                rfl
              rw [hAll, PathMap.plant_append,
                PathMap.plant_append]
            · have hNot : ¬ k' :: p <+: [k'] ++ q := by
                simpa [List.cons_prefix_cons] using hPrefix
              have hNe : p ≠ [] := by
                rintro rfl
                exact hPrefix (List.nil_prefix)
              rw [PathMap.plant_of_not_isPrefix _ _ hPrefix,
                PathMap.plant_of_not_isPrefix _ _ hNot]
              have hDrop :
                  (k' :: p).dropLast = k' :: p.dropLast :=
                List.dropLast_cons_of_ne_nil hNe
              rw [hDrop]
              exact fill_childOrLeaf fresh t k' p.dropLast q
          · have hNot : ¬ [k] <+: k' :: q := by
              simp [List.cons_prefix_cons, Ne.symm hKey]
            have hNot' : ¬ k :: p <+: k' :: q := by
              simp [List.cons_prefix_cons, Ne.symm hKey]
            rw [PathMap.plant_of_not_isPrefix _ _ hNot,
              PathMap.plant_of_not_isPrefix _ _ hNot']
            cases p with
            | nil =>
                simp [PathMap.fill]
            | cons k₁ p =>
                simp [PathMap.fill, List.cons_prefix_cons,
                  hKey]

end KeyTree
