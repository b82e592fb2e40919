import Planten.RamFs.Effects
import Planten.RamFs.Refinement

/-
  What one answered request does to the flat map.

  `Change` is the inversion of `Effect` on the view of the
  file system: a request leaves the map alone or makes one
  of six changes to it, through the fid it names.

  Key definitions include:
    * `FlatFs.createdAttrs`
    * `Stat.modeFor`, `Stat.LengthFits`
    * `Change`

  Key theorems include:
    * `viewResult_createNode`
    * `Inode.length_of_applyStat`
    * `Effect.change`
-/

------------------------------------------------------------
-- Created Nodes
------------------------------------------------------------

namespace Planten

namespace FlatFs

/- The fields of a node that a create request adds. -/
def createdAttrs
    (clock : Clock)
    (p : List String)
    (perm : UInt32)
    (q : List String) : Attrs :=
  if q = p ∧ perm &&& DMDIR = 0 then
    Inode.freshFile clock [] 0 q
  else
    Inode.freshDir clock 0 q

/-
  On a path that is missing itself, the last reading counts
  like the others.
-/
theorem createsBeforeEpoch_iff_of_missing
    {m : FlatFs}
    (clock : Clock)
    {p : List String}
    (hNonempty : p ≠ [])
    (hNone : m p = none) :
    m.CreatesBeforeEpoch clock p ↔
      m.CreatesBeforeEpoch clock p.dropLast ∨
        clock (p.length - 1) < 0 := by
  have hPos : 0 < p.length :=
    List.length_pos_iff.mpr hNonempty
  constructor
  · rintro ⟨i, hLt, hMissing, hBefore⟩
    by_cases hLast : i = p.length - 1
    · subst hLast
      exact Or.inr hBefore
    · refine Or.inl ⟨i, ?_, ?_, hBefore⟩
      · rw [List.length_dropLast]
        omega
      · rwa [List.dropLast_eq_take, List.take_take,
          min_eq_left (by omega)]
  · rintro (⟨i, hLt, hMissing, hBefore⟩ | hBefore)
    · rw [List.length_dropLast] at hLt
      refine ⟨i, by omega, ?_, hBefore⟩
      rwa [List.dropLast_eq_take, List.take_take,
        min_eq_left (by omega)] at hMissing
    · refine ⟨p.length - 1, by omega, ?_, hBefore⟩
      rwa [Nat.sub_add_cancel hPos, List.take_length]

end FlatFs

theorem pair_eq_of_ok_eq
    {ε α β : Type}
    {a a' : α}
    {b b' : β}
    (hEq :
      (.ok (a, b) : Except ε (α × β)) = .ok (a', b')) :
    a = a' ∧ b = b' :=
  Prod.mk.inj (Except.ok.inj hEq)

/- Creating a missing node fills in its path. -/
theorem viewResult_createNode
    {clock : Clock}
    {fs : RamFs}
    {path : String}
    (perm : UInt32)
    (hFresh : fs.view (components path) = none) :
    RamFs.viewResult (createNode clock fs path perm) =
      if fs.view.CreatesBeforeEpoch clock
          (components path) then
        .error .unwrapFailed
      else
        .ok (fs.view.fill
          (FlatFs.createdAttrs clock (components path) perm)
          (components path), ()) := by
  have hNonempty : components path ≠ [] := by
    intro hNil
    rw [hNil, RamFs.view_nil] at hFresh
    cases hFresh
  unfold createNode
  by_cases hDir : perm &&& DMDIR ≠ 0
  · have hAttrs :
        FlatFs.createdAttrs clock (components path) perm =
          Inode.freshDir clock 0 := by
      funext q
      simp [FlatFs.createdAttrs, hDir]
    rw [if_pos hDir, RamFs.view_createDir,
      FlatFs.createDir, hAttrs]
  · have hAttrs :
        FlatFs.createdAttrs clock (components path) perm =
          fun q =>
            if q = components path then
              Inode.freshFile clock [] 0 (components path)
            else
              Inode.freshDir clock 0 q := by
      funext q
      by_cases hEnd : q = components path
      · simp only [FlatFs.createdAttrs, hEnd, true_and,
          if_pos (not_ne_iff.mp hDir), if_true]
      · simp only [FlatFs.createdAttrs, hEnd, false_and,
          if_false]
    rw [if_neg hDir, RamFs.view_createFile,
      FlatFs.createFile, if_neg hNonempty, hAttrs,
      PathMap.fill_dropLast_plant_single fs.view_closed _
        hFresh hNonempty]
    simp only [FlatFs.createsBeforeEpoch_iff_of_missing
      clock hNonempty hFresh]

/- A created node is found where it was asked for. -/
theorem stat_of_createNode
    {clock : Clock}
    {fs fs' : RamFs}
    {path : String}
    {perm : UInt32}
    (hFresh : fs.stat path = none)
    (hOp : createNode clock fs path perm = .ok (fs', ())) :
    (fs'.stat path).isSome := by
  have hView :=
    RamFs.viewResult_ok hOp (viewResult_createNode perm
      ((fs.stat_eq_none_iff path).mp hFresh))
  split at hView
  · cases hView
  · have hSome :=
      PathMap.isSome_fill
        (FlatFs.createdAttrs clock (components path) perm)
        fs.view (List.prefix_rfl (l := components path))
    rw [(pair_eq_of_ok_eq hView).1,
      Option.isSome_iff_ne_none] at hSome
    rw [Option.isSome_iff_ne_none]
    intro hNone
    exact hSome ((fs'.stat_eq_none_iff path).mp hNone)

end Planten

------------------------------------------------------------
-- Restated Nodes
------------------------------------------------------------

namespace Planten

/- The mode of a node after a stat. -/
def Stat.modeFor
    (stat : Stat)
    (mode : UInt32) : UInt32 :=
  if stat.mode ≠ 0xffffffff then stat.mode else mode

/- The length a stat asks for fits a vector, if it does. -/
def Stat.LengthFits
    (stat : Stat)
    (data : Bytes) : Prop :=
  stat.length = 0xffffffffffffffff ∨
    stat.length.toNat ≤ max data.length isizeMax

namespace Inode

theorem mode_of_applyStat
    {stat : Stat}
    {attrs attrs' : Attrs}
    (hAttrs : applyStat stat attrs = .ok attrs') :
    attrs'.mode = stat.modeFor attrs.mode := by
  rw [applyStat, bind_eq_ok_iff] at hAttrs
  rcases hAttrs with ⟨data, _, hAttrs⟩
  cases hAttrs
  rfl

/- A stat sets the length it asks for. -/
theorem length_of_applyStat
    {stat : Stat}
    {attrs attrs' : Attrs}
    (hAttrs : applyStat stat attrs = .ok attrs') :
    attrs'.data.length =
        (if stat.length = 0xffffffffffffffff then
          attrs.data.length
        else
          stat.length.toNat) ∧
      stat.LengthFits attrs.data := by
  rw [applyStat, bind_eq_ok_iff] at hAttrs
  rcases hAttrs with ⟨data, hData, hAttrs⟩
  cases hAttrs
  by_cases hAll : stat.length = 0xffffffffffffffff
  · rw [statData, if_neg (not_not.mpr hAll)] at hData
    cases hData
    rw [if_pos hAll]
    exact ⟨rfl, Or.inl hAll⟩
  · rw [statData, if_pos hAll] at hData
    rw [if_neg hAll]
    refine ⟨length_of_resize hData, Or.inr ?_⟩
    unfold resize at hData
    split_ifs at hData with hShort hLong
    · omega
    · omega

end Inode

end Planten

------------------------------------------------------------
-- Changes
------------------------------------------------------------

namespace Planten

/- A reply that leaves the map alone. -/
def Reply.Quiet (reply : Reply) : Prop :=
  reply.msgType ≠ RCREATE ∧ reply.msgType ≠ RREMOVE ∧
    reply.msgType ≠ RWSTAT

/-
  The change an answered request makes to the map, with the
  fid and the node it goes through.
-/
inductive Change
    (clock : Clock)
    (m : FlatFs)
    (fids : FidTable) :
    Request → FlatFs → Reply → Prop where
| same
    {req : Request} {reply : Reply}
    (hQuiet : reply.Quiet) :
    Change clock m fids req m reply
| created
    {fid : UInt32} {name : String} {perm : UInt32}
    {mode : UInt8} {state : FidState} {newPath : String}
    {qid : Qid}
    (hFid : fids.lookup fid = some state)
    (hStep : resolveStep state.path name = some newPath)
    (hFresh : m (components newPath) = none)
    (hEpoch :
      ¬ m.CreatesBeforeEpoch clock (components newPath)) :
    Change clock m fids (.tcreate fid name perm mode)
      (m.fill
        (FlatFs.createdAttrs clock (components newPath) perm)
        (components newPath))
      (.rcreate qid 0)
| written
    {fid : UInt32} {offset : UInt64} {buffer : Bytes}
    {state : FidState} {mode : UInt8} {attrs : Attrs}
    {data : Bytes}
    (hFid : fids.lookup fid = some state)
    (hMode : state.openMode = some mode)
    (hAllowed : modeAllowsWrite mode = true)
    (hNonempty : components state.path ≠ [])
    (hNode : m (components state.path) = some attrs)
    (hData :
      Inode.overlay attrs.data offset.toNat buffer =
        .ok data) :
    Change clock m fids (.twrite fid offset buffer)
      (m.assign (components state.path)
        { attrs with
          data := data, mtime := asSecs (clock 0) })
      (.rwrite (UInt32.ofNat buffer.length))
| restatedRoot
    {fid : UInt32} {record rest : Bytes}
    {state : FidState} {stat : Stat} {attrs : Attrs}
    (hFid : fids.lookup fid = some state)
    (hRecord : decodeStat.run record = .ok (stat, rest))
    (hRoot : components state.path = [])
    (hNode : m [] = some attrs) :
    Change clock m fids (.twstat fid record)
      (m.assign [] (Inode.applyRootStat stat attrs)) .rwstat
| restated
    {fid : UInt32} {record rest : Bytes}
    {state : FidState} {stat : Stat} {attrs attrs' : Attrs}
    {parent : List String} {filename : String}
    (hFid : fids.lookup fid = some state)
    (hRecord : decodeStat.run record = .ok (stat, rest))
    (hPath : components state.path = parent ++ [filename])
    (hNode : m (parent ++ [filename]) = some attrs)
    (hAttrs : Inode.applyStat stat attrs = .ok attrs')
    (hKept : stat.name = "" ∨ stat.name = filename) :
    Change clock m fids (.twstat fid record)
      (m.assign (parent ++ [filename]) attrs') .rwstat
| renamed
    {fid : UInt32} {record rest : Bytes}
    {state : FidState} {stat : Stat} {attrs attrs' : Attrs}
    {parent : List String} {filename : String}
    (hFid : fids.lookup fid = some state)
    (hRecord : decodeStat.run record = .ok (stat, rest))
    (hPath : components state.path = parent ++ [filename])
    (hNode : m (parent ++ [filename]) = some attrs)
    (hAttrs : Inode.applyStat stat attrs = .ok attrs')
    (hName : stat.name ≠ "")
    (hNew : stat.name ≠ filename)
    (hFree : m (parent ++ [stat.name]) = none) :
    Change clock m fids (.twstat fid record)
      (m.relabel parent filename stat.name
        { attrs' with name := stat.name }) .rwstat
| removed
    {fid : UInt32} {state : FidState}
    (hFid : fids.lookup fid = some state)
    (hNonempty : components state.path ≠ [])
    (hNode : m (components state.path) ≠ none) :
    Change clock m fids (.tremove fid)
      (m.prune (components state.path)) .rremove

end Planten

------------------------------------------------------------
-- Effects Are Changes
------------------------------------------------------------

namespace Planten

variable {hasher : Hasher} {clock : Clock}
variable {fs fs' : RamFs} {fids fids' : FidTable}

theorem change_of_createNode
    {fid : UInt32}
    {name newPath : String}
    {perm : UInt32}
    {mode : UInt8}
    {state : FidState}
    {qid : Qid}
    (hFid : fids.lookup fid = some state)
    (hStep : resolveStep state.path name = some newPath)
    (hFresh : fs.stat newPath = none)
    (hOp :
      createNode clock fs newPath perm = .ok (fs', ())) :
    Change clock fs.view fids (.tcreate fid name perm mode)
      fs'.view (.rcreate qid 0) := by
  have hNone := (fs.stat_eq_none_iff newPath).mp hFresh
  have hView :=
    RamFs.viewResult_ok hOp (viewResult_createNode perm hNone)
  split at hView
  · cases hView
  · rename_i hEpoch
    rw [← (pair_eq_of_ok_eq hView).1]
    exact .created hFid hStep hNone hEpoch

theorem change_of_write
    {fid : UInt32}
    {offset : UInt64}
    {buffer : Bytes}
    {state : FidState}
    {mode : UInt8}
    {written : Option UInt32}
    (hFid : fids.lookup fid = some state)
    (hMode : state.openMode = some mode)
    (hAllowed : modeAllowsWrite mode = true)
    (hOp :
      fs.write state.path offset buffer clock =
        .ok (fs', written)) :
    Change clock fs.view fids (.twrite fid offset buffer)
      fs'.view (.rwrite (written.getD 0)) := by
  have hQuiet : (Reply.rwrite (written.getD 0)).Quiet := by
    simp only [Reply.Quiet, Reply.msgType]
    decide
  have hView :=
    RamFs.viewResult_ok hOp
      (fs.view_write state.path offset buffer clock)
  unfold FlatFs.write at hView
  split at hView
  · rw [← (pair_eq_of_ok_eq hView).1]
    exact .same hQuiet
  · rename_i hNonempty
    split at hView
    · rw [← (pair_eq_of_ok_eq hView).1]
      exact .same hQuiet
    · rename_i attrs hNode
      rw [bind_eq_ok_iff] at hView
      rcases hView with ⟨data, hData, hView⟩
      rcases pair_eq_of_ok_eq hView with ⟨hMap, hWritten⟩
      rw [← hMap, ← hWritten]
      exact .written hFid hMode hAllowed hNonempty hNode
        hData

theorem change_of_remove
    {fid : UInt32}
    {state : FidState}
    (hFid : fids.lookup fid = some state)
    (hOp : fs.remove state.path = .ok (fs', some ())) :
    Change clock fs.view fids (.tremove fid) fs'.view
      .rremove := by
  have hView :=
    Except.ok.inj
      (RamFs.viewResult_ok hOp (fs.view_remove state.path))
  unfold FlatFs.remove at hView
  split at hView
  · cases (Prod.mk.inj hView).2
  · rename_i hBoth
    rw [← show _ = fs'.view from congrArg Prod.fst hView]
    exact .removed hFid
      (fun hNil => hBoth (Or.inl hNil))
      (fun hNone => hBoth (Or.inr hNone))

theorem change_of_wstat
    {fid : UInt32}
    {record rest : Bytes}
    {state : FidState}
    {stat : Stat}
    (hFid : fids.lookup fid = some state)
    (hRecord : decodeStat.run record = .ok (stat, rest))
    (hOp :
      fs.wstatFromStat state.path stat =
        .ok (fs', some ())) :
    Change clock fs.view fids (.twstat fid record) fs'.view
      .rwstat := by
  have hView :=
    RamFs.viewResult_ok hOp (fs.view_wstatFromStat state.path stat)
  unfold FlatFs.wstatFromStat at hView
  cases hNode : fs.view (components state.path) with
  | none =>
      rw [hNode] at hView
      cases (pair_eq_of_ok_eq hView).2
  | some attrs =>
      rw [hNode] at hView
      simp only at hView
      split at hView
      · rename_i hLast
        have hRoot := List.getLast?_eq_none_iff.mp hLast
        rw [hRoot] at hNode hView
        rw [← (pair_eq_of_ok_eq hView).1]
        exact .restatedRoot hFid hRecord hRoot hNode
      · rename_i filename hLast
        have hPath :=
          (RamFs.dropLast_append_of_getLast? hLast).symm
        rw [bind_eq_ok_iff] at hView
        rcases hView with ⟨attrs', hAttrs, hView⟩
        rw [hPath] at hNode
        split at hView
        · rename_i hRename
          split at hView
          · cases (pair_eq_of_ok_eq hView).2
          · rename_i hFree
            rw [← (pair_eq_of_ok_eq hView).1]
            exact .renamed hFid hRecord hPath hNode hAttrs
              hRename.1 hRename.2 hFree
        · rename_i hKeep
          rw [← (pair_eq_of_ok_eq hView).1,
            ← RamFs.dropLast_append_of_getLast? hLast]
          refine .restated hFid hRecord hPath hNode hAttrs ?_
          by_cases hEmpty : stat.name = ""
          · exact Or.inl hEmpty
          · exact Or.inr
              (not_not.mp (fun hNe => hKeep ⟨hEmpty, hNe⟩))

/- An answered request makes one of the changes. -/
theorem Effect.change
    {req : Request}
    {reply : Reply}
    (hEffect : Effect hasher clock fs fids req fs' fids' reply) :
    Change clock fs.view fids req fs'.view reply := by
  have hQuiet
      {reply : Reply}
      (hType :
        reply.msgType ≠ RCREATE ∧ reply.msgType ≠ RREMOVE ∧
          reply.msgType ≠ RWSTAT) :
      reply.Quiet := hType
  cases hEffect with
  | create hFid hStep hFresh hOp hStat =>
      exact change_of_createNode hFid hStep hFresh hOp
  | write hFid hMode hAllowed hOp =>
      exact change_of_write hFid hMode hAllowed hOp
  | remove hFid hOp =>
      exact change_of_remove hFid hOp
  | removeFailed hFid hOp =>
      rw [RamFs.remove_eq_none hOp]
      exact .same (hQuiet (by decide))
  | wstat hFid hRecord hOp =>
      exact change_of_wstat hFid hRecord hOp
  | version | auth | flush | attach | walk hNames hTarget
  | opened hFid hStat | read hFid hMode hAllowed hData hWindow
  | clunk | stat hFid hStat | clone hFid
  | refused hRefusal =>
      exact .same (hQuiet (by
        simp only [Reply.msgType]
        decide))

end Planten
