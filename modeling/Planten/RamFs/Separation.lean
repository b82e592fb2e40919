import Planten.RamFs.FidPaths

/-
  Files and directories stay apart, where requests keep them
  apart.

  Nothing checks that a create request goes below a
  directory, that a write goes to a file, or that the mode
  and the length of a stat suit the node.  A request mixes
  the two kinds in three ways: it creates a node below a
  file, it writes into a directory, or it restates the mode
  or the length of a node so that they no longer suit it.

  Key definitions include:
    * `FlatFs.Separate`, `FlatFs.Suited`
    * `Request.Mixes`

  Key theorems include:
    * `FlatFs.separate_iff`
    * `separate_of_change`
    * `Server.separate_of_not_mixes`
-/

------------------------------------------------------------
-- Separate Trees
------------------------------------------------------------

namespace Planten

namespace FlatFs

/-
  A node without the directory bit has no children, and a
  node with it has no data.
-/
def Separate (m : FlatFs) : Prop :=
  ∀ p attrs,
    m p = some attrs →
      (¬ attrs.IsDir → ∀ k, m (p ++ [k]) = none) ∧
        (attrs.IsDir → attrs.data = [])

theorem separate_iff (m : FlatFs) :
    m.Separate ↔
      m.Above Attrs.IsDir ∧
        m.Forall (fun _ attrs =>
          attrs.IsDir → attrs.data = []) := by
  constructor
  · intro hSep
    refine ⟨?_, fun p attrs hNode => (hSep p attrs hNode).2⟩
    intro p k attrs hBelow hNode
    by_contra hFile
    rw [(hSep p attrs hNode).1 hFile k] at hBelow
    cases hBelow
  · rintro ⟨hAbove, hData⟩ p attrs hNode
    refine ⟨?_, hData p attrs hNode⟩
    intro hFile k
    by_contra hBelow
    exact hFile (hAbove p k attrs
      (Option.isSome_iff_ne_none.mpr hBelow) hNode)

/-
  Fields that suit their place: with the directory bit where
  there are children, and without data where there is the
  bit.
-/
def Suited
    (m : FlatFs)
    (p : List String)
    (attrs : Attrs) : Prop :=
  (∀ k, (m (p ++ [k])).isSome → attrs.IsDir) ∧
    (attrs.IsDir → attrs.data = [])

variable {m : FlatFs} {p : List String} {attrs : Attrs}

/- A node may be given fields that suit its place. -/
theorem Separate.assign
    (hSep : m.Separate)
    (hNode : (m p).isSome)
    (hSuited : m.Suited p attrs) :
    Separate (m.assign p attrs) := by
  rw [separate_iff] at hSep ⊢
  constructor
  · apply PathMap.Above.assign hSep.1 hNode
    exact hSuited.1
  · apply PathMap.Forall.assign hSep.2
    exact hSuited.2

/- The same where the node is moved. -/
theorem Separate.relabel
    {k k' : String}
    (hSep : m.Separate)
    (hNode : (m (p ++ [k])).isSome)
    (hSuited : m.Suited (p ++ [k]) attrs) :
    Separate (m.relabel p k k' attrs) := by
  rw [separate_iff] at hSep ⊢
  constructor
  · apply PathMap.Above.relabel hSep.1 hNode
    exact hSuited.1
  · apply PathMap.Forall.relabel hSep.2
    · exact hSuited.2
    · intro q below _ hBelow
      exact hBelow

end FlatFs

/- A fresh directory is a directory. -/
theorem isDir_freshDir
    (clock : Clock)
    (i : Nat)
    (p : List String) :
    (Inode.freshDir clock i p).IsDir :=
  (by decide : dirMode &&& DMDIR ≠ 0)

theorem data_createdAttrs
    (clock : Clock)
    (p : List String)
    (perm : UInt32)
    (q : List String) :
    (FlatFs.createdAttrs clock p perm q).data = [] := by
  unfold FlatFs.createdAttrs
  split
  · rfl
  · rfl

theorem separate_of_new
    {now : SystemTime}
    {fs : RamFs}
    (hNew : RamFs.new now = .ok fs) :
    fs.view.Separate := by
  rw [RamFs.view_of_new hNew, FlatFs.separate_iff]
  constructor
  · exact PathMap.Above.single _
  · apply PathMap.Forall.single
    intro _
    rfl

end Planten

------------------------------------------------------------
-- Requests That Mix the Kinds
------------------------------------------------------------

namespace Planten

/-
  A stat that is not refused for a node: its length fits a
  vector, and its name is not that of another entry.
-/
structure Stat.Suits
    (stat : Stat)
    (m : FlatFs)
    (p : List String)
    (attrs : Attrs) : Prop where
  length : p = [] ∨ stat.LengthFits attrs.data
  name :
    ∀ parent filename,
      p = parent ++ [filename] →
        stat.name = "" ∨ stat.name = filename ∨
          m (parent ++ [stat.name]) = none

/-
  A request that would leave a file with children or a
  directory with data.
-/
inductive Request.Mixes
    (clock : Clock)
    (m : FlatFs)
    (fids : FidTable) : Request → Prop where
| create
    {fid : UInt32} {name : String} {perm : UInt32}
    {mode : UInt8} {state : FidState} {newPath : String}
    {q : List String} {k : String} {attrs : Attrs}
    (hFid : fids.lookup fid = some state)
    (hStep : resolveStep state.path name = some newPath)
    (hFresh : m (components newPath) = none)
    (hEpoch :
      ¬ m.CreatesBeforeEpoch clock (components newPath))
    (hPath : q ++ [k] <+: components newPath)
    (hLast : m (q ++ [k]) = none)
    (hNode : m q = some attrs)
    (hFile : ¬ attrs.IsDir) :
    Mixes clock m fids (.tcreate fid name perm mode)
| write
    {fid : UInt32} {offset : UInt64} {buffer : Bytes}
    {state : FidState} {mode : UInt8} {attrs : Attrs}
    (hFid : fids.lookup fid = some state)
    (hMode : state.openMode = some mode)
    (hAllowed : modeAllowsWrite mode = true)
    (hNonempty : components state.path ≠ [])
    (hNode : m (components state.path) = some attrs)
    (hDir : attrs.IsDir)
    (hBytes : 0 < offset.toNat + buffer.length)
    (hEnd : offset.toNat + buffer.length ≤ isizeMax) :
    Mixes clock m fids (.twrite fid offset buffer)
| stopsDir
    {fid : UInt32} {record rest : Bytes}
    {state : FidState} {stat : Stat} {attrs : Attrs}
    {k : String}
    (hFid : fids.lookup fid = some state)
    (hRecord : decodeStat.run record = .ok (stat, rest))
    (hNode : m (components state.path) = some attrs)
    (hSuits : stat.Suits m (components state.path) attrs)
    (hMode : stat.modeFor attrs.mode &&& DMDIR = 0)
    (hChild : (m (components state.path ++ [k])).isSome) :
    Mixes clock m fids (.twstat fid record)
| keepsData
    {fid : UInt32} {record rest : Bytes}
    {state : FidState} {stat : Stat} {attrs : Attrs}
    (hFid : fids.lookup fid = some state)
    (hRecord : decodeStat.run record = .ok (stat, rest))
    (hNode : m (components state.path) = some attrs)
    (hSuits : stat.Suits m (components state.path) attrs)
    (hMode : stat.modeFor attrs.mode &&& DMDIR ≠ 0)
    (hLength :
      if components state.path = [] ∨
          stat.length = 0xffffffffffffffff then
        0 < attrs.data.length
      else
        0 < stat.length.toNat) :
    Mixes clock m fids (.twstat fid record)

end Planten

------------------------------------------------------------
-- Changes
------------------------------------------------------------

namespace Planten

variable {clock : Clock} {m m' : FlatFs} {fids : FidTable}
variable {req : Request} {reply : Reply}

/-
  A stat that mixes nothing leaves the node with its mode and
  length suited.
-/
theorem suited_of_wstat
    {fid : UInt32}
    {record rest : Bytes}
    {state : FidState}
    {stat : Stat}
    {attrs attrs' : Attrs}
    (hAvoids :
      ¬ (Request.twstat fid record).Mixes clock m fids)
    (hFid : fids.lookup fid = some state)
    (hRecord : decodeStat.run record = .ok (stat, rest))
    (hNode : m (components state.path) = some attrs)
    (hSuits : stat.Suits m (components state.path) attrs)
    (hMode : attrs'.mode = stat.modeFor attrs.mode)
    (hLength :
      attrs'.data.length =
        if components state.path = [] ∨
            stat.length = 0xffffffffffffffff then
          attrs.data.length
        else
          stat.length.toNat) :
    m.Suited (components state.path) attrs' := by
  constructor
  · intro k hChild
    by_contra hFile
    rw [Attrs.IsDir, not_not, hMode] at hFile
    exact hAvoids (.stopsDir hFid hRecord hNode hSuits hFile
      hChild)
  · intro hDir
    by_contra hData
    rw [Attrs.IsDir, hMode] at hDir
    have hPos := List.length_pos_iff.mpr hData
    rw [hLength] at hPos
    refine hAvoids (.keepsData hFid hRecord hNode hSuits hDir
      ?_)
    split at hPos
    · rename_i hKept
      rwa [if_pos hKept]
    · rename_i hAsked
      rwa [if_neg hAsked]

/- The same for an entry that the stat is applied to. -/
theorem suited_of_entry
    {fid : UInt32}
    {record rest : Bytes}
    {state : FidState}
    {stat : Stat}
    {attrs attrs' : Attrs}
    {parent : List String}
    {filename : String}
    (hAvoids :
      ¬ (Request.twstat fid record).Mixes clock m fids)
    (hFid : fids.lookup fid = some state)
    (hRecord : decodeStat.run record = .ok (stat, rest))
    (hPath : components state.path = parent ++ [filename])
    (hNode : m (parent ++ [filename]) = some attrs)
    (hAttrs : Inode.applyStat stat attrs = .ok attrs')
    (hName :
      stat.name = "" ∨ stat.name = filename ∨
        m (parent ++ [stat.name]) = none) :
    m.Suited (parent ++ [filename]) attrs' := by
  have hLength := Inode.length_of_applyStat hAttrs
  have hNonempty : components state.path ≠ [] := by
    rw [hPath]
    exact List.append_ne_nil_of_right_ne_nil _
      (List.cons_ne_nil _ _)
  rw [← hPath] at hNode ⊢
  apply suited_of_wstat hAvoids hFid hRecord hNode
  · refine ⟨Or.inr hLength.2, ?_⟩
    intro parent' filename' hPath'
    rw [hPath] at hPath'
    rcases List.append_inj' hPath' rfl with ⟨rfl, hLast⟩
    cases hLast
    exact hName
  · exact Inode.mode_of_applyStat hAttrs
  · simpa [hNonempty] using hLength.1

/- A write that mixes nothing leaves its node suited. -/
theorem suited_of_write
    {fid : UInt32}
    {offset : UInt64}
    {buffer data : Bytes}
    {state : FidState}
    {mode : UInt8}
    {attrs : Attrs}
    (hSep : m.Separate)
    (hAvoids :
      ¬ (Request.twrite fid offset buffer).Mixes clock m
          fids)
    (hFid : fids.lookup fid = some state)
    (hMode : state.openMode = some mode)
    (hAllowed : modeAllowsWrite mode = true)
    (hNonempty : components state.path ≠ [])
    (hNode : m (components state.path) = some attrs)
    (hOverlay :
      Inode.overlay attrs.data offset.toNat buffer =
        .ok data) :
    m.Suited (components state.path)
      { attrs with data := data } := by
  constructor
  · intro k hChild
    exact ((FlatFs.separate_iff m).mp hSep).1 _ k attrs
      hChild hNode
  · intro hDir
    have hEmpty := (hSep _ _ hNode).2 hDir
    rw [Inode.overlay_eq, hEmpty] at hOverlay
    split_ifs at hOverlay with hWraps hFits
    cases hOverlay
    have hEnd :
        offset.toNat + buffer.length ≤ isizeMax := by
      simpa using hFits
    -- a directory is written nowhere but at its empty end
    have hNone : ¬ 0 < offset.toNat + buffer.length :=
      fun hBytes =>
        hAvoids (.write hFid hMode hAllowed hNonempty hNode
          hDir hBytes hEnd)
    have hStart : offset.toNat = 0 := by
      omega
    have hBuffer : buffer = [] :=
      List.length_eq_zero_iff.mp (by omega)
    change Inode.splice [] offset.toNat buffer = []
    rw [hStart, hBuffer]
    rfl

/- A node created by a request that mixes nothing. -/
theorem separate_of_created
    {fid : UInt32}
    {name newPath : String}
    {perm : UInt32}
    {mode : UInt8}
    {state : FidState}
    (hClosed : m.Closed)
    (hSep : m.Separate)
    (hAvoids :
      ¬ (Request.tcreate fid name perm mode).Mixes clock m
          fids)
    (hFid : fids.lookup fid = some state)
    (hStep : resolveStep state.path name = some newPath)
    (hFresh : m (components newPath) = none)
    (hEpoch :
      ¬ m.CreatesBeforeEpoch clock (components newPath)) :
    FlatFs.Separate
      (m.fill
        (FlatFs.createdAttrs clock (components newPath)
          perm)
        (components newPath)) := by
  rw [FlatFs.separate_iff] at hSep ⊢
  constructor
  · apply PathMap.Above.fill hClosed hSep.1
    · intro q k attrs hPrefix hNode hLast
      by_contra hFile
      exact hAvoids (.create hFid hStep hFresh hEpoch hPrefix
        hLast hNode hFile)
    · intro q k hPrefix _
      have hProper : q ≠ components newPath := by
        rintro rfl
        have hLength := hPrefix.length_le
        rw [List.length_append] at hLength
        simp at hLength
      rw [FlatFs.createdAttrs,
        if_neg (fun hEnd => hProper hEnd.1)]
      exact isDir_freshDir clock 0 q
  · apply PathMap.Forall.fill hSep.2
    intro q _ _ _
    exact data_createdAttrs _ _ _ q

/- A change that mixes nothing keeps the kinds apart. -/
theorem separate_of_change
    (hClosed : m.Closed)
    (hSep : m.Separate)
    (hAvoids : ¬ req.Mixes clock m fids)
    (hChange : Change clock m fids req m' reply) :
    m'.Separate := by
  cases hChange with
  | same hQuiet =>
      exact hSep
  | created hFid hStep hFresh hEpoch =>
      exact separate_of_created hClosed hSep hAvoids hFid
        hStep hFresh hEpoch
  | written hFid hMode hAllowed hNonempty hNode hOverlay =>
      apply hSep.assign (Option.isSome_of_eq_some hNode)
      exact suited_of_write hSep hAvoids hFid hMode hAllowed
        hNonempty hNode hOverlay
  | restatedRoot hFid hRecord hRoot hNode =>
      rename_i fid record rest state stat attrs
      apply hSep.assign (Option.isSome_of_eq_some hNode)
      rw [← hRoot] at hNode ⊢
      have hMode :
          (Inode.applyRootStat stat attrs).mode =
            stat.modeFor attrs.mode := rfl
      exact suited_of_wstat hAvoids hFid hRecord hNode
        ⟨Or.inl hRoot, by
          intro parent filename hPath
          rw [hRoot] at hPath
          simp at hPath⟩
        hMode (by rw [if_pos (Or.inl hRoot)]; rfl)
  | restated hFid hRecord hPath hNode hAttrs hKept =>
      apply hSep.assign (Option.isSome_of_eq_some hNode)
      exact suited_of_entry hAvoids hFid hRecord hPath hNode
        hAttrs
        (hKept.elim Or.inl (fun hSame =>
          Or.inr (Or.inl hSame)))
  | renamed hFid hRecord hPath hNode hAttrs hName hNew
      hFree =>
      have hSuited :=
        suited_of_entry hAvoids hFid hRecord hPath hNode
          hAttrs (Or.inr (Or.inr hFree))
      apply hSep.relabel (Option.isSome_of_eq_some hNode)
      exact hSuited
  | removed hFid hNonempty hNode =>
      rw [FlatFs.separate_iff] at hSep ⊢
      exact ⟨hSep.1.prune _, hSep.2.prune _⟩

end Planten

------------------------------------------------------------
-- Runs
------------------------------------------------------------

namespace Planten

namespace Server

/- The event is a request that mixes the kinds. -/
def Mixes
    (srv : Server)
    (event : Event) : Prop :=
  ∃ clock fids req,
    srv.Asks event clock fids req ∧
      req.Mixes clock srv.ramfs.view fids

/-
  In every run from a tree in which files and directories
  are apart, they stay so while no request mixes them.
-/
theorem separate_of_not_mixes
    (hasher : Hasher)
    {srv : Server}
    {events : List Event}
    (hSep : srv.ramfs.view.Separate)
    (hAvoids :
      Run.Always (step hasher)
        (fun srv event => ¬ srv.Mixes event) srv events) :
    (Run.final (step hasher) srv
      events).ramfs.view.Separate := by
  refine invariant_of_changes ?_ hSep hAvoids
  intro srv event clock fids req reply m' hHere hAvoid hAsks
    hChange
  exact separate_of_change srv.ramfs.view_closed hHere
    (fun hMixes => hAvoid ⟨clock, fids, req, hAsks, hMixes⟩)
    hChange

/- One client attaches. -/
def attached : List Event :=
  [.accept 0,
    .request 0 TATTACH 0 (encodeAttachBody 0 none "" "")
      (fun _ => 0)]

/- It then creates a file at the root. -/
theorem separate_of_attached :
    (Run.final (step (fun _ _ => 0))
      (start (RamFs.fresh 0))
      (attached ++
        [.request 0 TCREATE 0 (encodeCreateBody 0 "a" 0 0)
          (fun _ => 0)])).ramfs.view.Separate := by
  apply separate_of_not_mixes (fun _ _ => 0)
    (separate_of_new (RamFs.new_eq_fresh (le_refl 0)))
  refine ⟨?_, ?_, ?_, trivial⟩
  · rintro ⟨_, _, _, ⟨_, _, _, _, hEvent, _⟩, _⟩
    cases hEvent
  · rintro ⟨_, _, req, hAsked, hMixes⟩
    rcases hAsked.eq_of_decode [] (.tattach 0 0 "" "")
      (by decide +kernel) (by decide +kernel) with
      ⟨rfl, rfl, rfl⟩
    cases hMixes
  · rintro ⟨_, _, req, hAsked, hMixes⟩
    rcases hAsked.eq_of_decode
      [(0, .new "/" ⟨0x80, 0, 0⟩)] (.tcreate 0 "a" 0 0)
      (by decide +kernel) (by decide +kernel) with
      ⟨rfl, rfl, rfl⟩
    cases hMixes with
    | create hFid hStep hFresh hEpoch hPath hLast hNode
        hFile =>
        rename_i state newPath q k attrs
        cases hFid
        have hTo : resolveStep "/" "a" = some "/a" := by
          decide
        cases hTo.symm.trans hStep
        have hComps : components "/a" = ["a"] := by
          decide
        rw [hComps] at hPath
        have hRoot : q = [] := by
          have hLength := hPath.length_le
          simpa using hLength
        rw [hRoot] at hNode
        cases hNode
        exact hFile (by decide)

/- A client creates the file `b` below the file `a`. -/
theorem not_separate_of_nestedFile :
    ¬ ∀ (hasher : Hasher) (srv : Server)
        (events : List Event),
      srv.ramfs.view.Separate →
        (Run.final (step hasher) srv
          events).ramfs.view.Separate := by
  intro hAlways
  have hSep :=
    hAlways (fun _ _ => 0) (start (RamFs.fresh 0))
      (openedFile ++
        [.request 0 TCREATE 0 (encodeCreateBody 1 "b" 0 0)
          (fun _ => 0)])
      (separate_of_new (RamFs.new_eq_fresh (le_refl 0)))
  have hBelow :=
    (hSep ["a"] (freshAttrs "a" fileMode 0)
      (by decide +kernel)).1 (by decide) "b"
  exact absurd hBelow (by decide +kernel)

end Server

end Planten
