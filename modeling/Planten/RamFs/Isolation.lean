import Planten.Library.Regions
import Planten.RamFs.FlatServer

/-
  Connections that work apart do not notice each other.

  A connection works at a home when it reads, writes, creates,
  removes and renames there only, and looks up nothing else
  than the way to it.  What it is sent is then what it would
  be sent if it were alone on the server, whatever the other
  connections do at homes of their own and in whatever order.

  Key definitions include:
    * `WalkWithin`
    * `Request.WorksAt`
    * `FlatAnswer.SameAt`
    * `Server.WorksAt`
    * `Server.Beside`

  Key theorems include:
    * `Change.staysAt`
    * `FlatFs.answer_congr`
    * `Server.isolated`
-/

------------------------------------------------------------
-- Work at a Home
------------------------------------------------------------

namespace Planten

/- The paths that the steps of a walk lead to lie in a set. -/
def WalkWithin
    (R : Set (List String)) :
    Nat → Bytes → String → Prop
| 0, _, _ => True
| n + 1, cursor, path =>
    match readString.run cursor with
    | .error _ => True
    | .ok (name, cursor) =>
        match resolveStep path name with
        | none => True
        | some nextPath =>
            components nextPath ∈ R ∧
              WalkWithin R n cursor nextPath

/-
  A request that changes and reads nothing but a home, and
  looks up nothing but what is around it.  The home itself
  may be restated but not renamed.
-/
def Request.WorksAt
    (home : List String)
    (fids : FidTable) : Request → Prop
| .twalk fid _ nwname names =>
    components (FlatFs.walkBase fids fid) ∈
        PathMap.around home ∧
      WalkWithin (PathMap.around home) nwname.toNat names
        (FlatFs.walkBase fids fid)
| .topen fid _ | .tstat fid =>
    ∀ state, fids.lookup fid = some state →
      components state.path ∈ PathMap.around home
| .tread fid _ _ | .twrite fid _ _ | .tremove fid =>
    ∀ state, fids.lookup fid = some state →
      home <+: components state.path
| .tcreate fid name _ _ =>
    ∀ state newPath, fids.lookup fid = some state →
      resolveStep state.path name = some newPath →
        home <+: components newPath
| .twstat fid record =>
    ∀ state, fids.lookup fid = some state →
      home <+: components state.path ∧
        ∀ stat rest, decodeStat.run record = .ok (stat, rest) →
          stat.name ≠ "" → components state.path ≠ home
| _ => True

/- What changes through such a request changes at the home. -/
theorem Change.staysAt
    {clock : Clock}
    {m m' : FlatFs}
    {fids : FidTable}
    {req : Request}
    {reply : Reply}
    {home : List String}
    (hChange : Change clock m fids req m' reply)
    (hWorks : req.WorksAt home fids) :
    PathMap.StaysAt home m m' := by
  cases hChange with
  | same hQuiet =>
      exact .refl m
  | created hFid hStep hFresh hEpoch =>
      exact .fill (hWorks _ _ hFid hStep) _
  | written hFid hMode hAllowed hNonempty hNode hData =>
      exact .assign (hWorks _ hFid) _
  | restatedRoot hFid hRecord hRoot hNode =>
      have hHome := (hWorks _ hFid).1
      rw [hRoot] at hHome
      exact .assign hHome _
  | restated hFid hRecord hPath hNode hAttrs hKept =>
      have hHome := (hWorks _ hFid).1
      rw [hPath] at hHome
      exact .assign hHome _
  | renamed hFid hRecord hPath hNode hAttrs hName hNew
      hFree =>
      rcases hWorks _ hFid with ⟨hHome, hMoves⟩
      have hNe := hMoves _ _ hRecord hName
      rw [hPath] at hHome hNe
      rw [List.prefix_concat_iff] at hHome
      exact .relabel (hHome.resolve_left hNe.symm) _ _ _
  | removed hFid hNonempty hNode =>
      exact .prune (hWorks _ hFid)

end Planten

------------------------------------------------------------
-- Lookups around a Home
------------------------------------------------------------

namespace Planten

namespace FlatFs

open PathMap (AgreeOn around)

variable {R : Set (List String)} {home : List String}
variable {m m' : FlatFs}

/- A walk finds the same in maps that agree on its way. -/
theorem walkNames_congr
    (hasher : Hasher)
    (hAgree : AgreeOn R m m')
    {n : Nat}
    {cursor : Bytes}
    {path : String}
    (hWithin : WalkWithin R n cursor path)
    (qids : List Qid) :
    m.walkNames hasher n cursor path qids =
      m'.walkNames hasher n cursor path qids := by
  induction n generalizing cursor path qids with
  | zero =>
      rfl
  | succ n ih =>
      unfold walkNames
      unfold WalkWithin at hWithin
      cases hName : readString.run cursor with
      | error err =>
          rfl
      | ok named =>
          rcases named with ⟨name, cursor⟩
          rw [hName] at hWithin
          simp only [bind, Except.bind] at hWithin ⊢
          cases hStep : resolveStep path name with
          | none =>
              rfl
          | some nextPath =>
              rw [hStep] at hWithin
              simp only [hAgree _ hWithin.1]
              cases m' (components nextPath) with
              | none =>
                  rfl
              | some attrs =>
                  exact ih hWithin.2 _

/- A walk ends where its steps lead. -/
theorem mem_of_walkNames
    {hasher : Hasher}
    {n : Nat}
    {cursor : Bytes}
    {path path' : String}
    {qids qids' : List Qid}
    (hBase : components path ∈ R)
    (hWithin : WalkWithin R n cursor path)
    (hNames :
      m.walkNames hasher n cursor path qids =
        .ok (.ok (path', qids'))) :
    components path' ∈ R := by
  induction n generalizing cursor path qids with
  | zero =>
      cases hNames
      exact hBase
  | succ n ih =>
      unfold walkNames at hNames
      unfold WalkWithin at hWithin
      cases hName : readString.run cursor with
      | error err =>
          rw [hName] at hNames
          cases hNames
      | ok named =>
          rcases named with ⟨name, cursor⟩
          rw [hName] at hNames hWithin
          simp only [bind, Except.bind] at hNames hWithin
          cases hStep : resolveStep path name with
          | none =>
              rw [hStep] at hNames
              cases hNames
          | some nextPath =>
              rw [hStep] at hNames hWithin
              simp only at hNames
              split at hNames
              · exact ih hWithin.1 hWithin.2 hNames
              · cases hNames

theorem walkTarget_congr
    (hasher : Hasher)
    (hAgree : AgreeOn R m m')
    {path : String}
    (hMem : components path ∈ R)
    (qids : List Qid) :
    m.walkTarget hasher path qids =
      m'.walkTarget hasher path qids := by
  unfold walkTarget
  rw [hAgree _ hMem]

/- A step from a path at or below a home stays around it. -/
theorem mem_around_of_resolveStep
    {base component path : String}
    (hHome : home <+: components base)
    (hStep : resolveStep base component = some path) :
    components path ∈ around home := by
  rw [components_resolveStep hStep]
  unfold walkComponents
  split_ifs
  · exact PathMap.mem_around_of_isPrefix hHome
  · exact PathMap.mem_around_of_prefixes hHome
      (List.dropLast_prefix _)
  · exact PathMap.nil_mem_around home
  · exact PathMap.mem_around_of_isPrefix
      (hHome.trans (List.prefix_append _ _))

/- A read at a home depends on what is around it only. -/
theorem readData_congr
    (hasher : Hasher)
    (hAgree : AgreeOn (around home) m m')
    {path : String}
    (hHome : home <+: components path) :
    m.readData hasher path = m'.readData hasher path := by
  have hEntry :
      m.entryBytes hasher path =
        m'.entryBytes hasher path := by
    funext entry
    unfold entryBytes
    cases hStep : resolveStep path entry with
    | none =>
        rfl
    | some childPath =>
        simp only [hAgree _
          (mem_around_of_resolveStep hHome hStep)]
  have hKeys :
      m.childKeys (components path) =
        m'.childKeys (components path) := by
    apply PathMap.childKeys_congr
    intro k
    rw [hAgree _ (PathMap.mem_around_of_isPrefix
      (hHome.trans (List.prefix_append _ [k])))]
  unfold readData dirBytes
  rw [hAgree _ (PathMap.mem_around_of_isPrefix hHome), hEntry,
    hKeys]

end FlatFs

end Planten

------------------------------------------------------------
-- Changes around a Home
------------------------------------------------------------

namespace Planten

namespace FlatFs

open PathMap (AgreeOn around)

variable {home p : List String} {m m' : FlatFs}

/-
  The same result of an operation on two maps, which agree on
  a set of paths afterwards.
-/
inductive SameResult
    (R : Set (List String))
    {β : Type} :
    Except Panic (FlatFs × β) →
      Except Panic (FlatFs × β) → Prop where
| ok
    {m m' : FlatFs} (hAgree : AgreeOn R m m') (b : β) :
    SameResult R (.ok (m, b)) (.ok (m', b))
| error (cause : Panic) :
    SameResult R (.error cause) (.error cause)

theorem createsBeforeEpoch_congr
    (hAgree : AgreeOn (around home) m m')
    (hHome : home <+: p)
    (clock : Clock) :
    (m.CreatesBeforeEpoch clock p ↔
        m'.CreatesBeforeEpoch clock p) ∧
      (m.CreatesBeforeEpoch clock p.dropLast ↔
        m'.CreatesBeforeEpoch clock p.dropLast) := by
  have hSame
      {q : List String}
      (hPrefix : q <+: p)
      (i : Nat) :
      m (q.take i) = m' (q.take i) :=
    hAgree _ (PathMap.mem_around_of_prefixes hHome
      ((List.take_prefix i q).trans hPrefix))
  unfold CreatesBeforeEpoch
  constructor
  · simp only [hSame List.prefix_rfl]
  · simp only [hSame (List.dropLast_prefix p)]

theorem create_congr
    (hAgree : AgreeOn (around home) m m')
    (hHome : home <+: p)
    (clock : Clock)
    (perm : UInt32) :
    SameResult (around home) (m.create clock p perm)
      (m'.create clock p perm) := by
  rcases createsBeforeEpoch_congr hAgree hHome clock with
    ⟨hEpoch, hEpochAbove⟩
  unfold create
  split_ifs
  · unfold createDir
    simp only [hEpoch]
    split_ifs
    · exact .error _
    · exact .ok (hAgree.fill _ p) ()
  · unfold createFile
    simp only [hEpochAbove]
    split_ifs
    · exact .ok hAgree ()
    · exact .error _
    · exact .ok
        ((hAgree.fill _ p.dropLast).plant p
          (fun _ _ => rfl)) ()

theorem write_congr
    (hAgree : AgreeOn (around home) m m')
    (hHome : home <+: p)
    (offset : UInt64)
    (buf : Bytes)
    (clock : Clock) :
    SameResult (around home) (m.write p offset buf clock)
      (m'.write p offset buf clock) := by
  unfold write
  rw [hAgree p (PathMap.mem_around_of_isPrefix hHome)]
  split_ifs
  · exact .ok hAgree none
  · cases m' p with
    | none =>
        exact .ok hAgree none
    | some attrs =>
        simp only
        cases Inode.overlay attrs.data offset.toNat buf with
        | error cause =>
            exact .error cause
        | ok data =>
            exact .ok (hAgree.assign p _) _

theorem remove_congr
    (hAgree : AgreeOn (around home) m m')
    (hHome : home <+: p) :
    (m.remove p).2 = (m'.remove p).2 ∧
      AgreeOn (around home) (m.remove p).1
        (m'.remove p).1 := by
  unfold remove
  rw [hAgree p (PathMap.mem_around_of_isPrefix hHome)]
  split_ifs
  · exact ⟨rfl, hAgree⟩
  · exact ⟨rfl, hAgree.prune p⟩

/- A node below the home may be given a new name. -/
theorem wstatFromStat_congr
    (hAgree : AgreeOn (around home) m m')
    (hHome : home <+: p)
    {stat : Stat}
    (hMoves : stat.name ≠ "" → p ≠ home) :
    SameResult (around home) (m.wstatFromStat p stat)
      (m'.wstatFromStat p stat) := by
  unfold wstatFromStat
  rw [hAgree p (PathMap.mem_around_of_isPrefix hHome)]
  cases m' p with
  | none =>
      exact .ok hAgree none
  | some attrs =>
      simp only
      cases hLast : p.getLast? with
      | none =>
          exact .ok (hAgree.assign p _) (some ())
      | some filename =>
          simp only
          cases Inode.applyStat stat attrs with
          | error cause =>
              exact .error cause
          | ok attrs =>
              simp only [bind, Except.bind]
              split_ifs with hRename
              · have hPath :=
                  RamFs.dropLast_append_of_getLast? hLast
                have hParent : home <+: p.dropLast := by
                  rw [← hPath, List.prefix_concat_iff] at hHome
                  refine hHome.resolve_left (fun hEq => ?_)
                  exact hMoves hRename.1
                    (hPath.symm.trans hEq.symm)
                have hBelow (q : List String) :
                    p.dropLast ++ q ∈ around home :=
                  PathMap.mem_around_of_isPrefix
                    (hParent.trans (List.prefix_append _ q))
                rw [hAgree _ (hBelow [stat.name])]
                cases m' (p.dropLast ++ [stat.name]) with
                | some taken =>
                    exact .ok hAgree none
                | none =>
                    refine .ok (hAgree.relabel ?_ _ _) _
                    intro q
                    rw [List.append_assoc]
                    exact hBelow _
              · exact .ok (hAgree.assign p attrs) (some ())

end FlatFs

end Planten

------------------------------------------------------------
-- Answers around a Home
------------------------------------------------------------

namespace Planten

/- The same answer, with files that agree on a set of paths. -/
inductive FlatAnswer.SameAt
    (R : Set (List String)) :
    FlatAnswer → FlatAnswer → Prop where
| served
    {files files' : FlatFs}
    (hAgree : PathMap.AgreeOn R files files')
    (fids : FidTable) (frame : Bytes) :
    SameAt R (.served files fids frame)
      (.served files' fids frame)
| ended : SameAt R .ended .ended
| panicked (poisons : Bool) :
    SameAt R (.panicked poisons) (.panicked poisons)

namespace FlatFs

open FlatAnswer (send SameAt)
open PathMap (AgreeOn around)

variable {home : List String} {m m' : FlatFs}

theorem send_congr
    {R : Set (List String)}
    (hAgree : AgreeOn R m m')
    (tag : UInt16)
    (locked : Bool)
    (fids : FidTable)
    (reply : Reply) :
    SameAt R (send tag locked m fids reply)
      (send tag locked m' fids reply) := by
  unfold send
  cases reply.frame tag with
  | error cause =>
      exact .panicked locked
  | ok frame =>
      exact .served hAgree fids frame

/- The same of a fid, whether it is known or not. -/
theorem sameAt_of_lookup
    {R : Set (List String)}
    (hAgree : AgreeOn R m m')
    (tag : UInt16)
    (fids : FidTable)
    (fid : UInt32)
    {f f' : FidState → FlatAnswer}
    (hState :
      ∀ state, fids.lookup fid = some state →
        SameAt R (f state) (f' state)) :
    SameAt R
      (match fids.lookup fid with
      | none => refuse tag m fids "unknown fid"
      | some state => f state)
      (match fids.lookup fid with
      | none => refuse tag m' fids "unknown fid"
      | some state => f' state) := by
  cases hFid : fids.lookup fid with
  | none =>
      exact send_congr hAgree tag _ _ _
  | some state =>
      exact hState state hFid

section Requests

variable (hasher : Hasher) (clock : Clock) (tag : UInt16)
variable {fids : FidTable} {fid : UInt32}

theorem answer_twalk_congr
    {newfid : UInt32}
    {nwname : UInt16}
    {names : Bytes}
    (hAgree : AgreeOn (around home) m m')
    (hBase : components (walkBase fids fid) ∈ around home)
    (hWithin :
      WalkWithin (around home) nwname.toNat names
        (walkBase fids fid)) :
    SameAt (around home)
      (m.answer hasher clock tag fids
        (.twalk fid newfid nwname names))
      (m'.answer hasher clock tag fids
        (.twalk fid newfid nwname names)) := by
  simp only [answer, walkNames_congr hasher hAgree hWithin]
  cases hNames :
      m'.walkNames hasher nwname.toNat names
        (walkBase fids fid) [] with
  | error err =>
      exact .ended
  | ok walked =>
      cases walked with
      | error message =>
          exact send_congr hAgree tag _ _ _
      | ok target =>
          rcases target with ⟨path, qids⟩
          simp only [walkTarget_congr hasher hAgree
            (mem_of_walkNames hBase hWithin hNames)]
          cases m'.walkTarget hasher path qids with
          | error message | ok newQid =>
              exact send_congr hAgree tag _ _ _

theorem answer_tread_congr
    {offset : UInt64}
    {count : UInt32}
    (hAgree : AgreeOn (around home) m m')
    (hHome :
      ∀ state, fids.lookup fid = some state →
        home <+: components state.path) :
    SameAt (around home)
      (m.answer hasher clock tag fids
        (.tread fid offset count))
      (m'.answer hasher clock tag fids
        (.tread fid offset count)) := by
  apply sameAt_of_lookup hAgree tag fids fid
  intro state hFid
  simp only [readData_congr hasher hAgree (hHome state hFid)]
  cases state.openMode with
  | none =>
      exact send_congr hAgree tag _ _ _
  | some mode =>
      simp only
      split_ifs
      · cases m'.readData hasher state.path with
        | error message =>
            exact send_congr hAgree tag _ _ _
        | ok data =>
            simp only
            cases readWindow .dev data offset count with
            | error cause =>
                exact .panicked false
            | ok chunk =>
                exact send_congr hAgree tag _ _ _
      · exact send_congr hAgree tag _ _ _

theorem answer_twrite_congr
    {offset : UInt64}
    {buffer : Bytes}
    (hAgree : AgreeOn (around home) m m')
    (hHome :
      ∀ state, fids.lookup fid = some state →
        home <+: components state.path) :
    SameAt (around home)
      (m.answer hasher clock tag fids
        (.twrite fid offset buffer))
      (m'.answer hasher clock tag fids
        (.twrite fid offset buffer)) := by
  apply sameAt_of_lookup hAgree tag fids fid
  intro state hFid
  cases state.openMode with
  | none =>
      exact send_congr hAgree tag _ _ _
  | some mode =>
      simp only
      split_ifs
      · have hResult :=
          write_congr hAgree (hHome state hFid) offset
            buffer clock
        generalize
          m.write _ offset buffer clock = result,
          m'.write _ offset buffer clock = result'
          at hResult ⊢
        cases hResult with
        | error cause =>
            exact .panicked true
        | ok hAfter written =>
            exact send_congr hAfter tag _ _ _
      · exact send_congr hAgree tag _ _ _

theorem answer_tcreate_congr
    {name : String}
    {perm : UInt32}
    {mode : UInt8}
    (hAgree : AgreeOn (around home) m m')
    (hHome :
      ∀ state newPath, fids.lookup fid = some state →
        resolveStep state.path name = some newPath →
          home <+: components newPath) :
    SameAt (around home)
      (m.answer hasher clock tag fids
        (.tcreate fid name perm mode))
      (m'.answer hasher clock tag fids
        (.tcreate fid name perm mode)) := by
  apply sameAt_of_lookup hAgree tag fids fid
  intro state hFid
  cases hStep : resolveStep state.path name with
  | none =>
      exact send_congr hAgree tag _ _ _
  | some newPath =>
      have hNew := hHome state newPath hFid hStep
      have hMem := PathMap.mem_around_of_isPrefix hNew
      simp only [hAgree _ hMem]
      split_ifs
      · exact send_congr hAgree tag _ _ _
      · have hResult := create_congr hAgree hNew clock perm
        generalize
          m.create clock _ perm = result,
          m'.create clock _ perm = result'
          at hResult ⊢
        cases hResult with
        | error cause =>
            exact .panicked true
        | ok hAfter _ =>
            simp only [hAfter _ hMem]
            split
            · exact .panicked true
            · exact send_congr hAfter tag _ _ _

theorem answer_tremove_congr
    (hAgree : AgreeOn (around home) m m')
    (hHome :
      ∀ state, fids.lookup fid = some state →
        home <+: components state.path) :
    SameAt (around home)
      (m.answer hasher clock tag fids (.tremove fid))
      (m'.answer hasher clock tag fids (.tremove fid)) := by
  apply sameAt_of_lookup hAgree tag fids fid
  intro state hFid
  rcases remove_congr hAgree (hHome state hFid) with
    ⟨hSame, hAfter⟩
  generalize m.remove (components state.path) = removed
    at hSame hAfter ⊢
  generalize m'.remove (components state.path) = removed'
    at hSame hAfter ⊢
  rcases removed with ⟨files, done⟩
  rcases removed' with ⟨files', done'⟩
  cases hSame
  cases done with
  | none =>
      exact send_congr hAgree tag _ _ _
  | some done =>
      exact send_congr hAfter tag _ _ _

theorem answer_twstat_congr
    {record : Bytes}
    (hAgree : AgreeOn (around home) m m')
    (hHome :
      ∀ state, fids.lookup fid = some state →
        home <+: components state.path ∧
          ∀ stat rest,
            decodeStat.run record = .ok (stat, rest) →
              stat.name ≠ "" →
                components state.path ≠ home) :
    SameAt (around home)
      (m.answer hasher clock tag fids (.twstat fid record))
      (m'.answer hasher clock tag fids
        (.twstat fid record)) := by
  apply sameAt_of_lookup hAgree tag fids fid
  intro state hFid
  rcases hHome state hFid with ⟨hHere, hMoves⟩
  cases hRecord : decodeStat.run record with
  | error err =>
      exact send_congr hAgree tag _ _ _
  | ok decoded =>
      rcases decoded with ⟨stat, rest⟩
      have hResult :=
        wstatFromStat_congr hAgree hHere
          (hMoves stat rest hRecord)
      simp only
      generalize
        m.wstatFromStat _ stat = result,
        m'.wstatFromStat _ stat = result'
        at hResult ⊢
      cases hResult with
      | error cause =>
          exact .panicked true
      | ok hAfter done =>
          cases done with
          | none =>
              exact send_congr hAgree tag _ _ _
          | some done =>
              exact send_congr hAfter tag _ _ _

/- Files that agree around a home give the same answers there. -/
theorem answer_congr
    {req : Request}
    (hAgree : AgreeOn (around home) m m')
    (hWorks : req.WorksAt home fids) :
    SameAt (around home) (m.answer hasher clock tag fids req)
      (m'.answer hasher clock tag fids req) := by
  cases req with
  | tversion msize version | tauth | tflush
  | unsupported | tclunk fid =>
      simp only [answer, refuse]
      exact send_congr hAgree tag _ _ _
  | tattach fid afid uname aname =>
      simp only [answer, hAgree _ (PathMap.nil_mem_around _)]
      cases m' [] with
      | none | some root =>
          exact send_congr hAgree tag _ _ _
  | tclone fid newfid =>
      apply sameAt_of_lookup hAgree tag fids fid
      intro state hFid
      exact send_congr hAgree tag _ _ _
  | topen fid mode | tstat fid =>
      apply sameAt_of_lookup hAgree tag fids fid
      intro state hFid
      simp only [hAgree _ (hWorks state hFid)]
      cases m' (components state.path) with
      | none | some attrs =>
          exact send_congr hAgree tag _ _ _
  | twalk fid newfid nwname names =>
      exact answer_twalk_congr hasher clock tag hAgree
        hWorks.1 hWorks.2
  | tread fid offset count =>
      exact answer_tread_congr hasher clock tag hAgree hWorks
  | twrite fid offset buffer =>
      exact answer_twrite_congr hasher clock tag hAgree hWorks
  | tcreate fid name perm mode =>
      exact answer_tcreate_congr hasher clock tag hAgree
        hWorks
  | tremove fid =>
      exact answer_tremove_congr hasher clock tag hAgree hWorks
  | twstat fid record =>
      exact answer_twstat_congr hasher clock tag hAgree hWorks

end Requests

end FlatFs

end Planten

------------------------------------------------------------
-- Servers Beside Each Other
------------------------------------------------------------

namespace Planten

namespace Server

/-
  The event works at the home of its connection, and if it is
  one of another connection it does not poison the lock.
-/
structure WorksApart
    (hasher : Hasher)
    (homes : Nat → List String)
    (conn : Nat)
    (srv : Server)
    (event : Event) : Prop where
  works :
    ∀ clock fids req, srv.Asks event clock fids req →
      req.WorksAt (homes event.conn) fids
  lock :
    event.conn ≠ conn →
      (srv.step hasher event).poisoned = srv.poisoned

/-
  Two servers are the same to a connection at a home, whose
  parent is there.
-/
structure Beside
    (conn : Nat)
    (home : List String)
    (srv alone : Server) : Prop where
  files :
    PathMap.AgreeOn (PathMap.around home) srv.ramfs.view
      alone.ramfs.view
  poisoned : srv.poisoned = alone.poisoned
  fids : srv.conns conn = alone.conns conn
  parent : (srv.ramfs.view home.dropLast).isSome

variable {hasher : Hasher} {homes : Nat → List String}
variable {conn : Nat} {srv alone : Server} {event : Event}

/- A request that is decoded is the one that must work there. -/
theorem WorksApart.of_decode
    {other : Nat}
    {msgType : UInt8}
    {tag : UInt16}
    {body : Bytes}
    {clock : Clock}
    (fids : FidTable)
    (req : Request)
    (hConn : srv.conns other = some fids)
    (hDecode : Request.decode msgType body = .ok req)
    (hReq : req.WorksAt (homes other) fids)
    (hLock :
      (srv.step hasher
        (.request other msgType tag body clock)).poisoned =
          srv.poisoned) :
    srv.WorksApart hasher homes conn
      (.request other msgType tag body clock) := by
  refine ⟨?_, fun _ => hLock⟩
  intro clock' fids' req' hAsks
  rcases hAsks.eq_of_decode fids req hConn hDecode with
    ⟨_, rfl, rfl⟩
  exact hReq

/- A new connection asks for nothing. -/
theorem WorksApart.accept (other : Nat) :
    srv.WorksApart hasher homes conn (.accept other) := by
  constructor
  · rintro clock fids req ⟨_, _, _, _, hEvent, _⟩
    cases hEvent
  · intro _
    simp only [step]
    split_ifs
    · rfl
    · rfl

/- An event changes nothing but its connection's home. -/
theorem staysAt_of_step
    (hWorks : srv.WorksApart hasher homes conn event) :
    PathMap.StaysAt (homes event.conn) srv.ramfs.view
      (srv.step hasher event).ramfs.view := by
  rcases change_of_step hasher srv event with
    ⟨hSame, _⟩ |
      ⟨clock, fids, req, reply, hAsks, _, hChange⟩
  · rw [hSame]
    exact .refl _
  · exact hChange.staysAt (hWorks.works _ _ _ hAsks)

/- An event of another connection goes unnoticed. -/
theorem Beside.erased
    (hBeside : Beside conn (homes conn) srv alone)
    (hOther : event.conn ≠ conn)
    (hApart :
      ¬ homes event.conn <+: homes conn ∧
        ¬ homes conn <+: homes event.conn)
    (hWorks : srv.WorksApart hasher homes conn event) :
    Beside conn (homes conn) (srv.step hasher event)
      alone := by
  have hAgree :=
    (staysAt_of_step hWorks).agreeOn srv.ramfs.view_closed
      hBeside.parent hApart.1 hApart.2
  refine ⟨hAgree.trans hBeside.files,
    (hWorks.lock hOther).trans hBeside.poisoned,
    (conns_step_of_ne hasher srv hOther).trans hBeside.fids,
    ?_⟩
  rw [hAgree _ (Or.inl (List.dropLast_prefix _))]
  exact hBeside.parent

/- The answers to a frame agree around the home. -/
theorem Beside.answer
    {msgType : UInt8}
    {tag : UInt16}
    {body : Bytes}
    {clock : Clock}
    {fids : FidTable}
    (hBeside : Beside conn (homes conn) srv alone)
    (hConn : srv.conns conn = some fids)
    (hWorks :
      srv.WorksApart hasher homes conn
        (.request conn msgType tag body clock)) :
    FlatAnswer.SameAt (PathMap.around (homes conn))
      (srv.flat.answer hasher fids msgType tag body clock)
      (alone.flat.answer hasher fids msgType tag body
        clock) := by
  have hLock : srv.flat.poisoned = alone.flat.poisoned :=
    hBeside.poisoned
  unfold FlatServer.answer
  rw [hLock]
  cases hDecode : Request.decode msgType body with
  | error err =>
      exact .ended
  | ok req =>
      simp only
      split_ifs
      · exact .panicked false
      · exact FlatFs.answer_congr hasher clock tag
          hBeside.files
          (hWorks.works _ _ _
            ⟨_, _, _, _, rfl, hConn, hDecode⟩)

/- An event of the connection is answered as if alone. -/
theorem Beside.kept
    (hBeside : Beside conn (homes conn) srv alone)
    (hOwn : event.conn = conn)
    (hWorks : srv.WorksApart hasher homes conn event) :
    Beside conn (homes conn) (srv.step hasher event)
        (alone.step hasher event) ∧
      srv.sent hasher event = alone.sent hasher event := by
  have hParent :
      ((srv.step hasher event).ramfs.view
        (homes conn).dropLast).isSome := by
    have hStays := staysAt_of_step hWorks
    rw [hOwn] at hStays
    by_cases hNil : homes conn = []
    · rw [hNil]
      rfl
    · apply hStays.isSome ?_ hBeside.parent
      intro hPrefix
      have hLength := hPrefix.length_le
      have hPos := List.length_pos_iff.mpr hNil
      rw [List.length_dropLast] at hLength
      omega
  -- the rest is said of the flat servers
  suffices hFlat :
      (PathMap.AgreeOn (PathMap.around (homes conn))
          (srv.flat.step hasher event).files
          (alone.flat.step hasher event).files ∧
        (srv.flat.step hasher event).poisoned =
          (alone.flat.step hasher event).poisoned ∧
        (srv.flat.step hasher event).conns conn =
          (alone.flat.step hasher event).conns conn) ∧
      srv.flat.sent hasher event =
        alone.flat.sent hasher event by
    rw [← (srv.flat_step hasher event).1,
      ← (alone.flat_step hasher event).1,
      ← (srv.flat_step hasher event).2,
      ← (alone.flat_step hasher event).2] at hFlat
    exact ⟨⟨hFlat.1.1, hFlat.1.2.1, hFlat.1.2.2, hParent⟩,
      hFlat.2⟩
  have hFids : srv.flat.conns conn = alone.flat.conns conn :=
    hBeside.fids
  cases event with
  | close other =>
      obtain rfl : other = conn := hOwn
      refine ⟨⟨hBeside.files, hBeside.poisoned, ?_⟩, rfl⟩
      simp only [FlatServer.step, Function.update_self]
  | accept other =>
      obtain rfl : other = conn := hOwn
      refine ⟨?_, rfl⟩
      simp only [FlatServer.step, hFids]
      split_ifs
      · exact ⟨hBeside.files, hBeside.poisoned, hFids⟩
      · refine ⟨hBeside.files, hBeside.poisoned, ?_⟩
        simp only [Function.update_self]
  | request other msgType tag body clock =>
      obtain rfl : other = conn := hOwn
      cases hConn : srv.conns other with
      | none =>
          have hClosed : srv.flat.conns other = none := hConn
          have hClosed' := hFids.symm.trans hClosed
          simp only [FlatServer.step, FlatServer.sent,
            FlatServer.handle, hClosed, hClosed',
            Option.map_none, Option.elim_none, and_true]
          exact ⟨hBeside.files, hBeside.poisoned⟩
      | some fids =>
          have hOpen : srv.flat.conns other = some fids :=
            hConn
          have hOpen' := hFids.symm.trans hOpen
          have hAnswer := hBeside.answer hConn hWorks
          simp only [FlatServer.step, FlatServer.sent,
            FlatServer.handle, hOpen, hOpen',
            Option.map_some, Option.elim_some]
          generalize
            srv.flat.answer hasher fids msgType tag body
              clock = answer,
            alone.flat.answer hasher fids msgType tag body
              clock = answer'
            at hAnswer ⊢
          cases hAnswer with
          | served hAgree fids frame =>
              refine ⟨⟨hAgree, hBeside.poisoned, ?_⟩, rfl⟩
              simp only [FlatServer.settle,
                Function.update_self]
          | ended =>
              refine ⟨⟨hBeside.files, hBeside.poisoned, ?_⟩,
                rfl⟩
              simp only [FlatServer.settle,
                Function.update_self]
          | panicked poisons =>
              refine ⟨⟨hBeside.files, ?_, ?_⟩, rfl⟩
              · exact congrArg (· || poisons)
                  hBeside.poisoned
              · simp only [FlatServer.settle,
                  Function.update_self]

/- The events of the other connections may be erased. -/
theorem erasure
    (hasher : Hasher)
    (hApart :
      ∀ other, other ≠ conn →
        ¬ homes other <+: homes conn ∧
          ¬ homes conn <+: homes other) :
    Run.Erasure (fun event => event.conn == conn)
      (step hasher) (sent hasher)
      (WorksApart hasher homes conn)
      (Beside conn (homes conn)) where
  kept := by
    intro srv alone event hOwn hBeside hWorks
    exact hBeside.kept (beq_iff_eq.mp hOwn) hWorks
  erased := by
    intro srv alone event hOther hBeside hWorks
    have hNe : event.conn ≠ conn := by
      simpa using hOther
    exact hBeside.erased hNe (hApart _ hNe) hWorks

/-
  In every run in which each connection works at its home, a
  connection whose home is apart from the others' is sent
  what it would be sent if it were alone, and finds the files
  around its home and its fids as they would be.
-/
theorem isolated
    (hasher : Hasher)
    (homes : Nat → List String)
    {conn : Nat}
    {srv : Server}
    {events : List Event}
    (hApart :
      ∀ other, other ≠ conn →
        ¬ homes other <+: homes conn ∧
          ¬ homes conn <+: homes other)
    (hParent :
      (srv.ramfs.view (homes conn).dropLast).isSome)
    (hWorks :
      Run.Always (step hasher) (WorksApart hasher homes conn)
        srv events) :
    Run.outputsOf (fun event => event.conn == conn)
        (step hasher) (sent hasher) srv events =
      Run.outputs (step hasher) (sent hasher) srv
        (events.filter (fun event => event.conn == conn)) ∧
    Beside conn (homes conn)
      (Run.final (step hasher) srv events)
      (Run.final (step hasher) srv
        (events.filter
          (fun event => event.conn == conn))) := by
  have hErasure := erasure hasher hApart
  have hInit : Beside conn (homes conn) srv srv :=
    ⟨.refl _, rfl, rfl, hParent⟩
  exact ⟨hErasure.outputs hInit hWorks,
    hErasure.final hInit hWorks⟩

/- Two clients attach, and each makes a file at the root. -/
def besides : List Event :=
  [.accept 0, .accept 1,
    .request 0 TATTACH 0 (encodeAttachBody 0 none "" "")
      (fun _ => 0),
    .request 1 TATTACH 0 (encodeAttachBody 0 none "" "")
      (fun _ => 0),
    .request 1 TCREATE 0 (encodeCreateBody 0 "b" 0 0)
      (fun _ => 0),
    .request 0 TCREATE 0 (encodeCreateBody 0 "a" 0 0)
      (fun _ => 0)]

/- The first of them is answered as if it were alone. -/
theorem isolated_of_besides :
    Run.outputsOf (fun event => event.conn == 0)
        (step (fun _ _ => 0)) (sent (fun _ _ => 0))
        (start (RamFs.fresh 0)) besides =
      Run.outputs (step (fun _ _ => 0)) (sent (fun _ _ => 0))
        (start (RamFs.fresh 0))
        (besides.filter (fun event => event.conn == 0)) := by
  let homes : Nat → List String := fun conn =>
    if conn = 0 then ["a"] else ["b"]
  refine (isolated (fun _ _ => 0) homes ?_ rfl ?_).1
  · intro other hOther
    simp [homes, hOther]
  · refine ⟨.accept 0, .accept 1, ?_, ?_, ?_, ?_, trivial⟩
    · exact .of_decode [] (.tattach 0 0 "" "")
        (by decide +kernel)
        (by decide +kernel) trivial (by decide +kernel)
    · exact .of_decode [] (.tattach 0 0 "" "")
        (by decide +kernel)
        (by decide +kernel) trivial (by decide +kernel)
    · refine .of_decode [(0, .new "/" ⟨0x80, 0, 0⟩)]
        (.tcreate 0 "b" 0 0) (by decide +kernel)
        (by decide +kernel) ?_ (by decide +kernel)
      intro state newPath hFid hStep
      cases hFid
      have hTo : resolveStep "/" "b" = some "/b" := by
        decide
      cases hTo.symm.trans hStep
      decide
    · refine .of_decode [(0, .new "/" ⟨0x80, 0, 0⟩)]
        (.tcreate 0 "a" 0 0) (by decide +kernel)
        (by decide +kernel) ?_ (by decide +kernel)
      intro state newPath hFid hStep
      cases hFid
      have hTo : resolveStep "/" "a" = some "/a" := by
        decide
      cases hTo.symm.trans hStep
      decide

end Server

end Planten
