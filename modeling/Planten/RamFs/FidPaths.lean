import Planten.NineP.Requests
import Planten.RamFs.Persistence

/-
  A fid denotes a path, not a node.

  While a fid is not bound again, its path stays the same,
  and what is done through it is done to the node at that
  path at that moment.  This is the node it was bound to for
  as long as that node is neither removed nor renamed.

  Key definitions include:
    * `Server.fidPath`
    * `Event.bound?`
    * `Server.Binds`
    * `Server.ActsOnPath`

  Key theorems include:
    * `Effect.path_of_lookup`
    * `Server.fidPath_final`
    * `Server.actsOnPath`
    * `Server.fid_denotes_path`
-/

------------------------------------------------------------
-- Fids and Their Paths
------------------------------------------------------------

namespace Planten

/- The fid a request binds. -/
def Request.boundFid? : Request → Option UInt32
| tattach fid _ _ _ => some fid
| twalk _ newfid _ _ => some newfid
| tclone _ newfid => some newfid
| _ => none

/- The connection and the fid that an event binds. -/
def Event.bound? : Event → Option (Nat × UInt32)
| .request conn msgType _ body _ =>
    match Request.decode msgType body with
    | .ok req => req.boundFid?.map (fun fid => (conn, fid))
    | .error _ => none
| _ => none

/- The path of a fid of a connection. -/
def Server.fidPath
    (srv : Server)
    (conn : Nat)
    (fid : UInt32) : Option String :=
  ((srv.conns conn).bind (fun fids => fids.lookup fid)).map
    FidState.path

/- The event binds the fid, and is answered so. -/
def Server.Binds
    (hasher : Hasher)
    (srv : Server)
    (event : Event)
    (conn : Nat)
    (fid : UInt32) : Prop :=
  event.bound? = some (conn, fid) ∧
    ∃ t, srv.replyType hasher event = some t ∧ t ≠ RERROR

variable {hasher : Hasher} {clock : Clock}
variable {fs fs' : RamFs} {fids fids' : FidTable}
variable {req : Request} {reply : Reply} {fid : UInt32}

theorem path_of_lookup_insert
    {fid₀ : UInt32}
    {state₀ state' : FidState}
    (hOther : fid₀ ≠ fid)
    (hLookup :
      (KeyMap.insert fid₀ state₀ fids).lookup fid =
        some state') :
    ∃ state,
      fids.lookup fid = some state ∧
        state.path = state'.path := by
  rw [KeyMap.lookup_insert, if_neg (Ne.symm hOther)]
    at hLookup
  exact ⟨state', hLookup, rfl⟩

theorem path_of_lookup_erase
    {fid₀ : UInt32}
    {state' : FidState}
    (hLookup :
      (KeyMap.erase fid₀ fids).lookup fid = some state') :
    ∃ state,
      fids.lookup fid = some state ∧
        state.path = state'.path := by
  rw [KeyMap.lookup_erase] at hLookup
  split at hLookup
  · cases hLookup
  · exact ⟨state', hLookup, rfl⟩

/- A request that binds no fid after all leaves the table. -/
theorem Effect.fids_of_rerror
    (hEffect : Effect hasher clock fs fids req fs' fids' reply)
    (hBound : req.boundFid? = some fid)
    (hError : reply.msgType = RERROR) :
    fids' = fids := by
  cases hEffect with
  | refused hRefusal =>
      rfl
  | attach =>
      exact absurd (show RATTACH = RERROR from hError)
        (by decide)
  | walk hNames hTarget =>
      exact absurd (show RWALK = RERROR from hError)
        (by decide)
  | clone hFid =>
      exact absurd (show RCLONE = RERROR from hError)
        (by decide)
  | version | auth | flush | opened hFid hStat
  | create hFid hStep hFresh hOp hStat
  | read hFid hMode hAllowed hData hWindow
  | write hFid hMode hAllowed hOp | clunk
  | remove hFid hOp | removeFailed hFid hOp
  | stat hFid hStat | wstat hFid hRecord hOp =>
      cases hBound

/- A fid that a request does not name to bind. -/
theorem Effect.path_of_unbound
    {state' : FidState}
    (hEffect : Effect hasher clock fs fids req fs' fids' reply)
    (hUnbound : req.boundFid? ≠ some fid)
    (hLookup : fids'.lookup fid = some state') :
    ∃ state,
      fids.lookup fid = some state ∧
        state.path = state'.path := by
  cases hEffect with
  | attach | walk hNames hTarget | clone hFid =>
      apply path_of_lookup_insert _ hLookup
      rintro rfl
      exact hUnbound rfl
  | opened hFid hStat =>
      rw [KeyMap.lookup_insert] at hLookup
      split at hLookup
      · rename_i hSame
        cases hLookup
        rw [hSame]
        exact ⟨_, hFid, rfl⟩
      · exact ⟨state', hLookup, rfl⟩
  | clunk | remove hFid hOp | removeFailed hFid hOp =>
      exact path_of_lookup_erase hLookup
  | version | auth | flush
  | create hFid hStep hFresh hOp hStat
  | read hFid hMode hAllowed hData hWindow
  | write hFid hMode hAllowed hOp | stat hFid hStat
  | wstat hFid hRecord hOp | refused hRefusal =>
      exact ⟨state', hLookup, rfl⟩

/- A fid that is not bound keeps its path or goes. -/
theorem Effect.path_of_lookup
    {state' : FidState}
    (hEffect : Effect hasher clock fs fids req fs' fids' reply)
    (hRefused :
      req.boundFid? = some fid → reply.msgType = RERROR)
    (hLookup : fids'.lookup fid = some state') :
    ∃ state,
      fids.lookup fid = some state ∧
        state.path = state'.path := by
  by_cases hBound : req.boundFid? = some fid
  · rw [hEffect.fids_of_rerror hBound (hRefused hBound)]
      at hLookup
    exact ⟨state', hLookup, rfl⟩
  · exact hEffect.path_of_unbound hBound hLookup

namespace Server

variable {srv : Server} {event : Event}
variable {conn : Nat} {path : String}

theorem fidPath_of_lookup
    {state : FidState}
    (hConn : srv.conns conn = some fids)
    (hFid : fids.lookup fid = some state) :
    srv.fidPath conn fid = some state.path := by
  rw [fidPath, hConn, Option.bind_some, hFid]
  rfl

theorem lookup_of_fidPath
    (hPath : srv.fidPath conn fid = some path) :
    ∃ fids state,
      srv.conns conn = some fids ∧
        fids.lookup fid = some state ∧
        state.path = path := by
  unfold fidPath at hPath
  cases hConn : srv.conns conn with
  | none =>
      rw [hConn] at hPath
      cases hPath
  | some fids =>
      rw [hConn, Option.bind_some] at hPath
      cases hFid : fids.lookup fid with
      | none =>
          rw [hFid] at hPath
          cases hPath
      | some state =>
          rw [hFid] at hPath
          cases hPath
          exact ⟨fids, state, rfl, hFid, rfl⟩

/- What a fid denotes after a step it denoted before. -/
theorem fidPath_step
    (hKept : ¬ srv.Binds hasher event conn fid)
    (hPath :
      (srv.step hasher event).fidPath conn fid =
        some path) :
    srv.fidPath conn fid = some path := by
  rcases lookup_of_fidPath hPath with
    ⟨fids', state', hConn', hFid', rfl⟩
  rcases conns_of_step hConn' with
    hSame | rfl |
      ⟨msgType, tag, body, clock, fids, req, reply, rfl,
        hConn, hDecode, hReply, hEffect⟩
  · exact fidPath_of_lookup hSame hFid'
  · cases hFid'
  · have hRefused :
        req.boundFid? = some fid →
          reply.msgType = RERROR := by
      intro hBinds
      by_contra hNot
      refine hKept ⟨?_, _, hReply, hNot⟩
      rw [Event.bound?, hDecode]
      simp only [hBinds]
      rfl
    rcases hEffect.path_of_lookup hRefused hFid' with
      ⟨state, hFid, hSame⟩
    rw [← hSame]
    exact fidPath_of_lookup hConn hFid

/- While a fid is not bound again, its path stays. -/
theorem fidPath_final
    {events : List Event}
    {path path' : String}
    (hBound : srv.fidPath conn fid = some path)
    (hKept :
      Run.Always (step hasher)
        (fun srv event =>
          ¬ srv.Binds hasher event conn fid) srv events)
    (hPath :
      (Run.final (step hasher) srv events).fidPath conn
        fid = some path') :
    path' = path := by
  have hInvariant :=
    @Run.invariant_of_always _ _ (step hasher) _
      (fun srv => ∀ q,
        srv.fidPath conn fid = some q → q = path)
      (fun srv event hHere hKept q hNow =>
        hHere q (fidPath_step hKept hNow))
      srv events
      (by
        intro q hNow
        rw [hBound] at hNow
        exact (Option.some.inj hNow).symm)
      hKept
  exact hInvariant path' hPath

end Server

end Planten

------------------------------------------------------------
-- Requests through a Fid
------------------------------------------------------------

namespace Planten

namespace Server

variable (hasher : Hasher)

/-
  What requests through a fid do, by its path: a read and a
  stat are answered from the node there, a write changes
  that node and no other, and when nothing is there a read
  and a stat are refused.
-/
structure ActsOnPath
    (srv : Server)
    (conn : Nat)
    (fid : UInt32)
    (path : String) : Prop where
  reads :
    ∀ tag body clock offset count,
      Request.decode TREAD body =
          .ok (.tread fid offset count) →
        srv.replyType hasher
            (.request conn TREAD tag body clock) =
          some RREAD →
          ∃ inode data chunk,
            srv.ramfs.stat path = some inode ∧
              readData hasher srv.ramfs path = .ok data ∧
              readWindow .dev data offset count =
                .ok chunk ∧
              (Reply.rread chunk).frame tag =
                .ok (srv.sent hasher
                  (.request conn TREAD tag body clock))
  stats :
    ∀ tag body clock,
      Request.decode TSTAT body = .ok (.tstat fid) →
        srv.replyType hasher
            (.request conn TSTAT tag body clock) =
          some RSTAT →
          ∃ inode,
            srv.ramfs.stat path = some inode ∧
              (Reply.rstat
                  (inodeToStat hasher path inode)).frame
                  tag =
                .ok (srv.sent hasher
                  (.request conn TSTAT tag body clock))
  writes :
    ∀ tag body clock offset buffer attrs,
      Request.decode TWRITE body =
          .ok (.twrite fid offset buffer) →
        srv.replyType hasher
            (.request conn TWRITE tag body clock) =
          some RWRITE →
          components path ≠ [] →
            srv.ramfs.view (components path) =
              some attrs →
              (srv.step hasher
                  (.request conn TWRITE tag body
                    clock)).ramfs.view =
                srv.ramfs.view.assign (components path)
                  { attrs with
                    data :=
                      Inode.splice attrs.data
                        offset.toNat buffer
                    mtime := asSecs (clock 0) }
  missing :
    ∀ msgType tag body clock req,
      Request.decode msgType body = .ok req →
        (∃ offset count, req = .tread fid offset count) ∨
            req = .tstat fid →
          srv.poisoned = false →
            srv.ramfs.view (components path) = none →
              srv.replyType hasher
                  (.request conn msgType tag body clock) =
                some RERROR

variable {hasher : Hasher} {srv : Server}
variable {conn : Nat} {fid : UInt32} {path : String}

/- The effect behind the reply to a request on a connection. -/
theorem effect_of_replyType
    {fids : FidTable}
    {msgType : UInt8}
    {tag : UInt16}
    {body : Bytes}
    {clock : Clock}
    {req : Request}
    {t : UInt8}
    (hConn : srv.conns conn = some fids)
    (hDecode : Request.decode msgType body = .ok req)
    (hType :
      srv.replyType hasher
          (.request conn msgType tag body clock) =
        some t) :
    ∃ fids' reply,
      reply.msgType = t ∧
        Effect hasher clock srv.ramfs fids req
          (srv.step hasher
            (.request conn msgType tag body clock)).ramfs
          fids' reply ∧
        reply.frame tag =
          .ok (srv.sent hasher
            (.request conn msgType tag body clock)) := by
  rcases step_spec hasher srv
    (.request conn msgType tag body clock) with
    ⟨reply, hStep, hReply⟩
  generalize
    srv.step hasher
      (.request conn msgType tag body clock) = srv'
    at hStep ⊢
  rw [hType] at hReply
  cases hStep with
  | lost hClosed | malformed hOpen hDecode'
  | badName hOpen hDecode' hNames
  | panicked hOpen hDecode' hHazard hPanics =>
      cases hReply
  | served hOpen hDecode' hEffect hFrame hSent =>
      rw [hConn] at hOpen
      rw [hDecode] at hDecode'
      cases hOpen
      cases hDecode'
      rw [← hSent] at hFrame
      exact ⟨_, _, (Option.some.inj hReply).symm, hEffect,
        hFrame⟩

theorem stat_of_readData
    {fs : RamFs}
    {data : Bytes}
    (hData : readData hasher fs path = .ok data) :
    ∃ inode, fs.stat path = some inode := by
  unfold readData at hData
  split at hData
  · exact ⟨_, ‹_›⟩
  · cases hData

/- A write to an existing node splices its data. -/
theorem view_of_write
    {fs fs' : RamFs}
    {offset : UInt64}
    {buffer : Bytes}
    {clock : Clock}
    {written : Option UInt32}
    {attrs : Attrs}
    (hNonempty : components path ≠ [])
    (hNode : fs.view (components path) = some attrs)
    (hOp :
      fs.write path offset buffer clock =
        .ok (fs', written)) :
    fs'.view =
      fs.view.assign (components path)
        { attrs with
          data :=
            Inode.splice attrs.data offset.toNat buffer
          mtime := asSecs (clock 0) } := by
  have hView :=
    RamFs.viewResult_ok hOp
      (fs.view_write path offset buffer clock)
  rw [FlatFs.write, if_neg hNonempty, hNode] at hView
  simp only at hView
  rw [bind_eq_ok_iff] at hView
  rcases hView with ⟨data, hData, hView⟩
  rw [← (pair_eq_of_ok_eq hView).1]
  rw [Inode.overlay_eq] at hData
  split at hData
  · cases hData
  · split at hData
    · cases hData
    · cases hData
      rfl

/- A read or a stat of nothing is refused. -/
theorem replyType_of_missing
    {fids : FidTable}
    {state : FidState}
    {msgType : UInt8}
    {tag : UInt16}
    {body : Bytes}
    {clock : Clock}
    {req : Request}
    (hConn : srv.conns conn = some fids)
    (hFid : fids.lookup fid = some state)
    (hDecode : Request.decode msgType body = .ok req)
    (hAsks :
      (∃ offset count, req = .tread fid offset count) ∨
        req = .tstat fid)
    (hLock : srv.poisoned = false)
    (hNone : srv.ramfs.stat state.path = none) :
    srv.replyType hasher
        (.request conn msgType tag body clock) =
      some RERROR := by
  have hNoData
      {state' : FidState}
      {data : Bytes}
      (hFid' : fids.lookup fid = some state')
      (hData :
        readData hasher srv.ramfs state'.path =
          .ok data) : False := by
    cases hFid.symm.trans hFid'
    rcases stat_of_readData hData with ⟨inode, hStat⟩
    cases hNone.symm.trans hStat
  have hNoNode
      {state' : FidState}
      {inode : Inode}
      (hFid' : fids.lookup fid = some state')
      (hStat : srv.ramfs.stat state'.path = some inode) :
      False := by
    cases hFid.symm.trans hFid'
    cases hNone.symm.trans hStat
  have hSafe (cause : Panic) (poisons : Bool) :
      ¬ Hazard hasher clock tag (srv.session fids) req
        cause poisons := by
    intro hHazard
    rcases hAsks with ⟨offset, count, rfl⟩ | rfl
    · cases hHazard with
      | poisonedLock hPoisoned =>
          cases hLock.symm.trans hPoisoned
      | readWindow hFid' hMode hAllowed hData hWindow =>
          exact hNoData hFid' hData
      | readFrame hFid' hMode hAllowed hData hWindow
          hFrame =>
          exact hNoData hFid' hData
    · cases hHazard with
      | poisonedLock hPoisoned =>
          cases hLock.symm.trans hPoisoned
      | statFrame hFid' hStat hFrame =>
          exact hNoNode hFid' hStat
  rcases served_of_safe hConn hDecode hSafe (by
      rintro _ _ _ _ _ rfl
      rcases hAsks with ⟨_, _, hEq⟩ | hEq
      · cases hEq
      · cases hEq) with
    ⟨fs, fids', reply, hEffect, _, _, hType⟩
  rw [hType]
  rcases hAsks with ⟨offset, count, rfl⟩ | rfl
  · cases hEffect with
    | read hFid' hMode hAllowed hData hWindow =>
        exact (hNoData hFid' hData).elim
    | refused hRefusal =>
        rfl
  · cases hEffect with
    | stat hFid' hStat =>
        exact (hNoNode hFid' hStat).elim
    | refused hRefusal =>
        rfl

/- Requests through a fid act on its path. -/
theorem actsOnPath
    (hasher : Hasher)
    (hPath : srv.fidPath conn fid = some path) :
    srv.ActsOnPath hasher conn fid path := by
  rcases lookup_of_fidPath hPath with
    ⟨fids, state, hConn, hFid, rfl⟩
  constructor
  · intro tag body clock offset count hDecode hType
    rcases effect_of_replyType hConn hDecode hType with
      ⟨fids', reply, hReply, hEffect, hFrame⟩
    generalize
      (srv.step hasher
        (.request conn TREAD tag body clock)).ramfs = fs'
      at hEffect
    cases hEffect with
    | read hFid' hMode hAllowed hData hWindow =>
        rw [hFid] at hFid'
        cases hFid'
        rcases stat_of_readData hData with ⟨inode, hStat⟩
        exact ⟨inode, _, _, hStat, hData, hWindow, hFrame⟩
    | refused hRefusal =>
        exact absurd (show RERROR = RREAD from hReply)
          (by decide)
  · intro tag body clock hDecode hType
    rcases effect_of_replyType hConn hDecode hType with
      ⟨fids', reply, hReply, hEffect, hFrame⟩
    generalize
      (srv.step hasher
        (.request conn TSTAT tag body clock)).ramfs = fs'
      at hEffect
    cases hEffect with
    | stat hFid' hStat =>
        rw [hFid] at hFid'
        cases hFid'
        exact ⟨_, hStat, hFrame⟩
    | refused hRefusal =>
        exact absurd (show RERROR = RSTAT from hReply)
          (by decide)
  · intro tag body clock offset buffer attrs hDecode hType
      hNonempty hNode
    rcases effect_of_replyType hConn hDecode hType with
      ⟨fids', reply, hReply, hEffect, hFrame⟩
    generalize
      (srv.step hasher
        (.request conn TWRITE tag body clock)).ramfs = fs'
      at hEffect ⊢
    cases hEffect with
    | write hFid' hMode hAllowed hOp =>
        rw [hFid] at hFid'
        cases hFid'
        exact view_of_write hNonempty hNode hOp
    | refused hRefusal =>
        exact absurd (show RERROR = RWRITE from hReply)
          (by decide)
  · intro msgType tag body clock req hDecode hAsks hLock
      hNone
    exact replyType_of_missing hConn hFid hDecode hAsks hLock
      ((srv.ramfs.stat_eq_none_iff state.path).mpr hNone)

/- A path that nothing drops keeps its node. -/
theorem tracks_self
    {events : List Event}
    {p : List String}
    (hAlways :
      Run.Always (step hasher)
        (fun srv event => ¬ srv.Drops hasher event p) srv
        events) :
    Tracks hasher (fun _ _ _ => True) srv events p p := by
  induction events generalizing srv with
  | nil =>
      exact .done
  | cons event events ih =>
      exact .stays trivial hAlways.1 (ih hAlways.2)

/-
  In every run in which no request to bind a fid succeeds,
  the fid keeps its path; the node there is the one it was
  bound to unless it was removed or renamed; and requests
  through the fid act on what is at its path when they come.
-/
theorem fid_denotes_path
    (hasher : Hasher)
    (srv : Server)
    (events : List Event)
    (conn : Nat)
    (fid : UInt32)
    (path : String)
    (hBound : srv.fidPath conn fid = some path)
    (hKept :
      Run.Always (step hasher)
        (fun srv event =>
          ¬ srv.Binds hasher event conn fid) srv events) :
    (∀ path',
      (Run.final (step hasher) srv events).fidPath conn
          fid = some path' → path' = path) ∧
    ((srv.ramfs.view (components path)).isSome →
      Run.Always (step hasher)
          (fun srv event =>
            ¬ srv.Drops hasher event (components path))
          srv events →
        Tracks hasher (fun _ _ _ => True) srv events
            (components path) (components path) ∧
          ((Run.final (step hasher) srv events).ramfs.view
            (components path)).isSome) ∧
    ((Run.final (step hasher) srv events).fidPath conn
        fid = some path →
      (Run.final (step hasher) srv events).ActsOnPath
        hasher conn fid path) := by
  refine ⟨fun path' => fidPath_final hBound hKept, ?_,
    actsOnPath hasher⟩
  intro hSome hAlways
  exact ⟨tracks_self hAlways, isSome_final hSome hAlways⟩

end Server

end Planten

------------------------------------------------------------
-- A Renamed File
------------------------------------------------------------

namespace Planten

/- A stat that changes nothing but the name. -/
def renameStat (name : String) : Stat where
  type_ := 0
  dev := 0
  qid := ⟨0, 0, 0⟩
  mode := 0xffffffff
  atime := 0xffffffff
  mtime := 0xffffffff
  length := 0xffffffffffffffff
  name := name
  uid := ""
  gid := ""
  muid := ""

/-
  One client attaches, creates the file `a` and walks fid 1
  to it.
-/
def openedFile : List Event :=
  [.accept 0,
    .request 0 TATTACH 0 (encodeAttachBody 0 none "" "")
      (fun _ => 0),
    .request 0 TCREATE 0 (encodeCreateBody 0 "a" 0 0)
      (fun _ => 0),
    .request 0 TWALK 0 (encodeWalkBody 0 1 ["a"])
      (fun _ => 0)]

/- It then renames the file to `b` through fid 1. -/
def renamedFile : List Event :=
  openedFile ++
    [.request 0 TWSTAT 0
      (encodeWstatBody 1 (renameStat "b")) (fun _ => 0)]

/-
  It then removes the file through another fid and creates a
  new one of the same name.
-/
def recreatedFile : List Event :=
  openedFile ++
    [.request 0 TCLONE 0 (encodeCloneBody 1 2)
        (fun _ => 0),
      .request 0 TREMOVE 0 (encodeRemoveBody 2)
        (fun _ => 0),
      .request 0 TCREATE 0 (encodeCreateBody 0 "a" 0 0)
        (fun _ => 1)]

namespace Server

/- Fid 1 acts on the old path of the file it renames. -/
theorem fid_denotes_path_of_renamedFile :
    (Run.final (step (fun _ _ => 0))
      (start (RamFs.fresh 0)) renamedFile).ActsOnPath
        (fun _ _ => 0) 0 1 "/a" := by
  have hDenotes :=
    fid_denotes_path (fun _ _ => 0)
      (Run.final (step (fun _ _ => 0))
        (start (RamFs.fresh 0)) openedFile)
      [.request 0 TWSTAT 0
        (encodeWstatBody 1 (renameStat "b")) (fun _ => 0)]
      0 1 "/a" (by decide +kernel)
      ⟨fun hBinds => absurd hBinds.1 (by decide +kernel),
        trivial⟩
  rw [renamedFile, Run.final_append]
  exact hDenotes.2.2 (by decide +kernel)

/-
  A stat through fid 1 is refused after the file is renamed,
  and answered after it is removed and another is created.
-/
theorem stat_after_rename_and_recreate :
    (Run.final (step (fun _ _ => 0))
        (start (RamFs.fresh 0)) renamedFile).fidPath 0 1 =
      some "/a" ∧
    ((Run.final (step (fun _ _ => 0))
        (start (RamFs.fresh 0)) renamedFile).ramfs.view
          ["b"]).isSome ∧
    (Run.final (step (fun _ _ => 0))
        (start (RamFs.fresh 0)) renamedFile).replyType
          (fun _ _ => 0)
          (.request 0 TSTAT 0 (encodeStatBody 1)
            (fun _ => 0)) =
      some RERROR ∧
    (Run.final (step (fun _ _ => 0))
        (start (RamFs.fresh 0)) recreatedFile).fidPath 0 1 =
      some "/a" ∧
    (Run.final (step (fun _ _ => 0))
        (start (RamFs.fresh 0)) recreatedFile).replyType
          (fun _ _ => 0)
          (.request 0 TSTAT 0 (encodeStatBody 1)
            (fun _ => 0)) =
      some RSTAT := by
  decide +kernel

end Server

end Planten
