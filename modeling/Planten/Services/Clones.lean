import Planten.Services.QidKinds

/-
  Walks without names in the device and the network server.

  Such a walk gives the new fid the path of the old one, but
  it always stores the qid of the root.  So a fid is cloned
  as it should be only where the old one leads to the root;
  and in the runs with no other such walk, one qid is shown
  for a fid, by walks, opens and stats.

  Key definitions include:
    * `PseudoServer.reachedQid`
    * `PseudoServer.ClonesAndAgrees`
    * `PseudoServer.ClonesFromRoot`
    * `PseudoServer.CloneRule`

  Key theorems include:
    * `Loop.Effect.faithful`
    * `PseudoServer.cloneRule`
-/

------------------------------------------------------------
-- Clones
------------------------------------------------------------

namespace Planten

namespace PseudoServer

/-
  The qid of the walk or the attach that reached the file of
  a fid.  A walk without names reaches no file: the new fid
  has what the old one was reached with.
-/
def reachedQid : Said → UInt32 → Option Qid :=
  track id (fun before _ qids => qids.getLast?.or before)

variable {Pid : Type} [DecidableEq Pid]
variable (pids : PidText Pid) (server : PseudoServer)

/- An open of a fid can be answered with this qid. -/
def OpensWith
    (fids : FidTable)
    (fid : UInt32)
    (qid : Qid) : Prop :=
  ∃ turn fids' mode iounit,
    server.exchange pids fids turn =
      some (fids', .topen fid mode, .ropen qid iounit)

/- A stat of a fid can be answered with this qid. -/
def StatsWith
    (fids : FidTable)
    (fid : UInt32)
    (qid : Qid) : Prop :=
  ∃ turn fids' stat,
    server.exchange pids fids turn =
        some (fids', .tstat fid, .rstat stat) ∧
      stat.qid = qid

/- Opens and stats show the qid the file was reached with. -/
structure QidsAgree (d : Dialogue) : Prop where
  opened :
    ∀ fid qid qid',
      OpensWith pids server d.state fid qid →
        StatsWith pids server d.state fid qid' →
          qid = qid'
  reached :
    ∀ fid qid qid',
      OpensWith pids server d.state fid qid ∨
          StatsWith pids server d.state fid qid →
        reachedQid d.entries fid = some qid' →
          qid = qid'

/-
  A turn that is a walk without names clones the fid, and
  after it the qids agree.
-/
def ClonesAndAgrees
    (conn : Option Dialogue)
    (turn : Turn Pid server) : Prop :=
  (∀ d fids' fid newfid reply,
    conn = some d →
      server.exchange pids d.state turn =
          some (fids', .twalk fid newfid [], reply) →
        ∀ state,
          d.state.lookup fid = some state →
            ∃ state',
              fids'.lookup newfid = some state' ∧
                state'.path = state.path ∧
                state'.qid = state.qid) ∧
  ∀ d,
    Journal.step (server.exchange pids) conn turn =
        some d →
      QidsAgree pids server d

/-
  A turn that is a walk without names starts from a fid that
  leads to the root, if from one that is known, and if it can
  take the lock and make the qid of the root.
-/
def ClonesFromRoot
    (conn : Option Dialogue)
    (turn : Turn Pid server) : Prop :=
  ∀ d fid newfid,
    conn = some d →
      PseudoRequest.decode turn.msgType turn.body =
          .ok (.twalk fid newfid []) →
        turn.env.poisoned = false →
          0 ≤ (turn.env.hosts 0).clock 0 →
            ∀ state,
              d.state.lookup fid = some state →
                IsRootPath state.path

/-
  All along a run walks without names clone and the qids
  agree, exactly when all those walks start from the root.
-/
def CloneRule : Prop :=
  ∀ turns : List (Turn Pid server),
    Run.Always (Journal.step (server.exchange pids))
        (ClonesAndAgrees pids server) (some ⟨[], []⟩)
        turns ↔
      Run.Always (Journal.step (server.exchange pids))
        (ClonesFromRoot server) (some ⟨[], []⟩)
        turns

end PseudoServer

end Planten

------------------------------------------------------------
-- Flat Loops
------------------------------------------------------------

namespace Planten

/- The qid of a path in a flat file system. -/
def flatQid (path : String) : Qid :=
  ⟨if IsRootPath path then 0x80 else 0x00, 0, 0⟩

/- A loop over a root and the files in it. -/
structure Loop.Flat
    {H : Type}
    (loop : Loop H) : Prop where
  kinds : loop.fs.KindLaw IsRootPath
  root : loop.rootQid = ⟨0x80, 0, 0⟩
  makes : loop.makesRoot = true
  start : loop.start = "/"
  record :
    ∀ state inode,
      (loop.record state inode).qid = kindQid inode

theorem DevFs.flat_loop : DevFs.loop.Flat :=
  ⟨DevFs.kindLaw, rfl, rfl, rfl, fun _ _ => rfl⟩

theorem NetFs.flat_loop : NetFs.loop.Flat :=
  ⟨NetFs.kindLaw, rfl, rfl, rfl, fun _ _ => rfl⟩

variable {H : Type} {loop : Loop H}

theorem flatQid_of_root
    {path : String}
    (hPath : IsRootPath path) :
    flatQid path = ⟨0x80, 0, 0⟩ := by
  rw [flatQid, if_pos hPath]

theorem isRootPath_of_flatQid
    {path : String}
    (hQid : flatQid path = ⟨0x80, 0, 0⟩) :
    IsRootPath path := by
  by_contra hFile
  rw [flatQid, if_neg hFile] at hQid
  exact absurd hQid (by decide)

/- What is found at a path has the qid of the path. -/
theorem Loop.Flat.kindQid_eq
    (hFlat : loop.Flat)
    {host : Host H}
    {path : String}
    {inode : Attrs}
    (hStat : loop.fs.stat host path = .ok (some inode)) :
    kindQid inode = flatQid path := by
  unfold kindQid flatQid
  rw [if_congr (hFlat.kinds host path inode hStat) rfl rfl]

end Planten

------------------------------------------------------------
-- Faithful Qids
------------------------------------------------------------

namespace Planten

namespace PseudoServer

/-
  A fid has the qid of its path, and that is the one its file
  was reached with.
-/
structure FaithfulFid
    (found : Option FidState)
    (reached : Option Qid) : Prop where
  stored :
    ∀ state,
      found = some state → state.qid = flatQid state.path
  reached :
    ∀ qid,
      reached = some qid →
        ∃ state, found = some state ∧ state.qid = qid

def Faithful (d : Dialogue) : Prop :=
  ∀ fid,
    FaithfulFid (d.state.lookup fid)
      (reachedQid d.entries fid)

theorem faithfulFid_none : FaithfulFid none none := by
  constructor
  · intro state hFound
    cases hFound
  · intro qid hReached
    cases hReached

theorem faithfulFid_some
    {state : FidState}
    {reached : Option Qid}
    (hStored : state.qid = flatQid state.path)
    (hReached : ∀ qid, reached = some qid → state.qid = qid) :
    FaithfulFid (some state) reached := by
  constructor
  · intro state' hFound
    cases hFound
    exact hStored
  · intro qid hQid
    exact ⟨state, rfl, hReached qid hQid⟩

end PseudoServer

end Planten

------------------------------------------------------------
-- Steps
------------------------------------------------------------

namespace Planten

variable {H : Type} {loop : Loop H} {access : Access H}
variable {fids fids' : FidTable} {req : PseudoRequest}
variable {reply : Reply} {said : PseudoServer.Said}

/- A walk without names starts and stays at the root. -/
theorem Loop.Flat.isRootPath_basePath
    (hFlat : loop.Flat)
    {fid : UInt32}
    (hRoot :
      ∀ state,
        fids.lookup fid = some state →
          IsRootPath state.path) :
    IsRootPath (loop.basePath fids fid) := by
  unfold Loop.basePath
  cases hFid : fids.lookup fid with
  | none =>
      rw [hFlat.start]
      exact components_slash
  | some state =>
      exact hRoot state hFid

/- The qid a walk with names ends with. -/
theorem Loop.Flat.last_of_walkAlong
    (hFlat : loop.Flat)
    {hosts : Nat → Host H}
    {names : List String}
    {base path : String}
    {qids : List Qid}
    (hNames : names ≠ [])
    (hWalk :
      walkAlong loop.fs hosts 0 names base [] =
        .ok (some (path, qids))) :
    qids.getLast? = some (flatQid path) := by
  rcases Planten.last_of_walkAlong hNames hWalk with
    ⟨host, inode, hStat, hLast⟩
  rw [hLast, hFlat.kindQid_eq hStat]

/- The fid of a walk with names has the qid of its path. -/
theorem Loop.Flat.faithfulFid_of_walk
    (hFlat : loop.Flat)
    {hosts : Nat → Host H}
    {names : List String}
    {base path : String}
    {qids : List Qid}
    (hNames : names ≠ [])
    (hWalk :
      walkAlong loop.fs hosts 0 names base [] =
        .ok (some (path, qids)))
    (reached : Option Qid) :
    PseudoServer.FaithfulFid
      (some (FidState.new path
        (qids.getLast?.getD loop.rootQid)))
      (qids.getLast?.or reached) := by
  rw [hFlat.last_of_walkAlong hNames hWalk]
  apply PseudoServer.faithfulFid_some
  · rfl
  · intro qid hQid
    exact Option.some.inj hQid

/- So has that of a walk without names, from the root. -/
theorem Loop.Flat.faithfulFid_of_clone
    (hFlat : loop.Flat)
    {fid : UInt32}
    {reached : Option Qid}
    (hBefore :
      PseudoServer.FaithfulFid (fids.lookup fid) reached)
    (hRoot :
      ∀ state,
        fids.lookup fid = some state →
          IsRootPath state.path) :
    PseudoServer.FaithfulFid
      (some (FidState.new (loop.basePath fids fid)
        loop.rootQid))
      reached := by
  apply PseudoServer.faithfulFid_some
  · exact hFlat.root.trans
      (flatQid_of_root (hFlat.isRootPath_basePath hRoot)).symm
  · intro qid hReached
    rcases hBefore.reached qid hReached with
      ⟨state, hFid, hQid⟩
    rw [← hQid, hBefore.stored state hFid,
      flatQid_of_root (hRoot state hFid)]
    exact hFlat.root

/- A turn keeps the qids faithful, if it clones the root. -/
theorem Loop.Effect.faithful
    (hEffect : loop.Effect access fids req fids' reply)
    (hFlat : loop.Flat)
    (hBefore : PseudoServer.Faithful ⟨fids, said⟩)
    (hClones :
      ∀ fid newfid,
        req = .twalk fid newfid [] →
          ∀ state,
            fids.lookup fid = some state →
              IsRootPath state.path) :
    PseudoServer.Faithful
      ⟨fids', (req, reply) :: said⟩ := by
  apply hEffect.tracked hBefore PseudoServer.faithfulFid_none
  · intro state mode reached hState
    apply PseudoServer.faithfulFid_some
    · exact hState.stored state rfl
    · intro qid hQid
      rcases hState.reached qid hQid with
        ⟨state', hSame, hStored⟩
      cases hSame
      exact hStored
  · apply PseudoServer.faithfulFid_some
    · exact hFlat.root.trans
        (flatQid_of_root components_slash).symm
    · intro qid hQid
      exact Option.some.inj hQid
  · intro fid newfid names qids hReq hCount hWalk
    by_cases hNames : names = []
    · subst hNames
      rw [List.length_eq_zero_iff.mp hCount]
      exact hFlat.faithfulFid_of_clone (hBefore fid)
        (hClones fid newfid hReq)
    · exact hFlat.faithfulFid_of_walk hNames hWalk _

/- What makes a walk without names panic. -/
theorem Loop.Flat.hazard_emptyWalk_iff
    (hFlat : loop.Flat)
    (fid newfid : UInt32) :
    loop.Hazard access fids (.twalk fid newfid []) ↔
      access.poisoned = true ∨
        (access.hosts 0).clock 0 < 0 := by
  constructor
  · intro hHazard
    generalize hReq : PseudoRequest.twalk fid newfid [] =
      req at hHazard
    cases hHazard with
    | walkLock hPoisoned =>
        exact Or.inl hPoisoned
    | walkRoot hMakes hBefore =>
        exact Or.inr hBefore
    | walkClock hBound hFinds hBefore =>
        cases hReq
        exact absurd hBound (Nat.not_lt_zero _)
    | _ =>
        cases hReq
  · rintro (hPoisoned | hBefore)
    · exact .walkLock hPoisoned
    · exact .walkRoot hFlat.makes hBefore

/- A walk without names binds the path, and the root's qid. -/
theorem Loop.Effect.of_emptyWalk
    {fid newfid : UInt32}
    (hEffect :
      loop.Effect access fids (.twalk fid newfid []) fids'
        reply) :
    fids' =
      KeyMap.insert newfid
        (FidState.new (loop.basePath fids fid) loop.rootQid)
        fids := by
  generalize hReq : PseudoRequest.twalk fid newfid [] = req
    at hEffect
  cases hEffect with
  | walk hCount hSteps hWalk =>
      cases hReq
      rw [List.length_eq_zero_iff.mp hCount]
      rfl
  | refused hRefusal =>
      cases hRefusal with
      | walkMissing hBound hSteps hMissing =>
          cases hReq
          exact absurd hBound (Nat.not_lt_zero _)
      | _ =>
          cases hReq
  | _ =>
      cases hReq

end Planten

------------------------------------------------------------
-- Runs
------------------------------------------------------------

namespace Planten

namespace PseudoServer

variable {Pid : Type} [DecidableEq Pid]
variable {pids : PidText Pid} {server : PseudoServer}
variable {d : Dialogue} {fid : UInt32} {qid : Qid}

theorem stored_of_opensWith
    (hOpens : OpensWith pids server d.state fid qid) :
    ∃ state,
      d.state.lookup fid = some state ∧ state.qid = qid := by
  rcases hOpens with ⟨turn, fids', mode, iounit, hExchange⟩
  have hEffect := effect_of_exchange hExchange
  generalize hReply : Reply.ropen qid iounit = reply
    at hEffect
  cases hEffect with
  | opened hOpens hFid hFinds =>
      cases hReply
      exact ⟨_, hFid, rfl⟩
  | openIgnored hOpens hFid =>
      cases hReply
      exact ⟨_, hFid, rfl⟩
  | refused hRefusal =>
      cases hReply

/- The qid of a stat is that of the path it looks at. -/
theorem path_of_statsWith
    (hFlat : (server.loop pids).Flat)
    (hStats : StatsWith pids server d.state fid qid) :
    ∃ state,
      d.state.lookup fid = some state ∧
        flatQid state.path = qid := by
  rcases hStats with ⟨turn, fids', stat, hExchange, hQid⟩
  have hEffect := effect_of_exchange hExchange
  generalize hReply : Reply.rstat stat = reply at hEffect
  cases hEffect with
  | stat hFid hStat =>
      cases hReply
      refine ⟨_, hFid, ?_⟩
      rw [← hQid, hFlat.record, hFlat.kindQid_eq hStat]
  | refused hRefusal =>
      cases hReply

theorem qidsAgree_of_faithful
    (hFlat : (server.loop pids).Flat)
    (hFaithful : Faithful d) :
    QidsAgree pids server d := by
  -- what an open shows is stored, and what a stat shows too
  have hShown :
      ∀ fid qid,
        OpensWith pids server d.state fid qid ∨
            StatsWith pids server d.state fid qid →
          ∃ state,
            d.state.lookup fid = some state ∧
              state.qid = qid := by
    rintro fid qid (hOpens | hStats)
    · exact stored_of_opensWith hOpens
    · rcases path_of_statsWith hFlat hStats with
        ⟨state, hFid, hQid⟩
      exact ⟨state, hFid,
        ((hFaithful fid).stored state hFid).trans hQid⟩
  constructor
  · intro fid qid qid' hOpens hStats
    rcases hShown fid qid (Or.inl hOpens) with
      ⟨state, hFid, hQid⟩
    rcases hShown fid qid' (Or.inr hStats) with
      ⟨state', hFid', hQid'⟩
    cases hFid.symm.trans hFid'
    exact hQid.symm.trans hQid'
  · intro fid qid qid' hOpensOrStats hReached
    rcases hShown fid qid hOpensOrStats with
      ⟨state, hFid, hQid⟩
    rcases (hFaithful fid).reached qid' hReached with
      ⟨state', hFid', hQid'⟩
    cases hFid.symm.trans hFid'
    exact hQid.symm.trans hQid'

/- A connection that is over, or whose qids are faithful. -/
def AllFaithful (conn : Option Dialogue) : Prop :=
  ∀ d, conn = some d → Faithful d

variable {conn : Option Dialogue}
variable {turn : Turn Pid server}

theorem allFaithful_step
    (hFlat : (server.loop pids).Flat)
    (hBefore : AllFaithful conn)
    (hFromRoot : ClonesFromRoot server conn turn) :
    AllFaithful
      (Journal.step (server.exchange pids) conn turn) := by
  intro after hAfter
  rcases Option.bind_eq_some_iff.mp hAfter with
    ⟨before, hConn, hMap⟩
  rcases Option.map_eq_some_iff.mp hMap with
    ⟨⟨fids', req, reply⟩, hExchange, rfl⟩
  apply (effect_of_exchange hExchange).faithful hFlat
    (hBefore before hConn)
  rintro fid newfid rfl
  have hDecode := (exchange_eq_some.mp hExchange).1
  rcases @exchange_or_hazard _ _ _ _ before.state _ _
      hDecode with ⟨_, hNone⟩ | ⟨hNot, _⟩
  · cases hNone.symm.trans hExchange
  · rw [hFlat.hazard_emptyWalk_iff, not_or,
      Bool.not_eq_true, not_lt] at hNot
    exact hFromRoot before fid newfid hConn hDecode hNot.1
      hNot.2

/- Walks without names from the root clone it. -/
theorem clonesAndAgrees_of_fromRoot
    (hFlat : (server.loop pids).Flat)
    (hBefore : AllFaithful conn)
    (hFromRoot : ClonesFromRoot server conn turn) :
    ClonesAndAgrees pids server conn turn := by
  have hAfter := allFaithful_step hFlat hBefore hFromRoot
  constructor
  · rintro before fids' fid newfid reply hConn hExchange
      state hFid
    have hStep :
        Journal.step (server.exchange pids) conn turn =
          some ⟨fids', (.twalk fid newfid [], reply) ::
            before.entries⟩ := by
      rw [hConn, Journal.step, Option.bind_some, hExchange]
      rfl
    have hFids' :=
      (effect_of_exchange hExchange).of_emptyWalk
    have hPath :
        (server.loop pids).basePath before.state fid =
          state.path := by
      rw [Loop.basePath, hFid]
      rfl
    have hNew :
        fids'.lookup newfid =
          some (FidState.new state.path
            (server.loop pids).rootQid) := by
      rw [hFids', KeyMap.lookup_insert_self, hPath]
    refine ⟨_, hNew, rfl, ?_⟩
    -- both qids are that of the path
    rw [(hAfter _ hStep newfid).stored _ hNew,
      (hBefore before hConn fid).stored state hFid]
    rfl
  · intro after hStep
    exact qidsAgree_of_faithful hFlat (hAfter after hStep)

/- A walk without names that clones starts from the root. -/
theorem fromRoot_of_clonesAndAgrees
    (hFlat : (server.loop pids).Flat)
    (hBefore : AllFaithful conn)
    (hClones : ClonesAndAgrees pids server conn turn) :
    ClonesFromRoot server conn turn := by
  intro before fid newfid hConn hDecode hLock hClock state
    hFid
  rcases @exchange_or_hazard _ _ _ _ before.state _ _
      hDecode with ⟨hHazard, _⟩ | ⟨_, fids', reply, hExchange⟩
  · rcases (hFlat.hazard_emptyWalk_iff fid newfid).mp hHazard
      with hPoisoned | hBefore
    · cases hLock.symm.trans hPoisoned
    · exact absurd hBefore (not_lt.mpr hClock)
  · rcases hClones.1 before fids' fid newfid reply hConn
        hExchange state hFid with
      ⟨state', hNew, _, hQid⟩
    rw [(effect_of_exchange hExchange).of_emptyWalk,
      KeyMap.lookup_insert_self] at hNew
    cases hNew
    apply isRootPath_of_flatQid
    rw [← (hBefore before hConn fid).stored state hFid,
      ← hQid]
    exact hFlat.root

theorem cloneRule_of_flat
    (hFlat : (server.loop pids).Flat) :
    CloneRule pids server := by
  intro turns
  have hInit : AllFaithful (some ⟨[], []⟩) := by
    intro d hConn fid
    cases hConn
    exact faithfulFid_none
  constructor
  · apply Run.always_of_always _ _ _ hInit
    · intro conn turn hBefore hClones
      exact allFaithful_step hFlat hBefore
        (fromRoot_of_clonesAndAgrees hFlat hBefore hClones)
    · intro conn turn hBefore hClones
      exact fromRoot_of_clonesAndAgrees hFlat hBefore
        hClones
  · apply Run.always_of_always _ _ _ hInit
    · intro conn turn hBefore hFromRoot
      exact allFaithful_step hFlat hBefore hFromRoot
    · intro conn turn hBefore hFromRoot
      exact clonesAndAgrees_of_fromRoot hFlat hBefore
        hFromRoot

/-
  In the device and the network server, walks without names
  clone fids, and one qid is shown for every fid, exactly in
  the runs where they start from the root.
-/
theorem cloneRule
    (pids : PidText Pid) :
    CloneRule pids .devfs ∧ CloneRule pids .netfs :=
  ⟨cloneRule_of_flat DevFs.flat_loop,
    cloneRule_of_flat NetFs.flat_loop⟩

/- A frame that a quiet device host answers. -/
def deviceTurn
    (msgType : UInt8)
    (body : Bytes) : Turn Nat .devfs :=
  ⟨⟨false, fun _ => ⟨fun _ => 0, fun _ _ => 0⟩⟩, msgType, 0,
    body⟩

/- A walk to the console, and one without names from there. -/
def consoleClone : List (Turn Nat .devfs) :=
  [deviceTurn TATTACH (encodeAttachBody 0 none "" ""),
    deviceTurn TWALK (encodeWalkBody 0 1 ["console"]),
    deviceTurn TWALK (encodeWalkBody 1 2 [])]

/- The fids of that walk, in the order they are bound. -/
def consoleFids : FidTable :=
  [(0, FidState.new "/" ⟨0x80, 0, 0⟩),
    (1, FidState.new "/console" ⟨0x00, 0, 0⟩),
    (2, FidState.new "/console" ⟨0x80, 0, 0⟩)]

/-
  The new fid leads to the console.  An open shows the qid of
  a directory for it, and a stat that of a file.
-/
theorem not_clonesAndAgrees_of_console :
    ¬ Run.Always
        (Journal.step (exchange ProcFs.numberPids .devfs))
        (ClonesAndAgrees ProcFs.numberPids .devfs)
        (some ⟨[], []⟩) consoleClone ∧
      (run ProcFs.numberPids .devfs consoleClone).map
          Journal.state =
        some consoleFids ∧
      OpensWith ProcFs.numberPids .devfs consoleFids 2
        ⟨0x80, 0, 0⟩ ∧
      StatsWith ProcFs.numberPids .devfs consoleFids 2
        ⟨0x00, 0, 0⟩ := by
  have hAttach :
      exchange ProcFs.numberPids .devfs []
          (deviceTurn TATTACH
            (encodeAttachBody 0 none "" "")) =
        some (consoleFids.take 1, .tattach 0 0 "" "",
          .rattach ⟨0x80, 0, 0⟩) := by
    decide +kernel
  have hWalk :
      exchange ProcFs.numberPids .devfs (consoleFids.take 1)
          (deviceTurn TWALK
            (encodeWalkBody 0 1 ["console"])) =
        some (consoleFids.take 2, .twalk 0 1 ["console"],
          .rwalk [⟨0x00, 0, 0⟩]) := by
    decide +kernel
  have hClone :
      exchange ProcFs.numberPids .devfs (consoleFids.take 2)
          (deviceTurn TWALK (encodeWalkBody 1 2 [])) =
        some (consoleFids, .twalk 1 2 [], .rwalk []) := by
    decide +kernel
  have hOpen :
      exchange ProcFs.numberPids .devfs consoleFids
          (deviceTurn TOPEN (encodeOpenBody 2 0)) =
        some (consoleFids, .topen 2 (some 0),
          .ropen ⟨0x80, 0, 0⟩ MAX_MSG_SIZE) := by
    decide +kernel
  have hStat :
      exchange ProcFs.numberPids .devfs consoleFids
          (deviceTurn TSTAT (encodeStatBody 2)) =
        some (consoleFids, .tstat 2,
          .rstat (DevNet.buildStat
            ⟨"console", [], 0o666, "root", "root", 0,
              0⟩)) := by
    decide +kernel
  refine ⟨?_, ?_, ⟨_, _, _, _, hOpen⟩, ⟨_, _, _, hStat, rfl⟩⟩
  · rintro ⟨_, _, hThird, _⟩
    simp only [Journal.step, Option.bind_some, hAttach,
      hWalk, Option.map_some] at hThird
    rcases hThird.1 _ _ _ _ _ rfl hClone
        (FidState.new "/console" ⟨0x00, 0, 0⟩) rfl with
      ⟨state', hNew, _, hQid⟩
    cases hNew
    cases hQid
  · simp only [run, Journal.run, consoleClone,
      Run.final_cons, Journal.step, Option.bind_some,
      hAttach, hWalk, hClone, Option.map_some]
    rfl

end PseudoServer

end Planten
