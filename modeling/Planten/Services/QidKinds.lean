import Planten.PseudoFs.Kinds
import Planten.PseudoFs.Lookups
import Planten.Services.Dialogues
import Planten.Services.Fids

/-
  The qids of the process and the service file systems.

  A walk stores with its new fid a qid that tells whether the
  path is a directory.  An attach, and a walk without names,
  store the qid of a file.  Opens and stats answer with what
  is stored, so they are wrong exactly for the directories
  that were bound in the second way.

  Key definitions include:
    * `Qid.IsDir`
    * `PseudoServer.boundNames`
    * `PseudoServer.shownQid`
    * `PseudoServer.QidRule`

  Key theorems include:
    * `last_of_walkAlong`
    * `PseudoServer.allBound_run`
    * `PseudoServer.qidRule`
-/

------------------------------------------------------------
-- How a Fid was Bound
------------------------------------------------------------

namespace Planten

/- The directory bit of a qid. -/
def Qid.IsDir (qid : Qid) : Prop :=
  qid.qtype &&& 0x80 ≠ 0

instance (qid : Qid) : Decidable qid.IsDir := by
  unfold Qid.IsDir
  infer_instance

namespace PseudoServer

/-
  The names of the walk that binds a fid in an exchange; an
  attach binds it without names.
-/
def namesBinding
    (fid : UInt32) :
    PseudoRequest × Reply → Option (List String)
| (.tattach fid' _ _ _, .rattach _) =>
    if fid' = fid then some [] else none
| (.twalk _ newfid names, .rwalk _) =>
    if newfid = fid then some names else none
| _ => none

/- The names a fid was last bound with. -/
def boundNames
    (said : Said)
    (fid : UInt32) : Option (List String) :=
  said.findSome? (namesBinding fid)

/- The fid was last bound by a walk with names. -/
def BoundByNames
    (said : Said)
    (fid : UInt32) : Prop :=
  ∃ names, names ≠ [] ∧ boundNames said fid = some names

/- The fid a reply shows a qid for, and the qid. -/
def shownQid :
    PseudoRequest → Reply → Option (UInt32 × Qid)
| .tattach fid _ _ _, .rattach qid => some (fid, qid)
| .twalk _ newfid _, .rwalk qids =>
    qids.getLast?.map (fun qid => (newfid, qid))
| .topen fid _, .ropen qid _ => some (fid, qid)
| .tstat fid, .rstat stat => some (fid, stat.qid)
| _, _ => none

end PseudoServer

end Planten

------------------------------------------------------------
-- What is Stored
------------------------------------------------------------

namespace Planten

variable {H : Type}

theorem isDir_kindQid (inode : Attrs) :
    (kindQid inode).IsDir ↔ inode.IsDir := by
  unfold kindQid Qid.IsDir
  split
  · rename_i hDir
    exact iff_of_true (by decide) hDir
  · rename_i hFile
    exact iff_of_false (by decide) hFile

/- The last qid of a walk is that of the path it ends at. -/
theorem last_of_walkAlong
    {fs : FsServer H}
    {hosts : Nat → Host H}
    {i : Nat}
    {names : List String}
    {base path : String}
    {before qids : List Qid}
    (hNames : names ≠ [])
    (hWalk :
      walkAlong fs hosts i names base before =
        .ok (some (path, qids))) :
    ∃ host inode,
      fs.stat host path = .ok (some inode) ∧
        qids.getLast? = some (kindQid inode) := by
  induction names generalizing i base before with
  | nil =>
      exact absurd rfl hNames
  | cons name names ih =>
      rw [walkAlong, bind_eq_ok_iff] at hWalk
      rcases hWalk with ⟨found, hStat, hRest⟩
      cases found with
      | none =>
          cases hRest
      | some inode =>
          cases names with
          | nil =>
              simp only [walkAlong] at hRest
              cases hRest
              exact ⟨hosts i, inode, hStat,
                List.getLast?_concat⟩
          | cons next names =>
              exact ih (List.cons_ne_nil next names) hRest

namespace PseudoServer

/-
  Where the qid of a fid comes from: it is that of the root,
  or of the inode that was found where the fid leads.
-/
def WellBound
    (fs : FsServer H)
    (rootQid : Qid)
    (state : FidState)
    (names : List String) : Prop :=
  (names = [] → state.qid = rootQid) ∧
    (names ≠ [] →
      ∃ host inode,
        fs.stat host state.path = .ok (some inode) ∧
          state.qid = kindQid inode)

/- Every fid of the table is so bound. -/
def AllBound
    (fs : FsServer H)
    (rootQid : Qid)
    (d : Dialogue) : Prop :=
  ∀ fid state,
    d.state.lookup fid = some state →
      ∃ names,
        boundNames d.entries fid = some names ∧
          WellBound fs rootQid state names

end PseudoServer

namespace PseudoServer

/- The names of the fids that are in the table. -/
def lastNames : Said → UInt32 → Option (List String) :=
  track (fun _ => []) (fun _ names _ => some names)

/- They are those a fid was last bound with. -/
theorem boundNames_of_lastNames
    {said : Said}
    {fid : UInt32}
    {names : List String}
    (hNames : lastNames said fid = some names) :
    boundNames said fid = some names := by
  induction said with
  | nil =>
      cases hNames
  | cons entry said ih =>
      rw [lastNames, track] at hNames
      rw [boundNames]
      unfold trackAfter at hNames
      split at hNames
      · rename_i fid' afid uname aname qid
        rw [List.findSome?_cons, namesBinding]
        split at hNames
        · rename_i hSame
          rw [if_pos hSame]
          exact hNames
        · rename_i hOther
          rw [if_neg hOther]
          exact ih hNames
      · rename_i fid' newfid names' qids
        rw [List.findSome?_cons, namesBinding]
        split at hNames
        · rename_i hSame
          rw [if_pos hSame]
          exact hNames
        · rename_i hOther
          rw [if_neg hOther]
          exact ih hNames
      · rw [Journal.findSome_cons_of_none rfl]
        split at hNames
        · cases hNames
        · exact ih hNames
      · rename_i hAttach hWalk _
        have hNothing : namesBinding fid entry = none := by
          unfold namesBinding
          split
          · exact absurd rfl (hAttach _ _ _ _ _)
          · exact absurd rfl (hWalk _ _ _ _)
          · rfl
        rw [Journal.findSome_cons_of_none hNothing]
        exact ih hNames

/- The fid that is found, if one is, is so bound. -/
def BoundAs
    (fs : FsServer H)
    (rootQid : Qid)
    (found : Option FidState)
    (names : Option (List String)) : Prop :=
  ∀ state,
    found = some state →
      ∃ names',
        names = some names' ∧
          WellBound fs rootQid state names'

end PseudoServer

variable {loop : Loop H} {access : Access H}
variable {fids fids' : FidTable} {req : PseudoRequest}
variable {reply : Reply} {said : PseudoServer.Said}

/- Every answered request keeps the fids well bound. -/
theorem Loop.Effect.boundAs
    (hEffect : loop.Effect access fids req fids' reply)
    (hBefore :
      ∀ fid,
        PseudoServer.BoundAs loop.fs loop.rootQid
          (fids.lookup fid)
          (PseudoServer.lastNames said fid))
    (fid : UInt32) :
    PseudoServer.BoundAs loop.fs loop.rootQid
      (fids'.lookup fid)
      (PseudoServer.lastNames ((req, reply) :: said)
        fid) := by
  apply hEffect.tracked hBefore
  · intro state hNone
    cases hNone
  · intro state mode names hBound state' hFound
    cases hFound
    exact hBound state rfl
  · intro state hFound
    cases hFound
    exact ⟨[], rfl, fun _ => rfl,
      fun hNames => absurd rfl hNames⟩
  · intro fid newfid names qids _ hCount hWalk state hFound
    cases hFound
    refine ⟨names, rfl, ?_, ?_⟩
    · intro hNames
      rw [hNames] at hCount
      rw [List.length_eq_zero_iff.mp hCount]
      rfl
    · intro hNames
      rcases last_of_walkAlong hNames hWalk with
        ⟨host, inode, hStat, hLast⟩
      refine ⟨host, inode, hStat, ?_⟩
      change Option.getD _ _ = _
      rw [hLast]
      rfl

end Planten

------------------------------------------------------------
-- The Two Servers
------------------------------------------------------------

namespace Planten

variable {H : Type}
variable {loop : Loop H} {access : Access H}
variable {fids fids' : FidTable} {req : PseudoRequest}
variable {reply : Reply}

/- A qid that is shown is the one that is stored. -/
theorem Loop.Effect.shown
    (hRecord :
      ∀ state inode,
        (loop.record state inode).qid = state.qid)
    {fid : UInt32}
    {qid : Qid}
    (hEffect : loop.Effect access fids req fids' reply)
    (hShown :
      PseudoServer.shownQid req reply = some (fid, qid)) :
    ∃ state,
      fids'.lookup fid = some state ∧ state.qid = qid := by
  cases hEffect with
  | version | read hFid hData | clunk =>
      cases hShown
  | refused hRefusal =>
      cases req <;> cases hShown
  | attach =>
      cases hShown
      exact ⟨_, KeyMap.lookup_insert_self _ _ _, rfl⟩
  | walk hCount hSteps hWalk =>
      rcases Option.map_eq_some_iff.mp hShown with
        ⟨last, hLast, hEq⟩
      cases hEq
      refine ⟨_, KeyMap.lookup_insert_self _ _ _, ?_⟩
      change Option.getD _ _ = _
      rw [hLast]
      rfl
  | opened hOpens hFid hFinds =>
      cases hShown
      exact ⟨_, KeyMap.lookup_insert_self _ _ _, rfl⟩
  | openIgnored hOpens hFid =>
      cases hShown
      exact ⟨_, hFid, rfl⟩
  | stat hFid hStat =>
      cases hShown
      exact ⟨_, hFid, (hRecord _ _).symm⟩

namespace PseudoServer

variable {Pid : Type} [DecidableEq Pid]

/-
  What the qids of a server say of directories.  A qid that a
  reply shows is the one stored for the fid, and that one is
  right about a path that is there exactly when the fid was
  last bound by a walk with names, or is no directory.
-/
structure QidRule
    (pids : PidText Pid)
    (server : PseudoServer) : Prop where
  stored :
    ∀ turns d,
      server.run pids turns = some d →
        ∀ fid state,
          d.state.lookup fid = some state →
            ∀ host inode,
              (server.fs pids).stat host state.path =
                .ok (some inode) →
                ((state.qid.IsDir ↔ inode.IsDir) ↔
                  BoundByNames d.entries fid ∨
                    ¬ inode.IsDir)
  shown :
    ∀ fids turn fids' req reply,
      server.exchange pids fids turn =
        some (fids', req, reply) →
        ∀ fid qid,
          shownQid req reply = some (fid, qid) →
            ∃ state,
              fids'.lookup fid = some state ∧
                state.qid = qid

/- In every run every fid is well bound. -/
theorem allBound_run
    {pids : PidText Pid}
    {server : PseudoServer}
    {turns : List (Turn Pid server)}
    {d : Dialogue}
    (hRun : server.run pids turns = some d) :
    AllBound (server.loop pids).fs
      (server.loop pids).rootQid d := by
  have hBound :
      ∀ fid,
        BoundAs (server.loop pids).fs
          (server.loop pids).rootQid (d.state.lookup fid)
          (lastNames d.entries fid) := by
    apply Journal.invariant _ _ hRun
    · intro d turn fids' said hBefore hExchange
      exact (effect_of_exchange hExchange).boundAs hBefore
    · intro fid state hFid
      cases hFid
  intro fid state hFid
  rcases hBound fid state hFid with ⟨names, hNames, hWell⟩
  exact ⟨names, boundNames_of_lastNames hNames, hWell⟩

/-
  A server obeys the rule when its root qid is that of a file
  and the kinds of its paths are fixed.
-/
theorem qidRule_of_kindLaw
    {pids : PidText Pid}
    {server : PseudoServer}
    {isDir : String → Prop}
    (hKinds : (server.fs pids).KindLaw isDir)
    (hRoot :
      (server.loop pids).rootQid = ProcSrv.zeroQid)
    (hRecord :
      ∀ state inode,
        ((server.loop pids).record state inode).qid =
          state.qid) :
    server.QidRule pids := by
  constructor
  · intro turns d hRun fid state hFid host inode hStat
    rcases allBound_run hRun fid state hFid with
      ⟨names, hNames, hEmpty, hWalked⟩
    by_cases hNone : names = []
    · have hQid : ¬ state.qid.IsDir := by
        rw [hEmpty hNone, hRoot]
        decide
      have hNot : ¬ BoundByNames d.entries fid := by
        rintro ⟨names', hSome, hNames'⟩
        cases hNames.symm.trans hNames'
        exact hSome hNone
      rw [or_iff_right hNot]
      exact iff_false_left hQid
    · rcases hWalked hNone with
        ⟨host', inode', hStat', hQid⟩
      rw [fs_loop] at hStat'
      apply iff_of_true
      · rw [hQid, isDir_kindQid, hKinds _ _ _ hStat',
          hKinds _ _ _ hStat]
      · exact Or.inl ⟨names, hNone, hNames⟩
  · intro fids turn fids' req reply hExchange fid qid hShown
    exact (effect_of_exchange hExchange).shown hRecord
      hShown

/-
  In every run of the process and of the service file server,
  a stored qid tells the truth about a path exactly when the
  fid was last bound by a walk with names or the path is not
  a directory.
-/
theorem qidRule
    (pids : PidText Pid) :
    QidRule pids .procfs ∧ QidRule pids .srvfs :=
  ⟨qidRule_of_kindLaw (ProcFs.kindLaw pids) rfl
      (fun _ _ => rfl),
    qidRule_of_kindLaw SrvFs.kindLaw rfl (fun _ _ => rfl)⟩

/- A client attaches to the process file system. -/
def attached : List (Turn Nat .procfs) :=
  [⟨⟨false, fun _ => ProcFs.quietHost⟩, TATTACH, 0,
    encodeAttachBody 0 none "" ""⟩]

/-
  The root is a directory, and the qid that is stored and
  shown for it is that of a file.
-/
theorem attached_qid_of_file :
    ∃ d state inode,
      run ProcFs.numberPids .procfs attached = some d ∧
        d.state.lookup 0 = some state ∧
        d.entries.map Prod.snd = [.rattach ⟨0x00, 0, 0⟩] ∧
        (fs ProcFs.numberPids .procfs).stat
            ProcFs.quietHost state.path =
          .ok (some inode) ∧
        inode.mode &&& DMDIR ≠ 0 ∧
        state.qid = ⟨0x00, 0, 0⟩ ∧
        ¬ (state.qid.IsDir ↔ inode.IsDir) := by
  have hExchange :
      exchange ProcFs.numberPids .procfs []
          ⟨⟨false, fun _ => ProcFs.quietHost⟩, TATTACH, 0,
            encodeAttachBody 0 none "" ""⟩ =
        some ([(0, FidState.new "/" ⟨0x00, 0, 0⟩)],
          .tattach 0 0 "" "", .rattach ⟨0x00, 0, 0⟩) := by
    decide +kernel
  refine ⟨⟨[(0, FidState.new "/" ⟨0x00, 0, 0⟩)],
      [(.tattach 0 0 "" "", .rattach ⟨0x00, 0, 0⟩)]⟩,
    FidState.new "/" ⟨0x00, 0, 0⟩,
    ⟨"/", [], pseudoDirMode, "root", "root", 0, 0⟩,
    ?_, rfl, rfl, ?_, ?_, rfl, ?_⟩
  · rw [run, Journal.run, attached, Run.final_cons,
      Journal.step, Option.bind_some, hExchange]
    rfl
  · decide +kernel
  · decide
  · decide

end PseudoServer

end Planten
