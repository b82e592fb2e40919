import Planten.RamFs.FidPaths

/-
  The qids of the server.

  A qid is made anew for every report, from the path string
  that led to the node and from its modification time.  So a
  node keeps its qid under one path string until it is
  modified, and qids under different path strings differ.

  Key definitions include:
    * `Report`
    * `Request.reportedPaths`
    * `Server.reports`
    * `Server.runReports`

  Key theorems include:
    * `Server.val_of_tracks`
    * `Server.stat_of_mem_reports`
    * `Server.qids_identify`
-/

------------------------------------------------------------
-- Reports
------------------------------------------------------------

namespace Planten

/- A node whose qid is reported, and the path it has then. -/
structure Report where
  path : String
  inode : Inode

/- The qid of a report. -/
def Report.qid
    (hasher : Hasher)
    (report : Report) : Qid :=
  qidFromInode hasher report.path report.inode

/- What is hashed for a report. -/
def Report.input (report : Report) : String × UInt32 :=
  (report.path, report.inode.val.mtime)

/- The node a path string leads to. -/
def RamFs.report?
    (fs : RamFs)
    (path : String) : Option Report :=
  (fs.stat path).map (fun inode => ⟨path, inode⟩)

/- The path strings a walk goes through. -/
def walkPaths : Nat → Bytes → String → List String
| 0, _, _ => []
| n + 1, cursor, currentPath =>
    match readString.run cursor with
    | .error _ => []
    | .ok (name, cursor) =>
        match resolveStep currentPath name with
        | none => []
        | some nextPath =>
            nextPath :: walkPaths n cursor nextPath

/- The path strings of the entries of a directory. -/
def entryPaths
    (fs : RamFs)
    (path : String) : List String :=
  match fs.stat path with
  | none => []
  | some inode =>
      if inode.val.IsDir then
        ((fs.listDir path).getD []).filterMap
          (resolveStep path)
      else
        []

/-
  The path strings whose nodes are reported by the answer to
  a request.
-/
def Request.reportedPaths
    (fs : RamFs)
    (fids : FidTable) : Request → List String
| .tattach _ _ _ _ => ["/"]
| .twalk fid _ nwname names =>
    walkPaths nwname.toNat names
      (((fids.lookup fid).map FidState.path).getD "/")
| .topen fid _ =>
    ((fids.lookup fid).map FidState.path).toList
| .tcreate fid name _ _ =>
    ((fids.lookup fid).bind
      (fun state => resolveStep state.path name)).toList
| .tread fid _ _ =>
    ((fids.lookup fid).map
      (fun state => entryPaths fs state.path)).getD []
| .tstat fid =>
    ((fids.lookup fid).map FidState.path).toList
| _ => []

/- The records of some reports in a directory listing. -/
def listing
    (hasher : Hasher)
    (reports : List Report) : Bytes :=
  reports.flatMap (fun report =>
    encodeStatPayload
      (inodeToStat hasher report.path report.inode))

/-
  A reply holds the qids of some reports, in their order:
  read data is a window of their records.
-/
def Reply.Carries
    (hasher : Hasher)
    (reports : List Report) : Reply → Prop
| rattach qid => [qid] = reports.map (Report.qid hasher)
| rwalk qids => qids = reports.map (Report.qid hasher)
| ropen qid _ => [qid] = reports.map (Report.qid hasher)
| rcreate qid _ => [qid] = reports.map (Report.qid hasher)
| rstat stat =>
    [stat.qid] = reports.map (Report.qid hasher)
| rread chunk =>
    reports = [] ∨
      ∃ offset count,
        readWindow .dev (listing hasher reports) offset
          count = .ok chunk
| _ => reports = []

namespace Server

variable (hasher : Hasher)

/-
  The reports in the answer to an event.  The nodes are those
  after the event, since a create reports the node it made.
-/
def reports
    (srv : Server)
    (event : Event) : List Report :=
  match event with
  | .request conn msgType _ body _ =>
      if srv.replyType hasher event = none ∨
          srv.replyType hasher event = some RERROR then
        []
      else
        match srv.conns conn, Request.decode msgType body with
        | some fids, .ok req =>
            (req.reportedPaths srv.ramfs fids).filterMap
              (srv.step hasher event).ramfs.report?
        | _, _ => []
  | _ => []

/- All reports of a run. -/
def runReports :
    Server → List Event → List Report
| _, [] => []
| srv, event :: events =>
    srv.reports hasher event ++
      runReports (srv.step hasher event) events

end Server

end Planten

------------------------------------------------------------
-- Reports and Replies
------------------------------------------------------------

namespace Planten

variable {hasher : Hasher} {clock : Clock}
variable {fs fs' : RamFs} {fids fids' : FidTable}
variable {req : Request} {reply : Reply}

theorem report?_of_stat
    {path : String}
    {inode : Inode}
    (hStat : fs.stat path = some inode) :
    fs.report? path = some ⟨path, inode⟩ := by
  rw [RamFs.report?, hStat]
  rfl

/- A walk gives the qids of the nodes on its way. -/
theorem qids_of_walkNames
    {n : Nat}
    {cursor : Bytes}
    {path path' : String}
    {qids qids' : List Qid}
    (hNames :
      walkNames hasher fs n cursor path qids =
        .ok (.ok (path', qids'))) :
    qids' =
      qids ++
        ((walkPaths n cursor path).filterMap
          fs.report?).map (Report.qid hasher) := by
  induction n generalizing cursor path qids with
  | zero =>
      cases hNames
      exact (List.append_nil _).symm
  | succ n ih =>
      rw [walkNames, bind_eq_ok_iff] at hNames
      rcases hNames with ⟨⟨name, rest⟩, hName, hNames⟩
      simp only at hNames
      cases hStep : resolveStep path name with
      | none =>
          rw [hStep] at hNames
          cases hNames
      | some next =>
          rw [hStep] at hNames
          simp only at hNames
          cases hStat : fs.stat next with
          | none =>
              rw [hStat] at hNames
              cases hNames
          | some inode =>
              rw [hStat] at hNames
              have hTail := ih hNames
              have hReport := report?_of_stat hStat
              simp only [walkPaths, hName, hStep,
                List.filterMap_cons_some hReport,
                List.map_cons]
              rw [hTail, List.append_assoc]
              rfl

/- The records of a directory are those of its entries. -/
theorem dirBytes_eq_listing
    (path : String)
    (entries : List String) :
    entries.flatMap (entryBytes hasher fs path) =
      listing hasher
        ((entries.filterMap (resolveStep path)).filterMap
          fs.report?) := by
  induction entries with
  | nil =>
      rfl
  | cons entry entries ih =>
      rw [List.flatMap_cons, ih, entryBytes]
      cases hStep : resolveStep path entry with
      | none =>
          rw [List.filterMap_cons_none hStep]
          rfl
      | some childPath =>
          rw [List.filterMap_cons_some hStep]
          cases hStat : fs.stat childPath with
          | none =>
              have hNone : fs.report? childPath = none := by
                rw [RamFs.report?, hStat]
                rfl
              rw [List.filterMap_cons_none hNone]
              simp only [hStat]
              rfl
          | some child =>
              rw [List.filterMap_cons_some
                (report?_of_stat hStat)]
              simp only [hStat]
              rfl

/- The data of a directory is the listing of its reports. -/
theorem readData_eq_listing
    {path : String}
    {data : Bytes}
    (hData : readData hasher fs path = .ok data) :
    (entryPaths fs path).filterMap fs.report? = [] ∨
      data =
        listing hasher
          ((entryPaths fs path).filterMap fs.report?) := by
  unfold readData at hData
  unfold entryPaths
  cases hStat : fs.stat path with
  | none =>
      exact Or.inl rfl
  | some inode =>
      rw [hStat] at hData
      simp only at hData ⊢
      split at hData
      · rename_i hDir
        cases hData
        rw [if_pos hDir, dirBytes]
        cases fs.listDir path with
        | none =>
            exact Or.inl rfl
        | some entries =>
            exact Or.inr (dirBytes_eq_listing path entries)
      · rename_i hFile
        rw [if_neg hFile]
        exact Or.inl rfl

/- The answer to a request holds the qids of its reports. -/
theorem Effect.carries
    (hEffect : Effect hasher clock fs fids req fs' fids' reply)
    (hAnswered : reply.msgType ≠ RERROR) :
    reply.Carries hasher
      ((req.reportedPaths fs fids).filterMap
        fs'.report?) := by
  cases hEffect with
  | attach =>
      have hRoot : fs.stat "/" = some fs.root := by
        rw [RamFs.stat, components_slash]
        rfl
      rw [Request.reportedPaths,
        List.filterMap_cons_some (report?_of_stat hRoot)]
      rfl
  | walk hNames hTarget =>
      rename_i fid newfid nwname names path qids newQid
      have hBase :
          (walkBaseState hasher fs fids fid).path =
            ((fids.lookup fid).map FidState.path).getD
              "/" := by
        unfold walkBaseState
        cases fids.lookup fid with
        | none =>
            rfl
        | some state =>
            rfl
      rw [hBase] at hNames
      exact qids_of_walkNames hNames
  | opened hFid hStat | stat hFid hStat =>
      rw [Request.reportedPaths, hFid, Option.map_some,
        Option.toList_some,
        List.filterMap_cons_some (report?_of_stat hStat)]
      rfl
  | create hFid hStep hFresh hOp hStat =>
      rw [Request.reportedPaths, hFid, Option.bind_some,
        hStep, Option.toList_some,
        List.filterMap_cons_some (report?_of_stat hStat)]
      rfl
  | read hFid hMode hAllowed hData hWindow =>
      rw [Request.reportedPaths, hFid]
      rcases readData_eq_listing hData with hNone | rfl
      · exact Or.inl hNone
      · exact Or.inr ⟨_, _, hWindow⟩
  | refused hRefusal | removeFailed hFid hOp =>
      exact (hAnswered rfl).elim
  | version | auth | flush | clunk
  | write hFid hMode hAllowed hOp | remove hFid hOp
  | wstat hFid hRecord hOp | clone hFid =>
      rfl

end Planten

------------------------------------------------------------
-- Reports of a Run
------------------------------------------------------------

namespace Planten

namespace Server

variable {hasher : Hasher} {srv : Server} {event : Event}

/- A reply holds the qids of the reports of its event. -/
theorem carries_of_step
    {srv' : Server}
    {reply : Reply}
    (hStep : Step hasher srv event (some reply) srv')
    (hAfter : srv' = srv.step hasher event)
    (hType :
      srv.replyType hasher event = some reply.msgType) :
    reply.Carries hasher (srv.reports hasher event) := by
  cases hStep with
  | served hConn hDecode hEffect hFrame hSent =>
      simp only [reports, hType, hConn, hDecode, ← hAfter]
      split
      · rename_i hError
        rcases hError with hNone | hError
        · cases hNone
        · cases reply with
          | rerror message =>
              rfl
          | _ =>
              simp only [Reply.msgType,
                Option.some.injEq] at hError
              exact absurd hError (by decide)
      · rename_i hAnswered
        apply hEffect.carries
        intro hError
        exact hAnswered (Or.inr (congrArg some hError))

/- A report is of the node at its path after the event. -/
theorem stat_of_mem_reports
    {report : Report}
    (hReport : report ∈ srv.reports hasher event) :
    (srv.step hasher event).ramfs.stat report.path =
      some report.inode := by
  unfold reports at hReport
  split at hReport
  · split at hReport
    · cases hReport
    · split at hReport
      · rcases List.mem_filterMap.mp hReport with
          ⟨path, _, hFound⟩
        rcases Option.map_eq_some_iff.mp hFound with
          ⟨inode, hStat, rfl⟩
        exact hStat
      · cases hReport
  · cases hReport

/- A node that nothing goes through keeps its fields. -/
theorem val_of_tracks
    {events : List Event}
    {report report' : Report}
    (hReport :
      srv.ramfs.stat report.path = some report.inode)
    (hTracks :
      Tracks hasher
        (fun srv event p => ¬ srv.Modifies event p)
        srv events (components report.path)
        (components report'.path))
    (hReport' :
      (Run.final (step hasher) srv events).ramfs.stat
        report'.path = some report'.inode) :
    report'.inode.val = report.inode.val := by
  have hView :=
    view_of_tracks (RamFs.view_of_stat hReport) hTracks
  rw [RamFs.view_of_stat hReport'] at hView
  exact Option.some.inj hView

end Server

end Planten

------------------------------------------------------------
-- What Qids Identify
------------------------------------------------------------

namespace Planten

namespace Server

variable {hasher : Hasher} {srv : Server}

/- Two reports of a run, by the hash of what they report. -/
theorem qid_path_eq_iff
    {reports : List Report}
    {first second : Report}
    (hInj :
      Set.InjOn (fun input => hasher input.1 input.2)
        { input | input ∈ reports.map Report.input })
    (hFirst : first ∈ reports)
    (hSecond : second ∈ reports) :
    (first.qid hasher).path = (second.qid hasher).path ↔
      first.path = second.path ∧
        first.inode.val.mtime = second.inode.val.mtime := by
  constructor
  · intro hEq
    have hInputs :=
      hInj (List.mem_map_of_mem hFirst)
        (List.mem_map_of_mem hSecond) hEq
    exact Prod.mk.inj hInputs
  · rintro ⟨hPath, hTime⟩
    simp only [Report.qid, qidFromInode, hPath, hTime]

/- What a node that nothing goes through is reported with. -/
theorem val_of_reports
    {first last : Event}
    {between : List Event}
    {report report' : Report}
    (hReport : report ∈ srv.reports hasher first)
    (hReport' :
      report' ∈
        (Run.final (step hasher)
          (srv.step hasher first) between).reports hasher
          last)
    (hTracks :
      Tracks hasher
        (fun srv event p => ¬ srv.Modifies event p)
        (srv.step hasher first) (between ++ [last])
        (components report.path)
        (components report'.path)) :
    report'.inode.val = report.inode.val := by
  apply val_of_tracks (stat_of_mem_reports hReport) hTracks
  rw [Run.final_concat]
  exact stat_of_mem_reports hReport'

/- The time a node is reported with after it is written. -/
theorem mtime_of_write
    {conn : Nat}
    {tag : UInt16}
    {body : Bytes}
    {clock : Clock}
    {fid : UInt32}
    {offset : UInt64}
    {buffer : Bytes}
    {path : String}
    {attrs : Attrs}
    {between : List Event}
    {last : Event}
    {report : Report}
    (hDecode :
      Request.decode TWRITE body =
        .ok (.twrite fid offset buffer))
    (hType :
      srv.replyType hasher
          (.request conn TWRITE tag body clock) =
        some RWRITE)
    (hPath : srv.fidPath conn fid = some path)
    (hNonempty : components path ≠ [])
    (hNode : srv.ramfs.view (components path) = some attrs)
    (hReport :
      report ∈
        (Run.final (step hasher)
          (srv.step hasher
            (.request conn TWRITE tag body clock))
          between).reports hasher last)
    (hTracks :
      Tracks hasher
        (fun srv event p => ¬ srv.Modifies event p)
        (srv.step hasher
          (.request conn TWRITE tag body clock))
        (between ++ [last]) (components path)
        (components report.path)) :
    report.inode.val.mtime = asSecs (clock 0) := by
  have hWritten :=
    (actsOnPath hasher hPath).writes tag body clock offset
      buffer attrs hDecode hType hNonempty hNode
  have hHere :
      (srv.step hasher
          (.request conn TWRITE tag body clock)).ramfs.view
          (components path) =
        some
          { attrs with
            data :=
              Inode.splice attrs.data offset.toNat buffer
            mtime := asSecs (clock 0) } := by
    rw [hWritten]
    exact if_pos rfl
  have hLater := view_of_tracks hHere hTracks
  have hStat := stat_of_mem_reports hReport
  rw [Run.final_concat, RamFs.view_of_stat hStat] at hLater
  rw [Option.some.inj hLater]

/-
  In every run in which the inputs of the hash of its reports
  do not collide, every reply holds the qids of its reports.
  Two of them have one `path` exactly when they report one
  path string with one modification time, and one `version`
  exactly when they report one modification time; so reports
  under different key paths never share a `path`.  A node
  that no request goes through in between is reported with
  the same version, and under the same path string with the
  same qid.  A node that is written is reported with the time
  of the write.
-/
theorem qids_identify
    (hasher : Hasher)
    (srv : Server)
    (events : List Event)
    (hInj :
      Set.InjOn (fun input => hasher input.1 input.2)
        { input |
          input ∈
            (runReports hasher srv events).map
              Report.input }) :
    (∀ pre event post,
      events = pre ++ event :: post →
        ∃ reply,
          Step hasher (Run.final (step hasher) srv pre)
              event reply
              (Run.final (step hasher) srv
                (pre ++ [event])) ∧
            ∀ answer,
              reply = some answer →
                answer.Carries hasher
                  ((Run.final (step hasher) srv
                    pre).reports hasher event)) ∧
    (∀ first ∈ runReports hasher srv events,
      ∀ second ∈ runReports hasher srv events,
        ((first.qid hasher).path =
              (second.qid hasher).path ↔
            first.path = second.path ∧
              first.inode.val.mtime =
                second.inode.val.mtime) ∧
          ((first.qid hasher).version =
                (second.qid hasher).version ↔
              first.inode.val.mtime =
                second.inode.val.mtime) ∧
          (components first.path ≠
              components second.path →
            (first.qid hasher).path ≠
              (second.qid hasher).path)) ∧
    (∀ pre first between last post report report',
      events =
          pre ++ first :: (between ++ last :: post) →
        report ∈
            (Run.final (step hasher) srv pre).reports
              hasher first →
          report' ∈
              (Run.final (step hasher) srv
                (pre ++ first :: between)).reports hasher
                last →
            Tracks hasher
                (fun srv event p => ¬ srv.Modifies event p)
                (Run.final (step hasher) srv
                  (pre ++ [first]))
                (between ++ [last]) (components report.path)
                (components report'.path) →
              (report'.qid hasher).version =
                  (report.qid hasher).version ∧
                (report'.path = report.path →
                  report'.qid hasher =
                    report.qid hasher)) ∧
    (∀ pre conn tag body clock between last post fid offset
        buffer path attrs report,
      events =
          pre ++ .request conn TWRITE tag body clock ::
            (between ++ last :: post) →
        Request.decode TWRITE body =
            .ok (.twrite fid offset buffer) →
          (Run.final (step hasher) srv pre).replyType
              hasher
              (.request conn TWRITE tag body clock) =
            some RWRITE →
            (Run.final (step hasher) srv pre).fidPath conn
                fid = some path →
              components path ≠ [] →
                (Run.final (step hasher) srv
                    pre).ramfs.view (components path) =
                  some attrs →
                  report ∈
                      (Run.final (step hasher) srv
                        (pre ++
                          .request conn TWRITE tag body
                            clock :: between)).reports
                        hasher last →
                    Tracks hasher
                        (fun srv event p =>
                          ¬ srv.Modifies event p)
                        (Run.final (step hasher) srv
                          (pre ++
                            [.request conn TWRITE tag body
                              clock]))
                        (between ++ [last])
                        (components path)
                        (components report.path) →
                      (report.qid hasher).version =
                        asSecs (clock 0)) := by
  refine ⟨?_, ?_, ?_, ?_⟩
  · intro pre event post _
    rcases step_spec hasher
      (Run.final (step hasher) srv pre) event with
      ⟨reply, hStep, hType⟩
    rw [Run.final_concat]
    refine ⟨reply, hStep, ?_⟩
    rintro answer rfl
    exact carries_of_step hStep rfl hType
  · intro first hFirst second hSecond
    have hIff := qid_path_eq_iff hInj hFirst hSecond
    refine ⟨hIff, Iff.rfl, ?_⟩
    intro hOther hEq
    exact hOther (congrArg components (hIff.mp hEq).1)
  · intro pre first between last post report report' _
      hReport hReport' hTracks
    rw [Run.final_append, Run.final_cons] at hReport'
    rw [Run.final_concat] at hTracks
    have hVal := val_of_reports hReport hReport' hTracks
    constructor
    · simp only [Report.qid, qidFromInode, hVal]
    · intro hPath
      simp only [Report.qid, qidFromInode, hVal, hPath]
  · intro pre conn tag body clock between last post fid
      offset buffer path attrs report _ hDecode hType hPath
      hNonempty hNode hReport hTracks
    rw [Run.final_append, Run.final_cons] at hReport
    rw [Run.final_concat] at hTracks
    exact mtime_of_write hDecode hType hPath hNonempty hNode
      hReport hTracks

end Server

end Planten

------------------------------------------------------------
-- A Written File
------------------------------------------------------------

namespace Planten

/- A hash of the length of a path string, and of a time. -/
def lengthHasher : Hasher :=
  fun path mtime =>
    UInt64.ofNat (path.length * 2 ^ 32 + mtime.toNat)

/- A stat of the file `a`, through fid 1. -/
def statRequest : Event :=
  .request 0 TSTAT 0 (encodeStatBody 1) (fun _ => 0)

/- A write of one byte to it. -/
def writeRequest (now : SystemTime) : Event :=
  .request 0 TWRITE 0 (encodeWriteBody 1 0 [7])
    (fun _ => now)

/- The file is opened for writing. -/
def writableFile : List Event :=
  openedFile ++
    [.request 0 TOPEN 0 (encodeOpenBody 1 1) (fun _ => 0)]

/- It is written between two stats. -/
def writtenFile (now : SystemTime) : List Event :=
  writableFile ++
    statRequest :: ([writeRequest now] ++ [statRequest])

namespace Server

theorem injOn_of_forall
    {α β : Type}
    {f : α → β}
    {l : List α}
    (hInj : ∀ a ∈ l, ∀ b ∈ l, f a = f b → a = b) :
    Set.InjOn f { a | a ∈ l } :=
  fun a hFirst b hSecond => hInj a hFirst b hSecond

/- Its qid tells it from the root. -/
theorem qids_identify_of_writtenFile :
    ∃ first ∈
        runReports lengthHasher (start (RamFs.fresh 0))
          (writtenFile 6),
      ∃ second ∈
          runReports lengthHasher (start (RamFs.fresh 0))
            (writtenFile 6),
        components first.path ≠ components second.path ∧
          (first.qid lengthHasher).path ≠
            (second.qid lengthHasher).path := by
  have hNodes :
      ∃ first ∈
          runReports lengthHasher (start (RamFs.fresh 0))
            (writtenFile 6),
        ∃ second ∈
            runReports lengthHasher (start (RamFs.fresh 0))
              (writtenFile 6),
          components first.path ≠
            components second.path := by
    decide +kernel
  rcases hNodes with
    ⟨first, hFirst, second, hSecond, hOther⟩
  exact ⟨first, hFirst, second, hSecond, hOther,
    ((qids_identify lengthHasher (start (RamFs.fresh 0))
      (writtenFile 6)
      (injOn_of_forall (by decide +kernel))).2.1 first
        hFirst second hSecond).2.2 hOther⟩

/- Only a Tremove and a Twstat drop a path. -/
theorem not_drops_of_msgType
    {hasher : Hasher}
    {srv : Server}
    {conn : Nat}
    {msgType : UInt8}
    {tag : UInt16}
    {body : Bytes}
    {clock : Clock}
    (hRemove : msgType ≠ TREMOVE)
    (hWstat : msgType ≠ TWSTAT)
    (p : List String) :
    ¬ srv.Drops hasher
      (.request conn msgType tag body clock) p := by
  rintro (⟨d, ⟨_, _, _, _, hAsks, _⟩, _⟩ |
    ⟨_, _, _, ⟨_, _, _, _, _, _, _, hAsks, _⟩, _⟩)
  all_goals
    rcases hAsks with ⟨_, _, _, _, hEq, _, hDecode⟩
    cases hEq
    rcases Request.decode_msgType hDecode with hNot | hType
    · cases hNot
  · exact hRemove (Option.some.inj hType).symm
  · exact hWstat (Option.some.inj hType).symm

/-
  A file that is written gets a new `path`, and two writes in
  one second leave its version, though no two inputs of the
  hash collide.
-/
theorem qid_of_writtenFile :
    (∃ report ∈
        (Run.final (step lengthHasher)
          (start (RamFs.fresh 0)) writableFile).reports
          lengthHasher statRequest,
      ∃ report' ∈
          (Run.final (step lengthHasher)
            (start (RamFs.fresh 0))
            (writableFile ++
              statRequest :: [writeRequest 6])).reports
            lengthHasher statRequest,
        Set.InjOn
            (fun input => lengthHasher input.1 input.2)
            { input |
              input ∈
                (runReports lengthHasher
                  (start (RamFs.fresh 0))
                  (writtenFile 6)).map Report.input } ∧
          Tracks lengthHasher (fun _ _ _ => True)
            (Run.final (step lengthHasher)
              (start (RamFs.fresh 0))
              (writableFile ++ [statRequest]))
            ([writeRequest 6] ++ [statRequest])
            (components report.path)
            (components report'.path) ∧
          (report'.qid lengthHasher).path ≠
            (report.qid lengthHasher).path) ∧
    (∃ report ∈
        (Run.final (step lengthHasher)
          (start (RamFs.fresh 0)) writableFile).reports
          lengthHasher statRequest,
      ∃ report' ∈
          (Run.final (step lengthHasher)
            (start (RamFs.fresh 0))
            (writableFile ++
              statRequest :: [writeRequest 0])).reports
            lengthHasher statRequest,
        components report'.path = components report.path ∧
          report'.inode.val.data ≠ report.inode.val.data ∧
          (report'.qid lengthHasher).version =
            (report.qid lengthHasher).version) := by
  have hBefore :
      ∃ report ∈
          (Run.final (step lengthHasher)
            (start (RamFs.fresh 0)) writableFile).reports
            lengthHasher statRequest,
        report.path = "/a" ∧
          report.inode.val.mtime = 0 ∧
          report.inode.val.data = [] := by
    decide +kernel
  have hAfter (now : SystemTime)
      (hNow : now = 0 ∨ now = 6) :
      ∃ report ∈
          (Run.final (step lengthHasher)
            (start (RamFs.fresh 0))
            (writableFile ++
              statRequest :: [writeRequest now])).reports
            lengthHasher statRequest,
        report.path = "/a" ∧
          report.inode.val.mtime = asSecs now ∧
          report.inode.val.data = [7] := by
    rcases hNow with rfl | rfl
    · decide +kernel
    · decide +kernel
  rcases hBefore with
    ⟨report, hReport, hPath, hTime, hData⟩
  constructor
  · rcases hAfter 6 (Or.inr rfl) with
      ⟨report', hReport', hPath', hTime', hData'⟩
    refine ⟨report, hReport, report', hReport', ?_, ?_, ?_⟩
    · exact injOn_of_forall (by decide +kernel)
    · rw [hPath, hPath']
      exact .stays trivial
        (not_drops_of_msgType (by decide) (by decide) _)
        (.stays trivial
          (not_drops_of_msgType (by decide) (by decide) _)
          .done)
    · simp only [Report.qid, qidFromInode, hPath, hPath',
        hTime, hTime']
      decide
  · rcases hAfter 0 (Or.inl rfl) with
      ⟨report', hReport', hPath', hTime', hData'⟩
    refine ⟨report, hReport, report', hReport', ?_, ?_, ?_⟩
    · rw [hPath, hPath']
    · rw [hData, hData']
      decide
    · exact hTime'.trans hTime.symm

end Server

end Planten
