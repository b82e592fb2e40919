import Planten.PseudoFs.Loop

/-
  What a request does in one of the pseudo servers.

  A decoded request has one of a fixed list of effects on the
  fid table, each with its reply, or it runs into one of a
  fixed list of hazards and panics.

  Key definitions include:
    * `FindsStep`
    * `Loop.Refusal`
    * `Loop.Effect`
    * `Loop.Hazard`

  Key theorems include:
    * `walkAlong_spec`
    * `Loop.effect_of_handle`
    * `Loop.panics_iff_hazard`
-/

------------------------------------------------------------
-- Walks
------------------------------------------------------------

namespace Planten

variable {H : Type}

/- The path step `i` of a walk looks up. -/
def stepPath
    (names : List String)
    (base : String)
    (i : Nat) : String :=
  (names.take (i + 1)).foldl resolvePath base

/- Step `i` of a walk finds its node. -/
def FindsStep
    (fs : FsServer H)
    (hosts : Nat → Host H)
    (names : List String)
    (base : String)
    (i : Nat) : Prop :=
  fs.Finds (hosts i) (stepPath names base i)

/- How a walk ends, by the first step that goes wrong. -/
inductive WalkEnds
    (fs : FsServer H)
    (k : Nat)
    (hosts : Nat → Host H)
    (names : List String)
    (base : String)
    (qids : List Qid) :
    Except Panic (Option (String × List Qid)) → Prop where
| arrives
    (newQids : List Qid)
    (hCount : newQids.length = names.length)
    (hSteps :
      ∀ i < names.length,
        FindsStep fs hosts names base i ∧
          0 ≤ (hosts i).clock k) :
    WalkEnds fs k hosts names base qids
      (.ok (some (names.foldl resolvePath base,
        qids ++ newQids)))
| missing
    {i : Nat}
    (hBound : i < names.length)
    (hSteps :
      ∀ j < i,
        FindsStep fs hosts names base j ∧
          0 ≤ (hosts j).clock k)
    (hMissing : ¬ FindsStep fs hosts names base i) :
    WalkEnds fs k hosts names base qids (.ok none)
| panics
    {i : Nat}
    (hBound : i < names.length)
    (hSteps :
      ∀ j < i,
        FindsStep fs hosts names base j ∧
          0 ≤ (hosts j).clock k)
    (hFinds : FindsStep fs hosts names base i)
    (hBefore : (hosts i).clock k < 0) :
    WalkEnds fs k hosts names base qids
      (.error .unwrapFailed)

variable {fs : FsServer H} {k : Nat}
variable {hosts : Nat → Host H}

/- A walk from call `n` on reads the later hosts. -/
theorem walkAlong_shift
    (fs : FsServer H)
    (hosts : Nat → Host H)
    (n : Nat)
    (names : List String)
    (base : String)
    (qids : List Qid) :
    walkAlong fs hosts (n + 1) names base qids =
      walkAlong fs (fun j => hosts (j + 1)) n names base
        qids := by
  induction names generalizing n base qids with
  | nil =>
      rfl
  | cons name names ih =>
      simp only [walkAlong, ih]

/- The first step and the steps of the rest of a walk. -/
theorem steps_cons
    {name : String}
    {names : List String}
    {base : String}
    {n : Nat}
    (hFinds : fs.Finds (hosts 0) (resolvePath base name))
    (hClock : 0 ≤ (hosts 0).clock k)
    (hSteps :
      ∀ i < n,
        FindsStep fs (fun j => hosts (j + 1)) names
            (resolvePath base name) i ∧
          0 ≤ (hosts (i + 1)).clock k) :
    ∀ i < n + 1,
      FindsStep fs hosts (name :: names) base i ∧
        0 ≤ (hosts i).clock k := by
  intro i hBound
  cases i with
  | zero =>
      exact ⟨hFinds, hClock⟩
  | succ i =>
      exact hSteps i (Nat.lt_of_succ_lt_succ hBound)

/- A walk whose first step passes ends as its rest does. -/
theorem walkEnds_cons
    {name : String}
    {names : List String}
    {base : String}
    {qids : List Qid}
    {result : Except Panic (Option (String × List Qid))}
    (inode : Attrs)
    (hFinds : fs.Finds (hosts 0) (resolvePath base name))
    (hClock : 0 ≤ (hosts 0).clock k)
    (hRest :
      WalkEnds fs k (fun j => hosts (j + 1)) names
        (resolvePath base name) (qids ++ [kindQid inode])
        result) :
    WalkEnds fs k hosts (name :: names) base qids result := by
  cases hRest with
  | arrives newQids hCount hSteps =>
      rw [List.append_assoc]
      exact .arrives (kindQid inode :: newQids)
        (congrArg Nat.succ hCount)
        (steps_cons hFinds hClock hSteps)
  | missing hBound hSteps hMissing =>
      exact .missing (Nat.succ_lt_succ hBound)
        (steps_cons hFinds hClock hSteps) hMissing
  | panics hBound hSteps hFound hBefore =>
      exact .panics (Nat.succ_lt_succ hBound)
        (steps_cons hFinds hClock hSteps) hFound hBefore

/- Every walk ends in one of the three ways. -/
theorem walkAlong_spec
    (hLaw : fs.StatLaw k)
    (hosts : Nat → Host H)
    (names : List String)
    (base : String)
    (qids : List Qid) :
    WalkEnds fs k hosts names base qids
      (walkAlong fs hosts 0 names base qids) := by
  induction names generalizing hosts base qids with
  | nil =>
      have hArrives :
          WalkEnds fs k hosts [] base qids
            (.ok (some (base, qids ++ []))) :=
        .arrives [] rfl (fun i hBound =>
          absurd hBound (Nat.not_lt_zero i))
      rwa [List.append_nil] at hArrives
  | cons name names ih =>
      rw [walkAlong]
      cases hStat :
        fs.stat (hosts 0) (resolvePath base name) with
      | error cause =>
          have hFound := hLaw.finds_of_error hStat
          have hCause :=
            hStat.symm.trans (hLaw.panics _ _ hFound.1
              hFound.2)
          cases hCause
          exact .panics (Nat.zero_lt_succ _)
            (fun j hBound => absurd hBound
              (Nat.not_lt_zero j))
            hFound.1 hFound.2
      | ok found =>
          cases found with
          | none =>
              exact .missing (Nat.zero_lt_succ _)
                (fun j hBound => absurd hBound
                  (Nat.not_lt_zero j))
                (hLaw.not_finds_of_none hStat)
          | some inode =>
              have hFound := hLaw.finds_of_some hStat
              have hTail :=
                ih (fun j => hosts (j + 1))
                  (resolvePath base name)
                  (qids ++ [kindQid inode])
              rw [← walkAlong_shift] at hTail
              exact walkEnds_cons inode hFound.1 hFound.2
                hTail

end Planten

------------------------------------------------------------
-- Effects and Hazards
------------------------------------------------------------

namespace Planten

namespace Loop

variable {H : Type}

/- Why a request is refused, and the text that says so. -/
inductive Refusal
    (loop : Loop H)
    (access : Access H)
    (fids : FidTable) : PseudoRequest → String → Prop where
| unsupported :
    Refusal loop access fids .unsupported loop.otherError
| walkMissing
    {fid newfid : UInt32} {names : List String} {i : Nat}
    (hBound : i < names.length)
    (hSteps :
      ∀ j < i,
        FindsStep loop.fs access.hosts names
            (loop.basePath fids fid) j ∧
          0 ≤ (access.hosts j).clock loop.statClock)
    (hMissing :
      ¬ FindsStep loop.fs access.hosts names
        (loop.basePath fids fid) i) :
    Refusal loop access fids (.twalk fid newfid names)
      loop.walkError
| openUnknown
    {fid : UInt32} {mode : Option UInt8}
    (hNone : fids.lookup fid = none) :
    Refusal loop access fids (.topen fid mode)
      loop.openError
| openMissing
    {fid : UInt32} {mode : UInt8} {state : FidState}
    (hOpens : loop.opensFiles = true)
    (hFid : fids.lookup fid = some state)
    (hMissing :
      ¬ loop.fs.Finds (access.hosts 0) state.path) :
    Refusal loop access fids (.topen fid (some mode))
      "file not found"
| readUnknown
    {fid : UInt32} {offset : UInt64} {count : UInt32}
    (hNone : fids.lookup fid = none) :
    Refusal loop access fids (.tread fid offset count)
      "fid not found"
| readMissing
    {fid : UInt32} {offset : UInt64} {count : UInt32}
    {state : FidState}
    (hFid : fids.lookup fid = some state)
    (hData :
      loop.fs.read (access.hosts 0) state.path = none) :
    Refusal loop access fids (.tread fid offset count)
      "read failed"
| statUnknown
    {fid : UInt32}
    (hNone : fids.lookup fid = none) :
    Refusal loop access fids (.tstat fid) "fid not found"
| statMissing
    {fid : UInt32} {state : FidState}
    (hFid : fids.lookup fid = some state)
    (hMissing :
      ¬ loop.fs.Finds (access.hosts 0) state.path) :
    Refusal loop access fids (.tstat fid) "stat failed"

/-
  Everything an answered request can do: the fid table after
  it, and the reply.
-/
inductive Effect
    (loop : Loop H)
    (access : Access H)
    (fids : FidTable) :
    PseudoRequest → FidTable → Reply → Prop where
| version
    {msize : UInt32} {version : String} :
    Effect loop access fids (.tversion msize version) fids
      (versionReply msize version)
| attach
    {fid afid : UInt32} {uname aname : String} :
    Effect loop access fids (.tattach fid afid uname aname)
      (KeyMap.insert fid (FidState.new "/" loop.rootQid)
        fids)
      (.rattach loop.rootQid)
| walk
    {fid newfid : UInt32} {names : List String}
    {qids : List Qid}
    (hCount : qids.length = names.length)
    (hSteps :
      ∀ i < names.length,
        FindsStep loop.fs access.hosts names
            (loop.basePath fids fid) i ∧
          0 ≤ (access.hosts i).clock loop.statClock)
    (hWalk :
      walkAlong loop.fs access.hosts 0 names
          (loop.basePath fids fid) [] =
        .ok (some (names.foldl resolvePath
          (loop.basePath fids fid), qids))) :
    Effect loop access fids (.twalk fid newfid names)
      (KeyMap.insert newfid
        (FidState.new
          (names.foldl resolvePath (loop.basePath fids fid))
          (qids.getLast?.getD loop.rootQid)) fids)
      (.rwalk qids)
| opened
    {fid : UInt32} {mode : UInt8} {state : FidState}
    (hOpens : loop.opensFiles = true)
    (hFid : fids.lookup fid = some state)
    (hFinds :
      loop.fs.Finds (access.hosts 0) state.path) :
    Effect loop access fids (.topen fid (some mode))
      (KeyMap.insert fid
        { state with openMode := some mode } fids)
      (.ropen state.qid MAX_MSG_SIZE)
| openIgnored
    {fid : UInt32} {mode : Option UInt8} {state : FidState}
    (hOpens : loop.opensFiles = false)
    (hFid : fids.lookup fid = some state) :
    Effect loop access fids (.topen fid mode) fids
      (.ropen state.qid MAX_MSG_SIZE)
| read
    {fid : UInt32} {offset : UInt64} {count : UInt32}
    {state : FidState} {data : Bytes}
    (hFid : fids.lookup fid = some state)
    (hData :
      loop.fs.read (access.hosts 0) state.path = some data) :
    Effect loop access fids (.tread fid offset count) fids
      (.rread ((data.drop offset.toNat).take count.toNat))
| stat
    {fid : UInt32} {state : FidState} {inode : Attrs}
    (hFid : fids.lookup fid = some state)
    (hStat :
      loop.fs.stat (access.hosts 0) state.path =
        .ok (some inode)) :
    Effect loop access fids (.tstat fid) fids
      (.rstat (loop.record state inode))
| clunk {fid : UInt32} :
    Effect loop access fids (.tclunk fid)
      (KeyMap.erase fid fids) .rclunk
| refused
    {req : PseudoRequest} {message : String}
    (hRefusal : loop.Refusal access fids req message) :
    Effect loop access fids req fids (.rerror message)

/- Everything that makes a request panic. -/
inductive Hazard
    (loop : Loop H)
    (access : Access H)
    (fids : FidTable) : PseudoRequest → Prop where
| attachClock
    {fid afid : UInt32} {uname aname : String}
    (hMakes : loop.makesRoot = true)
    (hBefore : (access.hosts 0).clock 0 < 0) :
    Hazard loop access fids (.tattach fid afid uname aname)
| walkLock
    {fid newfid : UInt32} {names : List String}
    (hPoisoned : access.poisoned = true) :
    Hazard loop access fids (.twalk fid newfid names)
| walkRoot
    {fid newfid : UInt32}
    (hMakes : loop.makesRoot = true)
    (hBefore : (access.hosts 0).clock 0 < 0) :
    Hazard loop access fids (.twalk fid newfid [])
| walkClock
    {fid newfid : UInt32} {names : List String} {i : Nat}
    (hBound : i < names.length)
    (hFinds :
      ∀ j ≤ i,
        FindsStep loop.fs access.hosts names
          (loop.basePath fids fid) j)
    (hBefore :
      (access.hosts i).clock loop.statClock < 0) :
    Hazard loop access fids (.twalk fid newfid names)
| openMode
    {fid : UInt32}
    (hOpens : loop.opensFiles = true) :
    Hazard loop access fids (.topen fid none)
| openLock
    {fid : UInt32} {mode : UInt8}
    (hOpens : loop.opensFiles = true)
    (hPoisoned : access.poisoned = true) :
    Hazard loop access fids (.topen fid (some mode))
| openClock
    {fid : UInt32} {mode : UInt8} {state : FidState}
    (hOpens : loop.opensFiles = true)
    (hFid : fids.lookup fid = some state)
    (hFinds : loop.fs.Finds (access.hosts 0) state.path)
    (hBefore :
      (access.hosts 0).clock loop.statClock < 0) :
    Hazard loop access fids (.topen fid (some mode))
| readLock
    {fid : UInt32} {offset : UInt64} {count : UInt32}
    (hTakes :
      loop.locksFirst = true ∨ (fids.lookup fid).isSome)
    (hPoisoned : access.poisoned = true) :
    Hazard loop access fids (.tread fid offset count)
| readEnd
    {fid : UInt32} {offset : UInt64} {count : UInt32}
    {state : FidState} {data : Bytes}
    (hFid : fids.lookup fid = some state)
    (hData :
      loop.fs.read (access.hosts 0) state.path = some data)
    (hEnd : 2 ^ 64 ≤ offset.toNat + count.toNat) :
    Hazard loop access fids (.tread fid offset count)
| readSize
    {fid : UInt32} {offset : UInt64} {count : UInt32}
    {state : FidState} {data : Bytes}
    (hFid : fids.lookup fid = some state)
    (hData :
      loop.fs.read (access.hosts 0) state.path = some data)
    (hLow :
      2 ^ 32 - 11 ≤
        min count.toNat (data.length - offset.toNat))
    (hHigh :
      min count.toNat (data.length - offset.toNat) ≤
        2 ^ 32 - 5) :
    Hazard loop access fids (.tread fid offset count)
| statLock
    {fid : UInt32}
    (hTakes :
      loop.locksFirst = true ∨ (fids.lookup fid).isSome)
    (hPoisoned : access.poisoned = true) :
    Hazard loop access fids (.tstat fid)
| statClock
    {fid : UInt32} {state : FidState}
    (hFid : fids.lookup fid = some state)
    (hFinds : loop.fs.Finds (access.hosts 0) state.path)
    (hBefore :
      (access.hosts 0).clock loop.statClock < 0) :
    Hazard loop access fids (.tstat fid)
| statSize
    {fid : UInt32} {state : FidState} {inode : Attrs}
    (hFid : fids.lookup fid = some state)
    (hStat :
      loop.fs.stat (access.hosts 0) state.path =
        .ok (some inode))
    (hSize :
      2 ^ 32 ≤
        7 + (encodeStatPayload
          (loop.record state inode)).length % 2 ^ 32) :
    Hazard loop access fids (.tstat fid)

end Loop

end Planten

------------------------------------------------------------
-- Answered Requests
------------------------------------------------------------

namespace Planten

/- A read takes its chunk when its end does not overflow. -/
theorem fileWindow_of_fits
    {offset : UInt64}
    {count : UInt32}
    (hFits : offset.toNat + count.toNat < 2 ^ 64)
    (profile : Profile)
    (data : Bytes) :
    fileWindow profile data offset count =
      .ok ((data.drop offset.toNat).take count.toNat) := by
  simp only [fileWindow]
  rw [usizeAdd_of_lt hFits]
  change (if offset.toNat <
    min (offset.toNat + count.toNat) data.length then _
      else _) = _
  split
  · rename_i hInside
    exact slice_window (by omega) count.toNat
  · rename_i hOutside
    congr 1
    apply Eq.symm
    rw [List.take_eq_nil_iff, List.drop_eq_nil_iff]
    omega

/- The chunk of a read, or the overflow of its end. -/
theorem fileWindow_eq
    (data : Bytes)
    (offset : UInt64)
    (count : UInt32) :
    fileWindow .dev data offset count =
      if 2 ^ 64 ≤ offset.toNat + count.toNat then
        .error .addOverflow
      else
        .ok ((data.drop offset.toNat).take count.toNat) := by
  by_cases hWraps : 2 ^ 64 ≤ offset.toNat + count.toNat
  · have hAdd :
        usizeAdd .dev offset.toNat count.toNat =
          .error .addOverflow :=
      if_neg (not_lt.mpr hWraps)
    simp only [fileWindow]
    rw [if_pos hWraps, hAdd]
    rfl
  · rw [if_neg hWraps]
    exact fileWindow_of_fits (not_le.mp hWraps) .dev data

namespace Loop

variable {H : Type}
variable {loop : Loop H} {access : Access H}
variable {fids fids' : FidTable} {reply : Reply}

theorem root_eq_ok
    {host : Host H}
    {qid : Qid}
    (hRoot : loop.root host = .ok qid) :
    qid = loop.rootQid := by
  unfold root at hRoot
  split at hRoot
  · cases hRoot
  · cases hRoot
    rfl

/- The qid of a walk that is answered. -/
theorem walkQid_eq_ok
    {host : Host H}
    {qids : List Qid}
    {qid : Qid}
    (hQid : loop.walkQid host qids = .ok qid) :
    qid = qids.getLast?.getD loop.rootQid := by
  unfold walkQid at hQid
  split at hQid
  · rename_i last hLast
    cases hQid
    rw [hLast]
    rfl
  · rename_i hLast
    rw [hLast]
    exact root_eq_ok hQid

theorem effect_of_handleAttach
    {fid : UInt32}
    (afid : UInt32)
    (uname aname : String)
    (hHandle :
      loop.handleAttach access fids fid =
        .ok (fids', reply)) :
    loop.Effect access fids (.tattach fid afid uname aname)
      fids' reply := by
  rw [handleAttach, bind_eq_ok_iff] at hHandle
  rcases hHandle with ⟨qid, hRoot, hReply⟩
  cases root_eq_ok hRoot
  cases hReply
  exact .attach

theorem effect_of_handleWalk
    {fid newfid : UInt32}
    {names : List String}
    (hHandle :
      loop.handleWalk access fids fid newfid names =
        .ok (fids', reply)) :
    loop.Effect access fids (.twalk fid newfid names) fids'
      reply := by
  rw [handleWalk, bind_eq_ok_iff] at hHandle
  rcases hHandle with ⟨_, _, hHandle⟩
  rw [bind_eq_ok_iff] at hHandle
  rcases hHandle with ⟨found, hWalk, hHandle⟩
  have hEnds :=
    walkAlong_spec loop.statLaw access.hosts names
      (loop.basePath fids fid) []
  rw [hWalk] at hEnds
  cases hEnds with
  | arrives qids hCount hSteps =>
      simp only [bind_eq_ok_iff] at hHandle
      rcases hHandle with ⟨qid, hQid, hReply⟩
      cases walkQid_eq_ok hQid
      cases hReply
      exact .walk hCount hSteps hWalk
  | missing hBound hSteps hMissing =>
      cases hHandle
      exact .refused (.walkMissing hBound hSteps hMissing)

theorem effect_of_handleOpen
    {fid : UInt32}
    {mode : Option UInt8}
    (hHandle :
      loop.handleOpen access fids fid mode =
        .ok (fids', reply)) :
    loop.Effect access fids (.topen fid mode) fids'
      reply := by
  unfold handleOpen at hHandle
  cases hOpens : loop.opensFiles with
  | true =>
      rw [if_pos hOpens] at hHandle
      cases mode with
      | none =>
          cases hHandle
      | some mode =>
          rw [bind_eq_ok_iff] at hHandle
          rcases hHandle with ⟨_, _, hHandle⟩
          cases hFid : fids.lookup fid with
          | none =>
              rw [hFid] at hHandle
              cases hHandle
              exact .refused (.openUnknown hFid)
          | some state =>
              simp only [hFid, bind_eq_ok_iff] at hHandle
              rcases hHandle with ⟨found, hStat, hReply⟩
              cases found with
              | none =>
                  cases hReply
                  exact .refused (.openMissing hOpens hFid
                    (loop.statLaw.not_finds_of_none hStat))
              | some inode =>
                  cases hReply
                  exact .opened hOpens hFid
                    (loop.statLaw.finds_of_some hStat).1
  | false =>
      rw [if_neg (by simp [hOpens])] at hHandle
      cases hFid : fids.lookup fid with
      | none =>
          rw [hFid] at hHandle
          cases hHandle
          exact .refused (.openUnknown hFid)
      | some state =>
          rw [hFid] at hHandle
          cases hHandle
          exact .openIgnored hOpens hFid

theorem effect_of_handleRead
    {fid : UInt32}
    {offset : UInt64}
    {count : UInt32}
    (hHandle :
      loop.handleRead access fids fid offset count =
        .ok (fids', reply)) :
    loop.Effect access fids (.tread fid offset count) fids'
      reply := by
  rw [handleRead, bind_eq_ok_iff] at hHandle
  rcases hHandle with ⟨_, _, hHandle⟩
  cases hFid : fids.lookup fid with
  | none =>
      rw [hFid] at hHandle
      cases hHandle
      exact .refused (.readUnknown hFid)
  | some state =>
      simp only [hFid] at hHandle
      cases hData :
        loop.fs.read (access.hosts 0) state.path with
      | none =>
          rw [hData] at hHandle
          cases hHandle
          exact .refused (.readMissing hFid hData)
      | some data =>
          simp only [hData, bind_eq_ok_iff] at hHandle
          rcases hHandle with ⟨chunk, hWindow, hReply⟩
          rw [fileWindow_eq] at hWindow
          split at hWindow
          · cases hWindow
          · cases hWindow
            cases hReply
            exact .read hFid hData

theorem effect_of_handleStat
    {fid : UInt32}
    (hHandle :
      loop.handleStat access fids fid = .ok (fids', reply)) :
    loop.Effect access fids (.tstat fid) fids' reply := by
  rw [handleStat, bind_eq_ok_iff] at hHandle
  rcases hHandle with ⟨_, _, hHandle⟩
  cases hFid : fids.lookup fid with
  | none =>
      rw [hFid] at hHandle
      cases hHandle
      exact .refused (.statUnknown hFid)
  | some state =>
      simp only [hFid, bind_eq_ok_iff] at hHandle
      rcases hHandle with ⟨found, hStat, hReply⟩
      cases found with
      | none =>
          cases hReply
          exact .refused (.statMissing hFid
            (loop.statLaw.not_finds_of_none hStat))
      | some inode =>
          cases hReply
          exact .stat hFid hStat

/- An answered request has one of the effects. -/
theorem effect_of_handle
    {req : PseudoRequest}
    (hHandle :
      loop.handle access fids req = .ok (fids', reply)) :
    loop.Effect access fids req fids' reply := by
  cases req with
  | tversion msize version =>
      cases hHandle
      exact .version
  | tattach fid afid uname aname =>
      exact effect_of_handleAttach afid uname aname hHandle
  | twalk fid newfid names =>
      exact effect_of_handleWalk hHandle
  | topen fid mode =>
      exact effect_of_handleOpen hHandle
  | tread fid offset count =>
      exact effect_of_handleRead hHandle
  | tstat fid =>
      exact effect_of_handleStat hHandle
  | tclunk fid =>
      cases hHandle
      exact .clunk
  | unsupported =>
      cases hHandle
      exact .refused .unsupported

end Loop

end Planten

------------------------------------------------------------
-- Panicking Requests
------------------------------------------------------------

namespace Planten

namespace Loop

variable {H : Type}
variable {loop : Loop H} {access : Access H}
variable {fids : FidTable} {cause : Panic}

theorem root_eq_error
    {host : Host H}
    (hRoot : loop.root host = .error cause) :
    loop.makesRoot = true ∧ host.clock 0 < 0 := by
  unfold root at hRoot
  split at hRoot
  · rename_i hMakes
    exact hMakes
  · cases hRoot

theorem root_of_before
    {host : Host H}
    (hMakes : loop.makesRoot = true)
    (hBefore : host.clock 0 < 0) :
    loop.root host = .error .unwrapFailed :=
  if_pos ⟨hMakes, hBefore⟩

theorem lock_eq_error
    (hLock : access.lock = .error cause) :
    access.poisoned = true := by
  unfold Access.lock at hLock
  split at hLock
  · rename_i hPoisoned
    exact hPoisoned
  · cases hLock

theorem lock_of_poisoned
    (hPoisoned : access.poisoned = true) :
    access.lock = .error .poisonedLock :=
  if_pos hPoisoned

theorem lockFor_eq_error
    {fid : UInt32}
    (hLock : loop.lockFor access fids fid = .error cause) :
    (loop.locksFirst = true ∨ (fids.lookup fid).isSome) ∧
      access.poisoned = true := by
  unfold lockFor at hLock
  split at hLock
  · rename_i hTakes
    exact ⟨hTakes, lock_eq_error hLock⟩
  · cases hLock

theorem hazard_of_handleWalk
    {fid newfid : UInt32}
    {names : List String}
    (hHandle :
      loop.handleWalk access fids fid newfid names =
        .error cause) :
    loop.Hazard access fids (.twalk fid newfid names) := by
  rw [handleWalk, bind_eq_error_iff] at hHandle
  rcases hHandle with hLock | ⟨_, _, hHandle⟩
  · exact .walkLock (lock_eq_error hLock)
  · have hEnds :=
      walkAlong_spec loop.statLaw access.hosts names
        (loop.basePath fids fid) []
    revert hHandle hEnds
    generalize walkAlong loop.fs access.hosts 0 names
      (loop.basePath fids fid) [] = result
    intro hHandle hEnds
    cases hEnds with
    | panics hBound hSteps hFinds hBefore =>
        apply Hazard.walkClock hBound _ hBefore
        intro j hUpTo
        rcases Nat.lt_or_eq_of_le hUpTo with hLess | rfl
        · exact (hSteps j hLess).1
        · exact hFinds
    | missing hBound hSteps hMissing =>
        cases hHandle
    | arrives qids hCount hSteps =>
        change ((loop.walkQid (access.hosts 0) qids) >>= _) =
          _ at hHandle
        rw [bind_eq_error_iff] at hHandle
        rcases hHandle with hQid | ⟨_, _, hReply⟩
        · unfold walkQid at hQid
          split at hQid
          · cases hQid
          · rename_i hNone
            have hEmpty : names = [] := by
              rw [List.getLast?_eq_none_iff] at hNone
              rw [← List.length_eq_zero_iff, ← hCount, hNone]
              rfl
            subst hEmpty
            have hRoot := root_eq_error hQid
            exact .walkRoot hRoot.1 hRoot.2
        · cases hReply

theorem hazard_of_handleOpen
    {fid : UInt32}
    {mode : Option UInt8}
    (hHandle :
      loop.handleOpen access fids fid mode =
        .error cause) :
    loop.Hazard access fids (.topen fid mode) := by
  unfold handleOpen at hHandle
  cases hOpens : loop.opensFiles with
  | true =>
      rw [if_pos hOpens] at hHandle
      cases mode with
      | none =>
          exact .openMode hOpens
      | some mode =>
          rw [bind_eq_error_iff] at hHandle
          rcases hHandle with hLock | ⟨_, _, hHandle⟩
          · exact .openLock hOpens (lock_eq_error hLock)
          · cases hFid : fids.lookup fid with
            | none =>
                rw [hFid] at hHandle
                cases hHandle
            | some state =>
                simp only [hFid, bind_eq_error_iff]
                  at hHandle
                rcases hHandle with
                  hStat | ⟨found, _, hReply⟩
                · have hFinds :=
                    loop.statLaw.finds_of_error hStat
                  exact .openClock hOpens hFid hFinds.1
                    hFinds.2
                · cases found <;> cases hReply
  | false =>
      rw [if_neg (by simp [hOpens])] at hHandle
      cases hFid : fids.lookup fid with
      | none | some state =>
          rw [hFid] at hHandle
          cases hHandle

/- A read panics at its lock or at its end. -/
theorem handleRead_eq_error
    {fid : UInt32}
    {offset : UInt64}
    {count : UInt32}
    (hHandle :
      loop.handleRead access fids fid offset count =
        .error cause) :
    ((loop.locksFirst = true ∨ (fids.lookup fid).isSome) ∧
        access.poisoned = true) ∨
      ∃ state data,
        fids.lookup fid = some state ∧
          loop.fs.read (access.hosts 0) state.path =
            some data ∧
          2 ^ 64 ≤ offset.toNat + count.toNat := by
  rw [handleRead, bind_eq_error_iff] at hHandle
  rcases hHandle with hLock | ⟨_, _, hHandle⟩
  · exact .inl (lockFor_eq_error hLock)
  · cases hFid : fids.lookup fid with
    | none =>
        rw [hFid] at hHandle
        cases hHandle
    | some state =>
        simp only [hFid] at hHandle
        cases hData :
          loop.fs.read (access.hosts 0) state.path with
        | none =>
            rw [hData] at hHandle
            cases hHandle
        | some data =>
            simp only [hData, bind_eq_error_iff] at hHandle
            rcases hHandle with hWindow | ⟨_, _, hReply⟩
            · rw [fileWindow_eq] at hWindow
              split at hWindow
              · exact .inr ⟨state, data, rfl, hData, ‹_›⟩
              · cases hWindow
            · cases hReply

/- A stat panics at its lock or at its clock. -/
theorem handleStat_eq_error
    {fid : UInt32}
    (hHandle :
      loop.handleStat access fids fid = .error cause) :
    ((loop.locksFirst = true ∨ (fids.lookup fid).isSome) ∧
        access.poisoned = true) ∨
      ∃ state,
        fids.lookup fid = some state ∧
          loop.fs.Finds (access.hosts 0) state.path ∧
          (access.hosts 0).clock loop.statClock < 0 := by
  rw [handleStat, bind_eq_error_iff] at hHandle
  rcases hHandle with hLock | ⟨_, _, hHandle⟩
  · exact .inl (lockFor_eq_error hLock)
  · cases hFid : fids.lookup fid with
    | none =>
        rw [hFid] at hHandle
        cases hHandle
    | some state =>
        simp only [hFid, bind_eq_error_iff] at hHandle
        rcases hHandle with hStat | ⟨found, _, hReply⟩
        · have hFinds := loop.statLaw.finds_of_error hStat
          exact .inr ⟨state, rfl, hFinds⟩
        · cases found <;> cases hReply

/- A handler that panics ran into a hazard. -/
theorem hazard_of_handle
    {req : PseudoRequest}
    (hHandle :
      loop.handle access fids req = .error cause) :
    loop.Hazard access fids req := by
  cases req with
  | tversion msize version | tclunk fid | unsupported =>
      cases hHandle
  | tattach fid afid uname aname =>
      change loop.handleAttach access fids fid = _ at hHandle
      rw [handleAttach, bind_eq_error_iff] at hHandle
      rcases hHandle with hRoot | ⟨_, _, hReply⟩
      · have hBefore := root_eq_error hRoot
        exact .attachClock hBefore.1 hBefore.2
      · cases hReply
  | twalk fid newfid names =>
      exact hazard_of_handleWalk hHandle
  | topen fid mode =>
      exact hazard_of_handleOpen hHandle
  | tread fid offset count =>
      rcases handleRead_eq_error hHandle with
        ⟨hTakes, hPoisoned⟩ | ⟨state, data, hFid, hData, hEnd⟩
      · exact .readLock hTakes hPoisoned
      · exact .readEnd hFid hData hEnd
  | tstat fid =>
      rcases handleStat_eq_error hHandle with
        ⟨hTakes, hPoisoned⟩ | ⟨state, hFid, hFinds, hBefore⟩
      · exact .statLock hTakes hPoisoned
      · exact .statClock hFid hFinds hBefore

/- The two versions are six and seven bytes long. -/
theorem length_body_versionReply
    (msize : UInt32)
    (version : String) :
    (versionReply msize version).body.length =
      if version = VERSION_STRING then 12 else 13 := by
  unfold versionReply
  split
  · rw [Reply.body, List.length_append, length_u32le,
      length_encodeString]
    rfl
  · rw [Reply.body, List.length_append, length_u32le,
      length_encodeString]
    rfl

/- The text of a refusal is short. -/
theorem short_of_refusal
    {req : PseudoRequest}
    {message : String}
    (hRefusal : loop.Refusal access fids req message) :
    message.utf8ByteSize ≤ 32 := by
  have hTexts := loop.textsFit
  simp only [List.forall_mem_cons] at hTexts
  cases hRefusal with
  | unsupported =>
      exact hTexts.2.2.1
  | walkMissing hBound hSteps hMissing =>
      exact hTexts.1
  | openUnknown hNone =>
      exact hTexts.2.1
  | openMissing hOpens hFid hMissing
  | readUnknown hNone
  | readMissing hFid hData
  | statUnknown hNone
  | statMissing hFid hMissing =>
      decide

/- Only the replies with data may not fit their frame. -/
theorem hazard_of_frame
    {req : PseudoRequest}
    {fids' : FidTable}
    {reply : Reply}
    {tag : UInt16}
    (hNames : req.names.length ≤ 65535)
    (hEffect : loop.Effect access fids req fids' reply)
    (hFrame : reply.frame tag = .error cause) :
    loop.Hazard access fids req := by
  have hNotSmall : ¬ reply.Small := by
    intro hSmall
    cases (hSmall.frame tag).symm.trans hFrame
  cases hEffect with
  | version =>
      apply absurd (small_of_fixed _) hNotSmall
      rw [length_body_versionReply]
      split <;> omega
  | attach | opened hOpens hFid hFinds
  | openIgnored hOpens hFid | clunk =>
      apply absurd (small_of_fixed _) hNotSmall
      simp [Reply.body]
  | walk hCount hSteps hWalk =>
      apply absurd _ hNotSmall
      exact small_rwalk (hCount.trans_le hNames)
  | read hFid hData =>
      rw [frame_rread_eq_error_iff] at hFrame
      exact .readSize hFid hData hFrame.1.1 hFrame.1.2
  | stat hFid hStat =>
      rw [Reply.frame, buildFrame_eq_error_iff] at hFrame
      exact .statSize hFid hStat hFrame.1
  | refused hRefusal =>
      have hShort := short_of_refusal hRefusal
      exact absurd (small_rerror (by omega)) hNotSmall

theorem respond_of_error
    {req : PseudoRequest}
    (tag : UInt16)
    (hHandle :
      loop.handle access fids req = .error cause) :
    loop.respond access fids tag req = .error cause := by
  rw [respond, hHandle]
  rfl

theorem respond_of_ok
    {req : PseudoRequest}
    {answer : FidTable × Reply}
    (tag : UInt16)
    (hHandle :
      loop.handle access fids req = .ok answer) :
    loop.respond access fids tag req =
      (answer.2.frame tag).map
        (fun frame => (answer.1, frame)) := by
  rw [respond, hHandle]
  rfl

/- A reply that has no frame stops the answer. -/
theorem respond_of_unframed
    {req : PseudoRequest}
    {answer : FidTable × Reply}
    {tag : UInt16}
    (hHandle :
      loop.handle access fids req = .ok answer)
    (hFrame : answer.2.frame tag = .error cause) :
    loop.respond access fids tag req = .error cause := by
  rw [respond_of_ok tag hHandle, hFrame]
  rfl

/- The hazards of a walk stop its handler. -/
theorem handleWalk_of_hazard
    {fid newfid : UInt32}
    {names : List String}
    (hHazard :
      loop.Hazard access fids (.twalk fid newfid names)) :
    ∃ cause,
      loop.handleWalk access fids fid newfid names =
        .error cause := by
  by_cases hPoisoned : access.poisoned = true
  · refine ⟨.poisonedLock, ?_⟩
    rw [handleWalk, lock_of_poisoned hPoisoned]
    rfl
  · have hLock : access.lock = .ok () :=
      if_neg hPoisoned
    rw [handleWalk, hLock]
    cases hHazard with
    | walkLock hPoisoned' =>
        exact absurd hPoisoned' hPoisoned
    | walkRoot hMakes hBefore =>
        refine ⟨.unwrapFailed, ?_⟩
        have hRoot := root_of_before hMakes hBefore
        change (loop.walkQid (access.hosts 0) [] >>= _) = _
        rw [walkQid, List.getLast?_nil, hRoot]
        rfl
    | walkClock hBound hFinds hBefore =>
        have hEnds :=
          walkAlong_spec loop.statLaw access.hosts names
            (loop.basePath fids fid) []
        revert hEnds
        generalize walkAlong loop.fs access.hosts 0 names
          (loop.basePath fids fid) [] = result
        intro hEnds
        cases hEnds with
        | arrives qids hCount hSteps =>
            exact absurd hBefore
              (not_lt.mpr (hSteps _ hBound).2)
        | missing hBound' hSteps hMissing =>
            rename_i i j
            rcases Nat.lt_or_ge i j with hLess | hUpTo
            · exact absurd hBefore
                (not_lt.mpr (hSteps i hLess).2)
            · exact absurd (hFinds j hUpTo) hMissing
        | panics hBound' hSteps hFinds' hBefore' =>
            exact ⟨_, rfl⟩

theorem handleOpen_of_hazard
    {fid : UInt32}
    {mode : Option UInt8}
    (hHazard : loop.Hazard access fids (.topen fid mode)) :
    ∃ cause,
      loop.handleOpen access fids fid mode =
        .error cause := by
  unfold handleOpen
  cases hHazard with
  | openMode hOpens =>
      rw [if_pos hOpens]
      exact ⟨_, rfl⟩
  | openLock hOpens hPoisoned =>
      rw [if_pos hOpens, lock_of_poisoned hPoisoned]
      exact ⟨_, rfl⟩
  | openClock hOpens hFid hFinds hBefore =>
      rw [if_pos hOpens]
      have hStat :=
        loop.statLaw.panics _ _ hFinds hBefore
      cases access.lock with
      | error cause =>
          exact ⟨_, rfl⟩
      | ok done =>
          refine ⟨.unwrapFailed, ?_⟩
          simp only [hFid, hStat]
          rfl

/- A lock that is taken was not poisoned. -/
theorem not_poisoned_of_lockFor
    {fid : UInt32}
    (hTakes :
      loop.locksFirst = true ∨ (fids.lookup fid).isSome)
    (hLock : loop.lockFor access fids fid = .ok ()) :
    access.poisoned ≠ true := by
  intro hPoisoned
  rw [lockFor, if_pos hTakes, lock_of_poisoned hPoisoned]
    at hLock
  cases hLock

theorem respond_of_readHazard
    {fid : UInt32}
    {offset : UInt64}
    {count : UInt32}
    (tag : UInt16)
    (hHazard :
      loop.Hazard access fids (.tread fid offset count)) :
    ∃ cause,
      loop.respond access fids tag
        (.tread fid offset count) = .error cause := by
  cases hLock : loop.lockFor access fids fid with
  | error cause =>
      refine ⟨cause, respond_of_error tag ?_⟩
      rw [handle, handleRead, hLock]
      rfl
  | ok done =>
      cases hHazard with
      | readLock hTakes hPoisoned =>
          exact absurd hPoisoned
            (not_poisoned_of_lockFor hTakes hLock)
      | readEnd hFid hData hEnd =>
          refine ⟨.addOverflow, respond_of_error tag ?_⟩
          rw [handle, handleRead, hLock]
          simp only [hFid, hData, fileWindow_eq, if_pos hEnd]
          rfl
      | readSize hFid hData hLow hHigh =>
          rename_i state data
          by_cases hEnd :
              2 ^ 64 ≤ offset.toNat + count.toNat
          · refine ⟨.addOverflow, respond_of_error tag ?_⟩
            rw [handle, handleRead, hLock]
            simp only [hFid, hData, fileWindow_eq,
              if_pos hEnd]
            rfl
          · have hHandle :
                loop.handle access fids
                    (.tread fid offset count) =
                  .ok (fids, .rread ((data.drop
                    offset.toNat).take count.toNat)) := by
              rw [handle, handleRead, hLock]
              simp only [hFid, hData, fileWindow_eq,
                if_neg hEnd]
              rfl
            refine ⟨.addOverflow,
              respond_of_unframed hHandle ?_⟩
            apply (frame_rread_eq_error_iff _ _ _).mpr
            exact ⟨⟨hLow, hHigh⟩, rfl⟩

theorem respond_of_statHazard
    {fid : UInt32}
    (tag : UInt16)
    (hHazard : loop.Hazard access fids (.tstat fid)) :
    ∃ cause,
      loop.respond access fids tag (.tstat fid) =
        .error cause := by
  cases hLock : loop.lockFor access fids fid with
  | error cause =>
      refine ⟨cause, respond_of_error tag ?_⟩
      rw [handle, handleStat, hLock]
      rfl
  | ok done =>
      cases hHazard with
      | statLock hTakes hPoisoned =>
          exact absurd hPoisoned
            (not_poisoned_of_lockFor hTakes hLock)
      | statClock hFid hFinds hBefore =>
          have hStat :=
            loop.statLaw.panics _ _ hFinds hBefore
          refine ⟨.unwrapFailed, respond_of_error tag ?_⟩
          rw [handle, handleStat, hLock]
          simp only [hFid, hStat]
          rfl
      | statSize hFid hStat hSize =>
          rename_i state inode
          have hHandle :
              loop.handle access fids (.tstat fid) =
                .ok (fids,
                  .rstat (loop.record state inode)) := by
            rw [handle, handleStat, hLock]
            simp only [hFid, hStat]
            rfl
          refine ⟨.addOverflow,
            respond_of_unframed hHandle ?_⟩
          apply buildFrame_eq_error_iff.mpr
          exact ⟨hSize, rfl⟩

/-
  A request panics exactly when it runs into a hazard.
-/
theorem panics_iff_hazard
    {req : PseudoRequest}
    (tag : UInt16)
    (hNames : req.names.length ≤ 65535) :
    (∃ cause,
      loop.respond access fids tag req = .error cause) ↔
      loop.Hazard access fids req := by
  constructor
  · rintro ⟨cause, hRespond⟩
    rw [respond, bind_eq_error_iff] at hRespond
    rcases hRespond with hHandle | ⟨⟨fids', reply⟩, hHandle,
      hFrame⟩
    · exact hazard_of_handle hHandle
    · simp only [bind_eq_error_iff] at hFrame
      rcases hFrame with hFrame | ⟨_, _, hReply⟩
      · exact hazard_of_frame hNames
          (effect_of_handle hHandle) hFrame
      · cases hReply
  · intro hHazard
    cases req with
    | tversion msize version | tclunk fid | unsupported =>
        cases hHazard
    | tattach fid afid uname aname =>
        cases hHazard with
        | attachClock hMakes hBefore =>
            refine ⟨.unwrapFailed, respond_of_error tag ?_⟩
            rw [handle, handleAttach,
              root_of_before hMakes hBefore]
            rfl
    | twalk fid newfid names =>
        rcases handleWalk_of_hazard hHazard with
          ⟨cause, hHandle⟩
        exact ⟨cause, respond_of_error tag hHandle⟩
    | topen fid mode =>
        rcases handleOpen_of_hazard hHazard with
          ⟨cause, hHandle⟩
        exact ⟨cause, respond_of_error tag hHandle⟩
    | tread fid offset count =>
        exact respond_of_readHazard tag hHazard
    | tstat fid =>
        exact respond_of_statHazard tag hHazard

end Loop

end Planten
