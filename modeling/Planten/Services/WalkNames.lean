import Planten.PseudoFs.Lookups
import Planten.RamFs.Resolve
import Planten.Services.Dialogues

/-
  The walk names of the pseudo servers.

  RAMFS resolves a name: it knows `.`, `..` and `/`, and it
  refuses the empty name.  The other servers join the name to
  the path, whatever it is, and look the result up.  The two
  lead to the same node for every other name; and as long as
  only such names are walked, the fids of a session lead
  where RAMFS would have led them.

  Key definitions include:
    * `ResolvedAlike`
    * `AgreedName`
    * `PseudoServer.ramPath`
    * `PseudoServer.ResolvesAsRam`

  Key theorems include:
    * `resolvedAlike_iff`
    * `components_of_agreedNames`
    * `PseudoServer.byComponents_fs`
    * `PseudoServer.resolvesAsRam`
-/

------------------------------------------------------------
-- Names
------------------------------------------------------------

namespace Planten

/- The path looked up leads to what RAMFS resolves to. -/
def ResolvedAlike (base name : String) : Prop :=
  ∃ path,
    resolveStep base name = some path ∧
      components (resolvePath base name) = components path

/-
  A name without a meaning of its own.  The name `/` leads to
  the root in RAMFS, and stays in the other servers.
-/
def AgreedName (base name : String) : Prop :=
  name ≠ "" ∧ name ≠ "." ∧ name ≠ ".." ∧
    (name = "/" → components base = [])

instance (base name : String) :
    Decidable (AgreedName base name) := by
  unfold AgreedName
  infer_instance

/- The names of a walk, each from where it is walked. -/
def AgreedNames : String → List String → Prop
| _, [] => True
| base, name :: names =>
    AgreedName base name ∧
      AgreedNames (resolvePath base name) names

/- A joined path has the components of both of its parts. -/
theorem components_resolvePath (base name : String) :
    components (resolvePath base name) =
      components base ++ components name := by
  unfold resolvePath
  split
  · rename_i hRoot
    rw [hRoot, components_slash, List.nil_append]
    exact components_slash_append name
  · exact components_append_slash base name

theorem walkComponents_of_agreedName
    {base name : String}
    (hName : AgreedName base name) :
    walkComponents (components base) name =
      components base ++ components name := by
  rcases hName with ⟨_, hDot, hDots, hSlash⟩
  unfold walkComponents
  rw [if_neg hDot, if_neg hDots]
  split
  · rename_i hIs
    rw [hSlash hIs, hIs, components_slash]
    rfl
  · rfl

/- No other name leads to the same components. -/
theorem agreedName_of_walkComponents
    {base name : String}
    (hNonempty : name ≠ "")
    (hSame :
      components base ++ components name =
        walkComponents (components base) name) :
    AgreedName base name := by
  refine ⟨hNonempty, ?_, ?_, ?_⟩
  · rintro rfl
    have hLength := congrArg List.length hSame
    have hDot : components "." = ["."] := by
      decide
    rw [walkComponents, if_pos rfl, hDot,
      List.length_append, List.length_singleton] at hLength
    omega
  · rintro rfl
    have hLength := congrArg List.length hSame
    have hDots : components ".." = [".."] := by
      decide
    rw [walkComponents, if_neg (by decide), if_pos rfl,
      hDots, List.length_append, List.length_singleton,
      List.length_dropLast] at hLength
    omega
  · rintro rfl
    rw [walkComponents, if_neg (by decide),
      if_neg (by decide), if_pos rfl] at hSame
    exact (List.append_eq_nil_iff.mp hSame).1

/- The names that are resolved as RAMFS resolves them. -/
theorem resolvedAlike_iff (base name : String) :
    ResolvedAlike base name ↔ AgreedName base name := by
  constructor
  · rintro ⟨path, hStep, hSame⟩
    rw [components_resolvePath,
      components_resolveStep hStep] at hSame
    apply agreedName_of_walkComponents _ hSame
    intro hEmpty
    rw [(resolveStep_eq_none_iff base name).mpr hEmpty]
      at hStep
    cases hStep
  · intro hName
    cases hStep : resolveStep base name with
    | none =>
        exact absurd
          ((resolveStep_eq_none_iff base name).mp hStep)
          hName.1
    | some path =>
        refine ⟨path, hStep, ?_⟩
        rw [components_resolvePath,
          components_resolveStep hStep,
          walkComponents_of_agreedName hName]

/- Only the components of where a name is walked matter. -/
theorem AgreedName.congr
    {base base' name : String}
    (hSame : components base = components base')
    (hName : AgreedName base name) :
    AgreedName base' name :=
  ⟨hName.1, hName.2.1, hName.2.2.1,
    fun hSlash => hSame.symm.trans (hName.2.2.2 hSlash)⟩

/- A walk of such names leads where RAMFS leads. -/
theorem components_of_agreedNames
    {base base' : String}
    {names : List String}
    (hNames : AgreedNames base names)
    (hSame : components base = components base') :
    ∃ path,
      names.foldlM resolveStep base' = some path ∧
        components (names.foldl resolvePath base) =
          components path := by
  induction names generalizing base base' with
  | nil =>
      exact ⟨base', rfl, hSame⟩
  | cons name names ih =>
      rcases hNames with ⟨hName, hRest⟩
      rcases (resolvedAlike_iff base' name).mpr
          (hName.congr hSame) with
        ⟨next, hStep, hNext⟩
      have hJoined :
          components (resolvePath base name) =
            components next := by
        rw [← hNext, components_resolvePath,
          components_resolvePath, hSame]
      rcases ih hRest hJoined with ⟨path, hWalk, hPath⟩
      refine ⟨path, ?_, hPath⟩
      rw [List.foldlM_cons, hStep]
      exact hWalk

end Planten

------------------------------------------------------------
-- Lookups
------------------------------------------------------------

namespace Planten

/- Paths with the same components lead to the same node. -/
def FsServer.ByComponents
    {H : Type}
    (fs : FsServer H) : Prop :=
  ∀ host path path',
    components path = components path' →
      fs.walk host path = fs.walk host path' ∧
        fs.open_ host path = fs.open_ host path' ∧
        fs.read host path = fs.read host path' ∧
        fs.stat host path = fs.stat host path'

theorem ProcFs.byComponents
    {Pid : Type}
    [DecidableEq Pid]
    (pids : PidText Pid) :
    (ProcFs.fs pids).ByComponents := by
  intro host path path' hSame
  have hRead (host : Host (ProcTable Pid)) :
      ProcFs.read pids host path =
        ProcFs.read pids host path' := by
    simp only [ProcFs.read, hSame]
  refine ⟨?_, ?_, hRead host, ?_⟩
  · simp only [ProcFs.fs, ProcFs.walk, hSame]
  · simp only [ProcFs.fs, ProcFs.open_, hSame]
  · simp only [ProcFs.fs, ProcFs.stat, hSame, hRead]

theorem SrvFs.byComponents : SrvFs.fs.ByComponents := by
  intro host path path' hSame
  have hRead :
      SrvFs.read host path = SrvFs.read host path' := by
    simp only [SrvFs.read, hSame]
  refine ⟨?_, ?_, hRead, ?_⟩
  · simp only [SrvFs.fs, SrvFs.walk, hSame]
  · simp only [SrvFs.fs, SrvFs.open_, hSame]
  · simp only [SrvFs.fs, SrvFs.stat, hSame, hRead]

theorem DevFs.byComponents : DevFs.fs.ByComponents := by
  intro host path path' hSame
  refine ⟨?_, ?_, ?_, ?_⟩
  · simp only [DevFs.fs, DevFs.walk, walkFlat, hSame]
  · simp only [DevFs.fs, DevFs.open_, openFlat, hSame]
  · simp only [DevFs.fs, DevFs.read, readFlat, hSame]
  · simp only [DevFs.fs, DevFs.stat, hSame]

theorem NetFs.byComponents : NetFs.fs.ByComponents := by
  intro host path path' hSame
  refine ⟨?_, ?_, ?_, ?_⟩
  · simp only [NetFs.fs, NetFs.walk, walkFlat, hSame]
  · simp only [NetFs.fs, NetFs.open_, openFlat, hSame]
  · simp only [NetFs.fs, NetFs.read, readFlat, hSame]
  · simp only [NetFs.fs, NetFs.stat, hSame]

end Planten

------------------------------------------------------------
-- Sessions
------------------------------------------------------------

namespace Planten

namespace PseudoServer

/-
  Where RAMFS would lead a fid, by the names of the walks it
  was bound with.
-/
def ramPath : Said → UInt32 → Option String :=
  track (fun _ => "/") (fun before names _ =>
    names.foldlM resolveStep (before.getD "/"))

/- A fid leads there, if there is one. -/
abbrev LeadsAlike :
    Option FidState → Option String → Prop :=
  Option.Rel (fun state path =>
    components state.path = components path)

variable {Pid : Type} [DecidableEq Pid]
variable (pids : PidText Pid) (server : PseudoServer)

/- A turn that is a walk has only agreed names. -/
def WalksAgreed
    (conn : Option Dialogue)
    (turn : Turn Pid server) : Prop :=
  ∀ d fid newfid names,
    conn = some d →
      PseudoRequest.decode turn.msgType turn.body =
          .ok (.twalk fid newfid names) →
        AgreedNames
          ((server.loop pids).basePath d.state fid) names

/-
  What the names of walks lead to, from a fid of a reachable
  state.  Each of them is resolved as by RAMFS exactly when
  it is agreed, and in a session of such walks every fid
  leads where RAMFS would lead it.
-/
structure ResolvesAsRam : Prop where
  names :
    ∀ turns d,
      server.run pids turns = some d →
        ∀ (fid : UInt32) (names : List String) (i : Nat)
          (hStep : i < names.length),
          let base :=
            (names.take i).foldl resolvePath
              ((server.loop pids).basePath d.state fid)
          ResolvedAlike base names[i] ↔
            AgreedName base names[i]
  lookups : (server.fs pids).ByComponents
  sessions :
    ∀ turns d,
      Run.Always (Journal.step (server.exchange pids))
          (WalksAgreed pids server) (some ⟨[], []⟩) turns →
        server.run pids turns = some d →
          ∀ fid,
            LeadsAlike (d.state.lookup fid)
              (ramPath d.entries fid)

end PseudoServer

variable {H : Type}
variable {loop : Loop H} {access : Access H}
variable {fids fids' : FidTable} {req : PseudoRequest}
variable {reply : Reply} {said : PseudoServer.Said}

/- Where a walk starts, in RAMFS and in a pseudo server. -/
theorem Loop.components_basePath
    (hStart : components loop.start = [])
    {fid : UInt32}
    {path : Option String}
    (hFid :
      PseudoServer.LeadsAlike (fids.lookup fid) path) :
    components (loop.basePath fids fid) =
      components (path.getD "/") := by
  unfold Loop.basePath
  generalize fids.lookup fid = found at hFid
  cases hFid with
  | none =>
      exact hStart.trans components_slash.symm
  | some hSame =>
      exact hSame

/- A turn of agreed names leads the fids as RAMFS does. -/
theorem Loop.Effect.leadsAlike
    (hEffect : loop.Effect access fids req fids' reply)
    (hStart : components loop.start = [])
    (hBefore :
      ∀ fid,
        PseudoServer.LeadsAlike (fids.lookup fid)
          (PseudoServer.ramPath said fid))
    (hAgreed :
      ∀ fid newfid names,
        req = .twalk fid newfid names →
          AgreedNames (loop.basePath fids fid) names)
    (fid : UInt32) :
    PseudoServer.LeadsAlike (fids'.lookup fid)
      (PseudoServer.ramPath ((req, reply) :: said) fid) := by
  apply hEffect.tracked hBefore .none
  · rintro state mode path ⟨hSame⟩
    exact .some hSame
  · exact .some rfl
  · intro fid newfid names qids hReq hCount hWalk
    rcases components_of_agreedNames
        (hAgreed fid newfid names hReq)
        (loop.components_basePath hStart (hBefore fid)) with
      ⟨path, hRam, hSame⟩
    change PseudoServer.LeadsAlike _
      (names.foldlM resolveStep
        ((PseudoServer.ramPath said fid).getD "/"))
    rw [hRam]
    exact .some hSame

end Planten

------------------------------------------------------------
-- The Four Servers
------------------------------------------------------------

namespace Planten

namespace PseudoServer

variable {Pid : Type} [DecidableEq Pid]

theorem byComponents_fs
    (pids : PidText Pid)
    (server : PseudoServer) :
    (server.fs pids).ByComponents := by
  cases server with
  | procfs => exact ProcFs.byComponents pids
  | srvfs => exact SrvFs.byComponents
  | devfs => exact DevFs.byComponents
  | netfs => exact NetFs.byComponents

/- A walk from an unknown fid starts at the root. -/
theorem components_start
    (pids : PidText Pid)
    (server : PseudoServer) :
    components (server.loop pids).start = [] := by
  cases server with
  | procfs | srvfs => exact components_empty
  | devfs | netfs => exact components_slash

theorem leadsAlike_of_walksAgreed
    {pids : PidText Pid}
    {server : PseudoServer}
    {turns : List (Turn Pid server)}
    (hAgreed :
      Run.Always (Journal.step (server.exchange pids))
        (WalksAgreed pids server) (some ⟨[], []⟩) turns)
    {d : Dialogue}
    (hRun : server.run pids turns = some d)
    (fid : UInt32) :
    LeadsAlike (d.state.lookup fid)
      (ramPath d.entries fid) := by
  let Inv (conn : Option Dialogue) : Prop :=
    ∀ d,
      conn = some d →
        ∀ fid,
          LeadsAlike (d.state.lookup fid)
            (ramPath d.entries fid)
  have hInit : Inv (some ⟨[], []⟩) := by
    intro d hConn fid
    cases hConn
    exact .none
  have hStep :
      ∀ conn turn,
        Inv conn →
          WalksAgreed pids server conn turn →
            Inv (Journal.step (server.exchange pids) conn
              turn) := by
    intro conn turn hBefore hWalks after hAfter
    rcases Option.bind_eq_some_iff.mp hAfter with
      ⟨before, hConn, hMap⟩
    rcases Option.map_eq_some_iff.mp hMap with
      ⟨⟨fids', req, reply⟩, hExchange, rfl⟩
    apply (effect_of_exchange hExchange).leadsAlike
      (components_start pids server) (hBefore before hConn)
    rintro fid newfid names rfl
    exact hWalks before fid newfid names hConn
      (exchange_eq_some.mp hExchange).1
  exact Run.invariant_of_always _ hStep hInit hAgreed d hRun
    fid

/-
  In each of the four servers, the names that are resolved as
  by RAMFS are those without a meaning of their own.
-/
theorem resolvesAsRam
    (pids : PidText Pid)
    (server : PseudoServer) :
    ResolvesAsRam pids server := by
  refine ⟨?_, byComponents_fs pids server, ?_⟩
  · intro turns d _ fid names i hStep
    exact resolvedAlike_iff _ names[i]
  · intro turns d hAgreed hRun
    exact leadsAlike_of_walksAgreed hAgreed hRun

/- A frame that a host with one process answers. -/
def processTurn
    (msgType : UInt8)
    (body : Bytes) : Turn Nat .procfs :=
  ⟨⟨false, fun _ => ProcFs.quietHost⟩, msgType, 0, body⟩

/- A walk to the directory of the process. -/
def processWalk : List (Turn Nat .procfs) :=
  [processTurn TATTACH (encodeAttachBody 0 none "" ""),
    processTurn TWALK (encodeWalkBody 0 1 ["1"])]

def processFids : FidTable :=
  [(0, FidState.new "/" ⟨0x00, 0, 0⟩),
    (1, FidState.new "/1" ⟨0x80, 0, 0⟩)]

/-
  From the directory of a process `..` leads to the root in
  RAMFS, and is refused here; the empty name, which RAMFS
  refuses, is walked.
-/
theorem not_resolvedAlike_of_parent :
    (run ProcFs.numberPids .procfs processWalk).map
        Journal.state =
      some processFids ∧
      resolveStep "/1" ".." = some "/" ∧
      ¬ ResolvedAlike
        ((loop ProcFs.numberPids .procfs).basePath
          processFids 1) ".." ∧
      exchange ProcFs.numberPids .procfs processFids
          (processTurn TWALK (encodeWalkBody 1 2 [".."])) =
        some (processFids, .twalk 1 2 [".."],
          .rerror "file not found") ∧
      resolveStep "/1" "" = none ∧
      (exchange ProcFs.numberPids .procfs processFids
          (processTurn TWALK
            (encodeWalkBody 1 2 [""]))).map
          (fun said => said.2.2) =
        some (.rwalk [⟨0x80, 0, 0⟩]) := by
  have hAttach :
      exchange ProcFs.numberPids .procfs []
          (processTurn TATTACH
            (encodeAttachBody 0 none "" "")) =
        some (processFids.take 1, .tattach 0 0 "" "",
          .rattach ⟨0x00, 0, 0⟩) := by
    decide +kernel
  have hWalk :
      exchange ProcFs.numberPids .procfs
          (processFids.take 1)
          (processTurn TWALK (encodeWalkBody 0 1 ["1"])) =
        some (processFids, .twalk 0 1 ["1"],
          .rwalk [⟨0x80, 0, 0⟩]) := by
    decide +kernel
  have hParent : resolveStep "/1" ".." = some "/" := by
    decide
  refine ⟨?_, hParent, ?_, ?_, ?_, ?_⟩
  · simp only [run, Journal.run, processWalk,
      Run.final_cons, Journal.step, Option.bind_some,
      hAttach, hWalk, Option.map_some]
    rfl
  · rintro ⟨path, hStep, hSame⟩
    cases hParent.symm.trans hStep
    have hJoined :
        components (resolvePath "/1" "..") =
          ["1", ".."] := by
      decide
    cases hJoined.symm.trans (hSame.trans components_slash)
  · decide +kernel
  · decide
  · decide +kernel

end PseudoServer

end Planten
