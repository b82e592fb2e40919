import Planten.Namespace.RamShares
import Planten.Services.EndToEnd

/-
  The probe of the five servers.

  A probe does not look at how many names a server has
  walked, and passes where only the first of them exist.
  None of the five servers here walks a part of a path: each
  answers a walk with a qid for every name or not at all,
  whatever its host does between two requests.  So the probe
  of one of them finds the whole path.

  Of a pseudo server, whose files are those of its host, it
  is also said when the probe passes.

  Key definitions include:
    * `Service.AnswersProbes`
    * `PseudoServer.Roots`, `PseudoServer.FindsPath`

  Key theorems include:
    * `Service.foundWhole_of_probe`
    * `FileServer.probe_finds_whole`
    * `PseudoServer.walk_pseudo`
    * `PseudoServer.probeRemoteShare_pseudo_iff`
-/

------------------------------------------------------------
-- Answers to a Probe
------------------------------------------------------------

namespace Planten

/-
  The reply of a server to a call of a probe is framed whole,
  and a walk is answered with a qid for every name.
-/
def Service.AnswersProbes (S : Service) : Prop :=
  ∀ (env : S.Env) (fids fids' : FidTable) (tag : UInt16)
    (c : Call) (frame : Bytes),
    c.Probes → c.Fits →
      S.serve env fids c.msgType tag c.body =
          .ok (fids', frame) →
        ∃ reply : Reply,
          7 + reply.body.length < 2 ^ 32 ∧
            reply.frame tag = .ok frame ∧
            ∀ fid newfid names,
              c = .walk fid newfid names →
                reply.msgType = RWALK →
                  ∃ qids : List Qid,
                    reply = .rwalk qids ∧
                      qids.length = names.length

theorem ramService_answersProbes (hasher : Hasher) :
    (ramService hasher).AnswersProbes := by
  intro access fids fids' tag c frame hProbes hFits hServe
  rcases effect_of_ramServe hServe with
    ⟨req, fs', reply, hDecode, hEffect, hFrame⟩
  rcases c.decode_of_fits hFits with
    ⟨req', hDecode', hCarries⟩
  cases hDecode.symm.trans hDecode'
  have hSmall : reply.Small :=
    (Link.small_of_probes hasher access.clock hProbes
      hCarries hEffect).2
  have hBody : 7 + reply.body.length < 2 ^ 32 := by
    unfold Reply.Small at hSmall
    omega
  refine ⟨reply, hBody, hFrame, ?_⟩
  rintro fid newfid names rfl hType
  cases hCarries with
  | walk hCount hRead =>
      cases hEffect with
      | walk hNames hTarget =>
          have hLength := length_walkNames hNames
          rw [List.length_nil, Nat.zero_add, hCount]
            at hLength
          exact ⟨_, rfl, hLength⟩
      | refused hRefusal =>
          have hError : RERROR ≠ RWALK := by
            decide
          exact absurd hType hError

/- No reply to a probe of a pseudo server is cut. -/
theorem Loop.not_cuts_of_probes
    {H : Type}
    {loop : Loop H}
    {access : Access H}
    {fids : FidTable}
    {c : Call}
    (hProbes : c.Probes) :
    ¬ loop.Cuts access fids c.pseudo := by
  intro hCuts
  cases c with
  | version msize versionStr | attach fid afid uname aname
  | walk fid newfid names | clunk fid =>
      cases hCuts
  | _ =>
      exact hProbes

/- The pseudo servers find every name of a walk, or none. -/
theorem Loop.service_answersProbes
    {H : Type}
    (loop : Loop H) :
    loop.service.AnswersProbes := by
  intro access fids fids' tag c frame hProbes hFits hServe
  rcases Loop.effect_of_serve hServe with
    ⟨req, reply, hDecode, hEffect, hFrame⟩
  cases hDecode.symm.trans (Call.decode_pseudo hFits.args)
  have hReply :=
    hEffect.fits (PseudoRequest.length_names_of_decode
      hDecode) (Loop.not_cuts_of_probes hProbes)
  refine ⟨reply, hReply.1, hFrame, ?_⟩
  rintro fid newfid names rfl hType
  cases hEffect with
  | walk hCount hSteps hWalk =>
      exact ⟨_, rfl, hCount⟩
  | refused hRefusal =>
      have hError : RERROR ≠ RWALK := by
        decide
      exact absurd hType hError

end Planten

------------------------------------------------------------
-- Probes
------------------------------------------------------------

namespace Planten

namespace Service

variable {S : Service} {envs : Nat → S.Env}

/- The qids of a walk are read back. -/
theorem decodes_decodeQids
    {qids : List Qid}
    (hCount : qids.length ≤ 65535) :
    Decoder.Decodes decodeQids (Reply.rwalk qids).body
      qids := by
  have hLength :
      (UInt16.ofNat qids.length).toNat = qids.length := by
    simp
    omega
  refine (decodes_word16 _).bind ?_
  rw [hLength]
  exact Decoder.decodes_many
    (fun qid _ => decodes_decodeQid qid)

/-
  A call of the probe that succeeds took one reply off the
  stream, and nothing is on the way after it.
-/
theorem inStep_of_call
    (hProbes : S.AnswersProbes)
    {c : Call}
    (hProbe : c.Probes)
    (hFits : c.Fits)
    {α : Type}
    {d : Decoder IoError α}
    {a : α}
    {link after : P9Client Peer}
    (hInStep : InStep link)
    (hCall :
      call (S.deliver envs) c.msgType c.body c.expected d
        link = .ok a after) :
    InStep after ∧
      ∃ (reply : Reply) (rest : Bytes),
        reply.msgType = c.expected ∧
          d.run reply.body = .ok (a, rest) ∧
          ∀ fid newfid names,
            c = .walk fid newfid names →
              ∃ qids : List Qid,
                reply = .rwalk qids ∧
                  qids.length = names.length := by
  have hSilent
      {peer : Peer}
      (hDeliver :
        S.deliver envs link.peer
            (frameBytes c.msgType link.nextTag c.body) =
          (peer, [])) :
      False := by
    rw [run_call_of_silence hInStep.incoming hFits.body
      hDeliver] at hCall
    cases hCall
  cases hFids : link.peer.fids with
  | none =>
      exact (hSilent (deliver_of_ended hFids _)).elim
  | some fids =>
      have hInbox :=
        hInStep.inbox (Option.isSome_of_eq_some hFids)
      cases hAnswer :
        S.answer fids
          ⟨envs link.peer.turns, c.msgType, link.nextTag,
            c.body⟩ with
      | none =>
          exact (hSilent (deliver_of_silence hFids hInbox
            hFits.body hAnswer)).elim
      | some answer =>
          rcases answer with ⟨fids', frame⟩
          have hDeliver :=
            deliver_of_answer hFids hInbox hFits.body hAnswer
          rcases hProbes _ _ _ _ _ _ hProbe hFits
            (answer_eq_some hAnswer) with
            ⟨reply, hReply, hFrame, hWalk⟩
          rw [Reply.frame_of_fits hReply] at hFrame
          cases hFrame
          rw [← List.append_nil
            (frameBytes reply.msgType _ _)] at hDeliver
          rw [run_call_of_reply hInStep.incoming hFits.body
            hReply hDeliver] at hCall
          split at hCall
          · rename_i hType
            cases hRun : d.run reply.body with
            | error err =>
                rw [hRun] at hCall
                cases hCall
            | ok decoded =>
                rw [hRun] at hCall
                cases hCall
                refine ⟨⟨rfl, fun _ => rfl⟩, reply,
                  decoded.2, hType, hRun, ?_⟩
                rintro fid newfid names rfl
                exact hWalk fid newfid names rfl hType
          · cases hCall

/-
  A probe that is accepted was given a qid for every
  component of the path.
-/
theorem foundWhole_of_probe
    (hProbes : S.AnswersProbes)
    {user : Option String}
    {addr remotePath : String}
    (hUser : (Call.attach 0 none (probeName user) "").Fits)
    (hPath :
      (Call.walk 0 1 (components remotePath)).Fits)
    (hProbe :
      probeRemoteShare (fun _ => .ok accepted)
        (S.deliver envs) user addr remotePath = .ok ()) :
    FoundWhole (fun _ => .ok accepted) (S.deliver envs) user
      addr remotePath := by
  by_cases hEmpty : components remotePath = []
  · exact Or.inl hEmpty
  · rcases probeRemoteShare_eq_ok_iff.mp hProbe with
      ⟨peer, hPeer, hShare⟩
    cases hPeer
    rcases (probeShare_eq_ok_iff hEmpty).mp hShare with
      ⟨qids, c, hQids, _⟩
    refine Or.inr ⟨accepted, qids, c, rfl, hQids, ?_⟩
    have hStart : InStep (P9Client.new accepted) :=
      ⟨rfl, fun _ => rfl⟩
    have hVersionFits : (Call.version 131072 "9P2000").Fits :=
      ⟨by decide, by decide⟩
    rcases ClientM.bind_eq_ok_iff.mp hQids with
      ⟨_, c₁, hVersion, hQids⟩
    have hFirst :=
      (inStep_of_call hProbes (c := .version 131072 "9P2000")
        trivial hVersionFits hStart hVersion).1
    rcases ClientM.bind_eq_ok_iff.mp hQids with
      ⟨_, c₂, hAttach, hWalk⟩
    have hSecond :=
      (inStep_of_call hProbes
        (c := .attach 0 none (probeName user) "") trivial
        hUser hFirst hAttach).1
    rcases inStep_of_call hProbes
        (c := .walk 0 1 (components remotePath)) trivial
        hPath hSecond hWalk with
      ⟨_, reply, rest, _, hRun, hWhole⟩
    rcases hWhole _ _ _ rfl with ⟨found, rfl, hLength⟩
    have hFound :=
      (decodes_decodeQids
        (hLength.trans_le hPath.args.1)).run_nil
    cases hRun.symm.trans hFound
    exact hLength.ge

end Service

end Planten

------------------------------------------------------------
-- The Five Servers
------------------------------------------------------------

namespace Planten

namespace FileServer

variable {Pid : Type} [DecidableEq Pid]

theorem answersProbes
    (hasher : Hasher)
    (pids : PidText Pid)
    (server : FileServer) :
    (server.service hasher pids).AnswersProbes :=
  service_rule (P := Service.AnswersProbes) hasher pids
    (ramService_answersProbes hasher)
    (fun _ loop => loop.service_answersProbes) server

/-
  A probe of a new connection of any of the five servers is
  not accepted unless the server has walked the whole path,
  whatever the turns of the connection find.
-/
theorem probe_finds_whole
    (hasher : Hasher)
    (pids : PidText Pid)
    (server : FileServer)
    (envs : Nat → (server.service hasher pids).Env)
    {user : Option String}
    {addr remotePath : String}
    (hUser : (Call.attach 0 none (probeName user) "").Fits)
    (hPath :
      (Call.walk 0 1 (components remotePath)).Fits)
    (hProbe :
      probeRemoteShare (fun _ => .ok Service.accepted)
        ((server.service hasher pids).deliver envs) user
        addr remotePath = .ok ()) :
    FoundWhole (fun _ => .ok Service.accepted)
      ((server.service hasher pids).deliver envs) user addr
      remotePath :=
  Service.foundWhole_of_probe
    (answersProbes hasher pids server) hUser hPath hProbe

/- The null device is found, and the probe is accepted. -/
theorem probe_finds_whole_of_null :
    FoundWhole (fun _ => .ok Service.accepted)
      ((devfs.service (fun _ _ => 0)
        (⟨id, Nat.repr⟩ : PidText Nat)).deliver
        (fun _ => idleAccess (fun _ => 0))) none
      "127.0.0.1:564" "/null" := by
  refine probe_finds_whole (fun _ _ => 0)
    (⟨id, Nat.repr⟩ : PidText Nat) .devfs
    (fun _ => idleAccess (fun _ => 0))
    ⟨by decide, by decide⟩ ⟨by decide, by decide⟩ ?_
  decide +kernel

end FileServer

end Planten

------------------------------------------------------------
-- The Pseudo Servers
------------------------------------------------------------

namespace Planten

namespace PseudoServer

variable {Pid : Type} [DecidableEq Pid]
variable (pids : PidText Pid) (server : PseudoServer)

/- An attach does not run into a clock before the epoch. -/
def Roots (access : Access (server.Reading Pid)) : Prop :=
  (server.loop pids).makesRoot = true →
    0 ≤ (access.hosts 0).clock 0

/-
  A walk from the root takes the lock, and each of its steps
  finds its file and reads a clock that is not before the
  epoch.
-/
def FindsPath
    (access : Access (server.Reading Pid))
    (names : List String) : Prop :=
  access.poisoned = false ∧
    ∀ i < names.length,
      FindsStep (server.fs pids) access.hosts names "/" i ∧
        0 ≤ (access.hosts i).clock
          (server.loop pids).statClock

variable (envs : Nat → Access (server.Reading Pid))

/- A client between two calls of a connection. -/
def ready
    (tag : UInt16)
    (fids : FidTable)
    (turns : Nat) : P9Client Service.Peer :=
  ⟨tag, [], ⟨some fids, turns, []⟩⟩

variable {pids server envs}
variable {fids : FidTable} {turns : Nat}

/- A call of the probe ends as its reply says. -/
theorem call_of_probes
    {c : Call}
    (hProbes : c.Probes)
    (hFits : c.Fits)
    (hSafe :
      ¬ (server.loop pids).Hazard (envs turns) fids
        c.pseudo)
    (tag : UInt16) :
    ∃ fids' reply,
      (server.loop pids).Effect (envs turns) fids c.pseudo
          fids' reply ∧
        reply.Fits ∧
        ∀ {α : Type} (d : Decoder IoError α),
          call (server.delivery pids envs) c.msgType c.body
              c.expected d (ready tag fids turns) =
            if reply.msgType = c.expected then
              match d.run reply.body with
              | .ok (a, _) =>
                  .ok a (ready (tag + 1) fids' (turns + 1))
              | .error err =>
                  .error (.io err)
                    (ready (tag + 1) fids' (turns + 1))
            else
              .error
                (.io (unexpectedType reply.msgType
                  c.expected))
                (ready (tag + 1) fids' (turns + 1)) := by
  have hInStep : Service.InStep (ready tag fids turns) :=
    ⟨rfl, fun _ => rfl⟩
  have hHere :
      Fits pids server envs (ready tag fids turns) c :=
    ⟨hFits, fun _ _ => Loop.not_cuts_of_probes hProbes⟩
  rcases call_of_safe hInStep rfl hHere hSafe with
    ⟨fids', reply, hEffect, hReply, _, hCall⟩
  exact ⟨fids', reply, hEffect, hReply, hCall⟩

/- A call that runs into a hazard fails. -/
theorem call_of_hazard
    {c : Call}
    (hFits : c.Fits)
    (hHazard :
      (server.loop pids).Hazard (envs turns) fids c.pseudo)
    (tag : UInt16)
    {α : Type}
    (d : Decoder IoError α) :
    ∃ fault link,
      call (server.delivery pids envs) c.msgType c.body
          c.expected d (ready tag fids turns) =
        .error fault link := by
  have hDeliver :=
    @Service.deliver_of_silence (server.service pids) envs
      (ready tag fids turns).peer fids c.msgType tag c.body
      rfl rfl hFits.body
      (answer_of_hazard (Call.decode_pseudo hFits.args)
        hHazard)
  exact ⟨_, _, run_call_of_silence rfl hFits.body hDeliver
    c.expected d⟩

variable (pids server envs)
variable (fids : FidTable) (turns : Nat)

theorem version_pseudo (tag : UInt16) :
    P9Client.version (server.delivery pids envs) 131072
        "9P2000" (ready tag fids turns) =
      .ok "9P2000" (ready (tag + 1) fids (turns + 1)) := by
  have hFits : (Call.version 131072 "9P2000").Fits :=
    ⟨by decide, by decide⟩
  have hProbes : (Call.version 131072 "9P2000").Probes :=
    trivial
  have hSafe :
      ¬ (server.loop pids).Hazard (envs turns) fids
        (Call.version 131072 "9P2000").pseudo := by
    intro hHazard
    cases hHazard
  rcases call_of_probes hProbes hFits hSafe tag with
    ⟨fids', reply, hEffect, hReply, hCall⟩
  cases hEffect with
  | version =>
      exact hCall P9Client.decodeVersion
  | refused hRefusal =>
      cases hRefusal

theorem clunk_pseudo
    (fid : UInt32)
    (tag : UInt16) :
    P9Client.clunk (server.delivery pids envs) fid
        (ready tag fids turns) =
      .ok () (ready (tag + 1) (KeyMap.erase fid fids)
        (turns + 1)) := by
  have hFits : (Call.clunk fid).Fits := by
    refine ⟨trivial, ?_⟩
    simp [Call.body, encodeClunkBody]
  have hProbes : (Call.clunk fid).Probes := trivial
  have hSafe :
      ¬ (server.loop pids).Hazard (envs turns) fids
        (Call.clunk fid).pseudo := by
    intro hHazard
    cases hHazard
  rcases call_of_probes hProbes hFits hSafe tag with
    ⟨fids', reply, hEffect, hReply, hCall⟩
  cases hEffect with
  | clunk =>
      exact hCall (pure ())
  | refused hRefusal =>
      cases hRefusal

/- An attach binds its fid to the root, or is lost. -/
theorem attach_pseudo
    {fid : UInt32}
    {uname : String}
    (hFits : (Call.attach fid none uname "").Fits)
    (tag : UInt16) :
    (Roots pids server (envs turns) ∧
      P9Client.attach (server.delivery pids envs) fid none
          uname "" (ready tag fids turns) =
        .ok () (ready (tag + 1)
          (KeyMap.insert fid
            (FidState.new "/" (server.loop pids).rootQid)
            fids) (turns + 1))) ∨
      ¬ Roots pids server (envs turns) ∧
        ∃ fault link,
          P9Client.attach (server.delivery pids envs) fid
              none uname "" (ready tag fids turns) =
            .error fault link := by
  have hProbes : (Call.attach fid none uname "").Probes :=
    trivial
  by_cases hHazard :
      (server.loop pids).Hazard (envs turns) fids
        (Call.attach fid none uname "").pseudo
  · right
    refine ⟨?_, call_of_hazard hFits hHazard tag _⟩
    intro hRoots
    cases hHazard with
    | attachClock hMakes hBefore =>
        exact absurd (hRoots hMakes) (not_le.mpr hBefore)
  · left
    constructor
    · intro hMakes
      by_contra hBefore
      exact hHazard (.attachClock hMakes (not_le.mp hBefore))
    · rcases call_of_probes hProbes hFits hHazard tag with
        ⟨fids', reply, hEffect, hReply, hCall⟩
      cases hEffect with
      | attach =>
          exact hCall (pure ())
      | refused hRefusal =>
          cases hRefusal

variable {fids}

/- A walk from the root finds the whole path, or fails. -/
theorem walk_pseudo
    {fid newfid : UInt32}
    {names : List String}
    {qid : Qid}
    (hFid : fids.lookup fid = some (FidState.new "/" qid))
    (hFits : (Call.walk fid newfid names).Fits)
    (hSome : names ≠ [])
    (tag : UInt16) :
    (FindsPath pids server (envs turns) names ∧
      ∃ count fids',
        P9Client.walk (server.delivery pids envs) fid newfid
            names (ready tag fids turns) =
          .ok count (ready (tag + 1) fids' (turns + 1))) ∨
      ¬ FindsPath pids server (envs turns) names ∧
        ∃ fault link,
          P9Client.walk (server.delivery pids envs) fid
              newfid names (ready tag fids turns) =
            .error fault link := by
  have hProbes : (Call.walk fid newfid names).Probes :=
    trivial
  have hBase :
      (server.loop pids).basePath fids fid = "/" := by
    rw [Loop.basePath, hFid]
    rfl
  by_cases hHazard :
      (server.loop pids).Hazard (envs turns) fids
        (Call.walk fid newfid names).pseudo
  · right
    refine ⟨?_, call_of_hazard hFits hHazard tag _⟩
    rintro ⟨hLock, hSteps⟩
    cases hHazard with
    | walkLock hPoisoned =>
        cases hLock.symm.trans hPoisoned
    | walkRoot hMakes hBefore =>
        exact hSome rfl
    | walkClock hBound hFinds hBefore =>
        exact absurd (hSteps _ hBound).2
          (not_le.mpr hBefore)
  · rcases call_of_probes hProbes hFits hHazard tag with
      ⟨fids', reply, hEffect, hReply, hCall⟩
    have hWalk := hCall P9Client.decodeWalk
    cases hEffect with
    | walk hCount hSteps hAlong =>
        left
        rw [hBase, fs_loop] at hSteps
        constructor
        · refine ⟨?_, hSteps⟩
          by_contra hLock
          exact hHazard
            (.walkLock (eq_true_of_ne_false hLock))
        · rw [Reply.body,
            (P9Client.decodes_decodeWalk hReply).run_nil]
            at hWalk
          exact ⟨_, _, hWalk.trans (if_pos rfl)⟩
    | refused hRefusal =>
        right
        have hError : RERROR ≠ RWALK := by
          decide
        refine ⟨?_, _, _, hWalk.trans (if_neg hError)⟩
        rintro ⟨_, hSteps⟩
        cases hRefusal with
        | walkMissing hBound hBefore hMissing =>
            rw [hBase, fs_loop] at hMissing
            exact hMissing (hSteps _ hBound).1

/- The walk of the probe, from a fid of the root. -/
theorem probeWalk_pseudo
    {names : List String}
    {qid : Qid}
    (hFid : fids.lookup 0 = some (FidState.new "/" qid))
    (hFits : (Call.walk 0 1 names).Fits)
    (tag : UInt16) :
    ((names ≠ [] → FindsPath pids server (envs turns) names) ∧
      ∃ tag' fids' turns',
        probeWalk (server.delivery pids envs) names
            (ready tag fids turns) =
          .ok () (ready tag' fids' turns')) ∨
      (¬ (names ≠ [] →
          FindsPath pids server (envs turns) names) ∧
        ∀ link,
          probeWalk (server.delivery pids envs) names
              (ready tag fids turns) ≠ .ok () link) := by
  by_cases hSome : names = []
  · left
    rw [probeWalk, if_pos hSome]
    exact ⟨fun hNot => (hNot hSome).elim, _, _, _, rfl⟩
  · rw [probeWalk, if_neg hSome]
    rcases walk_pseudo pids server envs turns hFid hFits
        hSome tag with
      ⟨hFinds, count, fids', hWalk⟩ |
        ⟨hMissing, fault, link, hWalk⟩
    · left
      refine ⟨fun _ => hFinds, tag + 1 + 1,
        KeyMap.erase 1 fids', turns + 1 + 1,
        ProbeM.bind_eq_ok_iff.mpr
          ⟨_, _, attempt_eq_ok_iff.mpr hWalk, ?_⟩⟩
      rw [ignoring, clunk_pseudo pids server envs _ _ 1]
    · right
      refine ⟨fun hAll => hMissing (hAll hSome), ?_⟩
      intro after hOk
      rcases ProbeM.bind_eq_ok_iff.mp hOk with
        ⟨_, _, hAttempt, _⟩
      cases (attempt_eq_ok_iff.mp hAttempt).symm.trans hWalk

/-
  A pseudo server that accepts a connection passes the probe
  just when its root can be attached to and, in the turn of
  the walk, every step of the path finds a file.  The turns
  before and after it make no difference.
-/
theorem probeRemoteShare_pseudo_iff
    (pids : PidText Pid)
    (server : PseudoServer)
    (envs : Nat → Access (server.Reading Pid))
    (user : Option String)
    (addr remotePath : String)
    (hUser : (Call.attach 0 none (probeName user) "").Fits)
    (hPath :
      (Call.walk 0 1 (components remotePath)).Fits) :
    probeRemoteShare (fun _ => .ok Service.accepted)
        (server.delivery pids envs) user addr remotePath =
          .ok () ↔
      Roots pids server (envs 1) ∧
        (components remotePath ≠ [] →
          FindsPath pids server (envs 2)
            (components remotePath)) := by
  have hVersion := version_pseudo pids server envs [] 0 0
  have hAttach :=
    attach_pseudo pids server envs [] 1 hUser 1
  have hWalk :=
    @probeWalk_pseudo _ _ pids server envs
      [(0, FidState.new "/" (server.loop pids).rootQid)] 2
      (components remotePath) _ rfl hPath 2
  rw [probeRemoteShare_eq_ok_iff]
  constructor
  · rintro ⟨peer, hPeer, after, hShare⟩
    cases hPeer
    rcases ProbeM.bind_eq_ok_iff.mp hShare with
      ⟨_, _, hFirst, hShare⟩
    cases hVersion.symm.trans (attempt_eq_ok_iff.mp hFirst)
    rcases ProbeM.bind_eq_ok_iff.mp hShare with
      ⟨_, _, hSecond, hShare⟩
    have hAttached := attempt_eq_ok_iff.mp hSecond
    rcases hAttach with
      ⟨hRoots, hAttach⟩ | ⟨_, fault, link, hFails⟩
    · cases hAttach.symm.trans hAttached
      rcases ProbeM.bind_eq_ok_iff.mp hShare with
        ⟨_, _, hThird, _⟩
      rcases hWalk with ⟨hFinds, _⟩ | ⟨_, hFails⟩
      · exact ⟨hRoots, hFinds⟩
      · exact (hFails _ hThird).elim
    · cases hAttached.symm.trans hFails
  · rintro ⟨hRoots, hFinds⟩
    rcases hAttach with
      ⟨_, hAttach⟩ | ⟨hNot, _⟩
    · rcases hWalk with
        ⟨_, tag, fids, turns, hWalk⟩ | ⟨hNot, _⟩
      · refine ⟨_, rfl,
          ready (tag + 1) (KeyMap.erase 0 fids) (turns + 1),
          ProbeM.bind_eq_ok_iff.mpr
            ⟨_, _, attempt_eq_ok_iff.mpr hVersion, ?_⟩⟩
        refine ProbeM.bind_eq_ok_iff.mpr
          ⟨_, _, attempt_eq_ok_iff.mpr hAttach, ?_⟩
        refine ProbeM.bind_eq_ok_iff.mpr ⟨_, _, hWalk, ?_⟩
        exact attempt_eq_ok_iff.mpr
          (clunk_pseudo pids server envs fids turns 0 tag)
      · exact (hNot hFinds).elim
    · exact (hNot hRoots).elim

/- The null device is there, below the root. -/
theorem probeRemoteShare_pseudo_of_null :
    probeRemoteShare (fun _ => .ok Service.accepted)
      (devfs.delivery (⟨id, Nat.repr⟩ : PidText Nat)
        (fun _ => idleAccess (fun _ => 0))) none
      "127.0.0.1:564" "null" = .ok () := by
  refine (probeRemoteShare_pseudo_iff
    (⟨id, Nat.repr⟩ : PidText Nat) .devfs
    (fun _ => idleAccess (fun _ => 0)) none "127.0.0.1:564"
    "null" ⟨by decide, by decide⟩ ⟨by decide, by decide⟩).mpr
    ?_
  refine ⟨fun _ => le_refl 0, fun _ => ⟨rfl, ?_⟩⟩
  intro i hBound
  have hFirst : i = 0 := Nat.lt_one_iff.mp hBound
  subst hFirst
  have hStep :
      stepPath (components "null") "/" 0 = "/null" := by
    decide +kernel
  refine ⟨?_, le_refl 0⟩
  rw [FindsStep, hStep]
  exact ⟨_, rfl⟩

end PseudoServer

end Planten
