import Planten.NineP.Client
import Planten.PseudoFs.Server

/-
  The probe of a 9P server before it is mounted.

  `10_ns` attaches to the server and walks to the path that
  is to be mounted.  A server answers a walk with a qid for
  each name up to the first that is missing, and the client
  returns how many there are; the probe does not look.  So
  it succeeds where only the first names of the path exist.

  Key definitions include:
    * `probeRemoteShare`
    * `returnedQids`
    * `FoundWhole`
    * `FoundInPart`

  Key theorems include:
    * `walk_eq_map_walkQids`
    * `probeRemoteShare_eq_ok_iff`
    * `foundWhole_of_ok_iff`
-/

------------------------------------------------------------
-- The Probe
------------------------------------------------------------

namespace Planten

variable {σ α β : Type}

/- A probe fails with a message, or panics. -/
inductive ProbeFault where
| panic (cause : Panic)
| failed (message : String)
deriving DecidableEq, Repr

abbrev ProbeM (σ α : Type) :=
  EStateM ProbeFault (P9Client σ) α

/- `map_err`: the message tells what was tried. -/
def attempt
    (what : String)
    (x : ClientM σ α) : ProbeM σ α :=
  fun c =>
    match x c with
    | .ok a c => .ok a c
    | .error (.io err) c =>
        .error (.failed (what ++ ": " ++ err.message)) c
    | .error (.panic cause) c => .error (.panic cause) c

/- `ok`: an error is dropped, and a panic is not. -/
def ignoring (x : ClientM σ α) : ProbeM σ Unit :=
  fun c =>
    match x c with
    | .ok _ c => .ok () c
    | .error (.io _) c => .ok () c
    | .error (.panic cause) c => .error (.panic cause) c

/- The count that the walk returns is dropped. -/
def probeWalk
    (deliver : Delivery σ)
    (names : List String) : ProbeM σ Unit :=
  if names = [] then
    pure ()
  else do
    let _ ← attempt "walk failed"
      (P9Client.walk deliver 0 1 names)
    ignoring (P9Client.clunk deliver 1)

def probeShare
    (deliver : Delivery σ)
    (uname remotePath : String) : ProbeM σ Unit := do
  let _ ← attempt "version exchange failed"
    (P9Client.version deliver 131072 "9P2000")
  attempt "attach failed"
    (P9Client.attach deliver 0 none uname "")
  probeWalk deliver (components remotePath)
  attempt "clunk root fid failed" (P9Client.clunk deliver 0)

/- `USER` of the environment, or a guest. -/
def probeName (user : Option String) : String :=
  user.getD "guest"

/-
  What an address connects to, and the user, are given by
  the host.
-/
def probeRemoteShare
    (connect : String → Except IoError σ)
    (deliver : Delivery σ)
    (user : Option String)
    (addr remotePath : String) : Except ProbeFault Unit :=
  match connect addr with
  | .error err =>
      .error (.failed ("failed to connect to " ++ addr ++
        ": " ++ err.message))
  | .ok peer =>
      match probeShare deliver (probeName user) remotePath
          (P9Client.new peer) with
      | .ok _ _ => .ok ()
      | .error fault _ => .error fault

end Planten

------------------------------------------------------------
-- What the Server Returns
------------------------------------------------------------

namespace Planten

variable {σ : Type}

/- All the qids of an `Rwalk`. -/
def decodeQids : Decoder IoError (List Qid) := do
  let nwqid ← decodeU16
  Decoder.many decodeQid nwqid.toNat

/- The walk of the probe, with the qids it is answered. -/
def walkQids
    (deliver : Delivery σ)
    (names : List String) : ClientM σ (List Qid) :=
  call deliver TWALK (encodeWalkBody 0 1 names) RWALK
    decodeQids

/- The qids that the server returns to the probe. -/
def returnedQids
    (deliver : Delivery σ)
    (uname remotePath : String) :
    ClientM σ (List Qid) := do
  let _ ← P9Client.version deliver 131072 "9P2000"
  P9Client.attach deliver 0 none uname ""
  walkQids deliver (components remotePath)

/- The server lets go of the fids of the probe. -/
def Releases
    (deliver : Delivery σ)
    (c : P9Client σ) : Prop :=
  ∃ c' c'',
    ignoring (P9Client.clunk deliver 1) c = .ok () c' ∧
      P9Client.clunk deliver 0 c' = .ok () c''

/- A qid was returned for every component of the path. -/
def FoundWhole
    (connect : String → Except IoError σ)
    (deliver : Delivery σ)
    (user : Option String)
    (addr remotePath : String) : Prop :=
  components remotePath = [] ∨
    ∃ peer qids c,
      connect addr = .ok peer ∧
        returnedQids deliver (probeName user) remotePath
            (P9Client.new peer) = .ok qids c ∧
          (components remotePath).length ≤ qids.length

/-
  A name of the path is missing, but the server walks the
  names before it, and it accepts the rest of the probe.
-/
def FoundInPart
    (connect : String → Except IoError σ)
    (deliver : Delivery σ)
    (user : Option String)
    (addr remotePath : String) : Prop :=
  ∃ peer qids c,
    connect addr = .ok peer ∧
      returnedQids deliver (probeName user) remotePath
          (P9Client.new peer) = .ok qids c ∧
        qids.length < (components remotePath).length ∧
          Releases deliver c

end Planten

------------------------------------------------------------
-- Probes that Succeed
------------------------------------------------------------

namespace Planten

variable {σ α β : Type}

theorem ProbeM.bind_eq_ok_iff
    {x : ProbeM σ α}
    {f : α → ProbeM σ β}
    {c c' : P9Client σ}
    {b : β} :
    (x >>= f) c = .ok b c' ↔
      ∃ a mid, x c = .ok a mid ∧ f a mid = .ok b c' := by
  change EStateM.bind x f c = _ ↔ _
  unfold EStateM.bind
  cases x c with
  | ok a mid =>
      simp
  | error fault mid =>
      simp

theorem ClientM.bind_eq_ok_iff
    {x : ClientM σ α}
    {f : α → ClientM σ β}
    {c c' : P9Client σ}
    {b : β} :
    (x >>= f) c = .ok b c' ↔
      ∃ a mid, x c = .ok a mid ∧ f a mid = .ok b c' := by
  rw [ClientM.run_bind]
  cases x c with
  | ok a mid =>
      simp
  | error fault mid =>
      simp

theorem ClientM.map_eq_ok_iff
    {x : ClientM σ α}
    {f : α → β}
    {c c' : P9Client σ}
    {b : β} :
    (f <$> x) c = .ok b c' ↔
      ∃ a, x c = .ok a c' ∧ f a = b := by
  change EStateM.map f x c = _ ↔ _
  unfold EStateM.map
  rcases x c with ⟨a, mid⟩ | ⟨fault, mid⟩
  · simp [and_comm]
  · simp

theorem attempt_eq_ok_iff
    {what : String}
    {x : ClientM σ α}
    {c c' : P9Client σ}
    {a : α} :
    attempt what x c = .ok a c' ↔ x c = .ok a c' := by
  unfold attempt
  rcases x c with ⟨a', c''⟩ | ⟨_ | _, c''⟩ <;> simp

/- The count of a walk is that of the qids. -/
theorem decodeWalk_eq_map :
    P9Client.decodeWalk = List.length <$> decodeQids := by
  rw [P9Client.decodeWalk, decodeQids, map_bind]
  simp only [Decoder.map_length_many]

theorem walk_eq_map_walkQids
    (deliver : Delivery σ)
    (names : List String) :
    P9Client.walk deliver 0 1 names =
      List.length <$> walkQids deliver names := by
  rw [P9Client.walk, walkQids, map_call, decodeWalk_eq_map]

/- What the probe needs of the server to succeed. -/
theorem probeShare_eq_ok_iff
    {deliver : Delivery σ}
    {uname remotePath : String}
    {start : P9Client σ}
    (hPath : components remotePath ≠ []) :
    (∃ c, probeShare deliver uname remotePath start =
        .ok () c) ↔
      ∃ qids c,
        returnedQids deliver uname remotePath start =
            .ok qids c ∧
          Releases deliver c := by
  simp only [probeShare, returnedQids, probeWalk,
    if_neg hPath, ProbeM.bind_eq_ok_iff,
    ClientM.bind_eq_ok_iff, attempt_eq_ok_iff,
    walk_eq_map_walkQids, ClientM.map_eq_ok_iff]
  constructor
  · rintro ⟨c, v, c₁, hVersion, _, c₂, hAttach, _, c₄,
      ⟨_, c₃, ⟨qids, hWalk, _⟩, hDrop⟩, hClunk⟩
    exact ⟨qids, c₃, ⟨v, c₁, hVersion, _, c₂, hAttach,
      hWalk⟩, c₄, c, hDrop, hClunk⟩
  · rintro ⟨qids, c₃, ⟨v, c₁, hVersion, _, c₂, hAttach,
      hWalk⟩, c₄, c, hDrop, hClunk⟩
    exact ⟨c, v, c₁, hVersion, _, c₂, hAttach, _, c₄,
      ⟨_, c₃, ⟨qids, hWalk, rfl⟩, hDrop⟩, hClunk⟩

variable {connect : String → Except IoError σ}
variable {deliver : Delivery σ} {user : Option String}
variable {addr remotePath : String}

theorem probeRemoteShare_eq_ok_iff :
    probeRemoteShare connect deliver user addr remotePath =
        .ok () ↔
      ∃ peer,
        connect addr = .ok peer ∧
          ∃ c, probeShare deliver (probeName user)
            remotePath (P9Client.new peer) = .ok () c := by
  unfold probeRemoteShare
  cases connect addr with
  | error err =>
      simp
  | ok peer =>
      dsimp only
      cases hShare : probeShare deliver (probeName user)
          remotePath (P9Client.new peer) with
      | ok a c =>
          simp [hShare]
      | error fault c =>
          simp [hShare]

/- A server that walks a part of the path passes for one. -/
theorem ok_of_foundInPart
    (hPart :
      FoundInPart connect deliver user addr remotePath) :
    probeRemoteShare connect deliver user addr remotePath =
      .ok () := by
  rcases hPart with
    ⟨peer, qids, c, hPeer, hQids, hFewer, hReleases⟩
  have hPath : components remotePath ≠ [] := by
    intro hEmpty
    rw [hEmpty] at hFewer
    exact Nat.not_lt_zero _ hFewer
  apply probeRemoteShare_eq_ok_iff.mpr
  exact ⟨peer, hPeer, (probeShare_eq_ok_iff hPath).mpr
    ⟨qids, c, hQids, hReleases⟩⟩

/- What the server returns is one list of qids. -/
theorem not_foundWhole_of_fewer
    {peer : σ}
    {qids : List Qid}
    {c : P9Client σ}
    (hPeer : connect addr = .ok peer)
    (hQids :
      returnedQids deliver (probeName user) remotePath
        (P9Client.new peer) = .ok qids c)
    (hFewer :
      qids.length < (components remotePath).length) :
    ¬ FoundWhole connect deliver user addr remotePath := by
  rintro (hEmpty | ⟨peer', qids', c', hPeer', hQids', hAll⟩)
  · rw [hEmpty] at hFewer
    exact Nat.not_lt_zero _ hFewer
  · cases hPeer.symm.trans hPeer'
    cases hQids.symm.trans hQids'
    exact absurd hAll (not_le.mpr hFewer)

/-
  A probe that succeeds has found the whole path just if the
  server does not walk it in part and accept the rest.
-/
theorem foundWhole_of_ok_iff
    {σ : Type}
    (connect : String → Except IoError σ)
    (deliver : Delivery σ)
    (user : Option String)
    (addr remotePath : String) :
    (probeRemoteShare connect deliver user addr remotePath =
          .ok () →
        FoundWhole connect deliver user addr remotePath) ↔
      ¬ FoundInPart connect deliver user addr
        remotePath := by
  constructor
  · intro hWhole hPart
    have hFound := hWhole (ok_of_foundInPart hPart)
    rcases hPart with ⟨peer, qids, c, hPeer, hQids, hFewer, _⟩
    exact not_foundWhole_of_fewer hPeer hQids hFewer hFound
  · intro hPart hOk
    by_cases hPath : components remotePath = []
    · exact Or.inl hPath
    · rcases probeRemoteShare_eq_ok_iff.mp hOk with
        ⟨peer, hPeer, hShare⟩
      rcases (probeShare_eq_ok_iff hPath).mp hShare with
        ⟨qids, c, hQids, hReleases⟩
      refine Or.inr ⟨peer, qids, c, hPeer, hQids, ?_⟩
      by_contra hFewer
      exact hPart ⟨peer, qids, c, hPeer, hQids,
        not_le.mp hFewer, hReleases⟩

/- The replies of a server with one directory, `/usr`. -/
def usrReply : PseudoRequest → Reply
| .tversion msize version => versionReply msize version
| .tattach _ _ _ _ => .rattach ⟨0x80, 0, 0⟩
| .twalk _ _ [] => .rwalk []
| .twalk _ _ (name :: _) =>
    if name = "usr" then
      .rwalk [⟨0x80, 0, 1⟩]
    else
      .rerror "file not found"
| .tclunk _ => .rclunk
| _ => .rerror "unsupported"

def usrServer : Delivery Unit :=
  fun _ frame =>
    match RawMessage.readFrom.run frame with
    | .error _ => ((), [])
    | .ok (msg, _) =>
        match PseudoRequest.decode msg.msgType msg.body with
        | .error _ => ((), [])
        | .ok req =>
            match (usrReply req).frame msg.tag with
            | .error _ => ((), [])
            | .ok reply => ((), reply)

/- The server has no `/usr/lib`, and the probe finds it. -/
theorem probed_of_missing_name :
    ¬ ∀ (connect : String → Except IoError Unit)
        (deliver : Delivery Unit)
        (user : Option String)
        (addr remotePath : String),
        probeRemoteShare connect deliver user addr
            remotePath = .ok () →
          FoundWhole connect deliver user addr
            remotePath := by
  intro hAll
  have hOk :
      probeRemoteShare (fun _ => .ok ()) usrServer none
        "127.0.0.1:564" "/usr/lib" = .ok () := by
    decide +kernel
  have hFound :=
    hAll (fun _ => .ok ()) usrServer none "127.0.0.1:564"
      "/usr/lib" hOk
  have hOne :
      (match returnedQids usrServer (probeName none)
          "/usr/lib" (P9Client.new ()) with
        | .ok qids _ => some qids.length
        | .error _ _ => none) = some 1 := by
    decide +kernel
  cases hQids : returnedQids usrServer (probeName none)
      "/usr/lib" (P9Client.new ()) with
  | error fault c =>
      rw [hQids] at hOne
      cases hOne
  | ok qids c =>
      rw [hQids] at hOne
      have hFewer :
          qids.length < (components "/usr/lib").length := by
        rw [Option.some_inj.mp hOne]
        decide
      exact @not_foundWhole_of_fewer Unit
        (fun _ => .ok ()) usrServer none "127.0.0.1:564"
        "/usr/lib" () qids c rfl hQids hFewer hFound

end Planten
