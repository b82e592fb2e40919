import Planten.RamFs.Runs

/-
  No file is lost or altered by an unrelated request.

  A path goes only with a removal or a rename at or above
  it, and the node behind it, wherever renames of its
  ancestors take it, changes only through a fid whose path
  denotes it.

  Key definitions include:
    * `Server.Removes`, `Server.Renames`, `Server.Drops`
    * `Server.Modifies`
    * `Server.Creates`
    * `Server.Tracks`

  Key theorems include:
    * `Change.isSome_or`
    * `Change.eq_or`
    * `Server.persistence`
-/

------------------------------------------------------------
-- What Requests Do to a Node
------------------------------------------------------------

namespace Planten

namespace Server

variable (hasher : Hasher)

/- A Tremove, answered Rremove, through a fid at a path. -/
def Removes
    (srv : Server)
    (event : Event)
    (p : List String) : Prop :=
  ∃ clock fids fid state,
    srv.Asks event clock fids (.tremove fid) ∧
      fids.lookup fid = some state ∧
      components state.path = p ∧
      srv.replyType hasher event = some RREMOVE

/-
  A Twstat with a new name, answered Rwstat, through a fid
  at the path of an entry.
-/
def Renames
    (srv : Server)
    (event : Event)
    (parent : List String)
    (filename name : String) : Prop :=
  ∃ clock fids fid record rest state stat,
    srv.Asks event clock fids (.twstat fid record) ∧
      fids.lookup fid = some state ∧
      components state.path = parent ++ [filename] ∧
      decodeStat.run record = .ok (stat, rest) ∧
      stat.name = name ∧ name ≠ "" ∧ name ≠ filename ∧
      srv.replyType hasher event = some RWSTAT

/- A removal or a rename of a path or of an ancestor. -/
def Drops
    (srv : Server)
    (event : Event)
    (p : List String) : Prop :=
  (∃ d, srv.Removes hasher event d ∧ d <+: p) ∨
    ∃ parent filename name,
      srv.Renames hasher event parent filename name ∧
        parent ++ [filename] <+: p

/- A Twrite or Twstat through a fid at a path. -/
def Modifies
    (srv : Server)
    (event : Event)
    (p : List String) : Prop :=
  ∃ clock fids fid state,
    fids.lookup fid = some state ∧
      components state.path = p ∧
      ((∃ offset buffer,
          srv.Asks event clock fids
            (.twrite fid offset buffer)) ∨
        ∃ record,
          srv.Asks event clock fids (.twstat fid record))

/- A Tcreate of a path, answered Rcreate. -/
def Creates
    (srv : Server)
    (event : Event)
    (p : List String) : Prop :=
  ∃ clock fids fid name perm mode state newPath,
    srv.Asks event clock fids
        (.tcreate fid name perm mode) ∧
      fids.lookup fid = some state ∧
      resolveStep state.path name = some newPath ∧
      components newPath = p ∧
      srv.replyType hasher event = some RCREATE

/-
  The node at the first path is at the second one after the
  events: it stays where it is, or moves with a rename at or
  above it, and every step meets a condition on the path it
  is at.
-/
inductive Tracks
    (Q : Server → Event → List String → Prop) :
    Server → List Event →
      List String → List String → Prop where
| done
    {srv : Server} {p : List String} :
    Tracks Q srv [] p p
| stays
    {srv : Server} {event : Event} {events : List Event}
    {p q : List String}
    (hMeets : Q srv event p)
    (hKept : ¬ srv.Drops hasher event p)
    (hRest : Tracks Q (srv.step hasher event) events p q) :
    Tracks Q srv (event :: events) p q
| moves
    {srv : Server} {event : Event} {events : List Event}
    {parent rest q : List String} {filename name : String}
    (hMeets :
      Q srv event (parent ++ [filename] ++ rest))
    (hRenames :
      srv.Renames hasher event parent filename name)
    (hRest :
      Tracks Q (srv.step hasher event) events
        (parent ++ [name] ++ rest) q) :
    Tracks Q srv (event :: events)
      (parent ++ [filename] ++ rest) q

end Server

end Planten

------------------------------------------------------------
-- One Change
------------------------------------------------------------

namespace Planten

variable {clock : Clock} {m m' : FlatFs}
variable {fids : FidTable} {req : Request} {reply : Reply}

/- The change takes away a path. -/
inductive Change.Takes
    (fids : FidTable)
    (p : List String) : Request → Reply → Prop where
| removed
    {fid : UInt32} {state : FidState}
    (hFid : fids.lookup fid = some state)
    (hAbove : components state.path <+: p) :
    Takes fids p (.tremove fid) .rremove
| renamed
    {fid : UInt32} {record rest : Bytes} {state : FidState}
    {stat : Stat} {parent : List String} {filename : String}
    (hFid : fids.lookup fid = some state)
    (hRecord : decodeStat.run record = .ok (stat, rest))
    (hPath : components state.path = parent ++ [filename])
    (hName : stat.name ≠ "")
    (hNew : stat.name ≠ filename)
    (hAbove : parent ++ [filename] <+: p) :
    Takes fids p (.twstat fid record) .rwstat

/- The change is through a fid at a path. -/
inductive Change.Through
    (fids : FidTable)
    (p : List String) : Request → Prop where
| write
    {fid : UInt32} {offset : UInt64} {buffer : Bytes}
    {state : FidState}
    (hFid : fids.lookup fid = some state)
    (hPath : components state.path = p) :
    Through fids p (.twrite fid offset buffer)
| wstat
    {fid : UInt32} {record : Bytes} {state : FidState}
    (hFid : fids.lookup fid = some state)
    (hPath : components state.path = p) :
    Through fids p (.twstat fid record)

/-
  The fields of a node that is not taken away stay as they
  are, unless the change is through a fid at its path.
-/
theorem Change.eq_or
    {p : List String}
    {attrs : Attrs}
    (hClosed : m.Closed)
    (hNode : m p = some attrs)
    (hChange : Change clock m fids req m' reply) :
    m' p = some attrs ∨ Change.Takes fids p req reply ∨
      Change.Through fids p req ∧ (m' p).isSome := by
  have hAssign
      {q : List String}
      {attrs' : Attrs}
      (hThrough : q = p → Change.Through fids p req) :
      m.assign q attrs' p = some attrs ∨
        Change.Takes fids p req reply ∨
        Change.Through fids p req ∧
          (m.assign q attrs' p).isSome := by
    unfold PathMap.assign
    by_cases hHere : p = q
    · rw [if_pos hHere]
      exact Or.inr (Or.inr ⟨hThrough hHere.symm, rfl⟩)
    · rw [if_neg hHere]
      exact Or.inl hNode
  cases hChange with
  | same hQuiet =>
      exact Or.inl hNode
  | created hFid hStep hFresh hEpoch =>
      exact Or.inl (PathMap.fill_of_isSome _ _ _ hNode)
  | written hFid hMode hAllowed hNonempty hHere hData =>
      exact hAssign (fun hPath => .write hFid hPath)
  | restatedRoot hFid hRecord hRoot hHere =>
      exact hAssign
        (fun hPath => .wstat hFid (hRoot.trans hPath))
  | restated hFid hRecord hPath hHere hAttrs hKept =>
      exact hAssign
        (fun hEq => .wstat hFid (hPath.trans hEq))
  | renamed hFid hRecord hPath hHere hAttrs hName hNew
      hFree =>
      rename_i fid record rest state stat attrs₀ attrs'
        parent filename
      by_cases hAbove : parent ++ [filename] <+: p
      · exact Or.inr (Or.inl
          (.renamed hFid hRecord hPath hName hNew hAbove))
      · -- the new name was free, so `p` is not below it
        have hApart : ¬ parent ++ [stat.name] <+: p := by
          intro hBelow
          have hNone :=
            PathMap.eq_none_of_isPrefix hClosed hBelow hFree
          rw [hNode] at hNone
          cases hNone
        rw [PathMap.relabel_of_not_isPrefix m _ hAbove
          hApart]
        exact Or.inl hNode
  | removed hFid hNonempty hHere =>
      rename_i fid state
      by_cases hAbove : components state.path <+: p
      · exact Or.inr (Or.inl (.removed hFid hAbove))
      · rw [PathMap.prune_of_not_isPrefix m hAbove]
        exact Or.inl hNode

/- A path stays unless the change takes it away. -/
theorem Change.isSome_or
    {p : List String}
    (hClosed : m.Closed)
    (hSome : (m p).isSome)
    (hChange : Change clock m fids req m' reply) :
    (m' p).isSome ∨ Change.Takes fids p req reply := by
  rcases Option.isSome_iff_exists.mp hSome with
    ⟨attrs, hNode⟩
  rcases hChange.eq_or hClosed hNode with
    hSame | hTakes | ⟨_, hStays⟩
  · rw [hSame]
    exact Or.inl rfl
  · exact Or.inr hTakes
  · exact Or.inl hStays

end Planten

------------------------------------------------------------
-- One Step
------------------------------------------------------------

namespace Planten

namespace Server

variable {hasher : Hasher}
variable {srv : Server} {event : Event}
variable {clock : Clock} {fids : FidTable}
variable {req : Request} {reply : Reply}
variable {p : List String} {attrs : Attrs}

theorem drops_of_takes
    (hAsks : srv.Asks event clock fids req)
    (hType :
      srv.replyType hasher event = some reply.msgType)
    (hTakes : Change.Takes fids p req reply) :
    srv.Drops hasher event p := by
  cases hTakes with
  | removed hFid hAbove =>
      exact Or.inl ⟨_,
        ⟨_, _, _, _, hAsks, hFid, rfl, hType⟩, hAbove⟩
  | renamed hFid hRecord hPath hName hNew hAbove =>
      exact Or.inr ⟨_, _, _,
        ⟨_, _, _, _, _, _, _, hAsks, hFid, hPath, hRecord,
          rfl, hName, hNew, hType⟩, hAbove⟩

theorem modifies_of_through
    (hAsks : srv.Asks event clock fids req)
    (hThrough : Change.Through fids p req) :
    srv.Modifies event p := by
  cases hThrough with
  | write hFid hPath =>
      exact ⟨_, _, _, _, hFid, hPath,
        Or.inl ⟨_, _, hAsks⟩⟩
  | wstat hFid hPath =>
      exact ⟨_, _, _, _, hFid, hPath, Or.inr ⟨_, hAsks⟩⟩

/- A path stays when an event does not drop it. -/
theorem isSome_step
    (hSome : (srv.ramfs.view p).isSome)
    (hKept : ¬ srv.Drops hasher event p) :
    ((srv.step hasher event).ramfs.view p).isSome := by
  rcases change_of_step hasher srv event with
    ⟨hSame, _⟩ |
      ⟨clock, fids, req, reply, hAsks, hType, hChange⟩
  · rw [hSame]
    exact hSome
  · rcases hChange.isSome_or srv.ramfs.view_closed hSome with
      hStays | hTakes
    · exact hStays
    · exact (hKept (drops_of_takes hAsks hType hTakes)).elim

/- A node stays as it is when an event does not touch it. -/
theorem view_step
    (hNode : srv.ramfs.view p = some attrs)
    (hKept : ¬ srv.Drops hasher event p)
    (hUnmodified : ¬ srv.Modifies event p) :
    (srv.step hasher event).ramfs.view p = some attrs := by
  rcases change_of_step hasher srv event with
    ⟨hSame, _⟩ |
      ⟨clock, fids, req, reply, hAsks, hType, hChange⟩
  · rw [hSame]
    exact hNode
  · rcases hChange.eq_or srv.ramfs.view_closed hNode with
      hSame | hTakes | ⟨hThrough, _⟩
    · exact hSame
    · exact (hKept (drops_of_takes hAsks hType hTakes)).elim
    · exact (hUnmodified
        (modifies_of_through hAsks hThrough)).elim

/- A rename moves the whole branch to the new name. -/
theorem relabel_of_renames
    {parent : List String}
    {filename name : String}
    (hRenames :
      srv.Renames hasher event parent filename name) :
    ∃ attrs',
      (srv.step hasher event).ramfs.view =
        srv.ramfs.view.relabel parent filename name
          attrs' := by
  rcases hRenames with
    ⟨clock, fids, fid, record, rest, state, stat, hAsks,
      hFid, hPath, hRecord, rfl, hName, hNew, hReply⟩
  rcases change_of_step hasher srv event with
    ⟨_, hNone⟩ |
      ⟨clock', fids', req, reply, hAsks', hType, hChange⟩
  · rw [hReply] at hNone
    cases hNone
  · rcases hAsks.unique hAsks' with ⟨rfl, rfl, rfl⟩
    rw [hReply] at hType
    have hRwstat := (Option.some.inj hType).symm
    generalize (srv.step hasher event).ramfs.view = m'
      at hChange ⊢
    cases hChange with
    | same hQuiet =>
        exact (hQuiet.2.2 hRwstat).elim
    | restatedRoot hFid' hRecord' hRoot hNode =>
        rw [hFid] at hFid'
        cases hFid'
        rw [hPath] at hRoot
        exact (List.append_ne_nil_of_right_ne_nil _
          (List.cons_ne_nil _ _) hRoot).elim
    | restated hFid' hRecord' hPath' hNode hAttrs hKept =>
        rw [hFid] at hFid'
        rw [hRecord] at hRecord'
        cases hFid'
        cases hRecord'
        rw [hPath] at hPath'
        have hEq := List.append_inj_right' hPath' rfl
        cases hEq
        rcases hKept with hEmpty | hSame
        · exact (hName hEmpty).elim
        · exact (hNew hSame).elim
    | renamed hFid' hRecord' hPath' hNode hAttrs hName'
        hNew' hFree =>
        rw [hFid] at hFid'
        rw [hRecord] at hRecord'
        cases hFid'
        cases hRecord'
        rw [hPath] at hPath'
        rcases List.append_inj' hPath' rfl with
          ⟨rfl, hEq⟩
        cases hEq
        exact ⟨_, rfl⟩

/- Below a renamed entry nothing but the path changes. -/
theorem view_step_of_renames
    {parent rest : List String}
    {filename name : String}
    (hRenames :
      srv.Renames hasher event parent filename name)
    (hUnmodified :
      ¬ srv.Modifies event (parent ++ [filename] ++ rest))
    (hNode :
      srv.ramfs.view (parent ++ [filename] ++ rest) =
        some attrs) :
    (srv.step hasher event).ramfs.view
        (parent ++ [name] ++ rest) =
      some attrs := by
  have hBelow : rest ≠ [] := by
    rintro rfl
    rw [List.append_nil] at hUnmodified
    rcases hRenames with
      ⟨_, _, _, _, _, _, _, hAsks, hFid, hPath, _⟩
    exact hUnmodified
      ⟨_, _, _, _, hFid, hPath, Or.inr ⟨_, hAsks⟩⟩
  rcases relabel_of_renames hRenames with ⟨attrs', hView⟩
  rw [hView, PathMap.relabel, PathMap.plant_append,
    PathMap.assign, if_neg hBelow]
  exact hNode

end Server

end Planten

------------------------------------------------------------
-- Runs
------------------------------------------------------------

namespace Planten

namespace Server

variable {hasher : Hasher} {srv : Server}

theorem isSome_final
    {events : List Event}
    {p : List String}
    (hSome : (srv.ramfs.view p).isSome)
    (hAlways :
      Run.Always (step hasher)
        (fun srv event => ¬ srv.Drops hasher event p) srv
        events) :
    ((Run.final (step hasher) srv events).ramfs.view
      p).isSome :=
  @Run.invariant_of_always _ _ (step hasher) _
    (fun srv => (srv.ramfs.view p).isSome)
    (fun _ _ hHere hKept => isSome_step hHere hKept)
    srv events hSome hAlways

/- A tracked node that nothing goes through is unchanged. -/
theorem view_of_tracks
    {events : List Event}
    {p q : List String}
    {attrs : Attrs}
    (hNode : srv.ramfs.view p = some attrs)
    (hTracks :
      Tracks hasher
        (fun srv event p => ¬ srv.Modifies event p)
        srv events p q) :
    (Run.final (step hasher) srv events).ramfs.view q =
      some attrs := by
  induction hTracks with
  | done =>
      exact hNode
  | stays hMeets hKept hRest ih =>
      exact ih (view_step hNode hKept hMeets)
  | moves hMeets hRenames hRest ih =>
      exact ih (view_step_of_renames hRenames hMeets hNode)

/- A created path was not there, and is there afterwards. -/
theorem view_of_creates
    {event : Event}
    {p : List String}
    (hCreates : srv.Creates hasher event p) :
    srv.ramfs.view p = none ∧
      ((srv.step hasher event).ramfs.view p).isSome := by
  rcases hCreates with
    ⟨clock, fids, fid, name, perm, mode, state, newPath,
      hAsks, hFid, hStep, rfl, hReply⟩
  rcases change_of_step hasher srv event with
    ⟨_, hNone⟩ |
      ⟨clock', fids', req, reply, hAsks', hType, hChange⟩
  · rw [hReply] at hNone
    cases hNone
  · rcases hAsks.unique hAsks' with ⟨rfl, rfl, rfl⟩
    rw [hReply] at hType
    have hRcreate := (Option.some.inj hType).symm
    generalize (srv.step hasher event).ramfs.view = m'
      at hChange ⊢
    cases hChange with
    | same hQuiet =>
        exact (hQuiet.1 hRcreate).elim
    | created hFid' hStep' hFresh hEpoch =>
        rw [hFid] at hFid'
        cases hFid'
        rw [hStep] at hStep'
        cases hStep'
        exact ⟨hFresh,
          PathMap.isSome_fill _ _ List.prefix_rfl⟩

/-
  In every run of the server, from any state: a path stays
  until a removal or a rename at or above it; a node keeps
  its fields, wherever renames take it, until a write or a
  wstat through a fid at its path; and between two creations
  of one path there is a removal or a rename of it or of an
  ancestor.
-/
theorem persistence
    (hasher : Hasher)
    (srv : Server)
    (events : List Event) :
    (∀ p,
      (srv.ramfs.view p).isSome →
        Run.Always (step hasher)
            (fun srv event => ¬ srv.Drops hasher event p)
            srv events →
          ((Run.final (step hasher) srv events).ramfs.view
            p).isSome) ∧
    (∀ p q attrs,
      srv.ramfs.view p = some attrs →
        Tracks hasher
            (fun srv event p => ¬ srv.Modifies event p)
            srv events p q →
          (Run.final (step hasher) srv events).ramfs.view q =
            some attrs) ∧
    ∀ before between after first second p,
      events =
          before ++ first :: (between ++ second :: after) →
        (Run.final (step hasher) srv before).Creates hasher
            first p →
          (Run.final (step hasher) srv
              (before ++ first :: between)).Creates hasher
              second p →
            ∃ pre event post,
              between = pre ++ event :: post ∧
                (Run.final (step hasher) srv
                  (before ++ first :: pre)).Drops hasher
                  event p := by
  refine ⟨fun p => isSome_final, fun p q attrs =>
    view_of_tracks, ?_⟩
  intro before between after first second p _ hFirst hSecond
  have hThere := (view_of_creates hFirst).2
  have hGone := (view_of_creates hSecond).1
  rw [Run.final_append, Run.final_cons] at hGone
  have hNot :
      ¬ Run.Always (step hasher)
        (fun srv event => ¬ srv.Drops hasher event p)
        ((Run.final (step hasher) srv before).step hasher
          first) between := by
    intro hAlways
    have hStill := isSome_final hThere hAlways
    rw [hGone] at hStill
    cases hStill
  rcases Run.exists_not_of_not_always _ hNot with
    ⟨pre, event, post, hSplit, _, hDrops⟩
  refine ⟨pre, event, post, hSplit, ?_⟩
  rw [Run.final_append, Run.final_cons]
  exact not_not.mp hDrops

end Server

end Planten
