import Planten.Library.Run

/-
  Machines that keep a journal.

  A machine answers each event with an output, or stops for
  good.  Its journal is what it has put out so far, the
  latest first, so the latest output that tells of a matter
  is the first that does.

  Key definitions include:
    * `Journal`
    * `Journal.run`

  Key theorems include:
    * `Journal.map_state_run`
    * `Journal.invariant`
    * `Journal.findSome_cons_of_none`
-/

------------------------------------------------------------
-- Journals
------------------------------------------------------------

/- A state, and the outputs on the way to it. -/
structure Journal (σ ο : Type) where
  state : σ
  entries : List ο

namespace Journal

variable {σ ε ο : Type}

/- The state after an event, unless the machine stops. -/
def plainStep
    (next : σ → ε → Option (σ × ο))
    (s : Option σ)
    (e : ε) : Option σ :=
  s.bind (fun s => (next s e).map Prod.fst)

/- The same, with the output entered. -/
def step
    (next : σ → ε → Option (σ × ο))
    (j : Option (Journal σ ο))
    (e : ε) : Option (Journal σ ο) :=
  j.bind (fun j =>
    (next j.state e).map (fun r =>
      ⟨r.1, r.2 :: j.entries⟩))

/- The journal after some events; it starts empty. -/
def run
    (next : σ → ε → Option (σ × ο))
    (s : σ)
    (es : List ε) : Option (Journal σ ο) :=
  Run.final (step next) (some ⟨s, []⟩) es

variable {next : σ → ε → Option (σ × ο)}

theorem map_state_step
    (j : Option (Journal σ ο))
    (e : ε) :
    (step next j e).map state =
      plainStep next (j.map state) e := by
  cases j with
  | none =>
      rfl
  | some j =>
      simp only [step, plainStep, Option.map_some,
        Option.bind_some, Option.map_map]
      rfl

/- The journal does not change what the machine does. -/
theorem map_state_final
    (j : Option (Journal σ ο))
    (es : List ε) :
    (Run.final (step next) j es).map state =
      Run.final (plainStep next) (j.map state) es := by
  induction es generalizing j with
  | nil =>
      rfl
  | cons e es ih =>
      rw [Run.final_cons, Run.final_cons, ih,
        map_state_step]

theorem map_state_run
    (s : σ)
    (es : List ε) :
    (run next s es).map state =
      Run.final (plainStep next) (some s) es :=
  map_state_final (some ⟨s, []⟩) es

/- What every answered event keeps holds all along. -/
theorem invariant
    {Inv : Journal σ ο → Prop}
    (hStep :
      ∀ j e s' o,
        Inv j → next j.state e = some (s', o) →
          Inv ⟨s', o :: j.entries⟩)
    {s : σ}
    (hInit : Inv ⟨s, []⟩)
    {es : List ε}
    {j : Journal σ ο}
    (hRun : run next s es = some j) :
    Inv j := by
  have hAll :
      ∀ j, run next s es = some j → Inv j := by
    apply @Run.invariant _ _ (step next)
      (fun j => ∀ j', j = some j' → Inv j')
    · intro before e hBefore j hAfter
      rcases Option.bind_eq_some_iff.mp hAfter with
        ⟨j', hHere, hMap⟩
      rcases Option.map_eq_some_iff.mp hMap with
        ⟨⟨s', o⟩, hNext, rfl⟩
      exact hStep j' e s' o (hBefore j' hHere) hNext
    · intro j hHere
      cases hHere
      exact hInit
  exact hAll j hRun

/- An output that says nothing leaves the latest one. -/
theorem findSome_cons_of_none
    {α : Type}
    {tells : ο → Option α}
    {o : ο}
    (hNothing : tells o = none)
    (entries : List ο) :
    (o :: entries).findSome? tells =
      entries.findSome? tells := by
  rw [List.findSome?_cons, hNothing]

end Journal
