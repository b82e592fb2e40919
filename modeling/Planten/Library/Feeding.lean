import Planten.Library.Decoder

/-
  Decoders fed with a stream that arrives in parts.

  What a decoder takes off a cursor it takes off any longer
  one.  So a stream is drained part by part: what is left of
  one part goes in front of the next, and more bytes add
  values behind those there are.

  Key definitions include:
    * `Decoder.Extends`
    * `Decoder.Settles`
    * `Decoder.Shrinks`

  Key theorems include:
    * `Decoder.Extends.bind`
    * `Decoder.exists_drains`
    * `Decoder.Extends.drains_append`
    * `Decoder.Extends.drains_of_settled`
    * `Decoder.Extends.prefix_of_drains`
-/

------------------------------------------------------------
-- Decoders on Longer Cursors
------------------------------------------------------------

namespace Decoder

variable {ε α β : Type}

/- Bytes behind a value make no difference to it. -/
def Extends (d : Decoder ε α) : Prop :=
  ∀ cursor a rest more,
    d.run cursor = .ok (a, rest) →
      d.run (cursor ++ more) = .ok (a, rest ++ more)

/-
  An error other than the end of the cursor is the same
  whatever comes behind it.
-/
def Settles
    (d : Decoder ε α)
    (eof : ε) : Prop :=
  ∀ cursor e more,
    d.run cursor = .error e →
      e ≠ eof → d.run (cursor ++ more) = .error e

/- The decoder takes some bytes off when it succeeds. -/
def Shrinks (d : Decoder ε α) : Prop :=
  ∀ cursor a rest,
    d.run cursor = .ok (a, rest) →
      rest.length < cursor.length

theorem extends_pure (a : α) :
    Extends (pure a : Decoder ε α) := by
  intro cursor a' rest more hRun
  cases hRun
  rfl

theorem extends_throw (e : ε) :
    Extends (throw e : Decoder ε α) := by
  intro cursor a rest more hRun
  cases hRun

theorem extends_readExact
    (eof : ε)
    (n : Nat) :
    Extends (readExact eof n) := by
  intro cursor buf rest more hRun
  have hSplit := readExact_ok hRun
  rw [hSplit.1, List.append_assoc]
  exact decodes_readExact eof hSplit.2 (rest ++ more)

theorem Extends.bind
    {d : Decoder ε α}
    {f : α → Decoder ε β}
    (hFirst : Extends d)
    (hSecond : ∀ a, Extends (f a)) :
    Extends (d >>= f) := by
  intro cursor b rest more hRun
  rcases run_bind_ok hRun with ⟨a, mid, hHead, hTail⟩
  rw [StateT.run_bind, hFirst cursor a mid more hHead]
  exact hSecond a mid b rest more hTail

theorem settles_pure
    (a : α)
    (eof : ε) :
    Settles (pure a : Decoder ε α) eof := by
  intro cursor e more hRun
  cases hRun

theorem settles_throw (e eof : ε) :
    Settles (throw e : Decoder ε α) eof := by
  intro cursor e' more hRun _
  cases hRun
  rfl

theorem settles_readExact
    (eof : ε)
    (n : Nat) :
    Settles (readExact eof n) eof := by
  intro cursor e more hRun hOther
  have hEof :=
    failsIn_readExact (P := (· = eof)) rfl n cursor e hRun
  exact absurd hEof hOther

theorem Settles.bind
    {eof : ε}
    {d : Decoder ε α}
    {f : α → Decoder ε β}
    (hExtends : Extends d)
    (hFirst : Settles d eof)
    (hSecond : ∀ a, Settles (f a) eof) :
    Settles (d >>= f) eof := by
  intro cursor e more hRun hOther
  rw [StateT.run_bind] at hRun ⊢
  cases hHead : d.run cursor with
  | error e' =>
      rw [hHead] at hRun
      cases hRun
      rw [hFirst cursor e more hHead hOther]
      rfl
  | ok r =>
      rw [hHead] at hRun
      rw [hExtends cursor r.1 r.2 more hHead]
      exact hSecond r.1 r.2 e more hRun hOther

end Decoder

------------------------------------------------------------
-- Drains of Parts
------------------------------------------------------------

namespace Decoder

variable {ε α : Type} {d : Decoder ε α}

/- A decoder that takes bytes off drains every cursor. -/
theorem exists_drains
    (hShrinks : Shrinks d)
    (cursor : List UInt8) :
    ∃ items rest e, Drains d cursor items rest e := by
  induction hLength : cursor.length using
      Nat.strongRecOn generalizing cursor with
  | ind n ih =>
      cases hRun : d.run cursor with
      | error e =>
          exact ⟨[], cursor, e, .stopped hRun⟩
      | ok r =>
          have hShorter := hShrinks cursor r.1 r.2 hRun
          rw [hLength] at hShorter
          rcases ih _ hShorter r.2 rfl with
            ⟨items, rest, e, hTail⟩
          exact ⟨r.1 :: items, rest, e, .more hRun hTail⟩

/- What is left of a cursor has no more values. -/
theorem Drains.rest
    {cursor rest : List UInt8}
    {items : List α}
    {e : ε}
    (hDrains : Drains d cursor items rest e) :
    Drains d rest [] rest e := by
  induction hDrains with
  | stopped hRun =>
      exact .stopped hRun
  | more hRun hTail ih =>
      exact ih

namespace Extends

variable {cursor rest more rest' : List UInt8}
variable {items items' : List α} {e e' : ε}

/- What is left of a part is drained with the next one. -/
theorem drains_append
    (hExtends : Extends d)
    (hDrains : Drains d cursor items rest e)
    (hNext : Drains d (rest ++ more) items' rest' e') :
    Drains d (cursor ++ more) (items ++ items') rest' e' := by
  induction hDrains with
  | stopped hRun =>
      exact hNext
  | more hRun hTail ih =>
      exact .more (hExtends _ _ _ more hRun) (ih hNext)

/- Nothing is drained behind an error. -/
theorem drains_of_settled
    {eof : ε}
    (hExtends : Extends d)
    (hSettles : Settles d eof)
    (hDrains : Drains d cursor items rest e)
    (hOther : e ≠ eof)
    (more : List UInt8) :
    Drains d (cursor ++ more) items (rest ++ more) e := by
  induction hDrains with
  | stopped hRun =>
      exact .stopped (hSettles _ _ more hRun hOther)
  | more hRun hTail ih =>
      exact .more (hExtends _ _ _ _ hRun) (ih hOther)

/- More bytes add values behind those there are. -/
theorem prefix_of_drains
    (hExtends : Extends d)
    (hShrinks : Shrinks d)
    (hDrains : Drains d cursor items rest e)
    (hLonger : Drains d (cursor ++ more) items' rest' e') :
    items <+: items' := by
  rcases exists_drains hShrinks (rest ++ more) with
    ⟨added, last, e'', hNext⟩
  rcases (hExtends.drains_append hDrains hNext).unique
    hLonger with ⟨hItems, _⟩
  exact ⟨added, hItems⟩

end Extends

end Decoder
