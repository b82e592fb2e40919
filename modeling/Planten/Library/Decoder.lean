import Mathlib.Data.List.Basic

/-
  Decoders over a byte cursor.

  A decoder takes bytes off the front of a cursor and fails
  with an error.  `Decodes d bytes a` says that `d` turns
  exactly `bytes` into `a`, whatever follows them.  Decoders
  composed in sequence decode the concatenation of their
  byte strings.  A decoder that is applied over and over
  drains a cursor of its values until it fails.

  Key definitions include:
    * `Decoder`
    * `Decoder.readExact`
    * `Decoder.Yields`
    * `Decoder.FailsIn`
    * `Decoder.Decodes`
    * `Decoder.Truncates`
    * `Decoder.Splits`
    * `Decoder.many`
    * `Decoder.Drains`

  Key theorems include:
    * `Decoder.Decodes.bind`
    * `Decoder.decodes_readExact`
    * `Decoder.run_bind_ok`
    * `Decoder.Yields.bind`
    * `Decoder.FailsIn.bind`
    * `Decoder.length_of_many`
    * `Decoder.decodes_many`
    * `Decoder.Truncates.bind`
    * `Decoder.drains_of_decodes`
    * `Decoder.drains_of_prefix`
-/

------------------------------------------------------------
-- Decoders
------------------------------------------------------------

/- A decoder with errors in `ε` and values in `α`. -/
abbrev Decoder (ε α : Type) :=
  StateT (List UInt8) (Except ε) α

namespace Decoder

variable {ε α β : Type}

/- Take exactly `n` bytes, or fail with `eof`. -/
def readExact
    (eof : ε)
    (n : Nat) : Decoder ε (List UInt8) :=
  fun cursor =>
    if n ≤ cursor.length then
      .ok (cursor.take n, cursor.drop n)
    else
      .error eof

/- Run a decoder `n` times. -/
def many
    (d : Decoder ε α) :
    Nat → Decoder ε (List α)
| 0 => pure []
| n + 1 => do
    let a ← d
    let rest ← many d n
    pure (a :: rest)

/- Every value of the decoder is one of these. -/
def Yields
    (d : Decoder ε α)
    (P : α → Prop) : Prop :=
  ∀ cursor a rest, d.run cursor = .ok (a, rest) → P a

/- Every error of the decoder is one of these. -/
def FailsIn
    (d : Decoder ε α)
    (P : ε → Prop) : Prop :=
  ∀ cursor e, d.run cursor = .error e → P e

/- The decoder turns exactly these bytes into the value. -/
def Decodes
    (d : Decoder ε α)
    (bytes : List UInt8)
    (a : α) : Prop :=
  ∀ rest, d.run (bytes ++ rest) = .ok (a, rest)

end Decoder

------------------------------------------------------------
-- Composition
------------------------------------------------------------

namespace Decoder

variable {ε α β : Type}

theorem decodes_pure (a : α) :
    Decodes (pure a : Decoder ε α) [] a := by
  intro rest
  rfl

/- Decoders in sequence decode concatenated bytes. -/
theorem Decodes.bind
    {d : Decoder ε α}
    {f : α → Decoder ε β}
    {first second : List UInt8}
    {a : α}
    {b : β}
    (hFirst : Decodes d first a)
    (hSecond : Decodes (f a) second b) :
    Decodes (d >>= f) (first ++ second) b := by
  intro rest
  rw [List.append_assoc, StateT.run_bind,
    hFirst (second ++ rest)]
  exact hSecond rest

/- A sequence goes on after the bytes of its first part. -/
theorem Decodes.run_bind
    {d : Decoder ε α}
    {bytes : List UInt8}
    {a : α}
    (hDecodes : Decodes d bytes a)
    (f : α → Decoder ε β)
    (rest : List UInt8) :
    (d >>= f).run (bytes ++ rest) = (f a).run rest := by
  rw [StateT.run_bind, hDecodes rest]
  rfl

/- A final pure step leaves the decoded bytes alone. -/
theorem Decodes.bind_pure
    {d : Decoder ε α}
    {f : α → β}
    {bytes : List UInt8}
    {a : α}
    (hDecodes : Decodes d bytes a) :
    Decodes (d >>= fun x => pure (f x)) bytes (f a) := by
  have hBind :=
    hDecodes.bind (f := fun x => pure (f x))
      (decodes_pure (f a))
  simpa using hBind

/- A map of the value leaves the decoded bytes alone. -/
theorem Decodes.map
    {d : Decoder ε α}
    {f : α → β}
    {bytes : List UInt8}
    {a : α}
    (hDecodes : Decodes d bytes a) :
    Decodes (f <$> d) bytes (f a) :=
  hDecodes.bind_pure

theorem Decodes.run_nil
    {d : Decoder ε α}
    {bytes : List UInt8}
    {a : α}
    (hDecodes : Decodes d bytes a) :
    d.run bytes = .ok (a, []) := by
  simpa using hDecodes []

/- Exactly `n` bytes are taken as they stand. -/
theorem decodes_readExact
    (eof : ε)
    {n : Nat}
    {bytes : List UInt8}
    (hLength : bytes.length = n) :
    Decodes (readExact eof n) bytes bytes := by
  intro rest
  subst hLength
  simp [readExact, StateT.run]

/- A sequence succeeds through a success of its first part. -/
theorem run_bind_ok
    {d : Decoder ε α}
    {f : α → Decoder ε β}
    {cursor rest : List UInt8}
    {b : β}
    (hRun : (d >>= f).run cursor = .ok (b, rest)) :
    ∃ a mid,
      d.run cursor = .ok (a, mid) ∧
        (f a).run mid = .ok (b, rest) := by
  rw [StateT.run_bind] at hRun
  cases hFirst : d.run cursor with
  | error e =>
      rw [hFirst] at hRun
      cases hRun
  | ok r =>
      rw [hFirst] at hRun
      exact ⟨r.1, r.2, rfl, hRun⟩

/- What is taken and what is left make up the cursor. -/
theorem readExact_ok
    {eof : ε}
    {n : Nat}
    {cursor buf rest : List UInt8}
    (hRun :
      (readExact eof n).run cursor = .ok (buf, rest)) :
    cursor = buf ++ rest ∧ buf.length = n := by
  simp only [readExact, StateT.run] at hRun
  split at hRun
  · rename_i hFits
    cases hRun
    exact ⟨(List.take_append_drop n cursor).symm,
      List.length_take_of_le hFits⟩
  · cases hRun

theorem yields_pure
    {P : α → Prop}
    {a : α}
    (hValue : P a) :
    Yields (pure a : Decoder ε α) P := by
  intro cursor a' rest hRun
  cases hRun
  exact hValue

theorem yields_throw
    {P : α → Prop}
    (e : ε) :
    Yields (throw e : Decoder ε α) P := by
  intro cursor a rest hRun
  cases hRun

/- A sequence yields what its last part does. -/
theorem Yields.bind
    {P : α → Prop}
    {Q : β → Prop}
    {d : Decoder ε α}
    {f : α → Decoder ε β}
    (hFirst : Yields d P)
    (hSecond : ∀ a, P a → Yields (f a) Q) :
    Yields (d >>= f) Q := by
  intro cursor b rest hRun
  rcases run_bind_ok hRun with ⟨a, mid, hHead, hTail⟩
  exact hSecond a (hFirst cursor a mid hHead) mid b rest
    hTail

theorem yields_trivial (d : Decoder ε α) :
    Yields d (fun _ => True) := by
  intro cursor a rest hRun
  trivial

theorem failsIn_pure
    {P : ε → Prop}
    (a : α) :
    FailsIn (pure a : Decoder ε α) P := by
  intro cursor e hRun
  cases hRun

theorem failsIn_throw
    {P : ε → Prop}
    {e : ε}
    (hError : P e) :
    FailsIn (throw e : Decoder ε α) P := by
  intro cursor e' hRun
  cases hRun
  exact hError

theorem failsIn_readExact
    {P : ε → Prop}
    {eof : ε}
    (hEof : P eof)
    (n : Nat) :
    FailsIn (readExact eof n) P := by
  intro cursor e hRun
  simp only [readExact, StateT.run] at hRun
  split at hRun
  · cases hRun
  · cases hRun
    exact hEof

/- A sequence fails in one of its parts. -/
theorem FailsIn.bind
    {P : ε → Prop}
    {d : Decoder ε α}
    {f : α → Decoder ε β}
    (hFirst : FailsIn d P)
    (hSecond : ∀ a, FailsIn (f a) P) :
    FailsIn (d >>= f) P := by
  intro cursor e hRun
  rw [StateT.run_bind] at hRun
  cases hHead : d.run cursor with
  | error e' =>
      rw [hHead] at hRun
      cases hRun
      exact hFirst cursor _ hHead
  | ok r =>
      rw [hHead] at hRun
      exact hSecond r.1 r.2 e hRun

/- What is made of the value does not change the error. -/
theorem FailsIn.of_map
    {P : ε → Prop}
    {d : Decoder ε α}
    {cursor : List UInt8}
    {f : α × List UInt8 → β}
    {e : ε}
    (hFails : FailsIn d P)
    (hMap : (d.run cursor).map f = .error e) :
    P e := by
  cases hRun : d.run cursor with
  | error e' =>
      rw [hRun] at hMap
      cases hMap
      exact hFails cursor _ hRun
  | ok r =>
      rw [hRun] at hMap
      cases hMap

theorem FailsIn.many
    {P : ε → Prop}
    {d : Decoder ε α}
    (hFails : FailsIn d P)
    (n : Nat) :
    FailsIn (many d n) P := by
  induction n with
  | zero =>
      exact failsIn_pure []
  | succ n ih =>
      exact hFails.bind (fun _ =>
        ih.bind (fun _ => failsIn_pure _))

/- Repeated decoding gives as many values as asked for. -/
theorem length_of_many
    {d : Decoder ε α}
    {n : Nat}
    {cursor rest : List UInt8}
    {items : List α}
    (hRun : (many d n).run cursor = .ok (items, rest)) :
    items.length = n := by
  induction n generalizing cursor items with
  | zero =>
      cases hRun
      rfl
  | succ n ih =>
      rcases run_bind_ok hRun with ⟨a, mid, _, hRun⟩
      rcases run_bind_ok hRun with ⟨tail, rest', hTail, hRun⟩
      cases hRun
      rw [List.length_cons, ih hTail]

/- How many values there are is the length of their list. -/
theorem map_length_many
    (d : Decoder ε α)
    (n : Nat) :
    (do
        let _ ← many d n
        pure n : Decoder ε Nat) =
      List.length <$> many d n := by
  funext cursor
  change (StateT.bind _ _) cursor = (StateT.map _ _) cursor
  unfold StateT.bind StateT.map
  cases hRun : many d n cursor with
  | error err =>
      rfl
  | ok r =>
      rcases r with ⟨items, rest⟩
      rw [← length_of_many hRun]
      rfl

/- Repeated decoding decodes a list of codes. -/
theorem decodes_many
    {d : Decoder ε α}
    {encode : α → List UInt8}
    {items : List α}
    (hDecodes : ∀ a ∈ items, Decodes d (encode a) a) :
    Decodes (many d items.length)
      (items.flatMap encode) items := by
  induction items with
  | nil =>
      exact decodes_pure []
  | cons a items ih =>
      have hHead := hDecodes a (by simp)
      have hTail := ih (fun b hb =>
        hDecodes b (List.mem_cons_of_mem a hb))
      rw [List.flatMap_cons]
      exact hHead.bind hTail.bind_pure

end Decoder

------------------------------------------------------------
-- Truncated Input
------------------------------------------------------------

namespace Decoder

variable {ε α β : Type}

/- A part of these bytes is refused with the error. -/
def Truncates
    (d : Decoder ε α)
    (bytes : List UInt8)
    (e : ε) : Prop :=
  ∀ part,
    part <+: bytes → part ≠ bytes →
      d.run part = .error e

/- Nothing can be cut off the empty code. -/
theorem truncates_nil
    (d : Decoder ε α)
    (e : ε) :
    Truncates d [] e := by
  intro part hPart hNe
  exact (hNe (List.prefix_nil.mp hPart)).elim

theorem truncates_readExact
    (eof : ε)
    {n : Nat}
    {bytes : List UInt8}
    (hLength : bytes.length = n) :
    Truncates (readExact eof n) bytes eof := by
  intro part hPart hNe
  have hShort : part.length < n := by
    rw [← hLength]
    apply Nat.lt_of_le_of_ne hPart.length_le
    intro hEq
    exact hNe (hPart.eq_of_length hEq)
  simp only [readExact, StateT.run]
  rw [if_neg (Nat.not_le.mpr hShort)]

/-
  A sequence is cut off in the code of its first part, or in
  that of its second.
-/
theorem Truncates.bind
    {d : Decoder ε α}
    {f : α → Decoder ε β}
    {first second : List UInt8}
    {a : α}
    {e : ε}
    (hDecodes : Decodes d first a)
    (hFirst : Truncates d first e)
    (hSecond : Truncates (f a) second e) :
    Truncates (d >>= f) (first ++ second) e := by
  intro part hPart hNe
  rw [StateT.run_bind]
  by_cases hWhole : first <+: part
  · rcases hWhole with ⟨tail, rfl⟩
    rw [List.prefix_append_right_inj] at hPart
    rw [hDecodes tail]
    exact hSecond tail hPart (fun hEq =>
      hNe (congrArg (first ++ ·) hEq))
  · have hHead : part <+: first :=
      (List.prefix_or_prefix_of_prefix hPart
        (List.prefix_append first second)).resolve_right
        hWhole
    have hNeFirst : part ≠ first := by
      rintro rfl
      exact hWhole (List.prefix_refl part)
    rw [hFirst part hHead hNeFirst]
    rfl

/- A final pure step refuses what its first part refuses. -/
theorem Truncates.bind_pure
    {d : Decoder ε α}
    {f : α → β}
    {bytes : List UInt8}
    {a : α}
    {e : ε}
    (hDecodes : Decodes d bytes a)
    (hTruncates : Truncates d bytes e) :
    Truncates (d >>= fun x => pure (f x)) bytes e := by
  have hBind :=
    Truncates.bind (f := fun x => pure (f x)) hDecodes
      hTruncates (truncates_nil _ e)
  simpa using hBind

end Decoder

------------------------------------------------------------
-- Drains
------------------------------------------------------------

namespace Decoder

variable {ε α β : Type}

/-
  The decoder, applied over and over, takes these values off
  a cursor and fails with the error on the bytes left.
-/
inductive Drains
    (d : Decoder ε α) :
    List UInt8 → List α → List UInt8 → ε → Prop where
| stopped
    {cursor : List UInt8} {e : ε}
    (hRun : d.run cursor = .error e) :
    Drains d cursor [] cursor e
| more
    {cursor mid rest : List UInt8} {a : α}
    {items : List α} {e : ε}
    (hRun : d.run cursor = .ok (a, mid))
    (hTail : Drains d mid items rest e) :
    Drains d cursor (a :: items) rest e

/- A cursor is drained in one way only. -/
theorem Drains.unique
    {d : Decoder ε α}
    {cursor rest rest' : List UInt8}
    {items items' : List α}
    {e e' : ε}
    (hDrains : Drains d cursor items rest e)
    (hDrains' : Drains d cursor items' rest' e') :
    items = items' ∧ rest = rest' ∧ e = e' := by
  induction hDrains generalizing items' with
  | stopped hRun =>
      cases hDrains' with
      | stopped hRun' =>
          cases hRun.symm.trans hRun'
          exact ⟨rfl, rfl, rfl⟩
      | more hRun' hTail' =>
          cases hRun.symm.trans hRun'
  | more hRun hTail ih =>
      cases hDrains' with
      | stopped hRun' =>
          cases hRun.symm.trans hRun'
      | more hRun' hTail' =>
          cases hRun.symm.trans hRun'
          rcases ih hTail' with ⟨rfl, hRest⟩
          exact ⟨rfl, hRest⟩

/- Codes in front of a cursor are drained first. -/
theorem Drains.append
    {d : Decoder ε β}
    {encode : α → List UInt8}
    {value : α → β}
    {items : List α}
    {values : List β}
    {cursor rest : List UInt8}
    {e : ε}
    (hDecodes :
      ∀ a ∈ items, Decodes d (encode a) (value a))
    (hDrains : Drains d cursor values rest e) :
    Drains d (items.flatMap encode ++ cursor)
      (items.map value ++ values) rest e := by
  induction items with
  | nil =>
      exact hDrains
  | cons a items ih =>
      rw [List.flatMap_cons, List.append_assoc]
      apply Drains.more
      · exact hDecodes a (List.mem_cons_self ..) _
      · exact ih (fun b hMem =>
          hDecodes b (List.mem_cons_of_mem a hMem))

/- The codes of a list are drained to its values. -/
theorem drains_of_decodes
    {d : Decoder ε β}
    {encode : α → List UInt8}
    {value : α → β}
    {items : List α}
    {e : ε}
    (hDecodes :
      ∀ a ∈ items, Decodes d (encode a) (value a))
    (hEmpty : d.run [] = .error e) :
    Drains d (items.flatMap encode) (items.map value) []
      e := by
  have hDrains := (Drains.stopped hEmpty).append hDecodes
  rwa [List.append_nil, List.append_nil] at hDrains

/- A part of some codes ends inside the code of one item. -/
theorem exists_of_prefix_flatMap
    {encode : α → List UInt8}
    {items : List α}
    {part : List UInt8}
    (hPart : part <+: items.flatMap encode)
    (hNe : part ≠ items.flatMap encode) :
    ∃ done a later cut,
      items = done ++ a :: later ∧
        part = done.flatMap encode ++ cut ∧
        cut <+: encode a ∧ cut ≠ encode a := by
  induction items generalizing part with
  | nil =>
      exact (hNe (List.prefix_nil.mp hPart)).elim
  | cons a items ih =>
      rw [List.flatMap_cons] at hPart hNe
      by_cases hWhole : encode a <+: part
      · rcases hWhole with ⟨tail, rfl⟩
        rw [List.prefix_append_right_inj] at hPart
        rcases ih hPart (fun hEq =>
          hNe (congrArg (encode a ++ ·) hEq)) with
          ⟨done, b, later, cut, rfl, rfl, hCut⟩
        refine ⟨a :: done, b, later, cut, rfl, ?_, hCut⟩
        rw [List.flatMap_cons, List.append_assoc]
      · have hHead : part <+: encode a :=
          (List.prefix_or_prefix_of_prefix hPart
            (List.prefix_append _ _)).resolve_right hWhole
        refine ⟨[], a, items, part, rfl, rfl, hHead, ?_⟩
        rintro rfl
        exact hWhole (List.prefix_refl _)

/-
  Bytes hold some items of a list in whole, from the first
  one on, and behind them a proper part of the next one.
-/
structure Splits
    (encode : α → List UInt8)
    (items : List α)
    (part : List UInt8)
    (whole : List α)
    (cut : List UInt8) : Prop where
  bytes : part = whole.flatMap encode ++ cut
  rest :
    ∃ after,
      items = whole ++ after ∧
        (cut ≠ [] →
          ∃ next later,
            after = next :: later ∧ cut <+: encode next ∧
              cut ≠ encode next)

/- A part of some codes is split into items and a cut. -/
theorem exists_splits
    {encode : α → List UInt8}
    {items : List α}
    {part : List UInt8}
    (hPart : part <+: items.flatMap encode) :
    ∃ whole cut, Splits encode items part whole cut := by
  by_cases hAll : part = items.flatMap encode
  · refine ⟨items, [], ?_, [], ?_, ?_⟩
    · rw [hAll, List.append_nil]
    · rw [List.append_nil]
    · intro hCut
      exact (hCut rfl).elim
  · rcases exists_of_prefix_flatMap hPart hAll with
      ⟨whole, next, later, cut, hItems, hBytes, hCut⟩
    exact ⟨whole, cut, hBytes, next :: later, hItems,
      fun _ => ⟨next, later, rfl, hCut⟩⟩

/- What is split is drained to the items, up to the cut. -/
theorem Splits.drains
    {d : Decoder ε α}
    {encode : α → List UInt8}
    {items whole : List α}
    {part cut : List UInt8}
    {e : ε}
    (hSplits : Splits encode items part whole cut)
    (hDecodes : ∀ a ∈ items, Decodes d (encode a) a)
    (hTruncates : ∀ a ∈ items, Truncates d (encode a) e)
    (hEmpty : d.run [] = .error e) :
    Drains d part whole cut e := by
  rcases hSplits with ⟨rfl, after, rfl, hNext⟩
  have hCut : d.run cut = .error e := by
    by_cases hNil : cut = []
    · rw [hNil]
      exact hEmpty
    · rcases hNext hNil with
        ⟨next, later, rfl, hPrefix, hNe⟩
      exact hTruncates next (by simp) cut hPrefix hNe
  have hDrains :=
    (Drains.stopped hCut).append
      (fun a hMem => hDecodes a (List.mem_append_left _ hMem))
  rwa [List.map_id', List.append_nil] at hDrains

/-
  A part of the codes of a list is drained to the items whose
  codes are complete in it.
-/
theorem drains_of_prefix
    {d : Decoder ε β}
    {encode : α → List UInt8}
    {value : α → β}
    {items : List α}
    {part : List UInt8}
    {e : ε}
    (hDecodes :
      ∀ a ∈ items, Decodes d (encode a) (value a))
    (hTruncates : ∀ a ∈ items, Truncates d (encode a) e)
    (hPart : part <+: items.flatMap encode)
    (hNe : part ≠ items.flatMap encode) :
    ∃ done a later cut,
      items = done ++ a :: later ∧
        part = done.flatMap encode ++ cut ∧
        cut <+: encode a ∧ cut ≠ encode a ∧
        Drains d part (done.map value) cut e := by
  rcases exists_of_prefix_flatMap hPart hNe with
    ⟨done, a, later, cut, rfl, rfl, hCut, hCutNe⟩
  refine ⟨done, a, later, cut, rfl, rfl, hCut, hCutNe, ?_⟩
  have hRun := hTruncates a (by simp) cut hCut hCutNe
  have hDrains :=
    (Drains.stopped hRun).append
      (fun b hMem =>
        hDecodes b (List.mem_append_left _ hMem))
  rwa [List.append_nil] at hDrains

end Decoder
