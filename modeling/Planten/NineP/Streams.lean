import Planten.Library.Feeding
import Planten.NineP.Frame
import Planten.NineP.Messages

/-
  Streams of frames and of stat records.

  A frame says how long it is, so a stream of frames is read
  back message by message, a cut stream gives the messages
  whose frames are complete, and nothing but the frame of a
  message is read as that message.  A stat record does the
  same while its length fits 16 bits, and never beyond.

  Key definitions include:
    * `Message`
    * `Message.frame`

  Key theorems include:
    * `truncates_readFrom`, `truncates_decodeStat`
    * `readFrom_ok`
    * `extends_readFrom`, `settles_readFrom`
    * `Message.stream_round_trip`
    * `Stat.decode_encode_iff`
-/

------------------------------------------------------------
-- Truncated Frames
------------------------------------------------------------

namespace Planten

open Decoder (Decodes Truncates)

theorem truncates_word32 (x : UInt32) :
    Truncates (word 4 UInt32.ofNat) (u32le x)
      IoError.eof :=
  Truncates.bind_pure
    (Decoder.decodes_readExact IoError.eof
      (length_u32le x))
    (Decoder.truncates_readExact IoError.eof
      (length_u32le x))

/- A frame that is cut off ends the stream. -/
theorem truncates_readFrom
    (msgType : UInt8)
    (tag : UInt16)
    {body : Bytes}
    (hFits : 7 + body.length < 2 ^ 32) :
    Truncates RawMessage.readFrom
      (frameBytes msgType tag body) IoError.eof := by
  have hSize :
      (frameSize body).toNat = 7 + body.length := by
    simp [frameSize]
    omega
  have hSmall : ¬ frameSize body < 7 := by
    rw [UInt32.lt_iff_toNat_lt, hSize]
    simp
  have hHeader : (msgType :: u16le tag).length = 3 := by
    simp
  have hBody : body.length = (frameSize body).toNat - 7 := by
    omega
  apply Truncates.bind (decodes_word32 _)
    (truncates_word32 _)
  rw [if_neg hSmall]
  exact Truncates.bind
    (Decoder.decodes_readExact IoError.eof hHeader)
    (Decoder.truncates_readExact IoError.eof hHeader)
    (Truncates.bind_pure
      (Decoder.decodes_readExact IoError.eof hBody)
      (Decoder.truncates_readExact IoError.eof hBody))

end Planten

------------------------------------------------------------
-- Frames Read Off a Stream
------------------------------------------------------------

namespace Planten

/- What is read as a word is the code of the word. -/
theorem word32_ok
    {cursor rest : Bytes}
    {x : UInt32}
    (hRun :
      (word 4 UInt32.ofNat).run cursor = .ok (x, rest)) :
    cursor = u32le x ++ rest := by
  rcases Decoder.run_bind_ok hRun with
    ⟨buf, mid, hTake, hPure⟩
  cases hPure
  have hSplit := Decoder.readExact_ok hTake
  have hLt := LittleEndian.value_lt buf
  rw [hSplit.2] at hLt
  have hToNat :
      (UInt32.ofNat (LittleEndian.value buf)).toNat =
        LittleEndian.value buf := by
    simp
    omega
  rw [hSplit.1, u32le, hToNat,
    LittleEndian.bytes_value hSplit.2]

/- The three bytes of a header are a type and a tag. -/
theorem eq_of_header
    {header : Bytes}
    (hLength : header.length = 3) :
    header =
      header.headD 0 ::
        u16le (UInt16.ofNat
          (LittleEndian.value (header.drop 1))) := by
  cases header with
  | nil =>
      cases hLength
  | cons msgType tagBytes =>
      have hTag : tagBytes.length = 2 := by
        simpa using hLength
      have hLt := LittleEndian.value_lt tagBytes
      rw [hTag] at hLt
      have hToNat :
          (UInt16.ofNat
            (LittleEndian.value tagBytes)).toNat =
            LittleEndian.value tagBytes := by
        simp
        omega
      simp only [List.headD_cons, List.drop_succ_cons,
        List.drop_zero, u16le, hToNat,
        LittleEndian.bytes_value hTag]

/- What is read as a message is the frame of the message. -/
theorem readFrom_ok
    {cursor rest : Bytes}
    {msg : RawMessage}
    (hRun :
      RawMessage.readFrom.run cursor = .ok (msg, rest)) :
    7 + msg.body.length < 2 ^ 32 ∧
      msg.size = frameSize msg.body ∧
      cursor =
        frameBytes msg.msgType msg.tag msg.body ++ rest := by
  rcases Decoder.run_bind_ok hRun with
    ⟨size, afterSize, hSize, hRun⟩
  have hWord := word32_ok hSize
  split at hRun
  · cases hRun
  · rename_i hSmall
    rcases Decoder.run_bind_ok hRun with
      ⟨header, afterHeader, hHeader, hRun⟩
    rcases Decoder.run_bind_ok hRun with
      ⟨body, afterBody, hBody, hPure⟩
    cases hPure
    have hFirst := Decoder.readExact_ok hHeader
    have hSecond := Decoder.readExact_ok hBody
    have hLarge : 7 ≤ size.toNat := by
      simpa [UInt32.lt_iff_toNat_lt] using hSmall
    have hLength : 7 + body.length = size.toNat := by
      omega
    have hFrame : frameSize body = size := by
      rw [frameSize, hLength]
      exact UInt32.ofNat_toNat
    have hLt := size.toNat_lt
    have hFits : 7 + body.length < 2 ^ 32 := by
      omega
    refine ⟨hFits, hFrame.symm, ?_⟩
    change cursor =
      (u32le (frameSize body) ++
        (header.headD 0 ::
          u16le (UInt16.ofNat
            (LittleEndian.value (header.drop 1)))) ++
        body) ++ rest
    rw [← eq_of_header hFirst.2, hFrame, hWord, hFirst.1,
      hSecond.1, List.append_assoc, List.append_assoc]

end Planten

------------------------------------------------------------
-- Frames Off a Stream in Parts
------------------------------------------------------------

namespace Planten

/- A frame is read the same whatever comes behind it. -/
theorem extends_readFrom :
    Decoder.Extends RawMessage.readFrom := by
  unfold RawMessage.readFrom word
  refine Decoder.Extends.bind ?_ ?_
  · exact (Decoder.extends_readExact IoError.eof 4).bind
      (fun bytes => Decoder.extends_pure _)
  · intro size
    split
    · exact Decoder.extends_throw _
    · refine (Decoder.extends_readExact _ _).bind ?_
      intro header
      refine (Decoder.extends_readExact _ _).bind ?_
      intro body
      exact Decoder.extends_pure _

/- Bytes behind a bad header do not make it good. -/
theorem settles_readFrom :
    Decoder.Settles RawMessage.readFrom IoError.eof := by
  unfold RawMessage.readFrom word
  refine Decoder.Settles.bind ?_ ?_ ?_
  · exact (Decoder.extends_readExact IoError.eof 4).bind
      (fun bytes => Decoder.extends_pure _)
  · exact Decoder.Settles.bind
      (Decoder.extends_readExact IoError.eof 4)
      (Decoder.settles_readExact IoError.eof 4)
      (fun bytes => Decoder.settles_pure _ _)
  · intro size
    split
    · exact Decoder.settles_throw _ _
    · refine Decoder.Settles.bind
        (Decoder.extends_readExact _ _)
        (Decoder.settles_readExact _ _) ?_
      intro header
      refine Decoder.Settles.bind
        (Decoder.extends_readExact _ _)
        (Decoder.settles_readExact _ _) ?_
      intro body
      exact Decoder.settles_pure _ _

theorem shrinks_readFrom :
    Decoder.Shrinks RawMessage.readFrom := by
  intro cursor msg rest hRun
  rcases readFrom_ok hRun with ⟨_, _, rfl⟩
  rw [List.length_append, frameBytes, List.length_append,
    length_u32le]
  omega

/- A stream ends, or has a header that is too small. -/
theorem failsIn_readFrom :
    Decoder.FailsIn RawMessage.readFrom (fun err =>
      err.kind = .unexpectedEof ↔ err = IoError.eof) := by
  have hEof (n : Nat) :
      Decoder.FailsIn (Decoder.readExact IoError.eof n)
        (fun err =>
          err.kind = .unexpectedEof ↔ err = IoError.eof) :=
    Decoder.failsIn_readExact
      (P := fun err =>
        err.kind = .unexpectedEof ↔ err = IoError.eof)
      (iff_of_true rfl rfl) n
  unfold RawMessage.readFrom word
  refine Decoder.FailsIn.bind
    ((hEof 4).bind (fun bytes => Decoder.failsIn_pure _)) ?_
  intro size
  split
  · exact Decoder.failsIn_throw (by decide)
  · refine (hEof _).bind ?_
    intro header
    refine (hEof _).bind ?_
    intro body
    exact Decoder.failsIn_pure _

end Planten

------------------------------------------------------------
-- Streams of Messages
------------------------------------------------------------

namespace Planten

open Decoder (Decodes Drains Truncates)

/- What a sender puts into a frame. -/
structure Message where
  msgType : UInt8
  tag : UInt16
  body : Bytes
deriving DecidableEq, Repr

/- The frame the library builds for a message. -/
def Message.frame (msg : Message) : Except Panic Bytes :=
  buildFrame msg.msgType msg.tag msg.body

/- The bytes of a message on a stream. -/
def Message.bytes (msg : Message) : Bytes :=
  frameBytes msg.msgType msg.tag msg.body

/- The message as a receiver has it. -/
def Message.received (msg : Message) : RawMessage :=
  ⟨frameSize msg.body, msg.msgType, msg.tag, msg.body⟩

/- Messages that fit are framed one by one. -/
theorem mapM_frame
    {msgs : List Message}
    (hFits :
      ∀ msg ∈ msgs, 7 + msg.body.length < 2 ^ 32) :
    msgs.mapM Message.frame =
      .ok (msgs.map Message.bytes) := by
  induction msgs with
  | nil =>
      rfl
  | cons msg msgs ih =>
      have hHead : msg.frame = .ok msg.bytes :=
        buildFrame_of_fits _ _
          (hFits msg (List.mem_cons_self ..))
      rw [List.mapM_cons, hHead,
        ih (fun other hMem =>
          hFits other (List.mem_cons_of_mem msg hMem))]
      rfl

/-
  The stream of some messages is read back message by
  message, and ends there.  A part of it gives the messages
  whose frames are complete, and ends inside the next frame.
  Whatever is read as a message is the frame of the message.
-/
theorem Message.stream_round_trip
    (msgs : List Message)
    (hFits :
      ∀ msg ∈ msgs, msg.body.length ≤ 2 ^ 32 - 8) :
    msgs.mapM Message.frame =
        .ok (msgs.map Message.bytes) ∧
      (∀ msg ∈ msgs,
        msg.received.size.toNat = 7 + msg.body.length) ∧
      Drains RawMessage.readFrom
        (msgs.flatMap Message.bytes)
        (msgs.map Message.received) [] IoError.eof ∧
      (∀ part,
        part <+: msgs.flatMap Message.bytes →
        part ≠ msgs.flatMap Message.bytes →
        ∃ done next later cut,
          msgs = done ++ next :: later ∧
            part = done.flatMap Message.bytes ++ cut ∧
            cut <+: next.bytes ∧ cut ≠ next.bytes ∧
            Drains RawMessage.readFrom part
              (done.map Message.received) cut
              IoError.eof) ∧
      (∀ cursor msg rest,
        RawMessage.readFrom.run cursor = .ok (msg, rest) →
        ∃ frame,
          buildFrame msg.msgType msg.tag msg.body =
              .ok frame ∧
            cursor = frame ++ rest) := by
  have hLt :
      ∀ msg ∈ msgs, 7 + msg.body.length < 2 ^ 32 := by
    intro msg hMem
    have hLe := hFits msg hMem
    omega
  have hDecodes :
      ∀ msg ∈ msgs,
        Decodes RawMessage.readFrom msg.bytes
          msg.received :=
    fun msg hMem => decodes_readFrom _ _ (hLt msg hMem)
  have hTruncates :
      ∀ msg ∈ msgs,
        Truncates RawMessage.readFrom msg.bytes
          IoError.eof :=
    fun msg hMem => truncates_readFrom _ _ (hLt msg hMem)
  refine ⟨mapM_frame hLt, ?_, ?_, ?_, ?_⟩
  · intro msg hMem
    exact UInt32.toNat_ofNat_of_lt' (hLt msg hMem)
  · exact Decoder.drains_of_decodes hDecodes rfl
  · intro part hPart hNe
    exact Decoder.drains_of_prefix hDecodes hTruncates
      hPart hNe
  · intro cursor msg rest hRun
    rcases readFrom_ok hRun with ⟨hFit, hSize, hCursor⟩
    exact ⟨_, buildFrame_of_fits _ _ hFit, hCursor⟩

/- A version request and a flush with a byte too many. -/
theorem Message.stream_round_trip_pair :
    [Message.mk TVERSION 0xffff [0, 32, 0, 0, 0, 0],
        Message.mk TFLUSH 1 [2, 0, 0]].mapM
        Message.frame =
      .ok [[13, 0, 0, 0, 100, 255, 255, 0, 32, 0, 0, 0, 0],
        [10, 0, 0, 0, 108, 1, 0, 2, 0, 0]] :=
  (Message.stream_round_trip
    [⟨TVERSION, 0xffff, [0, 32, 0, 0, 0, 0]⟩,
      ⟨TFLUSH, 1, [2, 0, 0]⟩]
    (by simp)).1

end Planten

------------------------------------------------------------
-- Streams of Stat Records
------------------------------------------------------------

namespace Planten

open Decoder (Drains Truncates)

theorem truncates_word16 (x : UInt16) :
    Truncates (word 2 UInt16.ofNat) (u16le x)
      IoError.eof :=
  Truncates.bind_pure
    (Decoder.decodes_readExact IoError.eof
      (length_u16le x))
    (Decoder.truncates_readExact IoError.eof
      (length_u16le x))

/- A record that is cut off ends its bytes. -/
theorem truncates_decodeStat
    {stat : Stat}
    (hFits : (statRecord stat).length ≤ 65535) :
    Truncates decodeStat (encodeStatPayload stat)
      IoError.eof := by
  have hSize :
      (statRecord stat).length =
        (UInt16.ofNat (statRecord stat).length).toNat := by
    simp
    omega
  apply Truncates.bind (decodes_word16 _)
    (truncates_word16 _)
  nth_rewrite 2 [← List.append_nil (statRecord stat)]
  exact Truncates.bind
    (Decoder.decodes_readExact IoError.eof hSize)
    (Decoder.truncates_readExact IoError.eof hSize)
    (Decoder.truncates_nil _ _)

theorem extends_text (invalid : String) :
    Decoder.Extends (text invalid) := by
  refine Decoder.Extends.bind ?_ (fun len => ?_)
  · exact (Decoder.extends_readExact _ _).bind
      (fun _ => Decoder.extends_pure _)
  · refine (Decoder.extends_readExact _ _).bind ?_
    intro buf
    cases fromUtf8 buf with
    | none =>
        exact Decoder.extends_throw _
    | some s =>
        exact Decoder.extends_pure s

theorem extends_statFields :
    Decoder.Extends statFields := by
  have hWord
      {α : Type}
      (width : Nat)
      (ofNat : Nat → α) :
      Decoder.Extends (word width ofNat) :=
    (Decoder.extends_readExact _ _).bind
      (fun _ => Decoder.extends_pure _)
  have hQid : Decoder.Extends decodeQid :=
    (Decoder.extends_readExact _ _).bind
      (fun _ => Decoder.extends_pure _)
  refine (hWord 2 _).bind (fun type_ => ?_)
  refine (hWord 4 _).bind (fun dev => ?_)
  refine hQid.bind (fun qid => ?_)
  refine (hWord 4 _).bind (fun mode => ?_)
  refine (hWord 4 _).bind (fun atime => ?_)
  refine (hWord 4 _).bind (fun mtime => ?_)
  refine (hWord 8 _).bind (fun length => ?_)
  refine (extends_text _).bind (fun name => ?_)
  refine (extends_text _).bind (fun uid => ?_)
  refine (extends_text _).bind (fun gid => ?_)
  exact (extends_text _).bind
    (fun muid => Decoder.extends_pure _)

/-
  A record is read out of a cut of its fields, so the fields
  are read alike in whole, with what was cut off left over.
-/
theorem statFields_of_decodeStat
    {stat stat' : Stat}
    {tail rest : Bytes}
    (hRun :
      decodeStat.run (encodeStatPayload stat ++ tail) =
        .ok (stat', rest)) :
    ∃ left,
      statFields.run (statRecord stat) =
          .ok (stat', left) ∧
        (statRecord stat).length ≤ 65535 + left.length := by
  have hSize :
      (UInt16.ofNat (statRecord stat).length).toNat ≤
        (statRecord stat).length := by
    simp only [UInt16.toNat_ofNat']
    exact Nat.mod_le _ _
  rw [encodeStatPayload, List.append_assoc] at hRun
  rcases Decoder.run_bind_ok hRun with
    ⟨size, cursor, hHead, hBuffer⟩
  cases (decodes_word16
    (UInt16.ofNat (statRecord stat).length)
    (statRecord stat ++ tail)).symm.trans hHead
  rcases Decoder.run_bind_ok hBuffer with
    ⟨buffer, after, hTake, hFields⟩
  have hSplit := Decoder.readExact_ok hTake
  have hBuffer :
      statRecord stat =
        buffer ++ (statRecord stat).drop buffer.length := by
    have hTaken : buffer <+: statRecord stat ++ tail := by
      rw [hSplit.1]
      exact List.prefix_append _ _
    have hPrefix : buffer <+: statRecord stat :=
      List.prefix_of_prefix_length_le hTaken
        (List.prefix_append _ _) (hSplit.2.trans_le hSize)
    exact (List.prefix_iff_eq_append.mp hPrefix).symm
  cases hParsed : statFields.run buffer with
  | error e =>
      rw [hParsed] at hFields
      cases hFields
  | ok parsed =>
      rcases parsed with ⟨stat₀, left⟩
      rw [hParsed] at hFields
      cases hFields
      refine ⟨left ++ (statRecord stat).drop buffer.length,
        ?_, ?_⟩
      · have hLonger :=
          extends_statFields buffer _ left
            ((statRecord stat).drop buffer.length) hParsed
        rwa [← hBuffer] at hLonger
      · have hLt := UInt16.toNat_lt
          (UInt16.ofNat (statRecord stat).length)
        rw [List.length_append, List.length_drop, hSplit.2]
        omega

/- A record whose strings fit is read whole or not at all. -/
theorem eq_of_decodeStat
    {stat stat' : Stat}
    {tail rest : Bytes}
    (hFit : stat.StringsFit)
    (hRun :
      decodeStat.run (encodeStatPayload stat ++ tail) =
        .ok (stat', rest)) :
    stat' = stat ∧ (statRecord stat).length ≤ 65535 := by
  rcases statFields_of_decodeStat hRun with
    ⟨left, hFields, hLength⟩
  cases hFields.symm.trans (decodes_statFields hFit).run_nil
  exact ⟨rfl, hLength⟩

/- A name that fits is read as it is. -/
theorem name_of_decodeStat
    {stat stat' : Stat}
    {tail rest : Bytes}
    (hName : stat.name.utf8ByteSize ≤ 65535)
    (hRun :
      decodeStat.run (encodeStatPayload stat ++ tail) =
        .ok (stat', rest)) :
    stat'.name = stat.name := by
  rcases statFields_of_decodeStat hRun with
    ⟨left, hFields, _⟩
  unfold statFields statRecord decodeU16 decodeU32 decodeU64
    decodeString at hFields
  rw [(decodes_word16 _).run_bind,
    (decodes_word32 _).run_bind,
    (decodes_decodeQid _).run_bind,
    (decodes_word32 _).run_bind,
    (decodes_word32 _).run_bind,
    (decodes_word32 _).run_bind,
    (decodes_word64 _).run_bind,
    (decodes_text _ hName).run_bind] at hFields
  rcases Decoder.run_bind_ok hFields with
    ⟨uid, mid, _, hFields⟩
  rcases Decoder.run_bind_ok hFields with
    ⟨gid, mid, _, hFields⟩
  rcases Decoder.run_bind_ok hFields with
    ⟨muid, mid, _, hFields⟩
  cases hFields
  rfl

/-
  A stat record is read back exactly, whatever follows it,
  if and only if its length fits 16 bits.  Records that fit
  are read back one after the other.
-/
theorem Stat.decode_encode_iff :
    (∀ (stat : Stat) (rest : Bytes),
      decodeStat.run (encodeStatPayload stat ++ rest) =
          .ok (stat, rest) ↔
        47 + stat.name.utf8ByteSize +
            stat.uid.utf8ByteSize +
            stat.gid.utf8ByteSize +
            stat.muid.utf8ByteSize ≤ 65535) ∧
      (∀ stats : List Stat,
        (∀ stat ∈ stats,
          47 + stat.name.utf8ByteSize +
            stat.uid.utf8ByteSize +
            stat.gid.utf8ByteSize +
            stat.muid.utf8ByteSize ≤ 65535) →
        Drains decodeStat
          (stats.flatMap encodeStatPayload) stats []
          IoError.eof) := by
  simp only [← length_statRecord]
  constructor
  · intro stat rest
    constructor
    · intro hRun
      by_contra hOversize
      exact lt_irrefl _
        (decodeStat_run_of_oversize
          (not_le.mp hOversize) hRun)
    · intro hFits
      exact decodes_decodeStat hFits rest
  · intro stats hFits
    have hDrains :
        Drains decodeStat
          (stats.flatMap encodeStatPayload)
          (stats.map id) [] IoError.eof :=
      Decoder.drains_of_decodes
        (fun stat hMem =>
          decodes_decodeStat (hFits stat hMem))
        rfl
    rwa [List.map_id] at hDrains

/- Two records of a directory listing are read back. -/
theorem Stat.decode_encode_pair :
    Drains decodeStat
      ([⟨0, 0, ⟨0, 3, 9⟩, 0o644, 3, 3, 5, "a", "user",
          "user", "user"⟩,
        ⟨0, 0, ⟨0x80, 4, 8⟩, 0x800001ed, 4, 4, 0, "b", "",
          "", ""⟩].flatMap encodeStatPayload)
      [⟨0, 0, ⟨0, 3, 9⟩, 0o644, 3, 3, 5, "a", "user",
          "user", "user"⟩,
        ⟨0, 0, ⟨0x80, 4, 8⟩, 0x800001ed, 4, 4, 0, "b", "",
          "", ""⟩] [] IoError.eof :=
  Stat.decode_encode_iff.2 _ (by decide)

end Planten
