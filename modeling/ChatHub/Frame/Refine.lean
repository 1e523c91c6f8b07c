/-
# `ChatHub.Frame.Refine` — the decoder refines the reference parser

The decoder is a machine in the sense of `ChatHub.Lib.Machine`: `feedBytes`
and `tryPopFrame` are its two calls.  The abstract machine is the reader of the
reference parser, which keeps only the unread rest, the waiting frames and the
error.  `Refines` is the relation between the two states:

    decoder                                   reader
    decodedFrames                             ready
    failed, error                             broken
    inputBuffer                               pending, while nothing is broken
    hasPendingHeader, frameType, bodyLength   the header of pending, read early
    consumedPrefixSize                        0 between calls

Inside a call the cursor moves, so the loop has an invariant of its own
(`AtBoundary`), about the part of the buffer behind the cursor.  One turn of
the loop is one `refNext` on that part (`decodeStep_more`, `decodeStep_bad`,
`decodeStep_item`); the whole loop is the walk over it (`decode_walk`), by the
induction of the walk.  Then `decoder_simulates` and the run rule of the
library give every run (`decoder_run`).
-/
import ChatHub.Frame.Reference

namespace ChatHub.Contracts

open Streaming Utf8

/-- The decoder as a machine that is fed and popped. -/
def decoder : Machine FrameDecoder UInt8 Frame where
  feed := FrameDecoder.feedBytes
  pop := FrameDecoder.tryPopFrame

namespace FrameDecoder

/-- The part of the buffer behind the cursor. -/
def unread (d : FrameDecoder) : Bytes := d.inputBuffer.drop d.consumedPrefixSize

/-- The head of the loop: the cursor is inside the buffer, nothing has failed,
and a pending header is the header at the cursor. -/
structure AtBoundary (d : FrameDecoder) : Prop where
  cursor : d.consumedPrefixSize ≤ d.inputBuffer.length
  running : d.failed = false
  quiet : d.error = .decoderFailed
  header : d.hasPendingHeader = true → refHeader d.unread = .ok d.frameType d.bodyLength

theorem length_unread (d : FrameDecoder) :
    d.unread.length = d.inputBuffer.length - d.consumedPrefixSize := by
  simp [unread]

/-! ## The header phase -/

theorem byteAt_cursor (d : FrameDecoder) (k : Nat) :
    d.byteAt (d.consumedPrefixSize + k) = d.unread.getD k 0 := by
  simp [byteAt, unread, List.getElem?_drop]

/-- The shifts of the code are base 256. -/
theorem shifts_eq_bigEndian (b₃ b₂ b₁ b₀ : UInt8) :
    ((b₃.toUInt32 <<< 24) ||| (b₂.toUInt32 <<< 16) ||| (b₁.toUInt32 <<< 8) ||| b₀.toUInt32).toNat
      = bigEndian b₃ b₂ b₁ b₀ := by
  have h₃ := b₃.toNat_lt
  have h₂ := b₂.toNat_lt
  have h₁ := b₁.toNat_lt
  have h₀ := b₀.toNat_lt
  have e₁ : (b₁.toNat <<< 8 ||| b₀.toNat) = b₁.toNat * 256 + b₀.toNat := by
    rw [← Nat.shiftLeft_add_eq_or_of_lt h₀, Nat.shiftLeft_eq]
  have e₂ : (b₂.toNat <<< 16 ||| (b₁.toNat * 256 + b₀.toNat))
      = b₂.toNat * 65536 + (b₁.toNat * 256 + b₀.toNat) := by
    rw [← Nat.shiftLeft_add_eq_or_of_lt (by omega), Nat.shiftLeft_eq]
  have e₃ : (b₃.toNat <<< 24 ||| (b₂.toNat * 65536 + (b₁.toNat * 256 + b₀.toNat)))
      = b₃.toNat * 16777216 + (b₂.toNat * 65536 + (b₁.toNat * 256 + b₀.toNat)) := by
    rw [← Nat.shiftLeft_add_eq_or_of_lt (by omega), Nat.shiftLeft_eq]
  have s₃ : (b₃.toUInt32 <<< 24).toNat = b₃.toNat <<< 24 := by
    simp only [UInt32.toNat_shiftLeft, UInt8.toNat_toUInt32, UInt32.reduceToNat, Nat.shiftLeft_eq,
      Nat.reduceMod, Nat.reducePow]
    omega
  have s₂ : (b₂.toUInt32 <<< 16).toNat = b₂.toNat <<< 16 := by
    simp only [UInt32.toNat_shiftLeft, UInt8.toNat_toUInt32, UInt32.reduceToNat, Nat.shiftLeft_eq,
      Nat.reduceMod, Nat.reducePow]
    omega
  have s₁ : (b₁.toUInt32 <<< 8).toNat = b₁.toNat <<< 8 := by
    simp only [UInt32.toNat_shiftLeft, UInt8.toNat_toUInt32, UInt32.reduceToNat, Nat.shiftLeft_eq,
      Nat.reduceMod, Nat.reducePow]
    omega
  simp only [UInt32.toNat_or, UInt8.toNat_toUInt32, s₃, s₂, s₁, Nat.or_assoc, e₁, e₂, e₃, bigEndian]
  omega

/-- The header check of the code on the bytes at the cursor. -/
theorem parseAndValidateHeader_eq {d : FrameDecoder} {m₁ m₀ v t l₃ l₂ l₁ l₀ : UInt8} {r : Bytes}
    (h : d.unread = m₁ :: m₀ :: v :: t :: l₃ :: l₂ :: l₁ :: l₀ :: r) :
    d.parseAndValidateHeader d.consumedPrefixSize =
      match refHeader d.unread with
      | .short => (false, d)
      | .bad e => (false, d.setFailure e)
      | .ok type length => (true, { d with frameType := type, bodyLength := length }) := by
  have hat : ∀ k, d.byteAt (d.consumedPrefixSize + k)
      = (m₁ :: m₀ :: v :: t :: l₃ :: l₂ :: l₁ :: l₀ :: r).getD k 0 := by
    intro k
    rw [byteAt_cursor, h]
  have hat₀ : d.byteAt d.consumedPrefixSize = m₁ := hat 0
  have hlen : (d.headerBodyLength d.consumedPrefixSize).toNat = bigEndian l₃ l₂ l₁ l₀ := by
    simp only [headerBodyLength, hat]
    exact shifts_eq_bigEndian l₃ l₂ l₁ l₀
  rw [h]
  simp only [parseAndValidateHeader, refHeader, hat₀, hat, List.getD_cons_succ, List.getD_cons_zero,
    kFrameMagicHigh, kFrameMagicLow, kProtocolVersion]
  split
  · rfl
  · split
    · rfl
    · cases hd : findProtocol ⟨t⟩ with
      | none => rfl
      | some descriptor =>
          simp only [gt_iff_lt, UInt32.lt_iff_toNat_lt, hlen]
          split
          · rfl
          · simp only [type_of_findProtocol hd]

/-! ## One turn of the loop -/

/-- The turn after the header phase, with a good header at the cursor. -/
theorem takeBody_eq {d : FrameDecoder}
    (hh : refHeader d.unread = .ok d.frameType d.bodyLength) :
    d.takeBody =
      match refNext d.unread with
      | .more => .done d
      | .bad e => .done ({ d with hasPendingHeader := false }.setFailure e)
      | .item f n => .again { d with
          hasPendingHeader := false
          decodedFrames := d.decodedFrames ++ [f]
          consumedPrefixSize := d.consumedPrefixSize + n } := by
  have hbody : (d.inputBuffer.drop (d.consumedPrefixSize + 8)).take d.bodyLength
      = (d.unread.drop 8).take d.bodyLength := by
    simp only [unread, List.drop_drop]
  rw [refNext_ok hh, length_unread]
  simp only [takeBody, kFrameHeaderSize, hbody]
  split
  · rfl
  · by_cases hwf : WellFormed ((d.unread.drop 8).take d.bodyLength)
    · simp only [isValidUtf8_eq_true.mpr hwf, if_pos hwf, Bool.not_true, Bool.false_eq_true,
        if_false]
    · have hbad : isValidUtf8 ((d.unread.drop 8).take d.bodyLength) = false := by
        simpa using mt isValidUtf8_eq_true.mp hwf
      simp only [hbad, if_neg hwf, Bool.not_false, if_true]

/-- The state of the loop once the header at the cursor has been looked at. -/
def readHeader (d : FrameDecoder) : FrameDecoder :=
  match refHeader d.unread with
  | .ok type length =>
      { d with frameType := type, bodyLength := length, hasPendingHeader := true }
  | _ => d

theorem readHeader_pending {d : FrameDecoder} (h : d.AtBoundary)
    (hp : d.hasPendingHeader = true) : d.readHeader = d := by
  simp only [readHeader, h.header hp]
  cases d
  simp_all

theorem readHeader_ok {d : FrameDecoder} {type : ProtocolType} {length : Nat}
    (hh : refHeader d.unread = .ok type length) :
    d.readHeader = { d with
      frameType := type, bodyLength := length, hasPendingHeader := true } := by
  simp only [readHeader, hh]

theorem decodeStep_eq {d : FrameDecoder} (h : d.AtBoundary) :
    d.decodeStep =
      match refHeader d.unread with
      | .short => .done d
      | .bad e => .done (d.setFailure e)
      | .ok _ _ => d.readHeader.takeBody := by
  cases hp : d.hasPendingHeader with
  | true =>
      have hh := h.header hp
      simp only [decodeStep, hp, if_true, hh, readHeader_pending h hp]
  | false =>
      simp only [decodeStep, hp, Bool.false_eq_true, if_false, ← length_unread, kFrameHeaderSize]
      split
      · rename_i hlt
        rw [refHeader_eq_short.mpr hlt]
      · rename_i hge
        obtain ⟨m₁, m₀, v, t, l₃, l₂, l₁, l₀, r, hb⟩ :=
          exists_header_bytes (Nat.le_of_not_lt hge)
        rw [parseAndValidateHeader_eq hb]
        cases hh : refHeader d.unread with
        | short => exact absurd (refHeader_eq_short.mp hh) hge
        | bad e => rfl
        | ok type length => simp only [readHeader, hh]

/-- The whole turn, with a good header at the cursor. -/
theorem decodeStep_ok {d : FrameDecoder} {type : ProtocolType} {length : Nat} (h : d.AtBoundary)
    (hh : refHeader d.unread = .ok type length) :
    d.decodeStep =
      match refNext d.unread with
      | .more => .done { d with
          frameType := type, bodyLength := length, hasPendingHeader := true }
      | .bad e => .done ({ d with
          frameType := type, bodyLength := length, hasPendingHeader := false }.setFailure e)
      | .item f n => .again { d with
          frameType := type, bodyLength := length, hasPendingHeader := false
          decodedFrames := d.decodedFrames ++ [f]
          consumedPrefixSize := d.consumedPrefixSize + n } := by
  rw [decodeStep_eq h, hh]
  show d.readHeader.takeBody = _
  rw [readHeader_ok hh, takeBody_eq (by exact hh)]
  rfl

/-- No verdict yet: the method returns, with the header read if it is there. -/
theorem decodeStep_more {d : FrameDecoder} (h : d.AtBoundary) (hn : refNext d.unread = .more) :
    ∃ d', d.decodeStep = .done d' ∧ d'.AtBoundary ∧ d'.unread = d.unread ∧
      d'.decodedFrames = d.decodedFrames ∧
      (d'.hasPendingHeader = true ↔ 8 ≤ d.unread.length) := by
  cases hh : refHeader d.unread with
  | short =>
      have hstep := decodeStep_eq h
      rw [hh] at hstep
      refine ⟨d, hstep, h, rfl, rfl, ?_⟩
      constructor
      · intro hp
        rw [h.header hp] at hh
        cases hh
      · intro hlen
        exact absurd (refHeader_eq_short.mp hh) (Nat.not_lt.mpr hlen)
  | bad e => simp [refNext, hh] at hn
  | ok type length =>
      have hstep := decodeStep_ok h hh
      rw [hn] at hstep
      have hlen : ¬ d.unread.length < 8 := by
        intro hlt
        rw [refHeader_eq_short.mpr hlt] at hh
        cases hh
      refine ⟨_, hstep, ⟨h.cursor, h.running, h.quiet, fun _ => hh⟩, rfl, rfl, ?_⟩
      exact ⟨fun _ => Nat.le_of_not_lt hlen, fun _ => rfl⟩

/-- A broken frame: the method returns with the failure noted. -/
theorem decodeStep_bad {d : FrameDecoder} {e : FrameErrorKind} (h : d.AtBoundary)
    (hn : refNext d.unread = .bad e) :
    ∃ d', d.decodeStep = .done d' ∧ d'.failed = true ∧ d'.error = e ∧
      d'.decodedFrames = d.decodedFrames := by
  cases hh : refHeader d.unread with
  | short => simp [refNext, hh] at hn
  | bad e' =>
      have hstep := decodeStep_eq h
      rw [hh] at hstep
      simp only [refNext, hh, Verdict.bad.injEq] at hn
      subst hn
      exact ⟨_, hstep, rfl, rfl, rfl⟩
  | ok type length =>
      have hstep := decodeStep_ok h hh
      rw [hn] at hstep
      exact ⟨_, hstep, rfl, rfl, rfl⟩

/-- A complete frame: it is queued, the cursor moves behind it, and the loop
goes round. -/
theorem decodeStep_item {d : FrameDecoder} {f : Frame} {n : Nat} (h : d.AtBoundary)
    (hn : refNext d.unread = .item f n) :
    ∃ d', d.decodeStep = .again d' ∧ d'.AtBoundary ∧
      d'.unread = d.unread.drop n ∧ d'.decodedFrames = d.decodedFrames ++ [f] := by
  obtain ⟨hh, -, hle, -, -⟩ := refNext_item hn
  have hstep := decodeStep_ok h hh
  rw [hn] at hstep
  rw [length_unread] at hle
  have hcursor := h.cursor
  refine ⟨_, hstep, ⟨?_, h.running, h.quiet, ?_⟩, ?_, rfl⟩
  · show d.consumedPrefixSize + n ≤ d.inputBuffer.length
    omega
  · intro hp
    cases hp
  · simp only [unread, List.drop_drop]

/-- Bytes that arrive at a boundary change nothing but the unread part. -/
theorem atBoundary_append {d : FrameDecoder} (h : d.AtBoundary) (chunk : Bytes) :
    ({ d with inputBuffer := d.inputBuffer ++ chunk } : FrameDecoder).AtBoundary ∧
      ({ d with inputBuffer := d.inputBuffer ++ chunk } : FrameDecoder).unread
        = d.unread ++ chunk := by
  have hunread : (d.inputBuffer ++ chunk).drop d.consumedPrefixSize = d.unread ++ chunk :=
    List.drop_append_of_le_length h.cursor
  refine ⟨⟨?_, h.running, h.quiet, ?_⟩, hunread⟩
  · show d.consumedPrefixSize ≤ (d.inputBuffer ++ chunk).length
    rw [List.length_append]
    exact Nat.le_add_right_of_le h.cursor
  · intro hp
    have hold := h.header hp
    show refHeader ((d.inputBuffer ++ chunk).drop d.consumedPrefixSize) = _
    rw [hunread, refHeader_append (by rw [hold]; exact Header.noConfusion), hold]

/-! ## The whole loop -/

/-- What the loop has done to `d` when it returns as `d'`. -/
structure Decoded (d d' : FrameDecoder) : Prop where
  frames : d'.decodedFrames = d.decodedFrames ++ (ref d.unread).1
  waiting : ∀ r, (ref d.unread).2 = .rest r → d'.AtBoundary ∧ d'.unread = r ∧
    (d'.hasPendingHeader = true ↔ 8 ≤ r.length)
  stopped : ∀ e, (ref d.unread).2 = .failed e → d'.failed = true ∧ d'.error = e

/-- The loop is the walk of the reference parser over the unread part. -/
theorem decode_walk {d : FrameDecoder} (h : d.AtBoundary) :
    Decoded d d.decodeAvailableFrames := by
  suffices ∀ b : Bytes, ∀ d : FrameDecoder, d.unread = b → d.AtBoundary →
      Decoded d d.decodeAvailableFrames from this d.unread d rfl h
  intro b
  induction b using ItemParser.walk_induction (p := frameCodec.toItemParser) with
  | more b hn =>
      intro d hb h
      subst hb
      obtain ⟨d', hstep, hat, hu, hframes, hpend⟩ := decodeStep_more h hn
      have hparse : ref d.unread = ([], .rest d.unread) := ItemParser.parse_more hn
      rw [decodeAvailableFrames_of_done hstep]
      refine ⟨?_, ?_, ?_⟩
      · rw [hparse, hframes, List.append_nil]
      · intro r hr
        rw [hparse] at hr
        cases hr
        exact ⟨hat, hu, hpend⟩
      · intro e he
        rw [hparse] at he
        cases he
  | bad b e hn =>
      intro d hb h
      subst hb
      obtain ⟨d', hstep, hfail, herr, hframes⟩ := decodeStep_bad h hn
      have hparse : ref d.unread = ([], .failed e) := ItemParser.parse_bad hn
      rw [decodeAvailableFrames_of_done hstep]
      refine ⟨?_, ?_, ?_⟩
      · rw [hparse, hframes, List.append_nil]
      · intro r hr
        rw [hparse] at hr
        cases hr
      · intro e' he
        rw [hparse] at he
        cases he
        exact ⟨hfail, herr⟩
  | item b f n hn ih =>
      intro d hb h
      subst hb
      obtain ⟨d', hstep, hat, hu, hframes⟩ := decodeStep_item h hn
      have hparse : ref d.unread = (f :: (ref d'.unread).1, (ref d'.unread).2) := by
        rw [hu]
        exact ItemParser.parse_item hn
      have hrest := ih d' hu hat
      rw [decodeAvailableFrames_of_again hstep]
      refine ⟨?_, ?_, ?_⟩
      · rw [hparse, hrest.frames, hframes, List.append_assoc]
        rfl
      · intro r hr
        rw [hparse] at hr
        exact hrest.waiting r hr
      · intro e he
        rw [hparse] at he
        exact hrest.stopped e he

theorem discardConsumedBytes_eq (d : FrameDecoder) :
    d.discardConsumedBytes = { d with inputBuffer := d.unread, consumedPrefixSize := 0 } := by
  simp only [discardConsumedBytes, unread]
  split
  · rfl
  · rename_i hzero
    have hc : d.consumedPrefixSize = 0 := Nat.eq_zero_of_not_pos hzero
    cases d
    simp_all

end FrameDecoder

/-! ## The simulation -/

/-- A decoder between calls, and the reader it stands for. -/
structure Refines (d : FrameDecoder) (s : Reader UInt8 Frame FrameErrorKind) : Prop where
  frames : d.decodedFrames = s.ready
  cursor : d.consumedPrefixSize = 0
  running : s.broken = none → d.AtBoundary ∧ d.inputBuffer = s.pending ∧
    (d.hasPendingHeader = true ↔ 8 ≤ s.pending.length)
  stopped : ∀ e, s.broken = some e → d.failed = true ∧ d.error = e

theorem refines_feed {d : FrameDecoder} {s : Reader UInt8 Frame FrameErrorKind}
    (h : Refines d s) (chunk : Bytes) :
    Refines (d.feedBytes chunk) (s.feed frameCodec.toItemParser chunk) := by
  cases hs : s.broken with
  | some e =>
      have hd : d.feedBytes chunk = d := FrameDecoder.feedBytes_failed (h.stopped e hs).1 chunk
      simpa only [Reader.feed, hs, hd] using h
  | none =>
      obtain ⟨hat, hbuf, hpend⟩ := h.running hs
      -- the loop starts at the old boundary, with the chunk behind it
      obtain ⟨hstart, hunread⟩ := FrameDecoder.atBoundary_append hat chunk
      have hpending : d.unread = s.pending := by
        rw [FrameDecoder.unread, h.cursor, List.drop_zero, hbuf]
      rw [hpending] at hunread
      have hfeed : d.feedBytes chunk = ({ d with inputBuffer := d.inputBuffer ++ chunk } :
          FrameDecoder).decodeAvailableFrames.discardConsumedBytes := by
        simp only [FrameDecoder.feedBytes, hat.running, Bool.false_eq_true, if_false]
      obtain ⟨hframes, hwaiting, hstopped⟩ := FrameDecoder.decode_walk hstart
      rw [hfeed, FrameDecoder.discardConsumedBytes_eq]
      rw [hunread] at hframes hwaiting hstopped
      cases hw : ref (s.pending ++ chunk) with
      | mk fs t =>
          have hparse : frameCodec.parse (s.pending ++ chunk) = (fs, t) := hw
          rw [hw] at hframes hwaiting hstopped
          have hall := hframes.trans (congrArg (· ++ fs) h.frames)
          simp only [Reader.feed, hs, hparse]
          cases t with
          | rest r =>
              obtain ⟨h₁, h₂, h₃⟩ := hwaiting r rfl
              refine ⟨hall, rfl, fun _ => ⟨?_, h₂, h₃⟩, ?_⟩
              · exact ⟨Nat.zero_le _, h₁.running, h₁.quiet, fun hp => h₁.header hp⟩
              · intro e he
                cases he
          | failed e =>
              refine ⟨hall, rfl, ?_, ?_⟩
              · intro hn
                cases hn
              · intro e' he
                cases he
                exact hstopped e rfl

theorem refines_pop {d : FrameDecoder} {s : Reader UInt8 Frame FrameErrorKind} (h : Refines d s) :
    d.tryPopFrame.1 = s.pop.1 ∧ Refines d.tryPopFrame.2 s.pop.2 := by
  obtain ⟨pending, ready, broken⟩ := s
  cases broken with
  | some e =>
      rw [FrameDecoder.tryPopFrame_failed (h.stopped e rfl).1]
      exact ⟨rfl, h⟩
  | none =>
      obtain ⟨hat, hbuf, hpend⟩ := h.running rfl
      have hready : d.decodedFrames = ready := h.frames
      have hrest : ∀ frames, Refines { d with decodedFrames := frames } ⟨pending, frames, none⟩ := by
        intro frames
        refine ⟨rfl, h.cursor, fun _ => ⟨?_, hbuf, hpend⟩, h.stopped⟩
        exact ⟨hat.cursor, hat.running, hat.quiet, hat.header⟩
      rw [FrameDecoder.tryPopFrame_running hat.running, hready]
      cases ready with
      | nil => exact ⟨rfl, hrest []⟩
      | cons f frames => exact ⟨rfl, hrest frames⟩

/-- The decoder answers every call as the reader of the reference parser. -/
theorem decoder_simulates : decoder.Simulates (reader frameCodec.toItemParser) Refines where
  feed := fun h chunk => refines_feed h chunk
  pop := fun h => refines_pop h

theorem refines_fresh : Refines {} .fresh := by
  refine ⟨rfl, rfl, fun _ => ⟨⟨Nat.le_refl 0, rfl, rfl, ?_⟩, rfl, by decide⟩, ?_⟩
  · intro hp
    cases hp
  · intro e he
    cases he

/-! ## Every run -/

/-- Where a decoder stands that has been fed `b` and from which `out` was
popped, in terms of the reference parser alone. -/
structure Stands (b : Bytes) (out : List Frame) (d : FrameDecoder) : Prop where
  frames : out ++ d.decodedFrames = (ref b).1
  cursor : d.consumedPrefixSize = 0
  waiting : ∀ r, (ref b).2 = .rest r → d.failed = false ∧ d.inputBuffer = r ∧
    (d.hasPendingHeader = true ↔ 8 ≤ r.length) ∧
    (d.hasPendingHeader = true → refHeader r = .ok d.frameType d.bodyLength) ∧
    d.error = .decoderFailed
  stopped : ∀ e, (ref b).2 = .failed e → d.failed = true ∧ d.error = e

/-- **After every run the decoder stands where the reference parser stands on
the bytes fed.** -/
theorem decoder_run (ops : List (Op UInt8)) :
    Stands (fed ops) (decoder.run {} ops).1 (decoder.run {} ops).2 := by
  obtain ⟨hout, href⟩ := Machine.run_simulates decoder_simulates ops refines_fresh
  obtain ⟨hitems, hbroken, hpending⟩ := reader_run frameCodec.toItemParser ops
  rw [← hout, ← href.frames] at hitems
  refine ⟨hitems, href.cursor, ?_, ?_⟩
  · intro r hr
    have hnone := hbroken.trans (congrArg Ending.error? hr)
    have hr' := hr.symm.trans (hpending hnone)
    cases hr'
    obtain ⟨hat, hbuf, hpend⟩ := href.running hnone
    refine ⟨hat.running, hbuf, hpend, ?_, hat.quiet⟩
    intro hp
    have hh := hat.header hp
    rwa [FrameDecoder.unread, href.cursor, List.drop_zero, hbuf] at hh
  · intro e he
    exact href.stopped e (hbroken.trans (congrArg Ending.error? he))

end ChatHub.Contracts
