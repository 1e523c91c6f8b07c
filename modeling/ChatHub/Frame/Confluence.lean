/-
# `ChatHub.Frame.Confluence` — only the bytes and the number of pops matter

A decoder is fed in chunks and popped in between.  Up to a failure nothing of
that history is kept in its state: not the places where the stream was cut, not
the moments at which frames were taken out.

    `feedBytes_append`     two chunks are one, from every state between calls
    `decoder_normal_form`  a run is one feed of all its bytes, up to the frames
                           handed out and the bytes ignored after a failure
    `decoder_confluent`    two runs over the same bytes with equally many frames
                           taken out cannot be told apart by any later call

What may differ after a failure is kept in fields no call looks at any more, so
two decoders that were fed the same bytes and handed out equally many frames
answer every later call alike.

The loop is followed with the bytes of a later chunk already behind it
(`decodeStep_received_again`, `decodeStep_received_running`): a turn does not
see them until it runs out of bytes, and there the second call picks up.
-/
import ChatHub.Frame.Safety

namespace ChatHub.Contracts

open Streaming Utf8

namespace FrameDecoder

/-! ## More bytes behind the buffer -/

theorem received_received (d : FrameDecoder) (a b : Bytes) :
    (d.received a).received b = d.received (a ++ b) := by
  simp only [received, List.append_assoc]

theorem AtBoundary.received {d : FrameDecoder} (h : d.AtBoundary) (b : Bytes) :
    (d.received b).AtBoundary ∧ (d.received b).unread = d.unread ++ b :=
  atBoundary_append h b

/-- A turn that completes a frame completes it with more bytes behind. -/
theorem decodeStep_received_again {d d' : FrameDecoder} (h : d.AtBoundary)
    (hs : d.decodeStep = .again d') (b : Bytes) :
    (d.received b).decodeStep = .again (d'.received b) := by
  obtain ⟨f, hn, rfl⟩ := decodeStep_eq_again h hs
  obtain ⟨hat, hunread⟩ := h.received b
  have hmore : refNext d.unread ≠ .more := by
    intro hm
    rw [hn] at hm
    cases hm
  have hnext : refNext (d.received b).unread = .item f (kFrameHeaderSize + f.body.length) := by
    rw [hunread, refNext_append hmore, hn]
  obtain ⟨hh, -⟩ := refNext_item hnext
  rw [decodeStep_ok hat hh, hnext]
  rfl

/-- A turn that waits for bytes leaves everything to the next call. -/
theorem decodeStep_received_running {d d' : FrameDecoder} (h : d.AtBoundary)
    (hs : d.decodeStep = .done d') (hrun : d'.failed = false) (b : Bytes) :
    d'.AtBoundary ∧ (d.received b).decodeStep = (d'.received b).decodeStep := by
  rw [decodeStep_eq h] at hs
  cases hh : refHeader d.unread with
  | short =>
      rw [hh] at hs
      cases hs
      exact ⟨h, rfl⟩
  | bad e =>
      rw [hh] at hs
      cases hs
      cases hrun
  | ok type length =>
      rw [← decodeStep_eq h, decodeStep_ok h hh] at hs
      cases hn : refNext d.unread with
      | more =>
          rw [hn] at hs
          cases hs
          -- the header is read early, and read again it would be the same
          have hat : AtBoundary { d with
              frameType := type, bodyLength := length, hasPendingHeader := true } :=
            ⟨h.cursor, h.running, h.quiet, fun _ => hh⟩
          refine ⟨hat, ?_⟩
          obtain ⟨hd, hunread⟩ := h.received b
          obtain ⟨hd', hunread'⟩ := hat.received b
          have hheader : refHeader (d.unread ++ b) = .ok type length := by
            rw [refHeader_append (by simp [hh]), hh]
          rw [decodeStep_ok hd (hunread ▸ hheader), decodeStep_ok hd' (hunread' ▸ hheader), hunread,
            hunread']
          rfl
      | bad e =>
          rw [hn] at hs
          cases hs
          cases hrun
      | item f n =>
          rw [hn] at hs
          cases hs

/-- A turn that fails fails with more bytes behind. -/
theorem decodeStep_received_failed {d d' : FrameDecoder} (h : d.AtBoundary)
    (hs : d.decodeStep = .done d') (hfail : d'.failed = true) (b : Bytes) :
    (d.received b).decodeStep = .done (d'.received b) := by
  obtain ⟨hat, hunread⟩ := h.received b
  rw [decodeStep_eq h] at hs
  cases hh : refHeader d.unread with
  | short =>
      rw [hh] at hs
      cases hs
      exact absurd (h.running.symm.trans hfail) Bool.false_ne_true
  | bad e =>
      rw [hh] at hs
      cases hs
      have hheader : refHeader (d.received b).unread = .bad e := by
        rw [hunread, refHeader_append (by simp [hh]), hh]
      rw [decodeStep_eq hat, hheader]
      rfl
  | ok type length =>
      rw [← decodeStep_eq h, decodeStep_ok h hh] at hs
      have hheader : refHeader (d.received b).unread = .ok type length := by
        rw [hunread, refHeader_append (by simp [hh]), hh]
      cases hn : refNext d.unread with
      | more =>
          rw [hn] at hs
          cases hs
          exact absurd (h.running.symm.trans hfail) Bool.false_ne_true
      | bad e =>
          rw [hn] at hs
          cases hs
          have hmore : refNext d.unread ≠ .more := by
            intro hm
            rw [hn] at hm
            cases hm
          rw [decodeStep_ok hat hheader, hunread, refNext_append hmore, hn]
          rfl
      | item f n =>
          rw [hn] at hs
          cases hs

/-! ## The loop with more bytes behind -/

theorem decodeAvailableFrames_congr {d e : FrameDecoder} (h : d.decodeStep = e.decodeStep) :
    d.decodeAvailableFrames = e.decodeAvailableFrames := by
  cases he : e.decodeStep with
  | done e' =>
      rw [decodeAvailableFrames_of_done he, decodeAvailableFrames_of_done (h.trans he)]
  | again e' =>
      rw [decodeAvailableFrames_of_again he, decodeAvailableFrames_of_again (h.trans he)]

/-- Where the loop stops: at a boundary, or behind a failed turn. -/
theorem loop_stops {d : FrameDecoder} (h : d.AtBoundary) :
    d.decodeAvailableFrames.consumedPrefixSize ≤ d.decodeAvailableFrames.inputBuffer.length ∧
      (d.decodeAvailableFrames.failed = false → d.decodeAvailableFrames.AtBoundary) := by
  induction d using decodeAvailableFrames.induct with
  | case1 d d' hstep =>
      rw [decodeAvailableFrames_of_done hstep]
      obtain ⟨hbuf, hcursor, -⟩ := decodeStep_eq_done h hstep
      refine ⟨?_, fun hrun => (decodeStep_received_running h hstep hrun []).1⟩
      rw [hbuf, hcursor]
      exact h.cursor
  | case2 d d' hstep ih =>
      rw [decodeAvailableFrames_of_again hstep]
      obtain ⟨f, hn, -⟩ := decodeStep_eq_again h hstep
      obtain ⟨d₁, hstep₁, hat, -⟩ := decodeStep_item h hn
      cases hstep.symm.trans hstep₁
      exact ih hat

/-- The loop over more bytes is the loop, and then the loop over the rest. -/
theorem loop_received {d : FrameDecoder} (h : d.AtBoundary) (b : Bytes) :
    (d.received b).decodeAvailableFrames =
      if d.decodeAvailableFrames.failed = true then d.decodeAvailableFrames.received b
      else (d.decodeAvailableFrames.received b).decodeAvailableFrames := by
  induction d using decodeAvailableFrames.induct with
  | case1 d d' hstep =>
      rw [decodeAvailableFrames_of_done hstep]
      by_cases hfail : d'.failed = true
      · rw [if_pos hfail]
        exact decodeAvailableFrames_of_done (decodeStep_received_failed h hstep hfail b)
      · rw [if_neg hfail]
        have hrun : d'.failed = false := Bool.eq_false_iff.mpr hfail
        exact decodeAvailableFrames_congr (decodeStep_received_running h hstep hrun b).2
  | case2 d d' hstep ih =>
      obtain ⟨f, hn, -⟩ := decodeStep_eq_again h hstep
      obtain ⟨d₁, hstep₁, hat, -⟩ := decodeStep_item h hn
      cases hstep.symm.trans hstep₁
      rw [decodeAvailableFrames_of_again (decodeStep_received_again h hstep b),
        decodeAvailableFrames_of_again hstep]
      exact ih hat

/-! ## What the loop does not look at -/

/-- A turn with another state at its end. -/
def Turn.map (φ : FrameDecoder → FrameDecoder) : Turn → Turn
  | .done d => .done (φ d)
  | .again d => .again (φ d)

/-- What commutes with a turn commutes with the loop. -/
theorem loop_map {φ : FrameDecoder → FrameDecoder}
    (hφ : ∀ d : FrameDecoder, d.AtBoundary → (φ d).decodeStep = d.decodeStep.map φ)
    {d : FrameDecoder} (h : d.AtBoundary) :
    (φ d).decodeAvailableFrames = φ d.decodeAvailableFrames := by
  induction d using decodeAvailableFrames.induct with
  | case1 d d' hstep =>
      have hs := hφ d h
      rw [hstep] at hs
      rw [decodeAvailableFrames_of_done hs, decodeAvailableFrames_of_done hstep]
  | case2 d d' hstep ih =>
      obtain ⟨f, hn, -⟩ := decodeStep_eq_again h hstep
      obtain ⟨d₁, hstep₁, hat, -⟩ := decodeStep_item h hn
      cases hstep.symm.trans hstep₁
      have hs := hφ d h
      rw [hstep] at hs
      rw [decodeAvailableFrames_of_again hs, decodeAvailableFrames_of_again hstep]
      exact ih hat

/-- The frames that were waiting before, in front of the new ones. -/
def waitingBehind (frames : List Frame) (d : FrameDecoder) : FrameDecoder :=
  { d with decodedFrames := frames ++ d.decodedFrames }

theorem waitingBehind_injective {frames : List Frame} {d d' : FrameDecoder}
    (h : d.waitingBehind frames = d'.waitingBehind frames) : d = d' := by
  cases d
  cases d'
  simp only [FrameDecoder.waitingBehind, FrameDecoder.mk.injEq, List.append_cancel_left_eq] at h ⊢
  exact h

/-- Bytes that have been consumed already, still in front of the buffer. -/
def consumedBehind (w : Bytes) (d : FrameDecoder) : FrameDecoder :=
  { d with inputBuffer := w ++ d.inputBuffer, consumedPrefixSize := w.length + d.consumedPrefixSize }

theorem unread_consumedBehind (w : Bytes) (d : FrameDecoder) :
    (d.consumedBehind w).unread = d.unread := by
  rw [unread, unread, consumedBehind, List.drop_append, Nat.add_sub_cancel_left,
    List.drop_of_length_le (Nat.le_add_right _ _), List.nil_append]

theorem AtBoundary.waitingBehind {d : FrameDecoder} (h : d.AtBoundary) (frames : List Frame) :
    (d.waitingBehind frames).AtBoundary :=
  ⟨h.cursor, h.running, h.quiet, h.header⟩

theorem AtBoundary.consumedBehind {d : FrameDecoder} (h : d.AtBoundary) (w : Bytes) :
    (d.consumedBehind w).AtBoundary := by
  refine ⟨?_, h.running, h.quiet, fun hp => ?_⟩
  · show w.length + d.consumedPrefixSize ≤ (w ++ d.inputBuffer).length
    rw [List.length_append]
    exact Nat.add_le_add_left h.cursor _
  · rw [unread_consumedBehind]
    exact h.header hp

theorem decodeStep_waitingBehind (frames : List Frame) {d : FrameDecoder} (h : d.AtBoundary) :
    (d.waitingBehind frames).decodeStep = d.decodeStep.map (waitingBehind frames) := by
  have hat := h.waitingBehind frames
  have hunread : (d.waitingBehind frames).unread = d.unread := rfl
  cases hh : refHeader d.unread with
  | short =>
      rw [decodeStep_eq hat, decodeStep_eq h, hunread, hh]
      rfl
  | bad e =>
      rw [decodeStep_eq hat, decodeStep_eq h, hunread, hh]
      rfl
  | ok type length =>
      rw [decodeStep_ok hat (hunread ▸ hh), decodeStep_ok h hh, hunread]
      cases refNext d.unread with
      | more => rfl
      | bad e => rfl
      | item f n =>
          simp only [Turn.map, FrameDecoder.waitingBehind, List.append_assoc]

theorem decodeStep_consumedBehind (w : Bytes) {d : FrameDecoder} (h : d.AtBoundary) :
    (d.consumedBehind w).decodeStep = d.decodeStep.map (consumedBehind w) := by
  have hat := h.consumedBehind w
  have hunread := unread_consumedBehind w d
  cases hh : refHeader d.unread with
  | short =>
      rw [decodeStep_eq hat, decodeStep_eq h, hunread, hh]
      rfl
  | bad e =>
      rw [decodeStep_eq hat, decodeStep_eq h, hunread, hh]
      rfl
  | ok type length =>
      rw [decodeStep_ok hat (hunread ▸ hh), decodeStep_ok h hh, hunread]
      cases refNext d.unread with
      | more => rfl
      | bad e => rfl
      | item f n =>
          simp only [Turn.map, FrameDecoder.consumedBehind, Nat.add_assoc]

/-! ## Calls -/

/-- A decoder between two calls that has not failed. -/
structure Settled (d : FrameDecoder) : Prop extends AtBoundary d where
  discarded : d.consumedPrefixSize = 0

theorem AtBoundary.settled {d : FrameDecoder} (h : d.AtBoundary) :
    d.discardConsumedBytes.Settled := by
  rw [discardConsumedBytes_eq]
  exact ⟨⟨Nat.zero_le _, h.running, h.quiet, h.header⟩, rfl⟩

theorem Settled.feedBytes_eq {d : FrameDecoder} (h : d.Settled) (a : Bytes) :
    d.feedBytes a = (d.received a).decodeAvailableFrames.discardConsumedBytes := by
  rw [feedBytes, if_neg (Bool.eq_false_iff.mp h.running)]
  rfl

theorem Settled.feedBytes {d : FrameDecoder} (h : d.Settled) {a : Bytes}
    (hrun : (d.feedBytes a).failed = false) : (d.feedBytes a).Settled := by
  rw [h.feedBytes_eq] at hrun ⊢
  rw [discardConsumedBytes_eq] at hrun
  exact ((loop_stops (h.received a).1).2 hrun).settled

theorem discardConsumedBytes_received {d : FrameDecoder}
    (h : d.consumedPrefixSize ≤ d.inputBuffer.length) (b : Bytes) :
    (d.received b).discardConsumedBytes = d.discardConsumedBytes.received b := by
  rw [discardConsumedBytes_eq, discardConsumedBytes_eq]
  have hunread : (d.received b).unread = d.unread ++ b := List.drop_append_of_le_length h
  rw [hunread]
  rfl

theorem discardConsumedBytes_consumedBehind (w : Bytes) (d : FrameDecoder) :
    (d.consumedBehind w).discardConsumedBytes = d.discardConsumedBytes := by
  rw [discardConsumedBytes_eq, discardConsumedBytes_eq, unread_consumedBehind]
  rfl

/-- Discarding is undone by putting the bytes back. -/
theorem consumedBehind_discard {d : FrameDecoder} (h : d.consumedPrefixSize ≤ d.inputBuffer.length) :
    d.discardConsumedBytes.consumedBehind (d.inputBuffer.take d.consumedPrefixSize) = d := by
  rw [discardConsumedBytes_eq]
  cases d
  simp only [FrameDecoder.consumedBehind, unread, List.take_append_drop, Nat.add_zero, List.length_take]
  rw [Nat.min_eq_left h]

/-- **Two chunks are one.**  If the decoder fails in the first, the second is
what it has not taken in. -/
theorem Settled.feedBytes_append {d : FrameDecoder} (h : d.Settled) (a b : Bytes) :
    d.feedBytes (a ++ b) =
      if (d.feedBytes a).failed = true then (d.feedBytes a).received b
      else (d.feedBytes a).feedBytes b := by
  have hat := (h.received a).1
  obtain ⟨hle, hstop⟩ := loop_stops hat
  have hsame : (d.feedBytes a).failed = (d.received a).decodeAvailableFrames.failed := by
    rw [h.feedBytes_eq, discardConsumedBytes_eq]
  rw [h.feedBytes_eq (a ++ b), ← received_received, loop_received hat, hsame]
  by_cases hfail : (d.received a).decodeAvailableFrames.failed = true
  · rw [if_pos hfail, if_pos hfail, discardConsumedBytes_received hle, h.feedBytes_eq]
  · rw [if_neg hfail, if_neg hfail]
    have hrun := hsame.trans (Bool.eq_false_iff.mpr hfail)
    have hsettled := h.feedBytes hrun
    have hat' : ((d.received a).decodeAvailableFrames.discardConsumedBytes.received b).AtBoundary :=
      ((hstop (Bool.eq_false_iff.mpr hfail)).settled.toAtBoundary.received b).1
    rw [hsettled.feedBytes_eq, h.feedBytes_eq]
    generalize (d.received a).decodeAvailableFrames = e at hle hat'
    -- the second call starts behind the bytes it has discarded
    have hback : e.received b = (e.discardConsumedBytes.received b).consumedBehind
        (e.inputBuffer.take e.consumedPrefixSize) := by
      have hundo := congrArg (·.received b) (consumedBehind_discard hle)
      simp only [FrameDecoder.received, FrameDecoder.consumedBehind, List.append_assoc] at hundo ⊢
      exact hundo.symm
    rw [hback, loop_map (fun _ hd => decodeStep_consumedBehind _ hd) hat',
      discardConsumedBytes_consumedBehind]

theorem Settled.feedBytes_waitingBehind {d : FrameDecoder} (h : d.Settled) (frames : List Frame)
    (a : Bytes) : (d.waitingBehind frames).feedBytes a = (d.feedBytes a).waitingBehind frames := by
  have hs : (d.waitingBehind frames).Settled := ⟨h.toAtBoundary.waitingBehind frames, h.discarded⟩
  have hloop := loop_map (fun _ hd => decodeStep_waitingBehind frames hd) (h.received a).1
  have hswap : (d.waitingBehind frames).received a = (d.received a).waitingBehind frames := rfl
  rw [hs.feedBytes_eq, hswap, hloop, h.feedBytes_eq, discardConsumedBytes_eq,
    discardConsumedBytes_eq]
  rfl

/-- A decoder between two calls: all that is complete has been decoded. -/
structure Waiting (d : FrameDecoder) : Prop extends Settled d where
  more : refNext d.unread = .more

theorem loop_more {d : FrameDecoder} (h : d.AtBoundary)
    (hrun : d.decodeAvailableFrames.failed = false) :
    refNext d.decodeAvailableFrames.unread = .more := by
  obtain ⟨-, hwaiting, hstopped⟩ := decode_walk h
  cases hw : (ref d.unread).2 with
  | rest r =>
      obtain ⟨-, hunread, -⟩ := hwaiting r hw
      rw [hunread]
      exact ItemParser.next_rest (p := frameCodec.toItemParser) _ r hw
  | failed e => exact absurd (hrun.symm.trans (hstopped e hw).1) Bool.false_ne_true

theorem Waiting.feedBytes {d : FrameDecoder} (h : d.Waiting) {chunk : Bytes}
    (hrun : (d.feedBytes chunk).failed = false) : (d.feedBytes chunk).Waiting := by
  refine ⟨h.toSettled.feedBytes hrun, ?_⟩
  rw [h.feedBytes_eq, discardConsumedBytes_eq] at hrun ⊢
  exact loop_more (h.received chunk).1 hrun

end FrameDecoder

open FrameDecoder

/-! ## Runs -/

/-- A fresh decoder is settled, and has nothing to decode. -/
theorem waiting_fresh : Waiting {} := by
  refine ⟨⟨⟨Nat.le_refl 0, rfl, rfl, fun hp => ?_⟩, rfl⟩, rfl⟩
  cases hp

theorem feedBytes_fresh_nil : feedBytes {} [] = {} := by
  have hstep : (received {} []).decodeStep = .done {} := rfl
  rw [waiting_fresh.feedBytes_eq, decodeAvailableFrames_of_done hstep]
  rfl

/-- The decoder is where one feed of the bytes it has used leads, but for the
frames it has handed out; the bytes it ignores are those behind a failure. -/
def NormalForm (b : Bytes) (out : List Frame) (d : FrameDecoder) : Prop :=
  (d.failed = false → d.Waiting) ∧
    ∃ used ignored, b = used ++ ignored ∧ (d.failed = false → ignored = []) ∧
      feedBytes {} used = d.waitingBehind out

theorem NormalForm.feed {b : Bytes} {out : List Frame} {d : FrameDecoder}
    (h : NormalForm b out d) (chunk : Bytes) :
    NormalForm (b ++ chunk) out (d.feedBytes chunk) := by
  obtain ⟨hwaiting, used, ignored, hb, hignored, hone⟩ := h
  cases hfail : d.failed with
  | true =>
      rw [feedBytes_failed hfail]
      refine ⟨hwaiting, used, ignored ++ chunk, ?_, fun hrun => ?_, hone⟩
      · rw [hb, List.append_assoc]
      · cases hfail.symm.trans hrun
  | false =>
      have hw := hwaiting hfail
      rw [hignored hfail, List.append_nil] at hb
      subst hb
      refine ⟨hw.feedBytes, b ++ chunk, [], (List.append_nil _).symm, fun _ => rfl, ?_⟩
      have hrun : ¬ (feedBytes {} b).failed = true := by
        rw [hone]
        exact Bool.eq_false_iff.mp hfail
      rw [waiting_fresh.feedBytes_append, if_neg hrun, hone, hw.feedBytes_waitingBehind]

theorem NormalForm.pop {b : Bytes} {out : List Frame} {d : FrameDecoder}
    (h : NormalForm b out d) : NormalForm b (out ++ d.tryPopFrame.1.toList) d.tryPopFrame.2 := by
  cases hfail : d.failed with
  | true =>
      rw [tryPopFrame_failed hfail, Option.toList_none, List.append_nil]
      exact h
  | false =>
      obtain ⟨hwaiting, used, ignored, hb, hignored, hone⟩ := h
      have hw := hwaiting hfail
      rw [tryPopFrame_running hfail]
      refine ⟨fun _ => ⟨⟨⟨hw.cursor, hw.running, hw.quiet, hw.header⟩, hw.discarded⟩, hw.more⟩,
        used, ignored, hb, fun _ => hignored hfail, ?_⟩
      rw [hone, FrameDecoder.waitingBehind, FrameDecoder.waitingBehind]
      cases hq : d.decodedFrames with
      | nil => simp
      | cons f fs => simp

theorem normalForm_run (ops : List (Op UInt8)) :
    NormalForm (fed ops) (decoder.run {} ops).1 (decoder.run {} ops).2 := by
  refine Machine.run_invariant (I := NormalForm) ?_ ?_ ?_ ops
  · exact ⟨fun _ => waiting_fresh, [], [], rfl, fun _ => rfl, feedBytes_fresh_nil⟩
  · exact fun _ _ _ chunk h => h.feed chunk
  · exact fun _ _ _ h => h.pop

/-- **A run is one feed.**  Whatever the chunks were and whenever frames were
taken out, the decoder is in the state into which one feed of the bytes it has
used brings a fresh one, but for the frames handed out.  Without a failure it
has used all bytes, keeps none that are consumed and has no complete frame left
to decode; with one, it has ignored a last part of them. -/
theorem decoder_normal_form (ops : List (Op UInt8)) :
    let popped := (decoder.run {} ops).1
    let d := (decoder.run {} ops).2
    (d.hasFailed = false → d.Waiting) ∧
      ∃ used ignored, fed ops = used ++ ignored ∧ (d.hasFailed = false → ignored = []) ∧
        feedBytes {} used = { d with decodedFrames := popped ++ d.decodedFrames } :=
  normalForm_run ops

theorem popped_eq_of_length {b : Bytes} {out out' : List Frame} {d d' : FrameDecoder}
    (h : Stands b out d) (h' : Stands b out' d') (hlen : out.length = out'.length) : out = out' := by
  have hsame : out ++ d.decodedFrames = out' ++ d'.decodedFrames := h.frames.trans h'.frames.symm
  exact (List.append_inj hsame hlen).1

/-- Decoders that have failed with one error answer alike. -/
theorem simulates_failed : decoder.Simulates decoder
    fun d d' => d.failed = true ∧ d'.failed = true ∧ d.error = d'.error where
  feed := by
    intro d d' h chunk
    have hfeed : d.feedBytes chunk = d := feedBytes_failed h.1 chunk
    have hfeed' : d'.feedBytes chunk = d' := feedBytes_failed h.2.1 chunk
    show (d.feedBytes chunk).failed = true ∧ (d'.feedBytes chunk).failed = true ∧
      (d.feedBytes chunk).error = (d'.feedBytes chunk).error
    rw [hfeed, hfeed']
    exact h
  pop := by
    intro d d' h
    have hpop : decoder.pop d = (none, d) := tryPopFrame_failed h.1
    have hpop' : decoder.pop d' = (none, d') := tryPopFrame_failed h.2.1
    rw [hpop, hpop']
    exact ⟨rfl, h⟩

/-- **The history is forgotten.**  Two decoders that have been fed the same
bytes, cut in any way, and have handed out equally many frames at any moments,
have handed out the same frames; they are in the same state unless they have
failed, and in any case they answer every later sequence of calls alike. -/
theorem decoder_confluent {ops ops' : List (Op UInt8)} (hfed : fed ops = fed ops')
    (hpopped : (decoder.run {} ops).1.length = (decoder.run {} ops').1.length) :
    (decoder.run {} ops).1 = (decoder.run {} ops').1 ∧
    ((decoder.run {} ops).2.hasFailed = false →
      (decoder.run {} ops).2 = (decoder.run {} ops').2) ∧
    ∀ later : List (Op UInt8),
      (decoder.run {} (ops ++ later)).1 = (decoder.run {} (ops' ++ later)).1 ∧
      (decoder.run {} (ops ++ later)).2.hasFailed = (decoder.run {} (ops' ++ later)).2.hasFailed ∧
      (decoder.run {} (ops ++ later)).2.error = (decoder.run {} (ops' ++ later)).2.error := by
  have hs := decoder_run ops
  have hs' := decoder_run ops'
  obtain ⟨-, used, ignored, hbytes, hignored, hone⟩ := normalForm_run ops
  obtain ⟨-, used', ignored', hbytes', hignored', hone'⟩ := normalForm_run ops'
  rw [← hfed] at hs' hbytes'
  have hout := popped_eq_of_length hs hs' hpopped
  have hfailed : (decoder.run {} ops).2.failed = (decoder.run {} ops').2.failed :=
    Bool.eq_iff_iff.mpr (hs.failed_iff.trans hs'.failed_iff.symm)
  simp only [Machine.run_append]
  generalize (decoder.run {} ops).1 = out at *
  generalize (decoder.run {} ops').1 = out' at *
  generalize (decoder.run {} ops).2 = d at *
  generalize (decoder.run {} ops').2 = d' at *
  subst hout
  cases hd : d.failed with
  | false =>
      have hd' := hfailed.symm.trans hd
      have hused : used = used' := by
        rw [hignored hd, List.append_nil] at hbytes
        rw [hignored' hd', List.append_nil] at hbytes'
        exact hbytes.symm.trans hbytes'
      have hwaiting : d.waitingBehind out = d'.waitingBehind out := by
        rw [← hone, ← hone', hused]
      have hstate : d = d' := waitingBehind_injective hwaiting
      subst hstate
      exact ⟨rfl, fun _ => rfl, fun _ => ⟨rfl, rfl, rfl⟩⟩
  | true =>
      have hd' := hfailed.symm.trans hd
      obtain ⟨e, he⟩ := hs.failed_iff.mp hd
      have herr : d.error = d'.error := (hs.stopped e he).2.trans (hs'.stopped e he).2.symm
      refine ⟨rfl, fun hrun => ?_, fun later => ?_⟩
      · cases hd.symm.trans hrun
      · obtain ⟨hlater, hf, hf', herr'⟩ :=
          Machine.run_simulates simulates_failed later ⟨hd, hd', herr⟩
        exact ⟨congrArg (out ++ ·) hlater, hf.trans hf'.symm, herr'⟩

/-- A heartbeat in one chunk, and byte by byte with pops in between. -/
theorem decoder_confluent_heartbeat :
    (decoder.run {} [.feed [0x43, 0x48, 1, 0x02, 0, 0, 0, 0], .pop]).2 =
      (decoder.run {} [.feed [0x43], .pop, .feed [0x48, 1, 0x02], .feed [0, 0, 0, 0], .pop]).2 :=
  (decoder_confluent (by decide) (by decide +kernel)).2.1 (by decide +kernel)

end ChatHub.Contracts
