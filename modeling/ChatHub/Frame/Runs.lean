/-
# `ChatHub.Frame.Runs` — what a client of the decoder sees, in every run

`Stands` says where a decoder is after a run; here it is read from the
client's side.  A run is any sequence of `feedBytes` and `tryPopFrame` calls on
a fresh decoder:

    the decoder has failed        ⟺  the reference parser fails on the bytes fed
    popped ++ queued              =   the frames of the reference parser
    retained bytes                =   its unfinished rest
    consumed bytes                =   the encodings of the frames

The last line makes the wire form canonical, and with `parse_prefix` of the
library it gives the round trip of a whole stream: nothing is reported early,
nothing is lost, and the buffer is empty at the end.

A failed decoder answers no call any more (`run_failed`), so what has been said
of it once stays so.
-/
import ChatHub.Frame.Refine

namespace ChatHub.Contracts

open Streaming Utf8

/-! ## The two ways a run can stand -/

theorem Stands.ending {b : Bytes} {out : List Frame} {d : FrameDecoder} (h : Stands b out d) :
    (d.failed = true ∧ (ref b).2 = .failed d.error) ∨
      (d.failed = false ∧ (ref b).2 = .rest d.inputBuffer) := by
  cases hb : (ref b).2 with
  | failed e =>
      obtain ⟨hfail, herr⟩ := h.stopped e hb
      exact .inl ⟨hfail, by rw [herr]⟩
  | rest r =>
      obtain ⟨hrun, hbuf, -⟩ := h.waiting r hb
      exact .inr ⟨hrun, by rw [hbuf]⟩

theorem Stands.rest_of_running {b : Bytes} {out : List Frame} {d : FrameDecoder}
    (h : Stands b out d) (hrun : d.failed = false) : (ref b).2 = .rest d.inputBuffer := by
  rcases h.ending with ⟨hfail, -⟩ | ⟨-, hrest⟩
  · rw [hrun] at hfail
    cases hfail
  · exact hrest

theorem Stands.failed_iff {b : Bytes} {out : List Frame} {d : FrameDecoder} (h : Stands b out d) :
    d.failed = true ↔ ∃ e, (ref b).2 = .failed e := by
  constructor
  · intro hfail
    rcases h.ending with ⟨-, he⟩ | ⟨hrun, -⟩
    · exact ⟨_, he⟩
    · rw [hfail] at hrun
      cases hrun
  · rintro ⟨e, he⟩
    exact (h.stopped e he).1

/-- A pop hands out the frame behind those popped before. -/
theorem Stands.pop_eq {b : Bytes} {out : List Frame} {d : FrameDecoder} (h : Stands b out d)
    (hrun : d.failed = false) : d.tryPopFrame.1 = (ref b).1[out.length]? := by
  rw [← h.frames, List.getElem?_append_right (Nat.le_refl _), Nat.sub_self]
  rw [FrameDecoder.tryPopFrame_running hrun, List.head?_eq_getElem?]

/-- A decoder that has failed answers no call, and stays as it is. -/
theorem run_failed {d : FrameDecoder} (h : d.failed = true) :
    ∀ ops : List (Op UInt8), decoder.run d ops = ([], d)
  | [] => rfl
  | .feed chunk :: ops => by
      have hstep : decoder.step d (.feed chunk) = (none, d) := by
        show (none, d.feedBytes chunk) = (none, d)
        rw [FrameDecoder.feedBytes_failed h]
      simp only [Machine.run, hstep, run_failed h ops]
      rfl
  | .pop :: ops => by
      have hstep : decoder.step d .pop = (none, d) := FrameDecoder.tryPopFrame_failed h
      simp only [Machine.run, hstep, run_failed h ops]
      rfl

/-! ## Refinement -/

/-- **The decoder refines the reference parser.**  Whatever calls have been
made, the decoder has failed iff the parser fails on the bytes fed, with its
error, and then no later call changes anything or hands out a frame.  Until
then the frames popped and queued are the parser's frames, a pop hands out the
next of them, and the bytes kept are the parser's rest. -/
theorem decoder_refines_ref (ops : List (Op UInt8)) :
    let b := fed ops
    let popped := (decoder.run {} ops).1
    let d := (decoder.run {} ops).2
    (d.hasFailed = true ↔ ∃ e, (ref b).2 = .failed e) ∧
    popped <+: (ref b).1 ∧
    (∀ e, (ref b).2 = .failed e → ∀ later : List (Op UInt8),
      (decoder.run {} (ops ++ later)).1 = popped ∧
      (decoder.run {} (ops ++ later)).2.hasFailed = true ∧
      (decoder.run {} (ops ++ later)).2.error = e) ∧
    (∀ r, (ref b).2 = .rest r →
      popped ++ d.decodedFrames = (ref b).1 ∧
      d.tryPopFrame.1 = (ref b).1[popped.length]? ∧
      d.inputBuffer = r) := by
  intro b popped d
  have h : Stands b popped d := decoder_run ops
  refine ⟨h.failed_iff, ⟨_, h.frames⟩, ?_, ?_⟩
  · intro e he later
    obtain ⟨hfail, herr⟩ := h.stopped e he
    rw [Machine.run_append, run_failed hfail later]
    exact ⟨List.append_nil _, hfail, herr⟩
  · intro r hr
    obtain ⟨hrun, hbuf, -⟩ := h.waiting r hr
    exact ⟨h.frames, h.pop_eq hrun, hbuf⟩

/-- A header of version 2, cut in two, and two calls after it. -/
theorem decoder_refines_ref_bad_version :
    let ops : List (Op UInt8) := [.feed [0x43, 0x48, 2], .pop, .feed [2, 0, 0, 0, 0]]
    (decoder.run {} (ops ++ [.feed [0x43], .pop])).2.error = .badVersion :=
  ((decoder_refines_ref [.feed [0x43, 0x48, 2], .pop, .feed [2, 0, 0, 0, 0]]).2.2.1
    .badVersion (by decide +kernel) [.feed [0x43], .pop]).2.2

/-! ## Round trip -/

/-- **Decoding undoes encoding, however the stream is cut.**  While a prefix of
the encodings of `fs` has been fed, the decoder has not failed, and the frames
it has made available are the first `k`, where `k` counts the encodings that
lie within the bytes fed.  When everything has been fed, they are all of `fs`,
no byte is left behind, and once a pop finds nothing they have all been popped. -/
theorem decode_encode_stream {fs : List Frame} {w : Bytes} (hw : frameCodec.encodeAll fs = some w)
    {ops : List (Op UInt8)} (hfed : fed ops <+: w) :
    let popped := (decoder.run {} ops).1
    let d := (decoder.run {} ops).2
    d.hasFailed = false ∧
    (∃ k v, k ≤ fs.length ∧ popped ++ d.decodedFrames = fs.take k ∧
      frameCodec.encodeAll (fs.take k) = some v ∧ v.length ≤ (fed ops).length ∧
      ∀ v', k < fs.length → frameCodec.encodeAll (fs.take (k + 1)) = some v' →
        (fed ops).length < v'.length) ∧
    (fed ops = w → popped ++ d.decodedFrames = fs ∧ d.inputBuffer = [] ∧
      (d.tryPopFrame.1 = none → popped = fs)) := by
  intro popped d
  have h : Stands (fed ops) popped d := decoder_run ops
  obtain ⟨ys, rfl⟩ := hfed
  obtain ⟨k, r, v, hparse, hk, hv, hle, hnext⟩ := Codec.parse_prefix hw
  have href : ref (fed ops) = (fs.take k, .rest r) := hparse
  obtain ⟨hrun, hbuf, -⟩ := h.waiting r (by rw [href])
  have hframes := h.frames
  refine ⟨hrun, ⟨k, v, hk, by rw [hframes, href], hv, hle, hnext⟩, ?_⟩
  intro hall
  have hwhole : ref (fed ops) = (fs, .rest []) := by
    rw [← hall] at hw
    exact Codec.parse_whole hw
  obtain ⟨-, hempty, -⟩ := h.waiting [] (by rw [hwhole])
  rw [hwhole] at hframes
  refine ⟨hframes, hempty, ?_⟩
  intro hnone
  rw [h.pop_eq hrun, hwhole, List.getElem?_eq_none_iff] at hnone
  have hpre : popped <+: fs := ⟨_, hframes⟩
  exact hpre.eq_of_length_le hnone

/-- A heartbeat and a one-byte greeting, cut in the middle of both headers. -/
theorem decode_encode_stream_two_frames :
    let ops : List (Op UInt8) :=
      [.feed [0x43, 0x48, 1], .feed [0x02, 0, 0, 0, 0, 0x43], .pop, .feed [0x48, 1, 0x04, 0, 0, 0, 1, 33]]
    (decoder.run {} ops).1 ++ (decoder.run {} ops).2.decodedFrames
      = [⟨.heartbeat, []⟩, ⟨.helloRequest, [33]⟩] :=
  ((decode_encode_stream
    (show frameCodec.encodeAll [⟨.heartbeat, []⟩, ⟨.helloRequest, [33]⟩] = some
      [0x43, 0x48, 1, 0x02, 0, 0, 0, 0, 0x43, 0x48, 1, 0x04, 0, 0, 0, 1, 33] by decide +kernel)
    (by decide)).2.2 (by decide)).1

/-! ## Canonical form -/

/-- The bytes a decoder has taken out of the stream it was fed. -/
def consumed (ops : List (Op UInt8)) : Bytes :=
  (fed ops).take ((fed ops).length - (decoder.run {} ops).2.inputBuffer.length)

/-- The frames a decoder has produced, popped or not. -/
def produced (ops : List (Op UInt8)) : List Frame :=
  (decoder.run {} ops).1 ++ (decoder.run {} ops).2.decodedFrames

/-- A single frame as raw bytes, whatever its type and body are, is refused by
the parser exactly when the encoder refuses it. -/
theorem ref_rawFrame (type : ProtocolType) {body : Bytes} (hlen : body.length < 2 ^ 32) :
    (∃ e, (ref (headerBytes type body.length ++ body)).2 = .failed e) ↔
      encodeFrame type body = none := by
  constructor
  · rintro ⟨e, he⟩
    cases henc : encodeFrame type body with
    | none => rfl
    | some w =>
        have hw : w = headerBytes type body.length ++ body := (encodeFrame_eq_some.mp henc).2.2
        have hall : frameCodec.encodeAll [⟨type, body⟩] = some (w ++ []) :=
          Codec.encodeAll_cons.mpr ⟨w, [], henc, rfl, rfl⟩
        rw [List.append_nil, hw] at hall
        rw [ref, Codec.parse_whole hall] at he
        cases he
  · intro hnone
    obtain ⟨e, he⟩ := refNext_refused hlen hnone
    have hparse : ref (headerBytes type body.length ++ body) = ([], .failed e) :=
      ItemParser.parse_bad he
    exact ⟨e, by rw [hparse]⟩

/-- What an unbroken run has consumed is the encoding of what it has produced. -/
theorem consumed_eq_encodeAll {ops : List (Op UInt8)}
    (hrun : (decoder.run {} ops).2.failed = false) :
    fed ops = consumed ops ++ (decoder.run {} ops).2.inputBuffer ∧
      frameCodec.encodeAll (produced ops) = some (consumed ops) := by
  have h := decoder_run ops
  obtain ⟨w, hw, hfed⟩ := Codec.parse_consumed_rest (h.rest_of_running hrun)
  have hconsumed : consumed ops = w := by
    rw [consumed, hfed, List.length_append, Nat.add_sub_cancel, List.take_left]
  have hproduced : produced ops = (ref (fed ops)).1 := h.frames
  rw [hconsumed, hproduced]
  exact ⟨hfed, hw⟩

/-- **Encoder and decoder admit the same frames, in one form only.**  Fed the
raw form of any type byte and body, the decoder fails iff the encoder refuses
them.  In every run that has not failed, the bytes consumed are the encodings
of the frames produced; so each frame is one the encoder admits, and the frames
determine the bytes. -/
theorem wire_canonical :
    (∀ (t : UInt8) (body : Bytes), body.length < 2 ^ 32 → ∀ ops : List (Op UInt8),
      fed ops = headerBytes ⟨t⟩ body.length ++ body →
      ((decoder.run {} ops).2.hasFailed = true ↔ encodeFrame ⟨t⟩ body = none)) ∧
    (∀ ops : List (Op UInt8), (decoder.run {} ops).2.hasFailed = false →
      fed ops = consumed ops ++ (decoder.run {} ops).2.inputBuffer ∧
      frameCodec.encodeAll (produced ops) = some (consumed ops) ∧
      (∀ f ∈ produced ops, ∃ descriptor, findProtocol f.type = some descriptor ∧
        f.body.length ≤ descriptor.maxBody.toNat ∧ isValidUtf8 f.body = true) ∧
      ∀ ops' : List (Op UInt8), (decoder.run {} ops').2.hasFailed = false →
        produced ops' = produced ops → consumed ops' = consumed ops) := by
  constructor
  · intro t body hlen ops hfed
    have h := decoder_run ops
    rw [hfed] at h
    exact h.failed_iff.trans (ref_rawFrame ⟨t⟩ hlen)
  · intro ops hrun
    obtain ⟨hfed, henc⟩ := consumed_eq_encodeAll hrun
    refine ⟨hfed, henc, ?_, ?_⟩
    · intro f hf
      obtain ⟨v, hv⟩ := Codec.encode_of_encodeAll henc f hf
      obtain ⟨⟨descriptor, hd, hle⟩, hwf, -⟩ := encodeFrame_eq_some.mp hv
      exact ⟨descriptor, hd, hle, isValidUtf8_eq_true.mpr hwf⟩
    · intro ops' hrun' hsame
      have henc' := (consumed_eq_encodeAll hrun').2
      rw [hsame, henc] at henc'
      exact (Option.some.inj henc').symm

/-- An unregistered type is refused on both sides; and what a good run has
consumed is determined by its frames. -/
theorem wire_canonical_heartbeat :
    ((decoder.run {} [.feed [0x43, 0x48, 1, 0xFF, 0, 0, 0, 0]]).2.hasFailed = true ↔
      encodeFrame ⟨0xFF⟩ [] = none) ∧
    frameCodec.encodeAll (produced [.feed [0x43, 0x48, 1, 0x02, 0, 0, 0, 0, 0x43]])
      = some (consumed [.feed [0x43, 0x48, 1, 0x02, 0, 0, 0, 0, 0x43]]) :=
  ⟨wire_canonical.1 0xFF [] (by decide) _ rfl, (wire_canonical.2 _ (by decide +kernel)).2.1⟩

end ChatHub.Contracts
