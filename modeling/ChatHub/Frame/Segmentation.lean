/-
# `ChatHub.Frame.Segmentation` — a client that drains the decoder after each read

A session reads a chunk from the socket, feeds it, and calls `tryPopFrame`
until it returns false (`drain`); `receive` is that loop over all chunks.  How
the stream was cut shows in one place only:

    failed, error          depend on the bytes alone
    frames, no failure     depend on the bytes alone: those of the parser
    frames, with failure   those complete before the failing chunk arrived

The failure latch closes the queue, so frames that became complete in the very
chunk that breaks the stream are not handed out any more
(`receive_depends_on_cut`); the exact list is given by `receive_segmentation`.
-/
import ChatHub.Frame.Runs

namespace ChatHub.Contracts

open Streaming Utf8

/-! ## Draining -/

theorem length_of_tryPopFrame {d d' : FrameDecoder} {f : Frame}
    (h : d.tryPopFrame = (some f, d')) : d'.decodedFrames.length < d.decodedFrames.length := by
  simp only [FrameDecoder.tryPopFrame] at h
  split at h
  · rename_i frames _ hq
    cases h
    rw [hq]
    exact Nat.lt_succ_self _
  · cases h

/-- Call `tryPopFrame` until it returns false. -/
def drain (d : FrameDecoder) : List Frame × FrameDecoder :=
  match _h : d.tryPopFrame with
  | (none, d') => ([], d')
  | (some f, d') => (f :: (drain d').1, (drain d').2)
termination_by d.decodedFrames.length
decreasing_by all_goals exact length_of_tryPopFrame _h

/-- Feed the chunks one after the other and drain the decoder after each. -/
def receive (d : FrameDecoder) : List Bytes → List Frame × FrameDecoder
  | [] => ([], d)
  | chunk :: chunks =>
      ((drain (d.feedBytes chunk)).1 ++ (receive (drain (d.feedBytes chunk)).2 chunks).1,
        (receive (drain (d.feedBytes chunk)).2 chunks).2)

theorem drain_none {d d' : FrameDecoder} (h : d.tryPopFrame = (none, d')) : drain d = ([], d') := by
  rw [drain]
  split
  · rename_i heq
    rw [h] at heq
    cases heq
    rfl
  · rename_i heq
    rw [h] at heq
    cases heq

theorem drain_some {d d' : FrameDecoder} {f : Frame} (h : d.tryPopFrame = (some f, d')) :
    drain d = (f :: (drain d').1, (drain d').2) := by
  rw [drain]
  split
  · rename_i heq
    rw [h] at heq
    cases heq
  · rename_i heq
    rw [h] at heq
    cases heq
    rfl

theorem drain_failed {d : FrameDecoder} (h : d.failed = true) : drain d = ([], d) :=
  drain_none (FrameDecoder.tryPopFrame_failed h)

/-- Draining a running decoder empties its queue. -/
theorem drain_running {d : FrameDecoder} (h : d.failed = false) :
    drain d = (d.decodedFrames, { d with decodedFrames := [] }) := by
  suffices ∀ frames, drain { d with decodedFrames := frames }
      = (frames, { d with decodedFrames := [] }) from this d.decodedFrames
  intro frames
  have hpop := FrameDecoder.tryPopFrame_running (d := { d with decodedFrames := frames }) h
  induction frames with
  | nil => exact drain_none hpop
  | cons f fs ih =>
      have hstep := drain_some hpop
      simp only [List.tail_cons] at hstep
      rw [hstep, ih (FrameDecoder.tryPopFrame_running h)]

/-- Draining is a number of pops. -/
theorem drain_eq_run (d : FrameDecoder) :
    ∃ n, decoder.run d (List.replicate n .pop) = drain d := by
  induction d using drain.induct with
  | case1 d d' heq =>
      have hstep : decoder.step d .pop = (none, d') := heq
      refine ⟨1, ?_⟩
      rw [drain_none heq]
      simp only [List.replicate_one, Machine.run, hstep]
      rfl
  | case2 d f d' heq ih =>
      obtain ⟨n, hn⟩ := ih
      have hstep : decoder.step d .pop = (some f, d') := heq
      refine ⟨n + 1, ?_⟩
      rw [drain_some heq]
      simp only [List.replicate_succ, Machine.run, hstep, hn]
      rfl

/-! ## Receiving -/

/-- Receiving is one of the runs of the decoder. -/
theorem receive_eq_run (d : FrameDecoder) (chunks : List Bytes) :
    ∃ ops, fed ops = chunks.flatten ∧ decoder.run d ops = receive d chunks := by
  induction chunks generalizing d with
  | nil => exact ⟨[], rfl, rfl⟩
  | cons chunk chunks ih =>
      obtain ⟨n, hn⟩ := drain_eq_run (d.feedBytes chunk)
      obtain ⟨ops, hfed, hrun⟩ := ih (drain (d.feedBytes chunk)).2
      have hpops : fed (List.replicate n (Op.pop : Op UInt8)) = [] := by
        simp [fed, Op.symbols]
      have hstep : decoder.step d (.feed chunk) = (none, d.feedBytes chunk) := rfl
      refine ⟨.feed chunk :: (List.replicate n .pop ++ ops), ?_, ?_⟩
      · show chunk ++ fed (List.replicate n .pop ++ ops) = chunk ++ chunks.flatten
        rw [fed_append, hpops, hfed, List.nil_append]
      · simp only [Machine.run, hstep, Machine.run_append, hn, hrun, receive]
        rfl

theorem receive_stands (chunks : List Bytes) :
    Stands chunks.flatten (receive {} chunks).1 (receive {} chunks).2 := by
  obtain ⟨ops, hfed, hrun⟩ := receive_eq_run {} chunks
  rw [← hfed, ← hrun]
  exact decoder_run ops

theorem receive_concat (d : FrameDecoder) (chunks : List Bytes) (chunk : Bytes) :
    receive d (chunks ++ [chunk]) =
      ((receive d chunks).1 ++ (drain ((receive d chunks).2.feedBytes chunk)).1,
        (drain ((receive d chunks).2.feedBytes chunk)).2) := by
  induction chunks generalizing d with
  | nil => simp [receive]
  | cons c cs ih => simp [receive, ih]

/-- The stream breaks in `chunk`, behind the chunks `pre`. -/
def BreaksIn (chunks pre : List Bytes) (chunk : Bytes) : Prop :=
  (∃ post, chunks = pre ++ chunk :: post) ∧ (∃ r, (ref pre.flatten).2 = .rest r) ∧
    ∃ e, (ref (pre.flatten ++ chunk)).2 = .failed e

/-- Either everything the parser finds has been handed out, or the stream has
broken in some chunk and everything in front of that chunk has. -/
theorem receive_frames (chunks : List Bytes) :
    ((receive {} chunks).2.failed = false ∧ (receive {} chunks).2.decodedFrames = [] ∧
      (receive {} chunks).1 = (ref chunks.flatten).1) ∨
    ((receive {} chunks).2.failed = true ∧
      ∃ pre chunk, BreaksIn chunks pre chunk ∧ (receive {} chunks).1 = (ref pre.flatten).1) := by
  induction chunks using List.reverseRecOn with
  | nil =>
      have hempty : ref [] = ([], .rest []) := ItemParser.parse_more rfl
      exact .inl ⟨rfl, rfl, by rw [List.flatten_nil, hempty]; rfl⟩
  | append_singleton chunks chunk ih =>
      have hnow := receive_stands (chunks ++ [chunk])
      rw [receive_concat] at hnow ⊢
      rcases ih with ⟨hrun, hq, hall⟩ | ⟨hfail, pre, c, ⟨⟨post, rfl⟩, hbefore, hbreak⟩, hall⟩
      · cases hd : ((receive {} chunks).2.feedBytes chunk).failed with
        | true =>
            -- the chunk breaks the stream, and nothing of it is handed out
            rw [drain_failed hd] at hnow ⊢
            refine .inr ⟨hd, chunks, chunk, ⟨⟨[], rfl⟩, ?_, ?_⟩, ?_⟩
            · exact ⟨_, (receive_stands chunks).rest_of_running hrun⟩
            · have he := hnow.failed_iff.mp hd
              rwa [List.flatten_append, List.flatten_singleton] at he
            · show (receive {} chunks).1 ++ [] = _
              rw [List.append_nil, hall]
        | false =>
            rw [drain_running hd] at hnow ⊢
            have hframes := hnow.frames
            exact .inl ⟨hd, rfl, by simpa using hframes⟩
      · have hfeed : (receive {} (pre ++ c :: post)).2.feedBytes chunk
            = (receive {} (pre ++ c :: post)).2 := FrameDecoder.feedBytes_failed hfail chunk
        rw [hfeed, drain_failed hfail]
        refine .inr ⟨hfail, pre, c, ⟨⟨post ++ [chunk], by simp⟩, hbefore, hbreak⟩, ?_⟩
        show (receive {} (pre ++ c :: post)).1 ++ [] = _
        rw [List.append_nil, hall]

/-- **What does not depend on how the stream was cut.**  Two cuttings of the
same bytes agree on whether the decoder fails and on its error.  If it does not
fail, both clients get the frames of the parser.  If it fails, each gets the
frames that were complete before the chunk that broke its stream. -/
theorem receive_segmentation {chunks chunks' : List Bytes}
    (hsame : chunks.flatten = chunks'.flatten) :
    (receive {} chunks).2.hasFailed = (receive {} chunks').2.hasFailed ∧
    (receive {} chunks).2.error = (receive {} chunks').2.error ∧
    ((receive {} chunks).2.hasFailed = false →
      (receive {} chunks).1 = (receive {} chunks').1 ∧
      (receive {} chunks).1 = (ref chunks.flatten).1) ∧
    ((receive {} chunks).2.hasFailed = true →
      (∃ pre chunk, BreaksIn chunks pre chunk ∧ (receive {} chunks).1 = (ref pre.flatten).1) ∧
      (receive {} chunks).1 <+: (ref chunks.flatten).1) := by
  have h := receive_stands chunks
  have h' := receive_stands chunks'
  rw [← hsame] at h'
  have hprefix : (receive {} chunks).1 <+: (ref chunks.flatten).1 := ⟨_, h.frames⟩
  cases hb : (ref chunks.flatten).2 with
  | rest r =>
      obtain ⟨hrun, -, -, -, hquiet⟩ := h.waiting r hb
      obtain ⟨hrun', -, -, -, hquiet'⟩ := h'.waiting r hb
      have hall : (receive {} chunks).1 = (ref chunks.flatten).1 := by
        rcases receive_frames chunks with ⟨-, -, hall⟩ | ⟨hfail, -⟩
        · exact hall
        · rw [hrun] at hfail
          cases hfail
      have hall' : (receive {} chunks').1 = (ref chunks.flatten).1 := by
        rcases receive_frames chunks' with ⟨-, -, hall⟩ | ⟨hfail, -⟩
        · rw [hall, hsame]
        · rw [hrun'] at hfail
          cases hfail
      refine ⟨hrun.trans hrun'.symm, hquiet.trans hquiet'.symm, ?_, ?_⟩
      · intro _
        exact ⟨hall.trans hall'.symm, hall⟩
      · intro hfail
        exact absurd (hrun.symm.trans hfail) Bool.false_ne_true
  | failed e =>
      obtain ⟨hfail, herr⟩ := h.stopped e hb
      obtain ⟨hfail', herr'⟩ := h'.stopped e hb
      refine ⟨hfail.trans hfail'.symm, herr.trans herr'.symm, ?_, ?_⟩
      · intro hrun
        exact absurd (hrun.symm.trans hfail) Bool.false_ne_true
      · intro _
        rcases receive_frames chunks with ⟨hrun, -⟩ | ⟨-, hbreak⟩
        · exact absurd (hrun.symm.trans hfail) Bool.false_ne_true
        · exact ⟨hbreak, hprefix⟩

/-- A heartbeat and eight bytes that are no header: in one chunk the heartbeat
is lost, in two it is received. -/
theorem receive_depends_on_cut :
    let heartbeat : Bytes := [0x43, 0x48, 1, 0x02, 0, 0, 0, 0]
    let noise : Bytes := [0, 0, 0, 0, 0, 0, 0, 0]
    [heartbeat ++ noise].flatten = [heartbeat, noise].flatten ∧
      (receive {} [heartbeat ++ noise]).1 = [] ∧
      (receive {} [heartbeat, noise]).1 = [⟨.heartbeat, []⟩] := by
  decide +kernel

/-- The same bytes cut in two ways, through the middle of a header. -/
theorem receive_segmentation_heartbeats :
    let bytes : Bytes := [0x43, 0x48, 1, 0x02, 0, 0, 0, 0, 0x43, 0x48, 1, 0x02, 0, 0, 0, 0]
    (receive {} [bytes.take 3, bytes.drop 3]).1 = (receive {} [bytes.take 11, bytes.drop 11]).1 ∧
      (receive {} [bytes.take 3, bytes.drop 3]).1 = (ref [bytes.take 3, bytes.drop 3].flatten).1 :=
  (receive_segmentation (by decide)).2.2.1 (by decide +kernel)

/-! ## A stream of one frame -/

section
variable {type : ProtocolType} {body frame : Bytes} (h : encodeFrame type body = some frame)
include h

theorem ref_of_encodeFrame : ref frame = ([⟨type, body⟩], .rest []) := by
  refine Codec.parse_whole (c := frameCodec) ?_
  exact Codec.encodeAll_cons.mpr ⟨frame, [], h, rfl, (List.append_nil frame).symm⟩

/-- Its bytes make one frame in every run of the decoder. -/
theorem produced_of_encodeFrame {ops : List (Op UInt8)} (hfed : fed ops = frame) :
    (decoder.run {} ops).2.hasFailed = false ∧ produced ops = [⟨type, body⟩] := by
  have href := ref_of_encodeFrame h
  have hstands := decoder_run ops
  rw [hfed] at hstands
  obtain ⟨hrun, -⟩ := hstands.waiting [] (by rw [href])
  exact ⟨hrun, hstands.frames.trans (by rw [href])⟩

/-- The client gets that frame, however the bytes are cut. -/
theorem receive_of_encodeFrame {chunks : List Bytes} (hchunks : chunks.flatten = frame) :
    (receive {} chunks).1 = [⟨type, body⟩] := by
  have href := ref_of_encodeFrame h
  have hstands := receive_stands chunks
  rw [hchunks] at hstands
  obtain ⟨hrun, -⟩ := hstands.waiting [] (by rw [href])
  rcases receive_frames chunks with ⟨-, -, hall⟩ | ⟨hfail, -⟩
  · rw [hall, hchunks, href]
  · exact absurd (hrun.symm.trans hfail) Bool.false_ne_true

end

/-! ## A stream of frames that is still arriving -/

/-- While the encodings of `fs` arrive, the frames popped are the first of
`fs`, and nothing fails; when all bytes are there, all frames are. -/
theorem run_of_encodeAll {fs : List Frame} {w : Bytes} (hw : frameCodec.encodeAll fs = some w)
    {ops : List (Op UInt8)} (hfed : fed ops <+: w) :
    (decoder.run {} ops).2.hasFailed = false ∧ (decoder.run {} ops).1 <+: fs ∧
      (fed ops = w → produced ops = fs) := by
  have hstands := decoder_run ops
  obtain ⟨ys, rfl⟩ := hfed
  obtain ⟨k, r, v, hparse, -⟩ := Codec.parse_prefix hw
  have href : ref (fed ops) = (fs.take k, .rest r) := hparse
  obtain ⟨hrun, -⟩ := hstands.waiting r (by rw [href])
  have hframes := hstands.frames
  refine ⟨hrun, ?_, fun hall => ?_⟩
  · have hpopped : (decoder.run {} ops).1 <+: fs.take k := ⟨_, hframes.trans (by rw [href])⟩
    exact hpopped.trans (List.take_prefix k fs)
  · rw [← hall] at hw
    have hwhole : ref (fed ops) = (fs, .rest []) := Codec.parse_whole hw
    exact hframes.trans (by rw [hwhole])

/-- Every frame a decoder has produced is one that the encoder admits. -/
theorem encodeFrame_of_produced {ops : List (Op UInt8)} {f : Frame} (hf : f ∈ produced ops) :
    ∃ w, encodeFrame f.type f.body = some w := by
  obtain ⟨w, r, hw, -⟩ := Codec.parse_consumed (c := frameCodec) (fed ops)
  refine Codec.encode_of_encodeAll hw f ?_
  have hframes : produced ops = (frameCodec.parse (fed ops)).1 := (decoder_run ops).frames
  exact hframes ▸ hf

end ChatHub.Contracts
