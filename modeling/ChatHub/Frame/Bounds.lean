/-
# `ChatHub.Frame.Bounds` — how many bytes a peer can make the decoder keep

Between two calls a decoder that has not failed keeps an unfinished frame and
nothing else.  Either its header is not there (fewer than 8 bytes), or the
header is pending and checked, and at least one byte of the body is missing.
Both are the reference parser's `more`, read from the decoder's own fields;
with the limits of the protocol table at most 8 + 65536 - 1 bytes are kept,
whatever the peer sends or announces.

A header that announces too much is refused when its last byte arrives
(`failed_iff_header`), so no byte of its body is ever waited for, and a decoder
that has failed takes nothing in.
-/
import ChatHub.Frame.Runs

namespace ChatHub.Contracts

open Streaming Utf8

/-- A good header is the one the encoder writes for its type and length. -/
theorem take_of_refHeader_ok {b : Bytes} {type : ProtocolType} {length : Nat}
    (h : refHeader b = .ok type length) : b.take 8 = headerBytes type length := by
  obtain ⟨l₃, l₂, l₁, l₀, r, -, rfl, hlen, -, -⟩ := refHeader_ok h
  have hcanon := encode_bigEndian l₃ l₂ l₁ l₀
  rw [hlen] at hcanon
  show [0x43, 0x48, 1, type.byte] ++ [l₃, l₂, l₁, l₀] = headerBytes type length
  rw [← hcanon]
  rfl

/-- What a decoder that has not failed keeps between two calls. -/
structure Bounded (d : FrameDecoder) : Prop where
  cursor : d.consumedPrefixSize = 0
  retained : (d.hasPendingHeader = false ∧ d.inputBuffer.length < 8) ∨
    (d.hasPendingHeader = true ∧ d.inputBuffer.take 8 = headerBytes d.frameType d.bodyLength ∧
      (∃ descriptor, findProtocol d.frameType = some descriptor ∧
        d.bodyLength ≤ descriptor.maxBody.toNat ∧ descriptor.maxBody.toNat ≤ 65536) ∧
      d.inputBuffer.length < 8 + d.bodyLength)

theorem Bounded.length_le {d : FrameDecoder} (h : Bounded d) : d.inputBuffer.length ≤ 65543 := by
  rcases h.retained with ⟨-, hlt⟩ | ⟨-, -, ⟨descriptor, -, hle, hmax⟩, hlt⟩
  · exact Nat.le_trans (Nat.le_of_lt hlt) (by decide)
  · omega

theorem Stands.bounded {b : Bytes} {out : List Frame} {d : FrameDecoder} (h : Stands b out d)
    (hrun : d.failed = false) : Bounded d := by
  have hrest := h.rest_of_running hrun
  have hmore : refNext d.inputBuffer = .more :=
    ItemParser.next_rest (p := frameCodec.toItemParser) b _ hrest
  obtain ⟨-, -, hpend, hheader, -⟩ := h.waiting _ hrest
  refine ⟨h.cursor, ?_⟩
  cases hp : d.hasPendingHeader with
  | false =>
      refine .inl ⟨rfl, Nat.lt_of_not_le fun hle => ?_⟩
      rw [hpend.mpr hle] at hp
      cases hp
  | true =>
      have hh := hheader hp
      obtain ⟨-, -, -, -, -, descriptor, -, -, hd, hle⟩ := refHeader_ok hh
      refine .inr ⟨rfl, take_of_refHeader_ok hh, ?_, ?_⟩
      · exact ⟨descriptor, hd, hle, maxBody_le_of_findProtocol hd⟩
      · rw [refNext_ok hh] at hmore
        split at hmore
        · assumption
        · split at hmore <;> cases hmore

/-! ## Headers that are refused -/

/-- A stream of good frames with a bad header behind them. -/
theorem ref_bad_header {fs : List Frame} {w h : Bytes} {e : FrameErrorKind}
    (hw : frameCodec.encodeAll fs = some w) (hh : refHeader h = .bad e) :
    ref (w ++ h) = (fs, .failed e) := by
  have hnext : refNext h = .bad e := by simp only [refNext, hh]
  have hparse : frameCodec.parse h = ([], .failed e) := ItemParser.parse_bad hnext
  rw [ref, Codec.parse_encodeAll hw, hparse, List.append_nil]

/-- A stream of good frames with less than a header behind them. -/
theorem ref_short_header {fs : List Frame} {w h : Bytes}
    (hw : frameCodec.encodeAll fs = some w) (hh : h.length < 8) :
    ref (w ++ h) = (fs, .rest h) := by
  have hnext : refNext h = .more := by simp only [refNext, refHeader_eq_short.mpr hh]
  have hparse : frameCodec.parse h = ([], .rest h) := ItemParser.parse_more hnext
  rw [ref, Codec.parse_encodeAll hw, hparse, List.append_nil]

/-- **A bad header is refused when its eighth byte arrives**, neither sooner
nor later. -/
theorem failed_iff_header {fs : List Frame} {w h tail : Bytes} {e : FrameErrorKind}
    (hw : frameCodec.encodeAll fs = some w) (hlen : h.length = 8) (hh : refHeader h = .bad e)
    {ops : List (Op UInt8)} (hfed : fed ops <+: w ++ h ++ tail) :
    ((decoder.run {} ops).2.failed = true ↔ w.length + 8 ≤ (fed ops).length) ∧
      ((decoder.run {} ops).2.failed = true → (decoder.run {} ops).2.error = e) := by
  have hstands := decoder_run ops
  by_cases hle : w.length + 8 ≤ (fed ops).length
  · have hpre : w ++ h <+: fed ops := by
      refine List.prefix_of_prefix_length_le (List.prefix_append _ tail) hfed ?_
      rw [List.length_append, hlen]
      exact hle
    obtain ⟨ys, hys⟩ := hpre
    have hbad := ref_bad_header hw hh
    have href : (ref (fed ops)).2 = .failed e := by
      have happend := ItemParser.parse_append_failed (p := frameCodec.toItemParser)
        (show (ref (w ++ h)).2 = .failed e by rw [hbad]) ys
      rw [← hys, ref, happend]
      exact congrArg Prod.snd hbad
    obtain ⟨hfail, herr⟩ := hstands.stopped e href
    exact ⟨⟨fun _ => hle, fun _ => hfail⟩, fun _ => herr⟩
  · have hshort : (h.take 7).length < 8 := by
      rw [List.length_take]
      exact Nat.lt_of_le_of_lt (Nat.min_le_left 7 _) (by decide)
    have hpre : fed ops <+: w ++ h.take 7 := by
      refine List.prefix_of_prefix_length_le hfed ?_ ?_
      · rw [List.append_assoc]
        exact List.prefix_append_right_inj w |>.mpr ((List.take_prefix 7 h).trans (List.prefix_append h tail))
      · rw [List.length_append, List.length_take]
        omega
    obtain ⟨ys, hys⟩ := hpre
    have hrest := ref_short_header hw hshort
    rw [← hys] at hrest
    obtain ⟨r, hr⟩ := ItemParser.rest_of_append (p := frameCodec.toItemParser)
      (congrArg Prod.snd hrest)
    obtain ⟨hrun, -⟩ := hstands.waiting r hr
    refine ⟨⟨fun hfail => ?_, fun h' => absurd h' hle⟩, fun hfail => ?_⟩
    · exact absurd (hrun.symm.trans hfail) Bool.false_ne_true
    · exact absurd (hrun.symm.trans hfail) Bool.false_ne_true

/-- **Buffering is bounded in every run.**  A decoder that has not failed keeps
an unfinished frame only, at most 65543 bytes of it.  Behind any frames, a
header that announces more than its type allows makes the decoder fail exactly
when the eighth byte has been fed, whatever comes behind.  The buffer of a
decoder that has failed does not change any more. -/
theorem buffering_bounded :
    (∀ ops : List (Op UInt8), (decoder.run {} ops).2.hasFailed = false →
      Bounded (decoder.run {} ops).2 ∧ (decoder.run {} ops).2.inputBuffer.length ≤ 65543) ∧
    (∀ (fs : List Frame) (w : Bytes), frameCodec.encodeAll fs = some w →
      ∀ (type : ProtocolType) (descriptor : ProtocolDescriptor) (n : Nat) (tail : Bytes),
      findProtocol type = some descriptor → descriptor.maxBody.toNat < n → n < 2 ^ 32 →
      ∀ ops : List (Op UInt8), fed ops <+: w ++ headerBytes type n ++ tail →
        ((decoder.run {} ops).2.hasFailed = true ↔ w.length + 8 ≤ (fed ops).length) ∧
        ((decoder.run {} ops).2.hasFailed = true → (decoder.run {} ops).2.error = .bodyTooLarge)) ∧
    (∀ ops later : List (Op UInt8), (decoder.run {} ops).2.hasFailed = true →
      (decoder.run {} (ops ++ later)).2.inputBuffer = (decoder.run {} ops).2.inputBuffer) := by
  refine ⟨?_, ?_, ?_⟩
  · intro ops hrun
    have hbounded := (decoder_run ops).bounded hrun
    exact ⟨hbounded, hbounded.length_le⟩
  · intro fs w hw type descriptor n tail hd hgt hn ops hfed
    have hh := refHeader_headerBytes type hn []
    simp only [List.append_nil, hd, gt_iff_lt, if_pos hgt] at hh
    exact failed_iff_header hw (length_headerBytes type n) hh hfed
  · intro ops later hfail
    rw [Machine.run_append, run_failed hfail later]

/-- A heartbeat that announces a body of one byte, behind a good heartbeat, is
refused with its eighth byte. -/
theorem buffering_bounded_heartbeat :
    let ops : List (Op UInt8) :=
      [.feed [0x43, 0x48, 1, 0x02, 0, 0, 0, 0, 0x43, 0x48, 1, 0x02], .pop, .feed [0, 0, 0, 1]]
    ((decoder.run {} ops).2.hasFailed = true ↔ 8 + 8 ≤ (fed ops).length) ∧
      ((decoder.run {} ops).2.hasFailed = true → (decoder.run {} ops).2.error = .bodyTooLarge) :=
  buffering_bounded.2.1 [⟨.heartbeat, []⟩] [0x43, 0x48, 1, 0x02, 0, 0, 0, 0] (by decide +kernel)
    .heartbeat _ 1 [] rfl (by decide) (by decide) _ (by decide)

end ChatHub.Contracts
