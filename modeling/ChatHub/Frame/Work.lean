/-
# `ChatHub.Frame.Work` — every byte is looked at once

The decoder keeps the header it has checked (`hasPendingHeader`) and erases what
it has consumed at the end of a call, not frame by frame.  So it does not start
over when a chunk brings only a part of a frame.  Counted here are

    headers   calls of `parseAndValidateHeader`
    scanned   bytes handed to `isValidUtf8`
    moved     bytes behind the erased ones, which `erase` moves to the front

and they are linear in the bytes fed, however these are cut
(`decoding_is_linear`).  The decoder is written once more with these three calls
marked; what it computes is what the decoder computes (`meteredFeed_result`), so
a run of it is a run of the decoder, and what is counted are its calls.

The bytes behind the cursor pay: 8 for the check of a header, one for each byte
of a body that is scanned (`owed`).  A pending header has been paid for.
-/
import ChatHub.Frame.Confluence

namespace ChatHub.Contracts

open Streaming Metering

/-- What decoding costs. -/
structure Work where
  headers : Nat := 0
  scanned : Nat := 0
  moved : Nat := 0
  deriving DecidableEq, Repr

namespace Work

theorem ext {a b : Work} (hheaders : a.headers = b.headers) (hscanned : a.scanned = b.scanned)
    (hmoved : a.moved = b.moved) : a = b := by
  cases a
  cases b
  cases hheaders
  cases hscanned
  cases hmoved
  rfl

instance : Zero Work := ⟨{}⟩

instance : Add Work where
  add a b := ⟨a.headers + b.headers, a.scanned + b.scanned, a.moved + b.moved⟩

instance : AddMonoid Work where
  add_assoc a b c :=
    ext (Nat.add_assoc _ _ _) (Nat.add_assoc _ _ _) (Nat.add_assoc _ _ _)
  zero_add a := ext (Nat.zero_add _) (Nat.zero_add _) (Nat.zero_add _)
  add_zero _ := rfl
  nsmul := nsmulRec

@[simp] theorem headers_add (a b : Work) : (a + b).headers = a.headers + b.headers := rfl
@[simp] theorem scanned_add (a b : Work) : (a + b).scanned = a.scanned + b.scanned := rfl
@[simp] theorem moved_add (a b : Work) : (a + b).moved = a.moved + b.moved := rfl

theorem header_add (n : Nat) :
    ({ headers := 1 } + { scanned := n } : Work) = { headers := 1, scanned := n } :=
  congrArg (Work.mk 1 · 0) (Nat.zero_add n)

/-- What the bytes of the stream pay for. -/
def charge (w : Work) : Nat := kFrameHeaderSize * w.headers + w.scanned

theorem charge_add (a b : Work) : (a + b).charge = a.charge + b.charge := by
  simp only [charge, headers_add, scanned_add, Nat.mul_add]
  omega

end Work

/-- A call of `isValidUtf8`, counted. -/
def meteredUtf8 (body : Bytes) : Metered Work Bool :=
  charged { scanned := body.length } (isValidUtf8 body)

namespace FrameDecoder

/-! ## The decoder with its calls marked -/

/-- A call of `parseAndValidateHeader`, counted. -/
def meteredHeader (d : FrameDecoder) (offset : Nat) : Metered Work (Bool × FrameDecoder) :=
  charged { headers := 1 } (d.parseAndValidateHeader offset)

/-- `takeBody`. -/
def meteredTakeBody (d : FrameDecoder) : Metered Work Turn :=
  if d.inputBuffer.length - d.consumedPrefixSize < kFrameHeaderSize + d.bodyLength then
    pure (.done d)
  else do
    let body := (d.inputBuffer.drop (d.consumedPrefixSize + kFrameHeaderSize)).take d.bodyLength
    let d := { d with hasPendingHeader := false }
    if !(← meteredUtf8 body) then return .done (d.setFailure .invalidUtf8)
    else
      return .again { d with
        decodedFrames := d.decodedFrames ++ [⟨d.frameType, body⟩]
        consumedPrefixSize := d.consumedPrefixSize + (kFrameHeaderSize + d.bodyLength) }

/-- `decodeStep`. -/
def meteredStep (d : FrameDecoder) : Metered Work Turn :=
  if d.hasPendingHeader then d.meteredTakeBody
  else if d.inputBuffer.length - d.consumedPrefixSize < kFrameHeaderSize then pure (.done d)
  else do
    match ← d.meteredHeader d.consumedPrefixSize with
    | (false, d) => return .done d
    | (true, d) => meteredTakeBody { d with hasPendingHeader := true }

theorem meteredTakeBody_result (d : FrameDecoder) : d.meteredTakeBody.result = d.takeBody := by
  rw [meteredTakeBody, takeBody]
  split
  · rfl
  · rw [result_bind, meteredUtf8, result_charged]
    dsimp only
    split
    · rfl
    · rfl

/-- The turn with its calls marked is the turn. -/
theorem meteredStep_result (d : FrameDecoder) : d.meteredStep.result = d.decodeStep := by
  rw [meteredStep, decodeStep]
  split
  · exact meteredTakeBody_result d
  · split
    · rfl
    · rw [result_bind, meteredHeader, result_charged]
      generalize d.parseAndValidateHeader d.consumedPrefixSize = header
      obtain ⟨ok, d'⟩ := header
      cases ok with
      | false => rfl
      | true => exact meteredTakeBody_result _

/-- `decodeAvailableFrames`. -/
def meteredLoop (d : FrameDecoder) : Metered Work FrameDecoder :=
  match _h : d.meteredStep.result with
  | .done d' => charged d.meteredStep.cost d'
  | .again d' => do
      charged d.meteredStep.cost ()
      meteredLoop d'
termination_by d.inputBuffer.length - d.consumedPrefixSize
decreasing_by exact decodeStep_again (meteredStep_result d ▸ _h)

/-- `discardConsumedBytes`: erasing moves what is left. -/
def meteredDiscard (d : FrameDecoder) : Metered Work FrameDecoder :=
  if d.consumedPrefixSize > 0 then
    charged { moved := (d.inputBuffer.drop d.consumedPrefixSize).length }
      { d with inputBuffer := d.inputBuffer.drop d.consumedPrefixSize, consumedPrefixSize := 0 }
  else pure d

/-- `feedBytes`. -/
def meteredFeed (d : FrameDecoder) (data : Bytes) : Metered Work FrameDecoder :=
  if d.failed then pure d
  else do
    let d ← meteredLoop { d with inputBuffer := d.inputBuffer ++ data }
    d.meteredDiscard

theorem meteredLoop_of_done {d d' : FrameDecoder} (h : d.decodeStep = .done d') :
    d.meteredLoop = charged d.meteredStep.cost d' := by
  have hturn := (meteredStep_result d).trans h
  rw [meteredLoop]
  split
  · rename_i heq
    cases hturn.symm.trans heq
    rfl
  · rename_i heq
    cases hturn.symm.trans heq

theorem meteredLoop_of_again {d d' : FrameDecoder} (h : d.decodeStep = .again d') :
    d.meteredLoop = charged (d.meteredStep.cost + d'.meteredLoop.cost) d'.meteredLoop.result := by
  have hturn := (meteredStep_result d).trans h
  rw [meteredLoop]
  split
  · rename_i heq
    cases hturn.symm.trans heq
  · rename_i heq
    cases hturn.symm.trans heq
    rfl

theorem meteredLoop_result (d : FrameDecoder) : d.meteredLoop.result = d.decodeAvailableFrames := by
  induction d using decodeAvailableFrames.induct with
  | case1 d d' hstep => rw [meteredLoop_of_done hstep, decodeAvailableFrames_of_done hstep,
      result_charged]
  | case2 d d' hstep ih => rw [meteredLoop_of_again hstep, decodeAvailableFrames_of_again hstep,
      result_charged, ih]

theorem meteredDiscard_result (d : FrameDecoder) :
    d.meteredDiscard.result = d.discardConsumedBytes := by
  rw [meteredDiscard, discardConsumedBytes]
  split
  · rfl
  · rfl

/-- **Counting changes nothing**: the call with its calls marked is the call. -/
theorem meteredFeed_result (d : FrameDecoder) (data : Bytes) :
    (d.meteredFeed data).result = d.feedBytes data := by
  rw [meteredFeed, feedBytes]
  split
  · rfl
  · rw [result_bind, meteredDiscard_result, meteredLoop_result]

/-! ## One turn -/

theorem meteredTakeBody_cost (d : FrameDecoder) :
    d.meteredTakeBody.cost = { scanned :=
      if d.unread.length < kFrameHeaderSize + d.bodyLength then 0 else d.bodyLength } := by
  rw [meteredTakeBody, ← length_unread]
  split
  · rfl
  · rename_i hall
    have hbody : ((d.inputBuffer.drop (d.consumedPrefixSize + kFrameHeaderSize)).take
        d.bodyLength).length = d.bodyLength := by
      rw [length_unread] at hall
      rw [List.length_take, List.length_drop]
      omega
    rw [cost_bind, meteredUtf8, cost_charged, hbody]
    dsimp only
    split
    · rfl
    · rfl

/-- What a turn costs, from what is behind the cursor. -/
theorem meteredStep_cost {d : FrameDecoder} (h : d.AtBoundary) :
    d.meteredStep.cost =
      match refHeader d.unread with
      | .short => {}
      | .bad _ => { headers := 1 }
      | .ok _ length =>
          { headers := if d.hasPendingHeader then 0 else 1,
            scanned := if d.unread.length < kFrameHeaderSize + length then 0 else length } := by
  cases hp : d.hasPendingHeader with
  | true =>
      have hh := h.header hp
      simp only [meteredStep, hp, if_true, hh, meteredTakeBody_cost]
  | false =>
      simp only [meteredStep, hp, Bool.false_eq_true, if_false, ← length_unread]
      split
      · rename_i hlt
        rw [refHeader_eq_short.mpr hlt]
        rfl
      · rename_i hge
        obtain ⟨m₁, m₀, v, t, l₃, l₂, l₁, l₀, r, hb⟩ :=
          exists_header_bytes (Nat.le_of_not_lt hge)
        rw [cost_bind, meteredHeader, cost_charged, result_charged, parseAndValidateHeader_eq hb]
        cases hh : refHeader d.unread with
        | short => exact absurd (refHeader_eq_short.mp hh) hge
        | bad e => rfl
        | ok type length =>
            exact (congrArg _ (meteredTakeBody_cost _)).trans (Work.header_add _)

/-- With a good header at the cursor, the verdict on the frame says it all. -/
theorem meteredStep_cost_ok {d : FrameDecoder} {type : ProtocolType} {length : Nat}
    (h : d.AtBoundary) (hh : refHeader d.unread = .ok type length) :
    d.meteredStep.cost = {
      headers := if d.hasPendingHeader then 0 else 1
      scanned := match refNext d.unread with
        | .more => 0
        | _ => length } := by
  rw [meteredStep_cost h, hh, refNext_ok hh]
  show Work.mk _ (if d.unread.length < kFrameHeaderSize + length then 0 else length) 0 = _
  by_cases hlt : d.unread.length < kFrameHeaderSize + length
  · have hlt' : d.unread.length < 8 + length := hlt
    rw [if_pos hlt, if_pos hlt']
  · have hge : ¬ d.unread.length < 8 + length := hlt
    rw [if_neg hlt, if_neg hge]
    by_cases hwf : Utf8.WellFormed ((d.unread.drop 8).take length)
    · rw [if_pos hwf]
    · rw [if_neg hwf]

/-- The bytes behind the cursor that have not been paid with. -/
def owed (d : FrameDecoder) : Nat :=
  d.unread.length - if d.hasPendingHeader then kFrameHeaderSize else 0

/-- Is the header of the frame behind the cursor the last one checked? -/
def headerOpen (d : FrameDecoder) : Bool := d.hasPendingHeader || d.failed

/-- What is counted between two states of the decoder is right. -/
structure Counted (d : FrameDecoder) (w : Work) (d' : FrameDecoder) : Prop where
  headers : w.headers + d.headerOpen.toNat + d.decodedFrames.length =
    d'.decodedFrames.length + d'.headerOpen.toNat
  charge : w.charge + (if d'.failed then 0 else d'.owed) ≤ d.owed
  moved : w.moved = 0

/-- A header that has been looked at is there. -/
theorem header_le {b : Bytes} (h : refHeader b ≠ .short) : kFrameHeaderSize ≤ b.length :=
  Nat.le_of_not_lt fun hlt => h (refHeader_eq_short.mpr hlt)

/-- A frame that is refused for its body is there. -/
theorem refNext_bad_le {b : Bytes} {type : ProtocolType} {length : Nat} {e : FrameErrorKind}
    (hh : refHeader b = .ok type length) (hn : refNext b = .bad e) :
    length ≤ b.length - kFrameHeaderSize := by
  rw [refNext_ok hh] at hn
  split at hn
  · cases hn
  · rename_i hge
    exact Nat.le_sub_of_add_le (Nat.add_comm length 8 ▸ Nat.le_of_not_lt hge)

theorem headers_pending (pending : Bool) : (if pending then 0 else 1) + pending.toNat = 1 := by
  cases pending
  · rfl
  · rfl

/-- A header that is open already is not paid for again. -/
theorem charge_le {d : FrameDecoder} {scanned rest : Nat}
    (hlong : kFrameHeaderSize ≤ d.unread.length)
    (hall : scanned + rest ≤ d.unread.length - kFrameHeaderSize) :
    Work.charge { headers := if d.hasPendingHeader then 0 else 1, scanned := scanned } + rest ≤
      d.owed := by
  rw [Work.charge, owed]
  cases hp : d.hasPendingHeader with
  | true =>
      simp only [if_true]
      omega
  | false =>
      simp only [Bool.false_eq_true, if_false]
      omega

/-- A turn that returns has checked a header at most, and then it is open. -/
theorem counted_done {d d' : FrameDecoder} (h : d.AtBoundary) (hs : d.decodeStep = .done d') :
    Counted d d.meteredStep.cost d' := by
  have hstep := meteredStep_cost h
  have hrun := h.running
  cases hh : refHeader d.unread with
  | short =>
      rw [decodeStep_eq h, hh] at hs
      cases hs
      rw [hh] at hstep
      rw [hstep]
      refine ⟨?_, ?_, rfl⟩
      · simp only [Nat.zero_add]
        exact Nat.add_comm _ _
      · rw [hrun]
        exact Nat.le_of_eq (Nat.zero_add _)
  | bad e =>
      rw [decodeStep_eq h, hh] at hs
      cases hs
      rw [hh] at hstep
      have hpending : d.hasPendingHeader = false := by
        refine Bool.eq_false_iff.mpr fun hp => ?_
        rw [h.header hp] at hh
        cases hh
      have hlong := header_le (b := d.unread) (by simp [hh])
      rw [hstep]
      refine ⟨?_, ?_, rfl⟩
      · simp only [headerOpen, setFailure, hpending, hrun, Bool.or_false, Bool.or_true,
          Bool.toNat_false, Bool.toNat_true]
        omega
      · simp only [Work.charge, owed, setFailure, hpending, if_true]
        exact hlong
  | ok type length =>
      rw [decodeStep_ok h hh] at hs
      rw [meteredStep_cost_ok h hh]
      have hlong := header_le (b := d.unread) (by simp [hh])
      cases hn : refNext d.unread with
      | more =>
          rw [hn] at hs
          cases hs
          refine ⟨?_, ?_, rfl⟩
          · simp only [headerOpen, hrun, Bool.or_false, Bool.toNat_true]
            rw [headers_pending, Nat.add_comm]
          · have howed : ({ d with
                frameType := type, bodyLength := length, hasPendingHeader := true } :
                FrameDecoder).owed = d.unread.length - kFrameHeaderSize := rfl
            rw [howed, hrun]
            exact charge_le hlong (Nat.le_of_eq (Nat.zero_add _))
      | bad e =>
          have hall := refNext_bad_le hh hn
          rw [hn] at hs
          cases hs
          refine ⟨?_, ?_, rfl⟩
          · simp only [headerOpen, setFailure, hrun, Bool.or_false, Bool.or_true, Bool.toNat_true]
            rw [headers_pending, Nat.add_comm]
          · exact charge_le hlong hall
      | item f n =>
          rw [hn] at hs
          cases hs

/-- A turn that goes round has paid for its frame. -/
theorem counted_again {d d' : FrameDecoder} (h : d.AtBoundary) (hs : d.decodeStep = .again d') :
    Counted d d.meteredStep.cost d' := by
  obtain ⟨f, hn, rfl⟩ := decodeStep_eq_again h hs
  obtain ⟨hh, -, hall, -, -⟩ := refNext_item hn
  have hlong := header_le (b := d.unread) (by simp [hh])
  rw [meteredStep_cost_ok h hh, hn]
  refine ⟨?_, ?_, rfl⟩
  · simp only [headerOpen, h.running, Bool.or_false, Bool.toNat_false, List.length_append,
      List.length_singleton]
    rw [headers_pending, Nat.add_comm]
  · refine charge_le hlong ?_
    have howed : ({ d with
        frameType := f.type, bodyLength := f.body.length, hasPendingHeader := false
        decodedFrames := d.decodedFrames ++ [f]
        consumedPrefixSize := d.consumedPrefixSize + (kFrameHeaderSize + f.body.length) } :
        FrameDecoder).owed = d.unread.length - (kFrameHeaderSize + f.body.length) := by
      simp only [owed, unread, Bool.false_eq_true, if_false, Nat.sub_zero, List.length_drop,
        Nat.sub_sub]
    rw [howed]
    simp only [h.running, Bool.false_eq_true, if_false]
    have hall' : kFrameHeaderSize + f.body.length ≤ d.unread.length := hall
    omega

theorem Counted.trans {d d' d'' : FrameDecoder} {w w' : Work} (h : Counted d w d')
    (hrun : d'.failed = false) (h' : Counted d' w' d'') : Counted d (w + w') d'' := by
  have hcharge := h.charge
  have hcharge' := h'.charge
  have hheaders := h.headers
  have hheaders' := h'.headers
  refine ⟨?_, ?_, ?_⟩
  · rw [Work.headers_add]
    omega
  · rw [hrun] at hcharge
    simp only [Bool.false_eq_true, if_false] at hcharge
    rw [Work.charge_add]
    omega
  · rw [Work.moved_add, h.moved, h'.moved]

/-- The whole loop. -/
theorem counted_loop {d : FrameDecoder} (h : d.AtBoundary) :
    Counted d d.meteredLoop.cost d.decodeAvailableFrames := by
  induction d using decodeAvailableFrames.induct with
  | case1 d d' hstep =>
      rw [meteredLoop_of_done hstep, decodeAvailableFrames_of_done hstep]
      exact counted_done h hstep
  | case2 d d' hstep ih =>
      obtain ⟨f, hn, -⟩ := decodeStep_eq_again h hstep
      obtain ⟨d₁, hstep₁, hat, -⟩ := decodeStep_item h hn
      cases hstep.symm.trans hstep₁
      rw [meteredLoop_of_again hstep, decodeAvailableFrames_of_again hstep]
      exact (counted_again h hstep).trans hat.running (ih hat)

/-! ## One call -/

theorem AtBoundary.pending_le {d : FrameDecoder} (h : d.AtBoundary) :
    (if d.hasPendingHeader then kFrameHeaderSize else 0) ≤ d.unread.length := by
  cases hp : d.hasPendingHeader with
  | true =>
      refine header_le fun hshort => ?_
      rw [h.header hp] at hshort
      cases hshort
  | false => exact Nat.zero_le _

theorem AtBoundary.owed_received {d : FrameDecoder} (h : d.AtBoundary) (chunk : Bytes) :
    (d.received chunk).owed = d.owed + chunk.length := by
  have hle := h.pending_le
  have hpending : (d.received chunk).hasPendingHeader = d.hasPendingHeader := rfl
  rw [owed, owed, (h.received chunk).2, hpending, List.length_append]
  omega

/-- The loop leaves the buffer alone and moves the cursor forward. -/
theorem loop_cursor {d : FrameDecoder} (h : d.AtBoundary) :
    d.decodeAvailableFrames.inputBuffer = d.inputBuffer ∧
      d.consumedPrefixSize ≤ d.decodeAvailableFrames.consumedPrefixSize := by
  induction d using decodeAvailableFrames.induct with
  | case1 d d' hstep =>
      rw [decodeAvailableFrames_of_done hstep]
      obtain ⟨hbuf, hcursor, -⟩ := decodeStep_eq_done h hstep
      exact ⟨hbuf, Nat.le_of_eq hcursor.symm⟩
  | case2 d d' hstep ih =>
      rw [decodeAvailableFrames_of_again hstep]
      obtain ⟨f, hn, heq⟩ := decodeStep_eq_again h hstep
      obtain ⟨d₁, hstep₁, hat, -⟩ := decodeStep_item h hn
      cases hstep.symm.trans hstep₁
      obtain ⟨hbuf, hcursor⟩ := ih hat
      subst heq
      exact ⟨hbuf, Nat.le_trans (Nat.le_add_right _ _) hcursor⟩

/-- What is moved has arrived in the same call: a frame that is completed now
ends behind the bytes that were there. -/
theorem Waiting.moved_le {d : FrameDecoder} (h : d.Waiting) (chunk : Bytes) :
    (d.received chunk).decodeAvailableFrames.meteredDiscard.cost.moved ≤ chunk.length := by
  obtain ⟨hat, hunread⟩ := h.received chunk
  obtain ⟨hbuf, -⟩ := loop_cursor hat
  rw [meteredDiscard, hbuf]
  split
  · rename_i hpos
    rw [cost_charged, List.length_drop]
    cases hstep : (d.received chunk).decodeStep with
    | done d' =>
        rw [decodeAvailableFrames_of_done hstep, (decodeStep_eq_done hat hstep).2.1] at hpos
        exact absurd (h.discarded ▸ hpos) (Nat.lt_irrefl 0)
    | again d' =>
        obtain ⟨f, hn, heq⟩ := decodeStep_eq_again hat hstep
        obtain ⟨d₁, hstep₁, hat', -⟩ := decodeStep_item hat hn
        cases hstep.symm.trans hstep₁
        obtain ⟨-, -, hle, -, -⟩ := refNext_item hn
        have hlonger : d.unread.length < kFrameHeaderSize + f.body.length := by
          have hlt := Codec.lt_of_next_more (c := frameCodec) (encode_refNext hn) h.more
            ((List.take_append_drop _ _).trans hunread)
          rwa [List.length_take, Nat.min_eq_left hle] at hlt
        have hcursor : kFrameHeaderSize + f.body.length ≤
            (d.received chunk).decodeAvailableFrames.consumedPrefixSize := by
          rw [decodeAvailableFrames_of_again hstep]
          refine Nat.le_trans ?_ (loop_cursor hat').2
          rw [heq]
          exact Nat.le_add_left _ _
        have hlen : (d.received chunk).inputBuffer.length = d.unread.length + chunk.length := by
          rw [unread, h.discarded, List.drop_zero]
          exact List.length_append
        rw [hlen]
        show _ - _ ≤ _
        omega
  · exact Nat.zero_le _

theorem meteredFeed_cost {d : FrameDecoder} (h : d.failed = false) (chunk : Bytes) :
    (d.meteredFeed chunk).cost =
      (d.received chunk).meteredLoop.cost +
        (d.received chunk).decodeAvailableFrames.meteredDiscard.cost := by
  rw [meteredFeed, if_neg (Bool.eq_false_iff.mp h), cost_bind, meteredLoop_result]
  rfl

/-- Erasing checks nothing. -/
theorem meteredDiscard_cost (d : FrameDecoder) :
    d.meteredDiscard.cost.headers = 0 ∧ d.meteredDiscard.cost.charge = 0 := by
  rw [meteredDiscard]
  split
  · exact ⟨rfl, rfl⟩
  · exact ⟨rfl, rfl⟩

/-- A call of a decoder that waits for bytes. -/
theorem Waiting.counted_feed {d : FrameDecoder} (h : d.Waiting) (chunk : Bytes) :
    (d.meteredFeed chunk).cost.headers + d.headerOpen.toNat + d.decodedFrames.length =
        (d.feedBytes chunk).decodedFrames.length + (d.feedBytes chunk).headerOpen.toNat ∧
      (d.meteredFeed chunk).cost.charge +
          (if (d.feedBytes chunk).failed then 0 else (d.feedBytes chunk).owed) ≤
        d.owed + chunk.length ∧
      (d.meteredFeed chunk).cost.moved ≤ chunk.length := by
  have hcounted := counted_loop (h.received chunk).1
  have hmoved := h.moved_le chunk
  have howed := h.toAtBoundary.owed_received chunk
  obtain ⟨hheaders₀, hcharge₀⟩ := meteredDiscard_cost (d.received chunk).decodeAvailableFrames
  rw [meteredFeed_cost h.running, h.feedBytes_eq, discardConsumedBytes_eq, Work.headers_add,
    Work.charge_add, Work.moved_add, hheaders₀, hcharge₀, hcounted.moved, Nat.add_zero,
    Nat.add_zero, Nat.zero_add, ← howed]
  exact ⟨hcounted.headers, hcounted.charge, hmoved⟩

end FrameDecoder

/-! ## Every run -/

open FrameDecoder

/-- The decoder with its calls marked, and what they cost added up. -/
def countingDecoder : Machine (FrameDecoder × Work) UInt8 Frame := decoder.meter meteredFeed

/-- What a run costs. -/
def work (ops : List (Op UInt8)) : Work := (countingDecoder.run ({}, {}) ops).2.2

/-- What has been counted when `b` has been fed and `out` popped. -/
structure Accounts (b : Bytes) (out : List Frame) (s : FrameDecoder × Work) : Prop where
  waiting : s.1.failed = false → s.1.Waiting
  headers : s.2.headers = (out ++ s.1.decodedFrames).length + s.1.headerOpen.toNat
  charge : s.2.charge + (if s.1.failed then 0 else s.1.owed) ≤ b.length
  moved : s.2.moved ≤ b.length

theorem Accounts.feed {b : Bytes} {out : List Frame} {s : FrameDecoder × Work}
    (h : Accounts b out s) (chunk : Bytes) :
    Accounts (b ++ chunk) out (countingDecoder.feed s chunk) := by
  obtain ⟨d, w⟩ := s
  have hcharge : w.charge + (if d.failed then 0 else d.owed) ≤ b.length := h.charge
  have hmoved : w.moved ≤ b.length := h.moved
  have hheaders : w.headers = (out ++ d.decodedFrames).length + d.headerOpen.toNat := h.headers
  show Accounts (b ++ chunk) out
    ((d.meteredFeed chunk).result, w + (d.meteredFeed chunk).cost)
  rw [meteredFeed_result]
  cases hfail : d.failed with
  | true =>
      have hwork : w + (d.meteredFeed chunk).cost = w := by
        rw [meteredFeed, if_pos hfail]
        rfl
      rw [hwork, feedBytes_failed hfail]
      refine ⟨h.waiting, h.headers, ?_, ?_⟩
      · rw [List.length_append]
        exact Nat.le_trans hcharge (Nat.le_add_right _ _)
      · rw [List.length_append]
        exact Nat.le_trans hmoved (Nat.le_add_right _ _)
  | false =>
      have hw : d.Waiting := h.waiting hfail
      obtain ⟨hheaders', hcharge', hmoved'⟩ := hw.counted_feed chunk
      rw [hfail] at hcharge
      simp only [Bool.false_eq_true, if_false] at hcharge
      refine ⟨hw.feedBytes, ?_, ?_, ?_⟩
      · show (w + (d.meteredFeed chunk).cost).headers =
          (out ++ (d.feedBytes chunk).decodedFrames).length + (d.feedBytes chunk).headerOpen.toNat
        rw [Work.headers_add, hheaders, List.length_append, List.length_append]
        omega
      · show (w + (d.meteredFeed chunk).cost).charge +
          (if (d.feedBytes chunk).failed then 0 else (d.feedBytes chunk).owed) ≤ _
        rw [Work.charge_add, List.length_append]
        omega
      · rw [Work.moved_add, List.length_append]
        exact Nat.add_le_add hmoved hmoved'

theorem Accounts.pop {b : Bytes} {out : List Frame} {s : FrameDecoder × Work}
    (h : Accounts b out s) :
    Accounts b (out ++ (countingDecoder.pop s).1.toList) (countingDecoder.pop s).2 := by
  obtain ⟨d, w⟩ := s
  show Accounts b (out ++ d.tryPopFrame.1.toList) (d.tryPopFrame.2, w)
  cases hfail : d.failed with
  | true =>
      rw [tryPopFrame_failed hfail, Option.toList_none, List.append_nil]
      exact h
  | false =>
      have hw := h.waiting hfail
      have hheaders : w.headers = (out ++ d.decodedFrames).length + d.headerOpen.toNat := h.headers
      rw [tryPopFrame_running hfail]
      refine ⟨fun _ => ⟨⟨⟨hw.cursor, hw.running, hw.quiet, hw.header⟩, hw.discarded⟩, hw.more⟩,
        ?_, h.charge, h.moved⟩
      rw [hheaders]
      cases d.decodedFrames with
      | nil => simp [headerOpen]
      | cons f fs => simp [headerOpen]

theorem accounts_run (ops : List (Op UInt8)) :
    Accounts (fed ops) (countingDecoder.run ({}, {}) ops).1
      (countingDecoder.run ({}, {}) ops).2 := by
  refine Machine.run_invariant (I := Accounts) ?_ ?_ ?_ ops
  · exact ⟨fun _ => waiting_fresh, rfl, Nat.le_refl 0, Nat.le_refl 0⟩
  · exact fun _ _ _ chunk h => h.feed chunk
  · exact fun _ _ _ h => h.pop

/-- **Decoding is linear in the bytes, however they are cut.**  A header is
checked once for each frame, and once more for the one that is open or broken;
a byte of the stream is part of one header check or one body scan at most; and
at most as many bytes are moved to the front as have been fed. -/
theorem decoding_is_linear (ops : List (Op UInt8)) :
    let d := (decoder.run {} ops).2
    (work ops).headers = (produced ops).length + (d.hasPendingHeader || d.failed).toNat ∧
      8 * (work ops).headers + (work ops).scanned ≤ (fed ops).length ∧
      (work ops).moved ≤ (fed ops).length := by
  obtain ⟨hout, hstate⟩ := Machine.run_meter (m := decoder) meteredFeed_result {} {} ops
  obtain ⟨-, hheaders, hcharge, hmoved⟩ := accounts_run ops
  have hpopped : (countingDecoder.run ({}, {}) ops).1 = (decoder.run {} ops).1 := hout
  have hdecoder : (countingDecoder.run ({}, {}) ops).2.1 = (decoder.run {} ops).2 := hstate
  rw [hpopped, hdecoder] at hheaders
  exact ⟨hheaders, Nat.le_trans (Nat.le_add_right _ _) hcharge, hmoved⟩

end ChatHub.Contracts
