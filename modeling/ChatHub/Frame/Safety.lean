/-
# `ChatHub.Frame.Safety` — the decoding loop stays inside its buffer

The definitions of `ChatHub.Contracts.Frame` read the buffer with a default and
subtract on `Nat`.  In the source a read outside the buffer is undefined, and a
`size_t` subtraction wraps.  Here the same loop is written with every access
guarded (`checkedStep`, `checkedDiscard`): a read, a range or a difference that
would go wrong has no result.

At every loop head of every run the guarded turn gives what the plain one gives
(`checkedStep_eq`), so nothing goes wrong.  The invariant that carries this over
the turns is `AtHead`: the cursor stands behind the encodings of the frames
completed so far, each of at least 8 bytes.  It also bounds the number of
turns, and says what is erased at the end.
-/
import ChatHub.Frame.Runs

namespace ChatHub.Contracts

open Streaming

/-! ## Guarded accesses -/

/-- `a - b` on `size_t`, with nothing if it wraps. -/
def checkedSub (a b : Nat) : Option Nat := if b ≤ a then some (a - b) else none

/-- The `n` bytes from `start` on, with nothing if some are outside. -/
def checkedRange (b : Bytes) (start n : Nat) : Option Bytes :=
  if start + n ≤ b.length then some ((b.drop start).take n) else none

namespace FrameDecoder

/-- `parseAndValidateHeader` with guarded reads. -/
def checkedHeader (d : FrameDecoder) (offset : Nat) : Option (Bool × FrameDecoder) := do
  let high ← d.inputBuffer[offset]?
  if high ≠ kFrameMagicHigh then return (false, d.setFailure .badMagic)
  let low ← d.inputBuffer[offset + 1]?
  if low ≠ kFrameMagicLow then return (false, d.setFailure .badMagic)
  let version ← d.inputBuffer[offset + 2]?
  if version ≠ kProtocolVersion then return (false, d.setFailure .badVersion)
  let type ← d.inputBuffer[offset + 3]?
  match findProtocol ⟨type⟩ with
  | none => return (false, d.setFailure .unknownType)
  | some descriptor =>
      let b₃ ← d.inputBuffer[offset + 4]?
      let b₂ ← d.inputBuffer[offset + 5]?
      let b₁ ← d.inputBuffer[offset + 6]?
      let b₀ ← d.inputBuffer[offset + 7]?
      let bodyLength := (b₃.toUInt32 <<< 24) ||| (b₂.toUInt32 <<< 16) ||| (b₁.toUInt32 <<< 8) |||
        b₀.toUInt32
      if bodyLength > descriptor.maxBody then return (false, d.setFailure .bodyTooLarge)
      return (true, { d with frameType := descriptor.type, bodyLength := bodyLength.toNat })

/-- `takeBody` with a guarded difference and a guarded range. -/
def checkedTakeBody (d : FrameDecoder) : Option Turn := do
  let left ← checkedSub d.inputBuffer.length d.consumedPrefixSize
  if left < kFrameHeaderSize + d.bodyLength then return .done d
  let body ← checkedRange d.inputBuffer (d.consumedPrefixSize + kFrameHeaderSize) d.bodyLength
  let d := { d with hasPendingHeader := false }
  if !isValidUtf8 body then return .done (d.setFailure .invalidUtf8)
  return .again { d with
    decodedFrames := d.decodedFrames ++ [⟨d.frameType, body⟩]
    consumedPrefixSize := d.consumedPrefixSize + (kFrameHeaderSize + d.bodyLength) }

/-- One turn of the loop with every access guarded. -/
def checkedStep (d : FrameDecoder) : Option Turn :=
  if d.hasPendingHeader then d.checkedTakeBody
  else do
    let left ← checkedSub d.inputBuffer.length d.consumedPrefixSize
    if left < kFrameHeaderSize then return .done d
    match ← d.checkedHeader d.consumedPrefixSize with
    | (false, d) => return .done d
    | (true, d) => checkedTakeBody { d with hasPendingHeader := true }

/-- `discardConsumedBytes` with a guarded erase. -/
def checkedDiscard (d : FrameDecoder) : Option FrameDecoder :=
  if d.consumedPrefixSize > 0 then do
    let _ ← checkedRange d.inputBuffer 0 d.consumedPrefixSize
    return { d with inputBuffer := d.inputBuffer.drop d.consumedPrefixSize, consumedPrefixSize := 0 }
  else some d

/-! ## The guards hold at a boundary -/

theorem checkedSub_eq {a b : Nat} (h : b ≤ a) : checkedSub a b = some (a - b) := if_pos h

theorem checkedRange_eq {b : Bytes} {start n : Nat} (h : start + n ≤ b.length) :
    checkedRange b start n = some ((b.drop start).take n) := if_pos h

theorem getElem?_eq_byteAt {d : FrameDecoder} {i : Nat} (h : i < d.inputBuffer.length) :
    d.inputBuffer[i]? = some (d.byteAt i) := by
  rw [byteAt, List.getD_eq_getElem?_getD, List.getElem?_eq_getElem h, Option.getD_some]

/-- Eight bytes from the offset on are enough for the header check. -/
theorem checkedHeader_eq {d : FrameDecoder} {offset : Nat}
    (h : offset + kFrameHeaderSize ≤ d.inputBuffer.length) :
    d.checkedHeader offset = some (d.parseAndValidateHeader offset) := by
  have hread : ∀ k, k < kFrameHeaderSize →
      d.inputBuffer[offset + k]? = some (d.byteAt (offset + k)) := fun k hk =>
    getElem?_eq_byteAt (Nat.lt_of_lt_of_le (Nat.add_lt_add_left hk offset) h)
  have hread₀ : d.inputBuffer[offset]? = some (d.byteAt offset) := hread 0 (by decide)
  rw [checkedHeader, parseAndValidateHeader, hread₀, hread 1 (by decide), hread 2 (by decide),
    hread 3 (by decide), hread 4 (by decide), hread 5 (by decide), hread 6 (by decide),
    hread 7 (by decide)]
  simp only [Option.bind_eq_bind, Option.bind_some, Option.pure_def]
  by_cases hhigh : d.byteAt offset ≠ kFrameMagicHigh
  · rw [if_pos hhigh, if_pos (.inl hhigh)]
  · rw [if_neg hhigh]
    by_cases hlow : d.byteAt (offset + 1) ≠ kFrameMagicLow
    · rw [if_pos hlow, if_pos (.inr hlow)]
    · rw [if_neg hlow, if_neg (not_or.mpr ⟨hhigh, hlow⟩)]
      by_cases hversion : d.byteAt (offset + 2) ≠ kProtocolVersion
      · rw [if_pos hversion, if_pos hversion]
      · rw [if_neg hversion, if_neg hversion]
        cases findProtocol ⟨d.byteAt (offset + 3)⟩ with
        | none => rfl
        | some descriptor =>
            show (if d.headerBodyLength offset > descriptor.maxBody then _ else _) =
              some (if d.headerBodyLength offset > descriptor.maxBody then _ else _)
            split
            · rfl
            · rfl

theorem checkedTakeBody_eq {d : FrameDecoder} (h : d.consumedPrefixSize ≤ d.inputBuffer.length) :
    d.checkedTakeBody = some d.takeBody := by
  rw [checkedTakeBody, takeBody, checkedSub_eq h]
  simp only [Option.bind_eq_bind, Option.bind_some, Option.pure_def]
  split
  · rfl
  · rename_i hcomplete
    rw [checkedRange_eq (by omega), Option.bind_some]
    split
    · rfl
    · rfl

/-- **At a boundary no access goes wrong.** -/
theorem checkedStep_eq {d : FrameDecoder} (h : d.consumedPrefixSize ≤ d.inputBuffer.length) :
    d.checkedStep = some d.decodeStep := by
  rw [checkedStep, decodeStep]
  split
  · exact checkedTakeBody_eq h
  · rw [checkedSub_eq h]
    simp only [Option.bind_eq_bind, Option.bind_some, Option.pure_def]
    split
    · rfl
    · rename_i hheader
      rw [checkedHeader_eq (by omega), Option.bind_some]
      obtain ⟨hbuf, hcursor⟩ := parseAndValidateHeader_frame d d.consumedPrefixSize
      generalize d.parseAndValidateHeader d.consumedPrefixSize = p at hbuf hcursor
      obtain ⟨ok, d'⟩ := p
      cases ok with
      | false => rfl
      | true =>
          refine checkedTakeBody_eq (?_ : d'.consumedPrefixSize ≤ d'.inputBuffer.length)
          have hbuf' : d'.inputBuffer = d.inputBuffer := hbuf
          have hcursor' : d'.consumedPrefixSize = d.consumedPrefixSize := hcursor
          rw [hbuf', hcursor']
          exact h

theorem checkedDiscard_eq {d : FrameDecoder} (h : d.consumedPrefixSize ≤ d.inputBuffer.length) :
    d.checkedDiscard = some d.discardConsumedBytes := by
  rw [checkedDiscard, discardConsumedBytes]
  split
  · rw [checkedRange_eq (by rwa [Nat.zero_add])]
    rfl
  · rfl

/-! ## What a turn does -/

/-- A turn that goes round has completed the frame at the cursor. -/
theorem decodeStep_eq_again {d d' : FrameDecoder} (h : d.AtBoundary) (hs : d.decodeStep = .again d') :
    ∃ f, refNext d.unread = .item f (kFrameHeaderSize + f.body.length) ∧
      d' = { d with
        frameType := f.type, bodyLength := f.body.length, hasPendingHeader := false
        decodedFrames := d.decodedFrames ++ [f]
        consumedPrefixSize := d.consumedPrefixSize + (kFrameHeaderSize + f.body.length) } := by
  cases hn : refNext d.unread with
  | more =>
      obtain ⟨d₁, hstep, -⟩ := decodeStep_more h hn
      cases hs.symm.trans hstep
  | bad e =>
      obtain ⟨d₁, hstep, -⟩ := decodeStep_bad h hn
      cases hs.symm.trans hstep
  | item f n =>
      obtain ⟨hh, rfl, -, -, -⟩ := refNext_item hn
      have hstep := decodeStep_ok h hh
      rw [hn] at hstep
      cases hs.symm.trans hstep
      exact ⟨f, rfl, rfl⟩

theorem takeBody_eq_done {d d' : FrameDecoder} (hs : d.takeBody = .done d') :
    d'.inputBuffer = d.inputBuffer ∧ d'.consumedPrefixSize = d.consumedPrefixSize ∧
      d'.decodedFrames = d.decodedFrames := by
  simp only [takeBody] at hs
  split at hs
  · cases hs
    exact ⟨rfl, rfl, rfl⟩
  · split at hs
    · cases hs
      exact ⟨rfl, rfl, rfl⟩
    · cases hs

/-- A turn that returns has moved nothing. -/
theorem decodeStep_eq_done {d d' : FrameDecoder} (h : d.AtBoundary) (hs : d.decodeStep = .done d') :
    d'.inputBuffer = d.inputBuffer ∧ d'.consumedPrefixSize = d.consumedPrefixSize ∧
      d'.decodedFrames = d.decodedFrames := by
  rw [decodeStep_eq h] at hs
  cases hh : refHeader d.unread with
  | short =>
      rw [hh] at hs
      cases hs
      exact ⟨rfl, rfl, rfl⟩
  | bad e =>
      rw [hh] at hs
      cases hs
      exact ⟨rfl, rfl, rfl⟩
  | ok type length =>
      rw [hh] at hs
      have hmoved := takeBody_eq_done hs
      rw [readHeader_ok hh] at hmoved
      exact hmoved

/-! ## The heads of the loop -/

/-- `d` is the state at the loop head after `n` full turns from `d₀`. -/
inductive Head (d₀ : FrameDecoder) : Nat → FrameDecoder → Prop
  | start : Head d₀ 0 d₀
  | turn {n : Nat} {d d' : FrameDecoder} : Head d₀ n d → d.decodeStep = .again d' →
      Head d₀ (n + 1) d'

/-- The invariant of the loop: the cursor stands behind the encodings of the
frames that have been completed. -/
structure AtHead (d₀ : FrameDecoder) (n : Nat) (d : FrameDecoder) : Prop where
  boundary : d.AtBoundary
  buffer : d.inputBuffer = d₀.inputBuffer
  turns : kFrameHeaderSize * n ≤ d.consumedPrefixSize
  frames : ∃ new w, d.decodedFrames = d₀.decodedFrames ++ new ∧ frameCodec.encodeAll new = some w ∧
    new.length = n ∧ w.length = d.consumedPrefixSize ∧ d₀.inputBuffer.take w.length = w

theorem atHead_start {d : FrameDecoder} (h : d.AtBoundary) (hcursor : d.consumedPrefixSize = 0) :
    AtHead d 0 d where
  boundary := h
  buffer := rfl
  turns := Nat.zero_le _
  frames := ⟨[], [], (List.append_nil _).symm, rfl, rfl, hcursor.symm, rfl⟩

/-- One turn keeps the invariant. -/
theorem AtHead.turn {d₀ d d' : FrameDecoder} {n : Nat} (h : AtHead d₀ n d)
    (hs : d.decodeStep = .again d') : AtHead d₀ (n + 1) d' := by
  obtain ⟨f, hn, rfl⟩ := decodeStep_eq_again h.boundary hs
  obtain ⟨d₁, hstep, hat, -⟩ := decodeStep_item h.boundary hn
  cases hs.symm.trans hstep
  obtain ⟨new, w, hframes, hw, hlen, hcursor, htake⟩ := h.frames
  have hencode : frameCodec.encode f = some (d.unread.take (kFrameHeaderSize + f.body.length)) :=
    encode_refNext hn
  obtain ⟨-, -, hle, -, -⟩ := refNext_item hn
  have htakelen : (d.unread.take (kFrameHeaderSize + f.body.length)).length =
      kFrameHeaderSize + f.body.length := by
    rw [List.length_take]
    exact Nat.min_eq_left hle
  refine ⟨hat, h.buffer, ?_, new ++ [f], w ++ d.unread.take (kFrameHeaderSize + f.body.length),
    ?_, ?_, ?_, ?_, ?_⟩
  · show kFrameHeaderSize * (n + 1) ≤ d.consumedPrefixSize + (kFrameHeaderSize + f.body.length)
    have := h.turns
    rw [Nat.mul_succ]
    omega
  · show d.decodedFrames ++ [f] = _
    rw [hframes, List.append_assoc]
  · refine Codec.encodeAll_append.mpr ⟨w, _, hw, ?_, rfl⟩
    exact Codec.encodeAll_cons.mpr ⟨_, [], hencode, rfl, (List.append_nil _).symm⟩
  · rw [List.length_append, hlen, List.length_singleton]
  · rw [List.length_append, hcursor, htakelen]
  · rw [List.length_append, htakelen, List.take_add, htake, hcursor, ← h.buffer]
    rfl

theorem Head.atHead {d₀ d : FrameDecoder} {n : Nat} (h : Head d₀ n d) (hat : d₀.AtBoundary)
    (hcursor : d₀.consumedPrefixSize = 0) : AtHead d₀ n d := by
  induction h with
  | start => exact atHead_start hat hcursor
  | turn _ hs ih => exact ih.turn hs

/-- The loop returns from one of its heads. -/
theorem exists_last_head (d : FrameDecoder) :
    ∃ n h, Head d n h ∧ h.decodeStep = .done d.decodeAvailableFrames := by
  suffices ∀ k h, Head d k h → ∃ n h', Head d n h' ∧ h'.decodeStep = .done h.decodeAvailableFrames
    from this 0 d .start
  intro k h
  induction h using decodeAvailableFrames.induct generalizing k with
  | case1 h h' hstep =>
      intro hh
      refine ⟨k, h, hh, ?_⟩
      rw [decodeAvailableFrames_of_done hstep]
      exact hstep
  | case2 h h' hstep ih =>
      intro hh
      rw [decodeAvailableFrames_of_again hstep]
      exact ih (k + 1) (hh.turn hstep)

end FrameDecoder

/-! ## Every call in every run -/

theorem Stands.atBoundary {b : Bytes} {out : List Frame} {d : FrameDecoder} (h : Stands b out d)
    (hrun : d.failed = false) : d.AtBoundary := by
  obtain ⟨-, -, -, hheader, hquiet⟩ := h.waiting _ (h.rest_of_running hrun)
  refine ⟨?_, hrun, hquiet, ?_⟩
  · rw [h.cursor]
    exact Nat.zero_le _
  · rw [FrameDecoder.unread, h.cursor, List.drop_zero]
    exact hheader

/-- The state in which a call enters the decoding loop: the chunk is behind the
buffer. -/
def FrameDecoder.received (d : FrameDecoder) (chunk : Bytes) : FrameDecoder :=
  { d with inputBuffer := d.inputBuffer ++ chunk }

section
open FrameDecoder

/-- **The decoding loop is safe in every run.**  After any feeds and pops, and
for any chunk, a decoder that has failed does not enter the loop.  Otherwise at
every loop head the cursor is inside the buffer, and the turn makes no access
outside the buffer and no difference that wraps; a turn that goes round moves
the cursor by 8 and the length of the body; so there are at most `size / 8` of
them, and the loop returns.  What is erased then are the encodings of the frames
that this call has completed. -/
theorem decode_loop_safe (ops : List (Op UInt8)) (chunk : Bytes) :
    let d := (decoder.run {} ops).2
    let start := d.received chunk
    (d.failed = true → d.feedBytes chunk = d) ∧
    (d.failed = false →
      (∀ n h, Head start n h →
        h.inputBuffer = start.inputBuffer ∧ h.consumedPrefixSize ≤ h.inputBuffer.length ∧
        h.checkedStep = some h.decodeStep ∧ n ≤ start.inputBuffer.length / 8 ∧
        ∀ h', h.decodeStep = .again h' →
          h'.consumedPrefixSize = h.consumedPrefixSize + (8 + h'.bodyLength)) ∧
      (∃ n h, Head start n h ∧ h.decodeStep = .done start.decodeAvailableFrames) ∧
      start.decodeAvailableFrames.checkedDiscard = some (d.feedBytes chunk) ∧
      ∃ new w, start.decodeAvailableFrames.decodedFrames = d.decodedFrames ++ new ∧
        frameCodec.encodeAll new = some w ∧
        start.decodeAvailableFrames.consumedPrefixSize = w.length ∧
        start.inputBuffer = w ++ (d.feedBytes chunk).inputBuffer) := by
  intro d start
  have hstands := decoder_run ops
  refine ⟨fun hfail => feedBytes_failed hfail chunk, fun hrun => ?_⟩
  obtain ⟨hat, -⟩ := atBoundary_append (hstands.atBoundary hrun) chunk
  have hcursor : start.consumedPrefixSize = 0 := hstands.cursor
  have hheads : ∀ {n h}, Head start n h → AtHead start n h := fun hh => hh.atHead hat hcursor
  have hfeed : d.feedBytes chunk = start.decodeAvailableFrames.discardConsumedBytes := by
    rw [feedBytes, if_neg (by simp [hrun])]
    rfl
  obtain ⟨n, last, hlast, hdone⟩ := exists_last_head start
  have hend := hheads hlast
  obtain ⟨hbuf, hcons, hframes⟩ := decodeStep_eq_done hend.boundary hdone
  have hle : start.decodeAvailableFrames.consumedPrefixSize ≤
      start.decodeAvailableFrames.inputBuffer.length := by
    rw [hcons, hbuf]
    exact hend.boundary.cursor
  refine ⟨?_, ⟨n, last, hlast, hdone⟩, ?_, ?_⟩
  · intro n h hh
    have hinv := hheads hh
    refine ⟨hinv.buffer, hinv.boundary.cursor, checkedStep_eq hinv.boundary.cursor, ?_, ?_⟩
    · have hturns := hinv.turns
      have hsize := hinv.boundary.cursor
      rw [hinv.buffer] at hsize
      rw [Nat.le_div_iff_mul_le (by decide), Nat.mul_comm]
      exact Nat.le_trans hturns hsize
    · intro h' hs
      obtain ⟨f, -, rfl⟩ := decodeStep_eq_again hinv.boundary hs
      rfl
  · rw [checkedDiscard_eq hle, hfeed]
  · obtain ⟨new, w, hnew, hw, -, hlen, htake⟩ := hend.frames
    refine ⟨new, w, hframes.trans hnew, hw, hcons.trans hlen.symm, ?_⟩
    rw [hfeed, discardConsumedBytes_eq]
    show start.inputBuffer = w ++ start.decodeAvailableFrames.inputBuffer.drop
      start.decodeAvailableFrames.consumedPrefixSize
    rw [hbuf, hcons, hend.buffer, ← hlen]
    exact (List.take_append_drop w.length start.inputBuffer).symm.trans
      (congrArg (· ++ start.inputBuffer.drop w.length) htake)

end

end ChatHub.Contracts
