/-
# `ChatHub.Contracts.Frame` — the frame layer as the code computes it

`frame.hpp`: an 8-byte header, `'C' 'H'`, version 1, type, big-endian body
length, and behind it a UTF-8 body.  `FrameDecoder` takes bytes as they arrive
and hands out complete frames; `encodeFrame` writes one.

The definitions follow the source function by function.  A member
`input_buffer_` is a field `inputBuffer`; a method that changes the object
returns the changed one.  `decodeAvailableFrames` is the source's
`while (true)`: `decodeStep` is one turn of it, which either returns from the
method (`done`) or goes round again (`again`).  A turn that goes round has
consumed a header, so the loop ends; that is its termination argument.

`size_t` values are `Nat`: the buffer is a list, and its length is what the
code compares with.  Reads of the buffer are `byteAt`; the guards in front of
them keep every index inside.
-/
import ChatHub.Contracts.ProtocolDescriptor

namespace ChatHub.Contracts

/-- A byte string. -/
abbrev Bytes := List UInt8

def kFrameMagicHigh : UInt8 := 0x43
def kFrameMagicLow : UInt8 := 0x48
def kProtocolVersion : UInt8 := 1
def kFrameHeaderSize : Nat := 8

/-! ## UTF-8 -/

/-- The length of the character a lead byte starts; `none` if no character of
more than one byte starts with it. -/
def leadLength (c : UInt8) : Option Nat :=
  if 0xC2 ≤ c ∧ c ≤ 0xDF then some 2
  else if 0xE0 ≤ c ∧ c ≤ 0xEF then some 3
  else if 0xF0 ≤ c ∧ c ≤ 0xF4 then some 4
  else none

/-- The scan of `isValidUtf8` from index `i` on.  Reads go through `data[·]?`:
the result is `none` if one of them is outside `data`. -/
def scanUtf8 (data : Bytes) (i : Nat) : Option Bool :=
  if _hi : i < data.length then
    match data[i]? with
    | none => none
    | some c =>
        if c ≤ 0x7F then scanUtf8 data (i + 1)
        else
          match _hl : leadLength c with
          | none => some false
          | some length =>
              if i + length > data.length then some false
              else do
                let continued ← (List.range' 1 (length - 1)).allM fun j => do
                  let b ← data[i + j]?
                  return b &&& 0xC0 == 0x80
                if !continued then return false
                let second ← data[i + 1]?
                if c == 0xE0 && second < 0xA0 then return false
                if c == 0xED && second > 0x9F then return false
                if c == 0xF0 && second < 0x90 then return false
                if c == 0xF4 && second > 0x8F then return false
                scanUtf8 data (i + length)
  else some true
termination_by data.length - i
decreasing_by
  · omega
  · have : 0 < length := by
      simp only [leadLength] at _hl
      grind
    omega

/-- Is `text` valid UTF-8?  Overlong forms, surrogates and values above
U+10FFFF are not. -/
def isValidUtf8 (text : Bytes) : Bool :=
  scanUtf8 text 0 == some true

/-! ## Frames -/

structure Frame where
  type : ProtocolType := .protocolError
  body : Bytes
  deriving DecidableEq, Repr

inductive FrameErrorKind where
  | decoderFailed
  | badMagic
  | badVersion
  | unknownType
  | bodyTooLarge
  | invalidUtf8
  deriving DecidableEq, Repr

/-- The state of a `FrameDecoder` object. -/
structure FrameDecoder where
  inputBuffer : Bytes := []
  consumedPrefixSize : Nat := 0
  bodyLength : Nat := 0
  frameType : ProtocolType := .protocolError
  hasPendingHeader : Bool := false
  failed : Bool := false
  error : FrameErrorKind := .decoderFailed
  decodedFrames : List Frame := []
  deriving DecidableEq, Repr

namespace FrameDecoder

def hasFailed (d : FrameDecoder) : Bool := d.failed

def setFailure (d : FrameDecoder) (kind : FrameErrorKind) : FrameDecoder :=
  { d with failed := true, error := kind }

/-- `input_buffer_[i]`. -/
def byteAt (d : FrameDecoder) (i : Nat) : UInt8 := d.inputBuffer.getD i 0

/-- The four length bytes of the header at `offset`, widened before they are
shifted. -/
def headerBodyLength (d : FrameDecoder) (offset : Nat) : UInt32 :=
  ((d.byteAt (offset + 4)).toUInt32 <<< 24) |||
  ((d.byteAt (offset + 5)).toUInt32 <<< 16) |||
  ((d.byteAt (offset + 6)).toUInt32 <<< 8) |||
  (d.byteAt (offset + 7)).toUInt32

/-- Check the header at `offset` in the order magic, version, type, length; the
type and the length are kept only if all four are right. -/
def parseAndValidateHeader (d : FrameDecoder) (offset : Nat) : Bool × FrameDecoder :=
  if d.byteAt offset ≠ kFrameMagicHigh ∨ d.byteAt (offset + 1) ≠ kFrameMagicLow then
    (false, d.setFailure .badMagic)
  else if d.byteAt (offset + 2) ≠ kProtocolVersion then
    (false, d.setFailure .badVersion)
  else
    match findProtocol ⟨d.byteAt (offset + 3)⟩ with
    | none => (false, d.setFailure .unknownType)
    | some descriptor =>
        let bodyLength := d.headerBodyLength offset
        if bodyLength > descriptor.maxBody then
          (false, d.setFailure .bodyTooLarge)
        else
          (true, { d with frameType := descriptor.type, bodyLength := bodyLength.toNat })

/-- What a turn of the decoding loop does: return from the method, or go on. -/
inductive Turn where
  | done (d : FrameDecoder)
  | again (d : FrameDecoder)
  deriving DecidableEq, Repr

/-- The second half of a turn: the header is there and has been checked. -/
def takeBody (d : FrameDecoder) : Turn :=
  if d.inputBuffer.length - d.consumedPrefixSize < kFrameHeaderSize + d.bodyLength then
    .done d
  else
    let body := (d.inputBuffer.drop (d.consumedPrefixSize + kFrameHeaderSize)).take d.bodyLength
    let d := { d with hasPendingHeader := false }
    if !isValidUtf8 body then .done (d.setFailure .invalidUtf8)
    else
      .again { d with
        decodedFrames := d.decodedFrames ++ [⟨d.frameType, body⟩]
        consumedPrefixSize := d.consumedPrefixSize + (kFrameHeaderSize + d.bodyLength) }

/-- One turn of the decoding loop. -/
def decodeStep (d : FrameDecoder) : Turn :=
  if d.hasPendingHeader then d.takeBody
  else if d.inputBuffer.length - d.consumedPrefixSize < kFrameHeaderSize then .done d
  else
    match d.parseAndValidateHeader d.consumedPrefixSize with
    | (false, d) => .done d
    | (true, d) => { d with hasPendingHeader := true }.takeBody

/-- A turn that goes round again has consumed at least a header. -/
theorem takeBody_again {d d' : FrameDecoder} (h : d.takeBody = .again d') :
    d'.inputBuffer = d.inputBuffer ∧
      d'.consumedPrefixSize = d.consumedPrefixSize + (kFrameHeaderSize + d.bodyLength) ∧
      kFrameHeaderSize + d.bodyLength ≤ d.inputBuffer.length - d.consumedPrefixSize := by
  simp only [takeBody] at h
  split at h
  · cases h
  · split at h
    · cases h
    · cases h
      exact ⟨rfl, rfl, by omega⟩

theorem parseAndValidateHeader_frame (d : FrameDecoder) (offset : Nat) :
    (d.parseAndValidateHeader offset).2.inputBuffer = d.inputBuffer ∧
      (d.parseAndValidateHeader offset).2.consumedPrefixSize = d.consumedPrefixSize := by
  simp only [parseAndValidateHeader]
  split
  · exact ⟨rfl, rfl⟩
  · split
    · exact ⟨rfl, rfl⟩
    · split
      · exact ⟨rfl, rfl⟩
      · split
        · exact ⟨rfl, rfl⟩
        · exact ⟨rfl, rfl⟩

theorem decodeStep_again {d d' : FrameDecoder} (h : d.decodeStep = .again d') :
    d'.inputBuffer.length - d'.consumedPrefixSize < d.inputBuffer.length - d.consumedPrefixSize := by
  simp only [decodeStep] at h
  split at h
  · obtain ⟨hb, hc, hle⟩ := takeBody_again h
    simp only [hb, hc, kFrameHeaderSize] at hle ⊢
    omega
  · split at h
    · cases h
    · split at h
      · cases h
      · rename_i d₁ heq
        have hframe := parseAndValidateHeader_frame d d.consumedPrefixSize
        rw [heq] at hframe
        obtain ⟨hbuf, hcons⟩ : d₁.inputBuffer = d.inputBuffer ∧
          d₁.consumedPrefixSize = d.consumedPrefixSize := hframe
        obtain ⟨hb, hc, hle⟩ := takeBody_again h
        simp only [hbuf, hcons, kFrameHeaderSize] at hb hc hle
        rw [hb, hc]
        omega

/-- Decode every frame that is complete in the buffer. -/
def decodeAvailableFrames (d : FrameDecoder) : FrameDecoder :=
  match _h : d.decodeStep with
  | .done d' => d'
  | .again d' => decodeAvailableFrames d'
termination_by d.inputBuffer.length - d.consumedPrefixSize
decreasing_by exact decodeStep_again _h

theorem decodeAvailableFrames_of_done {d d' : FrameDecoder} (h : d.decodeStep = .done d') :
    d.decodeAvailableFrames = d' := by
  rw [decodeAvailableFrames, h]

theorem decodeAvailableFrames_of_again {d d' : FrameDecoder} (h : d.decodeStep = .again d') :
    d.decodeAvailableFrames = d'.decodeAvailableFrames := by
  rw [decodeAvailableFrames, h]

/-- Drop the bytes of the frames that have been taken out. -/
def discardConsumedBytes (d : FrameDecoder) : FrameDecoder :=
  if d.consumedPrefixSize > 0 then
    { d with inputBuffer := d.inputBuffer.drop d.consumedPrefixSize, consumedPrefixSize := 0 }
  else d

/-- Take in bytes as they arrive; a decoder that has failed ignores them. -/
def feedBytes (d : FrameDecoder) (data : Bytes) : FrameDecoder :=
  if d.failed then d
  else { d with inputBuffer := d.inputBuffer ++ data }.decodeAvailableFrames.discardConsumedBytes

/-- Take out a frame: `false` with `out` untouched is `none`. -/
def tryPopFrame (d : FrameDecoder) : Option Frame × FrameDecoder :=
  match d.failed, d.decodedFrames with
  | false, frame :: frames => (some frame, { d with decodedFrames := frames })
  | _, _ => (none, d)

theorem feedBytes_failed {d : FrameDecoder} (h : d.failed = true) (data : Bytes) :
    d.feedBytes data = d := by
  simp only [feedBytes, h, if_true]

theorem tryPopFrame_failed {d : FrameDecoder} (h : d.failed = true) : d.tryPopFrame = (none, d) := by
  simp only [tryPopFrame, h]

theorem tryPopFrame_running {d : FrameDecoder} (h : d.failed = false) :
    d.tryPopFrame = (d.decodedFrames.head?, { d with decodedFrames := d.decodedFrames.tail }) := by
  cases d with
  | mk inputBuffer consumedPrefixSize bodyLength frameType hasPendingHeader failed error frames =>
      cases h
      cases frames with
      | nil => rfl
      | cons f fs => rfl

end FrameDecoder

/-- Encode one frame; nothing if its type is not registered, its body is too
long for the type or not valid UTF-8. -/
def encodeFrame (type : ProtocolType) (body : Bytes) : Option Bytes :=
  match findProtocol type with
  | none => none
  | some descriptor =>
      if body.length > descriptor.maxBody.toNat ∨ !isValidUtf8 body then none
      else
        some ([kFrameMagicHigh, kFrameMagicLow, kProtocolVersion, type.byte,
          UInt8.ofNat ((body.length >>> 24) &&& 0xFF),
          UInt8.ofNat ((body.length >>> 16) &&& 0xFF),
          UInt8.ofNat ((body.length >>> 8) &&& 0xFF),
          UInt8.ofNat (body.length &&& 0xFF)] ++ body)

end ChatHub.Contracts
