/-
# `ChatHub.Frame.Reference` — what a byte stream means, frame by frame

The reference parser walks a complete byte string and keeps no state.  At each
frame boundary it looks at the header alone (`refHeader`): too short to say,
wrong in one of the four ways the protocol names, or the type and body length
it announces.  `refNext` then waits for the body and checks it.

    fewer than 8 bytes            more
    bytes 0, 1 are not 'C' 'H'    badMagic
    byte 2 is not 1               badVersion
    byte 3 is not registered      unknownType
    length above the type's limit bodyTooLarge
    body not complete             more
    body not valid UTF-8          invalidUtf8
    otherwise                     the frame, and 8 + length bytes taken up

Everything is stated without the decoder: the length is a number in base 256,
validity of the body is `Utf8.WellFormed`.  With `encodeFrame` as the encoder
this is a `Codec` (`frameCodec`), so the stream library applies to it.
-/
import Mathlib.Algebra.Group.Nat.Defs
import ChatHub.Lib.Machine
import ChatHub.Frame.Scan

namespace ChatHub.Contracts

open Streaming Utf8

/-- A 32-bit number from its four bytes, the most significant first. -/
def bigEndian (b₃ b₂ b₁ b₀ : UInt8) : Nat :=
  ((b₃.toNat * 256 + b₂.toNat) * 256 + b₁.toNat) * 256 + b₀.toNat

/-- What the start of a stream says about the next header. -/
inductive Header where
  | short
  | bad (e : FrameErrorKind)
  | ok (type : ProtocolType) (length : Nat)
  deriving DecidableEq, Repr

/-- The header at the start of `b`, checked in the order of the protocol. -/
def refHeader (b : Bytes) : Header :=
  match b with
  | m₁ :: m₀ :: version :: type :: l₃ :: l₂ :: l₁ :: l₀ :: _ =>
      if m₁ ≠ 0x43 ∨ m₀ ≠ 0x48 then .bad .badMagic
      else if version ≠ 1 then .bad .badVersion
      else
        match findProtocol ⟨type⟩ with
        | none => .bad .unknownType
        | some descriptor =>
            if bigEndian l₃ l₂ l₁ l₀ > descriptor.maxBody.toNat then .bad .bodyTooLarge
            else .ok ⟨type⟩ (bigEndian l₃ l₂ l₁ l₀)
  | _ => .short

/-- The next frame at the start of `b`. -/
def refNext (b : Bytes) : Verdict Frame FrameErrorKind :=
  match refHeader b with
  | .short => .more
  | .bad e => .bad e
  | .ok type length =>
      if b.length < 8 + length then .more
      else if WellFormed ((b.drop 8).take length) then
        .item ⟨type, (b.drop 8).take length⟩ (8 + length)
      else .bad .invalidUtf8

/-! ## Headers -/

theorem exists_header_bytes {b : Bytes} (h : 8 ≤ b.length) :
    ∃ m₁ m₀ v t l₃ l₂ l₁ l₀ r, b = m₁ :: m₀ :: v :: t :: l₃ :: l₂ :: l₁ :: l₀ :: r := by
  rcases b with _ | ⟨m₁, _ | ⟨m₀, _ | ⟨v, _ | ⟨t, _ | ⟨l₃, _ | ⟨l₂, _ | ⟨l₁, _ | ⟨l₀, r⟩⟩⟩⟩⟩⟩⟩⟩
  case cons.cons.cons.cons.cons.cons.cons.cons => exact ⟨_, _, _, _, _, _, _, _, _, rfl⟩
  all_goals
    simp only [List.length_cons, List.length_nil] at h
    omega

theorem refHeader_eq_short {b : Bytes} : refHeader b = .short ↔ b.length < 8 := by
  constructor
  · intro h
    by_contra hlen
    obtain ⟨m₁, m₀, v, t, l₃, l₂, l₁, l₀, r, rfl⟩ := exists_header_bytes (Nat.le_of_not_lt hlen)
    simp only [refHeader] at h
    split at h
    · cases h
    · split at h
      · cases h
      · split at h
        · cases h
        · split at h <;> cases h
  · intro h
    match b, h with
    | [], _ | [_], _ | [_, _], _ | [_, _, _], _ | [_, _, _, _], _ | [_, _, _, _, _], _
    | [_, _, _, _, _, _], _ | [_, _, _, _, _, _, _], _ => rfl
    | _ :: _ :: _ :: _ :: _ :: _ :: _ :: _ :: r, h =>
        simp only [List.length_cons] at h
        omega

/-- A header that is there does not depend on what follows it. -/
theorem refHeader_append {b : Bytes} (h : refHeader b ≠ .short) (ys : Bytes) :
    refHeader (b ++ ys) = refHeader b := by
  have hlen : ¬ b.length < 8 := fun hl => h (refHeader_eq_short.mpr hl)
  obtain ⟨m₁, m₀, v, t, l₃, l₂, l₁, l₀, r, rfl⟩ := exists_header_bytes (Nat.le_of_not_lt hlen)
  rfl

/-- A good header announces a registered type and a length within its limit. -/
theorem refHeader_ok {b : Bytes} {type : ProtocolType} {length : Nat}
    (h : refHeader b = .ok type length) :
    ∃ l₃ l₂ l₁ l₀ r descriptor, b = 0x43 :: 0x48 :: 1 :: type.byte :: l₃ :: l₂ :: l₁ :: l₀ :: r ∧
      bigEndian l₃ l₂ l₁ l₀ = length ∧ findProtocol type = some descriptor ∧
      length ≤ descriptor.maxBody.toNat := by
  have hlen : ¬ b.length < 8 := by
    intro hl
    rw [refHeader_eq_short.mpr hl] at h
    cases h
  obtain ⟨m₁, m₀, v, t, l₃, l₂, l₁, l₀, r, rfl⟩ := exists_header_bytes (Nat.le_of_not_lt hlen)
  simp only [refHeader] at h
  split at h
  · cases h
  · rename_i hm
    simp only [ne_eq, not_or, not_not] at hm
    obtain ⟨rfl, rfl⟩ := hm
    split at h
    · cases h
    · rename_i hv
      simp only [ne_eq, not_not] at hv
      subst hv
      split at h
      · cases h
      · rename_i descriptor hd
        split at h
        · cases h
        · rename_i hle
          cases h
          exact ⟨l₃, l₂, l₁, l₀, r, descriptor, rfl, rfl, hd, by omega⟩

/-! ## Frames: the laws of an item parser -/

/-- The verdict on a stream that starts with a good header. -/
theorem refNext_ok {b : Bytes} {type : ProtocolType} {length : Nat}
    (h : refHeader b = .ok type length) :
    refNext b =
      if b.length < 8 + length then .more
      else if WellFormed ((b.drop 8).take length) then
        .item ⟨type, (b.drop 8).take length⟩ (8 + length)
      else .bad .invalidUtf8 := by
  simp only [refNext, h]

/-- What a frame found at the start of a stream says about it. -/
theorem refNext_item {b : Bytes} {f : Frame} {n : Nat} (h : refNext b = .item f n) :
    refHeader b = .ok f.type f.body.length ∧ n = 8 + f.body.length ∧ n ≤ b.length ∧
      f.body = (b.drop 8).take f.body.length ∧ WellFormed f.body := by
  cases hh : refHeader b with
  | short => simp [refNext, hh] at h
  | bad e => simp [refNext, hh] at h
  | ok type length =>
      rw [refNext_ok hh] at h
      split at h
      · cases h
      · rename_i hlen
        split at h
        · rename_i hwf
          cases h
          have hbody : ((b.drop 8).take length).length = length := by
            simp only [List.length_take, List.length_drop]
            omega
          simp only [hbody]
          exact ⟨trivial, trivial, by omega, trivial, hwf⟩
        · cases h

theorem refNext_append {b : Bytes} (h : refNext b ≠ .more) (ys : Bytes) :
    refNext (b ++ ys) = refNext b := by
  cases hh : refHeader b with
  | short => simp [refNext, hh] at h
  | bad e =>
      have hh' : refHeader (b ++ ys) = .bad e := by
        rw [refHeader_append (by simp [hh]), hh]
      simp only [refNext, hh, hh']
  | ok type length =>
      have hh' : refHeader (b ++ ys) = .ok type length := by
        rw [refHeader_append (by simp [hh]), hh]
      have hlen : ¬ b.length < 8 + length := by
        intro hlt
        exact h (by rw [refNext_ok hh, if_pos hlt])
      have hbody : ((b ++ ys).drop 8).take length = (b.drop 8).take length := by
        rw [List.drop_append_of_le_length (by omega),
          List.take_append_of_le_length (by simp only [List.length_drop]; omega)]
      rw [refNext_ok hh, refNext_ok hh', hbody, if_neg hlen,
        if_neg (by simp only [List.length_append]; omega)]

/-! ## Frames: the encoder -/

/-- The four length bytes of the encoder are the length in base 256. -/
theorem bigEndian_encode {n : Nat} (h : n < 2 ^ 32) :
    bigEndian (UInt8.ofNat ((n >>> 24) &&& 0xFF)) (UInt8.ofNat ((n >>> 16) &&& 0xFF))
      (UInt8.ofNat ((n >>> 8) &&& 0xFF)) (UInt8.ofNat (n &&& 0xFF)) = n := by
  have hmask : ∀ k : Nat, k &&& 0xFF = k % 256 := fun k => Nat.and_two_pow_sub_one_eq_mod k 8
  simp only [bigEndian, hmask, Nat.shiftRight_eq_div_pow, UInt8.toNat_ofNat']
  omega

/-- A number below `2 ^ 32` is written with one choice of bytes only. -/
theorem encode_bigEndian (b₃ b₂ b₁ b₀ : UInt8) :
    [UInt8.ofNat ((bigEndian b₃ b₂ b₁ b₀ >>> 24) &&& 0xFF),
      UInt8.ofNat ((bigEndian b₃ b₂ b₁ b₀ >>> 16) &&& 0xFF),
      UInt8.ofNat ((bigEndian b₃ b₂ b₁ b₀ >>> 8) &&& 0xFF),
      UInt8.ofNat (bigEndian b₃ b₂ b₁ b₀ &&& 0xFF)] = [b₃, b₂, b₁, b₀] := by
  have hmask : ∀ k : Nat, k &&& 0xFF = k % 256 := fun k => Nat.and_two_pow_sub_one_eq_mod k 8
  have h₃ := b₃.toNat_lt
  have h₂ := b₂.toNat_lt
  have h₁ := b₁.toNat_lt
  have h₀ := b₀.toNat_lt
  simp only [bigEndian, hmask, Nat.shiftRight_eq_div_pow, List.cons.injEq, ← UInt8.toNat_inj,
    UInt8.toNat_ofNat', and_true]
  refine ⟨?_, ?_, ?_, ?_⟩ <;> omega

/-- The header the encoder writes in front of a body of `n` bytes. -/
def headerBytes (type : ProtocolType) (n : Nat) : Bytes :=
  [0x43, 0x48, 1, type.byte, UInt8.ofNat ((n >>> 24) &&& 0xFF), UInt8.ofNat ((n >>> 16) &&& 0xFF),
    UInt8.ofNat ((n >>> 8) &&& 0xFF), UInt8.ofNat (n &&& 0xFF)]

@[simp] theorem length_headerBytes (type : ProtocolType) (n : Nat) :
    (headerBytes type n).length = 8 := rfl

/-- What the encoder accepts, and what it writes then. -/
theorem encodeFrame_eq_some {type : ProtocolType} {body w : Bytes} :
    encodeFrame type body = some w ↔
      (∃ descriptor, findProtocol type = some descriptor ∧
        body.length ≤ descriptor.maxBody.toNat) ∧
      WellFormed body ∧ w = headerBytes type body.length ++ body := by
  simp only [encodeFrame]
  cases hd : findProtocol type with
  | none => simp
  | some descriptor =>
      simp only [gt_iff_lt, Bool.not_eq_eq_eq_not, Bool.not_true, Option.some.injEq,
        exists_eq_left']
      split
      · rename_i hno
        simp only [reduceCtorEq, false_iff]
        rintro ⟨hle, hwf, -⟩
        rcases hno with hlt | hbad
        · omega
        · rw [isValidUtf8_eq_true.mpr hwf] at hbad
          cases hbad
      · rename_i hyes
        simp only [not_or, Nat.not_lt, Bool.not_eq_false] at hyes
        simp only [Option.some.injEq, hyes.1, true_and, isValidUtf8_eq_true.mp hyes.2]
        exact eq_comm

/-- Such a header reads back unless the type or the length is not allowed. -/
theorem refHeader_headerBytes (type : ProtocolType) {n : Nat} (hn : n < 2 ^ 32) (ys : Bytes) :
    refHeader (headerBytes type n ++ ys) =
      match findProtocol type with
      | none => .bad .unknownType
      | some descriptor =>
          if n > descriptor.maxBody.toNat then .bad .bodyTooLarge else .ok type n := by
  have hbe := bigEndian_encode hn
  simp only [headerBytes, List.cons_append, refHeader, ne_eq, not_true_eq_false, or_self, if_false,
    hbe]

theorem refNext_encode {f : Frame} {w : Bytes} (h : encodeFrame f.type f.body = some w)
    (ys : Bytes) : refNext (w ++ ys) = .item f w.length := by
  obtain ⟨⟨descriptor, hd, hle⟩, hwf, rfl⟩ := encodeFrame_eq_some.mp h
  have hmax := maxBody_le_of_findProtocol hd
  have hh := refHeader_headerBytes f.type (show f.body.length < 2 ^ 32 by omega) (f.body ++ ys)
  simp only [hd, gt_iff_lt, if_neg (Nat.not_lt.mpr hle)] at hh
  rw [List.append_assoc, refNext_ok hh, if_neg (by simp), List.drop_append_of_le_length (by simp)]
  have hdrop : (headerBytes f.type f.body.length).drop 8 = [] := rfl
  simp only [hdrop, List.nil_append, List.take_left, if_pos hwf, List.length_append,
    length_headerBytes]

/-- The raw form of a frame the encoder refuses is a broken frame. -/
theorem refNext_refused {type : ProtocolType} {body : Bytes} (hlen : body.length < 2 ^ 32)
    (h : encodeFrame type body = none) :
    ∃ e, refNext (headerBytes type body.length ++ body) = .bad e := by
  have hh := refHeader_headerBytes type hlen body
  cases hd : findProtocol type with
  | none =>
      simp only [hd] at hh
      exact ⟨.unknownType, by simp only [refNext, hh]⟩
  | some descriptor =>
      simp only [hd] at hh
      by_cases hle : body.length ≤ descriptor.maxBody.toNat
      · rw [if_neg (Nat.not_lt.mpr hle)] at hh
        have hwf : ¬ WellFormed body := by
          intro hwf
          rw [encodeFrame_eq_some.mpr ⟨⟨descriptor, hd, hle⟩, hwf, rfl⟩] at h
          cases h
        have hbody : ((headerBytes type body.length ++ body).drop 8).take body.length = body :=
          List.take_length
        exact ⟨.invalidUtf8, by rw [refNext_ok hh, hbody, if_neg (by simp), if_neg hwf]⟩
      · rw [if_pos (Nat.lt_of_not_le hle)] at hh
        exact ⟨.bodyTooLarge, by simp only [refNext, hh]⟩

theorem encode_refNext {b : Bytes} {f : Frame} {n : Nat} (h : refNext b = .item f n) :
    encodeFrame f.type f.body = some (b.take n) := by
  obtain ⟨hh, rfl, hle, hbody, hwf⟩ := refNext_item h
  obtain ⟨l₃, l₂, l₁, l₀, r, descriptor, rfl, hlen, hd, hmax⟩ := refHeader_ok hh
  refine encodeFrame_eq_some.mpr ⟨⟨descriptor, hd, hmax⟩, hwf, ?_⟩
  have hcanon := encode_bigEndian l₃ l₂ l₁ l₀
  rw [hlen] at hcanon
  simp only [List.cons.injEq, and_true] at hcanon
  obtain ⟨h₃, h₂, h₁, h₀⟩ := hcanon
  have hbody' : f.body = r.take f.body.length := hbody
  simp only [headerBytes, h₃, h₂, h₁, h₀]
  rw [Nat.add_comm]
  simp only [List.take_succ_cons, List.cons_append, List.nil_append]
  rw [← hbody']

/-- The wire format as a codec. -/
def frameCodec : Codec UInt8 Frame FrameErrorKind where
  next := refNext
  nil := rfl
  pos := fun h => by
    obtain ⟨-, rfl, -⟩ := refNext_item h
    omega
  le := fun h => (refNext_item h).2.2.1
  stable := fun h ys => refNext_append h ys
  encode := fun f => encodeFrame f.type f.body
  next_encode := fun h ys => refNext_encode h ys
  encode_next := fun h => encode_refNext h

/-- The reference parser: the frames of a complete byte string, and how it
ends. -/
def ref (b : Bytes) : List Frame × Ending UInt8 FrameErrorKind :=
  frameCodec.parse b

end ChatHub.Contracts
