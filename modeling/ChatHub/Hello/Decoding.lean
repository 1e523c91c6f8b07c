/-
# `ChatHub.Hello.Decoding` — any text, decoded

The codec modules follow what the other side has written.  Here the text is
whatever arrives.

A text carries an id if it is short enough, its root is an object, and the
`request_id` in it is a UUID (`CarriesId`).  This is all that the out parameter
of either decoder depends on: an id that is carried is stored, whether the rest
of the text is accepted or not, and nothing is stored otherwise (`StoresId`).
So an error in the envelope leaves the previous id, and an error behind it comes
with the id of the text.
-/
import ChatHub.Hello.Libraries

namespace ChatHub.Hello

open Contracts Json Client Server

/-! ## The id in a text -/

section
variable {σ ν : Type} [DecidableEq σ] {L : Leaves σ ν} {parse : Bytes → Option (Json σ ν)}

/-- The envelope of the text is in order, and `id` is the id in it. -/
def CarriesId (L : Leaves σ ν) (parse : Bytes → Option (Json σ ν)) (json : Bytes) (id : RequestId) :
    Prop :=
  json.length ≤ 65536 ∧ ∃ root, parse json = some (.obj root) ∧
    ∃ s, find? (L.key .requestId) root = some (.str s) ∧ UuidId.parse (L.toStd s) = some id

theorem readEnvelope_of_carriesId {json : Bytes} {id : RequestId} (frame : String)
    (h : CarriesId L parse json id) : ∃ root, readEnvelope L frame parse json = .ok (id, root) := by
  obtain ⟨hlen, root, hparse, hid⟩ := h
  exact ⟨root, readEnvelope_eq_ok.mpr ⟨hlen, hparse, readRequestId_eq_ok.mpr hid⟩⟩

theorem carriesId_of_readEnvelope {frame : String} {json : Bytes} {id : RequestId}
    {root : List (σ × Json σ ν)} (h : readEnvelope L frame parse json = .ok (id, root)) :
    CarriesId L parse json id := by
  obtain ⟨hlen, hparse, hid⟩ := readEnvelope_eq_ok.mp h
  exact ⟨hlen, root, hparse, readRequestId_eq_ok.mp hid⟩

end

/-! ## The out parameter -/

/-- What a decoder does with its out parameter, on a text that carries the ids
`carries`: at most one, and this one is stored. -/
structure StoresId {α : Type} (carries : RequestId → Prop)
    (decode : RequestId → Outcome α × RequestId) : Prop where
  stored : ∀ id, carries id → ∀ out, (decode out).2 = id
  kept : (∀ id, ¬ carries id) → ∀ out, (∃ e, (decode out).1 = .error e) ∧ (decode out).2 = out
  accepted : ∀ out a, (decode out).1 = .ok a → carries (decode out).2

theorem decodeInto_storesId {σ ν α : Type} [DecidableEq σ] (L : Leaves σ ν)
    (parse : Bytes → Option (Json σ ν)) (frame : String) (json : Bytes)
    (rest : List (σ × Json σ ν) → Outcome α) :
    StoresId (CarriesId L parse json) (decodeInto (readEnvelope L frame parse json) rest) where
  stored := by
    intro id hid out
    obtain ⟨root, hroot⟩ := readEnvelope_of_carriesId frame hid
    rw [hroot]
    rfl
  kept := by
    intro hnone out
    cases henv : readEnvelope L frame parse json with
    | error e => exact ⟨⟨e, rfl⟩, rfl⟩
    | ok p => exact absurd (carriesId_of_readEnvelope henv) (hnone p.1)
  accepted := by
    intro out a ha
    cases henv : readEnvelope L frame parse json with
    | error e =>
        rw [henv] at ha
        cases ha
    | ok p => exact carriesId_of_readEnvelope henv

section
variable {QString : Type} [DecidableEq QString]

/-- **What a failed decode leaves behind.**  In both decoders, on every text: if
the text carries an id, the out parameter holds it afterwards, whatever the
result; if it carries none, the result is an error and the out parameter is
unchanged. -/
theorem decode_storesId (boost : Boost) (qt : Qt QString) (json : Bytes) :
    StoresId (CarriesId boostLeaves boost.parse json) (decodeHelloRequest boost json) ∧
    StoresId (CarriesId qt.leaves qt.fromJson json) (decodeHelloResponse qt json) :=
  ⟨decodeInto_storesId boostLeaves boost.parse _ json _,
    decodeInto_storesId qt.leaves qt.fromJson _ json _⟩

end

/-- A text with an id and no data is refused by both decoders, and both replace
the empty id by it. -/
theorem decode_stores_refused_id :
    let json := ascii "\x7b\"request_id\":\"6ba7b810-9dad-41d1-80b4-00c04fd430c8\",\"ok\":true\x7d"
    decodeHelloRequest compactBoost json {} =
        (.error (invalidRequest "data 缺失或非对象"), sampleId) ∧
      decodeHelloResponse compactQt json {} =
        (.error (invalidRequest "data 缺失或非对象"), sampleId) ∧
      sampleId ≠ {} := by
  decide +kernel

end ChatHub.Hello
