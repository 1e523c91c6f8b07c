/-
# `ChatHub.Hello.RequestGrammar` — which texts are hello requests

The grammar of a hello request, and `decodeHelloRequest` as its decision
procedure: the table of `ChatHub.Hello.Grammar` with the fields of a request
behind the id (`decodeHelloRequest_verdict`).

The id is a UUID in the text itself.  Parsing one never rewrites it, so the
answer to a request carries the very string of the request
(`uuid_parsed_verbatim`).
-/
import ChatHub.Hello.Grammar
import ChatHub.Hello.Negotiation

namespace ChatHub.Hello

open Contracts Json Server

/-! ## Ids go through unchanged -/

/-- An id a text carries is the string in it. -/
theorem hasRequestId_of_carriesId {boost : Boost} {text : Bytes} {id : RequestId}
    (h : CarriesId boostLeaves boost.parse text id) : HasRequestId boost text id.value := by
  obtain ⟨-, root, hparse, s, hs, hid⟩ := h
  have hvalue : id.value = s := (UuidId.parse_eq_some.mp hid).2
  exact ⟨root, hparse, hvalue ▸ hs⟩

/-- **A UUID is parsed as it stands.**  Exactly the grouped strings are
accepted, each as itself; an id the decoder takes from a request is the string
under `request_id` in its text, and without one the decoder fails; and every
answer holds the string of its id. -/
theorem uuid_parsed_verbatim {Tag : Type} :
    (∀ s : Bytes, (UuidId.parse s : Option (UuidId Tag)).isSome = true ↔ Grouped s) ∧
    (∀ (s : Bytes) (id : UuidId Tag), UuidId.parse s = some id →
      id.value = s ∧ toLowerAscii s = s ∧ UuidId.parse id.value = some id) ∧
    (∀ (s t : Bytes) (id : UuidId Tag), UuidId.parse s = some id → UuidId.parse t = some id → s = t) ∧
    (∀ (boost : Boost) (text : Bytes) (out : RequestId),
      HasRequestId boost text (decodeHelloRequest boost text out).2.value ∨
        ((decodeHelloRequest boost text out).2 = out ∧
          ∃ e, (decodeHelloRequest boost text out).1 = .error e)) ∧
    (∀ (boost : Boost) (id : RequestId) (response : HelloResponse),
      ∃ root, encodeHelloResponse boost id response = boost.serialize (.obj root) ∧
        find? (boostLeaves.key .requestId) root = some (.str id.value)) := by
  refine ⟨?_, ?_, ?_, ?_, ?_⟩
  · intro s
    rw [Option.isSome_iff_exists, ← isUuid_iff]
    constructor
    · rintro ⟨id, hid⟩
      exact (UuidId.parse_eq_some.mp hid).1
    · intro hs
      exact ⟨⟨s, .inr hs⟩, UuidId.parse_eq_some.mpr ⟨hs, rfl⟩⟩
  · intro s id hid
    obtain ⟨hs, rfl⟩ := UuidId.parse_eq_some.mp hid
    exact ⟨rfl, toLowerAscii_of_isUuid hs, hid⟩
  · intro s t id hs ht
    rw [← (UuidId.parse_eq_some.mp hs).2, (UuidId.parse_eq_some.mp ht).2]
  · intro boost text out
    have hstores : StoresId (CarriesId boostLeaves boost.parse text) (decodeHelloRequest boost text) :=
      decodeInto_storesId boostLeaves boost.parse _ text _
    by_cases hcarries : ∃ id, CarriesId boostLeaves boost.parse text id
    · obtain ⟨id, hid⟩ := hcarries
      rw [hstores.stored id hid out]
      exact .inl (hasRequestId_of_carriesId hid)
    · obtain ⟨herror, hkept⟩ := hstores.kept (not_exists.mp hcarries) out
      exact .inr ⟨hkept, herror⟩
  · intro boost id response
    exact ⟨responseRoot id response, rfl, if_pos rfl⟩

/-! ## The grammar of a request -/

/-- The known fields of the root and of its data. -/
def requestTop : List Field := [.requestId]

def requestFields : List Field := [.clientVersion, .platform, .capabilities]

/-- The data of a hello request, and the values in it. -/
def RequestData (root : List (Bytes × Json Bytes BoostNumber)) (request : HelloRequest) : Prop :=
  ∃ data, find? (boostLeaves.key .data) root = some (.obj data) ∧
    StringField boostLeaves .clientVersion 32 data request.clientVersion ∧
    StringField boostLeaves .platform 16 data request.platform ∧
    CapabilitiesField boostLeaves data request.capabilities

theorem readRequest_iff {root : List (Bytes × Json Bytes BoostNumber)} {request : HelloRequest} :
    readRequest boostLeaves root = .ok request ↔ RequestData root request := by
  rw [readRequest_eq_ok, RequestData]
  simp only [readString_iff, readCapabilities_iff]
  exact Iff.rfl

theorem readRequest_failsWith (root : List (Bytes × Json Bytes BoostNumber)) :
    FailsWith kInvalidRequest (readRequest boostLeaves root) := by
  refine (readData_failsWith _ root).bind fun data => ?_
  refine (readString_failsWith _ _ _ data).bind fun version => ?_
  refine (readString_failsWith _ _ _ data).bind fun platform => ?_
  exact (readCapabilities_failsWith _ data).bind fun capabilities => failsWith_ok _

/-- There is a request in the data exactly when every field obeys its grammar. -/
theorem exists_requestData_iff {root : List (Bytes × Json Bytes BoostNumber)} :
    (∃ request, RequestData root request) ↔
      ∃ data, find? (boostLeaves.key .data) root = some (.obj data) ∧
        (∃ s, find? (boostLeaves.key .clientVersion) data = some (.str s) ∧
          1 ≤ s.length ∧ s.length ≤ 32) ∧
        (∃ s, find? (boostLeaves.key .platform) data = some (.str s) ∧
          1 ≤ s.length ∧ s.length ≤ 16) ∧
        ∃ items, find? (boostLeaves.key .capabilities) data = some (.arr items) ∧
          items.length ≤ 16 ∧ ∀ item ∈ items, ∃ s, item = .str s ∧ 1 ≤ s.length ∧ s.length ≤ 64 := by
  constructor
  · rintro ⟨request, data, hdata, ⟨v, hv, rfl, hvlen⟩, ⟨p, hp, rfl, hplen⟩, items, hitems, hcount,
      hall, -⟩
    exact ⟨data, hdata, ⟨_, hv, hvlen⟩, ⟨_, hp, hplen⟩, items, hitems, hcount, hall⟩
  · rintro ⟨data, hdata, ⟨v, hv, hvlen⟩, ⟨p, hp, hplen⟩, items, hitems, hcount, hall⟩
    obtain ⟨set, hset⟩ := exists_capabilitiesField hitems hcount hall
    exact ⟨⟨v, p, set⟩, data, hdata, ⟨v, hv, rfl, hvlen⟩, ⟨p, hp, rfl, hplen⟩, hset⟩

theorem readRequest_of_sameKnown {root root' : List (Bytes × Json Bytes BoostNumber)}
    (h : SameKnown boostLeaves requestTop requestFields root root') :
    readRequest boostLeaves root = readRequest boostLeaves root' := by
  refine readData_bind_of_sameKnown h fun data data' hsame => ?_
  rw [readString_of_find? _ (hsame .clientVersion (by decide)),
    readString_of_find? _ (hsame .platform (by decide)),
    readCapabilities_of_find? (hsame .capabilities (by decide))]

/-- **The server's decoder decides the grammar.**  Every text gets the answer
of the first row of the table that applies to it, and members outside the
grammar have no influence on it. -/
theorem decodeHelloRequest_verdict (boost : Boost) (json : Bytes) (out : RequestId) :
    Verdict boostLeaves boost.parse json RequestData (decodeHelloRequest boost json out).1 ∧
    (∀ request, (decodeHelloRequest boost json out).1 = .ok request ↔
      json.length ≤ 65536 ∧ ∃ root, boost.parse json = some (.obj root) ∧
        HasUuid boostLeaves root ∧ RequestData root request) ∧
    (Fails kInvalidJson (decodeHelloRequest boost json out).1 ↔
      json.length ≤ 65536 ∧ boost.parse json = none) ∧
    (Fails kInvalidRequestId (decodeHelloRequest boost json out).1 ↔
      json.length ≤ 65536 ∧ ∃ root, boost.parse json = some (.obj root) ∧
        ¬ HasUuid boostLeaves root) ∧
    (∀ root, (∃ request, RequestData root request) ↔
      ∃ data, find? (boostLeaves.key .data) root = some (.obj data) ∧
        (∃ s, find? (boostLeaves.key .clientVersion) data = some (.str s) ∧
          1 ≤ s.length ∧ s.length ≤ 32) ∧
        (∃ s, find? (boostLeaves.key .platform) data = some (.str s) ∧
          1 ≤ s.length ∧ s.length ≤ 16) ∧
        ∃ items, find? (boostLeaves.key .capabilities) data = some (.arr items) ∧
          items.length ≤ 16 ∧ ∀ item ∈ items, ∃ s, item = .str s ∧ 1 ≤ s.length ∧ s.length ≤ 64) ∧
    ∀ (json' : Bytes) (root root' : List (Bytes × Json Bytes BoostNumber)),
      json.length ≤ 65536 → json'.length ≤ 65536 → boost.parse json = some (.obj root) →
      boost.parse json' = some (.obj root') →
      SameKnown boostLeaves requestTop requestFields root root' →
      decodeHelloRequest boost json' out = decodeHelloRequest boost json out := by
  have hverdict : Verdict boostLeaves boost.parse json RequestData
      (decodeHelloRequest boost json out).1 :=
    decodeInto_verdict (fun _ _ => readRequest_iff) readRequest_failsWith _ out
  refine ⟨hverdict, fun request => hverdict.eq_ok_iff, hverdict.invalidJson_iff,
    hverdict.invalidRequestId_iff, fun root => exists_requestData_iff, ?_⟩
  intro json' root root' hlen hlen' hparse hparse' hsame
  exact decodeInto_of_sameFields hlen hlen' hparse hparse' (hsame.top .requestId (by decide))
    (readRequest_of_sameKnown hsame)

end ChatHub.Hello
