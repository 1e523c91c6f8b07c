/-
# `ChatHub.Server.HelloCodec` — the hello codec of the server

`chat-server/src/hello_codec.cpp`.  Boost.JSON is not part of the repository:
`parse` and `serialize` are parameters (`Boost`), from a byte string to a tree
and back.  Its strings are byte strings, and an integer keeps the kind it was
written with.

`decodeHelloRequest` makes the checks of `ChatHub.Hello.Fields` in the order of
the source.  Its out parameter is a second result.  `encodeHelloResponse`
checks nothing; the members of its objects are assigned under distinct keys, so
they are the lists below.
-/
import ChatHub.Lib.Double
import ChatHub.Hello.Fields

namespace ChatHub.Server

open Contracts Hello Json

/-! ## Boost.JSON -/

/-- A number of a Boost.JSON value, by kind. -/
inductive BoostNumber where
  | int64 (n : Int64)
  | uint64 (n : UInt64)
  | double (x : Rat)
  deriving DecidableEq

/-- The number as a double, the nearest one for an integer. -/
def BoostNumber.toDouble : BoostNumber → Rat
  | .int64 n => Double.ofInt n.toInt
  | .uint64 n => Double.ofInt n.toNat
  | .double x => x

/-- `boost::json::parse`, with nothing for an error, and `boost::json::serialize`. -/
structure Boost where
  parse : Bytes → Option (Json Bytes BoostNumber)
  serialize : Json Bytes BoostNumber → Bytes

/-- Boost.JSON strings are `std::string`s. -/
def boostLeaves : Leaves Bytes BoostNumber where
  ofStd := id
  toStd := id
  toDouble := BoostNumber.toDouble

/-! ## Decoding -/

/-- The data of a hello request, field by field. -/
def readRequest {σ ν : Type} [DecidableEq σ] (L : Leaves σ ν) (root : List (σ × Json σ ν)) :
    Outcome HelloRequest := do
  let data ← readData L root
  let clientVersion ← readString L .clientVersion kMaxClientVersionBytes data
  let platform ← readString L .platform kMaxPlatformBytes data
  let capabilities ← readCapabilities L data
  return { clientVersion, platform, capabilities }

def decodeHelloRequest (boost : Boost) (json : Bytes) (outRequestId : RequestId) :
    Outcome HelloRequest × RequestId :=
  decodeInto (readEnvelope boostLeaves "hello_request" boost.parse json) (readRequest boostLeaves)
    outRequestId

/-! ## Encoding -/

/-- The data object of a hello response. -/
def responseData (response : HelloResponse) : List (Bytes × Json Bytes BoostNumber) :=
  [(boostLeaves.key .serverVersion, .str response.serverVersion),
    (boostLeaves.key .serverTime, .num (.int64 response.serverTime)),
    (boostLeaves.key .maxJson, .num (.uint64 response.maxJson.toUInt64)),
    (boostLeaves.key .maxText, .num (.uint64 response.maxText.toUInt64)),
    (boostLeaves.key .heartbeatIdle, .num (.uint64 response.heartbeatIdle.toUInt64)),
    (boostLeaves.key .timeout, .num (.uint64 response.timeout.toUInt64)),
    (boostLeaves.key .capabilities, .arr (response.capabilities.value.map .str))]

/-- The root object of a hello response. -/
def responseRoot (requestId : RequestId) (response : HelloResponse) :
    List (Bytes × Json Bytes BoostNumber) :=
  [(boostLeaves.key .requestId, .str requestId.value),
    (boostLeaves.key .ok, .bool true),
    (boostLeaves.key .data, .obj (responseData response))]

def encodeHelloResponse (boost : Boost) (requestId : RequestId) (response : HelloResponse) : Bytes :=
  boost.serialize (.obj (responseRoot requestId response))

/-! ## What the decoder accepts -/

section
variable {σ ν : Type} [DecidableEq σ] {L : Leaves σ ν}

theorem readRequest_eq_ok {root : List (σ × Json σ ν)} {request : HelloRequest} :
    readRequest L root = .ok request ↔
      ∃ data, find? (L.key .data) root = some (.obj data) ∧
        readString L .clientVersion kMaxClientVersionBytes data = .ok request.clientVersion ∧
        readString L .platform kMaxPlatformBytes data = .ok request.platform ∧
        readCapabilities L data = .ok request.capabilities := by
  simp only [readRequest, bind_eq_ok, readData_eq_ok]
  constructor
  · rintro ⟨data, hdata, version, hversion, platform, hplatform, capabilities, hcaps, heq⟩
    cases heq
    exact ⟨data, hdata, hversion, hplatform, hcaps⟩
  · rintro ⟨data, hdata, hversion, hplatform, hcaps⟩
    exact ⟨data, hdata, _, hversion, _, hplatform, _, hcaps, rfl⟩

/-- The answer depends on the tree only up to its leaves. -/
theorem readRequest_congr {σ' ν' : Type} [DecidableEq σ'] {L' : Leaves σ' ν'} (hL : L.Lawful)
    (hL' : L'.Lawful) {root : List (σ × Json σ ν)} {root' : List (σ' × Json σ' ν')}
    (h : Agree L L' (.obj root) (.obj root')) : readRequest L root = readRequest L' root' := by
  rw [readRequest, readRequest]
  rcases readData_congr h with ⟨data, data', hdata, hdata', hsame⟩ | ⟨e, he, he'⟩
  · rw [hdata, hdata']
    show (readString L .clientVersion _ data >>= _) = (readString L' .clientVersion _ data' >>= _)
    rw [readString_congr hL hL' hsame, readString_congr hL hL' hsame,
      readCapabilities_congr hL hL' hsame]
  · rw [he, he']
    rfl

end

end ChatHub.Server
