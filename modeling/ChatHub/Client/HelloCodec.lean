/-
# `ChatHub.Client.HelloCodec` — the hello codec of the client

`client-qt/src/hello_codec.cpp`.  Qt is not part of the repository: the type of
its strings, their conversion from and to `std::string`, and the compact text
of a JSON document with its parser are parameters (`Qt`).  A JSON number is a
`double`, represented by its exact value.

`decodeHelloResponse` makes the checks of `ChatHub.Hello.Fields` and those for
its numbers, in the order of the source.  `encodeHelloRequest` has an `Outcome`
and never returns an error.
-/
import ChatHub.Hello.Fields

namespace ChatHub.Client

open Contracts Hello Json

/-! ## Qt -/

/-- `QString`, `QJsonDocument::toJson(Compact)` and `QJsonDocument::fromJson`,
with nothing for an error or a null document. -/
structure Qt (QString : Type) where
  fromStdString : Bytes → QString
  toStdString : QString → Bytes
  toJson : Json QString Rat → Bytes
  fromJson : Bytes → Option (Json QString Rat)

variable {QString : Type}

def Qt.leaves (qt : Qt QString) : Leaves QString Rat where
  ofStd := qt.fromStdString
  toStd := qt.toStdString
  toDouble := id

/-! ## Encoding -/

section
variable {σ ν : Type} (L : Leaves σ ν)

/-- The data object of a hello request. -/
def requestData (request : HelloRequest) : List (σ × Json σ ν) :=
  [(L.key .clientVersion, .str (L.ofStd request.clientVersion)),
    (L.key .platform, .str (L.ofStd request.platform)),
    (L.key .capabilities, .arr (request.capabilities.value.map fun c => .str (L.ofStd c)))]

/-- The root object of a hello request. -/
def requestRoot (requestId : RequestId) (request : HelloRequest) : List (σ × Json σ ν) :=
  [(L.key .requestId, .str (L.ofStd requestId.value)),
    (L.key .data, .obj (requestData L request))]

end

def encodeHelloRequest (qt : Qt QString) (requestId : RequestId) (request : HelloRequest) :
    Outcome Bytes :=
  .ok (qt.toJson (.obj (requestRoot qt.leaves requestId request)))

/-! ## Decoding -/

/-- 2 ^ 53 - 1. -/
def kMaxSafeInteger : Rat := 9007199254740991

section
variable {σ ν : Type} [DecidableEq σ] (L : Leaves σ ν)

/-- A double that is a whole number from 0 up to `limit`. -/
def wholeUpTo (limit : Rat) (x : Rat) : Bool := !(x < 0 || x > limit || (x.floor : Rat) != x)

def readOk (root : List (σ × Json σ ν)) : Outcome Unit :=
  match find? (L.key .ok) root with
  | some (.bool true) => .ok ()
  | _ => .error (invalidRequest "hello_response ok 非 true")

def readTime (data : List (σ × Json σ ν)) : Outcome Int64 :=
  match find? (L.key .serverTime) data with
  | some (.num n) =>
      if wholeUpTo kMaxSafeInteger (L.toDouble n) then .ok (Int64.ofInt (L.toDouble n).floor)
      else .error (invalidRequest "server_time 非法")
  | _ => .error (invalidRequest "server_time 非数值")

/-- `read_uint32`: nothing if the field is missing or out of range. -/
def readUint32 (k : Field) (data : List (σ × Json σ ν)) : Option UInt32 :=
  match find? (L.key k) data with
  | some (.num n) =>
      if wholeUpTo 4294967295 (L.toDouble n) then
        some (UInt32.ofNat (L.toDouble n).floor.toNat)
      else none
  | _ => none

/-- `max_json`, `max_text`, `heartbeat_idle` and `timeout`. -/
def readParameters (data : List (σ × Json σ ν)) : Outcome (UInt32 × UInt32 × UInt32 × UInt32) :=
  match readUint32 L .maxJson data, readUint32 L .maxText data, readUint32 L .heartbeatIdle data,
    readUint32 L .timeout data with
  | some maxJson, some maxText, some heartbeatIdle, some timeout =>
      .ok (maxJson, maxText, heartbeatIdle, timeout)
  | _, _, _, _ => .error (invalidRequest "连接参数字段缺失或非法")

/-- Everything behind the id of a hello response. -/
def readResponse (root : List (σ × Json σ ν)) : Outcome HelloResponse := do
  readOk L root
  let data ← readData L root
  let serverVersion ← readString L .serverVersion kMaxClientVersionBytes data
  let serverTime ← readTime L data
  let (maxJson, maxText, heartbeatIdle, timeout) ← readParameters L data
  let capabilities ← readCapabilities L data
  return { serverVersion, serverTime, maxJson, maxText, heartbeatIdle, timeout, capabilities }

end

def decodeHelloResponse [DecidableEq QString] (qt : Qt QString) (json : Bytes)
    (outRequestId : RequestId) : Outcome HelloResponse × RequestId :=
  decodeInto (readEnvelope qt.leaves "hello_response" qt.fromJson json) (readResponse qt.leaves)
    outRequestId

/-! ## What the decoder accepts -/

section
variable {σ ν : Type} [DecidableEq σ] {L : Leaves σ ν}

theorem readOk_eq_ok {root : List (σ × Json σ ν)} {u : Unit} :
    readOk L root = .ok u ↔ find? (L.key .ok) root = some (.bool true) := by
  rw [readOk]
  split
  · rename_i hf
    simp [hf]
  · rename_i hf
    simp only [reduceCtorEq, false_iff]
    exact hf

theorem readTime_eq_ok {data : List (σ × Json σ ν)} {t : Int64} :
    readTime L data = .ok t ↔
      ∃ n, find? (L.key .serverTime) data = some (.num n) ∧
        wholeUpTo kMaxSafeInteger (L.toDouble n) = true ∧ t = Int64.ofInt (L.toDouble n).floor := by
  rw [readTime]
  split
  · rename_i n hf
    simp only [hf, Option.some.injEq, Json.num.injEq, exists_eq_left']
    split
    · rename_i hwhole
      simp only [Except.ok.injEq, hwhole, true_and]
      exact eq_comm
    · rename_i hwhole
      simp [hwhole]
  · rename_i hf
    simp only [reduceCtorEq, false_iff, not_exists, not_and]
    intro n hn
    exact absurd hn (hf n)

theorem readUint32_eq_some {k : Field} {data : List (σ × Json σ ν)} {v : UInt32} :
    readUint32 L k data = some v ↔
      ∃ n, find? (L.key k) data = some (.num n) ∧ wholeUpTo 4294967295 (L.toDouble n) = true ∧
        v = UInt32.ofNat (L.toDouble n).floor.toNat := by
  rw [readUint32]
  split
  · rename_i n hf
    simp only [hf, Option.some.injEq, Json.num.injEq, exists_eq_left']
    split
    · rename_i hwhole
      simp only [Option.some.injEq, hwhole, true_and]
      exact eq_comm
    · rename_i hwhole
      simp [hwhole]
  · rename_i hf
    simp only [reduceCtorEq, false_iff, not_exists, not_and]
    intro n hn
    exact absurd hn (hf n)

theorem readParameters_eq_ok {data : List (σ × Json σ ν)} {a b c d : UInt32} :
    readParameters L data = .ok (a, b, c, d) ↔
      readUint32 L .maxJson data = some a ∧ readUint32 L .maxText data = some b ∧
        readUint32 L .heartbeatIdle data = some c ∧ readUint32 L .timeout data = some d := by
  rw [readParameters]
  split
  · rename_i ha hb hc hd
    simp [ha, hb, hc, hd]
  · rename_i hmissing
    simp only [reduceCtorEq, false_iff]
    rintro ⟨ha, hb, hc, hd⟩
    exact hmissing a b c d ha hb hc hd

theorem readResponse_eq_ok {root : List (σ × Json σ ν)} {response : HelloResponse} :
    readResponse L root = .ok response ↔
      find? (L.key .ok) root = some (.bool true) ∧
      ∃ data, find? (L.key .data) root = some (.obj data) ∧
        readString L .serverVersion kMaxClientVersionBytes data = .ok response.serverVersion ∧
        readTime L data = .ok response.serverTime ∧
        readUint32 L .maxJson data = some response.maxJson ∧
        readUint32 L .maxText data = some response.maxText ∧
        readUint32 L .heartbeatIdle data = some response.heartbeatIdle ∧
        readUint32 L .timeout data = some response.timeout ∧
        readCapabilities L data = .ok response.capabilities := by
  simp only [readResponse, bind_eq_ok, readOk_eq_ok, readData_eq_ok]
  constructor
  · rintro ⟨-, hok, data, hdata, version, hversion, time, htime, ⟨a, b, c, d⟩, hparams, caps, hcaps,
      heq⟩
    cases heq
    obtain ⟨ha, hb, hc, hd⟩ := readParameters_eq_ok.mp hparams
    exact ⟨hok, data, hdata, hversion, htime, ha, hb, hc, hd, hcaps⟩
  · rintro ⟨hok, data, hdata, hversion, htime, ha, hb, hc, hd, hcaps⟩
    exact ⟨(), hok, data, hdata, _, hversion, _, htime, _, readParameters_eq_ok.mpr ⟨ha, hb, hc, hd⟩,
      _, hcaps, rfl⟩

end

/-! ## Trees that are the same up to the leaves -/

section
variable {σ σ' ν ν' : Type} [DecidableEq σ] [DecidableEq σ'] {L : Leaves σ ν} {L' : Leaves σ' ν'}
  {ms : List (σ × Json σ ν)} {ms' : List (σ' × Json σ' ν')}

theorem readOk_congr (h : Agree L L' (.obj ms) (.obj ms')) : readOk L ms = readOk L' ms' := by
  have hf := find?_congr h .ok
  rw [readOk, readOk]
  generalize find? (L.key .ok) ms = x at hf ⊢
  generalize find? (L'.key .ok) ms' = y at hf ⊢
  cases hf with
  | none => rfl
  | some hv =>
      cases hv with
      | bool b => cases b <;> rfl
      | null => rfl
      | num hn => rfl
      | str hs => rfl
      | arr hitems => rfl
      | obj hms => rfl

theorem readTime_congr (h : Agree L L' (.obj ms) (.obj ms')) : readTime L ms = readTime L' ms' := by
  have hf := find?_congr h .serverTime
  rw [readTime, readTime]
  generalize find? (L.key .serverTime) ms = x at hf ⊢
  generalize find? (L'.key .serverTime) ms' = y at hf ⊢
  cases hf with
  | none => rfl
  | some hv =>
      cases hv with
      | num hn =>
          have hdouble : L.toDouble _ = L'.toDouble _ := hn
          simp only [hdouble]
      | null => rfl
      | bool b => rfl
      | str hs => rfl
      | arr hitems => rfl
      | obj hms => rfl

theorem readUint32_congr (h : Agree L L' (.obj ms) (.obj ms')) (k : Field) :
    readUint32 L k ms = readUint32 L' k ms' := by
  have hf := find?_congr h k
  rw [readUint32, readUint32]
  generalize find? (L.key k) ms = x at hf ⊢
  generalize find? (L'.key k) ms' = y at hf ⊢
  cases hf with
  | none => rfl
  | some hv =>
      cases hv with
      | num hn =>
          have hdouble : L.toDouble _ = L'.toDouble _ := hn
          simp only [hdouble]
      | null => rfl
      | bool b => rfl
      | str hs => rfl
      | arr hitems => rfl
      | obj hms => rfl

theorem readParameters_congr (h : Agree L L' (.obj ms) (.obj ms')) :
    readParameters L ms = readParameters L' ms' := by
  rw [readParameters, readParameters, readUint32_congr h, readUint32_congr h, readUint32_congr h,
    readUint32_congr h]

/-- The answer depends on the tree only up to its leaves. -/
theorem readResponse_congr (hL : L.Lawful) (hL' : L'.Lawful)
    (h : Agree L L' (.obj ms) (.obj ms')) : readResponse L ms = readResponse L' ms' := by
  rw [readResponse, readResponse, readOk_congr h]
  refine bind_congr ?_
  intro _
  rcases readData_congr h with ⟨data, data', hdata, hdata', hsame⟩ | ⟨e, he, he'⟩
  · rw [hdata, hdata']
    show (readString L .serverVersion _ data >>= _) = (readString L' .serverVersion _ data' >>= _)
    rw [readString_congr hL hL' hsame, readTime_congr hsame, readParameters_congr hsame,
      readCapabilities_congr hL hL' hsame]
  · rw [he, he']
    rfl

end

end ChatHub.Client
