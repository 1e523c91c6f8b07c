/-
# `ChatHub.Hello.Response` — a hello response from the server to the client

The server writes integers and the client reads doubles, tests their range and
narrows them again.  On the server's own tree that is

    server_time           int64   accepted  ⟺  0 ≤ n ≤ 2 ^ 53 - 1
    the four parameters   uint32  always accepted

and what is accepted comes back unchanged: up to 2 ^ 53 - 1 the double of an
integer is that integer, and above or below it is out of range as well
(`wholeUpTo_ofInt`).  The encoder tests nothing, so the domain of the round
trip is exactly what the decoder accepts (`hello_response_round_trip`).
-/
import ChatHub.Hello.Written

namespace ChatHub.Hello

open Contracts Utf8 Json Client Server

/-! ## Integers through doubles -/

/-- The range test on the double is the range test on the integer. -/
theorem wholeUpTo_ofInt (limit : Int) {n : Int} (hlimit : limit < 2 ^ 53) :
    wholeUpTo limit (Double.ofInt n) = true ↔ 0 ≤ n ∧ n ≤ limit := by
  simp only [wholeUpTo, Bool.not_eq_true', Bool.or_eq_false_iff, decide_eq_false_iff_not,
    bne_eq_false_iff_eq, not_lt]
  constructor
  · rintro ⟨⟨hlo, hhi⟩, -⟩
    have hneg : ¬ n < 0 := fun h => absurd (Double.ofInt_neg h) (not_lt.mpr hlo)
    have hlarge : ¬ 2 ^ 53 ≤ n := by
      intro h
      have hle : (2 ^ 53 : Rat) ≤ limit := le_trans (Double.le_ofInt h) hhi
      have hle' : (2 ^ 53 : Int) ≤ limit := by exact_mod_cast hle
      exact absurd hlimit (not_lt.mpr hle')
    rw [Double.ofInt_exact (by omega)] at hhi
    exact ⟨not_lt.mp hneg, by exact_mod_cast hhi⟩
  · rintro ⟨hlo, hhi⟩
    rw [Double.ofInt_exact (by omega), Rat.floor_intCast]
    exact ⟨⟨by exact_mod_cast hlo, by exact_mod_cast hhi⟩, rfl⟩

theorem floor_ofInt {n : Int} (hlo : 0 ≤ n) (hhi : n < 2 ^ 53) : (Double.ofInt n).floor = n := by
  rw [Double.ofInt_exact (by omega), Rat.floor_intCast]

/-- A time that was written as an `int64`. -/
theorem readTime_int64 {data : List (Bytes × Json Bytes BoostNumber)} {t t' : Int64}
    (hf : find? (boostLeaves.key .serverTime) data = some (.num (.int64 t))) :
    readTime boostLeaves data = .ok t' ↔
      t' = t ∧ 0 ≤ t.toInt ∧ t.toInt ≤ 9007199254740991 := by
  have hrange : wholeUpTo kMaxSafeInteger (Double.ofInt t.toInt) = true ↔ _ :=
    wholeUpTo_ofInt 9007199254740991 (by decide)
  rw [readTime_eq_ok, hf]
  simp only [Option.some.injEq, Json.num.injEq, exists_eq_left']
  show wholeUpTo kMaxSafeInteger (Double.ofInt t.toInt) = true ∧
    t' = Int64.ofInt (Double.ofInt t.toInt).floor ↔ _
  rw [hrange]
  constructor
  · rintro ⟨⟨hlo, hhi⟩, rfl⟩
    rw [floor_ofInt hlo (by omega), Int64.ofInt_toInt]
    exact ⟨rfl, hlo, hhi⟩
  · rintro ⟨rfl, hlo, hhi⟩
    rw [floor_ofInt hlo (by omega), Int64.ofInt_toInt]
    exact ⟨⟨hlo, hhi⟩, rfl⟩

/-- A parameter that was written from an `uint32`. -/
theorem readUint32_uint64 {data : List (Bytes × Json Bytes BoostNumber)} {k : Field} {v v' : UInt32}
    (hf : find? (boostLeaves.key k) data = some (.num (.uint64 v.toUInt64))) :
    readUint32 boostLeaves k data = some v' ↔ v' = v := by
  have hv : v.toNat < 2 ^ 32 := v.toNat_lt
  have hrange : wholeUpTo 4294967295 (Double.ofInt (v.toNat : Int)) = true :=
    (wholeUpTo_ofInt 4294967295 (by decide)).mpr ⟨by omega, by omega⟩
  have hfloor : (Double.ofInt (v.toNat : Int)).floor = v.toNat :=
    floor_ofInt (by omega) (by omega)
  rw [readUint32_eq_some, hf]
  simp only [Option.some.injEq, Json.num.injEq, exists_eq_left']
  show wholeUpTo 4294967295 (Double.ofInt (v.toUInt64.toNat : Int)) = true ∧
    v' = UInt32.ofNat (Double.ofInt (v.toUInt64.toNat : Int)).floor.toNat ↔ _
  rw [UInt32.toNat_toUInt64, hfloor, Int.toNat_natCast, UInt32.ofNat_toNat]
  exact and_iff_right hrange

/-! ## The server's tree, read by the client's checks -/

/-- What the client's checks make of the server's own tree. -/
theorem readResponse_responseRoot {id : RequestId} {response response' : HelloResponse}
    (hutf : response.IsUtf8) :
    readResponse boostLeaves (responseRoot id response) = .ok response' ↔
      response' = response ∧ response.WithinLimits := by
  have hkey : ∀ {j k : Field}, boostLeaves.key j = boostLeaves.key k ↔ j = k :=
    boostLeaves_lawful.key_inj
  have hok : find? (boostLeaves.key .ok) (responseRoot id response) = some (.bool true) := by
    simp [responseRoot, find?, hkey]
  have hdata : find? (boostLeaves.key .data) (responseRoot id response)
      = some (.obj (responseData response)) := by
    simp [responseRoot, find?, hkey]
  have hversion : find? (boostLeaves.key .serverVersion) (responseData response)
      = some (.str (boostLeaves.ofStd response.serverVersion)) := by
    simp [responseData, find?, boostLeaves]
  have htime : find? (boostLeaves.key .serverTime) (responseData response)
      = some (.num (.int64 response.serverTime)) := by
    simp [responseData, find?, hkey]
  have hmaxJson : find? (boostLeaves.key .maxJson) (responseData response)
      = some (.num (.uint64 response.maxJson.toUInt64)) := by
    simp [responseData, find?, hkey]
  have hmaxText : find? (boostLeaves.key .maxText) (responseData response)
      = some (.num (.uint64 response.maxText.toUInt64)) := by
    simp [responseData, find?, hkey]
  have hidle : find? (boostLeaves.key .heartbeatIdle) (responseData response)
      = some (.num (.uint64 response.heartbeatIdle.toUInt64)) := by
    simp [responseData, find?, hkey]
  have htimeout : find? (boostLeaves.key .timeout) (responseData response)
      = some (.num (.uint64 response.timeout.toUInt64)) := by
    simp [responseData, find?, hkey]
  have hcaps : find? (boostLeaves.key .capabilities) (responseData response)
      = some (.arr (response.capabilities.value.map fun c => .str (boostLeaves.ofStd c))) := by
    show find? (boostLeaves.key .capabilities) (responseData response)
      = some (.arr (response.capabilities.value.map .str))
    simp [responseData, find?, hkey]
  rw [readResponse_eq_ok, hok, hdata]
  simp only [Option.some.injEq, Json.obj.injEq, exists_eq_left', true_and,
    readString_ofStd boostLeaves_lawful hversion hutf.serverVersion, readTime_int64 htime,
    readUint32_uint64 hmaxJson, readUint32_uint64 hmaxText, readUint32_uint64 hidle,
    readUint32_uint64 htimeout, readCapabilities_ofStd boostLeaves_lawful hutf.capabilities hcaps]
  constructor
  · rintro ⟨⟨hv, hvfits⟩, ⟨ht, htrange⟩, h₁, h₂, h₃, h₄, hc, hclimits⟩
    refine ⟨?_, hvfits, htrange, hclimits⟩
    cases response'
    cases hv
    cases ht
    cases h₁
    cases h₂
    cases h₃
    cases h₄
    cases hc
    rfl
  · rintro ⟨rfl, hvfits, htrange, hclimits⟩
    exact ⟨⟨rfl, hvfits⟩, ⟨rfl, htrange⟩, rfl, rfl, rfl, rfl, rfl, hclimits⟩

/-- The server's tree is one that a document can hold. -/
theorem proper_responseRoot (id : RequestId) {response : HelloResponse} (hutf : response.IsUtf8) :
    ResponseTree (.obj (responseRoot id response)) := by
  have hroot := boostLeaves_lawful.nodup_keys (show [Field.requestId, .ok, .data].Nodup by decide)
  have hdata := boostLeaves_lawful.nodup_keys
    (show [Field.serverVersion, .serverTime, .maxJson, .maxText, .heartbeatIdle, .timeout,
      .capabilities].Nodup by decide)
  refine .obj hroot ?_ ?_
  · simp only [responseRoot, List.forall_mem_cons]
    exact ⟨Leaves.text_key _, Leaves.text_key _, Leaves.text_key _,
      fun m hm => absurd hm List.not_mem_nil⟩
  · simp only [responseRoot, List.forall_mem_cons]
    refine ⟨.str (text_boostLeaves.mpr id.wellFormed_value), .bool true, .obj hdata ?_ ?_,
      fun m hm => absurd hm List.not_mem_nil⟩
    · intro m hm
      have hkeys : ∀ s ∈ (responseData response).map Prod.fst, boostLeaves.Text s := by
        show ∀ s ∈ [Field.serverVersion, .serverTime, .maxJson, .maxText, .heartbeatIdle, .timeout,
          .capabilities].map boostLeaves.key, boostLeaves.Text s
        intro s hs
        obtain ⟨k, -, rfl⟩ := List.mem_map.mp hs
        exact Leaves.text_key k
      exact hkeys _ (List.mem_map_of_mem hm)
    · simp only [responseData, List.forall_mem_cons]
      refine ⟨.str (text_boostLeaves.mpr hutf.serverVersion), .num trivial, .num trivial,
        .num trivial, .num trivial, .num trivial, .arr ?_, fun m hm => absurd hm List.not_mem_nil⟩
      intro t ht
      obtain ⟨c, hc, rfl⟩ := List.mem_map.mp ht
      exact .str (text_boostLeaves.mpr (hutf.capabilities c hc))

/-- Within the limits the text of a response fits into a frame. -/
theorem room_responseRoot_le {id : RequestId} {response : HelloResponse} (hutf : response.IsUtf8)
    (hlimits : response.WithinLimits) :
    room (stringRoom boostLeaves) numberRoom (.obj (responseRoot id response)) ≤ 65536 := by
  have hid := id.length_value_le
  have hversion := hlimits.serverVersion.2
  have hcaps : room (stringRoom boostLeaves) numberRoom
      (.arr (response.capabilities.value.map .str)) ≤ 6194 :=
    room_capabilities_le boostLeaves_lawful numberRoom hutf.capabilities hlimits.capabilities
  have hkey := stringRoom_key_le boostLeaves_lawful
  have h₁ := hkey .requestId
  have h₂ := hkey .ok
  have h₃ := hkey .data
  have h₄ := hkey .serverVersion
  have h₅ := hkey .serverTime
  have h₆ := hkey .maxJson
  have h₇ := hkey .maxText
  have h₈ := hkey .heartbeatIdle
  have h₉ := hkey .timeout
  have h₁₀ := hkey .capabilities
  have hstr : ∀ b : Bytes, stringRoom boostLeaves b = 6 * b.length + 2 := fun _ => rfl
  rw [room] at hcaps
  simp only [responseRoot, responseData, room, List.map_cons, List.map_nil, List.sum_cons,
    List.sum_nil, numberRoom]
  rw [hstr id.value, hstr response.serverVersion]
  simp only [kMaxClientVersionBytes] at hversion
  omega

/-! ## Across the two libraries -/

section
variable {QString : Type} [DecidableEq QString] {qt : Qt QString} {boost : Boost}

/-- Within the limits the text is short enough, and UTF-8. -/
theorem responseText_of_withinLimits (h : ResponsePath qt boost) (id : RequestId)
    {response : HelloResponse} (hutf : response.IsUtf8) (hlimits : response.WithinLimits) :
    (encodeHelloResponse boost id response).length ≤ 65536 ∧
      WellFormed (encodeHelloResponse boost id response) := by
  have hproper := proper_responseRoot id hutf
  exact ⟨Nat.le_trans (h.length _ hproper) (room_responseRoot_le hutf hlimits), h.text _ hproper⟩

/-- What the client makes of the text the server writes. -/
theorem decode_encode_response (h : ResponsePath qt boost) {id id' out : RequestId}
    {response response' : HelloResponse} (hutf : response.IsUtf8) :
    decodeHelloResponse qt (encodeHelloResponse boost id response) out = (.ok response', id') ↔
      (id' = id ∧ isUuid id.value = true) ∧ response' = response ∧ response.WithinLimits := by
  obtain ⟨t, hparse, hsame⟩ := h.read _ (proper_responseRoot id hutf)
  have hid : find? (boostLeaves.key .requestId) (responseRoot id response)
      = some (.str (boostLeaves.ofStd id.value)) := by
    simp [responseRoot, find?, boostLeaves]
  -- the client's tree is an object, and its checks answer as on the server's tree
  cases hsame with
  | @obj _ root hmembers =>
      have hagree : Agree boostLeaves qt.leaves (.obj (responseRoot id response)) (.obj root) :=
        .obj hmembers
      rw [decodeHelloResponse, encodeHelloResponse, decodeInto_of_parse hparse,
        ← readRequestId_congr boostLeaves_lawful h.string hagree,
        readRequestId_ofStd boostLeaves_lawful hid,
        ← readResponse_congr boostLeaves_lawful h.string hagree, readResponse_responseRoot hutf]
      constructor
      · rintro ⟨-, haccepted⟩
        exact haccepted
      · rintro ⟨hid', hresponse, hlimits⟩
        exact ⟨(responseText_of_withinLimits h id hutf hlimits).1, hid', hresponse, hlimits⟩

/-- **The domain of the response round trip.**  The client accepts what the
server writes exactly if the id is a UUID and the response is within the
limits; and what it accepts is the id and the response that were written. -/
theorem hello_response_round_trip (h : ResponsePath qt boost) (id out : RequestId)
    {response : HelloResponse} (hutf : response.IsUtf8) :
    ((∃ response' id', decodeHelloResponse qt (encodeHelloResponse boost id response) out
        = (.ok response', id')) ↔
      isUuid id.value = true ∧ response.WithinLimits) ∧
    ∀ response' id', decodeHelloResponse qt (encodeHelloResponse boost id response) out
      = (.ok response', id') → response' = response ∧ id' = id := by
  constructor
  · constructor
    · rintro ⟨response', id', hdecode⟩
      obtain ⟨⟨-, hid⟩, -, hlimits⟩ := (decode_encode_response h hutf).mp hdecode
      exact ⟨hid, hlimits⟩
    · rintro ⟨hid, hlimits⟩
      exact ⟨response, id, (decode_encode_response h hutf).mpr ⟨⟨rfl, hid⟩, rfl, hlimits⟩⟩
  · intro response' id' hdecode
    obtain ⟨⟨hid, -⟩, hresponse, -⟩ := (decode_encode_response h hutf).mp hdecode
    exact ⟨hresponse, hid⟩

/-- A response whose numbers are as large as they can be. -/
def sampleResponse : HelloResponse where
  serverTime := 9007199254740991
  maxJson := 4294967295
  capabilities := .ofList [ascii "text_v1", [0x22]]

theorem sampleResponse_isUtf8 : sampleResponse.IsUtf8 :=
  ⟨by decide +kernel, by decide +kernel⟩

theorem hello_response_round_trip_sample :
    ((∃ response' id', decodeHelloResponse compactQt
        (encodeHelloResponse compactBoost sampleId sampleResponse) {} = (.ok response', id')) ↔
      isUuid sampleId.value = true ∧ sampleResponse.WithinLimits) ∧
    ∀ response' id', decodeHelloResponse compactQt
        (encodeHelloResponse compactBoost sampleId sampleResponse) {} = (.ok response', id') →
      response' = sampleResponse ∧ id' = sampleId :=
  hello_response_round_trip compactResponsePath sampleId {} sampleResponse_isUtf8

end

end ChatHub.Hello
