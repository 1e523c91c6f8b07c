/-
# `ChatHub.Hello.Request` — a hello request from the client to the server

The client writes the tree of a request, the frame layer carries its text, and
the server reads a tree that is the same up to its leaves.  So the server's
answer can be computed on the client's own tree, where every lookup is known:

    the id is accepted        ⟺  it is a UUID, that is, not the empty default
    the data are accepted     ⟺  the request is within the limits of the wire
    what is then returned     =   the id and the request

`decode_encode_request` is that computation.  Both directions matter: within
the limits a request arrives unchanged (`hello_request_end_to_end`), and the
encoder checks none of these limits, so what it writes outside of them is
refused (`hello_request_accepted_iff`).
-/
import ChatHub.Frame.Segmentation
import ChatHub.Hello.Written

namespace ChatHub.Hello

open Contracts Utf8 Json Client Server Streaming

/-! ## The client's tree, read by the server's checks -/

section
variable {σ ν : Type} [DecidableEq σ] {L : Leaves σ ν}

/-- What the server's checks make of the client's own tree. -/
theorem readRequest_requestRoot (hL : L.Lawful) {id : RequestId} {request request' : HelloRequest}
    (hutf : request.IsUtf8) :
    readRequest L (requestRoot L id request) = .ok request' ↔
      request' = request ∧ request.WithinLimits := by
  have hdata : find? (L.key .data) (requestRoot L id request)
      = some (.obj (requestData L request)) := by
    simp [requestRoot, find?, hL.key_inj]
  have hversion : find? (L.key .clientVersion) (requestData L request)
      = some (.str (L.ofStd request.clientVersion)) := by
    simp [requestData, find?]
  have hplatform : find? (L.key .platform) (requestData L request)
      = some (.str (L.ofStd request.platform)) := by
    simp [requestData, find?, hL.key_inj]
  have hcaps : find? (L.key .capabilities) (requestData L request)
      = some (.arr (request.capabilities.value.map fun c => .str (L.ofStd c))) := by
    simp [requestData, find?, hL.key_inj]
  rw [readRequest_eq_ok, hdata]
  simp only [Option.some.injEq, Json.obj.injEq, exists_eq_left',
    readString_ofStd hL hversion hutf.clientVersion, readString_ofStd hL hplatform hutf.platform,
    readCapabilities_ofStd hL hutf.capabilities hcaps]
  constructor
  · rintro ⟨⟨hv, hvfits⟩, ⟨hp, hpfits⟩, hc, hclimits⟩
    refine ⟨?_, hvfits, hpfits, hclimits⟩
    cases request'
    cases hv
    cases hp
    cases hc
    rfl
  · rintro ⟨rfl, hvfits, hpfits, hclimits⟩
    exact ⟨⟨rfl, hvfits⟩, ⟨rfl, hpfits⟩, rfl, hclimits⟩

omit [DecidableEq σ] in
/-- The client's tree is one that a document can hold. -/
theorem proper_requestRoot (hL : L.Lawful) {P : σ → Prop} {N : ν → Prop}
    (hP : ∀ b, WellFormed b → P (L.ofStd b)) {id : RequestId} {request : HelloRequest}
    (hutf : request.IsUtf8) : Proper P N kMaxDepth (.obj (requestRoot L id request)) := by
  have hkey : ∀ k : Field, P (L.key k) := fun k => hP _ k.wellFormed_name
  have hroot := hL.nodup_keys (show [Field.requestId, .data].Nodup by decide)
  have hdata := hL.nodup_keys
    (show [Field.clientVersion, .platform, .capabilities].Nodup by decide)
  refine .obj hroot ?_ ?_
  · simp only [requestRoot, List.forall_mem_cons]
    exact ⟨hkey _, hkey _, fun m hm => absurd hm List.not_mem_nil⟩
  · simp only [requestRoot, List.forall_mem_cons]
    refine ⟨.str (hP _ id.wellFormed_value), .obj hdata ?_ ?_, fun m hm => absurd hm List.not_mem_nil⟩
    · simp only [requestData, List.forall_mem_cons]
      exact ⟨hkey _, hkey _, hkey _, fun m hm => absurd hm List.not_mem_nil⟩
    · simp only [requestData, List.forall_mem_cons]
      refine ⟨.str (hP _ hutf.clientVersion), .str (hP _ hutf.platform), .arr ?_,
        fun m hm => absurd hm List.not_mem_nil⟩
      intro t ht
      obtain ⟨c, hc, rfl⟩ := List.mem_map.mp ht
      exact .str (hP _ (hutf.capabilities c hc))

omit [DecidableEq σ] in
/-- Within the limits the text of a request fits into a frame. -/
theorem room_requestRoot_le (hL : L.Lawful) {num : ν → Nat} {id : RequestId}
    {request : HelloRequest} (hutf : request.IsUtf8) (hlimits : request.WithinLimits) :
    room (stringRoom L) num (.obj (requestRoot L id request)) ≤ 65536 := by
  have hid := id.length_value_le
  have hversion := hlimits.clientVersion.2
  have hplatform := hlimits.platform.2
  have hcaps := room_capabilities_le hL num hutf.capabilities hlimits.capabilities
  have hkey := stringRoom_key_le hL
  have h₁ := hkey .requestId
  have h₂ := hkey .data
  have h₃ := hkey .clientVersion
  have h₄ := hkey .platform
  have h₅ := hkey .capabilities
  rw [room] at hcaps
  simp only [requestRoot, requestData, room, List.map_cons, List.map_nil, List.sum_cons,
    List.sum_nil, stringRoom_ofStd hL id.wellFormed_value, stringRoom_ofStd hL hutf.clientVersion,
    stringRoom_ofStd hL hutf.platform]
  simp only [kMaxClientVersionBytes, kMaxPlatformBytes] at hversion hplatform
  omega

end

/-! ## Across the two libraries -/

section
variable {QString : Type} [DecidableEq QString] {qt : Qt QString} {boost : Boost}

/-- What the server makes of the text the client writes. -/
theorem decode_encode_request (h : RequestPath qt boost) {id id' out : RequestId}
    {request request' : HelloRequest} (hutf : request.IsUtf8) {text : Bytes}
    (htext : encodeHelloRequest qt id request = .ok text) :
    decodeHelloRequest boost text out = (.ok request', id') ↔
      text.length ≤ 65536 ∧ (id' = id ∧ isUuid id.value = true) ∧
        request' = request ∧ request.WithinLimits := by
  cases htext
  have hproper : RequestTree qt (.obj (requestRoot qt.leaves id request)) :=
    proper_requestRoot h.string (fun _ => Leaves.text_ofStd) hutf
  obtain ⟨t, hparse, hsame⟩ := h.read _ hproper
  have hid : find? (qt.leaves.key .requestId) (requestRoot qt.leaves id request)
      = some (.str (qt.leaves.ofStd id.value)) := by
    simp [requestRoot, find?]
  -- the server's tree is an object, and its checks answer as on the client's tree
  cases hsame with
  | @obj root _ hmembers =>
      have hagree : Agree boostLeaves qt.leaves (.obj root)
          (.obj (requestRoot qt.leaves id request)) := .obj hmembers
      rw [decodeHelloRequest, decodeInto_of_parse hparse,
        readRequestId_congr boostLeaves_lawful h.string hagree, readRequestId_ofStd h.string hid,
        readRequest_congr boostLeaves_lawful h.string hagree, readRequest_requestRoot h.string hutf]

/-- Within the limits the text is short enough, and UTF-8. -/
theorem text_of_withinLimits (h : RequestPath qt boost) {id : RequestId} {request : HelloRequest}
    (hutf : request.IsUtf8) (hlimits : request.WithinLimits) {text : Bytes}
    (htext : encodeHelloRequest qt id request = .ok text) :
    text.length ≤ 65536 ∧ WellFormed text := by
  cases htext
  have hproper : RequestTree qt (.obj (requestRoot qt.leaves id request)) :=
    proper_requestRoot h.string (fun _ => Leaves.text_ofStd) hutf
  exact ⟨Nat.le_trans (h.length _ hproper) (room_requestRoot_le h.string hutf hlimits),
    h.text _ hproper⟩

/-- **A request within the limits arrives as it was sent**, however the stream
is cut. -/
theorem hello_request_end_to_end (h : RequestPath qt boost) {s : Bytes} {id : RequestId}
    (hid : UuidId.parse s = some id) {request : HelloRequest} (hutf : request.IsUtf8)
    (hlimits : request.WithinLimits) :
    ∃ text frame, encodeHelloRequest qt id request = .ok text ∧ text.length ≤ 65536 ∧
      encodeFrame .helloRequest text = some frame ∧
      (∀ ops : List (Op UInt8), fed ops = frame →
        (decoder.run {} ops).2.hasFailed = false ∧ produced ops = [⟨.helloRequest, text⟩]) ∧
      (∀ chunks : List Bytes, chunks.flatten = frame →
        (receive {} chunks).1 = [⟨.helloRequest, text⟩]) ∧
      ∀ out : RequestId, decodeHelloRequest boost text out = (.ok request, id) := by
  have htext : encodeHelloRequest qt id request
      = .ok (qt.toJson (.obj (requestRoot qt.leaves id request))) := rfl
  obtain ⟨hlen, hwf⟩ := text_of_withinLimits h hutf hlimits htext
  generalize qt.toJson (.obj (requestRoot qt.leaves id request)) = text at htext hlen hwf
  obtain ⟨hvalid, hvalue⟩ := UuidId.parse_eq_some.mp hid
  have hframe := encodeFrame_eq_some.mpr ⟨⟨_, (rfl : findProtocol .helloRequest = some _), hlen⟩,
    hwf, rfl⟩
  refine ⟨text, _, htext, hlen, hframe, ?_, ?_, ?_⟩
  · intro ops hfed
    exact produced_of_encodeFrame hframe hfed
  · intro chunks hchunks
    exact receive_of_encodeFrame hframe hchunks
  · intro out
    exact (decode_encode_request h hutf htext).mpr
      ⟨hlen, ⟨rfl, hvalue ▸ hvalid⟩, rfl, hlimits⟩

/-- A request of the first version, with a quotation mark in a capability. -/
def sampleRequest : HelloRequest where
  clientVersion := ascii "1.0"
  platform := ascii "windows"
  capabilities := .ofList [ascii "text_v1", [0x22]]

theorem sampleRequest_isUtf8 : sampleRequest.IsUtf8 :=
  ⟨by decide +kernel, by decide +kernel, by decide +kernel⟩

theorem sampleRequest_withinLimits : sampleRequest.WithinLimits :=
  ⟨by decide, by decide, by decide⟩

theorem hello_request_end_to_end_sample :
    ∃ text frame, encodeHelloRequest compactQt sampleId sampleRequest = .ok text ∧
      text.length ≤ 65536 ∧ encodeFrame .helloRequest text = some frame ∧
      (∀ ops : List (Op UInt8), fed ops = frame →
        (decoder.run {} ops).2.hasFailed = false ∧ produced ops = [⟨.helloRequest, text⟩]) ∧
      (∀ chunks : List Bytes, chunks.flatten = frame →
        (receive {} chunks).1 = [⟨.helloRequest, text⟩]) ∧
      ∀ out : RequestId, decodeHelloRequest compactBoost text out = (.ok sampleRequest, sampleId) :=
  hello_request_end_to_end compactRequestPath (UuidId.parse_value (by decide +kernel))
    sampleRequest_isUtf8 sampleRequest_withinLimits

/-- **What the client may send.**  The encoder never returns an error; the
server accepts its text, with the id and the request it was made from, exactly
if the id is a UUID and the request is within the limits. -/
theorem hello_request_accepted_iff (h : RequestPath qt boost) (id : RequestId)
    {request : HelloRequest} (hutf : request.IsUtf8) :
    (∀ text, encodeHelloRequest qt id request = .ok text →
      ∀ out, decodeHelloRequest boost text out = (.ok request, id)) ↔
    isUuid id.value = true ∧ request.WithinLimits := by
  constructor
  · intro haccept
    have htext : encodeHelloRequest qt id request
        = .ok (qt.toJson (.obj (requestRoot qt.leaves id request))) := rfl
    obtain ⟨-, ⟨-, hid⟩, -, hlimits⟩ :=
      (decode_encode_request h hutf htext).mp (haccept _ htext {})
    exact ⟨hid, hlimits⟩
  · rintro ⟨hid, hlimits⟩ text htext out
    obtain ⟨hlen, -⟩ := text_of_withinLimits h hutf hlimits htext
    exact (decode_encode_request h hutf htext).mpr ⟨hlen, ⟨rfl, hid⟩, rfl, hlimits⟩

/-- A default-constructed id is sent, and refused. -/
theorem hello_request_empty_id :
    ∃ text, encodeHelloRequest compactQt {} sampleRequest = .ok text ∧
      decodeHelloRequest compactBoost text {} =
        (.error (invalidRequestId "request_id 非合法 UUID"), {}) :=
  ⟨_, rfl, by decide +kernel⟩

theorem hello_request_accepted_iff_sample :
    (∀ text, encodeHelloRequest compactQt sampleId sampleRequest = .ok text →
      ∀ out, decodeHelloRequest compactBoost text out = (.ok sampleRequest, sampleId)) ↔
    isUuid sampleId.value = true ∧ sampleRequest.WithinLimits :=
  hello_request_accepted_iff compactRequestPath sampleId sampleRequest_isUtf8

end

end ChatHub.Hello
