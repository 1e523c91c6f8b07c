/-
# `ChatHub.Hello.Exchange` — hello messages over a pair of byte streams

The frame layer and the two codecs together.  A client sends any number of
requests, the server answers each, and both directions are byte streams that
arrive in chunks, with frames taken out in between.

    `Carries`                     a stream delivers messages: in order, none
                                  twice, none missing when all bytes are there
    `hello_exchange`              the stream of the requests delivers the
                                  requests, the stream of the answers the answers
    `any_stream_is_answered`      whatever bytes a client sends instead, a frame
                                  of it is answered or refused with a code

What the client may send is known from `ChatHub.Hello.Request`, and what the
server answers from `ChatHub.Hello.Negotiation`.
-/
import ChatHub.Hello.Negotiation
import ChatHub.Hello.Request
import ChatHub.Hello.RequestGrammar

namespace ChatHub.Hello

open Contracts Utf8 Json Client Server Streaming

/-! ## Streams of messages -/

/-- The bytes `stream` deliver the messages `xs`, as frames of one type, each
decoded by `decode`: at any moment while they arrive the messages taken out are
the first of `xs`, and in the end they are all there. -/
structure Carries {α : Type} (type : ProtocolType) (decode : Bytes → α) (stream : Bytes)
    (xs : List α) : Prop where
  running : ∀ ops : List (Op UInt8), fed ops <+: stream → (decoder.run {} ops).2.hasFailed = false
  inOrder : ∀ ops : List (Op UInt8), fed ops <+: stream →
    (∀ f ∈ (decoder.run {} ops).1, f.type = type) ∧
      ((decoder.run {} ops).1.map fun f => decode f.body) <+: xs
  complete : ∀ ops : List (Op UInt8), fed ops = stream →
    ((produced ops).map fun f => decode f.body) = xs

theorem carries_of_encodeAll {α : Type} {type : ProtocolType} (decode : Bytes → α)
    {texts : List Bytes} {stream : Bytes}
    (hw : frameCodec.encodeAll (texts.map (Frame.mk type)) = some stream) :
    Carries type decode stream (texts.map decode) where
  running := fun _ hfed => (run_of_encodeAll hw hfed).1
  inOrder := by
    intro ops hfed
    obtain ⟨-, hpopped, -⟩ := run_of_encodeAll hw hfed
    constructor
    · intro f hf
      obtain ⟨text, -, rfl⟩ := List.mem_map.mp (hpopped.subset hf)
      rfl
    · have hmap := hpopped.map fun f => decode f.body
      rwa [List.map_map] at hmap
  complete := by
    intro ops hfed
    rw [(run_of_encodeAll hw (hfed ▸ List.prefix_refl _)).2.2 hfed, List.map_map]
    rfl

/-! ## The exchange -/

/-- A request with its id that the wire can carry. -/
structure Sendable (message : RequestId × HelloRequest) : Prop where
  id : isUuid message.1.value = true
  text : message.2.IsUtf8
  limits : message.2.WithinLimits

section
variable {QString : Type} [DecidableEq QString] {qt : Qt QString} {boost : Boost}

/-- Frames of texts that are short enough and UTF-8 have a stream. -/
theorem exists_stream {type : ProtocolType} {descriptor : ProtocolDescriptor}
    (hd : findProtocol type = some descriptor) (hmax : descriptor.maxBody.toNat = 65536)
    {texts : List Bytes} (h : ∀ text ∈ texts, text.length ≤ 65536 ∧ WellFormed text) :
    ∃ stream, frameCodec.encodeAll (texts.map (Frame.mk type)) = some stream := by
  refine Codec.exists_encodeAll fun f hf => ?_
  obtain ⟨text, htext, rfl⟩ := List.mem_map.mp hf
  obtain ⟨hlen, hwf⟩ := h text htext
  exact ⟨_, encodeFrame_eq_some.mpr ⟨⟨descriptor, hd, hmax ▸ hlen⟩, hwf, rfl⟩⟩

/-- The text of a request; the encoder returns no error. -/
def requestText (qt : Qt QString) (message : RequestId × HelloRequest) : Bytes :=
  qt.toJson (.obj (requestRoot qt.leaves message.1 message.2))

omit [DecidableEq QString] in
theorem mapM_encodeHelloRequest (sent : List (RequestId × HelloRequest)) :
    sent.mapM (fun message => encodeHelloRequest qt message.1 message.2) =
      .ok (sent.map (requestText qt)) := by
  induction sent with
  | nil => rfl
  | cons message sent ih =>
      rw [List.mapM_cons, ih]
      rfl

/-- What comes back for a request: what the server has made of it. -/
theorem answer_of_sendable (hres : ResponsePath qt boost) {message : RequestId × HelloRequest}
    (h : Sendable message) (server : CapabilitySet) {serverTime : Int64}
    (htime : 0 ≤ serverTime.toInt ∧ serverTime.toInt ≤ 9007199254740991) :
    let text := encodeHelloResponse boost message.1 (negotiate server serverTime message.2)
    (text.length ≤ 65536 ∧ WellFormed text) ∧
      ∀ out, decodeHelloResponse qt text out =
        (.ok (negotiate server serverTime message.2), message.1) := by
  have hlimits := negotiate_withinLimits server htime h.limits.capabilities
  have hutf := negotiate_isUtf8 server serverTime h.text.capabilities
  refine ⟨responseText_of_withinLimits hres message.1 hutf hlimits, fun out => ?_⟩
  exact (decode_encode_response hres hutf).mpr ⟨⟨rfl, h.id⟩, rfl, hlimits⟩

/-- **The exchange.**  A client that sends requests the wire can carry writes a
stream, and this stream delivers the requests with their ids to the server; the
server's answers make a stream as well, and this one delivers to the client, in
the order of its requests and under their ids, the capabilities both sides have
and the server's parameters.  How either stream is cut, and when frames are
taken out, does not matter. -/
theorem hello_exchange (hreq : RequestPath qt boost) (hres : ResponsePath qt boost)
    {sent : List (RequestId × HelloRequest)} (hsent : ∀ message ∈ sent, Sendable message)
    (server : CapabilitySet) {serverTime : Int64}
    (htime : 0 ≤ serverTime.toInt ∧ serverTime.toInt ≤ 9007199254740991) :
    ∃ texts upstream downstream,
      sent.mapM (fun message => encodeHelloRequest qt message.1 message.2) = .ok texts ∧
      frameCodec.encodeAll (texts.map (Frame.mk .helloRequest)) = some upstream ∧
      (∀ out, Carries .helloRequest (fun text => decodeHelloRequest boost text out) upstream
        (sent.map fun message => (.ok message.2, message.1))) ∧
      frameCodec.encodeAll ((sent.map fun message =>
        encodeHelloResponse boost message.1 (negotiate server serverTime message.2)).map
          (Frame.mk .helloResponse)) = some downstream ∧
      (∀ out, Carries .helloResponse (fun text => decodeHelloResponse qt text out) downstream
        (sent.map fun message => (.ok (negotiate server serverTime message.2), message.1))) ∧
      ∀ message ∈ sent, ∀ c, c ∈ (negotiate server serverTime message.2).capabilities.value ↔
        c ∈ server.value ∧ c ∈ message.2.capabilities.value := by
  have hrequests : ∀ text ∈ sent.map (requestText qt), text.length ≤ 65536 ∧ WellFormed text := by
    intro text htext
    obtain ⟨message, hmem, rfl⟩ := List.mem_map.mp htext
    exact text_of_withinLimits hreq (hsent message hmem).text (hsent message hmem).limits rfl
  have hanswers : ∀ text ∈ sent.map (fun message =>
      encodeHelloResponse boost message.1 (negotiate server serverTime message.2)),
      text.length ≤ 65536 ∧ WellFormed text := by
    intro text htext
    obtain ⟨message, hmem, rfl⟩ := List.mem_map.mp htext
    exact (answer_of_sendable hres (hsent message hmem) server htime).1
  obtain ⟨upstream, hup⟩ := exists_stream (show findProtocol .helloRequest = some _ from rfl) rfl
    hrequests
  obtain ⟨downstream, hdown⟩ := exists_stream (show findProtocol .helloResponse = some _ from rfl) rfl
    hanswers
  refine ⟨_, upstream, downstream, mapM_encodeHelloRequest sent, hup, fun out => ?_, hdown,
    fun out => ?_, fun message _ c => CapabilitySet.mem_intersect⟩
  · have hcarries := carries_of_encodeAll (fun text => decodeHelloRequest boost text out) hup
    rw [List.map_map] at hcarries
    refine (List.map_congr_left fun message hmem => ?_) ▸ hcarries
    have h := hsent message hmem
    exact (decode_encode_request hreq h.text rfl).mpr
      ⟨(hrequests _ (List.mem_map_of_mem hmem)).1, ⟨rfl, h.id⟩, rfl, h.limits⟩
  · have hcarries := carries_of_encodeAll (fun text => decodeHelloResponse qt text out) hdown
    rw [List.map_map] at hcarries
    refine (List.map_congr_left fun message hmem => ?_) ▸ hcarries
    exact (answer_of_sendable hres (hsent message hmem) server htime).2 out

theorem sendable_sample : Sendable (sampleId, sampleRequest) :=
  ⟨by decide +kernel, sampleRequest_isUtf8, sampleRequest_withinLimits⟩

/-- One request, sent twice. -/
theorem hello_exchange_twice : ∃ upstream, ∀ out,
    Carries .helloRequest (fun text => decodeHelloRequest compactBoost text out) upstream
      [(.ok sampleRequest, sampleId), (.ok sampleRequest, sampleId)] := by
  have hsent : ∀ message ∈ [(sampleId, sampleRequest), (sampleId, sampleRequest)],
      Sendable message := by
    intro message hmem
    rcases List.mem_pair.mp hmem with rfl | rfl
    · exact sendable_sample
    · exact sendable_sample
  obtain ⟨-, upstream, -, -, -, hcarries, -⟩ :=
    hello_exchange compactRequestPath compactResponsePath hsent sampleServer
      (show 0 ≤ (0 : Int64).toInt ∧ (0 : Int64).toInt ≤ 9007199254740991 by decide)
  exact ⟨upstream, hcarries⟩

/-! ## Whatever a client sends -/

/-- A request that is accepted is within the limits. -/
theorem withinLimits_of_accepted {text : Bytes} {out id : RequestId} {request : HelloRequest}
    (h : decodeHelloRequest boost text out = (.ok request, id)) : request.WithinLimits := by
  obtain ⟨root, -, hrequest⟩ := decodeInto_eq_ok.mp h
  obtain ⟨data, -, hversion, hplatform, hcaps⟩ := readRequest_eq_ok.mp hrequest
  obtain ⟨-, -, -, hversion⟩ := readString_eq_ok.mp hversion
  obtain ⟨-, -, -, hplatform⟩ := readString_eq_ok.mp hplatform
  exact ⟨hversion, hplatform, readCapabilities_withinLimits hcaps⟩

/-- An error of the server's decoder carries one of three codes. -/
theorem code_of_refused {text : Bytes} {out : RequestId} {e : Error}
    (h : (decodeHelloRequest boost text out).1 = .error e) :
    e.code = kInvalidJson ∨ e.code = kInvalidRequestId ∨ e.code = kInvalidRequest := by
  have hverdict : Verdict boostLeaves boost.parse text RequestData
      (decodeHelloRequest boost text out).1 :=
    decodeInto_verdict (fun _ _ => readRequest_iff) readRequest_failsWith _ _
  by_cases hjson : e.code = kInvalidJson
  · exact .inl hjson
  · by_cases hid : e.code = kInvalidRequestId
    · exact .inr (.inl hid)
    · exact .inr (.inr (hverdict.invalidRequest_of_error h hjson hid))

theorem isSnakeCaseCode_of_refused {text : Bytes} {out : RequestId} {e : Error}
    (h : (decodeHelloRequest boost text out).1 = .error e) :
    isSnakeCaseCode (ascii e.code) = true := by
  rcases code_of_refused h with hcode | hcode | hcode
  · rw [hcode]
    decide
  · rw [hcode]
    decide
  · rw [hcode]
    decide

/-- **Whatever bytes a client sends**, cut in any way, a hello request that the
frame decoder hands out passes the size check of the codec, and then it is
answered or refused.  If it is accepted, the request is within the limits, its
answer makes a frame, and the client that reads this frame gets the answer under
the id of its request.  If it is refused, the error has a code of the documented
shape, one of three. -/
theorem any_stream_is_answered (hres : ResponsePath qt boost) (hboost : ParsedText boost)
    (ops : List (Op UInt8)) {f : Frame} (hf : f ∈ produced ops) (htype : f.type = .helloRequest)
    (server : CapabilitySet) {serverTime : Int64}
    (htime : 0 ≤ serverTime.toInt ∧ serverTime.toInt ≤ 9007199254740991) (out : RequestId) :
    f.body.length ≤ kMaxJsonBytes.toNat ∧
    ((∃ request id frame, decodeHelloRequest boost f.body out = (.ok request, id) ∧
        request.WithinLimits ∧
        encodeFrame .helloResponse
          (encodeHelloResponse boost id (negotiate server serverTime request)) = some frame ∧
        ∀ ops' : List (Op UInt8), fed ops' = frame → ∃ text,
          produced ops' = [⟨.helloResponse, text⟩] ∧
          ∀ out', decodeHelloResponse qt text out' =
            (.ok (negotiate server serverTime request), id)) ∨
      ∃ e id, decodeHelloRequest boost f.body out = (.error e, id) ∧
        isSnakeCaseCode (ascii e.code) = true ∧
        (e.code = kInvalidJson ∨ e.code = kInvalidRequestId ∨ e.code = kInvalidRequest)) := by
  obtain ⟨w, hw⟩ := encodeFrame_of_produced hf
  obtain ⟨⟨descriptor, hd, hlen⟩, -, -⟩ := encodeFrame_eq_some.mp hw
  rw [htype] at hd
  cases hd
  refine ⟨hlen, ?_⟩
  cases hdecode : decodeHelloRequest boost f.body out with
  | mk result id =>
      cases result with
      | error e =>
          have herror : (decodeHelloRequest boost f.body out).1 = .error e := by rw [hdecode]
          exact .inr ⟨e, id, rfl, isSnakeCaseCode_of_refused herror, code_of_refused herror⟩
      | ok request =>
          obtain ⟨-, hvalid⟩ := hasRequestId hdecode
          obtain ⟨hcaps, hdeclares⟩ := mem_capabilities_iff hdecode
          have hlimits := negotiate_withinLimits server htime hcaps
          have hutf : (negotiate server serverTime request).IsUtf8 :=
            negotiate_isUtf8 server serverTime fun c hc =>
              wellFormed_of_declares hboost ((hdeclares c).mp hc)
          obtain ⟨hroom, hwf⟩ := responseText_of_withinLimits hres id hutf hlimits
          have hframe := encodeFrame_eq_some.mpr
            ⟨⟨_, (rfl : findProtocol .helloResponse = some _), hroom⟩, hwf, rfl⟩
          refine .inl ⟨request, id, _, rfl, withinLimits_of_accepted hdecode, hframe, ?_⟩
          intro ops' hfed
          refine ⟨_, (produced_of_encodeFrame hframe hfed).2, fun out' => ?_⟩
          exact (decode_encode_response hres hutf).mpr ⟨⟨rfl, hvalid⟩, rfl, hlimits⟩

/-- The three capabilities of `sampleText`, as a frame. -/
theorem any_stream_is_answered_sample : ∃ frame, encodeFrame .helloResponse
    (encodeHelloResponse compactBoost sampleId (negotiate sampleServer 0 sampleTextRequest))
      = some frame := by
  have hsent : encodeFrame .helloRequest sampleText =
      some (headerBytes .helloRequest sampleText.length ++ sampleText) := by decide +kernel
  have hf : ⟨.helloRequest, sampleText⟩ ∈
      produced [.feed (headerBytes .helloRequest sampleText.length ++ sampleText)] := by
    rw [(produced_of_encodeFrame hsent (fed_feed _)).2]
    exact List.mem_singleton_self _
  obtain ⟨-, ⟨request, id, frame, hdecode, -, hanswer, -⟩ | ⟨e, id, hdecode, -⟩⟩ :=
    any_stream_is_answered compactResponsePath compactParsedText _ hf rfl sampleServer
      (show 0 ≤ (0 : Int64).toInt ∧ (0 : Int64).toInt ≤ 9007199254740991 by decide) {}
  · dsimp only at hdecode
    rw [sampleText_accepted] at hdecode
    obtain ⟨hrequest, hid⟩ := Prod.mk.inj hdecode
    rw [← Except.ok.inj hrequest, ← hid] at hanswer
    exact ⟨frame, hanswer⟩
  · dsimp only at hdecode
    rw [sampleText_accepted] at hdecode
    cases (Prod.mk.inj hdecode).1

end

end ChatHub.Hello
