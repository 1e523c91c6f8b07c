/-
# `ChatHub.Hello.Negotiation` — from a request to the capabilities in the answer

The server decodes a text, intersects the capabilities in it with its own, and
answers; the client decodes the answer.  For every text that is accepted the
answer is accepted as well: the intersection is no larger than what was
declared, and its elements are among those the request decoder has let through
(`negotiate_withinLimits`).

What both sides then hold is a set, so it is known from its elements, and a
capability is in it if and only if both sides have declared it
(`negotiation_exact`).  The order and the repetitions in the text, and the
order the server's set was built in, do not show.
-/
import ChatHub.Hello.Response
import ChatHub.Hello.Decoding
import ChatHub.Frame.Reference

namespace ChatHub.Hello

open Contracts Utf8 Json Client Server

/-! ## What an accepted request is within -/

section
variable {σ ν : Type} [DecidableEq σ] {L : Leaves σ ν}

omit [DecidableEq σ] in
theorem fits_of_isCapability {items : List (Json σ ν)} {values : List Bytes}
    (h : List.Forall₂ (IsCapability L) items values) :
    ∀ c ∈ values, Fits kMaxCapabilityValueBytes c := by
  intro c hc
  induction h with
  | nil => cases hc
  | cons hitem _ ih =>
      obtain ⟨_, _, _, hfits⟩ := hitem
      rcases List.mem_cons.mp hc with rfl | hc
      · exact hfits
      · exact ih hc

theorem readCapabilities_withinLimits {data : List (σ × Json σ ν)} {set : CapabilitySet}
    (h : readCapabilities L data = .ok set) : set.WithinLimits := by
  obtain ⟨items, values, -, hcount, hitems, rfl⟩ := readCapabilities_eq_ok.mp h
  constructor
  · have hle : (CapabilitySet.ofList values).value.length ≤ values.length :=
      CapabilitySet.length_le_of_subset fun c hc => CapabilitySet.mem_ofList.mp hc
    exact Nat.le_trans hle (hitems.length_eq ▸ hcount)
  · intro c hc
    exact fits_of_isCapability hitems c (CapabilitySet.mem_ofList.mp hc)

end

/-! ## What a text declares -/

/-- The capability `c` occurs in the array of the text. -/
def Declares (boost : Boost) (json c : Bytes) : Prop :=
  ∃ root data items, boost.parse json = some (.obj root) ∧
    find? (boostLeaves.key .data) root = some (.obj data) ∧
    find? (boostLeaves.key .capabilities) data = some (.arr items) ∧ .str c ∈ items

/-- `s` is the string under `request_id` in the text. -/
def HasRequestId (boost : Boost) (json s : Bytes) : Prop :=
  ∃ root, boost.parse json = some (.obj root) ∧
    find? (boostLeaves.key .requestId) root = some (.str s)

/-- With byte strings an item is accepted as itself. -/
theorem mem_of_isCapability {items : List (Json Bytes BoostNumber)} {values : List Bytes}
    (h : List.Forall₂ (IsCapability boostLeaves) items values) {c : Bytes} :
    c ∈ values ↔ .str c ∈ items := by
  induction h with
  | nil => simp
  | @cons item value _ _ hitem _ ih =>
      obtain ⟨s, rfl, hs, -⟩ := hitem
      have hvalue : s = value := hs
      rw [List.mem_cons, List.mem_cons, ih, hvalue, Json.str.injEq]

section
variable {boost : Boost} {text : Bytes} {out id : RequestId} {request : HelloRequest}

/-- The id is the one in the text. -/
theorem hasRequestId (h : decodeHelloRequest boost text out = (.ok request, id)) :
    HasRequestId boost text id.value ∧ isUuid id.value = true := by
  obtain ⟨root, henv, -⟩ := decodeInto_eq_ok.mp h
  obtain ⟨-, hparse, hid⟩ := readEnvelope_eq_ok.mp henv
  obtain ⟨s, hs, hsid⟩ := readRequestId_eq_ok.mp hid
  obtain ⟨hvalid, hvalue⟩ := UuidId.parse_eq_some.mp hsid
  have hstring : boostLeaves.toStd s = s := rfl
  rw [hstring] at hvalid hvalue
  rw [hvalue]
  exact ⟨⟨root, hparse, hs⟩, hvalid⟩

/-- The request holds what the text declares. -/
theorem mem_capabilities_iff (h : decodeHelloRequest boost text out = (.ok request, id)) :
    request.capabilities.WithinLimits ∧
      ∀ c, c ∈ request.capabilities.value ↔ Declares boost text c := by
  obtain ⟨root, henv, hrequest⟩ := decodeInto_eq_ok.mp h
  obtain ⟨-, hparse, -⟩ := readEnvelope_eq_ok.mp henv
  obtain ⟨data, hdata, -, -, hcaps⟩ := readRequest_eq_ok.mp hrequest
  refine ⟨readCapabilities_withinLimits hcaps, ?_⟩
  intro c
  obtain ⟨items, values, hitems, -, hall, hset⟩ := readCapabilities_eq_ok.mp hcaps
  rw [hset, CapabilitySet.mem_ofList, mem_of_isCapability hall]
  constructor
  · intro hc
    exact ⟨root, data, items, hparse, hdata, hitems, hc⟩
  · rintro ⟨root', data', items', hparse', hdata', hitems', hc⟩
    cases hparse.symm.trans hparse'
    cases hdata.symm.trans hdata'
    cases hitems.symm.trans hitems'
    exact hc

/-- What is declared is UTF-8. -/
theorem wellFormed_of_declares (hboost : ParsedText boost) {c : Bytes}
    (h : Declares boost text c) : WellFormed c := by
  obtain ⟨root, data, items, hparse, hdata, hitems, hc⟩ := h
  obtain ⟨_, hroot⟩ := hboost _ _ hparse
  obtain ⟨_, hobj⟩ := hroot.of_find? hdata
  obtain ⟨_, harr⟩ := hobj.of_find? hitems
  cases harr with
  | arr hall =>
      cases hall _ hc with
      | str hs => exact text_boostLeaves.mp hs

end

/-! ## The answer -/

/-- The answer of a server with the capabilities `server`: the defaults, and
what both have. -/
def negotiate (server : CapabilitySet) (serverTime : Int64) (request : HelloRequest) :
    HelloResponse :=
  { serverTime, capabilities := CapabilitySet.intersect server request.capabilities }

theorem negotiate_withinLimits (server : CapabilitySet) {serverTime : Int64}
    (htime : 0 ≤ serverTime.toInt ∧ serverTime.toInt ≤ 9007199254740991) {request : HelloRequest}
    (h : request.capabilities.WithinLimits) :
    (negotiate server serverTime request).WithinLimits where
  serverVersion := (by decide : Fits kMaxClientVersionBytes kServerVersion)
  serverTime := htime
  capabilities := by
    have hmem : ∀ c ∈ (CapabilitySet.intersect server request.capabilities).value,
        c ∈ request.capabilities.value := fun c hc => (CapabilitySet.mem_intersect.mp hc).2
    constructor
    · exact Nat.le_trans (CapabilitySet.length_le_of_subset hmem) h.1
    · intro c hc
      exact h.2 c (hmem c hc)

theorem negotiate_isUtf8 (server : CapabilitySet) (serverTime : Int64) {request : HelloRequest}
    (h : ∀ c ∈ request.capabilities.value, WellFormed c) :
    (negotiate server serverTime request).IsUtf8 where
  serverVersion := (wellFormed_literal (by decide) : WellFormed kServerVersion)
  capabilities := fun c hc => h c (CapabilitySet.mem_intersect.mp hc).2

section
variable {QString : Type} [DecidableEq QString] {qt : Qt QString} {boost : Boost}

/-- **Negotiation is exact.**  The answer to an accepted text makes a frame; the
client accepts it, and gets the id of the text and the answer; a capability is
in the answer if and only if the server has it and the text declares it; and
another text that declares the same, at a server that has the same, gets the
same capabilities. -/
theorem negotiation_exact (h : ResponsePath qt boost) (hboost : ParsedText boost)
    {text : Bytes} {out id : RequestId} {request : HelloRequest}
    (haccept : decodeHelloRequest boost text out = (.ok request, id)) (server : CapabilitySet)
    {serverTime : Int64} (htime : 0 ≤ serverTime.toInt ∧ serverTime.toInt ≤ 9007199254740991) :
    (∃ frame, encodeFrame .helloResponse
      (encodeHelloResponse boost id (negotiate server serverTime request)) = some frame) ∧
    (∀ out', decodeHelloResponse qt
        (encodeHelloResponse boost id (negotiate server serverTime request)) out'
      = (.ok (negotiate server serverTime request), id)) ∧
    HasRequestId boost text id.value ∧
    (∀ c, c ∈ (negotiate server serverTime request).capabilities.value ↔
      c ∈ server.value ∧ Declares boost text c) ∧
    ∀ text₂ out₂ id₂ request₂ (server₂ : CapabilitySet),
      decodeHelloRequest boost text₂ out₂ = (.ok request₂, id₂) →
      (∀ c, Declares boost text₂ c ↔ Declares boost text c) →
      (∀ c, c ∈ server₂.value ↔ c ∈ server.value) →
      (negotiate server₂ serverTime request₂).capabilities
        = (negotiate server serverTime request).capabilities := by
  obtain ⟨hid, hvalid⟩ := hasRequestId haccept
  obtain ⟨hcapsLimits, hdeclares⟩ := mem_capabilities_iff haccept
  have hlimits := negotiate_withinLimits server htime hcapsLimits
  have hutf : (negotiate server serverTime request).IsUtf8 :=
    negotiate_isUtf8 server serverTime fun c hc =>
      wellFormed_of_declares hboost ((hdeclares c).mp hc)
  obtain ⟨hlen, hwf⟩ := responseText_of_withinLimits h id hutf hlimits
  refine ⟨⟨_, encodeFrame_eq_some.mpr ⟨⟨_, (rfl : findProtocol .helloResponse = some _), hlen⟩,
    hwf, rfl⟩⟩, ?_, hid, ?_, ?_⟩
  · intro out'
    exact (decode_encode_response h hutf).mpr ⟨⟨rfl, hvalid⟩, rfl, hlimits⟩
  · intro c
    exact CapabilitySet.mem_intersect.trans (and_congr_right fun _ => hdeclares c)
  · intro text₂ out₂ id₂ request₂ server₂ haccept₂ hsame hserver
    obtain ⟨-, hdeclares₂⟩ := mem_capabilities_iff haccept₂
    refine CapabilitySet.ext ?_
    intro c
    refine CapabilitySet.mem_intersect.trans (Iff.trans ?_ CapabilitySet.mem_intersect.symm)
    rw [hserver, hdeclares₂, hsame, hdeclares]

/-- Three capabilities, one of them twice. -/
def sampleText : Bytes :=
  ascii ("\x7b\"request_id\":\"6ba7b810-9dad-41d1-80b4-00c04fd430c8\",\"data\":\x7b" ++
    "\"client_version\":\"1.0\",\"platform\":\"windows\"," ++
    "\"capabilities\":[\"voice_v1\",\"text_v1\",\"file_v1\",\"text_v1\"]\x7d\x7d")

def sampleTextRequest : HelloRequest where
  clientVersion := ascii "1.0"
  platform := ascii "windows"
  capabilities := .ofList [ascii "file_v1", ascii "text_v1", ascii "voice_v1"]

def sampleServer : CapabilitySet := .ofList [ascii "text_v1", ascii "voice_v2"]

theorem sampleText_accepted :
    decodeHelloRequest compactBoost sampleText {} = (.ok sampleTextRequest, sampleId) := by
  decide +kernel

theorem negotiation_exact_sample :
    (∃ frame, encodeFrame .helloResponse
      (encodeHelloResponse compactBoost sampleId (negotiate sampleServer 0 sampleTextRequest))
        = some frame) ∧
    (∀ out', decodeHelloResponse compactQt
        (encodeHelloResponse compactBoost sampleId (negotiate sampleServer 0 sampleTextRequest)) out'
      = (.ok (negotiate sampleServer 0 sampleTextRequest), sampleId)) ∧
    HasRequestId compactBoost sampleText sampleId.value ∧
    (∀ c, c ∈ (negotiate sampleServer 0 sampleTextRequest).capabilities.value ↔
      c ∈ sampleServer.value ∧ Declares compactBoost sampleText c) ∧
    ∀ text₂ out₂ id₂ request₂ (server₂ : CapabilitySet),
      decodeHelloRequest compactBoost text₂ out₂ = (.ok request₂, id₂) →
      (∀ c, Declares compactBoost text₂ c ↔ Declares compactBoost sampleText c) →
      (∀ c, c ∈ server₂.value ↔ c ∈ sampleServer.value) →
      (negotiate server₂ 0 request₂).capabilities
        = (negotiate sampleServer 0 sampleTextRequest).capabilities :=
  negotiation_exact compactResponsePath compactParsedText sampleText_accepted
    sampleServer (by decide)

end

end ChatHub.Hello
