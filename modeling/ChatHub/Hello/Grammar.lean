/-
# `ChatHub.Hello.Grammar` — what a decoder makes of an arbitrary text

The checks of a decoder form a cascade, and the first one that fails decides
the code of the error:

    longer than 64 KiB                    invalid_request
    no JSON                               invalid_json
    the root is no object                 invalid_request
    no `request_id` in the UUID format    invalid_request_id
    the rest breaks its grammar           invalid_request
    otherwise                             the values of the tree

`Verdict` is this table, for any grammar of the rest.  It determines the result
up to the detail text of the error.  `decodeInto_verdict` proves it of a decoder
from two facts about its rest: which trees are accepted with which value, and
that all its errors are `invalid_request` (`FailsWith`).

A check looks up one field by its name.  So two trees with the same known fields
(`SameFields`) are one to a decoder, and other members never matter.
-/
import ChatHub.Contracts.Uuid
import ChatHub.Hello.Decoding

namespace ChatHub.Hello

open Contracts Json

/-! ## The code of an error -/

/-- The result is an error with this code. -/
def Fails {α : Type} (code : String) (x : Outcome α) : Prop := ∃ e, x = .error e ∧ e.code = code

/-- If this fails, then with that code. -/
def FailsWith {α : Type} (code : String) (x : Outcome α) : Prop := ∀ e, x = .error e → e.code = code

theorem failsWith_ok {α : Type} {code : String} (a : α) : FailsWith code (.ok a : Outcome α) := by
  intro e h
  cases h

theorem failsWith_error {α : Type} {e : Error} : FailsWith e.code (.error e : Outcome α) := by
  intro e' h
  cases h
  rfl

theorem FailsWith.bind {α β : Type} {code : String} {x : Outcome α} {f : α → Outcome β}
    (hx : FailsWith code x) (hf : ∀ a, FailsWith code (f a)) : FailsWith code (x >>= f) := by
  cases x with
  | error e =>
      intro e' h
      cases h
      exact hx e rfl
  | ok a => exact hf a

section
variable {σ ν : Type} [DecidableEq σ] (L : Leaves σ ν)

theorem readRequestId_failsWith (root : List (σ × Json σ ν)) :
    FailsWith kInvalidRequestId (readRequestId L root) := by
  rw [readRequestId]
  split
  · split
    · exact failsWith_error
    · exact failsWith_ok _
  · exact failsWith_error

theorem readData_failsWith (root : List (σ × Json σ ν)) :
    FailsWith kInvalidRequest (readData L root) := by
  rw [readData]
  split
  · exact failsWith_ok _
  · exact failsWith_error

theorem checkLength_failsWith (detail : String) (limit : Nat) (s : Bytes) :
    FailsWith kInvalidRequest (checkLength detail limit s) := by
  rw [checkLength]
  split
  · exact failsWith_error
  · exact failsWith_ok _

theorem readString_failsWith (k : Field) (limit : Nat) (data : List (σ × Json σ ν)) :
    FailsWith kInvalidRequest (readString L k limit data) := by
  rw [readString]
  split
  · exact checkLength_failsWith _ _ _
  · exact failsWith_error

omit [DecidableEq σ] in
theorem readCapability_failsWith (item : Json σ ν) :
    FailsWith kInvalidRequest (readCapability L item) := by
  rw [readCapability.eq_def]
  split
  · exact checkLength_failsWith _ _ _
  · exact failsWith_error

omit [DecidableEq σ] in
theorem insertCapabilities_failsWith (items : List (Json σ ν)) (set : CapabilitySet) :
    FailsWith kInvalidRequest (insertCapabilities L items set) := by
  induction items generalizing set with
  | nil => exact failsWith_ok set
  | cons item items ih => exact (readCapability_failsWith L item).bind fun c => ih (set.insert c)

theorem readCapabilities_failsWith (data : List (σ × Json σ ν)) :
    FailsWith kInvalidRequest (readCapabilities L data) := by
  rw [readCapabilities]
  split
  · split
    · exact failsWith_error
    · exact insertCapabilities_failsWith L _ ∅
  · exact failsWith_error

end

/-! ## The root -/

section
variable {σ ν : Type} {parse : Bytes → Option (Json σ ν)} {json : Bytes}

theorem readRoot_of_parse (frame : String) {root : List (σ × Json σ ν)} (hlen : json.length ≤ 65536)
    (hparse : parse json = some (.obj root)) : readRoot frame parse json = .ok root :=
  readRoot_eq_ok.mpr ⟨hlen, hparse⟩

theorem readRoot_tooLong (frame : String) (hlen : 65536 < json.length) :
    Fails kInvalidRequest (readRoot frame parse json) := by
  have hmax : kMaxJsonBytes.toNat = 65536 := rfl
  rw [readRoot, if_pos (hmax ▸ hlen)]
  exact ⟨_, rfl, rfl⟩

theorem readRoot_none (frame : String) (hlen : json.length ≤ 65536) (hparse : parse json = none) :
    Fails kInvalidJson (readRoot frame parse json) := by
  have hmax : kMaxJsonBytes.toNat = 65536 := rfl
  rw [readRoot, if_neg (hmax ▸ Nat.not_lt.mpr hlen), hparse]
  exact ⟨_, rfl, rfl⟩

theorem readRoot_noObject (frame : String) {tree : Json σ ν} (hlen : json.length ≤ 65536)
    (hparse : parse json = some tree) (hobj : ∀ root, tree ≠ .obj root) :
    Fails kInvalidRequest (readRoot frame parse json) := by
  have hmax : kMaxJsonBytes.toNat = 65536 := rfl
  rw [readRoot, if_neg (hmax ▸ Nat.not_lt.mpr hlen), hparse]
  cases tree with
  | obj root => exact absurd rfl (hobj root)
  | _ => exact ⟨_, rfl, rfl⟩

end

/-! ## The grammar of the shared fields -/

section
variable {σ ν : Type} [DecidableEq σ]

/-- The root has a `request_id`, a string in the UUID format. -/
def HasUuid (L : Leaves σ ν) (root : List (σ × Json σ ν)) : Prop :=
  ∃ s, find? (L.key .requestId) root = some (.str s) ∧ Grouped (L.toStd s)

/-- The field is the string `v`, of 1 to `limit` bytes. -/
def StringField (L : Leaves σ ν) (k : Field) (limit : Nat) (data : List (σ × Json σ ν)) (v : Bytes) :
    Prop :=
  ∃ s, find? (L.key k) data = some (.str s) ∧ L.toStd s = v ∧ 1 ≤ v.length ∧ v.length ≤ limit

/-- The field `capabilities` is an array of at most 16 elements, all strings of
1 to 64 bytes, and `set` is the set of these. -/
def CapabilitiesField (L : Leaves σ ν) (data : List (σ × Json σ ν)) (set : CapabilitySet) : Prop :=
  ∃ items, find? (L.key .capabilities) data = some (.arr items) ∧ items.length ≤ 16 ∧
    (∀ item ∈ items, ∃ s, item = .str s ∧ 1 ≤ (L.toStd s).length ∧ (L.toStd s).length ≤ 64) ∧
    ∀ c, c ∈ set.value ↔ ∃ s, .str s ∈ items ∧ L.toStd s = c

variable {L : Leaves σ ν}

theorem fits_iff {limit : Nat} {v : Bytes} : Fits limit v ↔ 1 ≤ v.length ∧ v.length ≤ limit := by
  rw [Fits, Nat.one_le_iff_ne_zero, Ne, Ne, List.length_eq_zero_iff]

theorem readString_iff {k : Field} {limit : Nat} {data : List (σ × Json σ ν)} {v : Bytes} :
    readString L k limit data = .ok v ↔ StringField L k limit data v := by
  simp only [readString_eq_ok, StringField, fits_iff]

theorem readRequestId_iff {root : List (σ × Json σ ν)} :
    (∃ id, readRequestId L root = .ok id) ↔ HasUuid L root := by
  simp only [readRequestId_eq_ok, HasUuid, UuidId.parse_eq_some, ← isUuid_iff]
  constructor
  · rintro ⟨id, s, hs, hvalid, -⟩
    exact ⟨s, hs, hvalid⟩
  · rintro ⟨s, hs, hvalid⟩
    exact ⟨⟨L.toStd s, .inr hvalid⟩, s, hs, hvalid, rfl⟩

omit [DecidableEq σ] in
/-- The loop accepts strings within the limit, and collects what they stand for. -/
theorem exists_isCapability_iff {items : List (Json σ ν)} :
    (∃ values, List.Forall₂ (IsCapability L) items values) ↔
      ∀ item ∈ items, ∃ s, item = .str s ∧ 1 ≤ (L.toStd s).length ∧ (L.toStd s).length ≤ 64 := by
  induction items with
  | nil => exact iff_of_true ⟨[], .nil⟩ (List.forall_mem_nil _)
  | cons item items ih =>
      rw [List.forall_mem_cons, ← ih]
      constructor
      · rintro ⟨values, h⟩
        cases h with
        | cons hitem hrest =>
            obtain ⟨s, hs, rfl, hfits⟩ := hitem
            exact ⟨⟨s, hs, fits_iff.mp hfits⟩, _, hrest⟩
      · rintro ⟨⟨s, hs, hfits⟩, values, hrest⟩
        exact ⟨_, .cons ⟨s, hs, rfl, fits_iff.mpr hfits⟩ hrest⟩

omit [DecidableEq σ] in
theorem mem_values_iff {items : List (Json σ ν)} {values : List Bytes}
    (h : List.Forall₂ (IsCapability L) items values) {c : Bytes} :
    c ∈ values ↔ ∃ s, .str s ∈ items ∧ L.toStd s = c := by
  induction h with
  | nil => simp
  | cons hitem _ ih =>
      obtain ⟨s, rfl, rfl, -⟩ := hitem
      simp only [List.mem_cons, ih, Json.str.injEq]
      constructor
      · rintro (rfl | ⟨s', hs', rfl⟩)
        · exact ⟨s, .inl rfl, rfl⟩
        · exact ⟨s', .inr hs', rfl⟩
      · rintro ⟨s', rfl | hs', rfl⟩
        · exact .inl rfl
        · exact .inr ⟨s', hs', rfl⟩

theorem readCapabilities_iff {data : List (σ × Json σ ν)} {set : CapabilitySet} :
    readCapabilities L data = .ok set ↔ CapabilitiesField L data set := by
  rw [readCapabilities_eq_ok]
  constructor
  · rintro ⟨items, values, hf, hcount, hall, rfl⟩
    refine ⟨items, hf, hcount, exists_isCapability_iff.mp ⟨values, hall⟩, ?_⟩
    intro c
    rw [CapabilitySet.mem_ofList, mem_values_iff hall]
  · rintro ⟨items, hf, hcount, hitems, hset⟩
    obtain ⟨values, hall⟩ := exists_isCapability_iff.mpr hitems
    refine ⟨items, values, hf, hcount, hall, CapabilitySet.ext ?_⟩
    intro c
    rw [hset, CapabilitySet.mem_ofList, mem_values_iff hall]

/-- Every such array has its set. -/
theorem exists_capabilitiesField {data : List (σ × Json σ ν)} {items : List (Json σ ν)}
    (hf : find? (L.key .capabilities) data = some (.arr items)) (hcount : items.length ≤ 16)
    (hitems : ∀ item ∈ items,
      ∃ s, item = .str s ∧ 1 ≤ (L.toStd s).length ∧ (L.toStd s).length ≤ 64) :
    ∃ set, CapabilitiesField L data set := by
  obtain ⟨values, hall⟩ := exists_isCapability_iff.mpr hitems
  exact ⟨.ofList values, readCapabilities_iff.mp
    (readCapabilities_eq_ok.mpr ⟨items, values, hf, hcount, hall, rfl⟩)⟩

/-! ## The verdict -/

variable {α : Type}

/-- What a decoder answers, `Rest` being the grammar of everything behind the id
with the values it stands for. -/
structure Verdict (L : Leaves σ ν) (parse : Bytes → Option (Json σ ν)) (json : Bytes)
    (Rest : List (σ × Json σ ν) → α → Prop) (result : Outcome α) : Prop where
  tooLong : 65536 < json.length → Fails kInvalidRequest result
  syntaxError : json.length ≤ 65536 → parse json = none → Fails kInvalidJson result
  noObject : ∀ tree, json.length ≤ 65536 → parse json = some tree → (∀ root, tree ≠ .obj root) →
    Fails kInvalidRequest result
  noUuid : ∀ root, json.length ≤ 65536 → parse json = some (.obj root) → ¬ HasUuid L root →
    Fails kInvalidRequestId result
  refused : ∀ root, json.length ≤ 65536 → parse json = some (.obj root) → HasUuid L root →
    (∀ a, ¬ Rest root a) → Fails kInvalidRequest result
  accepted : ∀ root a, json.length ≤ 65536 → parse json = some (.obj root) → HasUuid L root →
    Rest root a → result = .ok a

variable {parse : Bytes → Option (Json σ ν)} {json : Bytes}

/-- An error in the envelope is the result. -/
theorem fails_decodeInto {code frame : String} {rest : List (σ × Json σ ν) → Outcome α}
    {out : RequestId} (h : Fails code (readRoot frame parse json)) :
    Fails code (decodeInto (readEnvelope L frame parse json) rest out).1 := by
  obtain ⟨e, he, hcode⟩ := h
  rw [readEnvelope, he]
  exact ⟨e, rfl, hcode⟩

/-- **The verdict of a decoder**, from the grammar of its rest. -/
theorem decodeInto_verdict {Rest : List (σ × Json σ ν) → α → Prop}
    {rest : List (σ × Json σ ν) → Outcome α} (hok : ∀ root a, rest root = .ok a ↔ Rest root a)
    (hfails : ∀ root, FailsWith kInvalidRequest (rest root)) (frame : String) (out : RequestId) :
    Verdict L parse json Rest (decodeInto (readEnvelope L frame parse json) rest out).1 where
  tooLong := fun hlen => fails_decodeInto (readRoot_tooLong frame hlen)
  syntaxError := fun hlen hparse => fails_decodeInto (readRoot_none frame hlen hparse)
  noObject := fun tree hlen hparse hobj =>
    fails_decodeInto (readRoot_noObject frame hlen hparse hobj)
  noUuid := by
    intro root hlen hparse hid
    rw [readEnvelope, readRoot_of_parse frame hlen hparse]
    cases hr : readRequestId L root with
    | ok id => exact absurd (readRequestId_iff.mp ⟨id, hr⟩) hid
    | error e =>
        refine ⟨e, ?_, readRequestId_failsWith L root e hr⟩
        show (decodeInto (readRequestId L root >>= _) rest out).1 = _
        rw [hr]
        rfl
  refused := by
    intro root hlen hparse hid hno
    obtain ⟨id, hr⟩ := readRequestId_iff.mpr hid
    rw [readEnvelope_eq_ok.mpr ⟨hlen, hparse, hr⟩]
    show Fails kInvalidRequest (rest root)
    cases hrest : rest root with
    | ok a => exact absurd ((hok root a).mp hrest) (hno a)
    | error e => exact ⟨e, rfl, hfails root e hrest⟩
  accepted := by
    intro root a hlen hparse hid ha
    obtain ⟨id, hr⟩ := readRequestId_iff.mpr hid
    rw [readEnvelope_eq_ok.mpr ⟨hlen, hparse, hr⟩]
    exact (hok root a).mpr ha

/-! ### Which text gets which answer -/

omit [DecidableEq σ] in
theorem Fails.code_eq {code code' : String} {x : Outcome α} (h : Fails code x) (h' : Fails code' x) :
    code = code' := by
  obtain ⟨e, he, hcode⟩ := h
  obtain ⟨e', he', hcode'⟩ := h'
  cases he.symm.trans he'
  exact hcode.symm.trans hcode'

omit [DecidableEq σ] in
theorem Fails.ne_ok {code : String} {x : Outcome α} (h : Fails code x) (a : α) : x ≠ .ok a := by
  obtain ⟨e, rfl, -⟩ := h
  intro h
  cases h

section
variable {Rest : List (σ × Json σ ν) → α → Prop} {result : Outcome α}
  (h : Verdict L parse json Rest result)
include h

/-- One row of the table applies to every text: which answer it gets, and why
except for the code that several rows share. -/
theorem Verdict.answer :
    (∃ root a, json.length ≤ 65536 ∧ parse json = some (.obj root) ∧ HasUuid L root ∧
      Rest root a ∧ result = .ok a) ∨
    (json.length ≤ 65536 ∧ parse json = none ∧ Fails kInvalidJson result) ∨
    (∃ root, json.length ≤ 65536 ∧ parse json = some (.obj root) ∧ ¬ HasUuid L root ∧
      Fails kInvalidRequestId result) ∨
    Fails kInvalidRequest result := by
  rcases Nat.lt_or_ge 65536 json.length with hlen | hlen
  · exact .inr (.inr (.inr (h.tooLong hlen)))
  · rcases Option.eq_none_or_eq_some (parse json) with hp | ⟨tree, hp⟩
    · exact .inr (.inl ⟨hlen, hp, h.syntaxError hlen hp⟩)
    · by_cases hobj : ∃ root, tree = .obj root
      · obtain ⟨root, rfl⟩ := hobj
        by_cases hid : HasUuid L root
        · by_cases hrest : ∃ a, Rest root a
          · obtain ⟨a, ha⟩ := hrest
            exact .inl ⟨root, a, hlen, hp, hid, ha, h.accepted root a hlen hp hid ha⟩
          · exact .inr (.inr (.inr (h.refused root hlen hp hid (not_exists.mp hrest))))
        · exact .inr (.inr (.inl ⟨root, hlen, hp, hid, h.noUuid root hlen hp hid⟩))
      · exact .inr (.inr (.inr (h.noObject tree hlen hp (not_exists.mp hobj))))

theorem Verdict.eq_ok_iff {a : α} :
    result = .ok a ↔ json.length ≤ 65536 ∧ ∃ root, parse json = some (.obj root) ∧
      HasUuid L root ∧ Rest root a := by
  constructor
  · intro ha
    rcases h.answer with ⟨root, a', hlen, hp, hid, ha', hok⟩ | ⟨-, -, hf⟩ | ⟨-, -, -, -, hf⟩ | hf
    · cases ha.symm.trans hok
      exact ⟨hlen, root, hp, hid, ha'⟩
    · exact absurd ha (hf.ne_ok a)
    · exact absurd ha (hf.ne_ok a)
    · exact absurd ha (hf.ne_ok a)
  · rintro ⟨hlen, root, hp, hid, ha⟩
    exact h.accepted root a hlen hp hid ha

theorem Verdict.invalidJson_iff :
    Fails kInvalidJson result ↔ json.length ≤ 65536 ∧ parse json = none := by
  constructor
  · intro hf
    rcases h.answer with ⟨-, a, -, -, -, -, hok⟩ | ⟨hlen, hp, -⟩ | ⟨-, -, -, -, hf'⟩ | hf'
    · exact absurd hok (hf.ne_ok a)
    · exact ⟨hlen, hp⟩
    · exact absurd (hf.code_eq hf') (by decide)
    · exact absurd (hf.code_eq hf') (by decide)
  · intro hp
    exact h.syntaxError hp.1 hp.2

theorem Verdict.invalidRequestId_iff :
    Fails kInvalidRequestId result ↔ json.length ≤ 65536 ∧
      ∃ root, parse json = some (.obj root) ∧ ¬ HasUuid L root := by
  constructor
  · intro hf
    rcases h.answer with ⟨-, a, -, -, -, -, hok⟩ | ⟨-, -, hf'⟩ | ⟨root, hlen, hp, hid, -⟩ | hf'
    · exact absurd hok (hf.ne_ok a)
    · exact absurd (hf.code_eq hf') (by decide)
    · exact ⟨hlen, root, hp, hid⟩
    · exact absurd (hf.code_eq hf') (by decide)
  · rintro ⟨hlen, root, hp, hid⟩
    exact h.noUuid root hlen hp hid

/-- The three codes are all there are. -/
theorem Verdict.invalidRequest_of_error {e : Error} (he : result = .error e)
    (hjson : e.code ≠ kInvalidJson) (hid : e.code ≠ kInvalidRequestId) : e.code = kInvalidRequest := by
  have hcode : Fails e.code result := ⟨e, he, rfl⟩
  rcases h.answer with ⟨-, a, -, -, -, -, hok⟩ | ⟨-, -, hf⟩ | ⟨-, -, -, -, hf⟩ | hf
  · exact absurd hok (hcode.ne_ok a)
  · exact absurd (hcode.code_eq hf) hjson
  · exact absurd (hcode.code_eq hf) hid
  · exact hcode.code_eq hf

end

/-! ## Other members -/

/-- The same members under these names. -/
def SameFields (L : Leaves σ ν) (ks : List Field) (ms ms' : List (σ × Json σ ν)) : Prop :=
  ∀ k ∈ ks, find? (L.key k) ms = find? (L.key k) ms'

/-- Two roots with the same known fields, `top` in the root and `ks` in its
data; without a data object in the one there is none in the other. -/
structure SameKnown (L : Leaves σ ν) (top ks : List Field) (root root' : List (σ × Json σ ν)) : Prop
    where
  top : SameFields L top root root'
  data : (∃ data data', find? (L.key .data) root = some (.obj data) ∧
      find? (L.key .data) root' = some (.obj data') ∧ SameFields L ks data data') ∨
    ((∀ data, find? (L.key .data) root ≠ some (.obj data)) ∧
      ∀ data, find? (L.key .data) root' ≠ some (.obj data))

variable {root root' data data' : List (σ × Json σ ν)}

theorem readRequestId_of_find? (h : find? (L.key .requestId) root = find? (L.key .requestId) root') :
    readRequestId L root = readRequestId L root' := by
  simp only [readRequestId, h]

theorem readString_of_find? {k : Field} (limit : Nat)
    (h : find? (L.key k) data = find? (L.key k) data') :
    readString L k limit data = readString L k limit data' := by
  simp only [readString, h]

theorem readCapabilities_of_find?
    (h : find? (L.key .capabilities) data = find? (L.key .capabilities) data') :
    readCapabilities L data = readCapabilities L data' := by
  simp only [readCapabilities, h]

theorem readData_of_no_object (h : ∀ data, find? (L.key .data) root ≠ some (.obj data)) :
    readData L root = .error (invalidRequest "data 缺失或非对象") := by
  rw [readData]
  split
  · rename_i data hf
    exact absurd hf (h data)
  · rfl

/-- Whatever follows the data object gives the same on roots with the same
known fields, if it does on data objects with the same fields. -/
theorem readData_bind_of_sameKnown {top ks : List Field} {f : List (σ × Json σ ν) → Outcome α}
    (h : SameKnown L top ks root root')
    (hf : ∀ data data', SameFields L ks data data' → f data = f data') :
    (readData L root >>= f) = (readData L root' >>= f) := by
  rcases h.data with ⟨data, data', hdata, hdata', hsame⟩ | ⟨hno, hno'⟩
  · rw [readData_eq_ok.mpr hdata, readData_eq_ok.mpr hdata']
    exact hf data data' hsame
  · rw [readData_of_no_object hno, readData_of_no_object hno']

/-- Two texts whose trees have the same id and the same rest give the same
result, and store the same. -/
theorem decodeInto_of_sameFields {json' : Bytes} {frame : String}
    {rest : List (σ × Json σ ν) → Outcome α} {out : RequestId} (hlen : json.length ≤ 65536)
    (hlen' : json'.length ≤ 65536)
    (hparse : parse json = some (.obj root)) (hparse' : parse json' = some (.obj root'))
    (hid : find? (L.key .requestId) root = find? (L.key .requestId) root')
    (hrest : rest root = rest root') :
    decodeInto (readEnvelope L frame parse json') rest out =
      decodeInto (readEnvelope L frame parse json) rest out := by
  rw [readEnvelope, readEnvelope, readRoot_of_parse frame hlen hparse,
    readRoot_of_parse frame hlen' hparse']
  show decodeInto (readRequestId L root' >>= _) rest out = decodeInto (readRequestId L root >>= _) rest out
  rw [readRequestId_of_find? hid]
  cases readRequestId L root' with
  | error e => rfl
  | ok id => exact congrArg (Prod.mk · id) hrest.symm

end

end ChatHub.Hello
