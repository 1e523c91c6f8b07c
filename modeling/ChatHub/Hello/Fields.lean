/-
# `ChatHub.Hello.Fields` — the checks both hello decoders make

`hello_codec.cpp` exists twice, for Boost.JSON on the server and for Qt's JSON
on the client.  The two libraries differ in their strings and numbers and agree
in everything else, and so do the two sources: size before syntax, the root,
the request id, then the data field by field, with the same texts for the same
errors.  What they share is written once here, over the leaves of a library
(`Leaves`).

A decoder looks at a tree through its fields only.  So it gives the same answer
on two trees that are the same up to the leaves (`readString_congr` and its
siblings, along `Json.Same`): this is how what one library has written is
followed into what the other one reads.
-/
import ChatHub.Lib.Json
import ChatHub.Contracts.Hello

namespace ChatHub.Hello

open Contracts Utf8 Json

/-! ## Field names -/

/-- The fields of the two messages. -/
inductive Field where
  | requestId | ok | data
  | clientVersion | platform | capabilities
  | serverVersion | serverTime | maxJson | maxText | heartbeatIdle | timeout
  deriving DecidableEq, Repr

/-- The name a field has on the wire. -/
def Field.name : Field → String
  | .requestId => "request_id"
  | .ok => "ok"
  | .data => "data"
  | .clientVersion => "client_version"
  | .platform => "platform"
  | .capabilities => "capabilities"
  | .serverVersion => "server_version"
  | .serverTime => "server_time"
  | .maxJson => "max_json"
  | .maxText => "max_text"
  | .heartbeatIdle => "heartbeat_idle"
  | .timeout => "timeout"

def Field.all : List Field :=
  [.requestId, .ok, .data, .clientVersion, .platform, .capabilities, .serverVersion, .serverTime,
    .maxJson, .maxText, .heartbeatIdle, .timeout]

theorem Field.mem_all (k : Field) : k ∈ Field.all := by
  cases k <;> decide

theorem Field.wellFormed_name (k : Field) : WellFormed (ascii k.name) := by
  have hascii : ∀ k ∈ Field.all, ((ascii k.name).all fun b => decide (b.toNat ≤ 0x7F)) = true := by
    decide
  exact wellFormed_literal (hascii k k.mem_all)

theorem Field.name_injective {j k : Field} (h : ascii j.name = ascii k.name) : j = k := by
  have hnodup : (Field.all.map fun k => ascii k.name).Nodup := by decide
  exact List.inj_on_of_nodup_map hnodup j.mem_all k.mem_all h

/-! ## Leaves -/

/-- The strings and numbers of a JSON library: strings from and to `std::string`,
numbers as doubles. -/
structure Leaves (σ ν : Type) where
  ofStd : Bytes → σ
  toStd : σ → Bytes
  toDouble : ν → Rat

namespace Leaves

variable {σ σ' ν ν' : Type}

/-- A field name as a key. -/
def key (L : Leaves σ ν) (k : Field) : σ := L.ofStd (ascii k.name)

/-- A string that stands for UTF-8. -/
def Text (L : Leaves σ ν) (s : σ) : Prop := ∃ b, WellFormed b ∧ L.ofStd b = s

/-- Conversion is the identity on UTF-8. -/
def Lawful (L : Leaves σ ν) : Prop := ∀ b, WellFormed b → L.toStd (L.ofStd b) = b

/-- Strings of two libraries that stand for the same UTF-8. -/
def SameText (L : Leaves σ ν) (L' : Leaves σ' ν') (s : σ) (s' : σ') : Prop :=
  ∃ b, WellFormed b ∧ L.ofStd b = s ∧ L'.ofStd b = s'

/-- Numbers of two libraries that are the same double. -/
def SameNumber (L : Leaves σ ν) (L' : Leaves σ' ν') (n : ν) (n' : ν') : Prop :=
  L.toDouble n = L'.toDouble n'

variable {L : Leaves σ ν} {L' : Leaves σ' ν'}

theorem text_ofStd {b : Bytes} (h : WellFormed b) : L.Text (L.ofStd b) := ⟨b, h, rfl⟩

theorem text_key (k : Field) : L.Text (L.key k) := text_ofStd k.wellFormed_name

theorem Lawful.key_inj (hL : L.Lawful) {j k : Field} : L.key j = L.key k ↔ j = k := by
  constructor
  · intro h
    have hstd := congrArg L.toStd h
    rw [key, key, hL _ j.wellFormed_name, hL _ k.wellFormed_name] at hstd
    exact Field.name_injective hstd
  · rintro rfl
    rfl

/-- Distinct fields have distinct keys. -/
theorem Lawful.nodup_keys (hL : L.Lawful) {ks : List Field} (h : ks.Nodup) :
    (ks.map L.key).Nodup :=
  h.map fun _ _ => hL.key_inj.mp

theorem sameText_key (k : Field) : L.SameText L' (L.key k) (L'.key k) :=
  ⟨ascii k.name, k.wellFormed_name, rfl, rfl⟩

theorem SameText.toStd_eq (hL : L.Lawful) (hL' : L'.Lawful) {s : σ} {s' : σ'}
    (h : L.SameText L' s s') : L.toStd s = L'.toStd s' := by
  obtain ⟨b, hb, rfl, rfl⟩ := h
  rw [hL b hb, hL' b hb]

end Leaves

/-! ## Errors -/

def kInvalidJson : String := "invalid_json"
def kInvalidRequestId : String := "invalid_request_id"
def kInvalidRequest : String := "invalid_request"

def invalidJson (detail : String) : Error := ⟨kInvalidJson, detail⟩
def invalidRequestId (detail : String) : Error := ⟨kInvalidRequestId, detail⟩
def invalidRequest (detail : String) : Error := ⟨kInvalidRequest, detail⟩

/-! ## Checks -/

section
variable {σ ν : Type}

/-- Not empty and within its limit. -/
def checkLength (detail : String) (limit : Nat) (s : Bytes) : Outcome Bytes :=
  if s.isEmpty ∨ s.length > limit then .error (invalidRequest detail) else .ok s

/-- The members of the root object: size first, then syntax, then shape. -/
def readRoot (frame : String) (parse : Bytes → Option (Json σ ν)) (json : Bytes) :
    Outcome (List (σ × Json σ ν)) :=
  if json.length > kMaxJsonBytes.toNat then .error (invalidRequest "正文超过 64 KiB")
  else
    match parse json with
    | none => .error (invalidJson (frame ++ " 非合法 JSON"))
    | some (.obj root) => .ok root
    | some _ => .error (invalidRequest (frame ++ " 根必须是对象"))

variable [DecidableEq σ] (L : Leaves σ ν)

def readRequestId (root : List (σ × Json σ ν)) : Outcome RequestId :=
  match find? (L.key .requestId) root with
  | some (.str s) =>
      match UuidId.parse (L.toStd s) with
      | none => .error (invalidRequestId "request_id 非合法 UUID")
      | some id => .ok id
  | _ => .error (invalidRequestId "request_id 缺失或非字符串")

/-- The part of a message both decoders read first: the root and its id. -/
def readEnvelope (frame : String) (parse : Bytes → Option (Json σ ν)) (json : Bytes) :
    Outcome (RequestId × List (σ × Json σ ν)) := do
  let root ← readRoot frame parse json
  let id ← readRequestId L root
  return (id, root)

def readData (root : List (σ × Json σ ν)) : Outcome (List (σ × Json σ ν)) :=
  match find? (L.key .data) root with
  | some (.obj data) => .ok data
  | _ => .error (invalidRequest "data 缺失或非对象")

/-- A string field: there, a string, not empty and within its limit. -/
def readString (k : Field) (limit : Nat) (data : List (σ × Json σ ν)) : Outcome Bytes :=
  match find? (L.key k) data with
  | some (.str s) => checkLength (k.name ++ " 长度非法") limit (L.toStd s)
  | _ => .error (invalidRequest (k.name ++ " 缺失或非字符串"))

def readCapability (item : Json σ ν) : Outcome Bytes :=
  match item with
  | .str s => checkLength "capability 长度非法" kMaxCapabilityValueBytes (L.toStd s)
  | _ => .error (invalidRequest "capability 非字符串")

/-- The loop over the array: check an item, then insert it. -/
def insertCapabilities : List (Json σ ν) → CapabilitySet → Outcome CapabilitySet
  | [], set => .ok set
  | item :: items, set => do
      let c ← readCapability L item
      insertCapabilities items (set.insert c)

def readCapabilities (data : List (σ × Json σ ν)) : Outcome CapabilitySet :=
  match find? (L.key .capabilities) data with
  | some (.arr items) =>
      if items.length > kMaxCapabilityCount then .error (invalidRequest "capabilities 数量超限")
      else insertCapabilities L items ∅
  | _ => .error (invalidRequest "capabilities 缺失或非数组")

end

/-- A decoder with its out parameter.  The id is stored when the envelope has
been read, before the rest is looked at. -/
def decodeInto {α β : Type} (envelope : Outcome (RequestId × β)) (rest : β → Outcome α)
    (outRequestId : RequestId) : Outcome α × RequestId :=
  match envelope with
  | .error e => (.error e, outRequestId)
  | .ok (id, root) => (rest root, id)

/-! ## What the checks accept -/

section
variable {σ ν : Type}

/-- Both steps of a sequence have succeeded. -/
theorem bind_eq_ok {α β : Type} {x : Outcome α} {f : α → Outcome β} {b : β} :
    (x >>= f) = .ok b ↔ ∃ a, x = .ok a ∧ f a = .ok b := by
  cases x with
  | error e =>
      constructor
      · intro h
        cases h
      · rintro ⟨a, h, -⟩
        cases h
  | ok a =>
      constructor
      · intro h
        exact ⟨a, rfl, h⟩
      · rintro ⟨a', h, hf⟩
        cases h
        exact hf

theorem checkLength_eq_ok {detail : String} {limit : Nat} {s v : Bytes} :
    checkLength detail limit s = .ok v ↔ s = v ∧ Fits limit v := by
  rw [checkLength]
  split
  · rename_i hbad
    simp only [reduceCtorEq, false_iff, not_and]
    rintro rfl ⟨hne, hle⟩
    rcases hbad with hempty | hlong
    · exact hne (List.isEmpty_iff.mp hempty)
    · exact absurd hle (Nat.not_le.mpr hlong)
  · rename_i hgood
    obtain ⟨hne, hle⟩ := not_or.mp hgood
    simp only [Except.ok.injEq]
    constructor
    · rintro rfl
      exact ⟨rfl, fun h => hne (List.isEmpty_iff.mpr h), Nat.le_of_not_lt hle⟩
    · exact And.left

theorem readRoot_eq_ok {frame : String} {parse : Bytes → Option (Json σ ν)} {json : Bytes}
    {root : List (σ × Json σ ν)} :
    readRoot frame parse json = .ok root ↔ json.length ≤ 65536 ∧ parse json = some (.obj root) := by
  have hmax : kMaxJsonBytes.toNat = 65536 := rfl
  rw [readRoot, hmax]
  split
  · rename_i hlen
    constructor
    · intro h
      cases h
    · rintro ⟨hle, -⟩
      exact absurd hle (Nat.not_le.mpr hlen)
  · rename_i hlen
    split
    · rename_i hp
      simp [hp]
    · rename_i root' hp
      simp only [Except.ok.injEq, hp, Option.some.injEq, Json.obj.injEq, Nat.le_of_not_lt hlen,
        true_and]
    · rename_i t hobj hp
      simp only [hp, Option.some.injEq, reduceCtorEq, false_iff, not_and]
      rintro - rfl
      exact hobj root rfl

variable [DecidableEq σ] {L : Leaves σ ν}

theorem readRequestId_eq_ok {root : List (σ × Json σ ν)} {id : RequestId} :
    readRequestId L root = .ok id ↔
      ∃ s, find? (L.key .requestId) root = some (.str s) ∧ UuidId.parse (L.toStd s) = some id := by
  rw [readRequestId]
  split
  · rename_i s hf
    simp only [hf, Option.some.injEq, Json.str.injEq, exists_eq_left']
    split
    · rename_i hp
      simp [hp]
    · rename_i id' hp
      simp [hp]
  · rename_i hf
    simp only [reduceCtorEq, false_iff, not_exists, not_and]
    intro s hs
    exact absurd hs (hf s)

theorem readEnvelope_eq_ok {frame : String} {parse : Bytes → Option (Json σ ν)} {json : Bytes}
    {id : RequestId} {root : List (σ × Json σ ν)} :
    readEnvelope L frame parse json = .ok (id, root) ↔
      json.length ≤ 65536 ∧ parse json = some (.obj root) ∧ readRequestId L root = .ok id := by
  rw [readEnvelope, bind_eq_ok]
  constructor
  · rintro ⟨root', hroot, hid⟩
    obtain ⟨id', hid', heq⟩ := bind_eq_ok.mp hid
    cases heq
    obtain ⟨hlen, hparse⟩ := readRoot_eq_ok.mp hroot
    exact ⟨hlen, hparse, hid'⟩
  · rintro ⟨hlen, hparse, hid⟩
    exact ⟨root, readRoot_eq_ok.mpr ⟨hlen, hparse⟩, bind_eq_ok.mpr ⟨id, hid, rfl⟩⟩

theorem readData_eq_ok {root data : List (σ × Json σ ν)} :
    readData L root = .ok data ↔ find? (L.key .data) root = some (.obj data) := by
  rw [readData]
  split
  · rename_i data' hf
    simp [hf]
  · rename_i hf
    simp only [reduceCtorEq, false_iff]
    exact hf data

theorem readString_eq_ok {k : Field} {limit : Nat} {data : List (σ × Json σ ν)} {v : Bytes} :
    readString L k limit data = .ok v ↔
      ∃ s, find? (L.key k) data = some (.str s) ∧ L.toStd s = v ∧ Fits limit v := by
  rw [readString]
  split
  · rename_i s hf
    simp only [hf, Option.some.injEq, Json.str.injEq, exists_eq_left', checkLength_eq_ok]
  · rename_i hf
    simp only [reduceCtorEq, false_iff, not_exists, not_and]
    intro s hs
    exact absurd hs (hf s)

/-- An item of the array that is accepted as the capability `v`. -/
def IsCapability (L : Leaves σ ν) (item : Json σ ν) (v : Bytes) : Prop :=
  ∃ s, item = .str s ∧ L.toStd s = v ∧ Fits kMaxCapabilityValueBytes v

omit [DecidableEq σ] in
theorem readCapability_eq_ok {item : Json σ ν} {v : Bytes} :
    readCapability L item = .ok v ↔ IsCapability L item v := by
  rw [readCapability.eq_def, IsCapability]
  split
  · rename_i s
    simp only [Json.str.injEq, exists_eq_left', checkLength_eq_ok]
  · rename_i hstr
    simp only [reduceCtorEq, false_iff, not_exists, not_and]
    intro s hs
    exact absurd hs (hstr s)

omit [DecidableEq σ] in
theorem insertCapabilities_eq_ok {items : List (Json σ ν)} {set set' : CapabilitySet} :
    insertCapabilities L items set = .ok set' ↔
      ∃ values, List.Forall₂ (IsCapability L) items values ∧
        set' = values.foldl CapabilitySet.insert set := by
  induction items generalizing set with
  | nil => simp [insertCapabilities, eq_comm]
  | cons item items ih =>
      rw [insertCapabilities, bind_eq_ok]
      constructor
      · rintro ⟨c, hc, hrest⟩
        obtain ⟨values, hvalues, rfl⟩ := ih.mp hrest
        exact ⟨c :: values, .cons (readCapability_eq_ok.mp hc) hvalues, rfl⟩
      · rintro ⟨values, hvalues, rfl⟩
        cases hvalues with
        | cons hc hvalues =>
            exact ⟨_, readCapability_eq_ok.mpr hc, ih.mpr ⟨_, hvalues, rfl⟩⟩

theorem readCapabilities_eq_ok {data : List (σ × Json σ ν)} {set : CapabilitySet} :
    readCapabilities L data = .ok set ↔
      ∃ items values, find? (L.key .capabilities) data = some (.arr items) ∧
        items.length ≤ kMaxCapabilityCount ∧ List.Forall₂ (IsCapability L) items values ∧
        set = CapabilitySet.ofList values := by
  rw [readCapabilities]
  split
  · rename_i items hf
    simp only [hf, Option.some.injEq, Json.arr.injEq, exists_and_left, exists_eq_left']
    split
    · rename_i hlong
      simp only [reduceCtorEq, false_iff, not_and]
      intro hle
      exact absurd hle (Nat.not_le.mpr hlong)
    · rename_i hshort
      simp only [insertCapabilities_eq_ok, Nat.le_of_not_lt hshort, true_and]
      rfl
  · rename_i hf
    simp only [reduceCtorEq, false_iff, not_exists, not_and]
    intro items values hs
    exact absurd hs (hf items)

end

/-! ## Trees that are the same up to the leaves -/

section
variable {σ σ' ν ν' : Type} [DecidableEq σ] [DecidableEq σ'] {L : Leaves σ ν} {L' : Leaves σ' ν'}

/-- The same tree in two libraries. -/
abbrev Agree (L : Leaves σ ν) (L' : Leaves σ' ν') : Json σ ν → Json σ' ν' → Prop :=
  Same (L.SameText L') (L.SameNumber L')

variable {ms : List (σ × Json σ ν)} {ms' : List (σ' × Json σ' ν')}

theorem find?_congr (h : Agree L L' (.obj ms) (.obj ms')) (k : Field) :
    Option.Rel (Agree L L') (find? (L.key k) ms) (find? (L'.key k) ms') := by
  cases h with
  | obj h => exact h _ _ (Leaves.sameText_key k)

variable (hL : L.Lawful) (hL' : L'.Lawful)
include hL hL'

theorem readRequestId_congr (h : Agree L L' (.obj ms) (.obj ms')) :
    readRequestId L ms = readRequestId L' ms' := by
  have hf := find?_congr h .requestId
  rw [readRequestId, readRequestId]
  generalize find? (L.key .requestId) ms = x at hf ⊢
  generalize find? (L'.key .requestId) ms' = y at hf ⊢
  cases hf with
  | none => rfl
  | some hv =>
      cases hv with
      | str hs => simp only [hs.toStd_eq hL hL']
      | null => rfl
      | bool b => rfl
      | num hn => rfl
      | arr hitems => rfl
      | obj hms => rfl

theorem readString_congr (h : Agree L L' (.obj ms) (.obj ms')) (k : Field) (limit : Nat) :
    readString L k limit ms = readString L' k limit ms' := by
  have hf := find?_congr h k
  rw [readString, readString]
  generalize find? (L.key k) ms = x at hf ⊢
  generalize find? (L'.key k) ms' = y at hf ⊢
  cases hf with
  | none => rfl
  | some hv =>
      cases hv with
      | str hs => simp only [hs.toStd_eq hL hL']
      | null => rfl
      | bool b => rfl
      | num hn => rfl
      | arr hitems => rfl
      | obj hms => rfl

theorem readCapability_congr {item : Json σ ν} {item' : Json σ' ν'} (h : Agree L L' item item') :
    readCapability L item = readCapability L' item' := by
  cases h with
  | str hs => simp only [readCapability, hs.toStd_eq hL hL']
  | null => rfl
  | bool b => rfl
  | num hn => rfl
  | arr hitems => rfl
  | obj hms => rfl

theorem insertCapabilities_congr {items : List (Json σ ν)} {items' : List (Json σ' ν')}
    (h : List.Forall₂ (Agree L L') items items') (set : CapabilitySet) :
    insertCapabilities L items set = insertCapabilities L' items' set := by
  induction h generalizing set with
  | nil => rfl
  | cons hitem _ ih =>
      rw [insertCapabilities, insertCapabilities, readCapability_congr hL hL' hitem]
      exact bind_congr fun c => ih (set.insert c)

theorem readCapabilities_congr (h : Agree L L' (.obj ms) (.obj ms')) :
    readCapabilities L ms = readCapabilities L' ms' := by
  have hf := find?_congr h .capabilities
  rw [readCapabilities, readCapabilities]
  generalize find? (L.key .capabilities) ms = x at hf ⊢
  generalize find? (L'.key .capabilities) ms' = y at hf ⊢
  cases hf with
  | none => rfl
  | some hv =>
      cases hv with
      | arr hitems => simp only [hitems.length_eq, insertCapabilities_congr hL hL' hitems]
      | null => rfl
      | bool b => rfl
      | num hn => rfl
      | str hs => rfl
      | obj hms => rfl

omit hL hL' in
/-- The data objects are the same, or missing with the same error. -/
theorem readData_congr (h : Agree L L' (.obj ms) (.obj ms')) :
    (∃ data data', readData L ms = .ok data ∧ readData L' ms' = .ok data' ∧
      Agree L L' (.obj data) (.obj data')) ∨
    (∃ e, readData L ms = .error e ∧ readData L' ms' = .error e) := by
  have hf := find?_congr h .data
  rw [readData, readData]
  generalize find? (L.key .data) ms = x at hf ⊢
  generalize find? (L'.key .data) ms' = y at hf ⊢
  cases hf with
  | none => exact .inr ⟨_, rfl, rfl⟩
  | some hv =>
      cases hv with
      | obj hms => exact .inl ⟨_, _, rfl, rfl, .obj hms⟩
      | null => exact .inr ⟨_, rfl, rfl⟩
      | bool b => exact .inr ⟨_, rfl, rfl⟩
      | num hn => exact .inr ⟨_, rfl, rfl⟩
      | str hs => exact .inr ⟨_, rfl, rfl⟩
      | arr hitems => exact .inr ⟨_, rfl, rfl⟩

end

end ChatHub.Hello
