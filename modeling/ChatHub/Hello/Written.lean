/-
# `ChatHub.Hello.Written` — reading what has just been written

A round trip is computed on the writer's own tree.  There every lookup is
known, the strings are `ofStd` of the fields of the message, and each check of
`ChatHub.Hello.Fields` becomes an equivalence: what it returns is what was
written, and it returns it exactly if the limits of the wire are kept.

The second part bounds the room such a tree takes up, string by string.
-/
import Mathlib.Algebra.Group.Action.Defs
import ChatHub.Hello.Libraries

namespace ChatHub.Hello

open Contracts Utf8 Json

/-! ## Decoding with an out parameter -/

theorem decodeInto_eq_ok {α β : Type} {envelope : Outcome (RequestId × β)} {rest : β → Outcome α}
    {out id : RequestId} {a : α} :
    decodeInto envelope rest out = (.ok a, id) ↔
      ∃ root, envelope = .ok (id, root) ∧ rest root = .ok a := by
  cases envelope with
  | error e => simp [decodeInto]
  | ok p =>
      obtain ⟨id', root⟩ := p
      simp only [decodeInto, Prod.mk.injEq, Except.ok.injEq]
      constructor
      · rintro ⟨hrest, rfl⟩
        exact ⟨root, ⟨rfl, rfl⟩, hrest⟩
      · rintro ⟨root', ⟨rfl, rfl⟩, hrest⟩
        exact ⟨hrest, rfl⟩

/-- On a text that is an object, success is success of both parts. -/
theorem decodeInto_of_parse {σ ν α : Type} [DecidableEq σ] {L : Leaves σ ν} {frame : String}
    {parse : Bytes → Option (Json σ ν)} {json : Bytes} {root : List (σ × Json σ ν)}
    (hparse : parse json = some (.obj root)) {rest : List (σ × Json σ ν) → Outcome α}
    {out id : RequestId} {a : α} :
    decodeInto (readEnvelope L frame parse json) rest out = (.ok a, id) ↔
      json.length ≤ 65536 ∧ readRequestId L root = .ok id ∧ rest root = .ok a := by
  simp only [decodeInto_eq_ok, readEnvelope_eq_ok, hparse, Option.some.injEq, Json.obj.injEq]
  constructor
  · rintro ⟨_, ⟨hlen, rfl, hid⟩, ha⟩
    exact ⟨hlen, hid, ha⟩
  · rintro ⟨hlen, hid, ha⟩
    exact ⟨root, ⟨hlen, rfl, hid⟩, ha⟩

/-! ## Reading what has just been written -/

section
variable {σ ν : Type} [DecidableEq σ] {L : Leaves σ ν}

/-- A string field that holds the text `v`. -/
theorem readString_ofStd (hL : L.Lawful) {k : Field} {limit : Nat} {data : List (σ × Json σ ν)}
    {v w : Bytes} (hf : find? (L.key k) data = some (.str (L.ofStd v))) (hv : WellFormed v) :
    readString L k limit data = .ok w ↔ w = v ∧ Fits limit v := by
  rw [readString_eq_ok, hf]
  simp only [Option.some.injEq, Json.str.injEq, exists_eq_left', hL v hv]
  constructor
  · rintro ⟨rfl, hfits⟩
    exact ⟨rfl, hfits⟩
  · rintro ⟨rfl, hfits⟩
    exact ⟨rfl, hfits⟩

omit [DecidableEq σ] in
theorem isCapability_ofStd (hL : L.Lawful) {v w : Bytes} (hv : WellFormed v) :
    IsCapability L (.str (L.ofStd v)) w ↔ w = v ∧ Fits kMaxCapabilityValueBytes v := by
  simp only [IsCapability, Json.str.injEq, exists_eq_left', hL v hv]
  constructor
  · rintro ⟨rfl, hfits⟩
    exact ⟨rfl, hfits⟩
  · rintro ⟨rfl, hfits⟩
    exact ⟨rfl, hfits⟩

omit [DecidableEq σ] in
theorem forall₂_isCapability (hL : L.Lawful) {vs ws : List Bytes} (hvs : ∀ v ∈ vs, WellFormed v) :
    List.Forall₂ (IsCapability L) (vs.map fun v => .str (L.ofStd v)) ws ↔
      ws = vs ∧ ∀ v ∈ vs, Fits kMaxCapabilityValueBytes v := by
  induction vs generalizing ws with
  | nil => simp
  | cons v vs ih =>
      obtain ⟨hv, hrest⟩ := List.forall_mem_cons.mp hvs
      rw [List.map_cons]
      constructor
      · intro h
        cases h with
        | cons hc htail =>
            obtain ⟨rfl, hfits⟩ := (isCapability_ofStd hL hv).mp hc
            obtain ⟨rfl, hall⟩ := (ih hrest).mp htail
            exact ⟨rfl, List.forall_mem_cons.mpr ⟨hfits, hall⟩⟩
      · rintro ⟨rfl, hall⟩
        obtain ⟨hfits, hall⟩ := List.forall_mem_cons.mp hall
        exact .cons ((isCapability_ofStd hL hv).mpr ⟨rfl, hfits⟩) ((ih hrest).mpr ⟨rfl, hall⟩)

/-- An array that holds the elements of a set. -/
theorem readCapabilities_ofStd (hL : L.Lawful) {data : List (σ × Json σ ν)}
    {set set' : CapabilitySet} (hset : ∀ c ∈ set.value, WellFormed c)
    (hf : find? (L.key .capabilities) data
      = some (.arr (set.value.map fun c => .str (L.ofStd c)))) :
    readCapabilities L data = .ok set' ↔ set' = set ∧ set.WithinLimits := by
  rw [readCapabilities_eq_ok, hf]
  simp only [Option.some.injEq, Json.arr.injEq, exists_and_left, exists_eq_left',
    List.length_map, forall₂_isCapability hL hset]
  constructor
  · rintro ⟨hcount, values, ⟨rfl, hall⟩, rfl⟩
    exact ⟨CapabilitySet.ofList_value set, hcount, hall⟩
  · rintro ⟨rfl, hcount, hall⟩
    exact ⟨hcount, set'.value, ⟨rfl, hall⟩, (CapabilitySet.ofList_value set').symm⟩

theorem readRequestId_ofStd (hL : L.Lawful) {root : List (σ × Json σ ν)} {id id' : RequestId}
    (hf : find? (L.key .requestId) root = some (.str (L.ofStd id.value))) :
    readRequestId L root = .ok id' ↔ id' = id ∧ isUuid id.value = true := by
  rw [readRequestId_eq_ok, hf]
  simp only [Option.some.injEq, Json.str.injEq, exists_eq_left', hL _ id.wellFormed_value,
    UuidId.parse_eq_some]
  constructor
  · rintro ⟨hid, hvalue⟩
    exact ⟨UuidId.ext hvalue, hid⟩
  · rintro ⟨rfl, hid⟩
    exact ⟨hid, rfl⟩

/-! ## How much room it takes up -/

omit [DecidableEq σ] in
theorem stringRoom_ofStd (hL : L.Lawful) {b : Bytes} (hb : WellFormed b) :
    stringRoom L (L.ofStd b) = 6 * b.length + 2 := by
  rw [stringRoom, hL b hb]

omit [DecidableEq σ] in
theorem stringRoom_key_le (hL : L.Lawful) (k : Field) : stringRoom L (L.key k) ≤ 86 := by
  have hname : ∀ k ∈ Field.all, 6 * (ascii k.name).length + 2 ≤ 86 := by decide
  rw [Leaves.key, stringRoom_ofStd hL k.wellFormed_name]
  exact hname k k.mem_all

omit [DecidableEq σ] in
theorem room_capabilities_le (hL : L.Lawful) (num : ν → Nat) {set : CapabilitySet}
    (hset : ∀ c ∈ set.value, WellFormed c) (hlimits : set.WithinLimits) :
    room (stringRoom L) num (.arr (set.value.map fun c => .str (L.ofStd c))) ≤ 6194 := by
  have hitem : ∀ n ∈ set.value.map fun c => stringRoom L (L.ofStd c) + 1, n ≤ 387 := by
    intro n hn
    obtain ⟨c, hc, rfl⟩ := List.mem_map.mp hn
    have hle := (hlimits.2 c hc).2
    simp only [stringRoom_ofStd hL (hset c hc), kMaxCapabilityValueBytes] at hle ⊢
    omega
  have hsum := List.sum_le_card_nsmul _ 387 hitem
  have hcount := hlimits.1
  simp only [room, List.map_map, List.length_map, smul_eq_mul, kMaxCapabilityCount,
    Function.comp_def] at hsum hcount ⊢
  omega

end

end ChatHub.Hello
