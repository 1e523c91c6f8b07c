/-
# `ChatHub.Contracts.Ids` — request ids

`ids.hpp`: an id that has gone over the wire is a lower-case UUID v4, checked
when it is parsed and kept in a type of its own.  A default-constructed id is
empty.  There is no other way to build one, so that is the invariant the
structure carries (`UuidId.checked`).

The strings of the contracts are byte strings.  `ascii` is the byte string of a
literal in the source.
-/
import ChatHub.Lib.Utf8
import ChatHub.Contracts.Frame

namespace ChatHub.Contracts

open Utf8

/-- The byte of an ASCII character. -/
def chr (c : Char) : UInt8 := c.toNat.toUInt8

/-- A string literal of the source. -/
def ascii (text : String) : Bytes := text.toList.map chr

/-! ## The format -/

/-- The character test of `isUuid` at index `i`. -/
def uuidCharAt (i : Nat) (c : UInt8) : Bool :=
  if i == 8 || i == 13 || i == 18 || i == 23 then c == chr '-'
  else (decide (chr '0' ≤ c) && decide (c ≤ chr '9')) ||
    (decide (chr 'a' ≤ c) && decide (c ≤ chr 'f'))

/-- Is `id` a lower-case UUID v4?  36 characters, 8-4-4-4-12, version and
variant in their places. -/
def isUuid (id : Bytes) : Bool :=
  if id.length ≠ 36 then false
  else if !(List.range 36).all fun i => uuidCharAt i (id.getD i 0) then false
  else if id.getD 14 0 ≠ chr '4' then false
  else if id.getD 19 0 ≠ chr '8' ∧ id.getD 19 0 ≠ chr '9' ∧ id.getD 19 0 ≠ chr 'a' ∧
      id.getD 19 0 ≠ chr 'b' then false
  else true

def toLowerAscii (text : Bytes) : Bytes :=
  text.map fun c => if chr 'A' ≤ c ∧ c ≤ chr 'Z' then c - chr 'A' + chr 'a' else c

/-- What every character of a UUID is. -/
theorem uuidCharAt_cases {i : Nat} {c : UInt8} (h : uuidCharAt i c = true) :
    c.toNat = 0x2D ∨ (0x30 ≤ c.toNat ∧ c.toNat ≤ 0x39) ∨ (0x61 ≤ c.toNat ∧ c.toNat ≤ 0x66) := by
  simp only [uuidCharAt] at h
  split at h
  · have hc : c = chr '-' := beq_iff_eq.mp h
    rw [hc]
    exact .inl rfl
  · simp only [Bool.or_eq_true, Bool.and_eq_true, decide_eq_true_eq] at h
    exact .inr h

theorem isUuid_length {id : Bytes} (h : isUuid id = true) : id.length = 36 := by
  by_contra hlen
  simp only [isUuid, ne_eq, hlen, not_false_eq_true, if_true, Bool.false_eq_true] at h

theorem isUuid_chars {id : Bytes} (h : isUuid id = true) :
    ∀ c ∈ id, c.toNat = 0x2D ∨ (0x30 ≤ c.toNat ∧ c.toNat ≤ 0x39) ∨
      (0x61 ≤ c.toNat ∧ c.toNat ≤ 0x66) := by
  intro c hc
  have hlen := isUuid_length h
  have hall : ((List.range 36).all fun i => uuidCharAt i (id.getD i 0)) = true := by
    simp only [isUuid, ne_eq, hlen, not_true_eq_false, if_false] at h
    split at h
    · cases h
    · rename_i hall
      simpa using hall
  obtain ⟨i, hi, rfl⟩ := List.getElem_of_mem hc
  have hchar := List.all_eq_true.mp hall i (List.mem_range.mpr (hlen ▸ hi))
  rw [List.getD_eq_getElem?_getD, List.getElem?_eq_getElem hi, Option.getD_some] at hchar
  exact uuidCharAt_cases hchar

/-- Lower-casing leaves a UUID as it is. -/
theorem toLowerAscii_of_isUuid {id : Bytes} (h : isUuid id = true) : toLowerAscii id = id := by
  have hchar : ∀ c ∈ id, (if chr 'A' ≤ c ∧ c ≤ chr 'Z' then c - chr 'A' + chr 'a' else c) = c := by
    intro c hc
    refine if_neg ?_
    rintro ⟨h₁, h₂⟩
    have h₁' : 0x41 ≤ c.toNat := h₁
    have h₂' : c.toNat ≤ 0x5A := h₂
    have := isUuid_chars h c hc
    omega
  exact (List.map_congr_left hchar).trans (List.map_id' id)

theorem wellFormed_of_isUuid {id : Bytes} (h : isUuid id = true) : WellFormed id := by
  refine wellFormed_ascii ?_
  intro c hc
  have := isUuid_chars h c hc
  omega

/-! ## Ids -/

/-- A UUID of one kind; the tag keeps the kinds apart. -/
structure UuidId (Tag : Type) where
  value : Bytes := []
  checked : value = [] ∨ isUuid value = true := by exact .inl rfl
  deriving DecidableEq

inductive RequestIdTag
  deriving DecidableEq

abbrev RequestId := UuidId RequestIdTag

namespace UuidId

variable {Tag : Type}

theorem ext {a b : UuidId Tag} (h : a.value = b.value) : a = b := by
  cases a
  cases b
  cases h
  rfl

def parse (id : Bytes) : Option (UuidId Tag) :=
  if h : isUuid id = true then
    some ⟨toLowerAscii id, .inr (by rw [toLowerAscii_of_isUuid h]; exact h)⟩
  else none

/-- Parsing keeps the text. -/
theorem parse_eq_some {s : Bytes} {id : UuidId Tag} :
    parse s = some id ↔ isUuid s = true ∧ id.value = s := by
  rw [parse]
  constructor
  · intro h
    split at h
    · rename_i hs
      cases h
      exact ⟨hs, toLowerAscii_of_isUuid hs⟩
    · cases h
  · rintro ⟨hs, hvalue⟩
    rw [dif_pos hs]
    refine congrArg some (ext ?_)
    rw [hvalue]
    exact toLowerAscii_of_isUuid hs

theorem parse_value {id : UuidId Tag} (h : isUuid id.value = true) : parse id.value = some id :=
  parse_eq_some.mpr ⟨h, rfl⟩

/-- The text of an id is UTF-8, and short. -/
theorem wellFormed_value (id : UuidId Tag) : WellFormed id.value := by
  rcases id.checked with h | h
  · rw [h]
    exact wellFormed_nil
  · exact wellFormed_of_isUuid h

theorem length_value_le (id : UuidId Tag) : id.value.length ≤ 36 := by
  rcases id.checked with h | h
  · rw [h]
    exact Nat.zero_le _
  · exact Nat.le_of_eq (isUuid_length h)

end UuidId

end ChatHub.Contracts
