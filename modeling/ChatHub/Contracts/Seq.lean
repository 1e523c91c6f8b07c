/-
# `ChatHub.Contracts.Seq` — sequence numbers as decimal strings

`ids.hpp`: a delivery or conversation sequence number is a `uint64` that goes
over the wire as a decimal string.  `DecimalSeq::parse` rests on
`std::from_chars`, which stops at the first character that is no digit and
reports overflow; what it leaves open (leading zeros, the empty string, a rest
behind the digits) the parser checks itself.

Together the checks accept the canonical strings (`Decimal.Canonical`) of the
numbers below `2 ^ 64` and no others, and `toDecimalString` writes just these.
-/
import ChatHub.Lib.Decimal
import ChatHub.Contracts.Ids
import Mathlib.Algebra.Group.Nat.Defs

namespace ChatHub.Contracts

open Decimal

/-! ## The standard library's part -/

/-- The values of `std::errc` that `std::from_chars` returns. -/
inductive Errc
  | success
  | invalidArgument
  | resultOutOfRange
  deriving DecidableEq, Repr

/-- `std::from_chars_result`; `ptr` counts from the first character. -/
structure FromCharsResult where
  ptr : Nat
  ec : Errc
  deriving DecidableEq

/-- `std::from_chars` at an unsigned 64-bit integer, base 10: the longest
prefix of digits is taken, without sign, space or prefix.  The value is written
only on success. -/
def fromChars (text : Bytes) (value : UInt64) : UInt64 × FromCharsResult :=
  let digits := (scan text).1
  if digits = [] then (value, ⟨0, .invalidArgument⟩)
  else if Decimal.value digits < 2 ^ 64 then
    (UInt64.ofNat (Decimal.value digits), ⟨digits.length, .success⟩)
  else (value, ⟨digits.length, .resultOutOfRange⟩)

/-- When all of a non-empty text was read. -/
theorem fromChars_all {text : Bytes} {value : UInt64} (hne : text ≠ []) :
    (fromChars text value).2 = ⟨text.length, .success⟩ ↔
      (∀ c ∈ text, IsDigit c) ∧ Decimal.value text < 2 ^ 64 := by
  constructor
  · intro h
    simp only [fromChars] at h
    split at h
    · have hec : Errc.invalidArgument = .success := congrArg FromCharsResult.ec h
      cases hec
    · split at h
      · rename_i hlt
        have hall := length_scan_eq_iff.mp (congrArg FromCharsResult.ptr h)
        rw [scan_digits hall] at hlt
        exact ⟨hall, hlt⟩
      · have hec : Errc.resultOutOfRange = .success := congrArg FromCharsResult.ec h
        cases hec
  · rintro ⟨hall, hlt⟩
    simp only [fromChars, scan_digits hall]
    rw [if_neg hne, if_pos hlt]

theorem fromChars_value {text : Bytes} {value : UInt64} (hall : ∀ c ∈ text, IsDigit c)
    (hne : text ≠ []) (hlt : Decimal.value text < 2 ^ 64) :
    (fromChars text value).1 = UInt64.ofNat (Decimal.value text) := by
  simp only [fromChars, scan_digits hall]
  rw [if_neg hne, if_pos hlt]

/-! ## Sequence numbers -/

/-- A sequence number of one kind; the tag keeps the kinds apart. -/
structure DecimalSeq (Tag : Type) where
  value : UInt64
  deriving DecidableEq

inductive DeliverySeqTag
  deriving DecidableEq

inductive ConversationSeqTag
  deriving DecidableEq

abbrev DeliverySeq := DecimalSeq DeliverySeqTag
abbrev ConversationSeq := DecimalSeq ConversationSeqTag

namespace DecimalSeq

variable {Tag : Type}

def parse (text : Bytes) : Option (DecimalSeq Tag) :=
  if text = [] ∨ (1 < text.length ∧ text.head? = some (chr '0')) then none
  else
    let (parsed, result) := fromChars text 0
    if result.ec ≠ .success ∨ result.ptr ≠ text.length then none
    else some ⟨parsed⟩

def of (value : UInt64) : DecimalSeq Tag := ⟨value⟩

/-- `std::to_string` writes an unsigned number in decimal. -/
def toDecimalString (seq : DecimalSeq Tag) : Bytes := print seq.value.toNat

/-- The leading-zero test says what canonical strings say. -/
theorem leading_iff {text : Bytes} (hne : text ≠ []) :
    (text.head? = some (digit 0) → text.length = 1) ↔
      ¬(1 < text.length ∧ text.head? = some (chr '0')) := by
  have hpos : 0 < text.length := List.length_pos_of_ne_nil hne
  constructor
  · rintro h ⟨hlen, hhead⟩
    have := h hhead
    omega
  · intro h hhead
    by_contra hlen
    exact h ⟨by omega, hhead⟩

/-- **Parsing accepts the canonical strings of 64-bit numbers**, each with the
number it stands for. -/
theorem parse_eq_some {text : Bytes} {seq : DecimalSeq Tag} :
    parse text = some seq ↔ Canonical text ∧ Decimal.value text = seq.value.toNat := by
  constructor
  · intro h
    simp only [parse] at h
    split at h
    · cases h
    · rename_i hfront
      obtain ⟨hne, hlead⟩ := not_or.mp hfront
      split at h
      · cases h
      · rename_i hres
        obtain ⟨hec, hptr⟩ := not_or.mp hres
        have hread : (fromChars text 0).2 = ⟨text.length, .success⟩ := by
          rw [← not_not.mp hec, ← not_not.mp hptr]
        obtain ⟨hall, hlt⟩ := (fromChars_all hne).mp hread
        refine ⟨⟨hne, hall, (leading_iff hne).mpr hlead⟩, ?_⟩
        rw [← Option.some.inj h, fromChars_value hall hne hlt]
        exact (Nat.mod_eq_of_lt hlt).symm
  · rintro ⟨hcanon, hvalue⟩
    have hlt : Decimal.value text < 2 ^ 64 := by
      rw [hvalue]
      exact seq.value.toNat_lt
    have hread : (fromChars text 0).2 = ⟨text.length, .success⟩ :=
      (fromChars_all hcanon.nonempty).mpr ⟨hcanon.digits, hlt⟩
    have hfront := (leading_iff hcanon.nonempty).mp hcanon.leading
    simp only [parse]
    rw [if_neg (not_or.mpr ⟨hcanon.nonempty, hfront⟩), hread,
      if_neg (not_or.mpr ⟨not_not.mpr rfl, not_not.mpr rfl⟩),
      fromChars_value hcanon.digits hcanon.nonempty hlt, hvalue, UInt64.ofNat_toNat]

example : (parse (ascii "18446744073709551615") : Option DeliverySeq) =
    some (of 18446744073709551615) := by decide +kernel
example : (parse (ascii "18446744073709551616") : Option DeliverySeq) = none := by decide +kernel
example : (parse (ascii "4x") : Option DeliverySeq) = none := by decide +kernel

theorem isSome_parse (text : Bytes) : (parse text : Option (DecimalSeq Tag)).isSome = true ↔
    Canonical text ∧ Decimal.value text < 2 ^ 64 := by
  rw [Option.isSome_iff_exists]
  constructor
  · rintro ⟨seq, h⟩
    obtain ⟨hcanon, hvalue⟩ := parse_eq_some.mp h
    exact ⟨hcanon, hvalue ▸ seq.value.toNat_lt⟩
  · rintro ⟨hcanon, hlt⟩
    exact ⟨of (UInt64.ofNat (Decimal.value text)),
      parse_eq_some.mpr ⟨hcanon, (Nat.mod_eq_of_lt hlt).symm⟩⟩

/-- What is printed is read back. -/
theorem parse_print (seq : DecimalSeq Tag) : parse seq.toDecimalString = some seq :=
  parse_eq_some.mpr ⟨canonical_print _, value_print _⟩

theorem toDecimalString_of_parse {text : Bytes} {seq : DecimalSeq Tag}
    (h : parse text = some seq) : seq.toDecimalString = text := by
  obtain ⟨hcanon, hvalue⟩ := parse_eq_some.mp h
  rw [toDecimalString, ← hvalue, print_value hcanon]

/-- **Parsing and printing are inverse on the canonical decimals below
`2 ^ 64`**, so a sequence number has one spelling. -/
theorem parse_toDecimalString_inverse :
    (∀ text : Bytes, (parse text : Option (DecimalSeq Tag)).isSome = true ↔
      ∃ n < 2 ^ 64, print n = text) ∧
    (∀ text : Bytes, (parse text : Option (DecimalSeq Tag)).isSome = true ↔
      Canonical text ∧ Decimal.value text < 2 ^ 64) ∧
    (∀ (text : Bytes) (seq : DecimalSeq Tag), parse text = some seq →
      print seq.value.toNat = text ∧ seq.toDecimalString = text) ∧
    (∀ n : UInt64, parse (of n : DecimalSeq Tag).toDecimalString = some (of n : DecimalSeq Tag)) ∧
    (∀ (s t : Bytes) (seq : DecimalSeq Tag), parse s = some seq → parse t = some seq → s = t) := by
  refine ⟨?_, isSome_parse, ?_, ?_, ?_⟩
  · intro text
    rw [isSome_parse]
    constructor
    · rintro ⟨hcanon, hlt⟩
      exact ⟨Decimal.value text, hlt, print_value hcanon⟩
    · rintro ⟨n, hn, rfl⟩
      exact ⟨canonical_print n, (value_print n).symm ▸ hn⟩
  · intro text seq h
    exact ⟨toDecimalString_of_parse h, toDecimalString_of_parse h⟩
  · intro n
    exact parse_print (of n)
  · intro s t seq hs ht
    rw [← toDecimalString_of_parse hs, toDecimalString_of_parse ht]

end DecimalSeq

end ChatHub.Contracts
