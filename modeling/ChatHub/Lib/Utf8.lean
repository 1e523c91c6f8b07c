/-
# `ChatHub.Lib.Utf8` — well-formed UTF-8, and the byte ranges it amounts to

A byte string is well-formed UTF-8 when it is the concatenation of the
encodings of Unicode scalar values.  Lean's `Char` is exactly the scalar values
(no surrogates, nothing above U+10FFFF) and `String.utf8EncodeChar` their
shortest-form encoding, so that is the definition (`WellFormed`).

A scanner never sees scalar values, it sees ranges of bytes.  `Shape` is the
table of well-formed byte sequences of one scalar value, and `shape_iff` says
that the table is right: its rows are the encodings, no more and no fewer.

    lead byte   second byte                         then
    00..7F
    C2..DF      80..BF
    E0..EF      80..BF, from A0 on after E0,        80..BF
                        up to 9F after ED
    F0..F4      80..BF, from 90 on after F0,        80..BF  80..BF
                        up to 8F after F4

`wellFormed_one` to `wellFormed_four` and `not_wellFormed` say what a scanner
has to check at a character boundary, one rule for each kind of lead byte.
-/
import Mathlib.Data.List.Basic

namespace Utf8

/-- The concatenation of the encodings of some scalar values. -/
def WellFormed (s : List UInt8) : Prop :=
  ∃ cs : List Char, cs.flatMap String.utf8EncodeChar = s

/-- A continuation byte. -/
def Tail (b : UInt8) : Prop := 0x80 ≤ b.toNat ∧ b.toNat ≤ 0xBF

/-- The byte sequences that encode one scalar value, by lead byte. -/
inductive Shape : List UInt8 → Prop
  | one {a : UInt8} : a.toNat ≤ 0x7F → Shape [a]
  | two {a b : UInt8} : 0xC2 ≤ a.toNat → a.toNat ≤ 0xDF → Tail b → Shape [a, b]
  | three {a b c : UInt8} : 0xE0 ≤ a.toNat → a.toNat ≤ 0xEF → Tail b → Tail c →
      (a.toNat = 0xE0 → 0xA0 ≤ b.toNat) → (a.toNat = 0xED → b.toNat ≤ 0x9F) → Shape [a, b, c]
  | four {a b c d : UInt8} : 0xF0 ≤ a.toNat → a.toNat ≤ 0xF4 → Tail b → Tail c → Tail d →
      (a.toNat = 0xF0 → 0x90 ≤ b.toNat) → (a.toNat = 0xF4 → b.toNat ≤ 0x8F) → Shape [a, b, c, d]

/-! ## The table is right -/

/-- What a scalar value can be. -/
theorem char_bounds (c : Char) :
    c.val.toNat < 0xD800 ∨ (0xDFFF < c.val.toNat ∧ c.val.toNat < 0x110000) :=
  c.valid

/-- The character with a given scalar value. -/
theorem exists_char {n : Nat} (h : n < 0xD800 ∨ (0xDFFF < n ∧ n < 0x110000)) :
    ∃ c : Char, c.val.toNat = n := by
  have hlt : n < UInt32.size := by
    simp only [UInt32.size]
    omega
  exact ⟨⟨UInt32.ofNat n, by simpa [UInt32.isValidChar, Nat.isValidChar, Nat.mod_eq_of_lt hlt] using h⟩,
    by simp [Nat.mod_eq_of_lt hlt]⟩

theorem shape_encode (c : Char) : Shape (String.utf8EncodeChar c) := by
  have hv := char_bounds c
  simp only [String.utf8EncodeChar]
  split
  · refine .one ?_
    simp only [UInt8.toNat_ofNat']
    omega
  · split
    · refine .two ?_ ?_ ⟨?_, ?_⟩ <;> simp only [UInt8.toNat_ofNat'] <;> omega
    · split
      · refine .three ?_ ?_ ⟨?_, ?_⟩ ⟨?_, ?_⟩ ?_ ?_ <;> simp only [UInt8.toNat_ofNat'] <;> omega
      · refine .four ?_ ?_ ⟨?_, ?_⟩ ⟨?_, ?_⟩ ⟨?_, ?_⟩ ?_ ?_ <;>
          simp only [UInt8.toNat_ofNat'] <;> omega

theorem exists_encode {s : List UInt8} (h : Shape s) :
    ∃ c : Char, String.utf8EncodeChar c = s := by
  cases h with
  | @one a ha =>
      obtain ⟨c, hc⟩ := exists_char (n := a.toNat) (by omega)
      refine ⟨c, ?_⟩
      simp only [String.utf8EncodeChar, hc, if_pos ha]
      simp
  | @two a b ha₁ ha₂ hb =>
      obtain ⟨hb₁, hb₂⟩ := hb
      obtain ⟨c, hc⟩ := exists_char (n := (a.toNat - 0xC0) * 64 + (b.toNat - 0x80)) (by omega)
      refine ⟨c, ?_⟩
      simp only [String.utf8EncodeChar, hc]
      rw [if_neg (by omega), if_pos (by omega)]
      simp only [List.cons.injEq, ← UInt8.toNat_inj, UInt8.toNat_ofNat', and_true]
      refine ⟨?_, ?_⟩ <;> omega
  | @three a b c ha₁ ha₂ hb hc h₁ h₂ =>
      obtain ⟨hb₁, hb₂⟩ := hb
      obtain ⟨hc₁, hc₂⟩ := hc
      obtain ⟨x, hx⟩ := exists_char
        (n := (a.toNat - 0xE0) * 4096 + (b.toNat - 0x80) * 64 + (c.toNat - 0x80)) (by omega)
      refine ⟨x, ?_⟩
      simp only [String.utf8EncodeChar, hx]
      rw [if_neg (by omega), if_neg (by omega), if_pos (by omega)]
      simp only [List.cons.injEq, ← UInt8.toNat_inj, UInt8.toNat_ofNat', and_true]
      refine ⟨?_, ?_, ?_⟩ <;> omega
  | @four a b c d ha₁ ha₂ hb hc hd h₁ h₂ =>
      obtain ⟨hb₁, hb₂⟩ := hb
      obtain ⟨hc₁, hc₂⟩ := hc
      obtain ⟨hd₁, hd₂⟩ := hd
      obtain ⟨x, hx⟩ := exists_char
        (n := (a.toNat - 0xF0) * 262144 + (b.toNat - 0x80) * 4096 + (c.toNat - 0x80) * 64
          + (d.toNat - 0x80)) (by omega)
      refine ⟨x, ?_⟩
      simp only [String.utf8EncodeChar, hx]
      rw [if_neg (by omega), if_neg (by omega), if_neg (by omega)]
      simp only [List.cons.injEq, ← UInt8.toNat_inj, UInt8.toNat_ofNat', and_true]
      refine ⟨?_, ?_, ?_, ?_⟩ <;> omega

/-- **The rows of the table are the encodings of the scalar values.** -/
theorem shape_iff {s : List UInt8} : Shape s ↔ ∃ c : Char, String.utf8EncodeChar c = s := by
  constructor
  · exact exists_encode
  · rintro ⟨c, rfl⟩
    exact shape_encode c

/-! ## Taking a well-formed string apart at its first scalar value -/

@[simp] theorem wellFormed_nil : WellFormed [] := ⟨[], rfl⟩

theorem WellFormed.append {s r : List UInt8} (hs : WellFormed s) (hr : WellFormed r) :
    WellFormed (s ++ r) := by
  obtain ⟨cs, rfl⟩ := hs
  obtain ⟨ds, rfl⟩ := hr
  exact ⟨cs ++ ds, by simp⟩

theorem Shape.wellFormed {s : List UInt8} (h : Shape s) : WellFormed s := by
  obtain ⟨c, rfl⟩ := shape_iff.mp h
  exact ⟨[c], by simp⟩

theorem WellFormed.split {b : UInt8} {w : List UInt8} (h : WellFormed (b :: w)) :
    ∃ s r, Shape s ∧ b :: w = s ++ r ∧ WellFormed r := by
  obtain ⟨cs, hcs⟩ := h
  cases cs with
  | nil => simp at hcs
  | cons c cs =>
      refine ⟨_, _, shape_encode c, ?_, ⟨cs, rfl⟩⟩
      rw [← hcs, List.flatMap_cons]

/-! ### One rule for each kind of lead byte

Read from left to right these are what a scanner does at a character boundary. -/

theorem wellFormed_one {a : UInt8} {w : List UInt8} (ha : a.toNat ≤ 0x7F) :
    WellFormed (a :: w) ↔ WellFormed w := by
  constructor
  · intro h
    obtain ⟨s, r, hs, heq, hr⟩ := h.split
    cases hs with
    | one => cases heq; exact hr
    | two h₁ => cases heq; omega
    | three h₁ => cases heq; omega
    | four h₁ => cases heq; omega
  · exact (Shape.one ha).wellFormed.append

/-- ASCII text is UTF-8. -/
theorem wellFormed_ascii {s : List UInt8} (h : ∀ b ∈ s, b.toNat ≤ 0x7F) : WellFormed s := by
  induction s with
  | nil => exact wellFormed_nil
  | cons a s ih =>
      exact (wellFormed_one (h a List.mem_cons_self)).mpr
        (ih fun b hb => h b (List.mem_cons_of_mem a hb))

/-- An ASCII literal, by evaluation. -/
theorem wellFormed_literal {s : List UInt8}
    (h : (s.all fun b => decide (b.toNat ≤ 0x7F)) = true) : WellFormed s :=
  wellFormed_ascii fun b hb => of_decide_eq_true (List.all_eq_true.mp h b hb)

theorem wellFormed_two {a : UInt8} {w : List UInt8} (h₁ : 0xC2 ≤ a.toNat) (h₂ : a.toNat ≤ 0xDF) :
    WellFormed (a :: w) ↔ ∃ b r, w = b :: r ∧ Tail b ∧ WellFormed r := by
  constructor
  · intro h
    obtain ⟨s, r, hs, heq, hr⟩ := h.split
    cases hs with
    | one => cases heq; omega
    | two _ _ hb => cases heq; exact ⟨_, _, rfl, hb, hr⟩
    | three h₃ => cases heq; omega
    | four h₃ => cases heq; omega
  · rintro ⟨b, r, rfl, hb, hr⟩
    exact (Shape.two h₁ h₂ hb).wellFormed.append hr

theorem wellFormed_three {a : UInt8} {w : List UInt8} (h₁ : 0xE0 ≤ a.toNat)
    (h₂ : a.toNat ≤ 0xEF) :
    WellFormed (a :: w) ↔ ∃ b c r, w = b :: c :: r ∧ Tail b ∧ Tail c ∧
      (a.toNat = 0xE0 → 0xA0 ≤ b.toNat) ∧ (a.toNat = 0xED → b.toNat ≤ 0x9F) ∧ WellFormed r := by
  constructor
  · intro h
    obtain ⟨s, r, hs, heq, hr⟩ := h.split
    cases hs with
    | one => cases heq; omega
    | two => cases heq; omega
    | three _ _ hb hc h₃ h₄ => cases heq; exact ⟨_, _, _, rfl, hb, hc, h₃, h₄, hr⟩
    | four h₃ => cases heq; omega
  · rintro ⟨b, c, r, rfl, hb, hc, h₃, h₄, hr⟩
    exact (Shape.three h₁ h₂ hb hc h₃ h₄).wellFormed.append hr

theorem wellFormed_four {a : UInt8} {w : List UInt8} (h₁ : 0xF0 ≤ a.toNat)
    (h₂ : a.toNat ≤ 0xF4) :
    WellFormed (a :: w) ↔ ∃ b c d r, w = b :: c :: d :: r ∧ Tail b ∧ Tail c ∧ Tail d ∧
      (a.toNat = 0xF0 → 0x90 ≤ b.toNat) ∧ (a.toNat = 0xF4 → b.toNat ≤ 0x8F) ∧ WellFormed r := by
  constructor
  · intro h
    obtain ⟨s, r, hs, heq, hr⟩ := h.split
    cases hs with
    | one => cases heq; omega
    | two => cases heq; omega
    | three => cases heq; omega
    | four _ _ hb hc hd h₃ h₄ => cases heq; exact ⟨_, _, _, _, rfl, hb, hc, hd, h₃, h₄, hr⟩
  · rintro ⟨b, c, d, r, rfl, hb, hc, hd, h₃, h₄, hr⟩
    exact (Shape.four h₁ h₂ hb hc hd h₃ h₄).wellFormed.append hr

/-- No other byte starts a scalar value. -/
theorem not_wellFormed {a : UInt8} {w : List UInt8} (h₁ : 0x7F < a.toNat)
    (h₂ : ¬(0xC2 ≤ a.toNat ∧ a.toNat ≤ 0xF4)) : ¬ WellFormed (a :: w) := by
  intro h
  obtain ⟨s, r, hs, heq, -⟩ := h.split
  cases hs with
  | one => cases heq; omega
  | two => cases heq; omega
  | three => cases heq; omega
  | four => cases heq; omega

/-! ## The scalar values of a string

The encodings form a prefix code: the first scalar value of a byte string and
what follows it are determined, and with them the whole list. -/

theorem encode_append_inj {c d : Char} {x y : List UInt8}
    (h : String.utf8EncodeChar c ++ x = String.utf8EncodeChar d ++ y) : c = d ∧ x = y := by
  have hc : ((String.utf8EncodeChar c ++ x).toByteArray.utf8DecodeChar? 0) = some c := by
    rw [List.toByteArray_append]
    exact ByteArray.utf8DecodeChar?_utf8EncodeChar_append
  have hd : ((String.utf8EncodeChar d ++ y).toByteArray.utf8DecodeChar? 0) = some d := by
    rw [List.toByteArray_append]
    exact ByteArray.utf8DecodeChar?_utf8EncodeChar_append
  rw [h, hd] at hc
  have hcd : d = c := Option.some.inj hc
  subst hcd
  exact ⟨rfl, List.append_cancel_left h⟩

theorem encode_ne_nil (c : Char) : String.utf8EncodeChar c ≠ [] := by
  intro h
  have hs := shape_encode c
  rw [h] at hs
  cases hs

/-- **A byte string is the encoding of at most one list of scalar values.** -/
theorem encode_injective {cs ds : List Char}
    (h : cs.flatMap String.utf8EncodeChar = ds.flatMap String.utf8EncodeChar) : cs = ds := by
  induction cs generalizing ds with
  | nil =>
      cases ds with
      | nil => rfl
      | cons d ds => exact absurd (List.append_eq_nil_iff.mp h.symm).1 (encode_ne_nil d)
  | cons c cs ih =>
      cases ds with
      | nil => exact absurd (List.append_eq_nil_iff.mp h).1 (encode_ne_nil c)
      | cons d ds =>
          obtain ⟨rfl, hrest⟩ := encode_append_inj h
          rw [ih hrest]

/-- Behind a well-formed prefix a well-formed string is at a boundary. -/
theorem WellFormed.of_append {p r : List UInt8} (hp : WellFormed p) (h : WellFormed (p ++ r)) :
    WellFormed r := by
  obtain ⟨cs, rfl⟩ := hp
  obtain ⟨ds, hds⟩ := h
  induction cs generalizing ds with
  | nil => exact ⟨ds, hds⟩
  | cons c cs ih =>
      rw [List.flatMap_cons, List.append_assoc] at hds
      cases ds with
      | nil => exact absurd (List.append_eq_nil_iff.mp hds.symm).1 (encode_ne_nil c)
      | cons d ds => exact ih ds (encode_append_inj hds).2

/-- Where no scalar value starts, nothing saves the string. -/
theorem not_wellFormed_append {p r : List UInt8} (hp : WellFormed p) (hr : r ≠ [])
    (h : ∀ c t, r ≠ String.utf8EncodeChar c ++ t) : ¬ WellFormed (p ++ r) := by
  intro hw
  obtain ⟨cs, rfl⟩ := hp.of_append hw
  cases cs with
  | nil => exact hr rfl
  | cons c cs => exact h c _ rfl

end Utf8
