/-
# `ChatHub.Contracts.AccountName` — account names, kept in lower case

`ids.hpp`: an account name is 4 to 32 ASCII letters and digits, the first a
letter.  Parsing stores it in lower case, so that comparing stored values is
comparing names without regard to case.

    accepted   [A-Za-z][A-Za-z0-9]{3,31}        (`Accepted`)
    stored     [a-z][a-z0-9]{3,31}              (`Normal`, the invariant of the type)

Whether `char` is signed is up to the compiler, and the range tests compare
promoted characters.  So the functions take it as a parameter, and the results
hold for both: between two ASCII bounds there is no difference (`between_iff`).
-/
import ChatHub.Lib.Decimal
import ChatHub.Contracts.Ids
import Mathlib.Data.List.Forall2

namespace ChatHub.Contracts

open Decimal

/-! ## Characters -/

/-- The `int` a `char` is promoted to. -/
def promote (signed : Bool) (c : UInt8) : Int :=
  if signed = true ∧ 128 ≤ c.toNat then (c.toNat : Int) - 256 else c.toNat

/-- `lo <= c && c <= hi`. -/
def between (signed : Bool) (lo c hi : UInt8) : Bool :=
  decide (promote signed lo ≤ promote signed c) && decide (promote signed c ≤ promote signed hi)

def letter (signed : Bool) (c : UInt8) : Bool :=
  between signed (chr 'A') c (chr 'Z') || between signed (chr 'a') c (chr 'z')

def alnum (signed : Bool) (c : UInt8) : Bool :=
  letter signed c || between signed (chr '0') c (chr '9')

/-- `static_cast<char>`. -/
def narrow (n : Int) : UInt8 := UInt8.ofNat (n % 256).toNat

/-- The loop body of `toLowerAscii`. -/
def lowerChar (signed : Bool) (c : UInt8) : UInt8 :=
  if between signed (chr 'A') c (chr 'Z') = true then
    narrow (promote signed c - promote signed (chr 'A') + promote signed (chr 'a'))
  else c

def isAccountName (signed : Bool) (name : Bytes) : Bool :=
  if name.length < 4 ∨ 32 < name.length then false
  else if !letter signed (name.headD 0) then false
  else (name.drop 1).all (alnum signed)

/-! ### What the characters are -/

def IsUpper (c : UInt8) : Prop := 65 ≤ c.toNat ∧ c.toNat ≤ 90

def IsLower (c : UInt8) : Prop := 97 ≤ c.toNat ∧ c.toNat ≤ 122

def IsLetter (c : UInt8) : Prop := IsUpper c ∨ IsLower c

theorem promote_ascii {signed : Bool} {c : UInt8} (h : c.toNat < 128) :
    promote signed c = c.toNat :=
  if_neg fun hc => Nat.not_le_of_lt h hc.2

/-- A signed character outside ASCII is negative. -/
theorem promote_cases (signed : Bool) (c : UInt8) :
    promote signed c = c.toNat ∨ (128 ≤ c.toNat ∧ promote signed c < 0) := by
  have hc := c.toNat_lt
  by_cases h : signed = true ∧ 128 ≤ c.toNat
  · refine .inr ⟨h.2, ?_⟩
    rw [promote, if_pos h]
    omega
  · exact .inl (if_neg h)

/-- A range test between ASCII bounds does not see whether `char` is signed. -/
theorem between_iff {signed : Bool} {lo c hi : UInt8} (hlo : lo.toNat < 128)
    (hhi : hi.toNat < 128) :
    between signed lo c hi = true ↔ lo.toNat ≤ c.toNat ∧ c.toNat ≤ hi.toNat := by
  rw [between, Bool.and_eq_true, decide_eq_true_eq, decide_eq_true_eq, promote_ascii hlo,
    promote_ascii hhi]
  rcases promote_cases signed c with h | ⟨h₁, h₂⟩
  · rw [h, Int.ofNat_le, Int.ofNat_le]
  · omega

theorem letter_iff {signed : Bool} {c : UInt8} : letter signed c = true ↔ IsLetter c := by
  rw [letter, Bool.or_eq_true, between_iff (by decide) (by decide),
    between_iff (by decide) (by decide)]
  exact Iff.rfl

theorem alnum_iff {signed : Bool} {c : UInt8} :
    alnum signed c = true ↔ IsLetter c ∨ IsDigit c := by
  rw [alnum, Bool.or_eq_true, letter_iff, between_iff (by decide) (by decide)]
  exact Iff.rfl

theorem lowerChar_of_isUpper {signed : Bool} {c : UInt8} (h : IsUpper c) :
    (lowerChar signed c).toNat = c.toNat + 32 := by
  obtain ⟨h₁, h₂⟩ := h
  have hrange : between signed (chr 'A') c (chr 'Z') = true :=
    (between_iff (by decide) (by decide)).mpr ⟨h₁, h₂⟩
  have hA : ((chr 'A').toNat : Int) = 65 := rfl
  have ha : ((chr 'a').toNat : Int) = 97 := rfl
  rw [lowerChar, if_pos hrange, promote_ascii (c := c) (by omega), promote_ascii (by decide),
    promote_ascii (by decide), hA, ha]
  simp only [narrow, UInt8.toNat_ofNat']
  omega

theorem lowerChar_of_not_isUpper {signed : Bool} {c : UInt8} (h : ¬ IsUpper c) :
    lowerChar signed c = c := by
  refine if_neg fun hb => h ?_
  rw [between_iff (by decide) (by decide)] at hb
  exact hb

/-- The loop computes `toLowerAscii`, signed or not. -/
theorem map_lowerChar (signed : Bool) (text : Bytes) :
    text.map (lowerChar signed) = toLowerAscii text := by
  refine List.map_congr_left fun c _ => ?_
  by_cases h : IsUpper c
  · have hrange : chr 'A' ≤ c ∧ c ≤ chr 'Z' := h
    rw [if_pos hrange]
    refine UInt8.toNat_inj.mp ?_
    rw [lowerChar_of_isUpper h]
    obtain ⟨h₁, h₂⟩ := h
    have hA : (chr 'A').toNat = 65 := rfl
    have ha : (chr 'a').toNat = 97 := rfl
    rw [UInt8.toNat_add, UInt8.toNat_sub_of_le _ _ hrange.1, hA, ha]
    omega
  · rw [lowerChar_of_not_isUpper h]
    exact (if_neg h).symm

/-! ## Names -/

/-- What the check accepts. -/
structure Accepted (name : Bytes) : Prop where
  four_le : 4 ≤ name.length
  le_32 : name.length ≤ 32
  chars : ∀ c ∈ name, IsLetter c ∨ IsDigit c
  front : ∀ c ∈ name.head?, IsLetter c

/-- An accepted name without upper-case letters. -/
structure Normal (name : Bytes) : Prop extends Accepted name where
  lower : ∀ c ∈ name, ¬ IsUpper c

theorem isAccountName_iff {signed : Bool} {name : Bytes} :
    isAccountName signed name = true ↔ Accepted name := by
  cases name with
  | nil => exact ⟨fun h => absurd h Bool.false_ne_true, fun h => absurd h.four_le (Nat.not_succ_le_zero 3)⟩
  | cons a r =>
      rw [isAccountName]
      split
      · rename_i hlen
        refine ⟨fun h => absurd h Bool.false_ne_true, fun h => absurd hlen ?_⟩
        rintro (h4 | h32)
        · exact Nat.not_le_of_lt h4 h.four_le
        · exact Nat.not_le_of_lt h32 h.le_32
      · rename_i hlen
        obtain ⟨h4, h32⟩ := not_or.mp hlen
        split
        · rename_i hfront
          refine ⟨fun h => absurd h Bool.false_ne_true, fun h => ?_⟩
          have ha : letter signed a = true := letter_iff.mpr (h.front a rfl)
          rw [List.headD_cons, ha] at hfront
          cases hfront
        · rename_i hfront
          have ha : IsLetter a := by
            refine letter_iff.mp (?_ : letter signed a = true)
            simpa using hfront
          rw [List.drop_one, List.tail_cons, List.all_eq_true]
          constructor
          · intro h
            refine ⟨Nat.le_of_not_lt h4, Nat.le_of_not_lt h32, ?_, ?_⟩
            · exact List.forall_mem_cons.mpr ⟨.inl ha, fun c hc => alnum_iff.mp (h c hc)⟩
            · intro c hc
              cases hc
              exact ha
          · intro h c hc
            exact alnum_iff.mpr (h.chars c (List.mem_cons_of_mem a hc))

/-! ### Lower case -/

theorem lowerChar_not_isUpper {signed : Bool} (c : UInt8) : ¬ IsUpper (lowerChar signed c) := by
  by_cases h : IsUpper c
  · rintro ⟨-, h₂⟩
    rw [lowerChar_of_isUpper h] at h₂
    obtain ⟨h₁, -⟩ := h
    omega
  · rwa [lowerChar_of_not_isUpper h]

theorem isLetter_lowerChar {signed : Bool} {c : UInt8} (h : IsLetter c) :
    IsLetter (lowerChar signed c) := by
  by_cases hc : IsUpper c
  · refine .inr ?_
    rw [IsLower, lowerChar_of_isUpper hc]
    obtain ⟨h₁, h₂⟩ := hc
    omega
  · rwa [lowerChar_of_not_isUpper hc]

theorem isDigit_lowerChar {signed : Bool} {c : UInt8} (h : IsDigit c) :
    IsDigit (lowerChar signed c) := by
  have hc : ¬ IsUpper c := by
    rintro ⟨h₁, -⟩
    obtain ⟨-, h₂⟩ := h
    omega
  rwa [lowerChar_of_not_isUpper hc]

theorem Accepted.normal {name : Bytes} (signed : Bool) (h : Accepted name) :
    Normal (name.map (lowerChar signed)) where
  four_le := by
    rw [List.length_map]
    exact h.four_le
  le_32 := by
    rw [List.length_map]
    exact h.le_32
  chars := by
    intro c hc
    obtain ⟨d, hd, rfl⟩ := List.mem_map.mp hc
    exact (h.chars d hd).imp isLetter_lowerChar isDigit_lowerChar
  front := by
    intro c hc
    rw [List.head?_map] at hc
    obtain ⟨d, hd, rfl⟩ := Option.map_eq_some_iff.mp hc
    exact isLetter_lowerChar (h.front d hd)
  lower := by
    intro c hc
    obtain ⟨d, -, rfl⟩ := List.mem_map.mp hc
    exact lowerChar_not_isUpper d

/-- Lower-casing leaves a stored name as it is. -/
theorem Normal.map_lowerChar {name : Bytes} (signed : Bool) (h : Normal name) :
    name.map (lowerChar signed) = name :=
  (List.map_congr_left fun c hc => lowerChar_of_not_isUpper (h.lower c hc)).trans (List.map_id' name)

/-! ### Equal up to case -/

/-- The same character, or the two cases of one letter. -/
def SameChar (a b : UInt8) : Prop :=
  a = b ∨ (IsUpper a ∧ b.toNat = a.toNat + 32) ∨ (IsUpper b ∧ a.toNat = b.toNat + 32)

/-- Equal up to ASCII letter case. -/
def SameUpToCase (x y : Bytes) : Prop := List.Forall₂ SameChar x y

theorem lowerChar_eq_iff {signed : Bool} {a b : UInt8} :
    lowerChar signed a = lowerChar signed b ↔ SameChar a b := by
  rw [SameChar, ← UInt8.toNat_inj, ← UInt8.toNat_inj]
  by_cases ha : IsUpper a
  · by_cases hb : IsUpper b
    · rw [lowerChar_of_isUpper ha, lowerChar_of_isUpper hb]
      obtain ⟨ha₁, ha₂⟩ := ha
      obtain ⟨hb₁, hb₂⟩ := hb
      omega
    · rw [lowerChar_of_isUpper ha, lowerChar_of_not_isUpper hb]
      constructor
      · intro h
        exact .inr (.inl ⟨ha, h.symm⟩)
      · rintro (h | ⟨-, h⟩ | ⟨h, -⟩)
        · exact absurd (UInt8.toNat_inj.mp h ▸ ha) hb
        · exact h.symm
        · exact absurd h hb
  · by_cases hb : IsUpper b
    · rw [lowerChar_of_not_isUpper ha, lowerChar_of_isUpper hb]
      constructor
      · intro h
        exact .inr (.inr ⟨hb, h⟩)
      · rintro (h | ⟨h, -⟩ | ⟨-, h⟩)
        · exact absurd (UInt8.toNat_inj.mp h ▸ hb) ha
        · exact absurd h ha
        · exact h
    · rw [lowerChar_of_not_isUpper ha, lowerChar_of_not_isUpper hb]
      constructor
      · exact .inl
      · rintro (h | ⟨h, -⟩ | ⟨h, -⟩)
        · exact h
        · exact absurd h ha
        · exact absurd h hb

theorem map_lowerChar_eq_iff {signed : Bool} {x y : Bytes} :
    x.map (lowerChar signed) = y.map (lowerChar signed) ↔ SameUpToCase x y := by
  rw [SameUpToCase, ← List.forall₂_eq_eq_eq, List.forall₂_map_left_iff, List.forall₂_map_right_iff]
  simp only [lowerChar_eq_iff]

/-- An account name as it is stored. -/
structure AccountName where
  value : Bytes
  normal : Normal value

namespace AccountName

def parse (signed : Bool) (name : Bytes) : Option AccountName :=
  if h : isAccountName signed name = true then
    some ⟨name.map (lowerChar signed), (isAccountName_iff.mp h).normal signed⟩
  else none

theorem ext {m n : AccountName} (h : m.value = n.value) : m = n := by
  cases m
  cases n
  cases h
  rfl

theorem parse_eq_some {signed : Bool} {x : Bytes} {n : AccountName} :
    parse signed x = some n ↔ Accepted x ∧ n.value = x.map (lowerChar signed) := by
  rw [parse]
  constructor
  · intro h
    split at h
    · rename_i hx
      cases h
      exact ⟨isAccountName_iff.mp hx, rfl⟩
    · cases h
  · rintro ⟨hx, hvalue⟩
    rw [dif_pos (isAccountName_iff.mpr hx)]
    exact congrArg some (ext hvalue.symm)

/-- A stored name parses to itself. -/
theorem parse_value (signed : Bool) (n : AccountName) : parse signed n.value = some n :=
  parse_eq_some.mpr ⟨n.normal.toAccepted, (n.normal.map_lowerChar signed).symm⟩

/-- Stored names have no upper-case letters. -/
theorem value_chars (n : AccountName) : ∀ c ∈ n.value, IsLower c ∨ IsDigit c := by
  intro c hc
  rcases n.normal.chars c hc with (h | h) | h
  · exact absurd h (n.normal.lower c hc)
  · exact .inl h
  · exact .inr h

/-- **One stored value for each name up to case**, and every stored value is
itself an accepted name. -/
theorem parse_decides_identity (signed : Bool) :
    (∀ x : Bytes, (parse signed x).isSome = true ↔
      4 ≤ x.length ∧ x.length ≤ 32 ∧ (∀ c ∈ x, IsLetter c ∨ IsDigit c) ∧
        ∀ c ∈ x.head?, IsLetter c) ∧
    (∀ (x : Bytes) (n : AccountName), parse signed x = some n →
      (∀ c ∈ n.value, IsLower c ∨ IsDigit c) ∧ n.value.length = x.length ∧
        n.value = toLowerAscii x ∧ parse signed n.value = some n) ∧
    (∀ (x y : Bytes) (m n : AccountName), parse signed x = some m → parse signed y = some n →
      (m.value = n.value ↔ SameUpToCase x y)) := by
  refine ⟨?_, ?_, ?_⟩
  · intro x
    rw [Option.isSome_iff_exists]
    constructor
    · rintro ⟨n, h⟩
      obtain ⟨hx, -⟩ := parse_eq_some.mp h
      exact ⟨hx.four_le, hx.le_32, hx.chars, hx.front⟩
    · rintro ⟨h4, h32, hchars, hfront⟩
      have hx : Accepted x := ⟨h4, h32, hchars, hfront⟩
      exact ⟨⟨_, hx.normal signed⟩, parse_eq_some.mpr ⟨hx, rfl⟩⟩
  · intro x n h
    obtain ⟨-, hvalue⟩ := parse_eq_some.mp h
    refine ⟨n.value_chars, ?_, ?_, n.parse_value signed⟩
    · rw [hvalue, List.length_map]
    · rw [hvalue, map_lowerChar]
  · intro x y m n hx hy
    rw [(parse_eq_some.mp hx).2, (parse_eq_some.mp hy).2, map_lowerChar_eq_iff]

end AccountName

end ChatHub.Contracts
