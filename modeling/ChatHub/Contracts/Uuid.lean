/-
# `ChatHub.Contracts.Uuid` — the positional check is a grammar

`isUuid` walks over 36 positions, with a hyphen at 8, 13, 18 and 23 and a test
of its own at 14 and 19.  On the wire a UUID is five groups of hexadecimal
digits with hyphens between them:

    8 digits - 4 digits - 4 digits - 4 digits - 12 digits
                          ^ 4        ^ 8, 9, a or b

`Grouped` says it this way, and `isUuid_iff` that it is the same.  The walk is
followed piece by piece: over a group no position is a hyphen position, between
two groups there is one (`chars_append`, `chars_group`).
-/
import ChatHub.Contracts.Ids
import Mathlib.Data.List.Basic

namespace ChatHub.Contracts

/-! ## The grammar -/

/-- A lower-case hexadecimal digit. -/
def HexDigit (c : UInt8) : Prop :=
  (chr '0' ≤ c ∧ c ≤ chr '9') ∨ (chr 'a' ≤ c ∧ c ≤ chr 'f')

/-- A group of `n` digits. -/
def Group (n : Nat) (g : Bytes) : Prop := g.length = n ∧ ∀ c ∈ g, HexDigit c

/-- Five groups with single hyphens between them; version and variant lead the
third and the fourth. -/
def Grouped (s : Bytes) : Prop :=
  ∃ a b c d e, s = [chr '-'].intercalate [a, b, c, d, e] ∧
    Group 8 a ∧ Group 4 b ∧ Group 4 c ∧ Group 4 d ∧ Group 12 e ∧
    c.head? = some (chr '4') ∧
    (d.head? = some (chr '8') ∨ d.head? = some (chr '9') ∨ d.head? = some (chr 'a') ∨
      d.head? = some (chr 'b'))

/-! ## The walk over a piece of the text -/

/-- Every character of `s` passes the test of its position, the first being at
position `i`. -/
def Chars : Nat → Bytes → Prop
  | _, [] => True
  | i, c :: r => uuidCharAt i c = true ∧ Chars (i + 1) r

theorem chars_append {i : Nat} {s r : Bytes} :
    Chars i (s ++ r) ↔ Chars i s ∧ Chars (i + s.length) r := by
  induction s generalizing i with
  | nil => exact ⟨fun h => ⟨trivial, h⟩, And.right⟩
  | cons c s ih =>
      rw [List.cons_append, Chars, Chars, ih, and_assoc, List.length_cons, Nat.add_comm s.length 1,
        ← Nat.add_assoc]

/-- The loop of `isUuid`, from position `i` on. -/
theorem chars_iff {i : Nat} {s : Bytes} :
    ((List.range s.length).all fun j => uuidCharAt (i + j) (s.getD j 0)) = true ↔ Chars i s := by
  induction s generalizing i with
  | nil => exact iff_of_true rfl trivial
  | cons c s ih =>
      have hshift : (fun j => uuidCharAt (i + (j + 1)) ((c :: s).getD (j + 1) 0)) =
          fun j => uuidCharAt (i + 1 + j) (s.getD j 0) := by
        funext j
        rw [Nat.add_assoc, Nat.add_comm 1 j, List.getD_cons_succ]
      rw [List.length_cons, List.range_succ_eq_map, List.all_cons, List.all_map, Bool.and_eq_true,
        Chars, List.getD_cons_zero, Nat.add_zero, ← ih]
      exact and_congr_right fun _ => iff_of_eq (congrArg (List.all _ · = true) hshift)

/-- The positions of the hyphens. -/
def IsHyphenPos (i : Nat) : Prop := i = 8 ∨ i = 13 ∨ i = 18 ∨ i = 23

theorem uuidCharAt_hyphen {i : Nat} {c : UInt8} (h : IsHyphenPos i) :
    uuidCharAt i c = true ↔ c = chr '-' := by
  rw [uuidCharAt, if_pos (by simpa [IsHyphenPos, or_assoc] using h), beq_iff_eq]

theorem uuidCharAt_digit {i : Nat} {c : UInt8} (h : ¬ IsHyphenPos i) :
    uuidCharAt i c = true ↔ HexDigit c := by
  rw [uuidCharAt, if_neg (by simpa [IsHyphenPos, or_assoc] using h)]
  simp only [Bool.or_eq_true, Bool.and_eq_true, decide_eq_true_eq]
  exact Iff.rfl

theorem chars_group {i : Nat} {g : Bytes}
    (h : ∀ j, i ≤ j → j < i + g.length → ¬ IsHyphenPos j) : Chars i g ↔ ∀ c ∈ g, HexDigit c := by
  induction g generalizing i with
  | nil => exact iff_of_true trivial (List.forall_mem_nil _)
  | cons c g ih =>
      have hlt : i < i + (c :: g).length := Nat.lt_add_of_pos_right (Nat.succ_pos _)
      rw [Chars, List.forall_mem_cons, uuidCharAt_digit (h i (Nat.le_refl i) hlt)]
      refine and_congr_right fun _ => ih fun j hij hj => h j (Nat.le_of_succ_le hij) ?_
      rw [List.length_cons]
      omega

theorem chars_hyphen {i : Nat} {c : UInt8} {r : Bytes} (h : IsHyphenPos i) :
    Chars i (c :: r) ↔ c = chr '-' ∧ Chars (i + 1) r := by
  rw [Chars, uuidCharAt_hyphen h]

/-! ## Taking a text of 36 characters apart -/

/-- A group, the character behind it, and the rest. -/
theorem exists_group {s : Bytes} {k n : Nat} (h : s.length = k + (n + 1)) :
    ∃ g c r, s = g ++ c :: r ∧ g.length = k ∧ r.length = n := by
  have hk : k < s.length := by omega
  refine ⟨s.take k, s[k], s.drop (k + 1), ?_, ?_, ?_⟩
  · rw [← List.drop_eq_getElem_cons hk, List.take_append_drop]
  · rw [List.length_take]
    omega
  · rw [List.length_drop]
    omega

/-- Indexing behind a group. -/
theorem getD_behind {g r : Bytes} {c : UInt8} {i n : Nat} (hi : i = g.length + 1 + n) :
    (g ++ c :: r).getD i 0 = r.getD n 0 := by
  rw [List.getD_eq_getElem?_getD, List.getD_eq_getElem?_getD, List.getElem?_append_right (by omega)]
  have hsub : i - g.length = n + 1 := by omega
  rw [hsub, List.getElem?_cons_succ]

theorem head?_eq_some_iff_getD {g r : Bytes} {c : UInt8} (hg : g ≠ []) :
    g.head? = some c ↔ (g ++ r).getD 0 0 = c := by
  cases g with
  | nil => exact absurd rfl hg
  | cons a g => simp

theorem isUuid_eq_true {s : Bytes} :
    isUuid s = true ↔ s.length = 36 ∧ Chars 0 s ∧ s.getD 14 0 = chr '4' ∧
      (s.getD 19 0 = chr '8' ∨ s.getD 19 0 = chr '9' ∨ s.getD 19 0 = chr 'a' ∨
        s.getD 19 0 = chr 'b') := by
  by_cases hlen : s.length = 36
  · have hloop : ((List.range 36).all fun i => uuidCharAt i (s.getD i 0)) = true ↔ Chars 0 s := by
      rw [← chars_iff, hlen]
      simp only [Nat.zero_add]
    rw [isUuid, if_neg (not_not.mpr hlen), ← hloop]
    cases (List.range 36).all fun i => uuidCharAt i (s.getD i 0) with
    | false => exact iff_of_false Bool.false_ne_true fun h => Bool.false_ne_true h.2.1
    | true =>
        rw [if_neg (by decide)]
        by_cases hversion : s.getD 14 0 = chr '4'
        · rw [if_neg (not_not.mpr hversion)]
          simp only [hlen, hversion, true_and]
          by_cases hvariant : s.getD 19 0 = chr '8' ∨ s.getD 19 0 = chr '9' ∨
              s.getD 19 0 = chr 'a' ∨ s.getD 19 0 = chr 'b'
          · rw [if_neg (by tauto)]
            exact iff_of_true rfl hvariant
          · rw [if_pos (by tauto)]
            exact iff_of_false Bool.false_ne_true hvariant
        · rw [if_pos hversion]
          exact iff_of_false Bool.false_ne_true fun h => hversion h.2.2.1
  · rw [isUuid, if_pos hlen]
    exact iff_of_false Bool.false_ne_true fun h => hlen h.1

/-! ## The two say the same -/

/-- On five groups with a character between each two. -/
theorem isUuid_pieces {a b c d e : Bytes} {x y z w : UInt8} (ha : a.length = 8) (hb : b.length = 4)
    (hc : c.length = 4) (hd : d.length = 4) (he : e.length = 12) :
    isUuid (a ++ x :: (b ++ y :: (c ++ z :: (d ++ w :: e)))) = true ↔
      ((∀ u ∈ a, HexDigit u) ∧ x = chr '-' ∧ (∀ u ∈ b, HexDigit u) ∧ y = chr '-' ∧
        (∀ u ∈ c, HexDigit u) ∧ z = chr '-' ∧ (∀ u ∈ d, HexDigit u) ∧ w = chr '-' ∧
        ∀ u ∈ e, HexDigit u) ∧
      c.head? = some (chr '4') ∧
      (d.head? = some (chr '8') ∨ d.head? = some (chr '9') ∨ d.head? = some (chr 'a') ∨
        d.head? = some (chr 'b')) := by
  have hlen : (a ++ x :: (b ++ y :: (c ++ z :: (d ++ w :: e)))).length = 36 := by
    simp [ha, hb, hc, hd, he]
  have hcne : c ≠ [] := List.ne_nil_of_length_eq_add_one hc
  have hdne : d ≠ [] := List.ne_nil_of_length_eq_add_one hd
  have h14 : (a ++ x :: (b ++ y :: (c ++ z :: (d ++ w :: e)))).getD 14 0 =
      (c ++ z :: (d ++ w :: e)).getD 0 0 := by
    rw [getD_behind (n := 5) (by omega), getD_behind (n := 0) (by omega)]
  have h19 : (a ++ x :: (b ++ y :: (c ++ z :: (d ++ w :: e)))).getD 19 0 =
      (d ++ w :: e).getD 0 0 := by
    rw [getD_behind (n := 10) (by omega), getD_behind (n := 5) (by omega),
      getD_behind (n := 0) (by omega)]
  rw [isUuid_eq_true, h14, h19, ← head?_eq_some_iff_getD hcne, ← head?_eq_some_iff_getD hdne,
    ← head?_eq_some_iff_getD hdne, ← head?_eq_some_iff_getD hdne, ← head?_eq_some_iff_getD hdne]
  simp only [hlen, true_and]
  refine and_congr_left fun _ => ?_
  rw [chars_append, chars_group, ha, chars_hyphen (.inl rfl), chars_append, chars_group, hb,
    chars_hyphen (.inr (.inl rfl)), chars_append, chars_group, hc,
    chars_hyphen (.inr (.inr (.inl rfl))), chars_append, chars_group, hd,
    chars_hyphen (.inr (.inr (.inr rfl))), chars_group]
  all_goals
    unfold IsHyphenPos
    omega

/-- **The check accepts the grammar.** -/
theorem isUuid_iff {s : Bytes} : isUuid s = true ↔ Grouped s := by
  constructor
  · intro h
    have hlen := isUuid_length h
    obtain ⟨a, x, r, rfl, ha, hr⟩ := exists_group (k := 8) (n := 27) hlen
    obtain ⟨b, y, r, rfl, hb, hr⟩ := exists_group (k := 4) (n := 22) hr
    obtain ⟨c, z, r, rfl, hc, hr⟩ := exists_group (k := 4) (n := 17) hr
    obtain ⟨d, w, e, rfl, hd, he⟩ := exists_group (k := 4) (n := 12) hr
    obtain ⟨⟨ha', rfl, hb', rfl, hc', rfl, hd', rfl, he'⟩, hversion, hvariant⟩ :=
      (isUuid_pieces ha hb hc hd he).mp h
    exact ⟨a, b, c, d, e, by simp [List.intercalate], ⟨ha, ha'⟩, ⟨hb, hb'⟩, ⟨hc, hc'⟩, ⟨hd, hd'⟩,
      ⟨he, he'⟩, hversion, hvariant⟩
  · rintro ⟨a, b, c, d, e, rfl, ⟨ha, ha'⟩, ⟨hb, hb'⟩, ⟨hc, hc'⟩, ⟨hd, hd'⟩, ⟨he, he'⟩, hversion,
      hvariant⟩
    have htext : [chr '-'].intercalate [a, b, c, d, e] =
        a ++ chr '-' :: (b ++ chr '-' :: (c ++ chr '-' :: (d ++ chr '-' :: e))) := by
      simp [List.intercalate]
    rw [htext, isUuid_pieces ha hb hc hd he]
    exact ⟨⟨ha', rfl, hb', rfl, hc', rfl, hd', rfl, he'⟩, hversion, hvariant⟩

end ChatHub.Contracts
