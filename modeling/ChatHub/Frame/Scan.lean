/-
# `ChatHub.Frame.Scan` — `isValidUtf8` accepts exactly well-formed UTF-8

The scan of the code stands at a character boundary at every turn of its loop.
So the invariant is about the unread part alone: from index `i` it reads inside
the text only, and answers whether `data.drop i` is well-formed (`scanUtf8_eq`).
One turn is one of the rules of `ChatHub.Lib.Utf8`, picked by the lead byte.

What it accepts are the encodings of lists of scalar values, each of one list
(`isValidUtf8_iff_encoding`).
-/
import ChatHub.Lib.Utf8
import ChatHub.Contracts.Frame

namespace ChatHub.Contracts

open Utf8

/-! ## Bytes as the code compares them -/

/-- The continuation test by mask is the one by range. -/
theorem continuation_iff (b : UInt8) : (b &&& 0xC0 == 0x80) = true ↔ Tail b := by
  have key : ∀ n : Fin 256, n.val &&& 0xC0 = 0x80 ↔ 0x80 ≤ n.val ∧ n.val ≤ 0xBF := by
    decide +kernel
  have hb := key ⟨b.toNat, b.toNat_lt⟩
  simp only [Tail, beq_iff_eq, ← UInt8.toNat_inj, UInt8.toNat_and]
  exact hb

theorem leadLength_cases (c : UInt8) :
    (leadLength c = some 2 ∧ 0xC2 ≤ c.toNat ∧ c.toNat ≤ 0xDF) ∨
    (leadLength c = some 3 ∧ 0xE0 ≤ c.toNat ∧ c.toNat ≤ 0xEF) ∨
    (leadLength c = some 4 ∧ 0xF0 ≤ c.toNat ∧ c.toNat ≤ 0xF4) ∨
    (leadLength c = none ∧ ¬(0xC2 ≤ c.toNat ∧ c.toNat ≤ 0xF4)) := by
  simp only [leadLength, UInt8.le_iff_toNat_le, UInt8.reduceToNat]
  split
  · simp_all
  · split
    · simp_all
    · split
      · simp_all
      · refine .inr (.inr (.inr ⟨rfl, ?_⟩))
        omega

theorem two_le_of_leadLength {c : UInt8} {n : Nat} (h : leadLength c = some n) : 2 ≤ n := by
  rcases leadLength_cases c with ⟨h', -⟩ | ⟨h', -⟩ | ⟨h', -⟩ | ⟨h', -⟩
  · cases h.symm.trans h'
    exact Nat.le_refl 2
  · cases h.symm.trans h'
    exact Nat.le_succ 2
  · cases h.symm.trans h'
    exact Nat.le_add_left 2 2
  · cases h.symm.trans h'

theorem not_lead_of_leadLength {c : UInt8} (h : leadLength c = none) :
    ¬(0xC2 ≤ c.toNat ∧ c.toNat ≤ 0xF4) := by
  rcases leadLength_cases c with ⟨h', -⟩ | ⟨h', -⟩ | ⟨h', -⟩ | ⟨-, hno⟩
  · cases h.symm.trans h'
  · cases h.symm.trans h'
  · cases h.symm.trans h'
  · exact hno

/-! ## One turn of the scan, by lead byte

Each rule is the turn at a boundary where the unread part is `a :: w`. -/

section Turn
variable {data : Bytes} {i : Nat} {a : UInt8} {w : Bytes}

theorem getElem?_of_drop (h : data.drop i = a :: w) (j : Nat) : data[i + j]? = (a :: w)[j]? := by
  rw [← h, List.getElem?_drop]

theorem lt_of_drop (h : data.drop i = a :: w) : i < data.length := by
  by_contra hge
  rw [List.drop_eq_nil_of_le (by omega)] at h
  cases h

theorem length_of_drop (h : data.drop i = a :: w) : data.length = i + (w.length + 1) := by
  have := congrArg List.length h
  simp only [List.length_drop, List.length_cons] at this
  have := lt_of_drop h
  omega

theorem scanUtf8_ascii (h : data.drop i = a :: w) (ha : a.toNat ≤ 0x7F) :
    scanUtf8 data i = scanUtf8 data (i + 1) := by
  have hread : data[i]? = some a := by simpa using getElem?_of_drop h 0
  rw [scanUtf8, dif_pos (lt_of_drop h), hread]
  simp [UInt8.le_iff_toNat_le, ha]

theorem scanUtf8_lead_none (h : data.drop i = a :: w) (ha : 0x7F < a.toNat)
    (hl : leadLength a = none) : scanUtf8 data i = some false := by
  have hread : data[i]? = some a := by simpa using getElem?_of_drop h 0
  rw [scanUtf8, dif_pos (lt_of_drop h), hread]
  simp only [UInt8.le_iff_toNat_le, UInt8.reduceToNat]
  rw [if_neg (by omega)]
  split <;> simp_all

/-- The reads of the tail loop succeed while the text lasts. -/
theorem allM_tails (v w : Bytes) (k : Nat) (hk : k ≤ w.length) :
    ((List.range' v.length k).allM fun j => do
      let b ← (v ++ w)[j]?
      return b &&& 0xC0 == 0x80) = some ((w.take k).all fun b => b &&& 0xC0 == 0x80) := by
  induction k generalizing v w with
  | zero => simp
  | succ k ih =>
      match w, hk with
      | b :: w, hk =>
          have hread : (v ++ b :: w)[v.length]? = some b := by simp
          have hrest := ih (v ++ [b]) w (by simpa using hk)
          simp only [List.append_assoc, List.singleton_append, List.length_append,
            List.length_singleton] at hrest
          simp only [List.range'_succ, List.allM, hread, List.take_succ_cons, List.all_cons]
          cases hb : b &&& 0xC0 == 0x80 with
          | false => simp [hb]
          | true => simpa [hb] using hrest

/-- The tests of the second byte, as ranges. -/
def SecondOk (a b : UInt8) : Prop :=
  (a.toNat = 0xE0 → 0xA0 ≤ b.toNat) ∧ (a.toNat = 0xED → b.toNat ≤ 0x9F) ∧
    (a.toNat = 0xF0 → 0x90 ≤ b.toNat) ∧ (a.toNat = 0xF4 → b.toNat ≤ 0x8F)

theorem scanUtf8_truncated {n : Nat} (h : data.drop i = a :: w) (ha : 0x7F < a.toNat)
    (hl : leadLength a = some n) (hw : w.length + 1 < n) : scanUtf8 data i = some false := by
  have hread : data[i]? = some a := by simpa using getElem?_of_drop h 0
  have hlen := length_of_drop h
  rw [scanUtf8, dif_pos (lt_of_drop h), hread]
  simp only [UInt8.le_iff_toNat_le, UInt8.reduceToNat]
  rw [if_neg (by omega)]
  split
  · simp_all
  · rename_i m hm
    rw [hl] at hm
    cases hm
    rw [if_pos (by omega)]

theorem scanUtf8_lead {n : Nat} {b : UInt8} (h : data.drop i = a :: b :: w) (ha : 0x7F < a.toNat)
    (hl : leadLength a = some n) (hw : n ≤ w.length + 2) :
    (scanUtf8 data i = scanUtf8 data (i + n) ∧
        (∀ c ∈ (b :: w).take (n - 1), Tail c) ∧ SecondOk a b) ∨
      (scanUtf8 data i = some false ∧
        ¬ ((∀ c ∈ (b :: w).take (n - 1), Tail c) ∧ SecondOk a b)) := by
  have hread : data[i]? = some a := by simpa using getElem?_of_drop h 0
  have hsecond : data[i + 1]? = some b := by simpa using getElem?_of_drop h 1
  have hlen := length_of_drop h
  have htails := allM_tails [a] (b :: w) (n - 1) (by simp only [List.length_cons]; omega)
  rw [scanUtf8, dif_pos (lt_of_drop h), hread]
  simp only [UInt8.le_iff_toNat_le, UInt8.reduceToNat]
  rw [if_neg (by omega)]
  split
  · simp_all
  · rename_i m hm
    rw [hl] at hm
    cases hm
    simp only [List.length_cons] at hlen
    rw [if_neg (by omega)]
    simp only [getElem?_of_drop h, List.singleton_append, List.length_singleton] at htails ⊢
    rw [htails]
    have hall : (((b :: w).take (n - 1)).all fun c => c &&& 0xC0 == 0x80) = true ↔
        ∀ c ∈ (b :: w).take (n - 1), Tail c := by
      simp only [List.all_eq_true, continuation_iff]
    cases ht : ((b :: w).take (n - 1)).all fun c => c &&& 0xC0 == 0x80 with
    | false =>
        refine .inr ⟨by simp, ?_⟩
        intro hno
        rw [hall.mpr hno.1] at ht
        cases ht
    | true =>
        have hok := hall.mp ht
        simp only [SecondOk, Option.bind_eq_bind, Option.bind_some, List.getElem?_cons_succ,
          List.getElem?_cons_zero, Bool.not_true, Bool.false_eq_true, if_false, Bool.and_eq_true,
          beq_iff_eq, decide_eq_true_eq, ← UInt8.toNat_inj, UInt8.lt_iff_toNat_lt,
          UInt8.reduceToNat, gt_iff_lt, Option.pure_def]
        -- the four tests of the second byte, in the order of the code
        split
        · refine .inr ⟨rfl, ?_⟩
          rintro ⟨-, hE0, -⟩
          omega
        · split
          · refine .inr ⟨rfl, ?_⟩
            rintro ⟨-, -, hED, -⟩
            omega
          · split
            · refine .inr ⟨rfl, ?_⟩
              rintro ⟨-, -, -, hF0, -⟩
              omega
            · split
              · refine .inr ⟨rfl, ?_⟩
                rintro ⟨-, -, -, -, hF4⟩
                omega
              · exact .inl ⟨rfl, hok, by omega⟩

end Turn

/-! ## The whole scan -/

/-- The rules of `ChatHub.Lib.Utf8` for lead bytes, in the terms of the scan. -/
theorem wellFormed_lead {a : UInt8} {w : Bytes} {n : Nat} (hl : leadLength a = some n) :
    WellFormed (a :: w) ↔ ∃ b r, w = b :: r ∧ n ≤ r.length + 2 ∧
      ((∀ c ∈ w.take (n - 1), Tail c) ∧ SecondOk a b) ∧ WellFormed (w.drop (n - 1)) := by
  rcases leadLength_cases a with ⟨h, h₁, h₂⟩ | ⟨h, h₁, h₂⟩ | ⟨h, h₁, h₂⟩ | ⟨h, -⟩
  · rw [hl] at h
    cases h
    rw [wellFormed_two h₁ h₂]
    constructor
    · rintro ⟨b, r, rfl, hb, hr⟩
      exact ⟨b, r, rfl, by omega, ⟨by simpa using hb, by unfold SecondOk; omega⟩, hr⟩
    · rintro ⟨b, r, rfl, -, ⟨ht, -⟩, hr⟩
      exact ⟨b, r, rfl, ht b (by simp), hr⟩
  · rw [hl] at h
    cases h
    rw [wellFormed_three h₁ h₂]
    constructor
    · rintro ⟨b, c, r, rfl, hb, hc, h₃, h₄, hr⟩
      exact ⟨b, c :: r, rfl, by simp, ⟨by simpa using ⟨hb, hc⟩, h₃, h₄, by omega, by omega⟩, hr⟩
    · rintro ⟨b, r, rfl, hlen, ⟨ht, hs⟩, hr⟩
      match r, hlen with
      | c :: r, _ => exact ⟨b, c, r, rfl, ht b (by simp), ht c (by simp), hs.1, hs.2.1, hr⟩
  · rw [hl] at h
    cases h
    rw [wellFormed_four h₁ h₂]
    constructor
    · rintro ⟨b, c, d, r, rfl, hb, hc, hd, h₃, h₄, hr⟩
      exact ⟨b, c :: d :: r, rfl, by simp,
        ⟨by simpa using ⟨hb, hc, hd⟩, by omega, by omega, h₃, h₄⟩, hr⟩
    · rintro ⟨b, r, rfl, hlen, ⟨ht, hs⟩, hr⟩
      match r, hlen with
      | c :: d :: r, _ =>
          exact ⟨b, c, d, r, rfl, ht b (by simp), ht c (by simp), ht d (by simp),
            hs.2.2.1, hs.2.2.2, hr⟩
  · rw [hl] at h
    cases h

/-- One turn of the scan passes a character, or finds that there is none. -/
theorem scanUtf8_turn {data : Bytes} {i : Nat} {a : UInt8} {w : Bytes} (h : data.drop i = a :: w) :
    (∃ k, 0 < k ∧ scanUtf8 data i = scanUtf8 data (i + k) ∧
      (WellFormed (a :: w) ↔ WellFormed ((a :: w).drop k))) ∨
    (scanUtf8 data i = some false ∧ ¬ WellFormed (a :: w)) := by
  by_cases ha : a.toNat ≤ 0x7F
  · exact .inl ⟨1, Nat.zero_lt_one, scanUtf8_ascii h ha, wellFormed_one ha⟩
  · have ha' : 0x7F < a.toNat := Nat.lt_of_not_le ha
    cases hl : leadLength a with
    | none =>
        exact .inr ⟨scanUtf8_lead_none h ha' hl, not_wellFormed ha' (not_lead_of_leadLength hl)⟩
    | some n =>
        have hn := two_le_of_leadLength hl
        cases w with
        | nil =>
            refine .inr ⟨scanUtf8_truncated h ha' hl hn, ?_⟩
            rw [wellFormed_lead hl]
            rintro ⟨b, r, hbr, -⟩
            cases hbr
        | cons b r =>
            by_cases hr : n ≤ r.length + 2
            · rcases scanUtf8_lead h ha' hl hr with ⟨heq, hok⟩ | ⟨heq, hno⟩
              · have hdrop : (a :: b :: r).drop n = (b :: r).drop (n - 1) := by
                  obtain ⟨m, rfl⟩ := Nat.exists_eq_add_of_le' hn
                  rfl
                refine .inl ⟨n, Nat.zero_lt_of_lt hn, heq, ?_⟩
                rw [wellFormed_lead hl, hdrop]
                constructor
                · rintro ⟨-, -, -, -, -, hrest⟩
                  exact hrest
                · intro hrest
                  exact ⟨b, r, rfl, hr, hok, hrest⟩
              · refine .inr ⟨heq, ?_⟩
                rw [wellFormed_lead hl]
                rintro ⟨b', r', hbr, -, hok, -⟩
                cases hbr
                exact hno hok
            · refine .inr ⟨scanUtf8_truncated h ha' hl (Nat.lt_of_not_le hr), ?_⟩
              rw [wellFormed_lead hl]
              rintro ⟨b', r', hbr, hlen, -⟩
              cases hbr
              exact hr hlen

/-- **From every boundary the scan reads inside the text only and says whether
the unread part is well-formed.** -/
theorem scanUtf8_eq (data : Bytes) (i : Nat) :
    ∃ ok, scanUtf8 data i = some ok ∧ (ok = true ↔ WellFormed (data.drop i)) := by
  induction hn : data.length - i using Nat.strongRecOn generalizing i with
  | _ n ih =>
      cases hw : data.drop i with
      | nil =>
          have hi : ¬ i < data.length := by simpa using hw
          refine ⟨true, ?_, by simp⟩
          rw [scanUtf8, dif_neg hi]
      | cons a w =>
          rcases scanUtf8_turn hw with ⟨k, hk, heq, hiff⟩ | ⟨heq, hno⟩
          · have hi := lt_of_drop hw
            obtain ⟨ok, hok, hrest⟩ := ih _ (by omega) (i + k) rfl
            rw [← List.drop_drop, hw] at hrest
            exact ⟨ok, heq.trans hok, hrest.trans hiff.symm⟩
          · exact ⟨false, heq, by simp [hno]⟩

/-- The check of the code is well-formedness. -/
theorem isValidUtf8_eq_true {text : Bytes} : isValidUtf8 text = true ↔ WellFormed text := by
  obtain ⟨ok, hok, hiff⟩ := scanUtf8_eq text 0
  rw [isValidUtf8, hok]
  simpa using hiff

instance decWellFormed (text : Bytes) : Decidable (WellFormed text) :=
  decidable_of_iff _ isValidUtf8_eq_true

/-- **The check accepts exactly the encodings of lists of scalar values**, each
of one list only, and rejects a text as soon as no scalar value starts at one
of its boundaries; the scan never reads past the end. -/
theorem isValidUtf8_iff_encoding (s : Bytes) :
    (isValidUtf8 s = true ↔ ∃ cs : List Char, cs.flatMap String.utf8EncodeChar = s) ∧
    (∀ cs ds : List Char, cs.flatMap String.utf8EncodeChar = s →
      ds.flatMap String.utf8EncodeChar = s → cs = ds) ∧
    (∀ p r : Bytes, s = p ++ r → WellFormed p → r ≠ [] →
      (∀ (c : Char) (t : Bytes), r ≠ String.utf8EncodeChar c ++ t) → isValidUtf8 s = false) ∧
    scanUtf8 s 0 ≠ none := by
  refine ⟨isValidUtf8_eq_true, ?_, ?_, ?_⟩
  · intro cs ds hcs hds
    exact encode_injective (hcs.trans hds.symm)
  · rintro p r rfl hp hr hno
    rw [Bool.eq_false_iff, Ne, isValidUtf8_eq_true]
    exact not_wellFormed_append hp hr hno
  · obtain ⟨ok, hok, -⟩ := scanUtf8_eq s 0
    rw [hok]
    exact Option.some_ne_none ok

end ChatHub.Contracts
