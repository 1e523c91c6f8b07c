/-
# `ChatHub.Lib.Double` — the double nearest to an integer

A double has 53 significant bits.  An integer of up to 53 bits is one; a larger
one is rounded to the nearest multiple of the power of two that is left over,
to the even one where two are equally near.  Doubles are represented by their
exact values, rational numbers.

    |n| ≤ 2 ^ 53     ofInt n = n           (`ofInt_exact`)
    2 ^ 53 ≤ n       2 ^ 53 ≤ ofInt n      (`le_ofInt`)
    n < 0            ofInt n < 0           (`ofInt_neg`)

So a range check up to 2 ^ 53 - 1 made on the double is one made on the
integer.
-/
import Mathlib.Algebra.Order.Ring.Rat
import Mathlib.Tactic.NormNum.Basic

namespace Double

/-- `a / b`, rounded to the nearest integer, ties to even. -/
def roundHalfEven (a b : Nat) : Nat :=
  if 2 * (a % b) < b then a / b
  else if b < 2 * (a % b) then a / b + 1
  else if a / b % 2 = 0 then a / b
  else a / b + 1

/-- The double nearest to a natural number. -/
def nearest (n : Nat) : Nat :=
  if n ≤ 2 ^ 53 then n
  else roundHalfEven n (2 ^ (n.log2 - 52)) * 2 ^ (n.log2 - 52)

/-- The double nearest to an integer, as an integer. -/
def nearestInt (n : Int) : Int := if n < 0 then -(nearest n.natAbs) else nearest n.natAbs

/-- The double nearest to an integer. -/
def ofInt (n : Int) : Rat := nearestInt n

theorem le_roundHalfEven (a b : Nat) : a / b ≤ roundHalfEven a b := by
  simp only [roundHalfEven]
  split
  · exact Nat.le_refl _
  · split
    · exact Nat.le_succ _
    · split
      · exact Nat.le_refl _
      · exact Nat.le_succ _

theorem le_nearest {n : Nat} (h : 2 ^ 53 ≤ n) : 2 ^ 53 ≤ nearest n := by
  simp only [nearest]
  split
  · exact h
  · have hlog : 53 ≤ n.log2 := (Nat.le_log2 (by omega)).mpr h
    have hsplit : 2 ^ 52 * 2 ^ (n.log2 - 52) = 2 ^ n.log2 := by
      rw [← Nat.pow_add]
      congr 1
      omega
    have hdiv : 2 ^ 52 ≤ n / 2 ^ (n.log2 - 52) := by
      rw [Nat.le_div_iff_mul_le (Nat.two_pow_pos _), hsplit]
      exact Nat.log2_self_le (by omega)
    have hpow : 2 ^ 1 ≤ 2 ^ (n.log2 - 52) := Nat.pow_le_pow_right (by decide) (by omega)
    calc 2 ^ 53 = 2 ^ 52 * 2 ^ 1 := by decide
      _ ≤ roundHalfEven n (2 ^ (n.log2 - 52)) * 2 ^ (n.log2 - 52) :=
        Nat.mul_le_mul (Nat.le_trans hdiv (le_roundHalfEven _ _)) hpow

theorem nearest_exact {n : Nat} (h : n ≤ 2 ^ 53) : nearest n = n := by
  simp only [nearest, if_pos h]

theorem nearest_pos {n : Nat} (h : 0 < n) : 0 < nearest n := by
  by_cases hn : n ≤ 2 ^ 53
  · rw [nearest_exact hn]
    exact h
  · exact Nat.lt_of_lt_of_le (Nat.two_pow_pos 53) (le_nearest (Nat.le_of_not_le hn))

/-! ## Integers as doubles -/

theorem ofInt_exact {n : Int} (h : n.natAbs ≤ 2 ^ 53) : ofInt n = n := by
  have hn : nearestInt n = n := by
    simp only [nearestInt, nearest_exact h]
    omega
  rw [ofInt, hn]

theorem le_ofInt {n : Int} (h : 2 ^ 53 ≤ n) : 2 ^ 53 ≤ ofInt n := by
  have hle : 2 ^ 53 ≤ nearest n.natAbs := le_nearest (by omega)
  have hn : 2 ^ 53 ≤ nearestInt n := by
    rw [nearestInt, if_neg (by omega)]
    exact_mod_cast hle
  rw [ofInt]
  exact_mod_cast hn

theorem ofInt_neg {n : Int} (h : n < 0) : ofInt n < 0 := by
  have hpos : 0 < nearest n.natAbs := nearest_pos (by omega)
  have hn : nearestInt n < 0 := by
    rw [nearestInt, if_pos h]
    omega
  rw [ofInt]
  exact_mod_cast hn

end Double
