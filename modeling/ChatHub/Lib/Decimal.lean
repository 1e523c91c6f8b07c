/-
# `ChatHub.Lib.Decimal` — natural numbers as decimal digits

`print` writes a number as ASCII digits without leading zeros, `value` reads a
digit string as a number.  Reading undoes printing (`value_print`), and a
number below `10 ^ k` takes at most `k` digits (`length_print_le`).  The
printed strings are the canonical ones (`Canonical`), and for these printing
undoes reading as well (`print_value`).

`scan` splits the digits off the front of a byte string, which is how a number
is read from the middle of a text: behind a printed number, and in front of
anything that does not go on with a digit, it finds the number
(`scan_print`).
-/
import Mathlib.Data.List.Basic
import Mathlib.Data.List.Induction
import Mathlib.Algebra.Group.Nat.Defs

namespace Decimal

/-- The ASCII digit of a number below ten. -/
def digit (n : Nat) : UInt8 := UInt8.ofNat (48 + n)

def IsDigit (c : UInt8) : Prop := 48 ≤ c.toNat ∧ c.toNat ≤ 57

instance (c : UInt8) : Decidable (IsDigit c) := inferInstanceAs (Decidable (_ ∧ _))

theorem IsDigit.ne {c d : UInt8} (hc : IsDigit c) (hd : ¬ IsDigit d) : c ≠ d := by
  rintro rfl
  exact hd hc

theorem toNat_digit {n : Nat} (h : n < 10) : (digit n).toNat = 48 + n := by
  simp only [digit, UInt8.toNat_ofNat']
  exact Nat.mod_eq_of_lt (by omega)

theorem isDigit_digit {n : Nat} (h : n < 10) : IsDigit (digit n) := by
  rw [IsDigit, toNat_digit h]
  omega

/-! ## Printing and reading -/

/-- The digits of a number, the most significant first. -/
def print (n : Nat) : List UInt8 :=
  if n < 10 then [digit n] else print (n / 10) ++ [digit (n % 10)]

/-- The number a digit string stands for. -/
def value (ds : List UInt8) : Nat := ds.foldl (fun v c => v * 10 + (c.toNat - 48)) 0

theorem value_concat (ds : List UInt8) (c : UInt8) :
    value (ds ++ [c]) = value ds * 10 + (c.toNat - 48) := by
  simp [value]

theorem value_print (n : Nat) : value (print n) = n := by
  induction n using print.induct with
  | case1 n h =>
      rw [print, if_pos h]
      show 0 * 10 + ((digit n).toNat - 48) = n
      rw [toNat_digit h]
      omega
  | case2 n h ih =>
      rw [print, if_neg h, value_concat, ih, toNat_digit (Nat.mod_lt n (by decide))]
      omega

theorem isDigit_print (n : Nat) : ∀ c ∈ print n, IsDigit c := by
  induction n using print.induct with
  | case1 n h =>
      rw [print, if_pos h]
      intro c hc
      rw [List.mem_singleton.mp hc]
      exact isDigit_digit h
  | case2 n h ih =>
      rw [print, if_neg h]
      intro c hc
      rcases List.mem_append.mp hc with hc | hc
      · exact ih c hc
      · rw [List.mem_singleton.mp hc]
        exact isDigit_digit (Nat.mod_lt n (by decide))

theorem print_ne_nil (n : Nat) : print n ≠ [] := by
  rw [print]
  split
  · exact List.cons_ne_nil _ _
  · exact List.append_ne_nil_of_right_ne_nil _ (List.cons_ne_nil _ _)

/-- A number below `10 ^ (k + 1)` has at most `k + 1` digits. -/
theorem length_print_le {n k : Nat} (h : n < 10 ^ (k + 1)) : (print n).length ≤ k + 1 := by
  induction k generalizing n with
  | zero =>
      rw [print, if_pos (by simpa using h)]
      exact Nat.le_refl 1
  | succ k ih =>
      rw [print]
      split
      · exact Nat.succ_le_succ (Nat.zero_le _)
      · have hdiv : n / 10 < 10 ^ (k + 1) := by
          rw [Nat.pow_succ] at h
          omega
        simpa using ih hdiv

/-! ## Digits at the front of a text -/

/-- Split the digits off the front. -/
def scan : List UInt8 → List UInt8 × List UInt8
  | [] => ([], [])
  | c :: r => if IsDigit c then (c :: (scan r).1, (scan r).2) else ([], c :: r)

/-- A text that does not go on with a digit. -/
def Stops (r : List UInt8) : Prop := ∀ c ∈ r.head?, ¬ IsDigit c

theorem scan_stops {r : List UInt8} (h : Stops r) : scan r = ([], r) := by
  cases r with
  | nil => rfl
  | cons c r => rw [scan, if_neg (h c rfl)]

theorem scan_append {ds r : List UInt8} (hds : ∀ c ∈ ds, IsDigit c) (hr : Stops r) :
    scan (ds ++ r) = (ds, r) := by
  induction ds with
  | nil => exact scan_stops hr
  | cons c ds ih =>
      have hrest := ih fun d hd => hds d (List.mem_cons_of_mem c hd)
      rw [List.cons_append, scan, if_pos (hds c List.mem_cons_self), hrest]

theorem scan_print (n : Nat) {r : List UInt8} (hr : Stops r) :
    scan (print n ++ r) = (print n, r) :=
  scan_append (isDigit_print n) hr

theorem append_scan (s : List UInt8) : (scan s).1 ++ (scan s).2 = s := by
  induction s with
  | nil => rfl
  | cons c r ih =>
      rw [scan]
      split
      · rw [List.cons_append, ih]
      · rfl

theorem isDigit_scan (s : List UInt8) : ∀ c ∈ (scan s).1, IsDigit c := by
  induction s with
  | nil => exact List.forall_mem_nil _
  | cons c r ih =>
      rw [scan]
      split
      · rename_i hc
        exact List.forall_mem_cons.mpr ⟨hc, ih⟩
      · exact List.forall_mem_nil _

theorem scan_digits {s : List UInt8} (hs : ∀ c ∈ s, IsDigit c) : scan s = (s, []) := by
  have h := scan_append (r := []) hs (fun c hc => by cases hc)
  rwa [List.append_nil] at h

/-- The digits at the front are all there is exactly for a digit string. -/
theorem length_scan_eq_iff {s : List UInt8} :
    (scan s).1.length = s.length ↔ ∀ c ∈ s, IsDigit c := by
  constructor
  · intro h
    have hpre : (scan s).1 <+: s := ⟨(scan s).2, append_scan s⟩
    have hdigit := isDigit_scan s
    rwa [hpre.eq_of_length h] at hdigit
  · intro h
    rw [scan_digits h]

/-! ## Canonical digit strings

What `print` writes, told by its characters. -/

/-- At least one digit, nothing but digits, and no zero in front of another
digit. -/
structure Canonical (s : List UInt8) : Prop where
  nonempty : s ≠ []
  digits : ∀ c ∈ s, IsDigit c
  leading : s.head? = some (digit 0) → s.length = 1

theorem digit_of_isDigit {c : UInt8} (h : IsDigit c) : digit (c.toNat - 48) = c := by
  obtain ⟨h₁, h₂⟩ := h
  refine UInt8.toNat_inj.mp ?_
  rw [toNat_digit (by omega)]
  omega

theorem value_singleton {c : UInt8} : value [c] = c.toNat - 48 := by
  rw [← List.nil_append [c], value_concat]
  exact Nat.zero_add _

/-- Only the number zero is printed with a zero in front. -/
theorem print_eq_zero_iff {n : Nat} : print n = [digit 0] ↔ n = 0 := by
  constructor
  · intro h
    have hvalue := value_print n
    rw [h] at hvalue
    exact hvalue.symm
  · rintro rfl
    rw [print, if_pos (Nat.zero_lt_succ 9)]

theorem canonical_print (n : Nat) : Canonical (print n) := by
  refine ⟨print_ne_nil n, isDigit_print n, ?_⟩
  induction n using print.induct with
  | case1 n h =>
      rw [print, if_pos h]
      exact fun _ => rfl
  | case2 n h ih =>
      rw [print, if_neg h, List.head?_append_of_ne_nil _ (print_ne_nil _)]
      intro hhead
      obtain ⟨c, hc⟩ := List.length_eq_one_iff.mp (ih hhead)
      rw [hc] at hhead
      cases hhead
      have hzero := print_eq_zero_iff.mp hc
      omega

/-- **A canonical digit string is what is printed for its value.** -/
theorem print_value {s : List UInt8} (h : Canonical s) : print (value s) = s := by
  induction s using List.reverseRecOn with
  | nil => exact absurd rfl h.nonempty
  | append_singleton ds c ih =>
      have hc : IsDigit c := h.digits c (List.mem_append_right ds List.mem_cons_self)
      have hlt : c.toNat - 48 < 10 := by
        obtain ⟨-, hle⟩ := hc
        omega
      by_cases hds : ds = []
      · subst hds
        rw [List.nil_append, value_singleton, print, if_pos hlt, digit_of_isDigit hc]
      · -- the digits in front are canonical, and do not stand for zero
        have hhead : ds.head? ≠ some (digit 0) := by
          intro hzero
          have hlen := h.leading (by rw [List.head?_append_of_ne_nil _ hds, hzero])
          rw [List.length_append, List.length_singleton] at hlen
          exact hds (List.eq_nil_of_length_eq_zero (Nat.succ.inj hlen))
        have hprint : print (value ds) = ds :=
          ih ⟨hds, fun d hd => h.digits d (List.mem_append_left [c] hd), fun hzero => absurd hzero hhead⟩
        have hpos : value ds ≠ 0 := by
          intro hzero
          rw [print_eq_zero_iff.mpr hzero] at hprint
          rw [← hprint] at hhead
          exact hhead rfl
        have hdiv : (value ds * 10 + (c.toNat - 48)) / 10 = value ds := by omega
        have hmod : (value ds * 10 + (c.toNat - 48)) % 10 = c.toNat - 48 := by omega
        rw [value_concat, print, if_neg (by omega), hdiv, hmod, hprint, digit_of_isDigit hc]

end Decimal
