/-
# `ChatHub.Lib.Metered` — computations that count on the side

A `Metered κ α` is a result with what it cost.  A program in this monad marks
the calls that are counted (`charged`); what a sequence costs is the sum of what
its parts cost, and its result is that of the program without the marks
(`result_bind`).  So a metered program is tied to the plain one by a theorem
about results, which follows the two texts side by side.
-/
import Mathlib.Algebra.Group.Defs

namespace Metering

/-- A result with what it cost. -/
structure Metered (κ α : Type) where
  result : α
  cost : κ

variable {κ α β : Type}

/-- A call that costs `c`. -/
def charged (c : κ) (a : α) : Metered κ α := ⟨a, c⟩

@[simp] theorem result_charged (c : κ) (a : α) : (charged c a).result = a := rfl

@[simp] theorem cost_charged (c : κ) (a : α) : (charged c a).cost = c := rfl

variable [AddMonoid κ]

instance : Monad (Metered κ) where
  pure a := charged 0 a
  bind m f := charged (m.cost + (f m.result).cost) (f m.result).result

@[simp] theorem result_pure (a : α) : (pure a : Metered κ α).result = a := rfl

@[simp] theorem cost_pure (a : α) : (pure a : Metered κ α).cost = 0 := rfl

@[simp] theorem result_bind (m : Metered κ α) (f : α → Metered κ β) :
    (m >>= f).result = (f m.result).result := rfl

@[simp] theorem cost_bind (m : Metered κ α) (f : α → Metered κ β) :
    (m >>= f).cost = m.cost + (f m.result).cost := rfl

end Metering
