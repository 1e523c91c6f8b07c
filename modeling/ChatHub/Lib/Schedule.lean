/-
# `ChatHub.Lib.Schedule` — systems driven by events in any order

A component with asynchronous operations is a state and a reaction to events.
Which events can come next depends on the state (`enabled`); in which order
they come is up to the environment.  The reaction to an enabled event may go
wrong (`step` has no result).  A run is any finite sequence of enabled events
from the initial state (`Run`), so a result about runs is one about all orders.

    `Keeps`             a relation between the events so far and the state, kept
                        by every enabled event, whose reaction does not go wrong
    `Run.invariant`     such a relation holds after every run
    `Run.step_ne_none`  and after a run no reaction goes wrong
    `Run.exists_quiet`  where events are bounded, a run can come to rest

A component runs in surroundings which decide when its events come, and have
events of their own (`Around`).  What the component keeps by itself it keeps
there (`Keeps.around`).

`interleave` is a family of components of one kind that share nothing.  Its
events are those of its members, in any order between them, and each member
sees its own (`eventsOf`).  A relation that one member keeps, the family keeps
for each of its members (`Keeps.interleave`).
-/
import Mathlib.Algebra.BigOperators.Ring.Finset
import Mathlib.Algebra.Order.BigOperators.Group.Finset
import Mathlib.Data.List.Basic
import Mathlib.Logic.Function.Basic

namespace Schedule

variable {S E ι : Type}

/-- A component that reacts to events. -/
structure System (S E : Type) where
  enabled : S → E → Prop
  step : S → E → Option S

namespace System

/-- The runs from `s₀`, with the events so far. -/
inductive Run (m : System S E) (s₀ : S) : List E → S → Prop
  | nil : Run m s₀ [] s₀
  | concat {es : List E} {s s' : S} {e : E} : Run m s₀ es s → m.enabled s e → m.step s e = some s' →
      Run m s₀ (es ++ [e]) s'

/-- The reaction to an enabled event succeeds and keeps the relation `I`. -/
def Keeps (m : System S E) (I : List E → S → Prop) : Prop :=
  ∀ es s e, I es s → m.enabled s e → ∃ s', m.step s e = some s' ∧ I (es ++ [e]) s'

variable {m : System S E} {I : List E → S → Prop} {s₀ : S}

/-- **The induction over events**, done once. -/
theorem Run.invariant (hkeeps : m.Keeps I) (init : I [] s₀) {es : List E} {s : S}
    (h : m.Run s₀ es s) : I es s := by
  induction h with
  | nil => exact init
  | concat _ henabled hstep ih =>
      obtain ⟨s', hs', hI⟩ := hkeeps _ _ _ ih henabled
      cases hstep.symm.trans hs'
      exact hI

theorem Run.step_ne_none (hkeeps : m.Keeps I) (init : I [] s₀) {es : List E} {s : S}
    (h : m.Run s₀ es s) {e : E} (henabled : m.enabled s e) : m.step s e ≠ none := by
  obtain ⟨s', hs', -⟩ := hkeeps es s e (h.invariant hkeeps init) henabled
  rw [hs']
  exact Option.some_ne_none s'

/-- A relation that relies on another one is kept together with it. -/
theorem Keeps.and {J : List E → S → Prop} (h : m.Keeps I)
    (hJ : ∀ es s e s', I es s → J es s → m.enabled s e → m.step s e = some s' → J (es ++ [e]) s') :
    m.Keeps fun es s => I es s ∧ J es s := by
  intro es s e hs henabled
  obtain ⟨s', hstep, hI⟩ := h es s e hs.1 henabled
  exact ⟨s', hstep, hI, hJ es s e s' hs.1 hs.2 henabled hstep⟩

/-- **Runs come to rest.**  If the number of events is bounded and events of the
kind `C` do not raise the bound, then events of this kind lead from any point of
a run to one where none of them is enabled. -/
theorem Run.exists_quiet (C : E → Prop) (bound : List E → Nat)
    (hbound : ∀ {es s}, m.Run s₀ es s → es.length ≤ bound es)
    (hsame : ∀ es e, C e → bound (es ++ [e]) = bound es)
    (hstep : ∀ {es s e}, m.Run s₀ es s → m.enabled s e → m.step s e ≠ none) {es : List E} {s : S}
    (h : m.Run s₀ es s) :
    ∃ more s', m.Run s₀ (es ++ more) s' ∧ (∀ e ∈ more, C e) ∧ ∀ e, C e → ¬ m.enabled s' e := by
  induction hn : bound es - es.length using Nat.strongRecOn generalizing es s with
  | _ n ih =>
      by_cases hquiet : ∀ e, C e → ¬ m.enabled s e
      · exact ⟨[], s, (List.append_nil es).symm ▸ h, nofun, hquiet⟩
      · obtain ⟨e, hC, henabled⟩ : ∃ e, C e ∧ m.enabled s e := by
          by_contra hno
          exact hquiet fun e hC henabled => hno ⟨e, hC, henabled⟩
        obtain ⟨s', hs'⟩ := Option.ne_none_iff_exists'.mp (hstep h henabled)
        have hnext := h.concat henabled hs'
        have hlen := hbound hnext
        rw [List.length_append, List.length_singleton, hsame es e hC] at hlen
        have hless : bound (es ++ [e]) - (es ++ [e]).length < n := by
          rw [List.length_append, List.length_singleton, hsame es e hC]
          omega
        obtain ⟨more, s'', hrun, hmore, hrest⟩ := ih _ hless hnext rfl
        refine ⟨e :: more, s'', ?_, List.forall_mem_cons.mpr ⟨hC, hmore⟩, hrest⟩
        rwa [List.append_assoc] at hrun

/-! ## Surroundings -/

section
variable {S' E' : Type}

/-- `m'` is `m` in its surroundings: `view` is its part of the state, and `own`
tells its events.  These come only where `m` enables them and do to its part what
they do to `m`; the other events leave that part alone. -/
structure Around (m' : System S' E') (m : System S E) (view : S' → S) (own : E' → Option E) :
    Prop where
  enabled : ∀ {s e e₀}, own e = some e₀ → m'.enabled s e → m.enabled (view s) e₀
  step : ∀ {s e e₀}, own e = some e₀ → (m'.step s e).map view = m.step (view s) e₀
  other : ∀ {s e}, own e = none → m'.enabled s e → ∃ s', m'.step s e = some s' ∧ view s' = view s

/-- **What a component keeps, it keeps in its surroundings.** -/
theorem Keeps.around {m' : System S' E'} {view : S' → S} {own : E' → Option E} (h : m.Keeps I)
    (ha : Around m' m view own) : m'.Keeps fun es s => I (es.filterMap own) (view s) := by
  intro es s e hI henabled
  show ∃ s', m'.step s e = some s' ∧ I ((es ++ [e]).filterMap own) (view s')
  rw [List.filterMap_append]
  cases hown : own e with
  | none =>
      obtain ⟨s', hs', hview⟩ := ha.other hown henabled
      refine ⟨s', hs', ?_⟩
      rw [List.filterMap_cons_none hown, List.filterMap_nil, List.append_nil, hview]
      exact hI
  | some e₀ =>
      obtain ⟨t, ht, hI'⟩ := h _ _ _ hI (ha.enabled hown henabled)
      obtain ⟨s', hs', rfl⟩ := Option.map_eq_some_iff.mp ((ha.step hown).trans ht)
      refine ⟨s', hs', ?_⟩
      rw [List.filterMap_cons_some hown, List.filterMap_nil]
      exact hI'

end

/-! ## Families -/

variable [DecidableEq ι]

/-- One component for each index. -/
def interleave (ι : Type) [DecidableEq ι] (m : System S E) : System (ι → S) (ι × E) where
  enabled := fun w e => m.enabled (w e.1) e.2
  step := fun w e => (m.step (w e.1) e.2).map (Function.update w e.1)

end System

/-- The events of one member. -/
def eventsOf [DecidableEq ι] (i : ι) (es : List (ι × E)) : List E :=
  es.filterMap fun e => if e.1 = i then some e.2 else none

section
variable [DecidableEq ι]

theorem eventsOf_append (i : ι) (es es' : List (ι × E)) :
    eventsOf i (es ++ es') = eventsOf i es ++ eventsOf i es' :=
  List.filterMap_append

theorem eventsOf_cons_self (i : ι) (e : E) (es : List (ι × E)) :
    eventsOf i ((i, e) :: es) = e :: eventsOf i es := by
  have hown : (if (i, e).1 = i then some (i, e).2 else none) = some e := if_pos rfl
  exact List.filterMap_cons_some hown

theorem eventsOf_cons_of_ne {i j : ι} (h : j ≠ i) (e : E) (es : List (ι × E)) :
    eventsOf i ((j, e) :: es) = eventsOf i es := by
  have hother : (if (j, e).1 = i then some (j, e).2 else none) = none := if_neg h
  exact List.filterMap_cons_none hother

theorem mem_eventsOf {i : ι} {e : E} {es : List (ι × E)} : e ∈ eventsOf i es ↔ (i, e) ∈ es := by
  rw [eventsOf, List.mem_filterMap]
  constructor
  · rintro ⟨⟨j, e'⟩, hmem, heq⟩
    by_cases hj : j = i
    · subst hj
      rw [if_pos rfl] at heq
      cases heq
      exact hmem
    · rw [if_neg hj] at heq
      cases heq
  · intro hmem
    exact ⟨(i, e), hmem, if_pos rfl⟩

/-- What is counted over all events is counted member by member. -/
theorem sum_countP_eventsOf (q : E → Bool) {members : Finset ι} {es : List (ι × E)}
    (h : ∀ e ∈ es, e.1 ∈ members) :
    (∑ i ∈ members, (eventsOf i es).countP q) = es.countP fun e => q e.2 := by
  induction es with
  | nil => exact Finset.sum_eq_zero fun i _ => rfl
  | cons e es ih =>
      obtain ⟨j, e⟩ := e
      obtain ⟨hj, hes⟩ := List.forall_mem_cons.mp h
      have hone : ∀ i, (eventsOf i ((j, e) :: es)).countP q =
          (eventsOf i es).countP q + if j = i then (if q e then 1 else 0) else 0 := by
        intro i
        by_cases hi : j = i
        · subst hi
          rw [eventsOf_cons_self, List.countP_cons, if_pos rfl]
        · rw [eventsOf_cons_of_ne hi, if_neg hi, Nat.add_zero]
      simp only [hone, Finset.sum_add_distrib, ih hes, Finset.sum_ite_eq, if_pos hj,
        List.countP_cons]

/-- A bound on the events of each member is one on all events. -/
theorem countP_le_of_eventsOf {q p : E → Bool} {k : Nat} {es : List (ι × E)}
    (h : ∀ i, (eventsOf i es).countP q ≤ k * (eventsOf i es).countP p) :
    (es.countP fun e => q e.2) ≤ k * es.countP fun e => p e.2 := by
  have hmem : ∀ e ∈ es, e.1 ∈ (es.map Prod.fst).toFinset := fun e he =>
    List.mem_toFinset.mpr (List.mem_map_of_mem he)
  calc (es.countP fun e => q e.2)
      = ∑ i ∈ (es.map Prod.fst).toFinset, (eventsOf i es).countP q :=
        (sum_countP_eventsOf q hmem).symm
    _ ≤ ∑ i ∈ (es.map Prod.fst).toFinset, k * (eventsOf i es).countP p :=
        Finset.sum_le_sum fun i _ => h i
    _ = k * es.countP fun e => p e.2 := by
        rw [← Finset.mul_sum, sum_countP_eventsOf p hmem]

/-- **What one member keeps, the family keeps for each.** -/
theorem System.Keeps.interleave {m : System S E} {I : List E → S → Prop} (h : m.Keeps I) :
    (m.interleave ι).Keeps fun es w => ∀ i, I (eventsOf i es) (w i) := by
  rintro es w ⟨i, e⟩ hI henabled
  obtain ⟨s', hs', hI'⟩ := h _ _ _ (hI i) henabled
  refine ⟨Function.update w i s', congrArg (Option.map (Function.update w i)) hs', ?_⟩
  intro j
  rw [eventsOf_append]
  by_cases hj : i = j
  · subst hj
    rw [Function.update_self, eventsOf_cons_self]
    exact hI'
  · rw [Function.update_of_ne (Ne.symm hj), eventsOf_cons_of_ne hj]
    exact (List.append_nil (eventsOf j es)).symm ▸ hI j

end

end Schedule
