/-
# `ChatHub.Contracts.Registry` — the registry as a whole

The registry says of each frame type what answers it, when it is allowed and how
long its sender waits.  The code that will read it takes for granted that these
columns fit together; this module says how (`registry_coherent`).

* A mask is a set of states: `hasState` reads the bits that `operator|` joins.
* A type is registered once, so a lookup finds each entry under its own type.
* Requests and responses pair off: a request names a response of its own states
  and capability, no two requests name the same one, and every response is named.
-/
import Mathlib.Data.List.Nodup
import ChatHub.Contracts.ProtocolDescriptor

namespace ChatHub.Contracts

/-! ## Masks -/

/-- `operator|` joins the sets. -/
theorem hasState_union (a b : ConnectionStates) (state : ConnectionState) :
    hasState (a.union b) state = (hasState a state || hasState b state) := by
  simp only [hasState, ConnectionStates.union]
  have hdistrib : ∀ m : UInt8, (a.bits ||| b.bits) &&& m = (a.bits &&& m) ||| (b.bits &&& m) := by
    intro m
    exact UInt8.toBitVec_inj.mp BitVec.and_or_distrib_right
  rw [hdistrib, Bool.eq_iff_iff, Bool.or_eq_true, bne_iff_ne, bne_iff_ne, bne_iff_ne, ne_eq,
    UInt8.or_eq_zero_iff]
  exact not_and_or

theorem hasState_all (state : ConnectionState) : hasState .all state = true := by
  cases state <;> rfl

theorem hasState_none (state : ConnectionState) : hasState .none state = false := by
  cases state <;> rfl

/-! ## Entries -/

theorem types_nodup : (kProtocolDescriptors.map ProtocolDescriptor.type).Nodup := by
  decide +kernel

/-- A lookup finds each entry under its own type. -/
theorem findProtocol_of_mem {d : ProtocolDescriptor} (h : d ∈ kProtocolDescriptors) :
    findProtocol d.type = some d := by
  cases hfind : findProtocol d.type with
  | none =>
      have hno := List.find?_eq_none.mp hfind d h
      exact absurd (decide_eq_true rfl) hno
  | some d' =>
      have hmem := List.mem_of_find?_eq_some hfind
      exact congrArg some (List.inj_on_of_nodup_map types_nodup hmem h (type_of_findProtocol hfind))

/-- How the columns of an entry fit together. -/
def Coherent (d : ProtocolDescriptor) : Prop :=
  d.allowedStates ≠ .none ∧ d.maxBody ≤ kMaxJsonBody ∧
  (d.direction = .request ↔ 0 < d.defaultTimeoutMs) ∧
  (d.direction = .request ↔ d.response.isSome = true) ∧
  (d.direction = .request → ∃ r ∈ kProtocolDescriptors,
    d.response = some r.type ∧ r.direction = .response ∧ r.allowedStates = d.allowedStates ∧
      r.capability = d.capability) ∧
  (d.direction = .response →
    kProtocolDescriptors.countP (fun q => decide (q.response = some d.type)) = 1)

instance (d : ProtocolDescriptor) : Decidable (Coherent d) := inferInstanceAs (Decidable (_ ∧ _))

/-- **The columns fit together in every entry.** -/
theorem registry_coherent : ∀ d ∈ kProtocolDescriptors, Coherent d := by
  decide +kernel

/-- The answer to a request is found, and can be sent whenever the request can. -/
theorem response_of_request {d : ProtocolDescriptor} (h : d ∈ kProtocolDescriptors)
    (hrequest : d.direction = .request) :
    ∃ type r, d.response = some type ∧ findProtocol type = some r ∧ r.direction = .response ∧
      ∀ state, hasState r.allowedStates state = hasState d.allowedStates state := by
  obtain ⟨-, -, -, -, hpair, -⟩ := registry_coherent d h
  obtain ⟨r, hr, hresponse, hdirection, hstates, -⟩ := hpair hrequest
  refine ⟨r.type, r, hresponse, findProtocol_of_mem hr, hdirection, ?_⟩
  intro state
  rw [hstates]

end ChatHub.Contracts
