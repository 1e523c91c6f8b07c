/-
# `ChatHub.Contracts.Hello` — the hello messages as values

`hello.hpp` and `outcome.hpp`: the limits of the wire fields, the set of
capabilities with its intersection, and the two messages with their defaults.

A `CapabilitySet` is a `std::set<std::string>`: its elements in ascending byte
order, each once.  The order is a field of the structure, so two sets with the
same elements are equal (`CapabilitySet.ext`), whatever they were built from.
-/
import Mathlib.Data.List.Sort
import ChatHub.Contracts.Ids

namespace ChatHub.Contracts

open Utf8

/-! ## Results -/

structure Error where
  code : String
  detail : String
  deriving DecidableEq, Repr

/-- A value, or the expected failure. -/
abbrev Outcome (α : Type) := Except Error α

/-- Is `code` of the shape of an error code? -/
def isSnakeCaseCode (code : Bytes) : Bool :=
  if code.isEmpty || code.head? == some (chr '_') || code.getLast? == some (chr '_') then false
  else
    code.all fun c =>
      c == chr '_' || (chr '0' ≤ c && c ≤ chr '9') || (chr 'a' ≤ c && c ≤ chr 'z')

/-! ## Literals and limits -/

def kServerVersion : Bytes := ascii "1.0"
def kMaxJsonBytes : UInt32 := 65536
def kMaxTextBytes : UInt32 := 4096
def kHeartbeatIdleMs : UInt32 := 20000
def kSessionTimeoutMs : UInt32 := 60000
def kMaxClientVersionBytes : Nat := 32
def kMaxPlatformBytes : Nat := 16
def kMaxCapabilityValueBytes : Nat := 64
def kMaxCapabilityCount : Nat := 16

/-! ## Sets of capabilities -/

/-- Insert a string in its place, unless it is there. -/
def insertSorted (v : Bytes) : List Bytes → List Bytes
  | [] => [v]
  | w :: ws => if v < w then v :: w :: ws else if v = w then w :: ws else w :: insertSorted v ws

theorem mem_insertSorted {v c : Bytes} {ws : List Bytes} :
    c ∈ insertSorted v ws ↔ c = v ∨ c ∈ ws := by
  induction ws with
  | nil => simp [insertSorted]
  | cons w ws ih =>
      simp only [insertSorted]
      split
      · exact List.mem_cons
      · split
        · rename_i heq
          subst heq
          simp
        · simp only [List.mem_cons, ih, or_left_comm]

theorem lt_of_not_lt_of_ne {v w : Bytes} (h : ¬ v < w) (hne : v ≠ w) : w < v := by
  by_contra hw
  exact hne (List.le_antisymm (List.not_lt.mp hw) (List.not_lt.mp h))

theorem sorted_insertSorted {v : Bytes} {ws : List Bytes} (h : ws.Pairwise (· < ·)) :
    (insertSorted v ws).Pairwise (· < ·) := by
  induction ws with
  | nil => exact List.pairwise_singleton _ v
  | cons w ws ih =>
      obtain ⟨hw, hws⟩ := List.pairwise_cons.mp h
      simp only [insertSorted]
      split
      · rename_i hlt
        refine List.pairwise_cons.mpr ⟨?_, h⟩
        intro c hc
        rcases List.mem_cons.mp hc with rfl | hc
        · exact hlt
        · exact List.lt_trans hlt (hw c hc)
      · split
        · exact h
        · rename_i hge hne
          refine List.pairwise_cons.mpr ⟨?_, ih hws⟩
          intro c hc
          rcases mem_insertSorted.mp hc with rfl | hc
          · exact lt_of_not_lt_of_ne hge hne
          · exact hw c hc

structure CapabilitySet where
  value : List Bytes := []
  sorted : value.Pairwise (· < ·) := by exact List.Pairwise.nil
  deriving DecidableEq

namespace CapabilitySet

instance : EmptyCollection CapabilitySet := ⟨{}⟩

def contains (s : CapabilitySet) (c : Bytes) : Bool := decide (c ∈ s.value)

def insert (s : CapabilitySet) (c : Bytes) : CapabilitySet :=
  ⟨insertSorted c s.value, sorted_insertSorted s.sorted⟩

/-- The initializer-list constructor. -/
def ofList (values : List Bytes) : CapabilitySet := values.foldl insert ∅

/-- The elements of `a` that `b` contains, inserted one after the other. -/
def intersect (a b : CapabilitySet) : CapabilitySet :=
  a.value.foldl (fun out c => if b.contains c then out.insert c else out) ∅

theorem emptyCollection_value : (∅ : CapabilitySet).value = [] := rfl

theorem ext {a b : CapabilitySet} (h : ∀ c, c ∈ a.value ↔ c ∈ b.value) : a = b := by
  have hvalue : a.value = b.value := a.sorted.eq_of_mem_iff b.sorted h
  cases a
  cases b
  cases hvalue
  rfl

theorem mem_insert {s : CapabilitySet} {v c : Bytes} :
    c ∈ (s.insert v).value ↔ c = v ∨ c ∈ s.value :=
  mem_insertSorted

theorem mem_foldl_insert {values : List Bytes} {s : CapabilitySet} {c : Bytes} :
    c ∈ (values.foldl insert s).value ↔ c ∈ values ∨ c ∈ s.value := by
  induction values generalizing s with
  | nil => simp
  | cons v values ih =>
      rw [List.foldl_cons, ih, mem_insert, List.mem_cons]
      exact or_left_comm.trans or_assoc.symm

theorem mem_ofList {values : List Bytes} {c : Bytes} :
    c ∈ (ofList values).value ↔ c ∈ values := by
  simp [ofList, mem_foldl_insert, emptyCollection_value]

/-- A set is built again from its elements. -/
theorem ofList_value (s : CapabilitySet) : ofList s.value = s :=
  ext fun _ => mem_ofList

theorem mem_intersect {a b : CapabilitySet} {c : Bytes} :
    c ∈ (intersect a b).value ↔ c ∈ a.value ∧ c ∈ b.value := by
  have hfold : ∀ (values : List Bytes) (s : CapabilitySet),
      c ∈ (values.foldl (fun out c => if b.contains c then out.insert c else out) s).value ↔
        (c ∈ values ∧ c ∈ b.value) ∨ c ∈ s.value := by
    intro values
    induction values with
    | nil => simp
    | cons v values ih =>
        intro s
        rw [List.foldl_cons, ih]
        simp only [contains, decide_eq_true_eq]
        split
        · rename_i hv
          rw [mem_insert, List.mem_cons]
          constructor
          · rintro (⟨hc, hb⟩ | rfl | hs)
            · exact .inl ⟨.inr hc, hb⟩
            · exact .inl ⟨.inl rfl, hv⟩
            · exact .inr hs
          · rintro (⟨rfl | hc, hb⟩ | hs)
            · exact .inr (.inl rfl)
            · exact .inl ⟨hc, hb⟩
            · exact .inr (.inr hs)
        · rename_i hv
          rw [List.mem_cons]
          constructor
          · rintro (⟨hc, hb⟩ | hs)
            · exact .inl ⟨.inr hc, hb⟩
            · exact .inr hs
          · rintro (⟨rfl | hc, hb⟩ | hs)
            · exact absurd hb hv
            · exact .inl ⟨hc, hb⟩
            · exact .inr hs
  simpa [intersect, emptyCollection_value] using hfold a.value ∅

/-- A set is no larger than a list that has all its elements. -/
theorem length_le_of_subset {s : CapabilitySet} {values : List Bytes}
    (h : ∀ c ∈ s.value, c ∈ values) : s.value.length ≤ values.length := by
  have hnodup : s.value.Nodup := by
    refine s.sorted.imp ?_
    intro a b hlt
    rintro rfl
    exact List.lt_irrefl _ hlt
  exact (List.subperm_of_subset hnodup h).length_le

end CapabilitySet

/-! ## Messages -/

structure HelloRequest where
  clientVersion : Bytes
  platform : Bytes
  capabilities : CapabilitySet
  deriving DecidableEq

structure HelloResponse where
  serverVersion : Bytes := kServerVersion
  serverTime : Int64 := 0
  maxJson : UInt32 := kMaxJsonBytes
  maxText : UInt32 := kMaxTextBytes
  heartbeatIdle : UInt32 := kHeartbeatIdleMs
  timeout : UInt32 := kSessionTimeoutMs
  capabilities : CapabilitySet := ∅
  deriving DecidableEq

/-- A string field within its limit. -/
def Fits (limit : Nat) (s : Bytes) : Prop := s ≠ [] ∧ s.length ≤ limit

/-- Capabilities within the limits of the wire. -/
def CapabilitySet.WithinLimits (s : CapabilitySet) : Prop :=
  s.value.length ≤ kMaxCapabilityCount ∧ ∀ c ∈ s.value, Fits kMaxCapabilityValueBytes c

/-- A request within the limits of the wire. -/
structure HelloRequest.WithinLimits (r : HelloRequest) : Prop where
  clientVersion : Fits kMaxClientVersionBytes r.clientVersion
  platform : Fits kMaxPlatformBytes r.platform
  capabilities : r.capabilities.WithinLimits

instance (limit : Nat) (s : Bytes) : Decidable (Fits limit s) := inferInstanceAs (Decidable (_ ∧ _))

instance (s : CapabilitySet) : Decidable s.WithinLimits := inferInstanceAs (Decidable (_ ∧ _))

/-- A response within the limits of the wire: the time is a safe integer. -/
structure HelloResponse.WithinLimits (r : HelloResponse) : Prop where
  serverVersion : Fits kMaxClientVersionBytes r.serverVersion
  serverTime : 0 ≤ r.serverTime.toInt ∧ r.serverTime.toInt ≤ 9007199254740991
  capabilities : r.capabilities.WithinLimits

/-- Every string of a request is UTF-8. -/
structure HelloRequest.IsUtf8 (r : HelloRequest) : Prop where
  clientVersion : WellFormed r.clientVersion
  platform : WellFormed r.platform
  capabilities : ∀ c ∈ r.capabilities.value, WellFormed c

/-- Every string of a response is UTF-8. -/
structure HelloResponse.IsUtf8 (r : HelloResponse) : Prop where
  serverVersion : WellFormed r.serverVersion
  capabilities : ∀ c ∈ r.capabilities.value, WellFormed c

end ChatHub.Contracts
