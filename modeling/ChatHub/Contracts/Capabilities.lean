/-
# `ChatHub.Contracts.Capabilities` — a capability set is a finite set

`CapabilitySet` promises "ordered, without duplicates, with intersection".  The
class does it with a sorted container and a loop; what it is for is a finite set
of names, and that is the abstract model here: `Finset Bytes`, the operations
being those of Mathlib.

Every operation of the class is the operation on finite sets
(`elements_insert`, `elements_ofList`, `elements_intersect`, …), and the map is
a bijection: the order of the container is no information.  So the laws of
finite sets hold of the class, and neither the order nor the repetitions in
which names arrive are seen by anybody.
-/
import Mathlib.Data.Finset.Sort
import ChatHub.Contracts.Hello

namespace ChatHub.Contracts.CapabilitySet

/-- `empty()`. -/
def empty (s : CapabilitySet) : Bool := s.value.isEmpty

/-- `size()`. -/
def size (s : CapabilitySet) : Nat := s.value.length

/-- What a set is for: the names in it. -/
def elements (s : CapabilitySet) : Finset Bytes := s.value.toFinset

/-! ## One operation after the other -/

theorem mem_elements {s : CapabilitySet} {c : Bytes} : c ∈ s.elements ↔ c ∈ s.value :=
  List.mem_toFinset

theorem nodup_value (s : CapabilitySet) : s.value.Nodup := by
  refine s.sorted.imp ?_
  intro a b hlt
  rintro rfl
  exact List.lt_irrefl _ hlt

theorem elements_insert (s : CapabilitySet) (c : Bytes) :
    (s.insert c).elements = Insert.insert c s.elements := by
  ext x
  simp only [mem_elements, mem_insert, Finset.mem_insert]

theorem elements_ofList (values : List Bytes) : (ofList values).elements = values.toFinset := by
  ext x
  simp only [mem_elements, mem_ofList, List.mem_toFinset]

theorem elements_intersect (a b : CapabilitySet) :
    (intersect a b).elements = a.elements ∩ b.elements := by
  ext x
  simp only [mem_elements, mem_intersect, Finset.mem_inter]

theorem contains_iff {s : CapabilitySet} {c : Bytes} : s.contains c = true ↔ c ∈ s.elements := by
  rw [contains, decide_eq_true_eq, mem_elements]

theorem card_elements (s : CapabilitySet) : s.elements.card = s.size :=
  List.toFinset_card_of_nodup s.nodup_value

theorem empty_iff {s : CapabilitySet} : s.empty = true ↔ s.elements = ∅ := by
  rw [empty, List.isEmpty_iff, elements, List.toFinset_eq_empty_iff]

/-! ## The order is no information -/

theorem elements_injective : Function.Injective elements := by
  intro a b h
  refine ext ?_
  intro c
  have hc := congrArg (c ∈ ·) h
  simpa only [mem_elements, eq_iff_iff] using hc

/-- Every finite set of names is the set of some container. -/
theorem elements_surjective : Function.Surjective elements := by
  intro names
  refine ⟨ofList names.toList, ?_⟩
  rw [elements_ofList, Finset.toList_toFinset]

/-- Two lists make one set when they have the same names in them. -/
theorem ofList_eq_iff {values values' : List Bytes} :
    ofList values = ofList values' ↔ values.toFinset = values'.toFinset := by
  rw [← elements_ofList, ← elements_ofList]
  exact elements_injective.eq_iff.symm

/-- Negotiation does not care who asks first. -/
theorem intersect_comm (a b : CapabilitySet) : intersect a b = intersect b a := by
  refine elements_injective ?_
  rw [elements_intersect, elements_intersect, Finset.inter_comm]

theorem intersect_assoc (a b c : CapabilitySet) :
    intersect (intersect a b) c = intersect a (intersect b c) := by
  refine elements_injective ?_
  simp only [elements_intersect, Finset.inter_assoc]

theorem size_intersect_le (a b : CapabilitySet) :
    (intersect a b).size ≤ min a.size b.size := by
  rw [← card_elements, ← card_elements, ← card_elements, elements_intersect]
  exact le_min (Finset.card_le_card Finset.inter_subset_left)
    (Finset.card_le_card Finset.inter_subset_right)

/-! ## A run of the class -/

/-- What a holder of a set does to it. -/
inductive Change where
  | insert (c : Bytes)
  | intersect (other : CapabilitySet)

/-- One change of the container. -/
def apply (s : CapabilitySet) : Change → CapabilitySet
  | .insert c => s.insert c
  | .intersect other => intersect s other

/-- The same change of the finite set. -/
def Change.act (names : Finset Bytes) : Change → Finset Bytes
  | .insert c => Insert.insert c names
  | .intersect other => names ∩ other.elements

theorem elements_apply (s : CapabilitySet) (change : Change) :
    (s.apply change).elements = change.act s.elements := by
  cases change with
  | insert c => exact elements_insert s c
  | intersect other => exact elements_intersect s other

/-- The container follows the finite set through a run. -/
theorem elements_run (s : CapabilitySet) (changes : List Change) :
    (changes.foldl apply s).elements = changes.foldl Change.act s.elements := by
  induction changes generalizing s with
  | nil => rfl
  | cons change changes ih =>
      rw [List.foldl_cons, List.foldl_cons, ih, elements_apply]

/-- What can be observed of a set is what is so of the finite set. -/
structure Shows (s : CapabilitySet) (names : Finset Bytes) : Prop where
  contains : ∀ c, s.contains c = true ↔ c ∈ names
  size : s.size = names.card
  empty : s.empty = true ↔ names = ∅
  value : s.value = names.sort (· ≤ ·)
  same : ∀ s' : CapabilitySet, s = s' ↔ names = s'.elements

theorem shows_elements (s : CapabilitySet) : Shows s s.elements := by
  have hsorted : s.value.Pairwise (· ≤ ·) := s.sorted.imp fun hlt => List.le_of_lt hlt
  refine ⟨?_, s.card_elements.symm, empty_iff, ?_, ?_⟩
  · intro c
    exact contains_iff
  · exact ((List.toFinset_sort (· ≤ ·) s.nodup_value).mpr hsorted).symm
  · intro s'
    exact elements_injective.eq_iff.symm

/-- **A capability set is a finite set of names.**  The sets and the finite sets
are in bijection; and after any run of insertions and intersections, on a set
built from any list, every observation (membership, size, emptiness, the ordered
content, equality with another set) is that of the finite set which the same run
makes. -/
theorem capabilitySet_is_finset :
    Function.Bijective elements ∧
    ∀ (values : List Bytes) (changes : List Change),
      Shows (changes.foldl apply (ofList values)) (changes.foldl Change.act values.toFinset) := by
  refine ⟨⟨elements_injective, elements_surjective⟩, ?_⟩
  intro values changes
  have hrun := elements_run (ofList values) changes
  rw [elements_ofList] at hrun
  rw [← hrun]
  exact shows_elements _

end ChatHub.Contracts.CapabilitySet
