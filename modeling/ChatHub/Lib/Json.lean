/-
# `ChatHub.Lib.Json` — JSON values as trees

A JSON library hands its clients a tree; what the strings and numbers in it are
is the library's business, so the tree has them as parameters.  An object is a
list of members.  `find?` looks a key up and `insert` assigns to it, the two
operations objects are read and built with; `insert` keeps keys distinct.

    Proper P N d t   strings satisfy P, numbers N, keys are distinct, and
                     containers are nested at most d deep
    Same S N t u     u is t with its strings and numbers translated along S
                     and N; members are compared key by key, so their order
                     does not count
    room t           how long the compact text of t can be, given what its
                     strings and numbers can take up
    sortKeys le t    t with the members of each object in the order of their
                     keys, which some libraries keep them in

`Same` is how two libraries agree on a text: one writes `t`, the other reads
`u`.
-/
import Mathlib.Data.List.Forall2
import Mathlib.Data.List.Nodup
import Mathlib.Data.List.Sort
import Mathlib.Algebra.Order.BigOperators.Group.List
import Mathlib.Algebra.Order.Group.Nat
import Mathlib.Algebra.GroupWithZero.Nat

inductive Json (σ ν : Type) where
  | null
  | bool (b : Bool)
  | num (n : ν)
  | str (s : σ)
  | arr (items : List (Json σ ν))
  | obj (members : List (σ × Json σ ν))

namespace Json

variable {σ σ' ν ν' ν'' : Type}

/-! ## Objects -/

section
variable [DecidableEq σ]

/-- The value of the first member with key `k`. -/
def find? (k : σ) : List (σ × Json σ ν) → Option (Json σ ν)
  | [] => none
  | m :: ms => if m.1 = k then some m.2 else find? k ms

/-- Assign `v` to the key `k`: in its place, or behind all members. -/
def insert (k : σ) (v : Json σ ν) : List (σ × Json σ ν) → List (σ × Json σ ν)
  | [] => [(k, v)]
  | m :: ms => if m.1 = k then (k, v) :: ms else m :: insert k v ms

theorem mem_insert {k : σ} {v : Json σ ν} {ms : List (σ × Json σ ν)} {m : σ × Json σ ν}
    (h : m ∈ insert k v ms) : m = (k, v) ∨ m ∈ ms := by
  induction ms with
  | nil => exact .inl (List.mem_singleton.mp h)
  | cons m' ms ih =>
      simp only [insert] at h
      split at h
      · rcases List.mem_cons.mp h with h | h
        · exact .inl h
        · exact .inr (List.mem_cons_of_mem m' h)
      · rcases List.mem_cons.mp h with rfl | h
        · exact .inr List.mem_cons_self
        · rcases ih h with h | h
          · exact .inl h
          · exact .inr (List.mem_cons_of_mem m' h)

theorem nodup_insert (k : σ) (v : Json σ ν) {ms : List (σ × Json σ ν)}
    (h : (ms.map Prod.fst).Nodup) : ((insert k v ms).map Prod.fst).Nodup := by
  induction ms with
  | nil => exact List.nodup_singleton k
  | cons m ms ih =>
      obtain ⟨hm, hms⟩ := List.nodup_cons.mp h
      simp only [insert]
      split
      · rename_i hk
        rw [List.map_cons, ← hk]
        exact h
      · rename_i hk
        refine List.nodup_cons.mpr ⟨?_, ih hms⟩
        intro hmem
        obtain ⟨m', hm', heq⟩ := List.mem_map.mp hmem
        rcases mem_insert hm' with rfl | hm'
        · exact hk heq.symm
        · exact hm (heq ▸ List.mem_map_of_mem hm')

/-- A new key goes behind all members. -/
theorem insert_of_not_mem {k : σ} (v : Json σ ν) {ms : List (σ × Json σ ν)}
    (h : k ∉ ms.map Prod.fst) : insert k v ms = ms ++ [(k, v)] := by
  induction ms with
  | nil => rfl
  | cons m ms ih =>
      obtain ⟨hne, hms⟩ := not_or.mp (mt List.mem_cons.mpr h)
      rw [insert, if_neg (Ne.symm hne), ih hms]
      rfl

end

/-! ## Proper trees -/

/-- Every string satisfies `P` and every number `N`, the keys of an object are
distinct, and containers are nested at most `d` deep. -/
inductive Proper (P : σ → Prop) (N : ν → Prop) : Nat → Json σ ν → Prop
  | null {d : Nat} : Proper P N d .null
  | bool {d : Nat} (b : Bool) : Proper P N d (.bool b)
  | num {d : Nat} {n : ν} : N n → Proper P N d (.num n)
  | str {d : Nat} {s : σ} : P s → Proper P N d (.str s)
  | arr {d : Nat} {items : List (Json σ ν)} :
      (∀ t ∈ items, Proper P N d t) → Proper P N (d + 1) (.arr items)
  | obj {d : Nat} {members : List (σ × Json σ ν)} : (members.map Prod.fst).Nodup →
      (∀ m ∈ members, P m.1) → (∀ m ∈ members, Proper P N d m.2) →
      Proper P N (d + 1) (.obj members)

/-! ## Functions on trees -/

theorem sizeOf_item [SizeOf σ] [SizeOf ν] {t : Json σ ν} {items : List (Json σ ν)}
    (h : t ∈ items) : sizeOf t < sizeOf (arr items) := by
  have hlt := List.sizeOf_lt_of_mem h
  simp only [arr.sizeOf_spec]
  omega

theorem sizeOf_member [SizeOf σ] [SizeOf ν] {m : σ × Json σ ν} {members : List (σ × Json σ ν)}
    (h : m ∈ members) : sizeOf m.2 < sizeOf (obj members) := by
  have hlt := List.sizeOf_lt_of_mem h
  cases m
  simp only [obj.sizeOf_spec, Prod.mk.sizeOf_spec] at hlt ⊢
  omega

/-- The length of the compact text of a tree, when a string takes up `len` and
a number `num`. -/
def room (len : σ → Nat) (num : ν → Nat) : Json σ ν → Nat
  | .null => 4
  | .bool _ => 5
  | .num n => num n
  | .str s => len s
  | .arr items => 2 + (items.map fun t => room len num t + 1).sum
  | .obj members => 2 + (members.map fun m => len m.1 + room len num m.2 + 2).sum
termination_by t => sizeOf t
decreasing_by
  · exact sizeOf_item ‹_›
  · exact sizeOf_member ‹_›

/-- The tree with its numbers replaced. -/
def mapNum (g : ν → ν') : Json σ ν → Json σ ν'
  | .null => .null
  | .bool b => .bool b
  | .num n => .num (g n)
  | .str s => .str s
  | .arr items => .arr (items.map fun t => mapNum g t)
  | .obj members => .obj (members.map fun m => (m.1, mapNum g m.2))
termination_by t => sizeOf t
decreasing_by
  · exact sizeOf_item ‹_›
  · exact sizeOf_member ‹_›

theorem mapNum_id (t : Json σ ν) : t.mapNum id = t := by
  induction t using mapNum.induct with
  | case1 => rw [mapNum]
  | case2 b => rw [mapNum]
  | case3 n => rw [mapNum]; rfl
  | case4 s => rw [mapNum]
  | case5 items ih => rw [mapNum, List.map_congr_left ih, List.map_id']
  | case6 members ih =>
      have hmember : ∀ m ∈ members, (m.1, mapNum id m.2) = m := fun m hm => by rw [ih m hm]
      rw [mapNum, List.map_congr_left hmember, List.map_id']

theorem mapNum_mapNum (g : ν → ν') (h : ν' → ν'') (t : Json σ ν) :
    (t.mapNum g).mapNum h = t.mapNum fun n => h (g n) := by
  induction t using mapNum.induct with
  | case1 => simp only [mapNum]
  | case2 b => simp only [mapNum]
  | case3 n => simp only [mapNum]
  | case4 s => simp only [mapNum]
  | case5 items ih =>
      simp only [mapNum, List.map_map]
      exact congrArg Json.arr (List.map_congr_left ih)
  | case6 members ih =>
      simp only [mapNum, List.map_map]
      exact congrArg Json.obj (List.map_congr_left fun m hm => congrArg (Prod.mk m.1) (ih m hm))

theorem room_mapNum (len : σ → Nat) (num : ν' → Nat) (g : ν → ν') (t : Json σ ν) :
    (t.mapNum g).room len num = t.room len fun n => num (g n) := by
  induction t using mapNum.induct with
  | case1 => simp only [mapNum, room]
  | case2 b => simp only [mapNum, room]
  | case3 n => simp only [mapNum, room]
  | case4 s => simp only [mapNum, room]
  | case5 items ih =>
      simp only [mapNum, room, List.map_map]
      exact congrArg (2 + ·.sum) (List.map_congr_left fun t ht => congrArg (· + 1) (ih t ht))
  | case6 members ih =>
      simp only [mapNum, room, List.map_map]
      exact congrArg (2 + ·.sum)
        (List.map_congr_left fun m hm => congrArg (len m.1 + · + 2) (ih m hm))

theorem find?_map [DecidableEq σ] (f : Json σ ν → Json σ ν') (k : σ) (ms : List (σ × Json σ ν)) :
    find? k (ms.map fun m => (m.1, f m.2)) = (find? k ms).map f := by
  induction ms with
  | nil => rfl
  | cons m ms ih =>
      simp only [List.map_cons, find?, ih]
      split <;> rfl

theorem mem_of_find? [DecidableEq σ] {k : σ} {ms : List (σ × Json σ ν)} {v : Json σ ν}
    (h : find? k ms = some v) : (k, v) ∈ ms := by
  induction ms with
  | nil => cases h
  | cons m ms ih =>
      simp only [find?] at h
      split at h
      · rename_i hk
        cases h
        rw [← hk]
        exact List.mem_cons_self
      · exact List.mem_cons_of_mem m (ih h)

theorem Proper.imp {P Q : σ → Prop} {N M : ν → Prop} (hP : ∀ s, P s → Q s) (hN : ∀ n, N n → M n)
    {d : Nat} {t : Json σ ν} (h : Proper P N d t) : Proper Q M d t := by
  induction h with
  | null => exact .null
  | bool b => exact .bool b
  | num hn => exact .num (hN _ hn)
  | str hs => exact .str (hP _ hs)
  | arr _ ih => exact .arr ih
  | obj hnodup hkeys _ ih => exact .obj hnodup (fun m hm => hP _ (hkeys m hm)) ih

theorem Proper.mapNum {P : σ → Prop} {N : ν → Prop} {M : ν' → Prop} {g : ν → ν'}
    (hg : ∀ n, N n → M (g n)) {d : Nat} {t : Json σ ν} (h : Proper P N d t) :
    Proper P M d (t.mapNum g) := by
  induction h with
  | null => simpa only [Json.mapNum] using .null
  | bool b => simpa only [Json.mapNum] using .bool b
  | num hn => simpa only [Json.mapNum] using .num (hg _ hn)
  | str hs => simpa only [Json.mapNum] using .str hs
  | arr _ ih =>
      simp only [Json.mapNum]
      refine .arr ?_
      intro u hu
      obtain ⟨t, ht, rfl⟩ := List.mem_map.mp hu
      exact ih t ht
  | obj hnodup hkeys _ ih =>
      simp only [Json.mapNum]
      refine .obj ?_ ?_ ?_
      · rw [List.map_map]
        exact hnodup
      · intro m hm
        obtain ⟨m', hm', rfl⟩ := List.mem_map.mp hm
        exact hkeys m' hm'
      · intro m hm
        obtain ⟨m', hm', rfl⟩ := List.mem_map.mp hm
        exact ih m' hm'

/-- More room for the leaves is more room for the tree. -/
theorem Proper.room_le {P : σ → Prop} {N : ν → Prop} {len len' : σ → Nat} {num num' : ν → Nat}
    (hlen : ∀ s, P s → len s ≤ len' s) (hnum : ∀ n, N n → num n ≤ num' n) {d : Nat}
    {t : Json σ ν} (h : Proper P N d t) : t.room len num ≤ t.room len' num' := by
  induction h with
  | null => simp only [room]; exact Nat.le_refl 4
  | bool b => simp only [room]; exact Nat.le_refl 5
  | num hn => simpa only [room] using hnum _ hn
  | str hs => simpa only [room] using hlen _ hs
  | arr _ ih =>
      simp only [room]
      exact Nat.add_le_add_left (List.sum_le_sum fun t ht => Nat.add_le_add_right (ih t ht) 1) 2
  | obj _ hkeys _ ih =>
      simp only [room]
      refine Nat.add_le_add_left (List.sum_le_sum fun m hm => ?_) 2
      exact Nat.add_le_add_right (Nat.add_le_add (hlen _ (hkeys m hm)) (ih m hm)) 2

/-! ## Members in the order of their keys -/

section
variable [DecidableEq σ]

theorem find?_eq_some_iff {ms : List (σ × Json σ ν)} (h : (ms.map Prod.fst).Nodup) {k : σ}
    {v : Json σ ν} : find? k ms = some v ↔ (k, v) ∈ ms := by
  constructor
  · exact mem_of_find?
  · intro hmem
    induction ms with
    | nil => cases hmem
    | cons m ms ih =>
        obtain ⟨hm, hms⟩ := List.nodup_cons.mp h
        rw [find?]
        rcases List.mem_cons.mp hmem with rfl | hmem
        · rw [if_pos rfl]
        · have hne : m.1 ≠ k := by
            rintro rfl
            exact hm (List.mem_map.mpr ⟨_, hmem, rfl⟩)
          rw [if_neg hne]
          exact ih hms hmem

/-- Looking up a key does not depend on the order of the members. -/
theorem find?_perm {ms ms' : List (σ × Json σ ν)} (hperm : ms.Perm ms')
    (h : (ms.map Prod.fst).Nodup) (k : σ) : find? k ms = find? k ms' := by
  have h' : (ms'.map Prod.fst).Nodup := (hperm.map Prod.fst).nodup_iff.mp h
  refine Option.ext ?_
  intro v
  rw [find?_eq_some_iff h, find?_eq_some_iff h', hperm.mem_iff]

end

/-- The tree with the members of each object in the order `le` of their keys. -/
def sortKeys (le : σ → σ → Prop) [DecidableRel le] : Json σ ν → Json σ ν
  | .null => .null
  | .bool b => .bool b
  | .num n => .num n
  | .str s => .str s
  | .arr items => .arr (items.map fun t => sortKeys le t)
  | .obj members =>
      .obj ((members.map fun m => (m.1, sortKeys le m.2)).insertionSort fun m m' => le m.1 m'.1)
termination_by t => sizeOf t
decreasing_by
  · exact sizeOf_item ‹_›
  · exact sizeOf_member ‹_›

section
variable {le : σ → σ → Prop} [DecidableRel le]

theorem Proper.sortKeys {P : σ → Prop} {N : ν → Prop} {d : Nat} {t : Json σ ν}
    (h : Proper P N d t) : Proper P N d (t.sortKeys le) := by
  induction h with
  | null => simpa only [Json.sortKeys] using .null
  | bool b => simpa only [Json.sortKeys] using .bool b
  | num hn => simpa only [Json.sortKeys] using .num hn
  | str hs => simpa only [Json.sortKeys] using .str hs
  | arr _ ih =>
      simp only [Json.sortKeys]
      refine .arr ?_
      intro u hu
      obtain ⟨t, ht, rfl⟩ := List.mem_map.mp hu
      exact ih t ht
  | @obj d members hnodup hkeys _ ih =>
      simp only [Json.sortKeys]
      have hperm := List.perm_insertionSort (fun m m' => le m.1 m'.1)
        (members.map fun m => (m.1, Json.sortKeys le m.2))
      refine .obj ?_ ?_ ?_
      · rw [(hperm.map Prod.fst).nodup_iff, List.map_map]
        exact hnodup
      · intro m hm
        obtain ⟨m', hm', rfl⟩ := List.mem_map.mp (hperm.mem_iff.mp hm)
        exact hkeys m' hm'
      · intro m hm
        obtain ⟨m', hm', rfl⟩ := List.mem_map.mp (hperm.mem_iff.mp hm)
        exact ih m' hm'

theorem room_sortKeys (len : σ → Nat) (num : ν → Nat) (t : Json σ ν) :
    (t.sortKeys le).room len num = t.room len num := by
  induction t using sortKeys.induct with
  | case1 => simp only [sortKeys]
  | case2 b => simp only [sortKeys]
  | case3 n => simp only [sortKeys]
  | case4 s => simp only [sortKeys]
  | case5 items ih =>
      simp only [sortKeys, room, List.map_map]
      exact congrArg (2 + ·.sum) (List.map_congr_left fun t ht => congrArg (· + 1) (ih t ht))
  | case6 members ih =>
      have hperm := List.perm_insertionSort (fun m m' => le m.1 m'.1)
        (members.map fun m => (m.1, sortKeys le m.2))
      simp only [sortKeys, room]
      rw [(hperm.map fun m => len m.1 + room len num m.2 + 2).sum_nat, List.map_map]
      exact congrArg (2 + ·.sum)
        (List.map_congr_left fun m hm => congrArg (len m.1 + · + 2) (ih m hm))

end

/-- The value of a field is a proper tree. -/
theorem Proper.of_find? [DecidableEq σ] {P : σ → Prop} {N : ν → Prop} {d : Nat}
    {members : List (σ × Json σ ν)} (h : Proper P N d (.obj members)) {k : σ} {v : Json σ ν}
    (hv : find? k members = some v) : ∃ e, Proper P N e v := by
  cases h with
  | obj _ _ hvalues => exact ⟨_, hvalues _ (mem_of_find? hv)⟩

/-! ## The same tree in another library -/

section
variable [DecidableEq σ] [DecidableEq σ']

/-- `u` is `t`, with strings translated along `S` and numbers along `N`. -/
inductive Same (S : σ → σ' → Prop) (N : ν → ν' → Prop) : Json σ ν → Json σ' ν' → Prop
  | null : Same S N .null .null
  | bool (b : Bool) : Same S N (.bool b) (.bool b)
  | num {n : ν} {n' : ν'} : N n n' → Same S N (.num n) (.num n')
  | str {s : σ} {s' : σ'} : S s s' → Same S N (.str s) (.str s')
  | arr {items : List (Json σ ν)} {items' : List (Json σ' ν')} :
      List.Forall₂ (Same S N) items items' → Same S N (.arr items) (.arr items')
  | obj {members : List (σ × Json σ ν)} {members' : List (σ' × Json σ' ν')} :
      (∀ k k', S k k' → Option.Rel (Same S N) (find? k members) (find? k' members')) →
      Same S N (.obj members) (.obj members')

/-- Two trees that differ in their numbers only are the same if these are. -/
theorem Proper.same_mapNum {P : σ → Prop} {N : ν → Prop} {S : σ → σ → Prop} {M : ν' → ν'' → Prop}
    {g : ν → ν'} {h : ν → ν''} (hkey : ∀ s s', S s s' → s = s') (hS : ∀ s, P s → S s s)
    (hM : ∀ n, N n → M (g n) (h n)) {d : Nat} {t : Json σ ν} (ht : Proper P N d t) :
    Same S M (t.mapNum g) (t.mapNum h) := by
  induction ht with
  | null => simpa only [Json.mapNum] using .null
  | bool b => simpa only [Json.mapNum] using .bool b
  | num hn => simpa only [Json.mapNum] using .num (hM _ hn)
  | str hs => simpa only [Json.mapNum] using .str (hS _ hs)
  | arr _ ih =>
      simp only [Json.mapNum]
      exact .arr (List.forall₂_map_left_iff.mpr
        (List.forall₂_map_right_iff.mpr (List.forall₂_same.mpr ih)))
  | @obj d members _ _ _ ih =>
      simp only [Json.mapNum]
      refine .obj ?_
      intro k k' hk
      rw [hkey k k' hk, find?_map, find?_map]
      cases hf : find? k' members with
      | none => exact .none
      | some v => exact .some (ih _ (mem_of_find? hf))

/-- A tree is the same as another one whether or not that is sorted. -/
theorem Same.of_sortKeys {P : σ' → Prop} {N : ν' → Prop} {S : σ → σ' → Prop} {M : ν → ν' → Prop}
    {le : σ' → σ' → Prop} [DecidableRel le] {d : Nat} {t : Json σ' ν'} (ht : Proper P N d t) :
    ∀ {u : Json σ ν}, Same S M u (t.sortKeys le) → Same S M u t := by
  induction ht with
  | null => intro u h; simpa only [sortKeys] using h
  | bool b => intro u h; simpa only [sortKeys] using h
  | num hn => intro u h; simpa only [sortKeys] using h
  | str hs => intro u h; simpa only [sortKeys] using h
  | arr hproper ih =>
      intro u h
      simp only [sortKeys] at h
      cases h with
      | arr hitems =>
          refine .arr ?_
          have hall := List.forall₂_map_right_iff.mp hitems
          clear hitems hproper
          induction hall with
          | nil => exact .nil
          | cons hitem _ ihs =>
              exact .cons (ih _ List.mem_cons_self hitem)
                (ihs fun t ht => ih t (List.mem_cons_of_mem _ ht))
  | @obj d members hnodup _ _ ih =>
      intro u h
      simp only [sortKeys] at h
      have hperm := List.perm_insertionSort (fun m m' => le m.1 m'.1)
        (members.map fun m => (m.1, sortKeys le m.2))
      cases h with
      | obj hmembers =>
          refine .obj ?_
          intro k k' hk
          have hrel := hmembers k k' hk
          rw [find?_perm hperm ((hperm.map Prod.fst).nodup_iff.mpr (by rwa [List.map_map])),
            find?_map] at hrel
          generalize find? k _ = x at hrel ⊢
          cases hf : find? k' members with
          | none =>
              rw [hf] at hrel
              cases hrel with
              | none => exact .none
          | some v =>
              rw [hf] at hrel
              cases hrel with
              | some hv => exact .some (ih _ (mem_of_find? hf) hv)

end

end Json
