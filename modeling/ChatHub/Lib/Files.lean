/-
# `ChatHub.Lib.Files` — writing files one after the other

A `Store` says what is in each file.  To write a file is to open it, which
empties it, and to put bytes in; either can go wrong (`Fate`), and then the
writer is told so, but what was already done to the file stays.  `writeAll`
writes a list of files and stops at the first that goes wrong.

What it leaves behind has one shape (`writeAll_cases`): some first files of the
list complete, then, unless the list is done, one that is as it was or cut short,
and nothing else touched.
-/
import Mathlib.Logic.Function.Basic
import Mathlib.Data.List.Nodup

namespace Files

variable {P : Type}

/-- What is in each file; nothing where there is no file. -/
abbrev Store (P : Type) := P → Option (List UInt8)

/-- What becomes of an attempt to write a file. -/
inductive Fate where
  /-- All bytes are in it. -/
  | stored
  /-- It cannot be opened. -/
  | unopened
  /-- It is opened, and `n` bytes get into it. -/
  | cut (n : Nat)
  deriving DecidableEq

variable [DecidableEq P]

def put (store : Store P) (p : P) (data : List UInt8) : Store P :=
  Function.update store p (some data)

/-- Write one file: was everything stored, and what is in the files. -/
def write (store : Store P) (p : P) (data : List UInt8) : Fate → Bool × Store P
  | .stored => (true, put store p data)
  | .unopened => (false, store)
  | .cut n => (false, put store p (data.take n))

/-- Write files in order up to the first that goes wrong; `fate` says what becomes
of each attempt. -/
def writeAll (fate : Nat → Fate) (store : Store P) : List (P × List UInt8) → Bool × Store P
  | [] => (true, store)
  | (p, data) :: files =>
      match write store p data (fate 0) with
      | (true, store') => writeAll (fun i => fate (i + 1)) store' files
      | (false, store') => (false, store')

/-- All files of the list, complete. -/
def putAll (store : Store P) (files : List (P × List UInt8)) : Store P :=
  files.foldl (fun store file => put store file.1 file.2) store

theorem put_self (store : Store P) (p : P) (data : List UInt8) :
    put store p data p = some data := by
  rw [put, Function.update_self]

theorem put_of_ne {store : Store P} {p q : P} {data : List UInt8} (h : q ≠ p) :
    put store p data q = store q := by
  rw [put, Function.update_of_ne h]

/-- Other files are not touched. -/
theorem putAll_of_notMem {store : Store P} {files : List (P × List UInt8)} {q : P}
    (h : q ∉ files.map Prod.fst) : putAll store files q = store q := by
  induction files generalizing store with
  | nil => rfl
  | cons file files ih =>
      rw [List.map_cons, List.mem_cons, not_or] at h
      exact (ih h.2).trans (put_of_ne h.1)

/-- Under different names, every file is there. -/
theorem putAll_of_mem {store : Store P} {files : List (P × List UInt8)} {p : P} {data : List UInt8}
    (hnodup : (files.map Prod.fst).Nodup) (h : (p, data) ∈ files) :
    putAll store files p = some data := by
  induction files generalizing store with
  | nil => cases h
  | cons file files ih =>
      obtain ⟨hfirst, hrest⟩ := List.nodup_cons.mp hnodup
      rcases List.mem_cons.mp h with rfl | hmem
      · exact (putAll_of_notMem hfirst).trans (put_self _ _ _)
      · exact ih hrest hmem

theorem writeAll_stored {fate : Nat → Fate} {store : Store P} {files : List (P × List UInt8)}
    (h : ∀ i < files.length, fate i = .stored) :
    writeAll fate store files = (true, putAll store files) := by
  induction files generalizing fate store with
  | nil => rfl
  | cons file files ih =>
      have hrest : writeAll (fun i => fate (i + 1)) (put store file.1 file.2) files =
          (true, putAll (put store file.1 file.2) files) :=
        ih fun i hi => h (i + 1) (Nat.succ_lt_succ hi)
      rw [writeAll, h 0 (Nat.succ_pos _), write]
      exact hrest

/-- **What writing leaves behind.**  Everything; or a complete first part, and the
file behind it as it was or cut short. -/
theorem writeAll_cases (fate : Nat → Fate) (store : Store P) (files : List (P × List UInt8)) :
    writeAll fate store files = (true, putAll store files) ∨
    ∃ done p data rest, files = done ++ (p, data) :: rest ∧
      fate done.length ≠ .stored ∧
      (writeAll fate store files = (false, putAll store done) ∨
        ∃ n, writeAll fate store files = (false, put (putAll store done) p (data.take n))) := by
  induction files generalizing fate store with
  | nil => exact .inl rfl
  | cons file files ih =>
      obtain ⟨p, data⟩ := file
      cases hfate : fate 0 with
      | unopened =>
          refine .inr ⟨[], p, data, files, rfl, fun h => ?_, .inl ?_⟩
          · rw [List.length_nil, hfate] at h
            cases h
          · rw [writeAll, hfate]
            rfl
      | cut n =>
          refine .inr ⟨[], p, data, files, rfl, fun h => ?_, .inr ⟨n, ?_⟩⟩
          · rw [List.length_nil, hfate] at h
            cases h
          · rw [writeAll, hfate]
            rfl
      | stored =>
          have hstep : writeAll fate store ((p, data) :: files) =
              writeAll (fun i => fate (i + 1)) (put store p data) files := by
            rw [writeAll, hfate]
            rfl
          rw [hstep]
          rcases ih (fun i => fate (i + 1)) (put store p data) with
            hall | ⟨done, q, data', rest, hsplit, hwrong, hleft⟩
          · exact .inl hall
          · exact .inr ⟨(p, data) :: done, q, data', rest, congrArg _ hsplit, hwrong, hleft⟩

/-- Success is that every attempt was stored. -/
theorem writeAll_eq_true_iff {fate : Nat → Fate} {store : Store P}
    {files : List (P × List UInt8)} :
    (writeAll fate store files).1 = true ↔ ∀ i < files.length, fate i = .stored := by
  constructor
  · induction files generalizing fate store with
    | nil => exact fun _ i hi => absurd hi (Nat.not_lt_zero i)
    | cons file files ih =>
        intro h i hi
        cases hfate : fate 0 with
        | stored =>
            rw [writeAll, hfate] at h
            cases i with
            | zero => exact hfate
            | succ i => exact ih h i (Nat.lt_of_succ_lt_succ hi)
        | unopened =>
            rw [writeAll, hfate] at h
            cases h
        | cut n =>
            rw [writeAll, hfate] at h
            cases h
  · intro h
    rw [writeAll_stored h]

/-- What an attempt to write the files of a list may leave of `store`. -/
structure Leaves (files : List (P × List UInt8)) (store : Store P) (ok : Bool) (store' : Store P) :
    Prop where
  /-- Files that are not in the list are as they were. -/
  frame : ∀ q ∉ files.map Prod.fst, store' q = store q
  complete : ok = true → ∀ file ∈ files, store' file.1 = some file.2
  /-- A first part is complete; the next file is as it was or has a first part of its
  contents; the others are as they were. -/
  broken : ok = false → ∃ done p data rest, files = done ++ (p, data) :: rest ∧
    (∀ file ∈ done, store' file.1 = some file.2) ∧
    (store' p = store p ∨ ∃ n, store' p = some (data.take n)) ∧
    ∀ file ∈ rest, store' file.1 = store file.1

theorem writeAll_leaves (fate : Nat → Fate) (store : Store P) {files : List (P × List UInt8)}
    (hnodup : (files.map Prod.fst).Nodup) :
    Leaves files store (writeAll fate store files).1 (writeAll fate store files).2 := by
  rcases writeAll_cases fate store files with hall | ⟨done, p, data, rest, rfl, -, hleft⟩
  · rw [hall]
    exact ⟨fun q hq => putAll_of_notMem hq, fun _ file hfile => putAll_of_mem hnodup hfile, nofun⟩
  · rw [List.map_append, List.map_cons] at hnodup
    obtain ⟨hdone, hrest, hapart⟩ := List.nodup_append.mp hnodup
    obtain ⟨hp, -⟩ := List.nodup_cons.mp hrest
    have hp_done : p ∉ done.map Prod.fst := fun h => hapart p h p List.mem_cons_self rfl
    have hrest_done : ∀ file ∈ rest, file.1 ∉ done.map Prod.fst := by
      intro file hfile h
      exact hapart _ h _ (List.mem_cons_of_mem p (List.mem_map_of_mem hfile)) rfl
    have hrest_p : ∀ file ∈ rest, file.1 ≠ p := by
      intro file hfile heq
      have hmem : file.1 ∈ rest.map Prod.fst := List.mem_map_of_mem hfile
      rw [heq] at hmem
      exact hp hmem
    have hdone_p : ∀ file ∈ done, file.1 ≠ p := by
      rintro file hfile rfl
      exact hp_done (List.mem_map_of_mem hfile)
    have hframe : ∀ q ∉ (done ++ (p, data) :: rest).map Prod.fst, q ∉ done.map Prod.fst ∧ q ≠ p := by
      intro q hq
      rw [List.map_append, List.map_cons, List.mem_append, List.mem_cons, not_or, not_or] at hq
      exact ⟨hq.1, hq.2.1⟩
    rcases hleft with hleft | ⟨n, hleft⟩
    · rw [hleft]
      refine ⟨fun q hq => putAll_of_notMem (hframe q hq).1, nofun, fun _ => ?_⟩
      refine ⟨done, p, data, rest, rfl, fun file hfile => putAll_of_mem hdone hfile, .inl ?_, ?_⟩
      · exact putAll_of_notMem hp_done
      · exact fun file hfile => putAll_of_notMem (hrest_done file hfile)
    · rw [hleft]
      refine ⟨?_, nofun, fun _ => ⟨done, p, data, rest, rfl, ?_, .inr ⟨n, put_self _ _ _⟩, ?_⟩⟩
      · intro q hq
        exact (put_of_ne (hframe q hq).2).trans (putAll_of_notMem (hframe q hq).1)
      · intro file hfile
        exact (put_of_ne (hdone_p file hfile)).trans (putAll_of_mem hdone hfile)
      · intro file hfile
        exact (put_of_ne (hrest_p file hfile)).trans (putAll_of_notMem (hrest_done file hfile))

end Files
