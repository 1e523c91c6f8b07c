/-
# `ChatHub.Lib.Machine` — readers that are fed and popped in any order

A `Machine` is a state with the two calls a client makes of a stream reader:
`feed` hands it the symbols that have just arrived, `pop` asks it for the next
finished item.  A run is any finite sequence of these calls (`Op`); `fed` is
what arrived in it and `run` what was popped.

Two rules carry every result about runs, so that no other proof does an
induction over calls:

    `run_invariant`   a relation between what was fed, what was popped and the
                      state, kept by each call, holds after every run
    `run_simulates`   a machine that answers each call as another one does
                      answers each run as it does

A machine whose feed counts (`meter`) is such a machine if it feeds as the plain
one does, so what a run costs is one more invariant of it.

The machine `reader p` is the purpose of such a component in its own terms: it
keeps the unread rest of the stream and the items not yet popped, and stops
for good at the first broken item.  `reader_run` says that after any run it
stands where the walk over the whole stream stands (`Reads`).
-/
import Mathlib.Data.List.Induction
import ChatHub.Lib.Metered
import ChatHub.Lib.Stream

namespace Streaming

open Metering

variable {S T σ φ ε : Type}

/-- A call of a stream reader. -/
inductive Op (σ : Type) where
  | feed (chunk : List σ)
  | pop
  deriving DecidableEq, Repr

/-- The symbols a call brings in. -/
def Op.symbols : Op σ → List σ
  | .feed chunk => chunk
  | .pop => []

/-- The whole stream a sequence of calls brings in. -/
def fed (ops : List (Op σ)) : List σ := ops.flatMap Op.symbols

@[simp] theorem fed_nil : fed ([] : List (Op σ)) = [] := rfl

@[simp] theorem fed_append (ops ops' : List (Op σ)) : fed (ops ++ ops') = fed ops ++ fed ops' := by
  simp [fed]

@[simp] theorem fed_feed (chunk : List σ) : fed [Op.feed chunk] = chunk := by
  simp [fed, Op.symbols]

@[simp] theorem fed_pop : fed [(Op.pop : Op σ)] = [] := rfl

/-- A state with the two calls of a stream reader. -/
structure Machine (S σ φ : Type) where
  feed : S → List σ → S
  pop : S → Option φ × S

namespace Machine

variable (m : Machine S σ φ)

/-- One call: the item it delivers, if any, and the state after it. -/
def step (s : S) : Op σ → Option φ × S
  | .feed chunk => (none, m.feed s chunk)
  | .pop => m.pop s

/-- A sequence of calls: everything popped, in order, and the final state. -/
def run : S → List (Op σ) → List φ × S
  | s, [] => ([], s)
  | s, o :: os => ((m.step s o).1.toList ++ (run (m.step s o).2 os).1, (run (m.step s o).2 os).2)

variable {m}

theorem run_append (s : S) (ops ops' : List (Op σ)) :
    m.run s (ops ++ ops') =
      ((m.run s ops).1 ++ (m.run (m.run s ops).2 ops').1, (m.run (m.run s ops).2 ops').2) := by
  induction ops generalizing s with
  | nil => rfl
  | cons o os ih => simp [run, ih]

theorem run_concat (s : S) (ops : List (Op σ)) (o : Op σ) :
    m.run s (ops ++ [o]) =
      ((m.run s ops).1 ++ (m.step (m.run s ops).2 o).1.toList, (m.step (m.run s ops).2 o).2) := by
  rw [run_append]
  simp [run]

/-- **The induction over calls**, done once.  `I b out s` relates the stream
`b` fed so far, the items `out` popped so far and the state `s`. -/
theorem run_invariant {I : List σ → List φ → S → Prop} {s₀ : S} (init : I [] [] s₀)
    (feed : ∀ b out s chunk, I b out s → I (b ++ chunk) out (m.feed s chunk))
    (pop : ∀ b out s, I b out s → I b (out ++ (m.pop s).1.toList) (m.pop s).2)
    (ops : List (Op σ)) : I (fed ops) (m.run s₀ ops).1 (m.run s₀ ops).2 := by
  induction ops using List.reverseRecOn with
  | nil => exact init
  | append_singleton os o ih =>
      rw [run_concat, fed_append]
      cases o with
      | feed chunk => simpa [step] using feed _ _ _ chunk ih
      | pop => simpa [step] using pop _ _ _ ih

/-- `m` answers every call as `n` does, from related states. -/
structure Simulates (m : Machine S σ φ) (n : Machine T σ φ) (R : S → T → Prop) : Prop where
  feed : ∀ {s : S} {t : T}, R s t → ∀ chunk, R (m.feed s chunk) (n.feed t chunk)
  pop : ∀ {s : S} {t : T}, R s t → (m.pop s).1 = (n.pop t).1 ∧ R (m.pop s).2 (n.pop t).2

/-- Call by call, then run by run. -/
theorem run_simulates {n : Machine T σ φ} {R : S → T → Prop} (h : m.Simulates n R) :
    ∀ (ops : List (Op σ)) {s : S} {t : T}, R s t →
      (m.run s ops).1 = (n.run t ops).1 ∧ R (m.run s ops).2 (n.run t ops).2
  | [], _, _, hr => ⟨rfl, hr⟩
  | .feed chunk :: os, _, _, hr => run_simulates h os (h.feed hr chunk)
  | .pop :: os, s, t, hr => by
      obtain ⟨hout, hstate⟩ := h.pop hr
      obtain ⟨hrest, hend⟩ := run_simulates h os hstate
      refine ⟨?_, hend⟩
      show (m.pop s).1.toList ++ (m.run (m.pop s).2 os).1
        = (n.pop t).1.toList ++ (n.run (n.pop t).2 os).1
      rw [hout, hrest]

/-! ## Costs -/

section
variable {κ : Type} [AddMonoid κ] {feed : S → List σ → Metered κ S}

/-- The machine that feeds with the counting `feed`, and adds up what that costs. -/
def meter (m : Machine S σ φ) (feed : S → List σ → Metered κ S) : Machine (S × κ) σ φ where
  feed s chunk := ((feed s.1 chunk).result, s.2 + (feed s.1 chunk).cost)
  pop s := ((m.pop s.1).1, (m.pop s.1).2, s.2)

theorem meter_simulates (h : ∀ s chunk, (feed s chunk).result = m.feed s chunk) :
    (m.meter feed).Simulates m fun s t => s.1 = t where
  feed := by
    rintro s t rfl chunk
    exact h s.1 chunk
  pop := by
    rintro s t rfl
    exact ⟨rfl, rfl⟩

/-- If `feed` is that of the machine but for the counting, what is popped and
the state are, too. -/
theorem run_meter (h : ∀ s chunk, (feed s chunk).result = m.feed s chunk) (s : S) (c : κ)
    (ops : List (Op σ)) :
    ((m.meter feed).run (s, c) ops).1 = (m.run s ops).1 ∧
      ((m.meter feed).run (s, c) ops).2.1 = (m.run s ops).2 :=
  run_simulates (meter_simulates h) ops rfl

end

end Machine

/-! ## The reader a parser defines -/

/-- What a reader of a stream has to remember. -/
structure Reader (σ φ ε : Type) where
  pending : List σ
  ready : List φ
  broken : Option ε
  deriving DecidableEq, Repr

/-- A reader to which nothing has been fed. -/
def Reader.fresh : Reader σ φ ε := ⟨[], [], none⟩

/-- Walk on from the pending symbols through the new ones. -/
def Reader.feed (p : ItemParser σ φ ε) (s : Reader σ φ ε) (chunk : List σ) : Reader σ φ ε :=
  match s.broken with
  | some _ => s
  | none =>
      match p.parse (s.pending ++ chunk) with
      | (fs, .rest r) => ⟨r, s.ready ++ fs, none⟩
      | (fs, .failed e) => ⟨[], s.ready ++ fs, some e⟩

/-- The oldest finished item; nothing once the stream is broken. -/
def Reader.pop (s : Reader σ φ ε) : Option φ × Reader σ φ ε :=
  match s.broken, s.ready with
  | none, f :: fs => (some f, { s with ready := fs })
  | _, _ => (none, s)

/-- The reader of a parser, as a machine. -/
def reader (p : ItemParser σ φ ε) : Machine (Reader σ φ ε) σ φ where
  feed := Reader.feed p
  pop := Reader.pop

/-- The reader stands where the walk over `b` stands: the items popped and the
items waiting are those of `b`, and it is broken, or waits at the rest of `b`,
as the walk is or does. -/
structure Reads (p : ItemParser σ φ ε) (b : List σ) (out : List φ) (s : Reader σ φ ε) : Prop where
  items : out ++ s.ready = (p.parse b).1
  broken : s.broken = (p.parse b).2.error?
  pending : s.broken = none → (p.parse b).2 = .rest s.pending

section
variable {p : ItemParser σ φ ε} {b : List σ} {out : List φ} {s : Reader σ φ ε}

theorem Reads.feed (h : Reads p b out s) (chunk : List σ) :
    Reads p (b ++ chunk) out (Reader.feed p s chunk) := by
  cases hs : s.broken with
  | some e =>
      have hb : (p.parse b).2 = .failed e := Ending.error?_eq_some.mp (h.broken ▸ hs)
      have hp : p.parse (b ++ chunk) = p.parse b := ItemParser.parse_append_failed hb chunk
      simp only [Reader.feed, hs]
      exact ⟨hp ▸ h.items, hp ▸ h.broken, fun hn => by simp [hs] at hn⟩
  | none =>
      have hp := ItemParser.parse_append_rest (h.pending hs) chunk
      simp only [Reader.feed, hs]
      -- the walk over `pending ++ chunk` ends as the walk over `b ++ chunk` does
      cases hw : p.parse (s.pending ++ chunk) with
      | mk fs t =>
          rw [hw] at hp
          cases t with
          | rest r =>
              exact ⟨by rw [hp, ← h.items, List.append_assoc], by rw [hp]; rfl, fun _ => by rw [hp]⟩
          | failed e =>
              exact ⟨by rw [hp, ← h.items, List.append_assoc], by rw [hp]; rfl, fun hn => nomatch hn⟩

theorem Reads.pop (h : Reads p b out s) : Reads p b (out ++ s.pop.1.toList) s.pop.2 := by
  cases hs : s.broken with
  | some e => simpa [Reader.pop, hs] using h
  | none =>
      cases hr : s.ready with
      | nil => simpa [Reader.pop, hs, hr] using h
      | cons f fs =>
          have hi := h.items
          rw [hr] at hi
          simp only [Reader.pop, hs, hr]
          exact ⟨by simpa using hi, hs ▸ h.broken, fun _ => h.pending hs⟩

/-- **After any run the reader stands where the walk over the whole stream
stands.** -/
theorem reader_run (p : ItemParser σ φ ε) (ops : List (Op σ)) :
    Reads p (fed ops) ((reader p).run .fresh ops).1 ((reader p).run .fresh ops).2 := by
  refine Machine.run_invariant (I := Reads p) ?_ ?_ ?_ ops
  · have hnil := ItemParser.parse_more p.nil
    exact ⟨by rw [hnil]; rfl, by rw [hnil]; rfl, fun _ => by rw [hnil]; rfl⟩
  · exact fun _ _ _ chunk h => h.feed chunk
  · exact fun _ _ _ h => h.pop

end

end Streaming
