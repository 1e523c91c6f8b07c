/-
# `ChatHub.Lib.Stream` — parsing a stream item by item, however it is cut

A stream of symbols is read as a sequence of items.  An `ItemParser` says what
the start of a stream tells about its first item: nothing yet (`more`), that
the stream is broken (`bad`), or the item and how many symbols it takes up.
Its laws are what makes an incremental reader possible at all:

    nothing is decided on an empty stream
    an item takes up at least one symbol, and no more than there are
    a verdict other than `more` is not changed by what comes behind

`parse` walks a whole stream.  What is proved of it:

    (parse xs).2 = failed e   ⟹  parse (xs ++ ys) = parse xs            (`parse_append_failed`)
    (parse xs).2 = rest r     ⟹  parse (xs ++ ys) continues at r ++ ys  (`parse_append_rest`)

A `Codec` adds an encoder that writes exactly what the parser reads; then the
consumed part of any stream is the encoding of its items (`parse_consumed`),
encodings parse back (`parse_encodeAll`), and no item is reported before its
last symbol is there (`parse_prefix`).

Nothing here knows what a symbol or an item is.
-/
import Mathlib.Data.List.Basic

namespace Streaming

variable {σ φ ε : Type}

/-- What the start of a stream says about its first item. -/
inductive Verdict (φ ε : Type) where
  | more
  | bad (e : ε)
  | item (f : φ) (n : Nat)
  deriving DecidableEq, Repr

/-- A parser of one item.  `stable` is prefix-closedness of the decision: once
the parser has made up its mind, later symbols do not matter. -/
structure ItemParser (σ φ ε : Type) where
  next : List σ → Verdict φ ε
  nil : next [] = .more
  pos : ∀ {xs : List σ} {f : φ} {n : Nat}, next xs = .item f n → 0 < n
  le : ∀ {xs : List σ} {f : φ} {n : Nat}, next xs = .item f n → n ≤ xs.length
  stable : ∀ {xs : List σ}, next xs ≠ .more → ∀ ys : List σ, next (xs ++ ys) = next xs

/-- How a walk over a stream ends: at an unfinished item, or at a broken one. -/
inductive Ending (σ ε : Type) where
  | rest (r : List σ)
  | failed (e : ε)
  deriving DecidableEq, Repr

/-- The error a walk ended with, if it did. -/
def Ending.error? : Ending σ ε → Option ε
  | .rest _ => none
  | .failed e => some e

theorem Ending.error?_eq_some {t : Ending σ ε} {e : ε} : t.error? = some e ↔ t = .failed e := by
  cases t with
  | rest r => simp [Ending.error?]
  | failed e' => simp [Ending.error?]

namespace ItemParser

variable (p : ItemParser σ φ ε)

/-- Walk a whole stream: the items it contains, and how the walk ends. -/
def parse (xs : List σ) : List φ × Ending σ ε :=
  match _hn : p.next xs with
  | .more => ([], .rest xs)
  | .bad e => ([], .failed e)
  | .item f n => (f :: (parse (xs.drop n)).1, (parse (xs.drop n)).2)
termination_by xs.length
decreasing_by
  all_goals
    have h₁ := p.pos _hn
    have h₂ := p.le _hn
    simp only [List.length_drop]
    omega

/-! ## One step of the walk -/

variable {p}

theorem parse_more {xs : List σ} (h : p.next xs = .more) : p.parse xs = ([], .rest xs) := by
  rw [parse]
  split <;> simp_all

theorem parse_bad {xs : List σ} {e : ε} (h : p.next xs = .bad e) :
    p.parse xs = ([], .failed e) := by
  rw [parse]
  split <;> simp_all

theorem parse_item {xs : List σ} {f : φ} {n : Nat} (h : p.next xs = .item f n) :
    p.parse xs = (f :: (p.parse (xs.drop n)).1, (p.parse (xs.drop n)).2) := by
  rw [parse]
  split <;> simp_all

/-- Induction along the walk: at an unfinished item, at a broken one, and past
a complete one. -/
theorem walk_induction {motive : List σ → Prop}
    (more : ∀ xs, p.next xs = .more → motive xs)
    (bad : ∀ xs e, p.next xs = .bad e → motive xs)
    (item : ∀ xs f n, p.next xs = .item f n → motive (xs.drop n) → motive xs) :
    ∀ xs, motive xs := by
  intro xs
  induction xs using ItemParser.parse.induct p with
  | case1 xs h => exact more xs h
  | case2 xs e h => exact bad xs e h
  | case3 xs f n h ih => exact item xs f n h ih

/-- What is left over starts with an unfinished item. -/
theorem next_rest (xs : List σ) : ∀ r, (p.parse xs).2 = .rest r → p.next r = .more := by
  induction xs using walk_induction (p := p) with
  | more xs h =>
      intro r hr
      rw [parse_more h] at hr
      cases hr
      exact h
  | bad xs e h => intro r hr; rw [parse_bad h] at hr; cases hr
  | item xs f n h ih => intro r hr; rw [parse_item h] at hr; exact ih r hr

/-! ## Going on where the walk stopped -/

theorem next_append_item {xs : List σ} {f : φ} {n : Nat} (h : p.next xs = .item f n)
    (ys : List σ) : p.next (xs ++ ys) = .item f n := by
  rw [p.stable (by simp [h]) ys, h]

/-- A broken stream stays broken, with the same items and the same error. -/
theorem parse_append_failed {xs : List σ} :
    ∀ {e : ε}, (p.parse xs).2 = .failed e → ∀ ys : List σ, p.parse (xs ++ ys) = p.parse xs := by
  induction xs using walk_induction (p := p) with
  | more xs h => intro e he ys; rw [parse_more h] at he; cases he
  | bad xs e h =>
      intro _ _ ys
      have h' : p.next (xs ++ ys) = .bad e := by rw [p.stable (by simp [h]) ys, h]
      rw [parse_bad h, parse_bad h']
  | item xs f n h ih =>
      intro e he ys
      rw [parse_item h] at he
      rw [parse_item h, parse_item (next_append_item h ys),
        List.drop_append_of_le_length (p.le h), ih he ys]

/-- Symbols that arrive later are read as if the walk had only paused. -/
theorem parse_append_rest {xs : List σ} :
    ∀ {r : List σ}, (p.parse xs).2 = .rest r → ∀ ys : List σ,
      p.parse (xs ++ ys) = ((p.parse xs).1 ++ (p.parse (r ++ ys)).1, (p.parse (r ++ ys)).2) := by
  induction xs using walk_induction (p := p) with
  | more xs h =>
      intro r hr ys
      rw [parse_more h] at hr
      cases hr
      simp [parse_more h]
  | bad xs e h => intro r hr; rw [parse_bad h] at hr; cases hr
  | item xs f n h ih =>
      intro r hr ys
      rw [parse_item h] at hr
      rw [parse_item h, parse_item (next_append_item h ys),
        List.drop_append_of_le_length (p.le h), ih hr ys]
      rfl

/-- The items of a prefix are a prefix of the items. -/
theorem parse_fst_prefix (xs ys : List σ) : (p.parse xs).1 <+: (p.parse (xs ++ ys)).1 := by
  cases h : (p.parse xs).2 with
  | failed e => exact ⟨[], by rw [parse_append_failed h ys, List.append_nil]⟩
  | rest r =>
      rw [parse_append_rest h ys]
      exact List.prefix_append _ _

/-- If the longer stream is unbroken, so is every prefix of it. -/
theorem rest_of_append {xs ys : List σ} {r : List σ} (h : (p.parse (xs ++ ys)).2 = .rest r) :
    ∃ r', (p.parse xs).2 = .rest r' := by
  cases hx : (p.parse xs).2 with
  | rest r' => exact ⟨r', rfl⟩
  | failed e =>
      rw [parse_append_failed hx ys, hx] at h
      cases h

end ItemParser

/-! ## An encoder that writes what the parser reads -/

/-- A parser with the encoder it belongs to: encodings are read back whatever
follows, and every item read was written in its own encoding. -/
structure Codec (σ φ ε : Type) extends ItemParser σ φ ε where
  encode : φ → Option (List σ)
  next_encode : ∀ {f : φ} {w : List σ}, encode f = some w →
    ∀ ys : List σ, next (w ++ ys) = .item f w.length
  encode_next : ∀ {xs : List σ} {f : φ} {n : Nat}, next xs = .item f n →
    encode f = some (xs.take n)

namespace Codec

variable (c : Codec σ φ ε)

/-- The encodings of a list of items, one behind the other; nothing if one of
the items has no encoding. -/
def encodeAll : List φ → Option (List σ)
  | [] => some []
  | f :: fs =>
      match c.encode f, encodeAll fs with
      | some w, some v => some (w ++ v)
      | _, _ => none

variable {c}

theorem encodeAll_cons {f : φ} {fs : List φ} {u : List σ} :
    c.encodeAll (f :: fs) = some u ↔
      ∃ w v, c.encode f = some w ∧ c.encodeAll fs = some v ∧ u = w ++ v := by
  simp only [encodeAll]
  constructor
  · intro h
    split at h
    · rename_i w v hw hv
      cases h
      exact ⟨w, v, hw, hv, rfl⟩
    · cases h
  · rintro ⟨w, v, hw, hv, rfl⟩
    simp [hw, hv]

theorem encodeAll_append {fs gs : List φ} {u : List σ} :
    c.encodeAll (fs ++ gs) = some u ↔
      ∃ w v, c.encodeAll fs = some w ∧ c.encodeAll gs = some v ∧ u = w ++ v := by
  induction fs generalizing u with
  | nil => simp [encodeAll]
  | cons f fs ih =>
      rw [List.cons_append, encodeAll_cons]
      constructor
      · rintro ⟨a, b, ha, hb, rfl⟩
        obtain ⟨w, v, hw, hv, rfl⟩ := ih.mp hb
        exact ⟨a ++ w, v, encodeAll_cons.mpr ⟨a, w, ha, hw, rfl⟩, hv, by simp⟩
      · rintro ⟨w, v, hw, hv, rfl⟩
        obtain ⟨a, b, ha, hb, rfl⟩ := encodeAll_cons.mp hw
        exact ⟨a, b ++ v, ha, ih.mpr ⟨b, v, hb, hv, rfl⟩, by simp⟩

/-- Every item of a list with an encoding has one. -/
theorem encode_of_encodeAll {fs : List φ} {w : List σ} (h : c.encodeAll fs = some w) :
    ∀ f ∈ fs, ∃ v, c.encode f = some v := by
  induction fs generalizing w with
  | nil => exact fun _ hf => absurd hf List.not_mem_nil
  | cons g gs ih =>
      obtain ⟨a, b, ha, hb, -⟩ := encodeAll_cons.mp h
      intro f hf
      rcases List.mem_cons.mp hf with rfl | hf
      · exact ⟨a, ha⟩
      · exact ih hb f hf

/-- A list whose items all have an encoding has one. -/
theorem exists_encodeAll {fs : List φ} (h : ∀ f ∈ fs, ∃ v, c.encode f = some v) :
    ∃ w, c.encodeAll fs = some w := by
  induction fs with
  | nil => exact ⟨[], rfl⟩
  | cons f fs ih =>
      obtain ⟨a, ha⟩ := h f List.mem_cons_self
      obtain ⟨b, hb⟩ := ih fun g hg => h g (List.mem_cons_of_mem f hg)
      exact ⟨a ++ b, encodeAll_cons.mpr ⟨a, b, ha, hb, rfl⟩⟩

/-- Encodings parse back, and the walk goes on behind them. -/
theorem parse_encodeAll {fs : List φ} {w : List σ} (h : c.encodeAll fs = some w) (ys : List σ) :
    c.parse (w ++ ys) = (fs ++ (c.parse ys).1, (c.parse ys).2) := by
  induction fs generalizing w with
  | nil => cases h; rfl
  | cons f fs ih =>
      obtain ⟨a, b, ha, hb, rfl⟩ := encodeAll_cons.mp h
      have hnext : c.next (a ++ b ++ ys) = .item f a.length := by
        rw [List.append_assoc]; exact c.next_encode ha _
      rw [ItemParser.parse_item hnext, List.append_assoc, List.drop_left, ih hb]
      rfl

theorem parse_whole {fs : List φ} {w : List σ} (h : c.encodeAll fs = some w) :
    c.parse w = (fs, .rest []) := by
  have := parse_encodeAll h []
  rwa [List.append_nil, ItemParser.parse_more c.nil, List.append_nil] at this

/-- **The consumed part of a stream is the encoding of its items.**  What is
left starts with an unfinished item or with the broken one. -/
theorem parse_consumed (xs : List σ) :
    ∃ w r, c.encodeAll (c.parse xs).1 = some w ∧ xs = w ++ r ∧
      (c.parse xs).2 = (c.parse r).2 ∧ (c.parse r).1 = [] := by
  induction xs using ItemParser.walk_induction (p := c.toItemParser) with
  | more xs h => exact ⟨[], xs, by simp [ItemParser.parse_more h, encodeAll]⟩
  | bad xs e h => exact ⟨[], xs, by simp [ItemParser.parse_bad h, encodeAll]⟩
  | item xs f n h ih =>
      obtain ⟨w, r, hw, hxs, hend, hnil⟩ := ih
      refine ⟨xs.take n ++ w, r, ?_, ?_, ?_, hnil⟩
      · rw [ItemParser.parse_item h]
        exact encodeAll_cons.mpr ⟨_, _, c.encode_next h, hw, rfl⟩
      · rw [List.append_assoc, ← hxs, List.take_append_drop]
      · rw [ItemParser.parse_item h]; exact hend

/-- On an unbroken stream the consumed part is everything but the rest. -/
theorem parse_consumed_rest {xs r : List σ} (h : (c.parse xs).2 = .rest r) :
    ∃ w, c.encodeAll (c.parse xs).1 = some w ∧ xs = w ++ r := by
  obtain ⟨w, r', hw, hxs, hend, hnil⟩ := parse_consumed (c := c) xs
  rw [h] at hend
  cases hnext : c.next r' with
  | more =>
      rw [ItemParser.parse_more hnext] at hend
      cases hend
      exact ⟨w, hw, hxs⟩
  | bad e => rw [ItemParser.parse_bad hnext] at hend; cases hend
  | item f n => rw [ItemParser.parse_item hnext] at hnil; cases hnil

/-- An unfinished rest is shorter than the encoding it is the start of. -/
theorem lt_of_next_more {f : φ} {a u r ys : List σ} (ha : c.encode f = some a)
    (hr : c.next r = .more) (h : a ++ u = r ++ ys) : r.length < a.length := by
  by_contra hlen
  have hsplit : r = a ++ r.drop a.length := by
    have htake := congrArg (List.take a.length) h
    rw [List.take_left, List.take_append_of_le_length (Nat.le_of_not_lt hlen)] at htake
    conv_lhs => rw [← List.take_append_drop a.length r, ← htake]
  rw [hsplit, c.next_encode ha] at hr
  cases hr

/-- **An item is reported exactly when its last symbol is there.**  On a prefix
`b` of the encodings of `fs`, the walk is unbroken and gives the first `k`
items, where `k` is the number of items whose encodings lie within `b`. -/
theorem parse_prefix {fs : List φ} {b ys : List σ} (h : c.encodeAll fs = some (b ++ ys)) :
    ∃ k r w, c.parse b = (fs.take k, .rest r) ∧ k ≤ fs.length ∧
      c.encodeAll (fs.take k) = some w ∧ w.length ≤ b.length ∧
      ∀ v, k < fs.length → c.encodeAll (fs.take (k + 1)) = some v → b.length < v.length := by
  have hall : c.parse (b ++ ys) = (fs, .rest []) := parse_whole h
  obtain ⟨r, hr⟩ := ItemParser.rest_of_append (p := c.toItemParser)
    (show (c.parse (b ++ ys)).2 = .rest [] by rw [hall])
  obtain ⟨w, hw, hb⟩ := parse_consumed_rest hr
  -- the items of `b` are the first ones of `fs`, and their encodings lie in `b`
  have hpre : (c.parse b).1 <+: fs := by
    have := ItemParser.parse_fst_prefix (p := c.toItemParser) b ys
    rwa [hall] at this
  have htake : (c.parse b).1 = fs.take (c.parse b).1.length := List.prefix_iff_eq_take.mp hpre
  refine ⟨(c.parse b).1.length, r, w, ?_, hpre.length_le, ?_, ?_, ?_⟩
  · rw [← htake, ← hr]
  · rw [← htake]; exact hw
  · rw [hb]; simp
  · intro v hk hv
    -- `r` is the start of the encoding `a` of the next item, and unfinished
    have hsplit : fs.take (c.parse b).1.length
        ++ (fs[(c.parse b).1.length] :: fs.drop ((c.parse b).1.length + 1)) = fs := by
      rw [List.getElem_cons_drop, List.take_append_drop]
    rw [← hsplit] at h
    obtain ⟨w₁, u, hw₁, hu, hbys⟩ := encodeAll_append.mp h
    obtain ⟨a, u', ha, -, rfl⟩ := encodeAll_cons.mp hu
    rw [← htake, hw] at hw₁
    cases hw₁
    have hv' : v = w ++ a := by
      rw [← List.take_append_getElem hk] at hv
      obtain ⟨w₂, a', hw₂, ha', rfl⟩ := encodeAll_append.mp hv
      obtain ⟨a'', b'', ha'', hb'', rfl⟩ := encodeAll_cons.mp ha'
      rw [← htake, hw] at hw₂
      rw [ha] at ha''
      cases hw₂; cases ha''; cases hb''
      simp
    rw [hb, List.append_assoc, List.append_cancel_left_eq] at hbys
    have hmore := ItemParser.next_rest (p := c.toItemParser) b r hr
    rw [hb, hv', List.length_append, List.length_append]
    exact Nat.add_lt_add_left (lt_of_next_more ha hmore hbys.symm) w.length

end Codec

end Streaming
