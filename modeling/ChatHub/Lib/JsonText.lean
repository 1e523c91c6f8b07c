/-
# `ChatHub.Lib.JsonText` — compact JSON text, written and read

The text of a tree whose strings are byte strings and whose numbers are
integers.  `render` writes it without blanks; a quotation mark, a backslash and
a control character are escaped, everything else is copied.  `parse` reads it
back: at most `maxDepth` containers deep, strings checked by a predicate
`valid`, and a repeated key of an object assigned twice.

    parse_render      a proper tree is read back from its text
    proper_parse      what is read is proper
    length_render_le  the text is no longer than the room it was given
    wellFormed_render the text is UTF-8 if the strings are

Lists of items and of members are written and read by the same functions
(`joined`, `group`), so the induction over elements is done once.
-/
import ChatHub.Lib.Decimal
import ChatHub.Lib.Json
import ChatHub.Lib.Utf8

namespace JsonText

open Json Decimal

def quoteMark : UInt8 := 34
def backslash : UInt8 := 92
def comma : UInt8 := 44
def colon : UInt8 := 58
def minus : UInt8 := 45
def openBracket : UInt8 := 91
def closeBracket : UInt8 := 93
def openBrace : UInt8 := 123
def closeBrace : UInt8 := 125

variable {α : Type}

/-! ## Strings -/

def hexDigit (n : Nat) : UInt8 := if n < 10 then UInt8.ofNat (48 + n) else UInt8.ofNat (87 + n)

def hexValue? (c : UInt8) : Option Nat :=
  if 48 ≤ c ∧ c ≤ 57 then some (c.toNat - 48)
  else if 97 ≤ c ∧ c ≤ 102 then some (c.toNat - 87)
  else none

/-- How a byte is written inside a string. -/
def escape (c : UInt8) : List UInt8 :=
  if c = quoteMark ∨ c = backslash then [backslash, c]
  else if c < 32 then [backslash, 117, 48, 48, hexDigit (c.toNat / 16), hexDigit (c.toNat % 16)]
  else [c]

def quote (s : List UInt8) : List UInt8 := quoteMark :: (s.flatMap escape ++ [quoteMark])

/-- Put a byte in front of what has been read. -/
def push (c : UInt8) (p : List UInt8 × List UInt8) : List UInt8 × List UInt8 := (c :: p.1, p.2)

/-- Read up to the closing quotation mark. -/
def unquote : List UInt8 → Option (List UInt8 × List UInt8)
  | [] => none
  | c :: r =>
      if c = quoteMark then some ([], r)
      else if c = backslash then
        match r with
        | [] => none
        | e :: r =>
            if e = quoteMark ∨ e = backslash then (unquote r).map (push e)
            else if e = 117 then
              match r with
              | z₁ :: z₀ :: h :: l :: r =>
                  match hexValue? h, hexValue? l with
                  | some h, some l =>
                      if z₁ = 48 ∧ z₀ = 48 then (unquote r).map (push (UInt8.ofNat (16 * h + l)))
                      else none
                  | _, _ => none
              | _ => none
            else none
      else if c < 32 then none
      else (unquote r).map (push c)

theorem hexValue?_hexDigit : ∀ n, n < 16 → hexValue? (hexDigit n) = some n := by
  decide

theorem unquote_escape (c : UInt8) (w : List UInt8) :
    unquote (escape c ++ w) = (unquote w).map (push c) := by
  have hback : backslash ≠ quoteMark := by decide
  simp only [escape]
  split
  · rename_i hc
    show unquote (backslash :: c :: w) = _
    rw [unquote.eq_def]
    simp only [if_neg hback, if_true, if_pos hc]
  · rename_i hc
    obtain ⟨hquote, hbackslash⟩ := not_or.mp hc
    split
    · rename_i hlt
      have hlt' : c.toNat < 32 := hlt
      have hhigh := hexValue?_hexDigit (c.toNat / 16) (by omega)
      have hlow := hexValue?_hexDigit (c.toNat % 16) (by omega)
      have hbyte : UInt8.ofNat (16 * (c.toNat / 16) + c.toNat % 16) = c := by
        rw [Nat.div_add_mod, UInt8.ofNat_toNat]
      have hu : ¬ ((117 : UInt8) = quoteMark ∨ (117 : UInt8) = backslash) := by decide
      show unquote (backslash :: 117 :: 48 :: 48 :: hexDigit (c.toNat / 16)
        :: hexDigit (c.toNat % 16) :: w) = _
      rw [unquote.eq_def]
      simp only [if_neg hback, if_neg hu, if_true, hhigh, hlow, and_self, hbyte]
    · rename_i hge
      show unquote (c :: w) = _
      rw [unquote.eq_def]
      simp only [if_neg hquote, if_neg hbackslash, if_neg hge]

theorem unquote_flatMap (s r : List UInt8) :
    unquote (s.flatMap escape ++ quoteMark :: r) = some (s, r) := by
  induction s with
  | nil =>
      show unquote (quoteMark :: r) = some ([], r)
      rw [unquote.eq_def]
      simp only [if_true]
  | cons c s ih =>
      rw [List.flatMap_cons, List.append_assoc, unquote_escape, ih]
      rfl

theorem length_escape_le (c : UInt8) : (escape c).length ≤ 6 := by
  simp only [escape]
  split
  · exact (by decide : 2 ≤ 6)
  · split
    · exact Nat.le_refl 6
    · exact (by decide : 1 ≤ 6)

theorem length_quote_le (s : List UInt8) : (quote s).length ≤ 6 * s.length + 2 := by
  have hbody : (s.flatMap escape).length ≤ 6 * s.length := by
    induction s with
    | nil => exact Nat.le_refl 0
    | cons c s ih =>
        have hc := length_escape_le c
        simp only [List.flatMap_cons, List.length_append, List.length_cons]
        omega
  simp only [quote, List.length_cons, List.length_append, List.length_nil]
  omega

/-- A string at the front of a text, if it passes the check. -/
def string (valid : List UInt8 → Bool) : List UInt8 → Option (List UInt8 × List UInt8)
  | [] => none
  | c :: r =>
      if c = quoteMark then
        match unquote r with
        | some (s, r) => if valid s then some (s, r) else none
        | none => none
      else none

theorem string_quote {valid : List UInt8 → Bool} {s : List UInt8} (h : valid s = true)
    (r : List UInt8) : string valid (quote s ++ r) = some (s, r) := by
  have happ : quote s ++ r = quoteMark :: (s.flatMap escape ++ quoteMark :: r) := by
    simp [quote]
  rw [happ]
  simp only [string, if_true, unquote_flatMap, h]

theorem valid_of_string {valid : List UInt8 → Bool} {b s r : List UInt8}
    (h : string valid b = some (s, r)) : valid s = true := by
  cases b with
  | nil => cases h
  | cons c b =>
      simp only [string] at h
      split at h
      · split at h
        · split at h
          · cases h
            assumption
          · cases h
        · cases h
      · cases h

/-! ## Lists of elements -/

/-- Elements behind the first, and the closing byte. -/
def closing (close : UInt8) : List (List UInt8) → List UInt8
  | [] => [close]
  | w :: ws => comma :: (w ++ closing close ws)

/-- Elements, separated by commas and closed. -/
def joined (close : UInt8) : List (List UInt8) → List UInt8
  | [] => [close]
  | w :: ws => w ++ closing close ws

/-- Read elements behind the first, at most `n` bytes. -/
def elements (p : List UInt8 → Option (α × List UInt8)) (close : UInt8) :
    Nat → List UInt8 → Option (List α × List UInt8)
  | 0, _ => none
  | _ + 1, [] => none
  | n + 1, c :: r =>
      if c = close then some ([], r)
      else if c = comma then
        match p r with
        | none => none
        | some (a, r) => (elements p close n r).map fun q => (a :: q.1, q.2)
      else none

/-- Read elements up to the closing byte. -/
def group (p : List UInt8 → Option (α × List UInt8)) (close : UInt8) (b : List UInt8) :
    Option (List α × List UInt8) :=
  if b.head? = some close then some ([], b.tail)
  else
    match p b with
    | none => none
    | some (a, r) => (elements p close r.length r).map fun q => (a :: q.1, q.2)

section
variable {p : List UInt8 → Option (α × List UInt8)} {f : α → List UInt8} {close : UInt8}

theorem closing_stops (hclose : ¬ IsDigit close) (ws : List (List UInt8)) (r : List UInt8) :
    Stops (closing close ws ++ r) := by
  intro c hc
  cases ws with
  | nil =>
      cases hc
      exact hclose
  | cons w ws =>
      cases hc
      decide

theorem lt_length_closing (ws : List (List UInt8)) : ws.length < (closing close ws).length := by
  induction ws with
  | nil => exact Nat.zero_lt_one
  | cons w ws ih =>
      simp only [closing, List.length_cons, List.length_append]
      omega

theorem elements_closing (hdigit : ¬ IsDigit close) (hcomma : close ≠ comma) {as : List α}
    (hp : ∀ a ∈ as, ∀ r, Stops r → p (f a ++ r) = some (a, r)) (r : List UInt8) {n : Nat}
    (hn : as.length < n) : elements p close n (closing close (as.map f) ++ r) = some (as, r) := by
  induction as generalizing n with
  | nil =>
      obtain ⟨n, rfl⟩ : ∃ k, n = k + 1 := ⟨n - 1, by simp only [List.length_nil] at hn; omega⟩
      simp only [List.map_nil, closing, List.cons_append, List.nil_append, elements, if_true]
  | cons a as ih =>
      obtain ⟨n, rfl⟩ : ∃ k, n = k + 1 := ⟨n - 1, by simp only [List.length_cons] at hn; omega⟩
      have hfirst := hp a List.mem_cons_self _ (closing_stops hdigit (as.map f) r)
      have hrest := ih (fun b hb => hp b (List.mem_cons_of_mem a hb)) (Nat.lt_of_succ_lt_succ hn)
      simp only [List.map_cons, closing, List.cons_append, List.append_assoc, elements,
        if_neg (Ne.symm hcomma), if_true, hfirst, hrest, Option.map_some]

/-- Elements that can be read back one by one can be read back as a list. -/
theorem group_joined (hdigit : ¬ IsDigit close) (hcomma : close ≠ comma) {as : List α}
    (hp : ∀ a ∈ as, ∀ r, Stops r → p (f a ++ r) = some (a, r))
    (hhead : ∀ a ∈ as, ∃ c w, f a = c :: w ∧ c ≠ close) (r : List UInt8) :
    group p close (joined close (as.map f) ++ r) = some (as, r) := by
  cases as with
  | nil => simp only [List.map_nil, joined, List.cons_append, List.nil_append, group,
      List.head?_cons, List.tail_cons, if_true]
  | cons a as =>
      obtain ⟨c, w, hw, hc⟩ := hhead a List.mem_cons_self
      have hfirst := hp a List.mem_cons_self _ (closing_stops hdigit (as.map f) r)
      have hlen : as.length < (closing close (as.map f) ++ r).length := by
        have : (as.map f).length < (closing close (as.map f)).length := lt_length_closing _
        simp only [List.length_map, List.length_append] at this ⊢
        omega
      have hrest := elements_closing hdigit hcomma
        (fun b hb => hp b (List.mem_cons_of_mem a hb)) r hlen
      have hopen : (f a ++ (closing close (as.map f) ++ r)).head? ≠ some close := by
        rw [hw]
        exact fun h => hc (Option.some.inj h)
      simp only [List.map_cons, joined, List.append_assoc, group, if_neg hopen, hfirst, hrest,
        Option.map_some]

/-- What holds of every element read holds of all of a list read. -/
theorem forall_of_elements {Q : α → Prop} (hq : ∀ b a r, p b = some (a, r) → Q a) {n : Nat} :
    ∀ {b : List UInt8} {as : List α} {r : List UInt8},
      elements p close n b = some (as, r) → ∀ a ∈ as, Q a := by
  induction n with
  | zero => intro b as r h; cases h
  | succ n ih =>
      intro b as r h
      cases b with
      | nil => cases h
      | cons c b =>
          simp only [elements] at h
          split at h
          · cases h
            exact fun a ha => absurd ha List.not_mem_nil
          · split at h
            · cases hp : p b with
              | none => rw [hp] at h; cases h
              | some q =>
                  rw [hp] at h
                  obtain ⟨q', hq', heq⟩ := Option.map_eq_some_iff.mp h
                  cases heq
                  intro a ha
                  rcases List.mem_cons.mp ha with rfl | ha
                  · exact hq _ _ _ hp
                  · exact ih hq' a ha
            · cases h

theorem forall_of_group {Q : α → Prop} (hq : ∀ b a r, p b = some (a, r) → Q a)
    {b : List UInt8} {as : List α} {r : List UInt8} (h : group p close b = some (as, r)) :
    ∀ a ∈ as, Q a := by
  simp only [group] at h
  split at h
  · cases h
    exact fun a ha => absurd ha List.not_mem_nil
  · cases hp : p b with
    | none => rw [hp] at h; cases h
    | some q =>
        rw [hp] at h
        obtain ⟨q', hq', heq⟩ := Option.map_eq_some_iff.mp h
        cases heq
        intro a ha
        rcases List.mem_cons.mp ha with rfl | ha
        · exact hq _ _ _ hp
        · exact forall_of_elements hq hq' a ha

end

/-! ## Scalars -/

def nullText : List UInt8 := [110, 117, 108, 108]
def trueText : List UInt8 := [116, 114, 117, 101]
def falseText : List UInt8 := [102, 97, 108, 115, 101]

def printInt (n : Int) : List UInt8 :=
  if n < 0 then minus :: print n.natAbs else print n.natAbs

/-- A keyword at the front of a text. -/
def keyword (w : List UInt8) (t : Json (List UInt8) Int) (b : List UInt8) :
    Option (Json (List UInt8) Int × List UInt8) :=
  if w.isPrefixOf b then some (t, b.drop w.length) else none

/-- Digits at the front of a text. -/
def digits (sign : Int) (b : List UInt8) : Option (Json (List UInt8) Int × List UInt8) :=
  if (scan b).1 = [] then none else some (.num (sign * value (scan b).1), (scan b).2)

/-- A value that is no container. -/
def scalar (valid : List UInt8 → Bool) :
    List UInt8 → Option (Json (List UInt8) Int × List UInt8)
  | [] => none
  | c :: r =>
      if c = quoteMark then (string valid (c :: r)).map fun q => (.str q.1, q.2)
      else if c = minus then digits (-1) r
      else if IsDigit c then digits 1 (c :: r)
      else if c = 110 then keyword nullText .null (c :: r)
      else if c = 116 then keyword trueText (.bool true) (c :: r)
      else keyword falseText (.bool false) (c :: r)

theorem keyword_append (w : List UInt8) (t : Json (List UInt8) Int) (r : List UInt8) :
    keyword w t (w ++ r) = some (t, r) := by
  have hpre : w.isPrefixOf (w ++ r) = true := by
    rw [List.isPrefixOf_iff_prefix]
    exact List.prefix_append w r
  simp only [keyword, hpre, if_true, List.drop_left]

theorem digits_print (sign : Int) (n : Nat) {r : List UInt8} (hr : Stops r) :
    digits sign (print n ++ r) = some (.num (sign * n), r) := by
  simp only [digits, scan_print n hr, if_neg (print_ne_nil n), value_print]

theorem print_eq_cons (n : Nat) : ∃ c w, print n = c :: w ∧ IsDigit c := by
  cases h : print n with
  | nil => exact absurd h (print_ne_nil n)
  | cons c w => exact ⟨c, w, rfl, isDigit_print n c (by rw [h]; exact List.mem_cons_self)⟩

/-- A number starts with a digit or a minus sign, that is, with no other mark. -/
theorem printInt_eq_cons (n : Int) :
    ∃ c w, printInt n = c :: w ∧ ∀ d, ¬ IsDigit d → d ≠ minus → c ≠ d := by
  rw [printInt]
  split
  · exact ⟨minus, _, rfl, fun d _ hd => hd.symm⟩
  · obtain ⟨c, w, hw, hc⟩ := print_eq_cons n.natAbs
    exact ⟨c, w, hw, fun d hd _ => hc.ne hd⟩

theorem scalar_printInt {valid : List UInt8 → Bool} (n : Int) {r : List UInt8} (hr : Stops r) :
    scalar valid (printInt n ++ r) = some (.num n, r) := by
  simp only [printInt]
  split
  · rename_i hneg
    have hread := digits_print (-1) n.natAbs hr
    have hsign : (-1 : Int) * n.natAbs = n := by omega
    have hquote : minus ≠ quoteMark := by decide
    simp only [List.cons_append, scalar, if_neg hquote, if_true, hread, hsign]
  · rename_i hpos
    obtain ⟨c, w, hw, hc⟩ := print_eq_cons n.natAbs
    have hread := digits_print 1 n.natAbs hr
    have hsign : (1 : Int) * n.natAbs = n := by omega
    have hquote : c ≠ quoteMark := hc.ne (by decide)
    have hminus : c ≠ minus := hc.ne (by decide)
    rw [hw, List.cons_append] at hread ⊢
    simp only [scalar, if_neg hquote, if_neg hminus, if_pos hc, hread, hsign]

theorem scalar_quote {valid : List UInt8 → Bool} {s : List UInt8} (h : valid s = true)
    (r : List UInt8) : scalar valid (quote s ++ r) = some (.str s, r) := by
  have hread := string_quote h r
  have hcons : quote s ++ r = quoteMark :: (s.flatMap escape ++ [quoteMark] ++ r) := rfl
  rw [hcons] at hread ⊢
  simp only [scalar, if_true, hread, Option.map_some]

theorem proper_keyword {valid : List UInt8 → Bool} {d : Nat} {w b r : List UInt8}
    {t t' : Json (List UInt8) Int} (ht : Proper (fun s => valid s = true) (fun _ => True) d t)
    (h : keyword w t b = some (t', r)) :
    Proper (fun s => valid s = true) (fun _ => True) d t' := by
  simp only [keyword] at h
  split at h
  · cases h
    exact ht
  · cases h

theorem proper_digits {P : List UInt8 → Prop} {d : Nat} {sign : Int} {b r : List UInt8}
    {t : Json (List UInt8) Int} (h : digits sign b = some (t, r)) :
    Proper P (fun _ => True) d t := by
  simp only [digits] at h
  split at h
  · cases h
  · cases h
    exact .num trivial

theorem proper_scalar {valid : List UInt8 → Bool} {d : Nat} {b r : List UInt8}
    {t : Json (List UInt8) Int} (h : scalar valid b = some (t, r)) :
    Proper (fun s => valid s = true) (fun _ => True) d t := by
  cases b with
  | nil => cases h
  | cons c b =>
      simp only [scalar] at h
      split at h
      · obtain ⟨q, hq, heq⟩ := Option.map_eq_some_iff.mp h
        cases heq
        exact .str (valid_of_string hq)
      · split at h
        · exact proper_digits h
        · split at h
          · exact proper_digits h
          · split at h
            · exact proper_keyword .null h
            · split at h
              · exact proper_keyword (.bool true) h
              · exact proper_keyword (.bool false) h

/-! ## Values -/

/-- The text of a tree. -/
def render : Json (List UInt8) Int → List UInt8
  | .null => nullText
  | .bool b => if b then trueText else falseText
  | .num n => printInt n
  | .str s => quote s
  | .arr items => openBracket :: joined closeBracket (items.map fun t => render t)
  | .obj members =>
      openBrace :: joined closeBrace (members.map fun m => quote m.1 ++ colon :: render m.2)
termination_by t => sizeOf t
decreasing_by
  · exact sizeOf_item ‹_›
  · exact sizeOf_member ‹_›

/-- A member at the front of a text, its value read by `p`. -/
def member (valid : List UInt8 → Bool)
    (p : List UInt8 → Option (Json (List UInt8) Int × List UInt8)) (b : List UInt8) :
    Option ((List UInt8 × Json (List UInt8) Int) × List UInt8) :=
  match string valid b with
  | none => none
  | some (k, r) =>
      if r.head? = some colon then (p r.tail).map fun q => ((k, q.1), q.2) else none

/-- Assign the members one after the other. -/
def assign (members : List (List UInt8 × Json (List UInt8) Int)) :
    List (List UInt8 × Json (List UInt8) Int) :=
  members.foldl (fun ms m => insert m.1 m.2 ms) []

/-- A value at the front of a text, with at most `d` containers nested. -/
def readValue (valid : List UInt8 → Bool) :
    Nat → List UInt8 → Option (Json (List UInt8) Int × List UInt8)
  | 0, b => scalar valid b
  | d + 1, b =>
      if b.head? = some openBracket then
        (group (fun b => readValue valid d b) closeBracket b.tail).map fun q => (.arr q.1, q.2)
      else if b.head? = some openBrace then
        (group (member valid fun b => readValue valid d b) closeBrace b.tail).map fun q =>
          (.obj (assign q.1), q.2)
      else scalar valid b

/-- How deep containers may be nested. -/
def maxDepth : Nat := 32

/-- Read a whole text. -/
def parse (valid : List UInt8 → Bool) (b : List UInt8) : Option (Json (List UInt8) Int) :=
  match readValue valid maxDepth b with
  | some (t, []) => some t
  | _ => none

/-! ## Reading back -/

/-- The text of a value starts with a byte that closes nothing. -/
theorem render_eq_cons (t : Json (List UInt8) Int) :
    ∃ c w, render t = c :: w ∧ c ≠ closeBracket := by
  cases t with
  | null => exact ⟨110, _, by rw [render]; rfl, by decide⟩
  | bool b =>
      cases b with
      | true => exact ⟨116, _, by rw [render]; rfl, by decide⟩
      | false => exact ⟨102, _, by rw [render]; rfl, by decide⟩
  | num n =>
      obtain ⟨c, w, hw, hc⟩ := printInt_eq_cons n
      exact ⟨c, w, by rw [render]; exact hw, hc closeBracket (by decide) (by decide)⟩
  | str s => exact ⟨quoteMark, _, by rw [render]; rfl, by decide⟩
  | arr items => exact ⟨openBracket, _, by rw [render], by decide⟩
  | obj members => exact ⟨openBrace, _, by rw [render], by decide⟩

theorem scalar_openBracket (valid : List UInt8 → Bool) (r : List UInt8) :
    scalar valid (openBracket :: r) = none := rfl

theorem scalar_openBrace (valid : List UInt8 → Bool) (r : List UInt8) :
    scalar valid (openBrace :: r) = none := rfl

/-- What can be read as a scalar is no container. -/
theorem readValue_of_scalar {valid : List UInt8 → Bool} {b : List UInt8}
    {q : Json (List UInt8) Int × List UInt8} (h : scalar valid b = some q) (d : Nat) :
    readValue valid d b = some q := by
  cases d with
  | zero => exact h
  | succ d =>
      have hbracket : b.head? ≠ some openBracket := by
        intro hb
        obtain ⟨r, rfl⟩ := List.head?_eq_some_iff.mp hb
        rw [scalar_openBracket] at h
        cases h
      have hbrace : b.head? ≠ some openBrace := by
        intro hb
        obtain ⟨r, rfl⟩ := List.head?_eq_some_iff.mp hb
        rw [scalar_openBrace] at h
        cases h
      rw [readValue, if_neg hbracket, if_neg hbrace, h]

theorem assign_of_nodup {members : List (List UInt8 × Json (List UInt8) Int)}
    (h : (members.map Prod.fst).Nodup) : assign members = members := by
  suffices ∀ ms, ((ms ++ members).map Prod.fst).Nodup →
      members.foldl (fun ms m => insert m.1 m.2 ms) ms = ms ++ members from this [] h
  clear h
  induction members with
  | nil => exact fun ms _ => (List.append_nil ms).symm
  | cons m members ih =>
      intro ms h
      have hnew : m.1 ∉ ms.map Prod.fst := by
        rw [List.map_append, List.map_cons] at h
        exact fun hm => (List.nodup_append.mp h).2.2 _ hm _ List.mem_cons_self rfl
      rw [List.foldl_cons, insert_of_not_mem m.2 hnew]
      have happ : ms ++ m :: members = ms ++ [(m.1, m.2)] ++ members := by simp
      rw [happ] at h ⊢
      exact ih _ h

theorem nodup_assign (members : List (List UInt8 × Json (List UInt8) Int)) :
    ((assign members).map Prod.fst).Nodup := by
  suffices ∀ ms : List (List UInt8 × Json (List UInt8) Int), (ms.map Prod.fst).Nodup →
      ((members.foldl (fun ms m => insert m.1 m.2 ms) ms).map Prod.fst).Nodup from
    this [] List.nodup_nil
  induction members with
  | nil => exact fun ms h => h
  | cons m members ih => exact fun ms h => ih _ (nodup_insert m.1 m.2 h)

theorem member_render {valid : List UInt8 → Bool}
    {p : List UInt8 → Option (Json (List UInt8) Int × List UInt8)}
    {m : List UInt8 × Json (List UInt8) Int} (hkey : valid m.1 = true) {r : List UInt8}
    (hp : p (render m.2 ++ r) = some (m.2, r)) :
    member valid p ((quote m.1 ++ colon :: render m.2) ++ r) = some (m, r) := by
  have hread := string_quote hkey (colon :: (render m.2 ++ r))
  rw [List.append_assoc, List.cons_append]
  simp only [member, hread, List.head?_cons, if_true, List.tail_cons, hp, Option.map_some]

/-- A proper tree is read back from its text, in front of anything that cannot
continue a number. -/
theorem readValue_render {valid : List UInt8 → Bool} {d : Nat} {t : Json (List UInt8) Int}
    (h : Proper (fun s => valid s = true) (fun _ => True) d t) :
    ∀ r, Stops r → readValue valid d (render t ++ r) = some (t, r) := by
  induction h with
  | null =>
      intro r _
      have hscalar : scalar valid (nullText ++ r) = some (.null, r) := keyword_append nullText _ r
      rw [render]
      exact readValue_of_scalar hscalar _
  | bool b =>
      intro r _
      rw [render]
      cases b with
      | true =>
          have hscalar : scalar valid (trueText ++ r) = some (.bool true, r) :=
            keyword_append trueText _ r
          exact readValue_of_scalar hscalar _
      | false =>
          have hscalar : scalar valid (falseText ++ r) = some (.bool false, r) :=
            keyword_append falseText _ r
          exact readValue_of_scalar hscalar _
  | @num d n _ =>
      intro r hr
      rw [render]
      exact readValue_of_scalar (scalar_printInt n hr) d
  | @str d s hs =>
      intro r _
      rw [render]
      exact readValue_of_scalar (scalar_quote hs r) d
  | @arr d items _ ih =>
      intro r _
      have hgroup := group_joined (p := fun b => readValue valid d b) (f := render)
        (by decide : ¬ IsDigit closeBracket) (by decide) ih (fun t _ => render_eq_cons t) r
      rw [render]
      simp only [List.cons_append, readValue, List.head?_cons, if_true, List.tail_cons, hgroup,
        Option.map_some]
  | @obj d members hnodup hkeys _ ih =>
      intro r _
      have hgroup := group_joined (p := member valid fun b => readValue valid d b)
        (f := fun m => quote m.1 ++ colon :: render m.2) (by decide : ¬ IsDigit closeBrace)
        (by decide) (fun m hm r hr => member_render (hkeys m hm) (ih m hm r hr))
        (fun m _ => ⟨quoteMark, _, rfl, by decide⟩) r
      have hne : openBrace ≠ openBracket := by decide
      rw [render]
      simp only [List.cons_append, readValue, List.head?_cons, Option.some.injEq, if_neg hne,
        if_true, List.tail_cons, hgroup, Option.map_some, assign_of_nodup hnodup]

theorem parse_render {valid : List UInt8 → Bool} {t : Json (List UInt8) Int}
    (h : Proper (fun s => valid s = true) (fun _ => True) maxDepth t) :
    parse valid (render t) = some t := by
  have hread := readValue_render h [] (fun c hc => nomatch hc)
  rw [List.append_nil] at hread
  simp only [parse, hread]

theorem proper_member {valid : List UInt8 → Bool} {d : Nat}
    {p : List UInt8 → Option (Json (List UInt8) Int × List UInt8)}
    (hp : ∀ b t r, p b = some (t, r) → Proper (fun s => valid s = true) (fun _ => True) d t)
    (b : List UInt8) (m : List UInt8 × Json (List UInt8) Int) (r : List UInt8)
    (h : member valid p b = some (m, r)) :
    valid m.1 = true ∧ Proper (fun s => valid s = true) (fun _ => True) d m.2 := by
  simp only [member] at h
  split at h
  · cases h
  · rename_i k r' hk
    split at h
    · obtain ⟨q, hq, heq⟩ := Option.map_eq_some_iff.mp h
      cases heq
      exact ⟨valid_of_string hk, hp _ _ _ hq⟩
    · cases h

theorem mem_assign {members : List (List UInt8 × Json (List UInt8) Int)}
    {m : List UInt8 × Json (List UInt8) Int} (h : m ∈ assign members) : m ∈ members := by
  suffices ∀ ms : List (List UInt8 × Json (List UInt8) Int),
      m ∈ members.foldl (fun ms m => insert m.1 m.2 ms) ms → m ∈ ms ∨ m ∈ members from
    (this [] h).resolve_left List.not_mem_nil
  clear h
  induction members with
  | nil => exact fun ms h => .inl h
  | cons m' members ih =>
      intro ms h
      rcases ih _ h with h | h
      · rcases mem_insert h with rfl | h
        · exact .inr List.mem_cons_self
        · exact .inl h
      · exact .inr (List.mem_cons_of_mem m' h)

theorem proper_readValue {valid : List UInt8 → Bool} {d : Nat} :
    ∀ (b : List UInt8) (t : Json (List UInt8) Int) (r : List UInt8),
      readValue valid d b = some (t, r) →
      Proper (fun s => valid s = true) (fun _ => True) d t := by
  induction d with
  | zero => exact fun b t r h => proper_scalar h
  | succ d ih =>
      intro b t r h
      simp only [readValue] at h
      split at h
      · obtain ⟨q, hq, heq⟩ := Option.map_eq_some_iff.mp h
        cases heq
        exact .arr (forall_of_group ih hq)
      · split at h
        · obtain ⟨q, hq, heq⟩ := Option.map_eq_some_iff.mp h
          cases heq
          have hall := forall_of_group (proper_member ih) hq
          exact .obj (nodup_assign q.1) (fun m hm => (hall m (mem_assign hm)).1)
            (fun m hm => (hall m (mem_assign hm)).2)
        · exact proper_scalar h

theorem proper_parse {valid : List UInt8 → Bool} {b : List UInt8} {t : Json (List UInt8) Int}
    (h : parse valid b = some t) :
    Proper (fun s => valid s = true) (fun _ => True) maxDepth t := by
  simp only [parse] at h
  split at h
  · rename_i hread
    cases h
    exact proper_readValue _ _ _ hread
  · cases h

/-! ## Length and encoding of a text -/

theorem length_closing (close : UInt8) (ws : List (List UInt8)) :
    (closing close ws).length = 1 + (ws.map fun w => w.length + 1).sum := by
  induction ws with
  | nil => rfl
  | cons w ws ih =>
      simp only [closing, List.length_cons, List.length_append, ih, List.map_cons, List.sum_cons]
      omega

theorem length_joined_le (close : UInt8) (ws : List (List UInt8)) :
    (joined close ws).length ≤ 1 + (ws.map fun w => w.length + 1).sum := by
  cases ws with
  | nil => exact Nat.le_refl 1
  | cons w ws =>
      simp only [joined, List.length_append, length_closing, List.map_cons, List.sum_cons]
      omega

/-- A string takes up at most six times its length, and two quotation marks. -/
theorem length_render_le {P : List UInt8 → Prop} {N : Int → Prop} {d : Nat}
    {t : Json (List UInt8) Int} (h : Proper P N d t) :
    (render t).length ≤ t.room (fun s => 6 * s.length + 2) fun n => (printInt n).length := by
  induction h with
  | null => simp only [render, room]; exact Nat.le_refl 4
  | bool b =>
      simp only [render, room]
      cases b with
      | true => exact (by decide : 4 ≤ 5)
      | false => exact Nat.le_refl 5
  | num _ => simp only [render, room]; exact Nat.le_refl _
  | @str d s _ =>
      simp only [render, room]
      exact length_quote_le s
  | @arr d items _ ih =>
      have hjoin := length_joined_le closeBracket (items.map fun t => render t)
      have hsum : ((items.map fun t => render t).map fun w => w.length + 1).sum
          ≤ (items.map fun t => room (fun s => 6 * s.length + 2)
            (fun n => (printInt n).length) t + 1).sum := by
        rw [List.map_map]
        exact List.sum_le_sum fun t ht => Nat.succ_le_succ (ih t ht)
      simp only [render, room, List.length_cons]
      omega
  | @obj d members _ _ _ ih =>
      have hjoin := length_joined_le closeBrace
        (members.map fun m => quote m.1 ++ colon :: render m.2)
      have hsum : ((members.map fun m => quote m.1 ++ colon :: render m.2).map
            fun w => w.length + 1).sum
          ≤ (members.map fun m => 6 * m.1.length + 2 + room (fun s => 6 * s.length + 2)
            (fun n => (printInt n).length) m.2 + 2).sum := by
        rw [List.map_map]
        refine List.sum_le_sum ?_
        intro m hm
        have hkey := length_quote_le m.1
        have hvalue := ih m hm
        simp only [Function.comp_apply, List.length_append, List.length_cons]
        omega
      simp only [render, room, List.length_cons]
      omega

/-- ASCII stays ASCII. -/
theorem escape_ascii {c : UInt8} (h : c.toNat ≤ 0x7F) : ∀ b ∈ escape c, b.toNat ≤ 0x7F := by
  have hdigit : ∀ n < 16, (hexDigit n).toNat ≤ 0x7F := by decide
  simp only [escape]
  split
  · intro b hb
    rcases List.mem_cons.mp hb with rfl | hb
    · decide
    · rw [List.mem_singleton.mp hb]
      exact h
  · split
    · rename_i hlt
      have hlt' : c.toNat < 32 := hlt
      have hhigh := hdigit (c.toNat / 16) (by omega)
      have hlow := hdigit (c.toNat % 16) (by omega)
      intro b hb
      simp only [List.mem_cons, List.not_mem_nil, or_false] at hb
      rcases hb with rfl | rfl | rfl | rfl | rfl | rfl
      · decide
      · decide
      · decide
      · decide
      · exact hhigh
      · exact hlow
    · intro b hb
      rw [List.mem_singleton.mp hb]
      exact h

/-- Other bytes are copied. -/
theorem escape_of_high {c : UInt8} (h : 0x80 ≤ c.toNat) : escape c = [c] := by
  have hc : ¬ (c = quoteMark ∨ c = backslash) := by
    rintro (rfl | rfl)
    · exact absurd h (by decide)
    · exact absurd h (by decide)
  have hlt : ¬ c < 32 := by
    intro hlt
    have hlt' : c.toNat < 32 := hlt
    omega
  simp only [escape, if_neg hc, if_neg hlt]

theorem flatMap_escape_of_high {s : List UInt8} (h : ∀ b ∈ s, 0x80 ≤ b.toNat) :
    s.flatMap escape = s := by
  induction s with
  | nil => rfl
  | cons c s ih =>
      obtain ⟨hc, hs⟩ := List.forall_mem_cons.mp h
      rw [List.flatMap_cons, escape_of_high hc, ih hs]
      rfl

/-- Escaping leaves a character of more than one byte alone, and makes ASCII of
one byte. -/
theorem wellFormed_escape {s : List UInt8} (h : Utf8.Shape s) :
    Utf8.WellFormed (s.flatMap escape) := by
  have hwf := h.wellFormed
  cases h with
  | one ha =>
      rw [List.flatMap_singleton]
      exact Utf8.wellFormed_ascii (escape_ascii ha)
  | two ha _ hb =>
      rw [flatMap_escape_of_high]
      · exact hwf
      · simp only [List.forall_mem_cons]
        exact ⟨Nat.le_trans (by decide) ha, hb.1, fun b hb => absurd hb List.not_mem_nil⟩
  | three ha _ hb hc =>
      rw [flatMap_escape_of_high]
      · exact hwf
      · simp only [List.forall_mem_cons]
        exact ⟨Nat.le_trans (by decide) ha, hb.1, hc.1, fun b hb => absurd hb List.not_mem_nil⟩
  | four ha _ hb hc hd =>
      rw [flatMap_escape_of_high]
      · exact hwf
      · simp only [List.forall_mem_cons]
        exact ⟨Nat.le_trans (by decide) ha, hb.1, hc.1, hd.1, fun b hb => absurd hb List.not_mem_nil⟩

theorem wellFormed_quote {s : List UInt8} (h : Utf8.WellFormed s) :
    Utf8.WellFormed (quote s) := by
  have hbody : Utf8.WellFormed (s.flatMap escape) := by
    obtain ⟨cs, rfl⟩ := h
    induction cs with
    | nil => exact Utf8.wellFormed_nil
    | cons c cs ih =>
        rw [List.flatMap_cons, List.flatMap_append]
        exact (wellFormed_escape (Utf8.shape_encode c)).append ih
  have hmark : Utf8.WellFormed [quoteMark] := Utf8.wellFormed_literal (by decide)
  exact hmark.append (hbody.append hmark)

theorem wellFormed_printInt (n : Int) : Utf8.WellFormed (printInt n) := by
  have hdigits : ∀ b ∈ print n.natAbs, b.toNat ≤ 0x7F := by
    intro b hb
    exact Nat.le_trans (isDigit_print n.natAbs b hb).2 (by decide)
  simp only [printInt]
  split
  · refine Utf8.wellFormed_ascii ?_
    intro b hb
    rcases List.mem_cons.mp hb with rfl | hb
    · decide
    · exact hdigits b hb
  · exact Utf8.wellFormed_ascii hdigits

theorem wellFormed_joined {close : UInt8} (hclose : close.toNat ≤ 0x7F) {ws : List (List UInt8)}
    (h : ∀ w ∈ ws, Utf8.WellFormed w) : Utf8.WellFormed (joined close ws) := by
  have hbehind : ∀ ws : List (List UInt8), (∀ w ∈ ws, Utf8.WellFormed w) →
      Utf8.WellFormed (closing close ws) := by
    intro ws
    induction ws with
    | nil => exact fun _ => (Utf8.wellFormed_one hclose).mpr Utf8.wellFormed_nil
    | cons w ws ih =>
        intro h
        have hrest := ih fun v hv => h v (List.mem_cons_of_mem w hv)
        exact (Utf8.wellFormed_one (by decide)).mpr ((h w List.mem_cons_self).append hrest)
  cases ws with
  | nil => exact hbehind [] h
  | cons w ws =>
      exact (h w List.mem_cons_self).append
        (hbehind ws fun v hv => h v (List.mem_cons_of_mem w hv))

/-- The text of a tree is UTF-8 if its strings are. -/
theorem wellFormed_render {N : Int → Prop} {d : Nat} {t : Json (List UInt8) Int}
    (h : Proper Utf8.WellFormed N d t) : Utf8.WellFormed (render t) := by
  induction h with
  | null =>
      rw [render]
      exact Utf8.wellFormed_literal (by decide)
  | bool b =>
      rw [render]
      cases b with
      | true => exact Utf8.wellFormed_literal (by decide)
      | false => exact Utf8.wellFormed_literal (by decide)
  | num _ =>
      rw [render]
      exact wellFormed_printInt _
  | str hs =>
      rw [render]
      exact wellFormed_quote hs
  | @arr d items _ ih =>
      rw [render]
      refine (Utf8.wellFormed_one (by decide)).mpr (wellFormed_joined (by decide) fun w hw => ?_)
      obtain ⟨t, ht, rfl⟩ := List.mem_map.mp hw
      exact ih t ht
  | @obj d members _ hkeys _ ih =>
      rw [render]
      refine (Utf8.wellFormed_one (by decide)).mpr (wellFormed_joined (by decide) fun w hw => ?_)
      obtain ⟨m, hm, rfl⟩ := List.mem_map.mp hw
      exact (wellFormed_quote (hkeys m hm)).append
        ((Utf8.wellFormed_one (by decide)).mpr (ih m hm))

end JsonText
