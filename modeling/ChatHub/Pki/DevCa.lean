/-
# `ChatHub.Pki.DevCa` — IPv4 literals of the development CA

`tools/pki/src/dev_ca.cpp` writes an address in two directions.  A certificate
is issued for a text, if `isIpv4Literal` accepts it; and `inspectCertPem` makes
a text of the four address bytes it finds in a certificate.  What OpenSSL does
in between is not part of the repository: `issueDevCa` takes it as a parameter.

The scan cuts the text at its dots, tests each part, and counts.  So it says
something about the parts of the text (`scanOctets_eq`), and a part that passes
the tests is the decimal text of a byte (`octetOk_iff`).  That is what the other
direction writes, and so the two agree on every text and all bytes.

The counter is an `int`.  A text of `2 ^ 31` bytes could overflow it, which is
undefined; the model has no answer there.
-/
import ChatHub.Lib.Decimal
import ChatHub.Contracts.Ids

namespace ChatHub.Pki

open Contracts Decimal

/-! ## From a text -/

/-- `rest.find('.')`, with nothing for `npos`. -/
def findDot (rest : Bytes) : Option Nat := rest.idxOf? (chr '.')

/-- `rest.substr(0, dot)`. -/
def front (rest : Bytes) : Option Nat → Bytes
  | none => rest
  | some dot => rest.take dot

/-- The loop over the characters of a part. -/
def octetValue (value : Nat) : Bytes → Option Nat
  | [] => some value
  | c :: octet =>
      if c < chr '0' ∨ chr '9' < c then none
      else octetValue (value * 10 + (c.toNat - (chr '0').toNat)) octet

/-- The tests on one part. -/
def octetOk (octet : Bytes) : Bool :=
  if octet = [] ∨ 3 < octet.length then false
  else if 1 < octet.length ∧ octet.head? = some (chr '0') then false
  else
    match octetValue 0 octet with
    | none => false
    | some value => decide (value ≤ 255)

/-- The largest `int`. -/
def kIntMax : Nat := 2147483647

theorem lt_of_findDot {rest : Bytes} {dot : Nat} (h : findDot rest = some dot) :
    dot < rest.length := by
  obtain ⟨hlt, -⟩ := List.idxOf?_eq_some_iff.mp h
  exact hlt

/-- The loop, `octets` parts having passed; nothing if the counter overflows. -/
def scanOctets (rest : Bytes) (octets : Nat) : Option Bool :=
  if octetOk (front rest (findDot rest)) = false then some false
  else if octets = kIntMax then none
  else
    match h : findDot rest with
    | none => some (octets + 1 == 4)
    | some dot => scanOctets (rest.drop (dot + 1)) (octets + 1)
termination_by rest.length
decreasing_by
  have := lt_of_findDot h
  rw [List.length_drop]
  omega

def isIpv4Literal (text : Bytes) : Option Bool := scanOctets text 0

/-- `issueDevCa`: nothing unless the text is a literal.  `sign` is the part that
is done with OpenSSL, for a common name and the value of the SAN extension. -/
def issueDevCa {Issued : Type} (sign : Bytes → Bytes → Option Issued) (ipv4 : Bytes) :
    Option Issued :=
  if isIpv4Literal ipv4 = some true then sign ipv4 (ascii "IP:" ++ ipv4) else none

/-! ## From a certificate -/

/-- A name in the SAN extension of a certificate. -/
inductive GeneralName where
  | dns
  | ipAdd (data : Bytes)
  | other

/-- What `CertFacts` says about the SAN extension. -/
structure SanFacts where
  hasDnsSan : Bool := false
  hasIpv6San : Bool := false
  sanIps : List Bytes := []
  deriving DecidableEq

/-- The text of four address bytes. -/
def dottedQuad (a b c d : UInt8) : Bytes :=
  print a.toNat ++ ascii "." ++ print b.toNat ++ ascii "." ++ print c.toNat ++ ascii "." ++
    print d.toNat

/-- The loop body over the SAN extension in `inspectCertPem`. -/
def addName (f : SanFacts) : GeneralName → SanFacts
  | .dns => { f with hasDnsSan := true }
  | .ipAdd [a, b, c, d] => { f with sanIps := f.sanIps ++ [dottedQuad a b c d] }
  | .ipAdd data => if data.length = 16 then { f with hasIpv6San := true } else f
  | .other => f

def sanFacts (names : List GeneralName) : SanFacts := names.foldl addName {}

/-! ## A part is the text of a byte -/

/-- The decimal text of a byte. -/
def IsOctet (octet : Bytes) : Prop := ∃ b : UInt8, print b.toNat = octet

theorem octetValue_eq_some {octet : Bytes} {v w : Nat} :
    octetValue v octet = some w ↔
      (∀ c ∈ octet, IsDigit c) ∧ octet.foldl (fun v c => v * 10 + (c.toNat - 48)) v = w := by
  induction octet generalizing v with
  | nil =>
      rw [octetValue, List.foldl_nil, Option.some.injEq]
      exact (and_iff_right (List.forall_mem_nil _)).symm
  | cons c octet ih =>
      rw [octetValue, List.forall_mem_cons, List.foldl_cons, and_assoc]
      by_cases hc : IsDigit c
      · have hrange : ¬(c < chr '0' ∨ chr '9' < c) := by
          rintro (h | h)
          · exact Nat.not_le_of_lt h hc.1
          · exact Nat.not_le_of_lt h hc.2
        rw [if_neg hrange, ih]
        exact (and_iff_right hc).symm
      · have hrange : c < chr '0' ∨ chr '9' < c := by
          by_contra h
          obtain ⟨h₁, h₂⟩ := not_or.mp h
          exact hc ⟨Nat.le_of_not_lt h₁, Nat.le_of_not_lt h₂⟩
        rw [if_pos hrange]
        exact iff_of_false (Option.some_ne_none w).symm fun h => hc h.1

theorem isOctet_iff {octet : Bytes} : IsOctet octet ↔ Canonical octet ∧ value octet ≤ 255 := by
  constructor
  · rintro ⟨b, rfl⟩
    refine ⟨canonical_print _, ?_⟩
    rw [value_print]
    exact Nat.le_of_lt_succ b.toNat_lt
  · rintro ⟨hcanon, hle⟩
    refine ⟨UInt8.ofNat (value octet), ?_⟩
    rw [UInt8.toNat_ofNat', Nat.mod_eq_of_lt (Nat.lt_succ_of_le hle), print_value hcanon]

/-- **The tests accept the texts of the bytes.** -/
theorem octetOk_iff {octet : Bytes} : octetOk octet = true ↔ IsOctet octet := by
  rw [isOctet_iff, octetOk]
  constructor
  · intro h
    split at h
    · cases h
    · rename_i hlen
      obtain ⟨hne, -⟩ := not_or.mp hlen
      split at h
      · cases h
      · rename_i hzero
        split at h
        · cases h
        · rename_i v hv
          obtain ⟨hdigits, hfold⟩ := octetValue_eq_some.mp hv
          refine ⟨⟨hne, hdigits, ?_⟩, ?_⟩
          · intro hhead
            have hpos := List.length_pos_of_ne_nil hne
            by_contra hone
            exact hzero ⟨by omega, hhead⟩
          · rw [value, hfold]
            exact of_decide_eq_true h
  · rintro ⟨hcanon, hle⟩
    have hthree : octet.length ≤ 3 := by
      have hprint := length_print_le (n := value octet) (k := 2) (by omega)
      rwa [print_value hcanon] at hprint
    have hlen : ¬(octet = [] ∨ 3 < octet.length) := by
      rintro (h | h)
      · exact hcanon.nonempty h
      · exact Nat.not_le_of_lt h hthree
    have hzero : ¬(1 < octet.length ∧ octet.head? = some (chr '0')) := by
      rintro ⟨hlong, hhead⟩
      exact absurd (hcanon.leading hhead) (Nat.ne_of_gt hlong)
    have hvalue : octetValue 0 octet = some (value octet) :=
      octetValue_eq_some.mpr ⟨hcanon.digits, rfl⟩
    rw [if_neg hlen, if_neg hzero, hvalue]
    exact decide_eq_true hle

/-! ## The scan cuts at the dots -/

/-- What the scan finds is the first of the parts between the dots. -/
theorem findDot_cases (rest : Bytes) :
    (findDot rest = none ∧ rest.splitOn (chr '.') = [rest]) ∨
    ∃ dot, findDot rest = some dot ∧
      rest.splitOn (chr '.') = rest.take dot :: (rest.drop (dot + 1)).splitOn (chr '.') := by
  cases h : findDot rest with
  | none => exact .inl ⟨rfl, List.splitOn_eq_singleton (List.idxOf?_eq_none_iff.mp h)⟩
  | some dot =>
      refine .inr ⟨dot, rfl, ?_⟩
      obtain ⟨hlt, hdot, hfirst⟩ := List.idxOf?_eq_some_iff.mp h
      have hno : chr '.' ∉ rest.take dot := by
        intro hmem
        obtain ⟨j, hj, hget⟩ := List.getElem_of_mem hmem
        rw [List.length_take] at hj
        rw [List.getElem_take] at hget
        exact hfirst j (by omega) hget
      have hcut : rest = rest.take dot ++ chr '.' :: rest.drop (dot + 1) := by
        rw [← hdot, ← List.drop_eq_getElem_cons hlt, List.take_append_drop]
      have hsplit := List.splitOn_append_cons_self_of_not_mem hno (rest.drop (dot + 1))
      rwa [← hcut] at hsplit

/-- **The scan tests every part and counts them.**  Each turn leaves fewer
bytes than it counts parts, so below `2 ^ 31` bytes the counter is in range. -/
theorem scanOctets_eq {rest : Bytes} {n : Nat} (h : n + rest.length < 2 ^ 31) :
    ∃ ok, scanOctets rest n = some ok ∧
      (ok = true ↔ (∀ p ∈ rest.splitOn (chr '.'), IsOctet p) ∧
        n + (rest.splitOn (chr '.')).length = 4) := by
  induction hlen : rest.length using Nat.strongRecOn generalizing rest n with
  | _ len ih =>
      subst hlen
      by_cases hoctet : octetOk (front rest (findDot rest)) = true
      · have hpos : 0 < rest.length := by
          refine List.length_pos_of_ne_nil ?_
          rintro rfl
          cases hoctet
        have hcount : ¬ n = kIntMax := by
          rw [kIntMax]
          omega
        rcases findDot_cases rest with ⟨hdot, hparts⟩ | ⟨dot, hdot, hparts⟩
        · rw [hdot] at hoctet
          refine ⟨n + 1 == 4, ?_, ?_⟩
          · rw [scanOctets, hdot, if_neg (by simp [hoctet]), if_neg hcount]
          · rw [hparts, List.forall_mem_singleton, List.length_singleton, beq_iff_eq]
            exact (and_iff_right (octetOk_iff.mp hoctet)).symm
        · have hlt := lt_of_findDot hdot
          have hdrop : (rest.drop (dot + 1)).length < rest.length := by
            rw [List.length_drop]
            omega
          obtain ⟨ok, hscan, hok⟩ := ih _ hdrop (n := n + 1) (by omega) rfl
          rw [hdot] at hoctet
          refine ⟨ok, ?_, ?_⟩
          · rw [scanOctets, hdot, if_neg (by simp [hoctet]), if_neg hcount]
            exact hscan
          · rw [hok, hparts, List.forall_mem_cons, List.length_cons, and_assoc, Nat.add_right_comm,
              Nat.add_assoc]
            exact (and_iff_right (octetOk_iff.mp hoctet)).symm
      · refine ⟨false, ?_, ?_⟩
        · rw [scanOctets, if_pos (Bool.eq_false_iff.mpr hoctet)]
        · refine iff_of_false Bool.false_ne_true ?_
          rintro ⟨hall, -⟩
          refine hoctet (octetOk_iff.mpr ?_)
          rcases findDot_cases rest with ⟨hdot, hparts⟩ | ⟨dot, hdot, hparts⟩
          · rw [hdot]
            exact hall rest (hparts ▸ List.mem_cons_self)
          · rw [hdot]
            exact hall _ (hparts ▸ List.mem_cons_self)

/-! ## The two directions agree -/

/-- No dot among digits. -/
theorem dot_not_mem_print (n : Nat) : chr '.' ∉ print n := by
  intro h
  exact absurd (isDigit_print n _ h) (by decide)

theorem splitOn_dottedQuad (a b c d : UInt8) :
    (dottedQuad a b c d).splitOn (chr '.') =
      [print a.toNat, print b.toNat, print c.toNat, print d.toNat] := by
  have htext : dottedQuad a b c d =
      [chr '.'].intercalate [print a.toNat, print b.toNat, print c.toNat, print d.toNat] := by
    simp [dottedQuad, List.intercalate, ascii]
  rw [htext]
  refine List.splitOn_intercalate (chr '.') ?_ (List.cons_ne_nil _ _)
  simp only [List.forall_mem_cons]
  exact ⟨dot_not_mem_print _, dot_not_mem_print _, dot_not_mem_print _, dot_not_mem_print _,
    List.forall_mem_nil _⟩

theorem print_toNat_injective {a b : UInt8} (h : print a.toNat = print b.toNat) : a = b := by
  have hvalue := congrArg value h
  rw [value_print, value_print] at hvalue
  exact UInt8.toNat_inj.mp hvalue

/-- Different bytes have different texts. -/
theorem dottedQuad_injective {a b c d a' b' c' d' : UInt8}
    (h : dottedQuad a b c d = dottedQuad a' b' c' d') : a = a' ∧ b = b' ∧ c = c' ∧ d = d' := by
  have hparts := splitOn_dottedQuad a b c d
  rw [h, splitOn_dottedQuad] at hparts
  simp only [List.cons.injEq, and_true] at hparts
  obtain ⟨ha, hb, hc, hd⟩ := hparts
  exact ⟨print_toNat_injective ha.symm, print_toNat_injective hb.symm, print_toNat_injective hc.symm,
    print_toNat_injective hd.symm⟩

/-- Four parts, each the text of a byte. -/
theorem exists_dottedQuad_iff {text : Bytes} :
    (∃ a b c d, text = dottedQuad a b c d) ↔
      (∀ p ∈ text.splitOn (chr '.'), IsOctet p) ∧ (text.splitOn (chr '.')).length = 4 := by
  constructor
  · rintro ⟨a, b, c, d, rfl⟩
    rw [splitOn_dottedQuad]
    simp only [List.forall_mem_cons]
    exact ⟨⟨⟨a, rfl⟩, ⟨b, rfl⟩, ⟨c, rfl⟩, ⟨d, rfl⟩, List.forall_mem_nil _⟩, rfl⟩
  · rintro ⟨hall, hlen⟩
    obtain ⟨p, q, r, s, hparts⟩ := List.length_eq_four.mp hlen
    have htext : [chr '.'].intercalate (text.splitOn (chr '.')) = text :=
      List.intercalate_splitOn (chr '.')
    rw [hparts] at hall htext
    simp only [List.forall_mem_cons] at hall
    obtain ⟨⟨a, rfl⟩, ⟨b, rfl⟩, ⟨c, rfl⟩, ⟨d, rfl⟩, -⟩ := hall
    refine ⟨a, b, c, d, ?_⟩
    rw [← htext]
    simp [dottedQuad, List.intercalate, ascii]

/-- **The literals are the texts of four bytes**, each of four bytes only; a
certificate is issued for no other text, and a SAN of these four bytes is read
back as the literal. -/
theorem isIpv4Literal_iff {text : Bytes} (hlen : text.length < 2 ^ 31) :
    (∃ ok, isIpv4Literal text = some ok ∧
      (ok = true ↔ ∃ a b c d, text = dottedQuad a b c d)) ∧
    (∀ a b c d a' b' c' d', text = dottedQuad a b c d → text = dottedQuad a' b' c' d' →
      a = a' ∧ b = b' ∧ c = c' ∧ d = d') ∧
    (∀ a b c d, text = dottedQuad a b c d → (sanFacts [.ipAdd [a, b, c, d]]).sanIps = [text]) ∧
    ∀ {Issued : Type} (sign : Bytes → Bytes → Option Issued),
      ((∃ a b c d, text = dottedQuad a b c d) →
        issueDevCa sign text = sign text (ascii "IP:" ++ text)) ∧
      ((¬∃ a b c d, text = dottedQuad a b c d) → issueDevCa sign text = none) := by
  have hstart : 0 + text.length < 2 ^ 31 := by rwa [Nat.zero_add]
  obtain ⟨ok, hscan, hok⟩ := scanOctets_eq hstart
  rw [Nat.zero_add, ← exists_dottedQuad_iff] at hok
  refine ⟨⟨ok, hscan, hok⟩, ?_, ?_, ?_⟩
  · intro a b c d a' b' c' d' h h'
    exact dottedQuad_injective (h.symm.trans h')
  · rintro a b c d rfl
    rfl
  · intro Issued sign
    constructor
    · intro hquad
      exact if_pos (hscan.trans (congrArg some (hok.mpr hquad)))
    · intro hno
      refine if_neg ?_
      intro htrue
      exact hno (hok.mp (Option.some.inj (hscan.symm.trans htrue)))

example : isIpv4Literal (ascii "127.0.0.1") = some true := by decide +kernel
example : isIpv4Literal (ascii "127.0.0.01") = some false := by decide +kernel
example : isIpv4Literal (ascii "127.0.0.1.") = some false := by decide +kernel

theorem isIpv4Literal_iff_loopback :
    (ascii "127.0.0.1").length < 2 ^ 31 ∧
    ((∃ ok, isIpv4Literal (ascii "127.0.0.1") = some ok ∧
      (ok = true ↔ ∃ a b c d, ascii "127.0.0.1" = dottedQuad a b c d)) ∧
    (∀ a b c d a' b' c' d', ascii "127.0.0.1" = dottedQuad a b c d →
      ascii "127.0.0.1" = dottedQuad a' b' c' d' → a = a' ∧ b = b' ∧ c = c' ∧ d = d') ∧
    (∀ a b c d, ascii "127.0.0.1" = dottedQuad a b c d →
      (sanFacts [.ipAdd [a, b, c, d]]).sanIps = [ascii "127.0.0.1"]) ∧
    ∀ {Issued : Type} (sign : Bytes → Bytes → Option Issued),
      ((∃ a b c d, ascii "127.0.0.1" = dottedQuad a b c d) →
        issueDevCa sign (ascii "127.0.0.1") =
          sign (ascii "127.0.0.1") (ascii "IP:" ++ ascii "127.0.0.1")) ∧
      ((¬∃ a b c d, ascii "127.0.0.1" = dottedQuad a b c d) →
        issueDevCa sign (ascii "127.0.0.1") = none)) :=
  ⟨by decide, isIpv4Literal_iff (by decide)⟩

end ChatHub.Pki
