/-
# `ChatHub.Hello.Libraries` — what is assumed of Qt's JSON and of Boost.JSON

A hello request is written by Qt and read by Boost.JSON, a hello response the
other way round.  `RequestPath` and `ResponsePath` say what is relied on for
each, about trees that a document can hold: UTF-8 strings, distinct keys, and
containers nested at most as deep as Boost.JSON reads by default.

    string   QString is the identity on UTF-8
    text     what is written is UTF-8
    length   written compactly, a string grows at most sixfold
    read     the other library reads the same tree; an integer is read by Qt
             as the nearest double

`ParsedText` is about what Boost.JSON reads from any text: its strings are
UTF-8.

The assumptions can be met.  `compactQt` and `compactBoost` write and read the
compact text of `ChatHub.Lib.JsonText`, and satisfy all three.
-/
import ChatHub.Lib.JsonText
import ChatHub.Frame.Scan
import ChatHub.Client.HelloCodec
import ChatHub.Server.HelloCodec

namespace ChatHub.Hello

open Contracts Utf8 Json Client Server

/-! ## Assumptions -/

/-- How deep Boost.JSON reads by default. -/
def kMaxDepth : Nat := 32

/-- What a string takes up in a compact text. -/
def stringRoom {σ ν : Type} (L : Leaves σ ν) (s : σ) : Nat := 6 * (L.toStd s).length + 2

/-- What an integer takes up, at most: twenty characters. -/
def numberRoom (_ : BoostNumber) : Nat := 20

/-- A number that was assigned as an integer. -/
def IsInteger : BoostNumber → Prop
  | .int64 _ => True
  | .uint64 _ => True
  | .double _ => False

section
variable {QString : Type} [DecidableEq QString]

/-- A tree of Qt without numbers. -/
abbrev RequestTree (qt : Qt QString) (t : Json QString Rat) : Prop :=
  Proper qt.leaves.Text (fun _ => False) kMaxDepth t

/-- A tree of Boost.JSON whose numbers are integers. -/
abbrev ResponseTree (t : Json Bytes BoostNumber) : Prop :=
  Proper boostLeaves.Text IsInteger kMaxDepth t

/-- What is relied on when Qt writes and Boost.JSON reads. -/
structure RequestPath (qt : Qt QString) (boost : Boost) : Prop where
  string : qt.leaves.Lawful
  text : ∀ t, RequestTree qt t → WellFormed (qt.toJson t)
  length : ∀ t, RequestTree qt t →
    (qt.toJson t).length ≤ t.room (stringRoom qt.leaves) fun _ => 0
  read : ∀ t, RequestTree qt t →
    ∃ t', boost.parse (qt.toJson t) = some t' ∧ Agree boostLeaves qt.leaves t' t

/-- What is relied on when Boost.JSON writes and Qt reads. -/
structure ResponsePath (qt : Qt QString) (boost : Boost) : Prop where
  string : qt.leaves.Lawful
  text : ∀ t, ResponseTree t → WellFormed (boost.serialize t)
  length : ∀ t, ResponseTree t →
    (boost.serialize t).length ≤ t.room (stringRoom boostLeaves) numberRoom
  read : ∀ t, ResponseTree t →
    ∃ t', qt.fromJson (boost.serialize t) = some t' ∧ Agree boostLeaves qt.leaves t t'

end

/-- What Boost.JSON reads, from whatever text: UTF-8 strings and distinct keys. -/
def ParsedText (boost : Boost) : Prop :=
  ∀ b t, boost.parse b = some t → ∃ d, Proper boostLeaves.Text (fun _ => True) d t

theorem boostLeaves_lawful : boostLeaves.Lawful := fun _ _ => rfl

theorem text_boostLeaves {s : Bytes} : boostLeaves.Text s ↔ WellFormed s := by
  constructor
  · rintro ⟨b, hb, rfl⟩
    exact hb
  · intro h
    exact ⟨s, h, rfl⟩

/-! ## Libraries that meet them -/

def numberOfInt (n : Int) : BoostNumber :=
  if n < 2 ^ 63 then .int64 (Int64.ofInt n) else .uint64 (UInt64.ofNat n.toNat)

def intOfNumber : BoostNumber → Int
  | .int64 n => n.toInt
  | .uint64 n => n.toNat
  | .double x => x.floor

/-- Compact text, with byte strings for strings.  A `QJsonObject` keeps its
members in the order of their keys. -/
def compactQt : Qt Bytes where
  fromStdString := id
  toStdString := id
  toJson := fun t => JsonText.render ((t.sortKeys (· ≤ ·)).mapNum Rat.floor)
  fromJson := fun b => (JsonText.parse isValidUtf8 b).map fun t => t.mapNum Double.ofInt

def compactBoost : Boost where
  parse := fun b => (JsonText.parse isValidUtf8 b).map fun t => t.mapNum numberOfInt
  serialize := fun t => JsonText.render (t.mapNum intOfNumber)

theorem compactQt_lawful : compactQt.leaves.Lawful := fun _ _ => rfl

theorem text_compactQt {s : Bytes} (h : compactQt.leaves.Text s) : WellFormed s := by
  obtain ⟨b, hb, rfl⟩ := h
  exact hb

/-- Strings that stand for the same UTF-8 are equal. -/
theorem eq_of_sameText {s s' : Bytes} (h : boostLeaves.SameText compactQt.leaves s s') : s = s' := by
  obtain ⟨b, -, rfl, rfl⟩ := h
  rfl

theorem compactRequestPath : RequestPath compactQt compactBoost where
  string := compactQt_lawful
  text := fun t ht => by
    have hsorted : RequestTree compactQt (t.sortKeys (· ≤ ·)) := ht.sortKeys
    exact JsonText.wellFormed_render ((hsorted.imp (fun _ => text_compactQt) fun _ => id).mapNum
      (M := fun _ => True) fun _ => False.elim)
  length := fun t ht => by
    have hsorted : RequestTree compactQt (t.sortKeys (· ≤ ·)) := ht.sortKeys
    have hlen := JsonText.length_render_le (hsorted.mapNum (M := fun _ => True) (g := Rat.floor)
      fun _ => False.elim)
    rw [room_mapNum, room_sortKeys] at hlen
    exact Nat.le_trans hlen (ht.room_le (fun _ _ => Nat.le_refl _) fun _ => False.elim)
  read := fun t ht => by
    have hsorted : RequestTree compactQt (t.sortKeys (· ≤ ·)) := ht.sortKeys
    have hproper : Proper (fun s => isValidUtf8 s = true) (fun _ => True) JsonText.maxDepth
        ((t.sortKeys (· ≤ ·)).mapNum Rat.floor) := by
      refine (hsorted.imp ?_ fun _ => id).mapNum fun _ => False.elim
      intro s hs
      exact isValidUtf8_eq_true.mpr (text_compactQt hs)
    have hsame := hsorted.same_mapNum (h := id) (g := fun x => numberOfInt (Rat.floor x))
      (M := boostLeaves.SameNumber compactQt.leaves) (fun _ _ => eq_of_sameText)
      (fun s hs => ⟨s, text_compactQt hs, rfl, rfl⟩) fun _ => False.elim
    rw [mapNum_id, ← mapNum_mapNum] at hsame
    refine ⟨_, ?_, Same.of_sortKeys ht hsame⟩
    show (JsonText.parse isValidUtf8 (JsonText.render _)).map _ = _
    rw [JsonText.parse_render hproper]
    rfl

/-- An integer of either kind has at most twenty characters. -/
theorem length_printInt_le {n : BoostNumber} (h : IsInteger n) :
    (JsonText.printInt (intOfNumber n)).length ≤ numberRoom n := by
  cases n with
  | int64 n =>
      have hlo := n.le_toInt
      have hhi := n.toInt_lt
      have hdigits : (Decimal.print n.toInt.natAbs).length ≤ 18 + 1 :=
        Decimal.length_print_le (by omega)
      show (JsonText.printInt n.toInt).length ≤ 20
      rw [JsonText.printInt]
      split
      · exact Nat.succ_le_succ hdigits
      · exact Nat.le_succ_of_le hdigits
  | uint64 n =>
      have hhi := n.toNat_lt
      have hdigits : (Decimal.print n.toNat).length ≤ 19 + 1 :=
        Decimal.length_print_le (Nat.lt_trans hhi (by decide))
      show (JsonText.printInt (n.toNat : Int)).length ≤ 20
      rw [JsonText.printInt, if_neg (Int.not_lt.mpr (Int.natCast_nonneg _)), Int.natAbs_natCast]
      exact hdigits
  | double x => cases h

theorem compactResponsePath : ResponsePath compactQt compactBoost where
  string := compactQt_lawful
  text := fun t ht => JsonText.wellFormed_render
    ((ht.imp (fun _ => text_boostLeaves.mp) fun _ => id).mapNum (M := fun _ => True)
      fun _ _ => trivial)
  length := fun t ht => by
    have hlen := JsonText.length_render_le (ht.mapNum (M := fun _ => True) (g := intOfNumber)
      fun _ _ => trivial)
    rw [room_mapNum] at hlen
    exact Nat.le_trans hlen (ht.room_le (fun _ _ => Nat.le_refl _) fun _ => length_printInt_le)
  read := fun t ht => by
    have hproper : Proper (fun s => isValidUtf8 s = true) (fun _ => True) JsonText.maxDepth
        (t.mapNum intOfNumber) := by
      refine (ht.imp (fun s hs => ?_) fun _ => id).mapNum fun _ _ => trivial
      exact isValidUtf8_eq_true.mpr (text_boostLeaves.mp hs)
    refine ⟨(t.mapNum intOfNumber).mapNum Double.ofInt, ?_, ?_⟩
    · show (JsonText.parse isValidUtf8 (JsonText.render (t.mapNum intOfNumber))).map _ = _
      rw [JsonText.parse_render hproper]
      rfl
    · have hsame := ht.same_mapNum (g := id) (h := fun n => Double.ofInt (intOfNumber n))
        (M := boostLeaves.SameNumber compactQt.leaves) (fun _ _ => eq_of_sameText)
        (fun s hs => ⟨s, text_boostLeaves.mp hs, rfl, rfl⟩) (fun n hn => ?_)
      · rw [mapNum_id] at hsame
        rw [mapNum_mapNum]
        exact hsame
      · cases n with
        | int64 n => rfl
        | uint64 n => rfl
        | double x => cases hn

theorem compactParsedText : ParsedText compactBoost := by
  intro b t h
  obtain ⟨u, hu, rfl⟩ := Option.map_eq_some_iff.mp h
  refine ⟨_, ((JsonText.proper_parse hu).imp (fun s hs => ?_) fun _ => id).mapNum
    fun _ _ => trivial⟩
  exact text_boostLeaves.mpr (isValidUtf8_eq_true.mp hs)

/-- An id to try the codecs on. -/
def sampleId : RequestId where
  value := ascii "6ba7b810-9dad-41d1-80b4-00c04fd430c8"
  checked := .inr (by decide +kernel)

end ChatHub.Hello
