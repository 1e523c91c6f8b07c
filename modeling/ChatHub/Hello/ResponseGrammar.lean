/-
# `ChatHub.Hello.ResponseGrammar` — which texts are hello responses

The grammar of the success envelope, and `decodeHelloResponse` as its decision
procedure, by the same table as for a request.

The numbers of the tree are exact.  A double that passes the test of the code
is a whole number in the range of the field, so the conversion behind the test
is defined and exact (`readTime_iff`, `readUint32_iff`), and what is returned
is the number of the tree; nothing of the defaults of `HelloResponse` is left
when the decoder succeeds.
-/
import ChatHub.Hello.Grammar

namespace ChatHub.Hello

open Contracts Json Client

/-! ## Numbers -/

section
variable {σ ν : Type} [DecidableEq σ]

/-- The field is the whole number `n`, from 0 to `limit`. -/
def WholeField (L : Leaves σ ν) (k : Field) (limit : Int) (data : List (σ × Json σ ν)) (n : Int) :
    Prop :=
  ∃ x, find? (L.key k) data = some (.num x) ∧ L.toDouble x = n ∧ 0 ≤ n ∧ n ≤ limit

variable {L : Leaves σ ν} {data : List (σ × Json σ ν)}

/-- The test of the code: not negative, not above the limit, its own floor. -/
theorem wholeUpTo_iff (limit : Int) {x : Rat} :
    wholeUpTo limit x = true ↔ ∃ n : Int, x = n ∧ 0 ≤ n ∧ n ≤ limit := by
  simp only [wholeUpTo, Bool.not_eq_true', Bool.or_eq_false_iff, decide_eq_false_iff_not,
    bne_eq_false_iff_eq, not_lt]
  constructor
  · rintro ⟨⟨hlo, hhi⟩, hfloor⟩
    rw [← hfloor] at hlo hhi
    exact ⟨x.floor, hfloor.symm, by exact_mod_cast hlo, by exact_mod_cast hhi⟩
  · rintro ⟨n, rfl, hlo, hhi⟩
    exact ⟨⟨by exact_mod_cast hlo, by exact_mod_cast hhi⟩, by rw [Rat.floor_intCast]⟩

/-- **The time that is read is the number of the tree**, and the conversion to
`int64` is in range. -/
theorem readTime_iff {t : Int64} :
    readTime L data = .ok t ↔ WholeField L .serverTime 9007199254740991 data t.toInt := by
  rw [readTime_eq_ok, WholeField]
  refine exists_congr fun x => and_congr_right fun _ => ?_
  have hwhole : wholeUpTo kMaxSafeInteger (L.toDouble x) = true ↔ _ := wholeUpTo_iff 9007199254740991
  rw [hwhole]
  constructor
  · rintro ⟨⟨n, hn, hlo, hhi⟩, rfl⟩
    rw [hn, Rat.floor_intCast, Int64.toInt_ofInt_of_le (by omega) (by omega)]
    exact ⟨rfl, hlo, hhi⟩
  · rintro ⟨hn, hlo, hhi⟩
    refine ⟨⟨t.toInt, hn, hlo, hhi⟩, ?_⟩
    rw [hn, Rat.floor_intCast, Int64.ofInt_toInt]

/-- **A parameter that is read is the number of the tree**, and the conversion
to `uint32` is in range. -/
theorem readUint32_iff {k : Field} {v : UInt32} :
    readUint32 L k data = some v ↔ WholeField L k 4294967295 data v.toNat := by
  rw [readUint32_eq_some, WholeField]
  refine exists_congr fun x => and_congr_right fun _ => ?_
  have hwhole : wholeUpTo 4294967295 (L.toDouble x) = true ↔ _ := wholeUpTo_iff 4294967295
  rw [hwhole]
  constructor
  · rintro ⟨⟨n, hn, hlo, hhi⟩, rfl⟩
    rw [hn, Rat.floor_intCast, UInt32.toNat_ofNat_of_lt' (by simp only [UInt32.size]; omega),
      Int.toNat_of_nonneg hlo]
    exact ⟨rfl, hlo, hhi⟩
  · rintro ⟨hn, hlo, hhi⟩
    refine ⟨⟨v.toNat, hn, hlo, hhi⟩, ?_⟩
    rw [hn, Rat.floor_intCast, Int.toNat_natCast, UInt32.ofNat_toNat]

theorem exists_int64 {k : Field} {n : Int} (h : WholeField L k 9007199254740991 data n) :
    ∃ t : Int64, WholeField L k 9007199254740991 data t.toInt := by
  obtain ⟨x, hf, hx, hlo, hhi⟩ := h
  refine ⟨Int64.ofInt n, x, hf, ?_⟩
  rw [Int64.toInt_ofInt_of_le (by omega) (by omega)]
  exact ⟨hx, hlo, hhi⟩

theorem exists_uint32 {k : Field} {n : Int} (h : WholeField L k 4294967295 data n) :
    ∃ v : UInt32, WholeField L k 4294967295 data v.toNat := by
  obtain ⟨x, hf, hx, hlo, hhi⟩ := h
  refine ⟨UInt32.ofNat n.toNat, x, hf, ?_⟩
  rw [UInt32.toNat_ofNat_of_lt' (by simp only [UInt32.size]; omega), Int.toNat_of_nonneg hlo]
  exact ⟨hx, hlo, hhi⟩

/-! ## The checks of a response -/

theorem readOk_failsWith (L : Leaves σ ν) (root : List (σ × Json σ ν)) :
    FailsWith kInvalidRequest (readOk L root) := by
  rw [readOk]
  split
  · exact failsWith_ok ()
  · exact failsWith_error

theorem readTime_failsWith (L : Leaves σ ν) (data : List (σ × Json σ ν)) :
    FailsWith kInvalidRequest (readTime L data) := by
  rw [readTime]
  split
  · split
    · exact failsWith_ok _
    · exact failsWith_error
  · exact failsWith_error

theorem readParameters_failsWith (L : Leaves σ ν) (data : List (σ × Json σ ν)) :
    FailsWith kInvalidRequest (readParameters L data) := by
  rw [readParameters]
  split
  · exact failsWith_ok _
  · exact failsWith_error

theorem readResponse_failsWith (L : Leaves σ ν) (root : List (σ × Json σ ν)) :
    FailsWith kInvalidRequest (readResponse L root) := by
  refine (readOk_failsWith L root).bind fun _ => ?_
  refine (readData_failsWith L root).bind fun data => ?_
  refine (readString_failsWith L _ _ data).bind fun version => ?_
  refine (readTime_failsWith L data).bind fun time => ?_
  refine (readParameters_failsWith L data).bind fun parameters => ?_
  exact (readCapabilities_failsWith L data).bind fun capabilities => failsWith_ok _

/-! ## The grammar of a response -/

/-- The known fields of the root and of its data. -/
def responseTop : List Field := [.requestId, .ok]

def responseFields : List Field :=
  [.serverVersion, .serverTime, .maxJson, .maxText, .heartbeatIdle, .timeout, .capabilities]

/-- The success envelope behind the id, and the values in it. -/
def ResponseData (L : Leaves σ ν) (root : List (σ × Json σ ν)) (response : HelloResponse) : Prop :=
  find? (L.key .ok) root = some (.bool true) ∧
  ∃ data, find? (L.key .data) root = some (.obj data) ∧
    StringField L .serverVersion 32 data response.serverVersion ∧
    WholeField L .serverTime 9007199254740991 data response.serverTime.toInt ∧
    WholeField L .maxJson 4294967295 data response.maxJson.toNat ∧
    WholeField L .maxText 4294967295 data response.maxText.toNat ∧
    WholeField L .heartbeatIdle 4294967295 data response.heartbeatIdle.toNat ∧
    WholeField L .timeout 4294967295 data response.timeout.toNat ∧
    CapabilitiesField L data response.capabilities

variable {root root' : List (σ × Json σ ν)}

theorem readResponse_iff {response : HelloResponse} :
    readResponse L root = .ok response ↔ ResponseData L root response := by
  rw [readResponse_eq_ok, ResponseData]
  simp only [readString_iff, readTime_iff, readUint32_iff, readCapabilities_iff]
  exact Iff.rfl

/-- There is a response in the tree exactly when every field obeys its grammar. -/
theorem exists_responseData_iff :
    (∃ response, ResponseData L root response) ↔
      find? (L.key .ok) root = some (.bool true) ∧
      ∃ data, find? (L.key .data) root = some (.obj data) ∧
        (∃ v, StringField L .serverVersion 32 data v) ∧
        (∃ n, WholeField L .serverTime 9007199254740991 data n) ∧
        (∀ k ∈ [Field.maxJson, .maxText, .heartbeatIdle, .timeout],
          ∃ n, WholeField L k 4294967295 data n) ∧
        ∃ items, find? (L.key .capabilities) data = some (.arr items) ∧ items.length ≤ 16 ∧
          ∀ item ∈ items, ∃ s, item = .str s ∧ 1 ≤ (L.toStd s).length ∧ (L.toStd s).length ≤ 64 := by
  constructor
  · rintro ⟨response, hok, data, hdata, hversion, htime, ha, hb, hc, hd, items, hitems, hcount, hall,
      -⟩
    refine ⟨hok, data, hdata, ⟨_, hversion⟩, ⟨_, htime⟩, ?_, items, hitems, hcount, hall⟩
    simp only [List.forall_mem_cons]
    exact ⟨⟨_, ha⟩, ⟨_, hb⟩, ⟨_, hc⟩, ⟨_, hd⟩, List.forall_mem_nil _⟩
  · rintro ⟨hok, data, hdata, ⟨v, hversion⟩, ⟨n, htime⟩, hparams, items, hitems, hcount, hall⟩
    obtain ⟨t, ht⟩ := exists_int64 htime
    obtain ⟨⟨_, ha⟩, ⟨_, hb⟩, ⟨_, hc⟩, ⟨_, hd⟩, -⟩ := by
      simpa only [List.forall_mem_cons] using hparams
    obtain ⟨a, ha⟩ := exists_uint32 ha
    obtain ⟨b, hb⟩ := exists_uint32 hb
    obtain ⟨c, hc⟩ := exists_uint32 hc
    obtain ⟨d, hd⟩ := exists_uint32 hd
    obtain ⟨set, hset⟩ := exists_capabilitiesField hitems hcount hall
    exact ⟨⟨v, t, a, b, c, d, set⟩, hok, data, hdata, hversion, ht, ha, hb, hc, hd, hset⟩

/-! ### Other members -/

theorem readOk_of_find? (h : find? (L.key .ok) root = find? (L.key .ok) root') :
    readOk L root = readOk L root' := by
  simp only [readOk, h]

theorem readTime_of_sameFields {data' : List (σ × Json σ ν)}
    (h : SameFields L responseFields data data') : readTime L data = readTime L data' := by
  simp only [readTime, h .serverTime (by decide)]

theorem readParameters_of_sameFields {data' : List (σ × Json σ ν)}
    (h : SameFields L responseFields data data') :
    readParameters L data = readParameters L data' := by
  simp only [readParameters, readUint32, h .maxJson (by decide), h .maxText (by decide),
    h .heartbeatIdle (by decide), h .timeout (by decide)]

theorem readResponse_of_sameKnown (h : SameKnown L responseTop responseFields root root') :
    readResponse L root = readResponse L root' := by
  rw [readResponse, readResponse, readOk_of_find? (h.top .ok (by decide))]
  refine bind_congr fun _ => readData_bind_of_sameKnown h fun data data' hsame => ?_
  rw [readString_of_find? _ (hsame .serverVersion (by decide)), readTime_of_sameFields hsame,
    readParameters_of_sameFields hsame, readCapabilities_of_find? (hsame .capabilities (by decide))]

end

/-! ## The decoder -/

section
variable {QString : Type} [DecidableEq QString]

/-- **The client's decoder decides the grammar.**  Every text gets the answer
of the first row of the table that applies to it.  What is returned are the
numbers and strings of the tree, every conversion of a number is in range and
exact, and members outside the grammar have no influence. -/
theorem decodeHelloResponse_verdict (qt : Qt QString) (json : Bytes) (out : RequestId) :
    Verdict qt.leaves qt.fromJson json (ResponseData qt.leaves) (decodeHelloResponse qt json out).1 ∧
    (∀ response, (decodeHelloResponse qt json out).1 = .ok response ↔
      json.length ≤ 65536 ∧ ∃ root, qt.fromJson json = some (.obj root) ∧
        HasUuid qt.leaves root ∧ ResponseData qt.leaves root response) ∧
    (Fails kInvalidJson (decodeHelloResponse qt json out).1 ↔
      json.length ≤ 65536 ∧ qt.fromJson json = none) ∧
    (Fails kInvalidRequestId (decodeHelloResponse qt json out).1 ↔
      json.length ≤ 65536 ∧ ∃ root, qt.fromJson json = some (.obj root) ∧ ¬ HasUuid qt.leaves root) ∧
    (∀ root, (∃ response, ResponseData qt.leaves root response) ↔
      find? (qt.leaves.key .ok) root = some (.bool true) ∧
      ∃ data, find? (qt.leaves.key .data) root = some (.obj data) ∧
        (∃ v, StringField qt.leaves .serverVersion 32 data v) ∧
        (∃ n, WholeField qt.leaves .serverTime 9007199254740991 data n) ∧
        (∀ k ∈ [Field.maxJson, .maxText, .heartbeatIdle, .timeout],
          ∃ n, WholeField qt.leaves k 4294967295 data n) ∧
        ∃ items, find? (qt.leaves.key .capabilities) data = some (.arr items) ∧ items.length ≤ 16 ∧
          ∀ item ∈ items, ∃ s, item = .str s ∧ 1 ≤ (qt.toStdString s).length ∧
            (qt.toStdString s).length ≤ 64) ∧
    (∀ data t, readTime qt.leaves data = .ok t ↔
      WholeField qt.leaves .serverTime 9007199254740991 data t.toInt) ∧
    (∀ k data v, readUint32 qt.leaves k data = some v ↔
      WholeField qt.leaves k 4294967295 data v.toNat) ∧
    ∀ (json' : Bytes) (root root' : List (QString × Json QString Rat)),
      json.length ≤ 65536 → json'.length ≤ 65536 → qt.fromJson json = some (.obj root) →
      qt.fromJson json' = some (.obj root') →
      SameKnown qt.leaves responseTop responseFields root root' →
      decodeHelloResponse qt json' out = decodeHelloResponse qt json out := by
  have hverdict : Verdict qt.leaves qt.fromJson json (ResponseData qt.leaves)
      (decodeHelloResponse qt json out).1 :=
    decodeInto_verdict (fun _ _ => readResponse_iff) (readResponse_failsWith qt.leaves) _ out
  refine ⟨hverdict, fun response => hverdict.eq_ok_iff, hverdict.invalidJson_iff,
    hverdict.invalidRequestId_iff, fun root => exists_responseData_iff, fun data t => readTime_iff,
    fun k data v => readUint32_iff, ?_⟩
  intro json' root root' hlen hlen' hparse hparse' hsame
  exact decodeInto_of_sameFields hlen hlen' hparse hparse' (hsame.top .requestId (by decide))
    (readResponse_of_sameKnown hsame)

end

end ChatHub.Hello
