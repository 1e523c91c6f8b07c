/-
# `ChatHub.Pki.OpenSsl` — certificates, and what is called of OpenSSL

`dev_ca.cpp` makes and reads certificates with OpenSSL, which is not part of the
repository.  So the library is a parameter: an `OpenSsl` is a structure of the
calls the code makes, over the types of its keys and signatures and a hidden
state.  The certificate itself is a record; a setter of the library is a call
that may fail (`OpenSsl.call`) and the update of a field.

What the code relies on is `OpenSsl.Lawful`, the documented behaviour of the
calls.  It says what a call has done if it succeeds, and never that one does.
It asks nothing of cryptography but that a signature verifies under the key of
its signer, and it leaves open what the calls do with certificates that the code
never makes.  Reading is a function of what is read: the memory it needs is taken
to be there.
-/
import Mathlib.Algebra.Ring.Int.Defs
import ChatHub.Lib.Attempt
import ChatHub.Lib.Hex
import ChatHub.Pki.DevCa

namespace ChatHub.Pki

open Contracts Attempts Decimal

/-! ## Certificates -/

/-- An object identifier, by its arcs. -/
abbrev Oid := List Nat

def oidServerAuth : Oid := [1, 3, 6, 1, 5, 5, 7, 3, 1]
def oidEcdsaWithSha256 : Oid := [1, 2, 840, 10045, 4, 3, 2]

def kX509Version3 : Nat := 2

/-- The extensions that the code writes or looks for. -/
inductive Nid where
  | basicConstraints
  | keyUsage
  | extKeyUsage
  | subjectAltName
  | subjectKeyIdentifier
  | authorityKeyIdentifier
  deriving DecidableEq

deriving instance DecidableEq for GeneralName

/-- An extension with its contents; `bits` are the positions of the bits that are
set.  One whose contents cannot be decoded is `malformed`. -/
inductive Extension where
  | basicConstraints (critical ca : Bool)
  | keyUsage (critical : Bool) (bits : List Nat)
  | extKeyUsage (critical : Bool) (purposes : List Oid)
  | subjectAltName (critical : Bool) (names : List GeneralName)
  | subjectKeyIdentifier (critical : Bool) (id : Bytes)
  | authorityKeyIdentifier (critical : Bool) (keyid : Bytes)
  | malformed (nid : Nid)
  | other (oid : Oid)
  deriving DecidableEq

def Extension.nid : Extension → Option Nid
  | .basicConstraints .. => some .basicConstraints
  | .keyUsage .. => some .keyUsage
  | .extKeyUsage .. => some .extKeyUsage
  | .subjectAltName .. => some .subjectAltName
  | .subjectKeyIdentifier .. => some .subjectKeyIdentifier
  | .authorityKeyIdentifier .. => some .authorityKeyIdentifier
  | .malformed nid => some nid
  | .other _ => none

/-- One of the kinds above, with contents that can be decoded. -/
def Extension.known : Extension → Bool
  | .malformed _ => false
  | .other _ => false
  | _ => true

variable {σ Key Pub Sig : Type}

/-- What a signature is made over.  A time is an `ASN1_TIME`, by its characters;
a name is a list of attributes. -/
structure TbsCertificate (Pub : Type) where
  version : Nat := 0
  serialNumber : Int := 0
  notBefore : Option Bytes := none
  notAfter : Option Bytes := none
  subject : List (Bytes × Bytes) := []
  issuer : List (Bytes × Bytes) := []
  publicKey : Option Pub := none
  extensions : List Extension := []
  deriving DecidableEq

/-- A certificate: `X509_new` makes one with no signature. -/
structure X509 (Pub Sig : Type) extends TbsCertificate Pub where
  signature : Option (Oid × Sig) := none
  deriving DecidableEq

/-- A certificate of version 3 with known extensions, none of them twice. -/
structure X509.Plain (cert : X509 Pub Sig) : Prop where
  version : cert.version = kX509Version3
  known : ∀ e ∈ cert.extensions, e.known = true
  once : (cert.extensions.map Extension.nid).Nodup

/-- `std::tm`, as far as `ASN1_TIME_to_tm` sets it. -/
structure Tm where
  sec : Int
  min : Int
  hour : Int
  mday : Int
  mon : Int
  year : Int
  deriving DecidableEq

/-! ## The calls -/

/-- The calls of OpenSSL that the code makes, and `timegm`. -/
structure OpenSsl (σ Key Pub Sig : Type) where
  /-- An allocation, or a setter. -/
  call : Attempt σ Unit
  /-- `EVP_EC_gen`. -/
  ecGen : Bytes → Attempt σ Key
  /-- `BN_rand`, with the highest bit set and any lowest bit. -/
  bnRand : Nat → Attempt σ Int
  /-- The time that `X509_gmtime_adj` sets. -/
  gmtimeAdj : Int → Attempt σ Bytes
  /-- `X509V3_EXT_conf_nid`, for an issuer and a subject. -/
  confNid : X509 Pub Sig → X509 Pub Sig → Nid → Bytes → Attempt σ Extension
  /-- `X509_sign` with SHA-256: the algorithm and the signature. -/
  sign : Key → TbsCertificate Pub → Attempt σ (Oid × Sig)
  /-- `X509_digest` with SHA-256. -/
  digest : X509 Pub Sig → Attempt σ Bytes
  /-- `PEM_write_bio_X509` into memory. -/
  writeX509 : X509 Pub Sig → Attempt σ Bytes
  /-- `PEM_write_bio_PrivateKey` into memory, not encrypted. -/
  writePrivateKey : Key → Attempt σ Bytes
  /-- `PEM_read_bio_X509`. -/
  readX509 : Bytes → Option (X509 Pub Sig)
  /-- `PEM_read_bio_PrivateKey`. -/
  readPrivateKey : Bytes → Option Key
  /-- The public half of a key. -/
  publicOf : Key → Pub
  /-- `X509_verify` is 1. -/
  verify : X509 Pub Sig → Pub → Bool
  /-- `X509_check_private_key` is 1. -/
  checkPrivateKey : X509 Pub Sig → Key → Bool
  /-- `X509_check_ca`. -/
  checkCa : X509 Pub Sig → Nat
  /-- `X509_get_ext_d2i`. -/
  getExtD2i : X509 Pub Sig → Nid → Option Extension
  /-- `ASN1_BIT_STRING_get_bit` is 1. -/
  getBit : List Nat → Nat → Bool
  /-- `OBJ_obj2nid` is `NID_server_auth`. -/
  isServerAuth : Oid → Bool
  /-- `OBJ_obj2txt` in numbers, for the length of a buffer: what is returned, and
  the buffer. -/
  obj2txt : Nat → Oid → Int × Bytes
  /-- `BN_num_bits`. -/
  bnNumBits : Int → Nat
  /-- `BN_bn2hex`. -/
  bn2hex : Int → Option Bytes
  /-- `ASN1_TIME_to_tm`. -/
  timeToTm : Bytes → Option Tm
  timegm : Tm → Int
  /-- `EVP_PKEY_base_id` is `EVP_PKEY_EC`. -/
  isEc : Pub → Bool
  /-- `EVP_PKEY_bits`. -/
  bits : Pub → Nat
  /-- `EVP_PKEY_get_group_name`, into 64 bytes. -/
  groupName : Pub → Option Bytes

/-- The texts for fixed extensions that the code writes, and what they mean. -/
def confTable : List (Nid × Bytes × Extension) := [
  (.basicConstraints, ascii "critical,CA:TRUE", .basicConstraints true true),
  (.basicConstraints, ascii "critical,CA:FALSE", .basicConstraints true false),
  (.keyUsage, ascii "critical,keyCertSign,cRLSign", .keyUsage true [5, 6]),
  (.keyUsage, ascii "critical,digitalSignature", .keyUsage true [0]),
  (.extKeyUsage, ascii "serverAuth", .extKeyUsage false [oidServerAuth])]

/-- The arcs in decimal, with dots between them. -/
def dotted (oid : Oid) : Bytes := [chr '.'].intercalate (oid.map print)

/-- A digit of `BN_bn2hex`. -/
def upperHexChar (n : Nat) : UInt8 := (ascii "0123456789ABCDEF").getD n 0

/-- A public key on P-256. -/
structure OpenSsl.IsP256 (ssl : OpenSsl σ Key Pub Sig) (pub : Pub) : Prop where
  isEc : ssl.isEc pub = true
  bits : ssl.bits pub = 256
  groupName : ssl.groupName pub = some (ascii "prime256v1") ∨
    ssl.groupName pub = some (ascii "P-256")

/-- The time `text` is `t` seconds after the epoch. -/
def OpenSsl.ReadsAs (ssl : OpenSsl σ Key Pub Sig) (text : Bytes) (t : Int) : Prop :=
  ∃ tm, ssl.timeToTm text = some tm ∧ ssl.timegm tm = t

/-- The documented behaviour of the calls.  `now` is the clock, which does not go
back, and `sha256` the digest of a certificate. -/
structure OpenSsl.Lawful (ssl : OpenSsl σ Key Pub Sig) (now : σ → Int)
    (sha256 : X509 Pub Sig → Bytes) : Prop where
  forward_call : Forward now ssl.call
  forward_ecGen : ∀ curve, Forward now (ssl.ecGen curve)
  forward_bnRand : ∀ n, Forward now (ssl.bnRand n)
  forward_gmtimeAdj : ∀ adj, Forward now (ssl.gmtimeAdj adj)
  forward_confNid : ∀ issuer subject nid value, Forward now (ssl.confNid issuer subject nid value)
  forward_sign : ∀ key tbs, Forward now (ssl.sign key tbs)
  forward_digest : ∀ c, Forward now (ssl.digest c)
  forward_writeX509 : ∀ c, Forward now (ssl.writeX509 c)
  forward_writePrivateKey : ∀ key, Forward now (ssl.writePrivateKey key)
  ecGen : ∀ {s key s'}, Returns (ssl.ecGen (ascii "P-256")) s key s' →
    ssl.IsP256 (ssl.publicOf key)
  bnRand : ∀ {n s v s'}, Returns (ssl.bnRand (n + 1)) s v s' → 2 ^ n ≤ v ∧ v < 2 ^ (n + 1)
  gmtimeAdj : ∀ {adj s text s'}, Returns (ssl.gmtimeAdj adj) s text s' →
    ∃ t, ssl.ReadsAs text t ∧ now s + adj ≤ t ∧ t ≤ now s' + adj
  confNid : ∀ {issuer subject nid value e s e' s'}, (nid, value, e) ∈ confTable →
    Returns (ssl.confNid issuer subject nid value) s e' s' → e' = e
  confNid_ip : ∀ {issuer subject a b c d s e s'},
    Returns (ssl.confNid issuer subject .subjectAltName (ascii "IP:" ++ dottedQuad a b c d)) s e s' →
    e = .subjectAltName false [.ipAdd [a, b, c, d]]
  confNid_hash : ∀ {issuer subject s e s'},
    Returns (ssl.confNid issuer subject .subjectKeyIdentifier (ascii "hash")) s e s' →
    ∃ id, e = .subjectKeyIdentifier false id
  confNid_keyid : ∀ {issuer subject s e s'},
    Returns (ssl.confNid issuer subject .authorityKeyIdentifier (ascii "keyid:always")) s e s' →
    ∃ critical id, .subjectKeyIdentifier critical id ∈ issuer.extensions ∧
      e = .authorityKeyIdentifier false id
  sign_verifies : ∀ {key} {tbs : TbsCertificate Pub} {s signature s'},
    Returns (ssl.sign key tbs) s signature s' →
    ssl.verify { tbs with signature := some signature } (ssl.publicOf key) = true
  sign_algorithm : ∀ {key tbs s signature s'}, Returns (ssl.sign key tbs) s signature s' →
    ssl.isEc (ssl.publicOf key) = true → signature.1 = oidEcdsaWithSha256
  digest : ∀ {c s md s'}, Returns (ssl.digest c) s md s' → md = sha256 c
  sha256_length : ∀ c, (sha256 c).length = 32
  /-- What was written is read back; a memory buffer holds less than `INT_MAX`. -/
  writeX509 : ∀ {c text}, MayReturn (ssl.writeX509 c) text →
    ssl.readX509 text = some c ∧ text.length ≤ kIntMax
  writePrivateKey : ∀ {key text}, MayReturn (ssl.writePrivateKey key) text →
    ssl.readPrivateKey text = some key ∧ text.length ≤ kIntMax
  checkPrivateKey : ∀ {cert : X509 Pub Sig} {pub key}, cert.publicKey = some pub →
    (ssl.checkPrivateKey cert key = true ↔ pub = ssl.publicOf key)
  /-- A plain certificate with basic constraints is an authority if they say so
  and its key usage, if there is one, allows it to sign certificates. -/
  checkCa : ∀ {text} {cert : X509 Pub Sig} {critical ca}, ssl.readX509 text = some cert →
    cert.Plain → .basicConstraints critical ca ∈ cert.extensions →
    (ssl.checkCa cert = 1 ↔ ca = true ∧
      ∀ critical bits, .keyUsage critical bits ∈ cert.extensions → 5 ∈ bits)
  /-- The one extension of its kind. -/
  getExtD2i_one : ∀ {cert : X509 Pub Sig} {nid e},
    cert.extensions.filter (fun e => decide (e.nid = some nid)) = [e] → e.known = true →
    ssl.getExtD2i cert nid = some e
  getExtD2i_none : ∀ {cert : X509 Pub Sig} {nid},
    cert.extensions.filter (fun e => decide (e.nid = some nid)) = [] → ssl.getExtD2i cert nid = none
  getBit : ∀ {bits n}, ssl.getBit bits n = true ↔ n ∈ bits
  isServerAuth : ∀ {oid}, ssl.isServerAuth oid = true ↔ oid = oidServerAuth
  /-- The length of the text, whole if there is room for it. -/
  obj2txt : ∀ {oid n}, (dotted oid).length < n →
    ssl.obj2txt n oid = (((dotted oid).length : Int), dotted oid)
  bnNumBits : ∀ {n : Int} {k}, 2 ^ k ≤ n → n < 2 ^ (k + 1) → ssl.bnNumBits n = k + 1
  bn2hex : ∀ {n : Int}, 0 < n → ∃ text, ssl.bn2hex n = some text ∧
    Hex.Says upperHexChar text n.natAbs

end ChatHub.Pki
