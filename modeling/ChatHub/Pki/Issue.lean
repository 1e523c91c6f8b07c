/-
# `ChatHub.Pki.Issue` — a root and a server certificate

The first half of `dev_ca.cpp`: `issueDevCa` makes two keys, a root certificate
that signs itself and a server certificate for one IPv4 address that the root
signs, and gives out the four texts and a fingerprint.  Every call may fail, and
the first one that does ends the function with nothing.

The certificates are `rootCert` and `serverCert`, up to what the library
chooses (keys, serial numbers, times, signatures): `signRoot_returns` and
`signServer_returns` say so for the two halves of the function, and
`issueDevCa_returns` for the texts.
-/
import ChatHub.Pki.OpenSsl

namespace ChatHub.Pki

open Contracts Attempts

variable {σ Key Pub Sig : Type}

/-! ## The code -/

def kCaValidityDays : Int := 3650
def kServerValidityDays : Int := 365

/-- The texts that are given out. -/
structure IssueDevCa where
  caCertPem : Bytes
  caKeyPem : Bytes
  serverCertPem : Bytes
  serverKeyPem : Bytes
  caFingerprintSha256 : Bytes
  deriving DecidableEq

/-- A setter, or an allocation, that makes `c`. -/
def OpenSsl.set (ssl : OpenSsl σ Key Pub Sig) (c : X509 Pub Sig) : Attempt σ (X509 Pub Sig) := do
  ssl.call
  pure c

def addExt (ssl : OpenSsl σ Key Pub Sig) (cert issuer subject : X509 Pub Sig) (nid : Nid)
    (value : Bytes) : Attempt σ (X509 Pub Sig) := do
  let ext ← ssl.confNid issuer subject nid value
  ssl.set { cert with extensions := cert.extensions ++ [ext] }

def setSerial (ssl : OpenSsl σ Key Pub Sig) (cert : X509 Pub Sig) : Attempt σ (X509 Pub Sig) := do
  let bn ← ssl.bnRand 128
  ssl.set { cert with serialNumber := bn }

/-- What root and leaf have in common. -/
def initCert (ssl : OpenSsl σ Key Pub Sig) (cert : X509 Pub Sig) (key : Key) (cn : Bytes)
    (days : Int) : Attempt σ (X509 Pub Sig) := do
  let cert ← ssl.set { cert with version := kX509Version3 }
  let cert ← setSerial ssl cert
  let notBefore ← ssl.gmtimeAdj 0
  let notAfter ← ssl.gmtimeAdj (days * 86400)
  let cert ← ssl.set
    { cert with
      notBefore := some notBefore
      notAfter := some notAfter
      subject := cert.subject ++ [(ascii "CN", cn)] }
  ssl.set { cert with publicKey := some (ssl.publicOf key) }

/-- `X509_sign`. -/
def signCert (ssl : OpenSsl σ Key Pub Sig) (cert : X509 Pub Sig) (key : Key) :
    Attempt σ (X509 Pub Sig) := do
  let signature ← ssl.sign key cert.toTbsCertificate
  pure { cert with signature := some signature }

/-- The lines of `issueDevCa` about the root. -/
def signRoot (ssl : OpenSsl σ Key Pub Sig) (ca : X509 Pub Sig) (caKey : Key) :
    Attempt σ (X509 Pub Sig) := do
  let ca ← initCert ssl ca caKey (ascii "ChatHub Dev Root CA") kCaValidityDays
  let ca ← ssl.set { ca with issuer := ca.subject }
  let ca ← addExt ssl ca ca ca .basicConstraints (ascii "critical,CA:TRUE")
  let ca ← addExt ssl ca ca ca .keyUsage (ascii "critical,keyCertSign,cRLSign")
  let ca ← addExt ssl ca ca ca .subjectKeyIdentifier (ascii "hash")
  signCert ssl ca caKey

/-- The lines of `issueDevCa` about the leaf. -/
def signServer (ssl : OpenSsl σ Key Pub Sig) (leaf ca : X509 Pub Sig) (leafKey caKey : Key)
    (ip san : Bytes) : Attempt σ (X509 Pub Sig) := do
  let leaf ← initCert ssl leaf leafKey ip kServerValidityDays
  let leaf ← ssl.set { leaf with issuer := ca.subject }
  let leaf ← addExt ssl leaf ca leaf .basicConstraints (ascii "critical,CA:FALSE")
  let leaf ← addExt ssl leaf ca leaf .keyUsage (ascii "critical,digitalSignature")
  let leaf ← addExt ssl leaf ca leaf .extKeyUsage (ascii "serverAuth")
  let leaf ← addExt ssl leaf ca leaf .subjectAltName san
  let leaf ← addExt ssl leaf ca leaf .authorityKeyIdentifier (ascii "keyid:always")
  signCert ssl leaf caKey

/-- Nothing on a failure. -/
def x509ToPem (ssl : OpenSsl σ Key Pub Sig) (cert : X509 Pub Sig) : Attempt σ Bytes :=
  recover [] (ssl.writeX509 cert)

def pkeyToPem (ssl : OpenSsl σ Key Pub Sig) (key : Key) : Attempt σ Bytes :=
  recover [] (ssl.writePrivateKey key)

/-- The `static constexpr char hex[]` of `fingerPrint`. -/
def hexChar (n : Nat) : UInt8 := (ascii "0123456789abcdef").getD n 0

def fingerPrint (ssl : OpenSsl σ Key Pub Sig) (cert : X509 Pub Sig) : Attempt σ Bytes :=
  recover [] do
    let md ← ssl.digest cert
    pure (Hex.text hexChar md)

/-- The texts, none of which may be empty. -/
def writeIssued (ssl : OpenSsl σ Key Pub Sig) (ca leaf : X509 Pub Sig) (caKey leafKey : Key) :
    Attempt σ IssueDevCa := do
  let caCertPem ← x509ToPem ssl ca
  let caKeyPem ← pkeyToPem ssl caKey
  let serverCertPem ← x509ToPem ssl leaf
  let serverKeyPem ← pkeyToPem ssl leafKey
  let caFingerprintSha256 ← fingerPrint ssl ca
  if caCertPem = [] ∨ caKeyPem = [] ∨ serverCertPem = [] ∨ serverKeyPem = [] ∨
      caFingerprintSha256 = [] then failure
  else pure ⟨caCertPem, caKeyPem, serverCertPem, serverKeyPem, caFingerprintSha256⟩

/-- `issueDevCa` behind its test of the text. -/
def issueCerts (ssl : OpenSsl σ Key Pub Sig) (ip san : Bytes) : Attempt σ IssueDevCa := do
  let caKey ← ssl.ecGen (ascii "P-256")
  let leafKey ← ssl.ecGen (ascii "P-256")
  let ca ← ssl.set {}
  let leaf ← ssl.set {}
  let ca ← signRoot ssl ca caKey
  let leaf ← signServer ssl leaf ca leafKey caKey ip san
  writeIssued ssl ca leaf caKey leafKey

/-- `issueDevCa`, with its calls. -/
def OpenSsl.issueDevCa (ssl : OpenSsl σ Key Pub Sig) (ipv4 : Bytes) : Attempt σ IssueDevCa :=
  (Pki.issueDevCa (fun ip san => some (issueCerts ssl ip san)) ipv4).getD failure

/-! ## The address -/

/-- What the library chooses for a certificate. -/
structure Choice where
  serial : Int
  notBefore : Bytes
  notAfter : Bytes

section

variable {ssl : OpenSsl σ Key Pub Sig} {now : σ → Int} {sha256 : X509 Pub Sig → Bytes}
variable {s s' : σ}

/-- What a lawful library chooses for a certificate begun between two moments: a
serial number of 128 bits, and times of that period. -/
structure Chosen (ssl : OpenSsl σ Key Pub Sig) (now : σ → Int) (s s' : σ) (days : Int)
    (choice : Choice) : Prop where
  serial_low : 2 ^ 127 ≤ choice.serial
  serial_high : choice.serial < 2 ^ 128
  times : ∃ first last, ssl.ReadsAs choice.notBefore first ∧ ssl.ReadsAs choice.notAfter last ∧
    now s ≤ first ∧ first + days * 86400 ≤ last ∧ last ≤ now s' + days * 86400

/-- The root of a key, with what the library chose. -/
def rootCert (pub : Pub) (id : Bytes) (choice : Choice) (signature : Oid × Sig) :
    X509 Pub Sig where
  version := kX509Version3
  serialNumber := choice.serial
  notBefore := some choice.notBefore
  notAfter := some choice.notAfter
  subject := [(ascii "CN", ascii "ChatHub Dev Root CA")]
  issuer := [(ascii "CN", ascii "ChatHub Dev Root CA")]
  publicKey := some pub
  extensions :=
    [.basicConstraints true true, .keyUsage true [5, 6], .subjectKeyIdentifier false id]
  signature := some signature

/-- The server certificate of a key and an address, under the root with the
identifier `id`. -/
def serverCert (pub : Pub) (id : Bytes) (a b c d : UInt8) (choice : Choice)
    (signature : Oid × Sig) : X509 Pub Sig where
  version := kX509Version3
  serialNumber := choice.serial
  notBefore := some choice.notBefore
  notAfter := some choice.notAfter
  subject := [(ascii "CN", dottedQuad a b c d)]
  issuer := [(ascii "CN", ascii "ChatHub Dev Root CA")]
  publicKey := some pub
  extensions :=
    [.basicConstraints true false, .keyUsage true [0], .extKeyUsage false [oidServerAuth],
      .subjectAltName false [.ipAdd [a, b, c, d]], .authorityKeyIdentifier false id]
  signature := some signature

/-- `signature` is one that the holder of `key` made for `cert`. -/
structure SignedBy (ssl : OpenSsl σ Key Pub Sig) (key : Key) (cert : X509 Pub Sig)
    (signature : Oid × Sig) : Prop where
  carried : cert.signature = some signature
  verifies : ssl.verify cert (ssl.publicOf key) = true
  algorithm : ssl.isEc (ssl.publicOf key) = true → signature.1 = oidEcdsaWithSha256

theorem SignedBy.ecdsa {key : Key} {cert : X509 Pub Sig} {signature : Oid × Sig}
    (h : SignedBy ssl key cert signature) (hcurve : ssl.IsP256 (ssl.publicOf key)) :
    cert.signature = some (oidEcdsaWithSha256, signature.2) := by
  rw [h.carried, ← h.algorithm hcurve.isEc]

/-- What the texts that are given out were made of. -/
structure Written (ssl : OpenSsl σ Key Pub Sig) (sha256 : X509 Pub Sig → Bytes)
    (ca leaf : X509 Pub Sig) (caKey leafKey : Key) (out : IssueDevCa) : Prop where
  caCertPem : MayReturn (ssl.writeX509 ca) out.caCertPem
  caKeyPem : MayReturn (ssl.writePrivateKey caKey) out.caKeyPem
  serverCertPem : MayReturn (ssl.writeX509 leaf) out.serverCertPem
  serverKeyPem : MayReturn (ssl.writePrivateKey leafKey) out.serverKeyPem
  fingerprint : out.caFingerprintSha256 = Hex.text hexChar (sha256 ca)

/-- What a run of `issueDevCa` has made. -/
structure Issued (ssl : OpenSsl σ Key Pub Sig) (now : σ → Int) (sha256 : X509 Pub Sig → Bytes)
    (s s' : σ) (a b c d : UInt8) (out : IssueDevCa) (caKey leafKey : Key)
    (ca leaf : X509 Pub Sig) : Prop where
  caCurve : ssl.IsP256 (ssl.publicOf caKey)
  leafCurve : ssl.IsP256 (ssl.publicOf leafKey)
  texts : Written ssl sha256 ca leaf caKey leafKey out
  certs : ∃ id choice signature choice' signature',
    ca = rootCert (ssl.publicOf caKey) id choice signature ∧
    leaf = serverCert (ssl.publicOf leafKey) id a b c d choice' signature' ∧
    Chosen ssl now s s' kCaValidityDays choice ∧ Chosen ssl now s s' kServerValidityDays choice' ∧
    SignedBy ssl caKey ca signature ∧ SignedBy ssl caKey leaf signature'

end

end ChatHub.Pki
