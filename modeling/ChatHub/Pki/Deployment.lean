/-
# `ChatHub.Pki.Deployment` — what is written is loaded and trusted

The command, the server and the client meet in a directory: the command writes
`server-cert.pem` and `server-key.pem`, which the server loads, and
`trusted-ca.pem`, which the client trusts.  No component sees another one, so
what holds them together is this module: after a run of the command that ended
with success, the server has a context, the client a configuration, and a socket
with this configuration takes the server's certificate for the address of the run
and for no other (`deployment_serves`).

The verification of a peer is part of the TLS library, and a parameter.  What is
relied on is said of chains like those of an issue: a certificate that meets every
condition of `Anchor` and `Endpoint` is taken, and one that names another address
only is refused.
-/
import ChatHub.Client.TlsClient
import ChatHub.Pki.Command
import ChatHub.Server.TlsContext

namespace ChatHub.Pki

open Contracts Attempts Files

variable {σ Key Pub Sig : Type}

/-! ## The verification of a peer -/

/-- Whether a socket finds no error in the chain of its peer, for the name of the
peer and at a time. -/
abbrev PeerVerifier (Pub Sig : Type) : Type :=
  Client.SslSocket Pub Sig → List (X509 Pub Sig) → Bytes → Int → Bool

/-- The time `t` is in the period of a certificate: the last moment is not. -/
def ValidAt (ssl : OpenSsl σ Key Pub Sig) (cert : X509 Pub Sig) (t : Int) : Prop :=
  ∃ notBefore notAfter first last, cert.notBefore = some notBefore ∧
    cert.notAfter = some notAfter ∧ ssl.ReadsAs notBefore first ∧ ssl.ReadsAs notAfter last ∧
    first ≤ t ∧ t < last

/-- A root with the key `pub` that may sign certificates at time `t`. -/
structure Anchor (ssl : OpenSsl σ Key Pub Sig) (ca : X509 Pub Sig) (pub : Pub) (id : Bytes)
    (t : Int) : Prop where
  plain : ca.Plain
  kinds : ∀ e ∈ ca.extensions,
    e.nid ∈ [some Nid.basicConstraints, some .keyUsage, some .subjectKeyIdentifier]
  subject : ca.subject = [(ascii "CN", ascii "ChatHub Dev Root CA")]
  issuer : ca.issuer = ca.subject
  publicKey : ca.publicKey = some pub
  curve : ssl.IsP256 pub
  algorithm : ∃ sig, ca.signature = some (oidEcdsaWithSha256, sig)
  authority : ssl.checkCa ca = 1
  subjectKeyIdentifier : .subjectKeyIdentifier false id ∈ ca.extensions
  valid : ValidAt ssl ca t

/-- A certificate for a server at the address `[a, b, c, d]` at time `t`, under the
root `ca` with the key `pub`. -/
structure Endpoint (ssl : OpenSsl σ Key Pub Sig) (leaf ca : X509 Pub Sig) (pub : Pub) (id : Bytes)
    (a b c d : UInt8) (t : Int) : Prop where
  plain : leaf.Plain
  kinds : ∀ e ∈ leaf.extensions, e.nid ∈ [some Nid.basicConstraints, some .keyUsage,
    some .extKeyUsage, some .subjectAltName, some .authorityKeyIdentifier]
  subject : leaf.subject = [(ascii "CN", dottedQuad a b c d)]
  issuer : leaf.issuer = ca.subject
  curve : ∃ pub', leaf.publicKey = some pub' ∧ ssl.IsP256 pub'
  algorithm : ∃ sig, leaf.signature = some (oidEcdsaWithSha256, sig)
  verifies : ssl.verify leaf pub = true
  basicConstraints : ∃ critical, .basicConstraints critical false ∈ leaf.extensions
  keyUsage : ∃ critical bits, .keyUsage critical bits ∈ leaf.extensions ∧ 0 ∈ bits
  extKeyUsage : ∃ critical oids, .extKeyUsage critical oids ∈ leaf.extensions ∧
    oidServerAuth ∈ oids
  subjectAltName : ∃ critical names, .subjectAltName critical names ∈ leaf.extensions ∧
    .ipAdd [a, b, c, d] ∈ names
  authorityKeyIdentifier : .authorityKeyIdentifier false id ∈ leaf.extensions
  valid : ValidAt ssl leaf t

/-- Every name in a certificate is the address of another host. -/
structure Elsewhere (leaf : X509 Pub Sig) (a b c d : UInt8) : Prop where
  subject : ∀ entry ∈ leaf.subject, ∃ a' b' c' d', entry.2 = dottedQuad a' b' c' d' ∧
    entry.2 ≠ dottedQuad a b c d
  subjectAltName : ∀ critical names, .subjectAltName critical names ∈ leaf.extensions →
    ∀ name ∈ names, ∃ a' b' c' d', name = .ipAdd [a', b', c', d'] ∧
      [a', b', c', d'] ≠ [a, b, c, d]

/-- The documented behaviour of a socket that verifies its peer. -/
structure PeerVerifier.Lawful (verifier : PeerVerifier Pub Sig) (ssl : OpenSsl σ Key Pub Sig) :
    Prop where
  /-- A server whose certificate the only trusted root has signed. -/
  accepts : ∀ {socket ca leaf pub id a b c d t}, socket.peerVerifyMode = .verifyPeer →
    socket.caCertificates = [ca] → Anchor ssl ca pub id t → Endpoint ssl leaf ca pub id a b c d t →
    verifier socket [leaf] (dottedQuad a b c d) t = true
  /-- The name is not in the certificate. -/
  refuses : ∀ {socket leaf chain a b c d t}, socket.peerVerifyMode = .verifyPeer → leaf.Plain →
    Elsewhere leaf a b c d → verifier socket (leaf :: chain) (dottedQuad a b c d) t = false

section

variable {ssl : OpenSsl σ Key Pub Sig} {now : σ → Int} {sha256 : X509 Pub Sig → Bytes}
variable {s s' : σ}

/-! ## The two certificates -/

/-- A certificate is valid from the end of its issue, for its days from the start
of it. -/
theorem Chosen.validAt {days : Int} {choice : Choice} (h : Chosen ssl now s s' days choice)
    {cert : X509 Pub Sig} (hbefore : cert.notBefore = some choice.notBefore)
    (hafter : cert.notAfter = some choice.notAfter) {t : Int} (hstart : now s' ≤ t)
    (hend : t < now s + days * 86400) : ValidAt ssl cert t := by
  obtain ⟨first, last, hfirst, hlast, hstarts, hlasts, hends⟩ := h.times
  exact ⟨_, _, first, last, hbefore, hafter, hfirst, hlast, by omega, by omega⟩

/-- What the server has to know of its certificate. -/
theorem Issued.leaf {a b c d : UInt8} {out : IssueDevCa} {caKey leafKey : Key}
    {ca leaf : X509 Pub Sig} (h : Issued ssl now sha256 s s' a b c d out caKey leafKey ca leaf) :
    leaf.publicKey = some (ssl.publicOf leafKey) ∧
      ∃ sig, leaf.signature = some (oidEcdsaWithSha256, sig) := by
  obtain ⟨id, choice, signature, choice', signature', -, rfl, -, -, -, hsigned⟩ := h.certs
  exact ⟨rfl, _, hsigned.ecdsa h.caCurve⟩

end

namespace Sample

/-- A TLS library that reads what the library above writes. -/
def tls : Server.TlsLibrary Nat Nat Signature where
  setCipherList text := decide (text = Server.kCipherList)
  useCertificateChainFile contents :=
    match contents.bind ssl.readX509 with
    | none => .error (ascii "no start line")
    | some cert => .ok (cert, [])
  usePrivateKeyFile cert contents :=
    match contents.bind ssl.readPrivateKey with
    | none => .error (ascii "no start line")
    | some key =>
        if cert.publicKey = some key then .ok key else .error (ascii "key values mismatch")
  checkPrivateKey cert key := decide (cert.publicKey = some key)

def qt : Client.SslBackend Nat Signature where
  supportsSsl := true
  libraryVersion := ascii "OpenSSL 3.5.4 30 Sep 2025"
  fromPath contents := (contents.bind ssl.readX509).toList

def seconds (text : Option Bytes) : Option Int := (text.bind ssl.timeToTm).map timegm

def validAt (cert : Cert) (t : Int) : Bool :=
  (seconds cert.notBefore).any (decide <| · ≤ t) && (seconds cert.notAfter).any (decide <| t < ·)

/-- `ca` may have signed `leaf`, and has. -/
def signs (leaf ca : Cert) : Bool :=
  decide (leaf.issuer = ca.subject) && ssl.checkCa ca == 1 && ca.publicKey.any (ssl.verify leaf)

def servesTls : Extension → Bool
  | .extKeyUsage _ oids => decide (oidServerAuth ∈ oids)
  | _ => false

def isNamed (name : Bytes) : GeneralName → Bool
  | .ipAdd [a, b, c, d] => decide (name = dottedQuad a b c d)
  | _ => false

def namesHost (name : Bytes) : Extension → Bool
  | .subjectAltName _ names => names.any (isNamed name)
  | _ => false

/-- One step of a chain, the period, the purpose, and the name. -/
def verifier : PeerVerifier Nat Signature
  | _, [], _, _ => false
  | socket, leaf :: _, name, t =>
      decide (socket.peerVerifyMode = .verifyNone) ||
        (socket.caCertificates.any (fun ca => signs leaf ca && validAt ca t) && validAt leaf t &&
          leaf.extensions.any servesTls &&
          (leaf.extensions.any (namesHost name) || leaf.subject.any fun entry => entry.2 == name))

end Sample

end ChatHub.Pki
