/-
# `ChatHub.Server.TlsContext` — the server loads its certificate

`tls_context.cpp`: `TlsContext::load` sets the protocol options and the cipher
list, reads the certificate chain and the private key from their files, and
tests that they match.  A context is made by `load` only, so one whose key does
not match its certificate cannot be built: that is a field.

The TLS library is a parameter; it gives a message where it fails.  `load`
clears the caller's error text first, so its result says all about it.
-/
import ChatHub.Lib.Files
import ChatHub.Pki.OpenSsl

namespace ChatHub.Server

open Contracts Pki Attempts Files

variable {σ Key Pub Sig : Type}

/-- What `load` calls of the TLS library.  A file is given by its contents. -/
structure TlsLibrary (Key Pub Sig : Type) where
  /-- `SSL_CTX_set_cipher_list`. -/
  setCipherList : Bytes → Bool
  /-- `use_certificate_chain_file`: the certificate and the rest of its chain. -/
  useCertificateChainFile : Option Bytes → Except Bytes (X509 Pub Sig × List (X509 Pub Sig))
  /-- `use_private_key_file`, for the certificate that is set. -/
  usePrivateKeyFile : X509 Pub Sig → Option Bytes → Except Bytes Key
  /-- `SSL_CTX_check_private_key`. -/
  checkPrivateKey : X509 Pub Sig → Key → Bool

inductive SslOption where
  | defaultWorkarounds
  | noSslv2
  | noSslv3
  | noTlsv1
  | noTlsv1_1
  deriving DecidableEq

def kSslOptions : List SslOption :=
  [.defaultWorkarounds, .noSslv2, .noSslv3, .noTlsv1, .noTlsv1_1]

def kCipherList : Bytes := ascii "ECDHE+ECDSA+AESGCM:ECDHE+ECDSA+CHACHA20"

/-- A context with a certificate and its key. -/
structure TlsContext (tls : TlsLibrary Key Pub Sig) where
  options : List SslOption
  cipherList : Bytes
  certificate : X509 Pub Sig
  chain : List (X509 Pub Sig)
  privateKey : Key
  matched : tls.checkPrivateKey certificate privateKey = true

/-- `TlsContext::load`: the context, if any, and the error text. -/
def load (tls : TlsLibrary Key Pub Sig) (files : Store Bytes) (certChain privateKey : Bytes) :
    Option (TlsContext tls) × Bytes :=
  if tls.setCipherList kCipherList = false then
    (none, ascii "configure TLS 1.2 cipher list (ECDHE+AEAD) failed")
  else
    match tls.useCertificateChainFile (files certChain) with
    | .error message =>
        (none, ascii "load cert chain '" ++ (certChain ++ (ascii "': " ++ message)))
    | .ok (certificate, chain) =>
        match tls.usePrivateKeyFile certificate (files privateKey) with
        | .error message =>
            (none, ascii "load private key '" ++ (privateKey ++ (ascii "': " ++ message)))
        | .ok key =>
            if h : tls.checkPrivateKey certificate key = true then
              (some ⟨kSslOptions, kCipherList, certificate, chain, key, h⟩, [])
            else (none, ascii "private key does not match certificate")

/-- There is an error text exactly if there is no context. -/
theorem load_error_iff (tls : TlsLibrary Key Pub Sig) (files : Store Bytes)
    (certChain privateKey : Bytes) :
    (load tls files certChain privateKey).2 = [] ↔
      (load tls files certChain privateKey).1.isSome = true := by
  have hcipher : ascii "configure TLS 1.2 cipher list (ECDHE+AEAD) failed" ≠ [] := by decide
  have hchain : ascii "load cert chain '" ≠ [] := by decide
  have hkey : ascii "load private key '" ≠ [] := by decide
  have hmatch : ascii "private key does not match certificate" ≠ [] := by decide
  rw [load]
  split
  · exact iff_of_false hcipher Bool.false_ne_true
  · split
    · exact iff_of_false (List.append_ne_nil_of_left_ne_nil hchain _) Bool.false_ne_true
    · split
      · exact iff_of_false (List.append_ne_nil_of_left_ne_nil hkey _) Bool.false_ne_true
      · split
        · exact iff_of_true rfl rfl
        · exact iff_of_false hmatch Bool.false_ne_true

/-- The documented behaviour of the TLS library on what `ssl` writes for keys on
P-256 and certificates that such keys sign. -/
structure TlsLibrary.Lawful (tls : TlsLibrary Key Pub Sig) (ssl : OpenSsl σ Key Pub Sig) : Prop where
  /-- Some cipher of the list is there. -/
  setCipherList : tls.setCipherList kCipherList = true
  useCertificateChainFile : ∀ {cert text pub sig}, MayReturn (ssl.writeX509 cert) text →
    cert.publicKey = some pub → ssl.IsP256 pub → cert.signature = some (oidEcdsaWithSha256, sig) →
    tls.useCertificateChainFile (some text) = .ok (cert, [])
  usePrivateKeyFile : ∀ {cert key text}, MayReturn (ssl.writePrivateKey key) text →
    cert.publicKey = some (ssl.publicOf key) → ssl.IsP256 (ssl.publicOf key) →
    tls.usePrivateKeyFile cert (some text) = .ok key
  checkPrivateKey : ∀ {cert key}, cert.publicKey = some (ssl.publicOf key) →
    ssl.IsP256 (ssl.publicOf key) → tls.checkPrivateKey cert key = true

end ChatHub.Server
