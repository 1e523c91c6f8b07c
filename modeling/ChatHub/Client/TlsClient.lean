/-
# `ChatHub.Client.TlsClient` — whom the client trusts

`tls_client.cpp`: `TlsClientConfig::build` makes a configuration that trusts the
certificates of one file and verifies the peer.  It is made by `build` only, so
one that trusts nobody, or that does not verify, cannot be built: these are
fields.

The TLS backend of Qt is a parameter.  Texts are byte strings here, those of the
backend being ASCII.
-/
import Mathlib.Data.List.Infix
import ChatHub.Lib.Files
import ChatHub.Pki.OpenSsl

namespace ChatHub.Client

open Contracts Pki Attempts Files

variable {σ Key Pub Sig : Type}

/-- What is asked of the TLS backend. -/
structure SslBackend (Pub Sig : Type) where
  /-- `QSslSocket::supportsSsl`. -/
  supportsSsl : Bool
  /-- `QSslSocket::sslLibraryVersionString`. -/
  libraryVersion : Bytes
  /-- `QSslCertificate::fromPath`, the file being given by its contents. -/
  fromPath : Option Bytes → List (X509 Pub Sig)

inductive PeerVerifyMode where
  | verifyNone
  | queryPeer
  | verifyPeer
  | autoVerifyPeer
  deriving DecidableEq

structure TlsClientConfig (Pub Sig : Type) where
  caCertificates : List (X509 Pub Sig)
  peerVerifyMode : PeerVerifyMode
  trusts : caCertificates ≠ []
  verifies : peerVerifyMode = .verifyPeer

/-- `isBackendReady`: the error text, nothing if the backend is ready. -/
def isBackendReady (qt : SslBackend Pub Sig) : Option Bytes :=
  if qt.supportsSsl = false then some (ascii "no TLS backend available")
  else if ¬ascii "3.5" <:+: qt.libraryVersion then
    some (ascii "unexpected OpenSSL version: " ++ qt.libraryVersion)
  else none

/-- `TlsClientConfig::build`: the configuration, if any, and the error text. -/
def build (qt : SslBackend Pub Sig) (files : Store Bytes) (caFilePath : Bytes) :
    Option (TlsClientConfig Pub Sig) × Bytes :=
  match isBackendReady qt with
  | some error => (none, error)
  | none =>
      if h : qt.fromPath (files caFilePath) = [] then
        (none, ascii "no CA certificate loaded from: " ++ caFilePath)
      else (some ⟨qt.fromPath (files caFilePath), .verifyPeer, h, rfl⟩, [])

/-- What is set of a socket before it connects. -/
structure SslSocket (Pub Sig : Type) where
  caCertificates : List (X509 Pub Sig)
  peerVerifyMode : PeerVerifyMode

/-- There is an error text exactly if there is no configuration. -/
theorem build_error_iff (qt : SslBackend Pub Sig) (files : Store Bytes) (caFilePath : Bytes) :
    (build qt files caFilePath).2 = [] ↔ (build qt files caFilePath).1.isSome = true := by
  have hready : ∀ error, isBackendReady qt = some error → error ≠ [] := by
    intro error h
    rw [isBackendReady] at h
    split at h
    · cases h
      decide
    · split at h
      · cases h
        exact List.append_ne_nil_of_left_ne_nil (by decide) _
      · cases h
  rw [build]
  split
  · rename_i error herror
    exact iff_of_false (hready error herror) Bool.false_ne_true
  · split
    · exact iff_of_false (List.append_ne_nil_of_left_ne_nil (by decide) _) Bool.false_ne_true
    · exact iff_of_true rfl rfl

/-- The documented behaviour of the backend on what `ssl` writes: a file with one
certificate is read as this certificate. -/
structure SslBackend.Lawful (qt : SslBackend Pub Sig) (ssl : OpenSsl σ Key Pub Sig) : Prop where
  fromPath : ∀ {cert text}, MayReturn (ssl.writeX509 cert) text → qt.fromPath (some text) = [cert]

end ChatHub.Client
