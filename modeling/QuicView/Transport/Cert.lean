import Mathlib.Data.Nat.Notation

namespace QuicView

/-- The crypto library. -/
structure Ring where
  sha256 : List UInt8 → Vector UInt8 32

structure CertFingerprint where
  bytes : Vector UInt8 32
  deriving DecidableEq, Repr

namespace CertFingerprint

def fromDer (ring : Ring) (der : List UInt8) : CertFingerprint := ⟨ring.sha256 der⟩

def hexByte (b : UInt8) : String := String.ofList ((Nat.toDigits 16 b.toNat).leftpad 2 '0')

def toHex (fingerprint : CertFingerprint) : String :=
  ":".intercalate (fingerprint.bytes.toList.map hexByte)

end CertFingerprint

structure SelfSignedCert where
  certDer : List UInt8

inductive ServerCertVerifier where
  | skipServerVerification
  | fingerprintVerifier (expected : CertFingerprint)

inductive RustlsError where
  | general (text : String)
  deriving DecidableEq, Repr

namespace SelfSignedCert

def fingerprint (ring : Ring) (cert : SelfSignedCert) : CertFingerprint :=
  .fromDer ring cert.certDer

def pinnedClientConfig (expectedFingerprint : CertFingerprint) : ServerCertVerifier :=
  .fingerprintVerifier expectedFingerprint

end SelfSignedCert

def ServerCertVerifier.verifyServerCert (ring : Ring) (verifier : ServerCertVerifier)
    (endEntity : List UInt8) (_intermediates : List (List UInt8)) (_serverName : String)
    (_ocspResponse : List UInt8) (_now : UInt64) : Except RustlsError Unit :=
  match verifier with
  | .skipServerVerification => .ok ()
  | .fingerprintVerifier expected =>
      let actual := CertFingerprint.fromDer ring endEntity
      if actual = expected then .ok ()
      else
        .error (.general
          s!"certificate fingerprint mismatch: expected {expected.toHex}, got {actual.toHex}")

end QuicView
