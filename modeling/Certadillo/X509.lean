/-
What the code reads of certificates, requests and keys. Parsing and encoding are the `cryptography` package's and enter
through `Env`; here are the parsed values.
-/
import Certadillo.Py

namespace Certadillo

/-! ## Keys -/

inductive KeyAlg where
  | rsa (keySize : ℕ)
  | ec (curve : String) (keySize : ℕ)
  | ed25519
  | unknown
deriving DecidableEq, Repr

/-- a public key: its algorithm and its DER SubjectPublicKeyInfo -/
structure PublicKey where
  alg : KeyAlg
  spki : String
deriving DecidableEq, Repr

/-- Return (key_type, bits, curve_or_blank). -/
def describeKey (pub : PublicKey) : String × ℕ × String :=
  match pub.alg with
  | .rsa keySize => ("rsa", keySize, "")
  | .ec curve keySize => ("ec", keySize, curve)
  | .ed25519 => ("ed25519", 256, "ed25519")
  | .unknown => ("unknown", 0, "")

/-- `describe_cert_key`: a key the library cannot parse is inventoried as unknown -/
def describeCertKey : Option PublicKey → String × ℕ × String
  | some pub => describeKey pub
  | none => ("unknown", 0, "")

/-! ## Names -/

/-- a subjectAltName, by type; a UPN otherName's value is absent when it is not a UTF8String -/
structure San where
  dns : List String
  uris : List String
  emails : List String
  ips : List String
  upns : List (Option String)
deriving DecidableEq, Repr

def San.none : San := ⟨[], [], [], [], []⟩

/-! ## Requests -/

/-- a PKCS#10 request or a CMP template: the parts of the CSR interface the engine and the CA use. The key is the
exception's text when it cannot be parsed; the signature's validity is absent when checking it raises. -/
structure Csr where
  publicKey : Except String PublicKey
  isSignatureValid : Option Bool
  commonNames : List String
  san : Option San
deriving DecidableEq

/-- `TemplateRequest`: the front end must have verified proof of possession before building one -/
def Csr.template (commonNames : List String) (publicKey : PublicKey) (san : Option San) : Csr :=
  ⟨.ok publicKey, some true, commonNames, san⟩

/-! ## Certificates -/

/-- what `sign_x509` signs -/
structure Tbs where
  serialNumber : ℕ
  issuer : String
  organization : Option String
  commonName : Option String
  publicKey : Option PublicKey
  notBefore : ℤ
  notAfter : ℤ
  ca : Bool
  pathLength : Option ℕ
  keyUsage : List String
  ekus : List String
  san : Option San
  /-- the account SID of the szOID_NTDS_CA_SECURITY_EXT extension -/
  sid : Option String
  permitted : List String
  excluded : List String
deriving DecidableEq, Repr

/-- what signing adds: the encoded certificate, its SHA-256 in hex, and the signature algorithm with its hash -/
structure Signed where
  pem : String
  fingerprint : String
  sigOid : String
  sigHash : Option String
deriving DecidableEq, Repr

structure X509Cert where
  tbs : Tbs
  signed : Signed
  /-- it embeds Certificate Transparency timestamps, as publicly trusted certificates do -/
  scts : Bool
deriving DecidableEq, Repr

def X509Cert.pem (c : X509Cert) : String := c.signed.pem

def X509Cert.fingerprint (c : X509Cert) : String := c.signed.fingerprint

/-- the SAN values as strings, by type -/
def San.strings (s : San) : List String := s.dns ++ s.uris ++ s.emails ++ s.ips ++ s.upns.map (·.getD "")

end Certadillo
