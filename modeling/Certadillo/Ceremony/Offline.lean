/-
The offline root: its CRLs (`ca/offline.py`).

- `offlineRevoke`, `offlineCrl`: the ceremony side, a directory with a log of revocations and a counter.
- `importCrl`, `currentCrl`: the server side.
-/
import Certadillo.Services.Effects

namespace Certadillo.Ceremony

open Integrity Policy Py

/-! ## The certificate library -/

abbrev Bytes := List UInt8

/-- a CRL as it is read -/
structure SignedCrl where
  issuer : String
  number : Option ℤ
  lastUpdate : ℤ
  nextUpdate : Option ℤ
  entries : List CrlEntry
  signature : String
deriving DecidableEq

/-- names, CRLs and their signatures, as the library reads and checks them -/
structure CrlLib where
  subject : X509Cert → String
  loadPem : Bytes → Except String SignedCrl
  loadDer : Bytes → Except String SignedCrl
  isSignatureValid : SignedCrl → PublicKey → Bool
  isoformat : ℤ → String

/-- `b"-----BEGIN"` -/
def pemMarker : Bytes := [45, 45, 45, 45, 45, 66, 69, 71, 73, 78]

/-- the reader is chosen by the marker -/
def CrlLib.load (lib : CrlLib) (data : Bytes) : Except String SignedCrl :=
  if pemMarker <:+: data then lib.loadPem data else lib.loadDer data

/-! ## The server side -/

/-- `OFFLINE` -/
def offline : String := "offline"

/-- the CRL's number and its next update, if the CA takes it -/
def checkCrl (lib : CrlLib) (env : Env) (ca : CertificateAuthority) (caName : String) (data : Bytes) :
    Except Err (SignedCrl × ℤ × ℤ) := do
  if ca.signerType ≠ offline then throw (.value s!"{caName} signs its own CRLs; only offline CAs take an imported CRL")
  else
    let crl ← libCall (fun exc => .value s!"not a CRL: {exc}") (lib.load data)
    let cert ← CAService.loadPem env ca.certPem
    let unsigned := Err.value s!"the CRL is not signed by {caName}"
    if crl.issuer ≠ lib.subject cert then throw unsigned
    else
      match cert.tbs.publicKey with
      | none => throw (.value "unsupported public key")
      | some pub =>
        if !lib.isSignatureValid crl pub then throw unsigned
        else
          match crl.number with
          | none => throw (.value "the CRL has no CRL number")
          | some number =>
            let current := ca.crlNumber
            if number ≤ current then throw (.value s!"CRL number {number} is not newer than the current {current}")
            else
              match crl.nextUpdate with
              | none => throw (.value "the CRL is already past its nextUpdate")
              | some next =>
                if next ≤ env.now then throw (.value "the CRL is already past its nextUpdate")
                else pure (crl, number, next)

/-- what the row holds of it -/
def stored (crl : SignedCrl) (number next : ℤ) (ca : CertificateAuthority) : CertificateAuthority :=
  { ca with crlNumber := number, crlDer := some ⟨number, crl.lastUpdate, next, crl.entries⟩, crlLastGenerated := some crl.lastUpdate }

/-- accept a CRL signed offline for an offline CA -/
def importCrl (lib : CrlLib) (env : Env) (caName : String) (data : Bytes) (actor : String) : M (List (String × Json)) := do
  let d ← Tx.get
  let (id, ca) ← lift (CAService.get d caName)
  let (crl, number, next) ← lift (checkCrl lib env ca caName data)
  setPlain Col.cas id (stored crl number next)
  record env actor "ca.crl.import" caName
    [("crl_number", .num number), ("next_update", .str (lib.isoformat next)),
      ("revoked", .arr (crl.entries.map fun e => .str (hex e.serial)))]
  pure [("ca", .str caName), ("crl_number", .num number), ("next_update", .str (lib.isoformat next)),
    ("revoked", .num crl.entries.length)]

/-- `current_crl` for an offline CA: what was last imported -/
def currentCrl (ca : CertificateAuthority) : Except Err Crl :=
  match ca.crlDer with
  | none => .error (.lookup s!"no CRL has been imported for offline CA {ca.name}")
  | some crl => .ok crl

/-! ## The ceremony side -/

/-- a line of `revoked.jsonl` -/
structure Revoked where
  serial : String
  reason : String
  time : ℤ

/-- the root's directory: the serials of `signed.jsonl`, the log of revocations and the counter -/
structure Dir where
  signed : List String
  revoked : List Revoked
  number : ℤ

/-- the root's certificate, and the passphrases that open its key -/
structure Root where
  cert : X509Cert
  opens : String → Bool

/-- `_REASONS` -/
def offlineReasons : List String := ["unspecified", "key_compromise", "ca_compromise", "superseded", "cessation_of_operation"]

/-- `s.lstrip("0")` -/
def lstripZeros (s : String) : String := String.ofList (s.toList.dropWhile (· = '0'))

/-- `_load_root` -/
def loadRoot (root : Root) (passphrase : String) : Except Err X509Cert :=
  if passphrase.length < 16 then .error (.value "the root key passphrase must be at least 16 characters")
  else if !root.opens passphrase then .error (.value "wrong passphrase for the root key")
  else .ok root.cert

/-- `serial_hex.lower().lstrip("0") or "0"` -/
def normalSerial (env : Env) (serialHex : String) : String :=
  let stripped := lstripZeros (String.ofList (env.lower serialHex.toList))
  if stripped = "" then "0" else stripped

def offlineRevoke (env : Env) (dir : Dir) (serialHex reason : String) : Except Err Dir :=
  let serial := normalSerial env serialHex
  if !(dir.signed.map lstripZeros).contains serial then .error (.value s!"serial {serialHex} was not signed by this root")
  else if !offlineReasons.contains reason then
    let reasons := join ", " offlineReasons
    .error (.value s!"reason must be one of {reasons}")
  else .ok { dir with revoked := dir.revoked ++ [⟨serial, reason, env.now⟩] }

/-- an entry of the CRL, as the builder takes it -/
def revokedEntry (r : Revoked) : Except Err CrlEntry := do
  let serial ← intOfHex r.serial
  if serial ≤ 0 then throw (.value "The serial number should be positive")
  else if serial.toNat ≥ 2 ^ 159 then throw (.value "The serial number should not be more than 159 bits.")
  else if !offlineReasons.contains r.reason then throw (.key r.reason)
  else pure ⟨serial.toNat, r.time, r.reason⟩

/-- the last second of the year 9999 -/
def maxTime : ℤ := 253402300799

/-- sign the root CRL: the next number, and every line of the log -/
def offlineCrl (lib : CrlLib) (root : Root) (env : Env) (dir : Dir) (passphrase : String) (days : ℤ) (signature : String) :
    Except Err (SignedCrl × Dir) := do
  let cert ← loadRoot root passphrase
  let number := dir.number + 1
  let next := env.now + days * 86400
  if maxTime < next then throw (.other "date value out of range")
  else if next < env.now then throw (.value "The next update date must be after the last update date.")
  else
    let entries ← dir.revoked.mapM revokedEntry
    pure (⟨lib.subject cert, some number, env.now, some next, entries, signature⟩, { dir with number := number })

end Certadillo.Ceremony
