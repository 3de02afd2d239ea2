/-
Certificates as credentials: how EST (`identify`), SCEP (`_issued_here`) and CMP (`issued_here`) decide that a presented
certificate is a current credential of an application.

The three front ends look the row up by fingerprint and check the certificate's dates and its signature by the row's CA.
EST asks for the trusted status of the row, the two others for its status column.
-/
import Certadillo.Services.Approvals

namespace Certadillo

open Integrity Policy Py

/-- `filter_by(fingerprint_sha256=.., source="issued").one_or_none()` -/
def issuedRow (d : Db) (cert : X509Cert) : Except Err (Option (ℕ × Certificate)) :=
  oneOrNone d.certificates fun c => c.fingerprintSha256 = cert.fingerprint && c.source = .issued

def validNow (env : Env) (cert : X509Cert) : Bool := cert.tbs.notBefore ≤ env.now && env.now ≤ cert.tbs.notAfter

/-- `cert.verify_directly_issued_by` of the CA under this key, with every failure caught -/
def signedBy (env : Env) (d : Db) (caId : ℕ) (cert : X509Cert) : Bool :=
  match (d.cas.get caId).bind fun ca => env.loadPemCert ca.certPem with
  | none => false
  | some ca => env.verifyDirectlyIssuedBy cert ca

namespace Scep

/-- The Certificate row for a signer cert this platform issued and that is still current. -/
def issuedHere (env : Env) (d : Db) (cert : X509Cert) : Except Err (Option (ℕ × Certificate)) := do
  match ← issuedRow d cert with
  | none => pure none
  | some (id, row) =>
    match row.caId with
    | none => pure none
    | some ca =>
      if row.status ≠ .active then pure none
      else if !validNow env cert then pure none
      else if !signedBy env d ca cert then pure none
      else pure (some (id, row))

end Scep

namespace Cmp

def issuedHere (env : Env) (d : Db) (cert : X509Cert) (allowRevoked : Bool) :
    Except Err (Option (ℕ × Certificate)) := do
  match ← issuedRow d cert with
  | none => pure none
  | some (id, row) =>
    match row.caId with
    | none => pure none
    | some ca =>
      if row.status ≠ .active && !(allowRevoked && row.status = .revoked) then pure none
      else if !validNow env cert then pure none
      else if !signedBy env d ca cert then pure none
      else pure (some (id, row))

end Cmp

namespace Est

inductive How where
  | basic | certificate | idevid
deriving DecidableEq

/-- the row the client certificate was issued under, checked against its CA -/
def certRow (env : Env) (d : Db) (cert : X509Cert) : Except Err (Option (ℕ × Certificate)) := do
  match ← issuedRow d cert with
  | none => pure none
  | some (id, row) =>
    match row.caId with
    | none => pure none
    | some ca => pure (if signedBy env d ca cert then some (id, row) else none)

/-- the active app of a row whose sealed status is active, so a row flipped back to "active" in SQL cannot log in -/
def certApp (env : Env) (d : Db) (row : Certificate) : Option ℕ :=
  match row.appId.filter (· ≠ 0) with
  | none => none
  | some appId =>
    if trustedStatus env.st d row = .active && ((d.apps.get appId).map (·.status)) = some .active then some appId
    else none

/-- a manufacturer (IDevID) certificate from a CA registered for an active app -/
def anchorApp (env : Env) (d : Db) (cert : X509Cert) : List EstTrustAnchor → Except Err (Option ℕ)
  | [] => .ok none
  | anchor :: rest => do
    let ca ← CAService.loadPem env anchor.certPem
    if cert.tbs.issuer = ca.tbs.commonName.getD "" && env.verifyDirectlyIssuedBy cert ca &&
        ((d.apps.get anchor.appId).map (·.status)) = some .active then pure (some anchor.appId)
    else anchorApp env d cert rest

/-- `identify`: the actor, the row if the client certificate was issued here, and how. `basic` is what the request's
other credential authenticates as. -/
def identify (env : Env) (d : Db) (cert : Option X509Cert) (basic : Option Actor) :
    Except Err (Actor × Option (ℕ × Certificate) × How) := do
  let fallback : Except Err (Actor × Option (ℕ × Certificate) × How) :=
    match basic with
    | some a => .ok (a, none, .basic)
    | none => .error (.other "authenticate with a client certificate or HTTP Basic (the app credential)")
  match cert.filter fun c => validNow env c with
  | none => fallback
  | some cert =>
    let row ← certRow env d cert
    match row.bind fun r => (certApp env d r.2).map fun a => (r, a) with
    | some ((id, row), appId) =>
      let serial := row.serialHex
      pure (⟨s!"est-cert:{serial}", .app, some appId⟩, some (id, row), .certificate)
    | none =>
      match ← anchorApp env d cert d.trustAnchors.vals with
      | some appId =>
        let subject := String.ofList ((env.rfc4514 cert).toList.take 80)
        pure (⟨s!"est-idevid:{subject}", .app, some appId⟩, none, .idevid)
      | none => fallback

end Est

end Certadillo
