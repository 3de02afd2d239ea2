/-
The EST front end (`enrollment/est.py`): enrollment, re-enrollment and server-side key generation.

Who a request comes from is `identify`. An `HTTPException` is raised with its text; what a handler raises is rolled back.
A result that is not a certificate is answered with 202 by `enroll`, and has no serial for `serverkeygen` to report.
-/
import Certadillo.Enrollment.Login

namespace Certadillo.Est

open Integrity Policy Py Platform

/-- what an endpoint reads of a request -/
structure Request where
  /-- the client certificate the trusted load balancer forwards -/
  cert : Option X509Cert
  /-- what its other credential authenticates as -/
  basic : Option Actor
  /-- the body, if it is a PKCS#10 request, and its PEM -/
  body : Option (Csr × String)

structure Site where
  /-- the profiles with `allow_server_keygen` -/
  allowServerKeygen : String → Bool
  /-- a request for a new key of the profile's kind, under the template's subject and names -/
  keygenCsr : Profile → Csr → Except String String

inductive Reply where
  | issued (certificateId : ℕ)
  /-- 202 with Retry-After -/
  | accepted
deriving DecidableEq

/-- `_csr_from_body` -/
def csrFromBody (req : Request) : Except Err (Csr × String) :=
  match req.body with
  | some b => .ok b
  | none => .error (.other "body must be a base64 DER PKCS#10 request")

/-- the application a request enrolls for -/
def enrollingApp (who : Actor) : Except Err ℕ :=
  match who.appId with
  | some appId =>
    if who.role ≠ .app then .error (.other "EST enrollment requires an app credential or client certificate")
    else .ok appId
  | none => .error (.other "EST enrollment requires an app credential or client certificate")

def How.text : How → String
  | basic => "basic"
  | certificate => "certificate"
  | idevid => "idevid"

/-- `_enroll`, with the outcome of the request -/
def enrolled (env : Env) (who : Actor) (how : How) (previous : Option ℕ) : Outcome → M Reply
  | .certificate id => do
    let d ← Tx.get
    record env who.name "est.enroll" (((d.certificates.get id).map (·.serialHex)).getD "")
      [("auth", .str how.text), ("reenroll", .bool previous.isSome)]
    Tx.commit
    let _ ← lift (match d.certificates.get id with
      | some row => CAService.loadPem env row.pem
      | none => .error (.attribute "'NoneType' object has no attribute 'pem'"))
    pure (.issued id)
  | _ => do
    Tx.commit
    pure .accepted

/-- a rejection is answered with 400 -/
def badRequest : Err → Err
  | .policy v => .other (policyText v)
  | e => e

/-- `_enroll` -/
def enroll (env : Env) (who : Actor) (csrPem : String) (how : How) (previous : Option ℕ) : M Reply := do
  let appId ← lift (enrollingApp who)
  let result ← Tx.attempt (requestCertificate env who appId
    ⟨some csrPem, none, none, none, "est", previous, false, none⟩)
  match result with
  | .error e => raise (badRequest e)
  | .ok outcome => enrolled env who how previous outcome

def simpleenroll (env : Env) (req : Request) : M Reply := do
  let d ← Tx.get
  let (who, _, how) ← lift (identify env d req.cert req.basic)
  let csr ← lift (csrFromBody req)
  enroll env who csr.2 how none

/-! ## Re-enrollment -/

/-- the SAN values of a request or certificate, as `_names` compares them -/
def names (san : Option San) : List String := sorted ((san.map San.strings).getD [])

/-- RFC 7030 4.2.2: subject and SAN must match the certificate being renewed -/
def keepsNames (env : Env) (csr : Csr) (current : Certificate) : Except Err Unit := do
  let cert ← CAService.loadPem env current.pem
  if csr.commonNames.head? ≠ cert.tbs.commonName ||
      (names csr.san ≠ [] && names csr.san ≠ names cert.tbs.san) then
    throw (.other "re-enrollment must keep the subject and names of the current certificate")
  else pure ()

/-- the row that expires last -/
def latest : List (ℕ × Certificate) → Option (ℕ × Certificate)
  | [] => none
  | r :: rest =>
    match latest rest with
    | none => some r
    | some b => if b.2.notAfter > r.2.notAfter then some b else some r

/-- the active certificate a credential without one re-enrolls -/
def reenrolled (d : Db) (who : Actor) (csr : Csr) : Except Err ℕ :=
  match latest (d.certificates.all fun c => c.appId = who.appId && c.status = .active &&
      c.commonName = csr.commonNames.headD "") with
  | some r => .ok r.1
  | none => .error (.other "no active certificate with this subject to re-enroll")

def simplereenroll (env : Env) (req : Request) : M Reply := do
  let d ← Tx.get
  let (who, current, how) ← lift (identify env d req.cert req.basic)
  let csr ← lift (csrFromBody req)
  match current with
  | some (id, row) =>
    lift (keepsNames env csr.1 row)
    enroll env who csr.2 how (some id)
  | none =>
    if how = .idevid then raise (.other "a manufacturer certificate can enroll, not re-enroll")
    else
      let prev ← lift (reenrolled d who csr.1)
      enroll env who csr.2 how (some prev)

/-! ## Server-side key generation -/

/-- the profile of an app that may have its key made here -/
def keygenProfile (env : Env) (site : Site) (d : Db) (appId : ℕ) : Except Err Profile :=
  match d.apps.get appId with
  | none => .error (.attribute "'NoneType' object has no attribute 'profile'")
  | some app => do
    let name := app.profile
    let prof ← profile env.policies app.profile
    if !site.allowServerKeygen app.profile then
      throw (.other s!"profile {name} does not allow server-side key generation")
    else if prof.dualControl then
      throw (.other "server-generated keys cannot wait for approval; use simpleenroll")
    else pure prof

/-- `serverkeygen`, with the outcome of the request -/
def generated (env : Env) (who : Actor) (how : How) : Outcome → M Reply
  | .certificate id => do
    let d ← Tx.get
    match d.certificates.get id with
    | none => raise (.attribute "'NoneType' object has no attribute 'serial_hex'")
    | some row =>
      let kind := row.keyType
      let size := row.keySize
      record env who.name "est.serverkeygen" row.serialHex
        [("auth", .str how.text), ("key", .str s!"{kind}-{size}"), ("stored", .bool false)]
      Tx.commit
      let _ ← lift (CAService.loadPem env row.pem)
      pure (.issued id)
  | .approval _ => raise (.attribute "'ApprovalRequest' object has no attribute 'serial_hex'")
  | .job _ => raise (.attribute "'AdcsJob' object has no attribute 'key_type'")

def serverkeygen (env : Env) (site : Site) (req : Request) : M Reply := do
  let d ← Tx.get
  let (who, _, how) ← lift (identify env d req.cert req.basic)
  let appId ← lift (enrollingApp who)
  let tmpl ← lift (csrFromBody req)
  let prof ← lift (keygenProfile env site d appId)
  let csrPem ← lift (libCall .value (site.keygenCsr prof tmpl.1))
  let result ← Tx.attempt (requestCertificate env who appId
    ⟨some csrPem, none, none, none, "est", none, false, none⟩)
  match result with
  | .error e => raise (badRequest e)
  | .ok outcome => generated env who how outcome

inductive Endpoint where
  | simpleenroll | simplereenroll | serverkeygen
deriving DecidableEq

/-- one request -/
def handle (env : Env) (site : Site) (req : Request) : Endpoint → M Reply
  | .simpleenroll => simpleenroll env req
  | .simplereenroll => simplereenroll env req
  | .serverkeygen => serverkeygen env site req

end Certadillo.Est
