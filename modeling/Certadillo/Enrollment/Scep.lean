/-
The SCEP front end (`enrollment/scep.py`): one PKIOperation, from the verified message to the reply.

A message arrives parsed; its DER, its signature and its envelope are the libraries' and enter through `Wire`, as does
the validation webhook, whose notifications after the fact change nothing here. `fail` and `success` commit, as the
closures of the source do.
-/
import Certadillo.Enrollment.Login

namespace Certadillo.Scep

open Integrity Policy Py Platform

/-! ## Messages -/

def PKCS_REQ : String := "19"
def RENEWAL_REQ : String := "17"
def GET_CERT_INITIAL : String := "20"

def BAD_MESSAGE_CHECK : String := "1"
def BAD_REQUEST : String := "2"
def BAD_CERT_ID : String := "4"

/-- what the handler reads of a message whose signature verifies -/
structure PkiMessage where
  /-- the certificate it is signed by, and its PEM -/
  signer : X509Cert
  signerPem : String
  transactionId : String
  messageType : String
  content : String

/-- `load_csr`: the request as the policy engine gets it, and whether proof of possession was checked over the client's
own bytes -/
structure LoadedCsr where
  csr : Csr
  pem : String
  /-- the subject as text -/
  subject : String
  popVerified : Bool
  challenge : Option String

/-- what `validation_call` is sent of a request -/
structure Validation where
  transactionId : String
  app : String
  challenge : String
  csrDer : String
  subject : String
  sans : List String

structure Wire where
  /-- `parse_pki_message`: the message, the detail of a `ScepError`, or any other exception -/
  parsePkiMessage : String → Except Err (Except String PkiMessage)
  decryptEnvelope : String → X509Cert → Except String String
  loadCsr : String → Except String LoadedCsr
  /-- an issued certificate, encrypted to the client -/
  envelope : X509Cert → X509Cert → Except String Unit
  /-- `CERTADILLO_SCEP_VALIDATION_URL` -/
  validationUrl : Option String
  /-- the webhook's answer -/
  validationCall : Validation → Except String Json
  /-- the reason an answer gives, as text -/
  reasonText : Json → String

inductive Reply where
  | success (certificateId : ℕ)
  | failure (failInfo why : String)
  | pending
deriving DecidableEq

/-! ## Replies -/

/-- `ensure_scep_ra`: the RSA certificate clients encrypt to, renewed when under 30 days remain -/
def ensureScepRa (env : Env) (caId : ℕ) (ca : CertificateAuthority) : M X509Cert := do
  let current ← lift (match ca.scepRaCertPem.filter (· ≠ "") with
    | some pem => do
      let cert ← CAService.loadPem env pem
      pure (if cert.tbs.notAfter - env.now > 30 * 86400 then some cert else none)
    | none => pure none)
  match current with
  | some cert =>
    let _ ← lift (libCall .other (env.keystoreLoad (ca.scepRaKeyRef.getD "")))
    pure cert
  | none =>
    let name := ca.name
    let now := env.now
    let caCert ← lift (CAService.loadPem env ca.certPem)
    let signer ← lift (libCall .other (env.keystoreGenerate s!"scep-ra-{name}-{now}" "rsa-3072"))
    let caSigner ← lift (CAService.signerFor env ca)
    let cert ← lift (CAService.signX509 env caSigner (CAService.serviceTbs env 2 (caCert.tbs.commonName.getD "")
      s!"SCEP RA {name}" signer.publicKey (min (env.now + 365 * 86400) caCert.tbs.notAfter)
      ["digital_signature", "key_encipherment"] []))
    setPlain Col.cas caId fun ca => { ca with scepRaCertPem := some cert.pem, scepRaKeyRef := some signer.keyRef }
    pure cert

/-- `fail` -/
def fail (env : Env) (txid info why : String) : M Reply := do
  record env "scep" "certificate.rejected" txid [("protocol", .str "scep"), ("reason", .str why)]
  Tx.commit
  pure (.failure info why)

/-- `success` -/
def success (env : Env) (w : Wire) (msg : PkiMessage) (id : ℕ) (row : Certificate) : M Reply := do
  let cert ← lift (CAService.loadPem env row.pem)
  lift (libCall .value (w.envelope cert msg.signer))
  Tx.commit
  pure (.success id)

/-! ## Polling -/

/-- the newest transaction under an identifier -/
def lastTransaction (d : Db) (txid : String) : Option (ℕ × ScepTransaction) :=
  (d.scepTransactions.all fun t => t.transactionId = txid).getLast?

/-- a certificate's SubjectPublicKeyInfo -/
def spkiOf (cert : X509Cert) : Except Err String :=
  match cert.tbs.publicKey with
  | some key => .ok key.spki
  | none => .error (.value "the certificate's public key cannot be read")

def reject (env : Env) (txid : String) (txnId : ℕ) (why : String) : M Reply := do
  setPlain Col.scepTransactions txnId fun t => { t with status := .rejected }
  fail env txid BAD_REQUEST why

/-- the answer to a poll for an approved request -/
def deliver (env : Env) (w : Wire) (msg : PkiMessage) (txnId : ℕ) (payload : Json) : M Reply := do
  let d ← Tx.get
  let certId ← lift (do toId? (← dget payload "certificate_id"))
  match (certId.filter (· ≠ 0)).bind fun id => (d.certificates.get id).map (id, ·) with
  | none => fail env msg.transactionId BAD_REQUEST "approved, but no certificate was issued"
  | some (id, row) =>
    setPlain Col.scepTransactions txnId fun t => { t with status := .issued, certificateId := some id }
    success env w msg id row

/-- `_poll` -/
def poll (env : Env) (w : Wire) (msg : PkiMessage) : M Reply := do
  let d ← Tx.get
  match lastTransaction d msg.transactionId with
  | none => fail env msg.transactionId BAD_CERT_ID "no pending request with this transactionID"
  | some (txnId, txn) =>
    let original ← lift (do spkiOf (← CAService.loadPem env txn.signerCertPem))
    let key ← lift (spkiOf msg.signer)
    if original ≠ key then
      fail env msg.transactionId BAD_MESSAGE_CHECK "CertPoll must be signed by the key that sent the request"
    else
      match (txn.approvalId.filter (· ≠ 0)).bind d.approvals.get with
      | none => reject env msg.transactionId txnId "request rejected by the RA"
      | some req =>
        if !verify env.st req then
          reject env msg.transactionId txnId "the approval for this request failed its integrity check"
        else if req.status = .rejected then
          let by_ := req.decidedBy.getD "None"
          reject env msg.transactionId txnId s!"request rejected by {by_}"
        else if req.status = .pending then
          Tx.commit
          pure .pending
        else deliver env w msg txnId req.payload

/-! ## Authorization -/

/-- `redeem_scep_challenge`, up to the first write -/
def mayRedeem (env : Env) (d : Db) (raw : String) : Except Err (ℕ × ScepChallenge) := do
  match ← oneOrNone d.scepChallenges fun c => c.challengeHash = env.sha256 raw with
  | none => throw (.forbidden "SCEP challenge password is unknown, used or expired")
  | some (id, ch) =>
    if ch.used || ch.expiresAt < env.now then
      throw (.forbidden "SCEP challenge password is unknown, used or expired")
    else pure (id, ch)

def markRedeemed (id : ℕ) : M Unit := setPlain Col.scepChallenges id fun c => { c with used := true }

/-- the app of a challenge, used as if it were there -/
def challengeApp (d : Db) (ch : ScepChallenge) : Except Err (ℕ × App) :=
  match d.apps.get ch.appId with
  | some app => .ok (ch.appId, app)
  | none => .error (.attribute "'NoneType' object has no attribute 'name'")

def redeemScepChallenge (env : Env) (raw : String) : M (ℕ × App) := do
  let d ← Tx.get
  let (id, ch) ← lift (mayRedeem env d raw)
  markRedeemed id
  lift (challengeApp d ch)

/-- a request's SAN values, as `_names` compares them -/
def names (csr : Csr) : List String := sorted ((csr.san.map San.strings).getD [])

/-- `_authorize`: the app for a challenge-authenticated request, found by its challenge or by the URL's name -/
def authorize (env : Env) (w : Wire) (challenge csrDer : String) (req : LoadedCsr) (txid : String) :
    Option String → M (ℕ × App)
  | none => redeemScepChallenge env challenge
  | some name => do
    let d ← Tx.get
    match (← lift (oneOrNone d.apps fun a => a.name = name)).filter fun a => a.2.status = .active with
    | none => raise (.forbidden s!"no active app {name}")
    | some (appId, app) =>
      let validation ← lift (dget (orEmpty app.options) "scep_validation")
      if validation ≠ .str "webhook" then
        match ← lift (oneOrNone d.scepChallenges fun c => c.challengeHash = env.sha256 challenge) with
        | none => raise (.forbidden "SCEP challenge password is unknown, used or expired")
        | some (_, ch) =>
          if ch.appId ≠ appId then raise (.forbidden "SCEP challenge password is unknown, used or expired")
          else redeemScepChallenge env challenge
      else if (w.validationUrl.filter (· ≠ "")).isNone then
        raise (.forbidden "app uses webhook validation but CERTADILLO_SCEP_VALIDATION_URL is not set")
      else
        match w.validationCall ⟨txid, app.name, challenge, csrDer, req.subject, names req.csr⟩ with
        | .error e => raise (.forbidden s!"validation webhook unavailable: {e}")
        | .ok answer =>
          let valid ← lift (dget answer "valid")
          let reason ← lift (dgetOr answer "reason" (.str "no reason given"))
          let why := w.reasonText reason
          if valid ≠ .bool true then raise (.forbidden s!"validation webhook refused the request: {why}")
          else
            let appName := app.name
            record env s!"scep:{appName}" "scep.webhook.validated" txid [("subject", .str req.subject)]
            pure (appId, app)

/-! ## Enrollment -/

/-- what follows a served request -/
def enrolled (env : Env) (w : Wire) (msg : PkiMessage) (req : LoadedCsr) (who : Actor) (app : ℕ × App) :
    Outcome → M Reply
  | .approval approvalId => do
    let _ ← addPlain Col.scepTransactions noClash
      ⟨msg.transactionId, app.1, some approvalId, msg.signerPem, req.subject, .pending, none⟩
    record env who.name "scep.pending" msg.transactionId [("approval", .num approvalId), ("app", .str app.2.name)]
    Tx.commit
    pure .pending
  | .certificate id => do
    let d ← Tx.get
    match d.certificates.get id with
    | some row => success env w msg id row
    | none => raise (.attribute "'NoneType' object has no attribute 'pem'")
  | .job _ => raise (.attribute "'AdcsJob' object has no attribute 'pem'")

/-- the request for a certificate, once it is known who asks -/
def request (env : Env) (w : Wire) (msg : PkiMessage) (req : LoadedCsr) (who : Actor) (app : ℕ × App)
    (previous : Option ℕ) : M Reply := do
  let result ← Tx.attempt (requestCertificate env who app.1
    ⟨some req.pem, none, none, none, "scep", previous, req.popVerified, none⟩)
  match result with
  | .ok outcome => enrolled env w msg req who app outcome
  | .error (.forbidden text) => fail env msg.transactionId BAD_REQUEST text
  | .error (.policy v) => fail env msg.transactionId BAD_REQUEST (policyText v)
  | .error e => raise e

/-- the app of a renewal: active, and the one of this URL -/
def renewalApp (d : Db) (row : Certificate) (appName : Option String) : Option (ℕ × App) :=
  ((row.appId.filter (· ≠ 0)).bind fun i => (d.apps.get i).map (i, ·)).filter fun a =>
    a.2.status = .active && ((appName.filter (· ≠ "")).all fun name => a.2.name = name)

/-- a renewal: the signature with the current certificate is the authentication -/
def renewal (env : Env) (w : Wire) (msg : PkiMessage) (req : LoadedCsr) (appName : Option String)
    (current : Option (ℕ × Certificate)) : M Reply := do
  let d ← Tx.get
  match current with
  | none => fail env msg.transactionId BAD_MESSAGE_CHECK "RenewalReq must be signed by a current certificate issued here"
  | some (id, row) =>
    match renewalApp d row appName with
    | none =>
      fail env msg.transactionId BAD_REQUEST "the signing certificate does not belong to an active app at this URL"
    | some app =>
      if req.csr.commonNames.headD "" ≠ row.commonName || (names req.csr ≠ [] && names req.csr ≠ sorted row.sans) then
        fail env msg.transactionId BAD_REQUEST "renewal must keep the subject and names of the current certificate"
      else
        let serial := row.serialHex
        request env w msg req ⟨s!"scep-renewal:{serial}", .app, some app.1⟩ app (some id)

/-- a new enrollment: the challenge is the authentication -/
def enrollment (env : Env) (w : Wire) (msg : PkiMessage) (csrDer : String) (req : LoadedCsr)
    (appName : Option String) : M Reply :=
  match req.challenge.filter (· ≠ "") with
  | none => fail env msg.transactionId BAD_REQUEST "CSR has no challengePassword"
  | some challenge => do
    match ← Tx.attempt (authorize env w challenge csrDer req msg.transactionId appName) with
    | .error (.forbidden text) => fail env msg.transactionId BAD_REQUEST text
    | .error e => raise e
    | .ok app =>
      let name := app.2.name
      request env w msg req ⟨s!"scep:{name}", .app, some app.1⟩ app none

/-- the client already sent this request and polls by sending it again -/
def resent (d : Db) (msg : PkiMessage) : Bool :=
  msg.messageType = PKCS_REQ && (d.scepTransactions.first fun t => t.transactionId = msg.transactionId).isSome

/-- the request is a renewal: it says so, or it comes from a current certificate without a challenge -/
def renews (msg : PkiMessage) (req : LoadedCsr) (current : Option (ℕ × Certificate)) : Bool :=
  msg.messageType = RENEWAL_REQ || (current.isSome && (req.challenge.filter (· ≠ "")).isNone)

def answer (env : Env) (w : Wire) (ra : X509Cert) (msg : PkiMessage) (appName : Option String) : M Reply := do
  let d ← Tx.get
  let mtype := msg.messageType
  if mtype = GET_CERT_INITIAL || resent d msg then poll env w msg
  else if mtype ≠ PKCS_REQ && mtype ≠ RENEWAL_REQ then
    fail env msg.transactionId BAD_REQUEST s!"messageType {mtype} not supported"
  else
    match w.decryptEnvelope msg.content ra with
    | .error e => fail env msg.transactionId BAD_REQUEST s!"cannot decrypt the request envelope: {e}"
    | .ok csrDer =>
      match w.loadCsr csrDer with
      | .error e =>
        fail env msg.transactionId BAD_MESSAGE_CHECK s!"CSR is malformed or its signature does not verify: {e}"
      | .ok req =>
        let current ← lift (issuedHere env d msg.signer)
        if renews msg req current then renewal env w msg req appName current
        else enrollment env w msg csrDer req appName

/-- `handle_pki_operation`; a `ScepError` is answered in `_scep`, with what was written so far -/
def handlePkiOperation (env : Env) (w : Wire) (der : String) (appName : Option String) : M (Except String Reply) := do
  let d ← Tx.get
  let ca ← lift (CAService.defaultIssuing env d)
  let ra ← ensureScepRa env ca.1 ca.2
  match ← lift (w.parsePkiMessage der) with
  | .error detail => pure (.error detail)
  | .ok msg =>
    let reply ← answer env w ra msg appName
    pure (.ok reply)

end Certadillo.Scep
