/-
The CMP front end (`enrollment/cmp.py`): authentication of a message, enrollment, confirmation, polling, revocation.

A message arrives parsed; its DER, and the checks of its protection and proofs of possession, are the libraries' and
enter through `Wire`. `handle` is one request: what a handler raises is rolled back, recorded and answered with an error.
-/
import Certadillo.Enrollment.Login

namespace Certadillo.Cmp

open Integrity Policy Py Platform

/-! ## Messages -/

/-- `popo` of a certificate request: a signature over it, or anything else -/
inductive Pop where
  | signature (poposkInput : Bool) (alg : String) (value : String)
  | other
deriving DecidableEq

/-- one `CertReqMsg`; a part the decoder cannot read holds the exception's text -/
structure CertReqMsg where
  certReqId : ℤ
  publicKey : Option (Except String PublicKey)
  subject : Option (Except String (List String))
  /-- the subjectAltName among the template's extensions -/
  extensions : Option (Except String (Option San))
  pop : Pop

structure CertStatusItem where
  certHash : String
  status : Option ℤ
deriving DecidableEq

/-- one `RevDetails`: the serial, and the reason code of its CRL entry extension -/
structure RevDetails where
  serialNumber : Option ℕ
  reasonCode : Option ℕ
deriving DecidableEq

inductive Body where
  | ir (msgs : List CertReqMsg)
  | cr (msgs : List CertReqMsg)
  | kur (msgs : List CertReqMsg)
  /-- the PEM of the PKCS#10 request, if it can be read -/
  | p10cr (csrPem : Option String)
  | certConf (statuses : List CertStatusItem)
  | pollReq
  | rr (details : List RevDetails)
  | genm
  | other (name : String)

def Body.name : Body → String
  | ir _ => "ir"
  | cr _ => "cr"
  | kur _ => "kur"
  | p10cr _ => "p10cr"
  | certConf _ => "certConf"
  | pollReq => "pollReq"
  | rr _ => "rr"
  | genm => "genm"
  | other name => name

/-- `PBMParameter`, or the decoder's failure -/
structure Pbm where
  owf : String
  mac : String
  iterations : ℤ
deriving DecidableEq

/-- `CmpRequest` -/
structure CmpRequest where
  body : Body
  /-- in hex -/
  txid : String
  senderKid : String
  protAlg : Option String
  pbm : Except String Pbm
  protection : Option String
  extraCerts : List X509Cert
  implicitConfirm : Bool

/-- the cryptography of a message -/
structure Wire where
  /-- `cmp_secret_plain` -/
  secretPlain : String → Except String String
  macVerifies : String → CmpRequest → Bool
  signatureVerifies : X509Cert → CmpRequest → Bool
  popVerifies : PublicKey → CertReqMsg → Bool
  /-- the digest of a certificate under its own signature's hash -/
  certHash : X509Cert → Except String String

/-! ## Failures -/

def BAD_ALG : ℕ := 0
def BAD_MESSAGE_CHECK : ℕ := 1
def BAD_REQUEST : ℕ := 2
def BAD_CERT_ID : ℕ := 4
def BAD_DATA_FORMAT : ℕ := 5
def WRONG_AUTHORITY : ℕ := 6
def BAD_POP : ℕ := 9
def CERT_REVOKED : ℕ := 10
def WRONG_INTEGRITY : ℕ := 12
def BAD_CERT_TEMPLATE : ℕ := 19
def SIGNER_NOT_TRUSTED : ℕ := 20
def NOT_AUTHORIZED : ℕ := 23
def SYSTEM_FAILURE : ℕ := 25

def PBM : String := "1.2.840.113533.7.66.13"

def OWF : List String :=
  ["1.3.14.3.2.26", "2.16.840.1.101.3.4.2.1", "2.16.840.1.101.3.4.2.2", "2.16.840.1.101.3.4.2.3"]

def MAC : List String :=
  ["1.3.6.1.5.5.8.1.2", "1.2.840.113549.2.7", "1.2.840.113549.2.9", "1.2.840.113549.2.10", "1.2.840.113549.2.11"]

def SIG : List String :=
  ["1.2.840.10045.4.3.2", "1.2.840.10045.4.3.3", "1.2.840.10045.4.3.4", "1.2.840.113549.1.1.11",
    "1.2.840.113549.1.1.12", "1.2.840.113549.1.1.13"]

def MAX_PBM_ITERATIONS : ℤ := 100000

/-! ## Authentication -/

/-- `Protection`: who a message is from -/
inductive Sender where
  | mac (secretId : ℕ)
  | sig (id : ℕ) (row : Certificate)
deriving DecidableEq

structure Protection where
  sender : Sender
  /-- with its key; a MAC does not need its secret's app to exist -/
  app : Option (ℕ × App)

def checkPbm (req : CmpRequest) : Except Err Unit := do
  let p ← libCall .other req.pbm
  let iterations := p.iterations
  let owf := p.owf
  let mac := p.mac
  if !OWF.contains p.owf || !MAC.contains p.mac then throw (.cmp BAD_ALG s!"PBM with {owf}/{mac} is not supported")
  else if iterations < 1 || iterations > MAX_PBM_ITERATIONS then
    throw (.cmp BAD_ALG s!"PBM iterationCount {iterations} out of range")

/-- the app of a secret or a row -/
def senderApp (d : Db) (appId : Option ℕ) : Option (ℕ × App) :=
  (appId.filter (· ≠ 0)).bind fun i => (d.apps.get i).map (i, ·)

def authenticateMac (env : Env) (w : Wire) (d : Db) (req : CmpRequest) : Except Err Protection := do
  match ← oneOrNone d.cmpSecrets fun r => r.reference = req.senderKid with
  | none => throw (.cmp SIGNER_NOT_TRUSTED "unknown senderKID")
  | some (id, row) =>
    let continuing := (d.cmpTransactions.first fun t => t.transactionId = req.txid && t.secretId = some id).isSome
    if (row.used && !continuing) || (row.expiresAt < env.now && !continuing) then
      throw (.cmp SIGNER_NOT_TRUSTED "the shared secret was already used or has expired")
    else
      checkPbm req
      let secret ← libCall .other (w.secretPlain row.secretEnc)
      if !w.macVerifies secret req then throw (.cmp WRONG_INTEGRITY "MAC does not verify")
      else
        pure ⟨.mac id, (d.apps.get row.appId).map (row.appId, ·)⟩

/-- After kur the old certificate is superseded, but the client still protects certConf with it: accept it in its own
transaction. -/
def continuingSender (env : Env) (d : Db) (req : CmpRequest) (cert : X509Cert) :
    Except Err (Option (ℕ × Certificate)) := do
  match ← oneOrNone d.cmpTransactions fun t => t.transactionId = req.txid with
  | none => pure none
  | some (_, txn) =>
    match txn.senderCertPem.filter (· ≠ "") with
    | none => pure none
    | some pem =>
      let sender ← CAService.loadPem env pem
      if sender = cert then oneOrNone d.certificates fun c => c.fingerprintSha256 = cert.fingerprint else pure none

def authenticateSig (env : Env) (w : Wire) (d : Db) (req : CmpRequest) : Except Err Protection := do
  match req.extraCerts with
  | [] =>
    throw (.cmp SIGNER_NOT_TRUSTED
      "signature-protected messages must carry the signer's certificate first in extraCerts")
  | cert :: _ =>
    if !w.signatureVerifies cert req then throw (.cmp BAD_MESSAGE_CHECK "signature protection does not verify")
    else
      let body := req.body.name
      let current ← issuedHere env d cert (body = "rr")
      let row ← if current.isNone && (body = "certConf" || body = "pollReq") then continuingSender env d req cert
        else pure current
      match row with
      | none => throw (.cmp SIGNER_NOT_TRUSTED "the signing certificate was not issued here or is no longer current")
      | some (id, row) =>
        match senderApp d row.appId with
        | some (appId, app) =>
          if app.status ≠ .active then
            throw (.cmp NOT_AUTHORIZED "the signing certificate does not belong to an active app")
          else pure ⟨.sig id row, some (appId, app)⟩
        | none => throw (.cmp NOT_AUTHORIZED "the signing certificate does not belong to an active app")

def authenticate (env : Env) (w : Wire) (d : Db) (req : CmpRequest) : Except Err Protection :=
  match req.protection, req.protAlg with
  | some _, some alg =>
    if alg = PBM then authenticateMac env w d req
    else if SIG.contains alg then authenticateSig env w d req
    else .error (.cmp BAD_ALG s!"protection algorithm {alg} is not supported")
  | _, _ => .error (.cmp BAD_MESSAGE_CHECK "unprotected requests are not accepted")

/-! ## Responses -/

/-- what a response tells the client -/
inductive Reply where
  | accepted (certificateId : ℕ)
  | waiting
  | rejected (text : String)
  | pkiConf
  | pollRep
  | revoked (statuses : List (Option String))
  | caCerts
deriving DecidableEq

/-- `ensure_cmp_ra`: the certificate that signs CMP responses, renewed when under 30 days remain -/
def ensureCmpRa (env : Env) (caId : ℕ) (ca : CertificateAuthority) : M Unit := do
  let current ← lift (match ca.cmpRaCertPem.filter (· ≠ "") with
    | some pem => do
      let cert ← CAService.loadPem env pem
      pure (decide (cert.tbs.notAfter - env.now > 30 * 86400))
    | none => pure false)
  if current then
    let _ ← lift (libCall .other (env.keystoreLoad (ca.cmpRaKeyRef.getD "")))
    pure ()
  else
    let name := ca.name
    let now := env.now
    let caCert ← lift (CAService.loadPem env ca.certPem)
    let signer ← lift (libCall .other (env.keystoreGenerate s!"cmp-ra-{name}-{now}" "ec-p256"))
    let caSigner ← lift (CAService.signerFor env ca)
    let cert ← lift (CAService.signX509 env caSigner (CAService.serviceTbs env 2 (caCert.tbs.commonName.getD "")
      s!"CMP RA {name}" signer.publicKey (min (env.now + 365 * 86400) caCert.tbs.notAfter) ["digital_signature"]
      ["1.3.6.1.5.5.7.3.28"]))
    setPlain Col.cas caId fun ca => { ca with cmpRaCertPem := some cert.pem, cmpRaKeyRef := some signer.keyRef }

/-- `Responder(p, req, prot)`: the issuing CA that answers -/
def responder (env : Env) : M (ℕ × CertificateAuthority) := do
  let d ← Tx.get
  let ca ← lift (CAService.defaultIssuing env d)
  ensureCmpRa env ca.1 ca.2
  pure ca

/-- `r.chain()` -/
def responderChain (env : Env) (ca : ℕ × CertificateAuthority) : M Unit := do
  let d ← Tx.get
  let _ ← lift (CAService.chain env d ca)
  pure ()

/-! ## Enrollment -/

/-- `_template` -/
def templateOf (env : Env) (m : CertReqMsg) (previous : Option Certificate) : Except Err (List String × PublicKey × Csr) := do
  match m.publicKey with
  | none => throw (.cmp BAD_CERT_TEMPLATE "the template has no public key (central key generation is not offered)")
  | some key =>
    let pub ← match key with
      | .ok k => pure k
      | .error _ => throw (.cmp BAD_CERT_TEMPLATE "cannot read the template public key")
    let old ← match previous with
      | some p => do
        let c ← CAService.loadPem env p.pem
        pure (some c)
      | none => pure none
    let subject ← match m.subject, old with
      | some s, _ => libCall .value s
      | none, some old => pure old.tbs.commonName.toList
      | none, none => throw (.cmp BAD_CERT_TEMPLATE "the template has no subject")
    let own ← match m.extensions with
      | some e => libCall .value e
      | none => pure none
    let san := own.or (old.bind fun c => c.tbs.san)
    pure (subject, pub, .template subject pub san)

/-- `_check_pop` -/
def checkPop (w : Wire) (m : CertReqMsg) (pub : PublicKey) : Except Err Unit :=
  match m.pop with
  | .other => .error (.cmp BAD_POP "proof of possession must be a signature")
  | .signature poposkInput alg _ =>
    if poposkInput then
      .error (.cmp BAD_POP "poposkInput is only for requests without a subject; not supported")
    else if !SIG.contains alg then .error (.cmp BAD_ALG s!"PoP signature algorithm {alg} not supported")
    else if !w.popVerifies pub m then .error (.cmp BAD_POP "proof of possession signature does not verify")
    else .ok ()

/-- what an enrollment message asks for: its request id, and a template or a PKCS#10 request -/
def readEnrollment (env : Env) (w : Wire) (body : Body) (previous : Option Certificate) :
    Except Err (ℤ × Option Csr × Option String) := do
  let one (msgs : List CertReqMsg) : Except Err (ℤ × Option Csr × Option String) :=
    match msgs with
    | [m] => do
      let (subject, pub, template) ← templateOf env m previous
      checkPop w m pub
      match previous with
      | some prev =>
        if subject.headD "" ≠ prev.commonName then
          throw (.cmp BAD_CERT_TEMPLATE "kur must keep the subject of the certificate being updated")
        else pure (m.certReqId, some template, none)
      | none => pure (m.certReqId, some template, none)
    | _ => .error (.cmp BAD_REQUEST "send exactly one certificate request per message (RFC 9483 4.1)")
  match body with
  | .p10cr (some pem) => pure (0, none, some pem)
  | .p10cr none => throw (.cmp BAD_DATA_FORMAT "p10cr does not contain a PKCS#10 request")
  | .ir msgs => one msgs
  | .cr msgs => one msgs
  | .kur msgs => one msgs
  | _ => throw (.key body.name)

/-- the body of the answer to an enrollment -/
def replyKind : Body → String
  | .ir _ => "ip"
  | .kur _ => "kup"
  | _ => "cp"

/-- the first `n` characters -/
def cut (n : ℕ) (s : String) : String := String.ofList (s.toList.take n)

/-- `_deliver` -/
def deliver (env : Env) (ca : ℕ × CertificateAuthority) (req : CmpRequest) (sender : Sender) (txnId : ℕ)
    (txn : CmpTransaction) (certId : Option ℕ) : M Reply := do
  let d ← Tx.get
  match certId.bind fun id => (d.certificates.get id).map (id, ·) with
  | none => raise (.attribute "'NoneType' object has no attribute 'pem'")
  | some (id, row) =>
    let _ ← lift (CAService.loadPem env row.pem)
    setPlain Col.cmpTransactions txnId fun t =>
      { t with certificateId := some id, status := if req.implicitConfirm then .confirmed else .waitingConf }
    let short := cut 16 txn.transactionId
    record env s!"cmp:{short}" "cmp.issue" row.serialHex
      [("body", .str txn.bodyType), ("implicit_confirm", .bool req.implicitConfirm),
        ("protection", .str (match sender with
          | .mac _ => "mac"
          | .sig _ _ => "sig"))]
    Tx.commit
    responderChain env ca
    pure (.accepted id)

/-- `prot.app`, used as if it were there -/
def appOfSender (prot : Protection) : Except Err (ℕ × App) :=
  match prot.app with
  | some a => .ok a
  | none => .error (.attribute "'NoneType' object has no attribute 'name'")

/-- the actor of an enrollment -/
def enrollActor (sender : Sender) (app : ℕ × App) : Actor :=
  let appName := app.2.name
  match sender with
  | .mac _ => ⟨s!"cmp:{appName}", .app, some app.1⟩
  | .sig _ row =>
    let serial := row.serialHex
    ⟨s!"cmp-cert:{serial}", .app, some app.1⟩

/-- the certificate a kur replaces -/
def updatedBy (body : Body) (sender : Sender) : Except Err (Option (ℕ × Certificate)) :=
  match body, sender with
  | .kur _, .mac _ => .error (.cmp NOT_AUTHORIZED "kur must be signed with the certificate being updated")
  | .kur _, .sig id row => .ok (some (id, row))
  | _, _ => .ok none

/-- the transaction an enrollment opens: it records the credential that opened it -/
def openTransaction (sender : Sender) (appId : ℕ) (txid : String) (reqId : ℤ) (kind : String) : M ℕ := do
  match sender with
  | .mac secretId =>
    setPlain Col.cmpSecrets secretId fun s => { s with used := true }
    addPlain Col.cmpTransactions (unique "cmp_transactions.transaction_id" CmpTransaction.transactionId txid)
      ⟨txid, some appId, some secretId, none, none, none, reqId, kind, .waitingConf⟩
  | .sig _ row =>
    addPlain Col.cmpTransactions (unique "cmp_transactions.transaction_id" CmpTransaction.transactionId txid)
      ⟨txid, some appId, none, some row.pem, none, none, reqId, kind, .waitingConf⟩

/-- what follows a served request -/
def enrolled (env : Env) (ca : ℕ × CertificateAuthority) (req : CmpRequest) (sender : Sender) (app : ℕ × App)
    (reqId : ℤ) (outcome : Outcome) : M Reply := do
  let txnId ← openTransaction sender app.1 req.txid reqId (replyKind req.body)
  match outcome with
  | .approval approvalId =>
    setPlain Col.cmpTransactions txnId fun t => { t with status := .pending, approvalId := some approvalId }
    record env (enrollActor sender app).name "cmp.pending" req.txid [("approval", .num approvalId)]
    Tx.commit
    pure .waiting
  | .certificate id =>
    let d ← Tx.get
    match d.cmpTransactions.get txnId with
    | none => raise (.attribute "no transaction")
    | some txn => deliver env ca req sender txnId txn (some id)
  | .job _ => raise (.attribute "'AdcsJob' object has no attribute 'pem'")

def handleEnrollment (env : Env) (w : Wire) (ca : ℕ × CertificateAuthority) (req : CmpRequest) (prot : Protection) :
    M Reply := do
  let previous ← lift (updatedBy req.body prot.sender)
  let (reqId, template, csrPem) ← lift (readEnrollment env w req.body (previous.map Prod.snd))
  let app ← lift (appOfSender prot)
  let who := enrollActor prot.sender app
  let result ← Tx.attempt (requestCertificate env who app.1
    ⟨csrPem, none, none, none, "cmp", previous.map Prod.fst, false, template⟩)
  let reject (text : String) : M Reply := do
    record env who.name "certificate.rejected" app.2.name [("protocol", .str "cmp"), ("reason", .str text)]
    Tx.commit
    pure (.rejected text)
  match result with
  | .ok outcome => enrolled env ca req prot.sender app reqId outcome
  | .error (.policy v) => reject (policyText v)
  | .error (.forbidden text) => reject text
  | .error e => raise e

/-! ## Confirmation and polling -/

/-- the client's verdict on its certificate -/
def confirmed (w : Wire) (cert : X509Cert) (statuses : List CertStatusItem) : Except Err Bool :=
  match statuses with
  | [] => .ok false
  | st :: _ => do
    let h ← libCall .attribute (w.certHash cert)
    if st.certHash ≠ h then throw (.cmp BAD_CERT_ID "certHash does not match the issued certificate")
    else pure (match st.status with
      | none => true
      | some n => n = 0 || n = 1)

/-- the transaction of a message, in the state it needs -/
def transactionIn (d : Db) (txid : String) (status : CmpStatus) (text : String) :
    Except Err (ℕ × CmpTransaction) := do
  match ← oneOrNone d.cmpTransactions fun t => t.transactionId = txid with
  | none => throw (.cmp BAD_REQUEST text)
  | some (id, txn) => if txn.status ≠ status then throw (.cmp BAD_REQUEST text) else pure (id, txn)

def handleCertConf (env : Env) (w : Wire) (req : CmpRequest) (statuses : List CertStatusItem) : M Reply := do
  let d ← Tx.get
  let (txnId, txn) ← lift (transactionIn d req.txid .waitingConf
    "no certificate is waiting for confirmation in this transaction")
  match txn.certificateId.bind fun id => (d.certificates.get id).map (id, ·) with
  | none => raise (.attribute "'NoneType' object has no attribute 'pem'")
  | some (id, row) =>
    let cert ← lift (CAService.loadPem env row.pem)
    let accepted ← lift (confirmed w cert statuses)
    let short := cut 16 txn.transactionId
    if accepted then
      setPlain Col.cmpTransactions txnId fun t => { t with status := .confirmed }
      record env s!"cmp:{short}" "cmp.confirmed" row.serialHex []
    else
      -- the client refused the certificate; it must not stay valid
      setPlain Col.cmpTransactions txnId fun t => { t with status := .rejected }
      revoke env ⟨s!"cmp:{short}", .app, row.appId⟩ id "cessation_of_operation" none
      record env s!"cmp:{short}" "cmp.rejected_by_client" row.serialHex []
    Tx.commit
    pure .pkiConf

/-- the `certificate_id` key of an approval's payload -/
def payloadCertificate (payload : Json) : Except Err (Option ℕ) := do toId? (← dget payload "certificate_id")

def handlePoll (env : Env) (ca : ℕ × CertificateAuthority) (req : CmpRequest) (prot : Protection) : M Reply := do
  let d ← Tx.get
  let (txnId, txn) ← lift (transactionIn d req.txid .pending "nothing is pending in this transaction")
  let approval := (txn.approvalId.bind d.approvals.get).filter fun a => verify env.st a
  match approval with
  | none =>
    setPlain Col.cmpTransactions txnId fun t => { t with status := .rejected }
    Tx.commit
    raise (.cmp NOT_AUTHORIZED "the approval for this request failed its integrity check")
  | some approval =>
    if approval.status = .pending then
      Tx.commit
      pure .pollRep
    else if approval.status = .rejected then
      setPlain Col.cmpTransactions txnId fun t => { t with status := .rejected }
      Tx.commit
      let by_ := approval.decidedBy.getD "None"
      pure (.rejected s!"rejected by {by_}")
    else
      let certId ← lift (payloadCertificate approval.payload)
      deliver env ca req prot.sender txnId txn certId

/-! ## Revocation -/

def REASON_CODES : List (ℕ × String) :=
  [(0, "unspecified"), (1, "key_compromise"), (3, "affiliation_changed"), (4, "superseded"),
    (5, "cessation_of_operation")]

/-- one `RevDetails` of an rr: the rejection's text, or the revocation -/
def revokeOne (env : Env) (row : Certificate) (appId : ℕ) (det : RevDetails) : M (Option String) := do
  match det.serialNumber with
  | none => pure (some "serialNumber is required")
  | some n =>
    let d ← Tx.get
    match d.certificates.first fun c => c.serialHex = hex n && c.source = .issued && c.appId = some appId with
    | none => pure (some "no such certificate for this app")
    | some (id, c) =>
      if c.status = .revoked then pure (some "already revoked")
      else
        let reason := match det.reasonCode with
          | some code => (REASON_CODES.lookup code).getD "unspecified"
          | none => "unspecified"
        let serial := row.serialHex
        revoke env ⟨s!"cmp-cert:{serial}", .app, some appId⟩ id reason none
        pure none

def revokeEach (env : Env) (row : Certificate) (appId : ℕ) : List RevDetails → M (List (Option String))
  | [] => pure []
  | det :: rest => do
    let st ← revokeOne env row appId det
    let sts ← revokeEach env row appId rest
    pure (st :: sts)

def handleRr (env : Env) (prot : Protection) (details : List RevDetails) : M Reply :=
  match prot.sender with
  | .mac _ => raise (.cmp NOT_AUTHORIZED "revocation requests must be signed with a certificate of the same app")
  | .sig _ row => do
    let app ← lift (appOfSender prot)
    let out ← revokeEach env row app.1 details
    Tx.commit
    pure (.revoked out)

/-! ## One request -/

/-- the handlers -/
def answer (env : Env) (w : Wire) (req : CmpRequest) (prot : Protection) : M Reply := do
  let ca ← responder env
  match req.body with
  | .certConf statuses => handleCertConf env w req statuses
  | .pollReq => handlePoll env ca req prot
  | .rr details => handleRr env prot details
  | .genm => do
    responderChain env ca
    pure .caCerts
  | .other name => raise (.cmp BAD_REQUEST s!"{name} is not supported")
  | _ => handleEnrollment env w ca req prot

/-- authentication, and the handler of the message -/
def dispatch (env : Env) (w : Wire) (req : CmpRequest) (label : Option String) : M Reply := do
  let d ← Tx.get
  let prot ← lift (authenticate env w d req)
  match label.filter (· ≠ "") with
  | some name =>
    let app ← lift (appOfSender prot)
    if app.2.name ≠ name then raise (.cmp WRONG_AUTHORITY s!"this credential is not for {name}")
    else answer env w req prot
  | none => answer env w req prot

/-- a CMP client always gets a CMP answer -/
def cmpError : Err → ℕ × String
  | .cmp fail text => (fail, text)
  | _ => (SYSTEM_FAILURE, "internal error")

def handle (env : Env) (w : Wire) (req : CmpRequest) (label : Option String) : M (Except (ℕ × String) Reply) := do
  let answer ← Tx.attempt (dispatch env w req label)
  match answer with
  | .ok reply => pure (.ok reply)
  | .error e =>
    Tx.rollback
    record env "cmp" "cmp.error" (cut 32 req.txid) [("body", .str req.body.name), ("reason", .str (cmpError e).2)]
    Tx.commit
    let _ ← responder env
    pure (.error (cmpError e))

end Certadillo.Cmp
